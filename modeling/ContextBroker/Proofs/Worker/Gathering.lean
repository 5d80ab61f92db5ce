import ContextBroker.Proofs.Worker.Deciding
import ContextBroker.Proofs.Worker.Writing

set_option autoImplicit false

/-! # What a request gathers

While a request is open it keeps account of the identities that were resolved for it, with a state
or without one (`Gathering`). An identity that it still awaits is bound, and one that was resolved
with a state has been written, or cleared, since the request was opened. So the context that it
ends with is told by the rounds since then and by what is bound in the end
(`Worker.Run.gathered`). -/

namespace ContextBroker

namespace Round

/-- The round resolves `i` for the open request with the token `t`, which awaits it. -/
def Resolves (x : Round) (t : Token) (i : Identity) (available : Bool) : Prop :=
  x.turn.resolution? t (accepted x.effects) = some (i, available) ∧
    ∃ r, x.before.requests.get? t = some r ∧ r.awaits i = true

variable {x : Round} {t : Token} {r : Request} {i : Identity}

theorem resolves_iff (hr : x.before.requests.get? t = some r) {available : Bool} :
    x.Resolves t i available ↔
      x.turn.resolution? t (accepted x.effects) = some (i, available) ∧ r.awaits i = true := by
  unfold Resolves
  rw [hr]
  simp only [Option.some.injEq, exists_eq_left']

theorem endpoint_progress (x : Round) (t : Token) (r : Request) :
    (x.progress t r).endpoint = r.endpoint := by
  unfold progress
  split
  · split
    · exact Request.endpoint_resolve r _ _
    · rfl
  · rfl

/-- A round resolves one identity for a request, or none at all. -/
theorem progress_cases (hr : x.before.requests.get? t = some r) :
    (∃ i available, x.progress t r = r.resolve i available ∧ r.awaits i = true ∧
      ∀ j b, x.Resolves t j b ↔ j = i ∧ b = available) ∨
    (x.progress t r = r ∧ ∀ j b, ¬ x.Resolves t j b) := by
  simp only [resolves_iff hr]
  unfold progress
  cases ha : x.turn.resolution? t (accepted x.effects) with
  | none => exact .inr ⟨rfl, by simp⟩
  | some a =>
    obtain ⟨i, available⟩ := a
    by_cases hi : r.awaits i = true
    · refine .inl ⟨i, available, by simp only [hi, if_true], hi, fun j b => ?_⟩
      simp only [Option.some.injEq, Prod.mk.injEq]
      constructor
      · rintro ⟨⟨rfl, rfl⟩, -⟩
        exact ⟨rfl, rfl⟩
      · rintro ⟨rfl, rfl⟩
        exact ⟨⟨rfl, rfl⟩, hi⟩
    · refine .inr ⟨by simp only [hi, Bool.false_eq_true, if_false], fun j b h => hi ?_⟩
      simp only [Option.some.injEq, Prod.mk.injEq] at h
      rw [h.1.1]
      exact h.2

theorem mem_refreshed_progress (hr : x.before.requests.get? t = some r) :
    i ∈ (x.progress t r).refreshed ↔ i ∈ r.refreshed ∨ x.Resolves t i true := by
  rcases progress_cases hr with ⟨j, available, hp, -, hres⟩ | ⟨hp, hres⟩
  · rw [hp, hres, Request.refreshed_resolve]
    cases available <;> simp [or_comm]
  · rw [hp, or_iff_left (hres i true)]

theorem mem_unavailable_progress (hr : x.before.requests.get? t = some r) :
    i ∈ (x.progress t r).unavailable ↔ i ∈ r.unavailable ∨ x.Resolves t i false := by
  rcases progress_cases hr with ⟨j, available, hp, -, hres⟩ | ⟨hp, hres⟩
  · rw [hp, hres, Request.unavailable_resolve]
    cases available <;> simp [or_comm]
  · rw [hp, or_iff_left (hres i false)]

theorem awaits_progress (hr : x.before.requests.get? t = some r) :
    (x.progress t r).awaits i = true ↔
      r.awaits i = true ∧ ∀ available, ¬ x.Resolves t i available := by
  rcases progress_cases hr with ⟨j, available, hp, -, hres⟩ | ⟨hp, hres⟩
  · simp only [hp, hres, Request.awaits, SortedSet.contains_iff_mem, Request.awaited_resolve,
      SortedSet.mem_erase, not_and]
    constructor
    · rintro ⟨hne, hi⟩
      exact ⟨hi, fun _ he => absurd he hne⟩
    · rintro ⟨hi, hne⟩
      exact ⟨fun he => hne _ he rfl, hi⟩
  · rw [hp, and_iff_left (hres i)]

/-- A turn that resolves a bound identity with a state overwrites what is cached for it. -/
theorem overwrite?_of_resolution? (h : x.turn.resolution? t (accepted x.effects) = some (i, true))
    (hi : (x.before.store.get? i).isSome = true) : ∃ o, x.overwrite? i = some o := by
  unfold overwrite?
  cases hturn : x.turn with
  | shutdown => simp [hturn, Turn.resolution?] at h
  | deserted => simp [hturn, Turn.resolution?] at h
  | task around task =>
    rw [hturn] at h
    cases task with
    | respond j sample u =>
      simp only [Turn.resolution?, Task.resolution?, Option.ite_none_right_eq_some,
        Option.some.injEq, Prod.mk.injEq, and_true] at h
      exact ⟨_, if_pos ⟨h.2, hi⟩⟩
    | pushState j sample ticket =>
      simp only [Turn.resolution?, Task.resolution?, Option.ite_none_right_eq_some,
        Option.some.injEq, Prod.mk.injEq, and_true] at h
      exact ⟨_, if_pos ⟨h.2, hi⟩⟩
    | setState j payload policy token ticket =>
      simp only [Turn.resolution?, Task.resolution?, Option.ite_none_right_eq_some,
        Option.some.injEq, Prod.mk.injEq, and_true] at h
      exact ⟨_, if_pos ⟨h.2, h.1.1⟩⟩
    | unavailable j u unreachable =>
      cases unreachable <;> simp [Turn.resolution?, Task.resolution?] at h
    | unregister j ticket => simp [Turn.resolution?, Task.resolution?] at h
    | _ => simp [Turn.resolution?, Task.resolution?] at h

/-- A request that is open after a round was open before and is not decided, or the round opened
    it. -/
theorem Sound.open_after (hx : x.Sound) {r' : Request} (hr : x.after.requests.get? t = some r') :
    (∃ r, x.before.requests.get? t = some r ∧ r' = x.progress t r ∧ ∀ o, ¬ x.Decides t r o) ∨
    (x.before.requests.get? t = none ∧ ∃ around timeout,
      x.turn = .task around (.getContext t r'.requester r'.endpoint timeout) ∧
      (x.before.store.scatter around.retrievable r'.endpoint).2 ≠ [] ∧
      r' = {
        requester := r'.requester, endpoint := r'.endpoint
        awaited := .ofList
          ((x.before.store.scatter around.retrievable r'.endpoint).2.map (·.identity))
        generation := x.before.generation + 1
        timer := some (x.before.timers + 1) }) := by
  cases hb : x.before.requests.get? t with
  | some r =>
    have hset := (hx.settled hb).1
    rw [hr] at hset
    have hnot : ∀ o, ¬ x.Decides t r o := by
      intro o hd
      rw [hd.verdict] at hset
      simp at hset
    rw [verdict_stays hnot] at hset
    exact .inl ⟨r, rfl, Option.some.inj hset, hnot⟩
  | none =>
    have hreq := hx.rules.requests t
    simp only [Turn.ruling, hb, hr] at hreq
    cases ha : x.turn.arrival? x.before t with
    | none => simp [ha] at hreq
    | some v =>
      obtain ⟨requester, v⟩ := v
      rw [ha] at hreq
      rcases Turn.arrival?_cases ha with ⟨around, endpoint, timeout, hturn, hv⟩ | ⟨-, hv⟩
      · have hp : (x.before.store.scatter around.retrievable endpoint).2 ≠ [] := by
          intro hp
          simp [hv, Worker.admitted, Request.isComplete, isEmpty_ofList, hp] at hreq
        obtain rfl := Option.some.inj (hr.symm.trans (hx.opened hturn hp).1)
        exact .inr ⟨rfl, around, timeout, hturn, hp, rfl⟩
      · simp [hv] at hreq

end Round

/-! ## The account of a request -/

/-- The request `r` with the token `t`, opened as `r₀`, after the rounds `since` and with `store` as
    the store. -/
structure Gathering (t : Token) (r₀ : Request) (since : List Round) (r : Request) (store : Store) :
    Prop where
  endpoint : r.endpoint = r₀.endpoint
  refreshed (i : Identity) : i ∈ r.refreshed ↔ ∃ x ∈ since, x.Resolves t i true
  unavailable (i : Identity) : i ∈ r.unavailable ↔ ∃ x ∈ since, x.Resolves t i false
  /-- What is awaited is bound. -/
  bound (i : Identity) : r.awaits i = true → (store.get? i).isSome = true
  /-- What was polled and resolved with a state has only a sample written since. -/
  fresh (i : Identity) (sample : Sample) : r₀.awaits i = true → r.awaits i ≠ true →
    ¬ i ∈ r.unavailable → store.state? i = some sample → lastWrite i since = some sample

theorem Gathering.round {t : Token} {r₀ r : Request} {since : List Round} {x : Round}
    (h : Gathering t r₀ since r x.before.store) (hx : x.Sound)
    (hr : x.before.requests.get? t = some r) :
    Gathering t r₀ (since ++ [x]) (x.progress t r) x.after.store where
  endpoint := (x.endpoint_progress t r).trans h.endpoint
  refreshed i := by
    rw [Round.mem_refreshed_progress hr, h.refreshed]
    simp [or_and_right, exists_or]
  unavailable i := by
    rw [Round.mem_unavailable_progress hr, h.unavailable]
    simp [or_and_right, exists_or]
  bound i hi := by
    rw [Round.awaits_progress hr] at hi
    rcases hx.bound_after (h.bound i hi.1) with hb | ⟨around, ticket, hturn, hacc⟩
    · exact hb
    · -- Unregistering `i` resolves it, so it would not be awaited any more.
      refine absurd ((Round.resolves_iff hr).2 ⟨?_, hi.1⟩) (hi.2 false)
      simp [hturn, Turn.resolution?, Task.resolution?, hacc]
  fresh i sample hpolled hi hu hs := by
    rw [Round.mem_unavailable_progress hr, not_or] at hu
    rw [hx.state?_after] at hs
    rw [lastWrite_concat, Round.write?]
    cases ho : x.overwrite? i with
    | some o =>
      rw [ho] at hs
      obtain rfl : o = some sample := hs
      rfl
    | none =>
      rw [ho] at hs
      by_cases hbefore : r.awaits i = true
      · -- The round resolves `i` with a state, and so overwrites it.
        rw [Ne, Round.awaits_progress hr, not_and] at hi
        have hres : x.Resolves t i true := by
          by_contra hno
          exact hi hbefore fun available => by cases available <;> [exact hu.2; exact hno]
        obtain ⟨o, ho'⟩ := Round.overwrite?_of_resolution? hres.1 (h.bound i hbefore)
        simp [ho] at ho'
      · exact h.fresh i sample hpolled hbefore hu.1 hs

namespace Worker.Run

variable {w : Worker} {x opening : Round} {rounds earlier since : List Round} {t : Token}
  {r r₀ : Request}

/-- The account that an open request keeps is right, from the round on that opened it. -/
theorem gathering (h : Run w (earlier ++ opening :: since))
    (hr : opening.after.requests.get? t = some r₀)
    (hstart : Gathering t r₀ [] r₀ opening.after.store) (hu : Undecided t r₀ since) :
    Gathering t r₀ since (follow t r₀ since) w.store := by
  refine Run.since (P := fun l w => Undecided t r₀ l → Gathering t r₀ l (follow t r₀ l) w.store)
    ?_ (fun _ => hstart) ?_ h hu
  · rintro l w w' ⟨tokens, rfl⟩ hp
    exact hp
  · intro l y hrun hy ih hu
    have hu := (undecided_concat.1 hu).1
    rw [follow_concat]
    exact (ih hu).round hy (hrun.undecided hr hu).1

/-- A request that was just opened awaits what is polled, all of which is bound. -/
theorem gathering_opened (h : Run x.before rounds) (hx : x.Sound) {around : Surroundings}
    {requester : Requester} {endpoint : String} {timeout : Nat}
    (hturn : x.turn = .task around (.getContext t requester endpoint timeout))
    (hpolled : (x.before.store.scatter around.retrievable endpoint).2 ≠ [])
    (hr : x.after.requests.get? t = some r₀) :
    r₀.requester = requester ∧ r₀.endpoint = endpoint ∧
      (∀ i, r₀.awaits i = true ↔
        i ∈ (x.before.store.scatter around.retrievable endpoint).2.map (·.identity)) ∧
      Gathering t r₀ [] r₀ x.after.store := by
  obtain ⟨hget, -, -⟩ := hx.opened hturn hpolled
  obtain rfl := Option.some.inj (hget.symm.trans hr)
  have hawaits : ∀ i, i ∈ SortedSet.ofList
      ((x.before.store.scatter around.retrievable endpoint).2.map (·.identity)) ↔
      i ∈ (x.before.store.scatter around.retrievable endpoint).2.map (·.identity) :=
    fun i => SortedSet.mem_ofList
  refine ⟨rfl, rfl, hawaits, rfl, by simp, by simp, fun i hi => ?_, fun i _ h₁ h₂ => absurd h₁ h₂⟩
  obtain ⟨-, b, hb, -⟩ := (Store.mem_scatter h.filed).1 ((hawaits i).1 hi)
  have hs := hx.leaves.store
  simp only at hs
  rw [hs, hturn]
  simp only [Turn.write, Task.write, Store.get?_scatter, hb, Option.map_some, Option.isSome_some]

/-- Every open request was opened by some round, and followed since then. -/
theorem origin (h : Run w rounds) (hr : w.requests.get? t = some r) :
    ∃ earlier opening since around endpoint timeout r₀, rounds = earlier ++ opening :: since ∧
      opening.turn = .task around (.getContext t r.requester endpoint timeout) ∧
      (opening.before.store.scatter around.retrievable endpoint).2 ≠ [] ∧
      opening.after.requests.get? t = some r₀ ∧ Undecided t r₀ since ∧ follow t r₀ since = r ∧
      ∀ y ∈ since, ¬ t ∈ y.turn.tokens := by
  induction h generalizing r with
  | start tokens => simp at hr
  | tokens h tokens ih => exact ih hr
  | @round x rounds h hx ih =>
    rcases hx.open_after hr with ⟨r', hb, rfl, hnot⟩ | ⟨-, around, timeout, hturn, hp, -⟩
    · obtain ⟨earlier, opening, since, around, endpoint, timeout, r₀, rfl, hturn, hp, hopen, hu,
        hf, hno⟩ := ih hb
      refine ⟨earlier, opening, since ++ [x], around, endpoint, timeout, r₀, by simp, ?_, hp, hopen,
        undecided_concat.2 ⟨hu, by rw [hf]; exact hnot⟩, by rw [follow_concat, hf], ?_⟩
      · rw [x.requester_progress]
        exact hturn
      · intro y hy
        rcases List.mem_append.1 hy with hy | hy
        · exact hno y hy
        · obtain rfl : y = x := by simpa using hy
          exact hx.not_mem_tokens hb
    · exact ⟨rounds, x, [], around, r.endpoint, timeout, r, rfl, hturn, hp, hr,
        fun _ _ _ he => by simp at he, rfl, by simp⟩

/-- A request that ends with a context ends with what it gathered since it was opened. -/
theorem gathered (h : Run x.before rounds) (hx : x.Sound) {requester : Requester}
    {endpoint : String} {context : Context}
    (hd : (requester, .context endpoint context) ∈ deliveries t x.effects) :
    ∃ earlier opening since around timeout r₀ r, rounds ++ [x] = earlier ++ opening :: since ∧
      opening.turn = .task around (.getContext t requester endpoint timeout) ∧
      (∀ y ∈ since, ¬ t ∈ y.turn.tokens) ∧
      (∀ i, r₀.awaits i = true ↔
        i ∈ (opening.before.store.scatter around.retrievable endpoint).2.map (·.identity)) ∧
      Gathering t r₀ since r x.after.store ∧ (∀ i, r.awaits i ≠ true) ∧
      context = x.after.store.aggregate endpoint r.refreshed r.unavailable := by
  have hdel := hx.rules.delivers t
  cases hb : x.before.requests.get? t with
  | some r =>
    have hset := (hx.settled hb).2
    rw [hset] at hd
    obtain ⟨o, hdec⟩ : ∃ o, x.Decides t r o := by
      by_contra hno
      rw [Round.verdict_stays fun o hd => hno ⟨o, hd⟩] at hd
      simp at hd
    rw [hdec.verdict, Verdict.delivered_ends, List.mem_singleton, Prod.mk.injEq] at hd
    obtain ⟨rfl, ho⟩ := hd
    cases hdec with
    | answered i available hres hi hlast =>
      obtain ⟨rfl, rfl⟩ := Outcome.context.inj ho
      obtain ⟨earlier, opening, since, around, endpoint, timeout, r₀, rfl, hturn, hp, hopen, hu, hf,
        hno⟩ := h.origin hb
      obtain ⟨hrun, hsound⟩ := h.split
      obtain ⟨-, he, hawaits, hstart⟩ := hrun.gathering_opened hsound hturn hp hopen
      have hg := h.gathering hopen hstart hu
      rw [hf] at hg
      have hend : r.endpoint = endpoint := hg.endpoint.trans he
      refine ⟨earlier, opening, since ++ [x], around, timeout, r₀, x.progress t r, by simp, ?_, ?_,
        ?_, hg.round hx hb, ?_, rfl⟩
      · rw [hend]
        exact hturn
      · intro y hy
        rcases List.mem_append.1 hy with hy | hy
        · exact hno y hy
        · obtain rfl : y = x := by simpa using hy
          exact hx.not_mem_tokens hb
      · rw [hend]
        exact hawaits
      · intro j hj
        rw [Round.awaits_progress hb] at hj
        refine hj.2 available ((Round.resolves_iff hb).2 ⟨?_, hj.1⟩)
        rw [hlast j hj.1]
        exact hres
    | _ => simp at ho
  | none =>
    simp only [Turn.ruling, hb] at hdel
    rw [hdel] at hd
    cases ha : x.turn.arrival? x.before t with
    | none => simp [ha] at hd
    | some v =>
      obtain ⟨q, v⟩ := v
      simp only [ha, Option.map_some, Option.getD_some] at hd
      rcases Turn.arrival?_cases ha with ⟨around, e, timeout, hturn, hv⟩ | ⟨-, hv⟩
      · by_cases hp : (x.before.store.scatter around.retrievable e).2 = []
        · have hs := hx.leaves.store
          simp only [hturn, Turn.write, Task.write] at hs
          simp only [hv, Worker.admitted, Request.isComplete, isEmpty_ofList, List.isEmpty_map, hp,
            List.isEmpty_nil, if_true, Verdict.delivered_ends, List.mem_singleton, Prod.mk.injEq,
            Outcome.context.injEq] at hd
          obtain ⟨rfl, rfl, rfl⟩ := hd
          have hnone : ∀ i, ¬ (Request.awaits ⟨requester, endpoint, ∅, ∅, ∅, none, 0⟩ i = true) :=
            fun i hi => SortedSet.not_mem_empty i hi
          refine ⟨rounds, x, [], around, timeout, ⟨requester, endpoint, ∅, ∅, ∅, none, 0⟩,
            ⟨requester, endpoint, ∅, ∅, ∅, none, 0⟩, rfl, hturn, by simp, fun i => ?_,
            ⟨rfl, by simp, by simp, fun i hi => absurd hi (hnone i),
              fun i _ hi => absurd hi (hnone i)⟩, hnone, by rw [hs]⟩
          simp [hp, hnone]
        · simp [hv, Worker.admitted, Request.isComplete, isEmpty_ofList, hp] at hd
      · simp [hv] at hd

end Worker.Run

end ContextBroker
