import ContextBroker.Proofs.Worker.Run

set_option autoImplicit false

/-! # What decides a request

Between the round that opens a request and the one that decides it, all that happens to the request
is that identities it awaits are resolved (`Round.progress`). It is decided by the first round that
is one of four things (`Round.Decides`): its own timeout, word that its endpoint is unreachable, the
end of the work, or the answer to the last identity that it awaits. -/

namespace ContextBroker

namespace Round

/-- The request `r` with the token `t` after a round that did not decide it. -/
def progress (x : Round) (t : Token) (r : Request) : Request :=
  match x.turn.resolution? t (accepted x.effects) with
  | some (i, available) => if r.awaits i then r.resolve i available else r
  | none => r

/-- The round decides the request `r` with the token `t`, with this outcome. -/
inductive Decides (x : Round) (t : Token) (r : Request) : Outcome → Prop
  /-- The timeout that was set for this very request elapsed. -/
  | timeout (around : Surroundings) (h : x.turn = .task around (.timeout t r.generation)) :
      Decides x t r (.failure .timeout)
  /-- Some provider told the request that the endpoint is unreachable. -/
  | unreachable (around : Surroundings) (i : Identity)
      (h : x.turn = .task around (.unavailable i t true)) :
      Decides x t r (.failure .endpointUnreachable)
  /-- The work ended. -/
  | cancelled (h : x.turn.isEnd = true) : Decides x t r (.failure .cancelled)
  /-- The last identity that the request awaited was resolved. -/
  | answered (i : Identity) (available : Bool)
      (h : x.turn.resolution? t (accepted x.effects) = some (i, available))
      (hawaits : r.awaits i = true) (hlast : ∀ j, r.awaits j = true → j = i) :
      Decides x t r (.context r.endpoint (x.after.store.aggregate r.endpoint
        (x.progress t r).refreshed (x.progress t r).unavailable))

/-- The verdict of the round on the request `r` with the token `t`. -/
def verdict (x : Round) (t : Token) (r : Request) : Verdict :=
  x.turn.verdict (accepted x.effects) x.after.store t r

variable {x : Round} {t : Token} {r : Request}

theorem progress_eq {i : Identity} {available : Bool}
    (h : x.turn.resolution? t (accepted x.effects) = some (i, available))
    (hi : r.awaits i = true) : x.progress t r = r.resolve i available := by
  rw [progress, h]
  simp only [hi, if_true]

theorem requester_progress (x : Round) (t : Token) (r : Request) :
    (x.progress t r).requester = r.requester := by
  unfold progress
  split
  · split
    · exact Request.requester_resolve r _ _
    · rfl
  · rfl

/-- A turn that makes requests fail resolves nothing. -/
theorem failure?_eq_none {turn : Turn} {acc : Bool} {a : Identity × Bool}
    (h : turn.resolution? t acc = some a) (generation : Nat) :
    turn.failure? t generation = none := by
  cases turn with
  | shutdown => simp [Turn.resolution?] at h
  | deserted => simp [Turn.resolution?] at h
  | task around task =>
    cases task with
    | timeout => simp [Turn.resolution?, Task.resolution?] at h
    | unavailable i u unreachable =>
      cases unreachable with
      | true => simp [Turn.resolution?, Task.resolution?] at h
      | false => rfl
    | _ => rfl

theorem isComplete_resolve {i : Identity} {available : Bool} :
    (r.resolve i available).isComplete = true ↔ ∀ j, r.awaits j = true → j = i := by
  rw [Request.isComplete, SortedSet.isEmpty_iff, Request.awaited_resolve]
  simp only [SortedSet.mem_erase, not_and, Request.awaits, SortedSet.contains_iff_mem]
  refine forall_congr' fun j => ?_
  constructor
  · intro h hj
    by_contra hne
    exact h hne hj
  · intro h hne hj
    exact hne (h hj)

theorem Decides.verdict {o : Outcome} (h : x.Decides t r o) : x.verdict t r = .ends o := by
  unfold Round.verdict Turn.verdict
  cases h with
  | timeout around h => simp [h, Turn.failure?, Task.failure?]
  | unreachable around i h => simp [h, Turn.failure?, Task.failure?]
  | cancelled h =>
    have hf : x.turn.failure? t r.generation = some .cancelled := by
      cases hx : x.turn with
      | task => simp [hx, Turn.isEnd] at h
      | shutdown => rfl
      | deserted => rfl
    rw [hf]
  | answered i available h hi hlast =>
    rw [failure?_eq_none h, h]
    simp only [Request.answered, hi, if_true, isComplete_resolve.2 hlast, progress_eq h hi,
      Request.endpoint_resolve]

theorem decides_of_failure? {error : RequestError}
    (h : x.turn.failure? t r.generation = some error) : x.Decides t r (.failure error) := by
  cases hx : x.turn with
  | shutdown ticket rest =>
    rw [hx] at h
    obtain rfl := Option.some.inj h
    exact .cancelled (by rw [hx]; rfl)
  | deserted =>
    rw [hx] at h
    obtain rfl := Option.some.inj h
    exact .cancelled (by rw [hx]; rfl)
  | task around task =>
    rw [hx] at h
    cases task with
    | timeout u g =>
      simp only [Turn.failure?, Task.failure?, Option.ite_none_right_eq_some,
        Option.some.injEq] at h
      obtain ⟨⟨rfl, rfl⟩, rfl⟩ := h
      exact .timeout around hx
    | unavailable i u unreachable =>
      cases unreachable with
      | true =>
        simp only [Turn.failure?, Task.failure?, Option.ite_none_right_eq_some,
          Option.some.injEq] at h
        obtain ⟨rfl, rfl⟩ := h
        exact .unreachable around i hx
      | false => simp [Turn.failure?, Task.failure?] at h
    | _ => simp [Turn.failure?, Task.failure?] at h

/-- A round that does not decide a request leaves it open, with at most one answer more. -/
theorem verdict_stays (h : ∀ o, ¬ x.Decides t r o) : x.verdict t r = .stays (x.progress t r) := by
  unfold verdict Turn.verdict
  cases hf : x.turn.failure? t r.generation with
  | some error => exact absurd (decides_of_failure? hf) (h _)
  | none =>
    simp only
    unfold progress
    cases ha : x.turn.resolution? t (accepted x.effects) with
    | none => rfl
    | some a =>
      obtain ⟨i, available⟩ := a
      simp only [Request.answered]
      -- Were this the last answer, the round would have decided the request.
      by_cases hi : r.awaits i = true
      · rw [if_pos hi, if_pos hi, if_neg]
        exact fun hc => h _ (.answered i available ha hi (isComplete_resolve.1 hc))
      · rw [if_neg hi, if_neg hi]

/-- A round carries out its verdict on an open request. -/
theorem Sound.settled (hx : x.Sound) (hr : x.before.requests.get? t = some r) :
    x.after.requests.get? t = (x.verdict t r).request? ∧
      deliveries t x.effects = (x.verdict t r).delivered r.requester := by
  have hreq := hx.rules.requests t
  have hdel := hx.rules.delivers t
  simp only [Turn.ruling, hr] at hreq hdel
  exact ⟨hreq, hdel⟩

/-- A request with something to poll is opened, and its timer set. -/
theorem Sound.opened (hx : x.Sound) {around : Surroundings} {requester : Requester}
    {endpoint : String} {timeout : Nat}
    (hturn : x.turn = .task around (.getContext t requester endpoint timeout))
    (hpolled : (x.before.store.scatter around.retrievable endpoint).2 ≠ []) :
    x.after.requests.get? t = some {
        requester, endpoint
        awaited := .ofList
          ((x.before.store.scatter around.retrievable endpoint).2.map (·.identity))
        generation := x.before.generation + 1
        timer := some (x.before.timers + 1) } ∧
      deliveries t x.effects = [] ∧
      .setTimer (x.before.timers + 1) timeout t (x.before.generation + 1) ∈ x.effects := by
  have hfree : x.before.requests.get? t = none :=
    hx.distinct.apart t (by simp [hturn, Turn.tokens, Turn.requests, requested, Task.request?])
  have hrul : x.turn.ruling x.before (x.after, x.effects) t =
      some (requester, x.before.admitted around.retrievable requester endpoint) := by
    simp [Turn.ruling, hfree, hturn, Turn.arrival?]
  have hreq := hx.rules.requests t
  have hdel := hx.rules.delivers t
  have hasked := hx.leaves.asked
  rw [hrul] at hreq hdel
  simp only [Worker.admitted, Request.isComplete, isEmpty_ofList, List.isEmpty_map,
    List.isEmpty_iff, hpolled, if_false] at hreq hdel
  refine ⟨hreq, hdel, ?_⟩
  have hmem : Effect.setTimer (x.before.timers + 1) timeout t (x.before.generation + 1) ∈
      asked x.effects := by
    rw [hasked, hturn, Turn.asks]
    cases hp : (x.before.store.scatter around.retrievable endpoint).2 with
    | nil => exact absurd hp hpolled
    | cons => exact List.mem_cons_self ..
  exact (List.mem_filter.1 hmem).1

end Round

/-! ## Following a request -/

/-- The request `r` with the token `t` after rounds that did not decide it. -/
def follow (t : Token) (r : Request) (rounds : List Round) : Request :=
  rounds.foldl (fun r x => x.progress t r) r

/-- None of the rounds decides the request, each met as those before it left it. -/
def Undecided (t : Token) (r : Request) (rounds : List Round) : Prop :=
  ∀ earlier x later, rounds = earlier ++ x :: later → ∀ o, ¬ x.Decides t (follow t r earlier) o

section

variable {t : Token} {r : Request} {rounds : List Round}

theorem follow_concat (t : Token) (r : Request) (rounds : List Round) (x : Round) :
    follow t r (rounds ++ [x]) = x.progress t (follow t r rounds) := by
  simp [follow]

theorem requester_follow (t : Token) (r : Request) (rounds : List Round) :
    (follow t r rounds).requester = r.requester := by
  induction rounds using List.reverseRecOn with
  | nil => rfl
  | append_singleton rounds x ih => rw [follow_concat, Round.requester_progress, ih]

theorem undecided_concat {x : Round} :
    Undecided t r (rounds ++ [x]) ↔
      Undecided t r rounds ∧ ∀ o, ¬ x.Decides t (follow t r rounds) o := by
  constructor
  · intro h
    refine ⟨?_, h rounds x [] rfl⟩
    intro l y m he
    exact h l y (m ++ [x]) (by simp [he])
  · rintro ⟨h, hx⟩ l y m he
    rcases append_cons_eq_concat he.symm with ⟨-, rfl, rfl⟩ | ⟨m, -, hl⟩
    · exact hx
    · exact h l y m hl

end

namespace Worker.Run

variable {w : Worker} {opening : Round} {earlier later : List Round} {t : Token} {r : Request}

/-- Until it is decided a request is open, and nothing is delivered with its token. -/
theorem undecided (h : Run w (earlier ++ opening :: later))
    (hr : opening.after.requests.get? t = some r) (hu : Undecided t r later) :
    w.requests.get? t = some (follow t r later) ∧ ∀ y ∈ later, deliveries t y.effects = [] := by
  refine since (P := fun l w => Undecided t r l → w.requests.get? t = some (follow t r l) ∧
    ∀ y ∈ l, deliveries t y.effects = []) ?_ ?_ ?_ h hu
  · rintro l w w' ⟨tokens, rfl⟩ hp
    exact hp
  · exact fun _ => ⟨hr, by simp⟩
  · intro l y _ hy ih hu
    obtain ⟨hu, hnot⟩ := undecided_concat.1 hu
    obtain ⟨hget, hquiet⟩ := ih hu
    obtain ⟨hreq, hdel⟩ := hy.settled hget
    rw [Round.verdict_stays hnot] at hreq hdel
    refine ⟨by rw [hreq, follow_concat]; rfl, fun z hz => ?_⟩
    rcases List.mem_append.1 hz with hz | hz
    · exact hquiet z hz
    · obtain rfl : z = y := by simpa using hz
      exact hdel

/-- The first round that decides a request closes it and delivers its outcome. -/
theorem decided {x : Round} {after : List Round}
    (h : Run w (earlier ++ opening :: later ++ x :: after))
    (hr : opening.after.requests.get? t = some r) (hu : Undecided t r later) {o : Outcome}
    (hd : x.Decides t (follow t r later) o) :
    x.after.requests.get? t = none ∧ deliveries t x.effects = [(r.requester, o)] := by
  obtain ⟨hrun, hx⟩ := h.split
  obtain ⟨hreq, hdel⟩ := hx.settled (hrun.undecided hr hu).1
  rw [hd.verdict, requester_follow] at *
  exact ⟨hreq, hdel⟩

end Worker.Run

end ContextBroker
