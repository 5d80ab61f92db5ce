import ContextBroker.Proofs.History.Decisions
import ContextBroker.Proofs.Worker.Draining
import ContextBroker.Proofs.Worker.Gathering

set_option autoImplicit false

/-! # Kinds and families

A push may change the policy of a binding, but only among those that are read. So kinds fall into
three families, and a binding leaves the family that it was registered in only by being registered
again (`Worker.Run.kind_by_registration`). Within its family its kind is told by the pushes under a
policy since then. What carries this is the one thing that a round can do to a kind
(`Round.Sound.kind_after`). -/

namespace ContextBroker

/-- What no push can change about a kind. -/
inductive Kind.Family
  /-- Polled for every request. -/
  | pulled
  /-- Never part of a context. -/
  | hidden
  /-- Part of contexts, always or when refreshed. -/
  | shown
  deriving DecidableEq

/-- The family of a kind. -/
def Kind.family : Kind → Family
  | .pull => .pulled
  | .push .never => .hidden
  | .push .always | .push .sometimes => .shown

/-- A push that a kind allows stays within its family. -/
theorem Kind.family_of_allows {kind : Kind} {policy : RefreshPolicy}
    (h : kind.allows policy = true) : (Kind.push policy).family = kind.family := by
  cases kind with
  | pull => simp [allows, policy?] at h
  | push current => cases current <;> cases policy <;> first | rfl | simp [allows, policy?,
      RefreshPolicy.allows] at h

namespace Round

/-- The kind that the round registers `i` under. -/
def registers? (x : Round) (i : Identity) : Option Kind :=
  match x.turn with
  | .task _ (.register j _ kind _) => if j = i then some kind else none
  | _ => none

/-- Whether the round unbinds `i`. -/
def unbinds (x : Round) (i : Identity) : Bool :=
  match x.turn with
  | .task _ (.unregister j _) => j = i && accepted x.effects
  | _ => false

/-- The policy under which the round takes a push of `i`. -/
def pushedUnder? (x : Round) (i : Identity) : Option RefreshPolicy :=
  match x.turn with
  | .task _ (.setState j _ policy _ _) => if j = i ∧ accepted x.effects then some policy else none
  | _ => none

/-- The round answers a call or a request with a context that has `i` in it. -/
def Shows (x : Round) (i : Identity) : Prop :=
  ∃ context : Context, i ∈ context.map (·.1) ∧
    ((∃ ticket, .reply ticket (.context (.ok context)) ∈ x.effects) ∨
      ∃ requester t endpoint, .deliver requester t (.context endpoint context) ∈ x.effects)

/-- The round polls `i`. -/
def Polls (x : Round) (i : Identity) : Prop :=
  ∃ t targets, .poll t targets ∈ x.effects ∧ i ∈ targets.map (·.identity)

end Round

/-- The policy of the last push of `i` that was taken under a policy. -/
def lastPolicy (i : Identity) (rounds : List Round) : Option RefreshPolicy :=
  (rounds.filterMap (·.pushedUnder? i)).getLast?

theorem lastPolicy_concat (i : Identity) (rounds : List Round) (x : Round) :
    lastPolicy i (rounds ++ [x]) = (x.pushedUnder? i).or (lastPolicy i rounds) := by
  unfold lastPolicy
  rw [List.filterMap_append]
  cases h : x.pushedUnder? i <;> simp [h]

/-! ## The kind after a round -/

/-- A push under a policy that is not turned down is one that the kind allows. -/
theorem Task.allows_of_result {w : Worker} {i : Identity} {payload : String}
    {policy : RefreshPolicy} {token : Option Token} {ticket : Ticket} {b : Binding}
    (hb : w.store.get? i = some b)
    (h : ((Task.setState i payload policy token ticket).result w).isOk = true) :
    b.kind.allows policy = true := by
  simp only [result, hb] at h
  split at h
  · simp [Except.isOk, Except.toBool] at h
  · by_contra hnot
    simp [hnot, Except.isOk, Except.toBool] at h

namespace Round

variable {x : Round} {i : Identity} {b : Binding}

/-- A push under a policy is taken only if the kind allows it. -/
theorem Sound.allows_pushedUnder? (hx : x.Sound) {policy : RefreshPolicy}
    (hp : x.pushedUnder? i = some policy) :
    ∃ old, x.before.store.get? i = some old ∧ old.kind.allows policy = true ∧
      ∃ (around : Surroundings) (payload : String), x.after.store =
        x.before.store.put i (old.writeUnder policy payload around.now) := by
  unfold pushedUnder? at hp
  split at hp
  · rename_i around j payload policy' token ticket hturn
    simp only [Option.ite_none_right_eq_some, Option.some.injEq] at hp
    obtain ⟨⟨rfl, ha⟩, rfl⟩ := hp
    obtain ⟨old, hold, hafter⟩ := hx.accepted_setState hturn ha
    refine ⟨old, hold, ?_, around, payload, hafter⟩
    have h := hx.turn
    rw [hturn] at h
    have hacc := Worker.accepted_turn h
    rw [ha] at hacc
    exact Task.allows_of_result hold (by simpa [Task.isChange] using hacc.symm)
  · simp at hp

/-- What a round does to a kind: it gives a new one by registering, or it leaves the old one but for
    the policy of a push that is taken, which is one of the same family. -/
theorem Sound.kind_after (hx : x.Sound) (hb : x.after.store.get? i = some b) :
    x.registers? i = some b.kind ∨
    (x.registers? i = none ∧ x.unbinds i = false ∧ ∃ old, x.before.store.get? i = some old ∧
      b.kind = (x.pushedUnder? i).elim old.kind .push ∧ b.kind.family = old.kind.family) := by
  have hs := hx.leaves.store
  simp only at hs
  -- A write of a sample, whoever it comes from, keeps the kind.
  have hpush : ∀ (j : Identity) (sample : Sample),
      (((x.before.store.push j sample).toOption.getD x.before.store).get? i) = some b →
      ∃ old, x.before.store.get? i = some old ∧ b.kind = old.kind := by
    intro j sample h
    rw [Store.push_eq] at h
    cases hj : x.before.store.get? j with
    | none => exact ⟨b, by simpa [hj] using h, rfl⟩
    | some old =>
      simp only [hj, Option.map_some, Option.getD_some, Store.get?_put] at h
      split at h
      · rename_i hi
        obtain rfl := Option.some.inj h
        exact ⟨old, hi ▸ hj, rfl⟩
      · exact ⟨b, h, rfl⟩
  have hkept : x.registers? i = none ∧ x.unbinds i = false ∧ x.pushedUnder? i = none →
      (∃ old, x.before.store.get? i = some old ∧ b.kind = old.kind) →
      x.registers? i = none ∧ x.unbinds i = false ∧ ∃ old, x.before.store.get? i = some old ∧
        b.kind = (x.pushedUnder? i).elim old.kind .push ∧ b.kind.family = old.kind.family := by
    rintro ⟨hr, hu, hp⟩ ⟨old, ho, hk⟩
    exact ⟨hr, hu, old, ho, by rw [hp, hk]; rfl, by rw [hk]⟩
  cases hturn : x.turn with
  | shutdown =>
    rw [hs, hturn] at hb
    exact .inr (hkept (by simp [registers?, unbinds, pushedUnder?, hturn]) ⟨b, hb, rfl⟩)
  | deserted =>
    rw [hs, hturn] at hb
    exact .inr (hkept (by simp [registers?, unbinds, pushedUnder?, hturn]) ⟨b, hb, rfl⟩)
  | task around task =>
    rw [hturn] at hs
    cases task with
    | register j provider kind ticket =>
      simp only [Turn.write, Task.write, Store.register_eq] at hs
      rw [hs, Store.get?_put] at hb
      by_cases hj : i = j
      · rw [if_pos hj] at hb
        obtain rfl := Option.some.inj hb
        refine .inl ?_
        simp only [registers?, hturn, hj, if_true, Option.some.injEq, Store.registered]
        split
        · split
          · rename_i hk
            exact hk.symm
          · rfl
        · rfl
      · rw [if_neg hj] at hb
        exact .inr (hkept (by simp [registers?, unbinds, pushedUnder?, hturn, Ne.symm hj])
          ⟨b, hb, rfl⟩)
    | setState j payload policy token ticket =>
      refine .inr ?_
      cases hp : x.pushedUnder? i with
      | some policy' =>
        obtain ⟨old, ho, hallows, around', payload', hafter⟩ := hx.allows_pushedUnder? hp
        rw [hafter, Store.get?_put, if_pos rfl] at hb
        obtain rfl := Option.some.inj hb
        have hkind : (old.writeUnder policy' payload' around'.now).kind = .push policy' := by
          unfold Binding.writeUnder
          split <;> rfl
        refine ⟨by simp [registers?, hturn], by simp [unbinds, hturn], old, ho, hkind, ?_⟩
        rw [hkind]
        exact Kind.family_of_allows hallows
      | none =>
        rw [← hp]
        refine hkept (by simp [registers?, unbinds, hturn, hp]) ⟨b, ?_, rfl⟩
        by_cases ha : accepted x.effects = true
        · obtain ⟨old, -, hafter⟩ := hx.accepted_setState hturn ha
          have hj : i ≠ j := by
            intro hj
            simp [pushedUnder?, hturn, hj, ha] at hp
          rwa [hafter, Store.get?_put, if_neg hj] at hb
        · simp only [Turn.write, Task.write, ha, Bool.false_eq_true, if_false] at hs
          rwa [hs] at hb
    | unregister j ticket =>
      have hacc := hx.accepted_unregister hturn
      have hok := x.before.store.unregister_isOk j
      rw [hs] at hb
      simp only [Turn.write, Task.write] at hb
      cases hu : x.before.store.unregister j with
      | error e =>
        rw [hu] at hb hok
        exact .inr (hkept (by simp [registers?, unbinds, pushedUnder?, hturn, hacc, ← hok,
          Except.isOk, Except.toBool]) ⟨b, hb, rfl⟩)
      | ok y =>
        rw [hu] at hb
        simp only [Except.toOption, Option.map_some, Option.getD_some] at hb
        rw [Store.get?_unregister (b := y.2) hu] at hb
        split at hb
        · simp at hb
        · rename_i hj
          exact .inr (hkept (by simp [registers?, unbinds, pushedUnder?, hturn, Ne.symm hj])
            ⟨b, hb, rfl⟩)
    | getContext t requester endpoint timeout =>
      simp only [Turn.write, Task.write] at hs
      rw [hs, Store.get?_scatter, Option.map_eq_some_iff] at hb
      obtain ⟨old, ho, rfl⟩ := hb
      refine .inr (hkept (by simp [registers?, unbinds, pushedUnder?, hturn]) ⟨old, ho, ?_⟩)
      split
      · unfold Binding.polled
        split <;> rfl
      · rfl
    | pushState j sample ticket | report j sample | respond j sample t =>
      rw [hs] at hb
      exact .inr (hkept (by simp [registers?, unbinds, pushedUnder?, hturn]) (hpush j sample hb))
    | _ =>
      rw [hs] at hb
      exact .inr (hkept (by simp [registers?, unbinds, pushedUnder?, hturn]) ⟨b, hb, rfl⟩)

/-- A round that registers an identity binds it under the kind that it names. -/
theorem Sound.bound_registers? (hx : x.Sound) {kind : Kind} (hr : x.registers? i = some kind) :
    ∃ b, x.after.store.get? i = some b ∧ b.kind = kind := by
  have hbound : (x.after.store.get? i).isSome = true := by
    have hs := hx.leaves.store
    unfold registers? at hr
    split at hr
    · rename_i around j provider kind' ticket hturn
      simp only [Option.ite_none_right_eq_some, Option.some.injEq] at hr
      simp only [hturn, Turn.write, Task.write, Store.register_eq] at hs
      rw [hs, Store.get?_put, if_pos hr.1.symm]
      rfl
    · simp at hr
  obtain ⟨b, hb⟩ := Option.isSome_iff_exists.1 hbound
  refine ⟨b, hb, ?_⟩
  rcases hx.kind_after hb with h | ⟨h, -⟩
  · exact Option.some.inj (h.symm.trans hr)
  · rw [hr] at h
    cases h

/-- What is bound stays bound as long as it is not unbound. -/
theorem Sound.bound_of_unbinds (hx : x.Sound) (hu : x.unbinds i = false)
    (hb : x.before.store.get? i = some b) : ∃ b', x.after.store.get? i = some b' := by
  rcases hx.bound_after (i := i) (by rw [hb]; rfl) with h | ⟨around, ticket, hturn, hacc⟩
  · exact Option.isSome_iff_exists.1 h
  · simp [unbinds, hturn, hacc] at hu

/-! ## What contexts and polls leave out -/

/-- Only a call to read is answered with a context, and that is what is cached. -/
theorem Sound.replied_context (hx : x.Sound) {ticket : Ticket} {context : Context}
    (he : .reply ticket (.context (.ok context)) ∈ x.effects) :
    ∃ around endpoint, x.turn = .task around (.read endpoint ticket) ∧
      context = x.before.store.read endpoint := by
  have hm : .reply ticket (.context (.ok context)) ∈ replied x.effects :=
    List.mem_filter.2 ⟨he, rfl⟩
  have h := hx.turn
  have hrefused : ∀ (m : Metrics) (task : Task),
      ¬ .reply ticket (.context (.ok context)) ∈ task.refusal m := by
    intro m task
    cases task <;> simp [Task.refusal]
  have hends : ∀ {w : Worker} {rest : List Task} {last : Option Ticket},
      w.stop rest last = (x.after, x.effects) → False := by
    intro w rest last hstop
    have hends := (w.stop_endsWork rest last).replied
    rw [hstop] at hends
    rw [hends, List.mem_append, List.mem_flatMap] at hm
    rcases hm with ⟨y, -, hm⟩ | hm
    · exact hrefused _ _ hm
    · simp at hm
  cases hturn : x.turn with
  | shutdown last rest =>
    rw [hturn] at h
    exact (hends (Except.ok.inj h)).elim
  | deserted =>
    rw [hturn] at h
    exact (hends (Except.ok.inj h)).elim
  | task around task =>
    rw [hturn] at h
    rw [Worker.replied_turn h] at hm
    cases task with
    | read endpoint u =>
      simp only [Task.replies, List.mem_singleton, Effect.reply.injEq, Reply.context.injEq,
        Except.ok.injEq] at hm
      obtain ⟨rfl, rfl⟩ := hm
      exact ⟨around, endpoint, rfl, rfl⟩
    | _ => simp [Task.replies] at hm

/-- What a context has in it is bound, and not under `never`. -/
theorem Sound.kind_of_shows (hx : x.Sound) {rounds : List Round}
    (hrun : Worker.Run x.before rounds) (h : x.Shows i) :
    ∃ b, x.after.store.get? i = some b ∧ b.kind ≠ .push .never := by
  have hafter := hrun.round hx
  obtain ⟨context, hi, ⟨ticket, he⟩ | ⟨requester, t, endpoint, hdeliver⟩⟩ := h
  · obtain ⟨around, endpoint, hturn, rfl⟩ := hx.replied_context he
    obtain ⟨⟨j, sample⟩, hm, rfl⟩ := List.mem_map.1 hi
    obtain ⟨-, b, hb, -, hk, -⟩ := (Store.mem_read hrun.filed).1 hm
    -- Reading leaves the store as it is.
    have hs := hx.leaves.store
    simp only [hturn, Turn.write, Task.write] at hs
    exact ⟨b, by rw [hs]; exact hb, hk⟩
  · have hd : (requester, .context endpoint context) ∈ deliveries t x.effects :=
      List.mem_filterMap.2 ⟨_, hdeliver, if_pos rfl⟩
    obtain ⟨-, -, -, -, -, -, r, -, -, -, -, -, -, rfl⟩ := hrun.gathered hx hd
    obtain ⟨⟨j, sample⟩, hm, rfl⟩ := List.mem_map.1 hi
    obtain ⟨-, b, hb, -, hk, -⟩ := (Store.mem_aggregate hafter.filed).1 hm
    exact ⟨b, hb, hk⟩

/-- What is polled is bound, and refreshed sometimes if it is pushed at all. -/
theorem Sound.kind_of_polls (hx : x.Sound) {rounds : List Round}
    (hrun : Worker.Run x.before rounds) (h : x.Polls i) :
    ∃ b, x.before.store.get? i = some b ∧ (b.kind = .pull ∨ b.kind = .push .sometimes) := by
  obtain ⟨t, targets, he, hi⟩ := h
  have hm : Effect.poll t targets ∈ x.turn.asks x.before := by
    rw [← hx.leaves.asked]
    exact List.mem_filter.2 ⟨he, rfl⟩
  unfold Turn.asks at hm
  split at hm
  · rename_i around u requester endpoint timeout hturn
    split at hm
    · simp at hm
    · simp only [List.mem_cons, reduceCtorEq, Effect.poll.injEq, List.not_mem_nil, or_false,
        false_or] at hm
      rw [hm.2] at hi
      obtain ⟨-, b, hb, hneeds⟩ := (Store.mem_scatter hrun.filed).1 hi
      refine ⟨b, hb, ?_⟩
      unfold Binding.needsPoll at hneeds
      split at hneeds
      · rename_i hk
        exact .inl hk
      · rename_i policy hk
        exact .inr (by rw [hk, of_decide_eq_true hneeds])
  · simp at hm

end Round

/-! ## Since it was registered -/

namespace Worker.Run

variable {w : Worker} {x : Round} {rounds earlier since : List Round} {i : Identity}

/-- What is bound was registered in some round, and neither registered again nor unbound since. -/
theorem registered (h : Run w rounds) {b : Binding} (hb : w.store.get? i = some b) :
    ∃ earlier x since kind, rounds = earlier ++ x :: since ∧ x.registers? i = some kind ∧
      ∀ y ∈ since, y.registers? i = none ∧ y.unbinds i = false := by
  induction h generalizing b with
  | start tokens => simp [Store.get?, Store.bindings] at hb
  | tokens h tokens ih => exact ih hb
  | @round x rounds h hx ih =>
    rcases hx.kind_after hb with hr | ⟨hr, hu, old, ho, -⟩
    · exact ⟨rounds, x, [], _, rfl, hr, by simp⟩
    · obtain ⟨earlier, y, since, kind, rfl, hy, hsince⟩ := ih ho
      refine ⟨earlier, y, since ++ [x], kind, by simp, hy, fun z hz => ?_⟩
      rcases List.mem_append.1 hz with hz | hz
      · exact hsince z hz
      · rw [List.mem_singleton.1 hz]
        exact ⟨hr, hu⟩

/-- Since it was registered an identity is bound, under the kind of its last push. -/
theorem kind_since (h : Run w (earlier ++ x :: since)) {kind : Kind}
    (hr : x.registers? i = some kind)
    (hsince : ∀ y ∈ since, y.registers? i = none ∧ y.unbinds i = false) :
    ∃ b, w.store.get? i = some b ∧ b.kind = (lastPolicy i since).elim kind .push ∧
      b.kind.family = kind.family := by
  have hx := h.split.2
  refine Run.since (P := fun l w => (∀ y ∈ l, y.registers? i = none ∧ y.unbinds i = false) →
    ∃ b, w.store.get? i = some b ∧ b.kind = (lastPolicy i l).elim kind .push ∧
      b.kind.family = kind.family) ?_ ?_ ?_ h hsince
  · rintro l w w' ⟨tokens, rfl⟩ hp
    exact hp
  · intro _
    obtain ⟨b, hb, hk⟩ := hx.bound_registers? hr
    exact ⟨b, hb, hk, by rw [hk]⟩
  · intro l y _ hy ih hl
    obtain ⟨hquiet, hbound⟩ := hl y (by simp)
    obtain ⟨old, ho, hold, hfamily⟩ := ih fun z hz => hl z (List.mem_append_left _ hz)
    obtain ⟨b, hb⟩ := hy.bound_of_unbinds hbound ho
    refine ⟨b, hb, ?_⟩
    rcases hy.kind_after hb with h | ⟨-, -, old', ho', hk, hf⟩
    · rw [hquiet] at h
      cases h
    · obtain rfl : old = old' := Option.some.inj (ho.symm.trans ho')
      refine ⟨?_, hf.trans hfamily⟩
      rw [hk, hold, lastPolicy_concat]
      cases y.pushedUnder? i <;> rfl

/-- What was registered under `never`, and not again since then, is bound under `never` or not at
    all. -/
theorem never_since (h : Run w (earlier ++ x :: since))
    (hr : x.registers? i = some (.push .never)) (hsince : ∀ y ∈ since, y.registers? i = none)
    {b : Binding} (hb : w.store.get? i = some b) : b.kind = .push .never := by
  have hx := h.split.2
  have hfamily : ∀ b : Binding, b.kind.family = .hidden → b.kind = .push .never := by
    intro b h
    cases hk : b.kind with
    | pull => simp [hk, Kind.family] at h
    | push policy => cases policy <;> simp [hk, Kind.family] at h ⊢
  refine Run.since (P := fun l w => (∀ y ∈ l, y.registers? i = none) →
    ∀ b, w.store.get? i = some b → b.kind = .push .never) ?_ ?_ ?_ h hsince b hb
  · rintro l w w' ⟨tokens, rfl⟩ hp
    exact hp
  · intro _ b hb
    obtain ⟨b', hb', hk⟩ := hx.bound_registers? hr
    obtain rfl : b = b' := Option.some.inj (hb.symm.trans hb')
    exact hk
  · intro l y _ hy ih hl b hb
    rcases hy.kind_after hb with h | ⟨-, -, old, ho, -, hf⟩
    · rw [hl y (by simp)] at h
      cases h
    · refine hfamily b ?_
      rw [hf, ih (fun z hz => hl z (List.mem_append_left _ hz)) old ho]
      rfl

/-- **Only registering changes the family of a kind.** What is bound was registered in some round,
    and neither registered again nor unbound since. From such a round on it is bound under a kind of
    the family that it was registered in: under the policy of the last push that was taken since, or
    as it was registered if there was none. So what was registered under `never` is in no context
    and is not polled until it is registered again, and nothing is polled that is bound under
    `always` by then. -/
theorem kind_by_registration (h : Run w rounds) (i : Identity) :
    (∀ b, w.store.get? i = some b → ∃ earlier x since kind, rounds = earlier ++ x :: since ∧
      x.registers? i = some kind ∧ ∀ y ∈ since, y.registers? i = none ∧ y.unbinds i = false) ∧
    (∀ earlier x since kind, rounds = earlier ++ x :: since → x.registers? i = some kind →
      (∀ y ∈ since, y.registers? i = none ∧ y.unbinds i = false) →
      ∃ b, w.store.get? i = some b ∧ b.kind = (lastPolicy i since).elim kind .push ∧
        b.kind.family = kind.family) ∧
    (∀ earlier x since, rounds = earlier ++ x :: since → x.registers? i = some (.push .never) →
      (∀ y ∈ since, y.registers? i = none) → ∀ y ∈ since, ¬ y.Shows i ∧ ¬ y.Polls i) ∧
    ∀ x ∈ rounds, ∀ b, x.before.store.get? i = some b → b.kind = .push .always → ¬ x.Polls i := by
  refine ⟨fun b hb => h.registered hb, ?_, ?_, ?_⟩
  · rintro earlier x since kind rfl hr hsince
    exact h.kind_since hr hsince
  · rintro earlier x since rfl hr hsince y hy
    obtain ⟨l, m, rfl⟩ := List.append_of_mem hy
    have heq : earlier ++ x :: (l ++ y :: m) = (earlier ++ x :: l) ++ y :: m := by simp
    rw [heq] at h
    obtain ⟨hrun, hsound⟩ := h.split
    refine ⟨fun hshows => ?_, fun hpolls => ?_⟩
    · obtain ⟨b, hb, hk⟩ := hsound.kind_of_shows hrun hshows
      have hafter := hrun.round hsound
      rw [List.append_assoc, List.cons_append] at hafter
      exact hk (hafter.never_since hr (fun z hz => hsince z (by simp at hz ⊢; tauto)) hb)
    · obtain ⟨b, hb, hk⟩ := hsound.kind_of_polls hrun hpolls
      have hnever := hrun.never_since hr (fun z hz => hsince z (List.mem_append_left _ hz)) hb
      rcases hk with hk | hk
      · rw [hk] at hnever
        cases hnever
      · rw [hk] at hnever
        cases hnever
  · intro x hx b hb hk hpolls
    obtain ⟨earlier, later, rfl⟩ := List.append_of_mem hx
    obtain ⟨hrun, hsound⟩ := h.split
    obtain ⟨b', hb', hk'⟩ := hsound.kind_of_polls hrun hpolls
    obtain rfl : b = b' := Option.some.inj (hb.symm.trans hb')
    rcases hk' with hk' | hk'
    · rw [hk] at hk'
      cases hk'
    · rw [hk] at hk'
      cases hk'

/-- A door that is pushed under `never` and then read stays hidden, though it was pushed. -/
theorem kind_by_registration_never :
    let door : Identity := ⟨"door", "locked", none, "default"⟩
    let around : Surroundings := ⟨default, fun _ => true⟩
    let h := (History.start {} 0).run [.call 0 (.register door 7 (.push .never)),
      .call 1 (.setState door "open" .never none), .call 2 (.read ""),
      .work around, .work around, .work around]
    ∃ x y z, h.rounds = [x, y, z] ∧ x.registers? door = some (.push .never) ∧
      y.pushedUnder? door = some .never ∧ ¬ z.Shows door ∧
      ∃ b, h.broker.queue.worker.store.get? door = some b ∧ b.kind = .push .never := by
  intro door around h
  have hall : h.rounds.map (fun r => (r.registers? door, r.unbinds door, r.pushedUnder? door)) =
      [(some (.push .never), false, none), (none, false, some .never), (none, false, none)] := by
    decide +kernel
  obtain ⟨x, y, z, hrounds⟩ : ∃ x y z, h.rounds = [x, y, z] :=
    List.length_eq_three.1 ((List.length_map _).symm.trans (congrArg List.length hall))
  rw [hrounds] at hall
  simp only [List.map_cons, List.map_nil, List.cons.injEq, Prod.mk.injEq, and_true] at hall
  obtain ⟨⟨hx, -, -⟩, ⟨hyr, hyu, hyp⟩, ⟨hzr, hzu, hzp⟩⟩ := hall
  have hrun := History.run_rounds_of_eq (h := h) rfl
  obtain ⟨-, hkind, hnever, -⟩ := kind_by_registration hrun door
  refine ⟨x, y, z, hrounds, hx, hyp, ?_, ?_⟩
  · exact (hnever [] x [y, z] hrounds hx (by simp [hyr, hzr]) z (by simp)).1
  · obtain ⟨b, hb, hk, -⟩ := hkind [] x [y, z] _ hrounds hx (by simp [hyr, hyu, hzr, hzu])
    refine ⟨b, hb, hk.trans ?_⟩
    simp [lastPolicy, hyp, hzp]

end Worker.Run

end ContextBroker
