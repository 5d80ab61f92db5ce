import ContextBroker.Proofs.Store
import ContextBroker.Proofs.Worker.Run

set_option autoImplicit false

/-! # What turns make of cached samples

What is cached for an identity changes only when a turn overwrites it (`Turn.overwrite?`), with a
sample or with nothing at all. So a cached sample is always the one that was written last
(`Worker.Run.lastWrite_eq`), however the identity was registered, cleared and polled since it was
first bound. -/

namespace ContextBroker

/-- The sample cached for `i`. -/
def Store.state? (s : Store) (i : Identity) : Option Sample := (s.get? i).bind (·.state)

/-- What a turn makes of the sample cached for `i`, unless it leaves that alone. -/
def Turn.overwrite? (turn : Turn) (accepted : Bool) (store : Store) (i : Identity) :
    Option (Option Sample) :=
  match turn with
  | .task _ (.pushState j sample _) | .task _ (.report j sample) | .task _ (.respond j sample _) =>
    if j = i ∧ (store.get? i).isSome then some (some sample) else none
  | .task around (.setState j payload _ _ _) =>
    if j = i ∧ accepted then
      some (if payload.isEmpty then none else some { payload, time := around.now })
    else none
  | .task _ (.register j _ kind _) =>
    if j = i ∧ (store.get? i).all (·.kind ≠ kind) then some none else none
  | .task _ (.unregister j _) => if j = i then some none else none
  | _ => none

namespace Round

/-- What the round makes of the sample cached for `i`, unless it leaves that alone. -/
def overwrite? (x : Round) (i : Identity) : Option (Option Sample) :=
  x.turn.overwrite? (accepted x.effects) x.before.store i

/-- The sample that the round writes for `i`. -/
def write? (x : Round) (i : Identity) : Option Sample := (x.overwrite? i).join

end Round

/-- The sample that was written last for `i`. -/
def lastWrite (i : Identity) (rounds : List Round) : Option Sample :=
  (rounds.filterMap (·.write? i)).getLast?

theorem lastWrite_concat (i : Identity) (rounds : List Round) (x : Round) :
    lastWrite i (rounds ++ [x]) = (x.write? i).or (lastWrite i rounds) := by
  unfold lastWrite
  rw [List.filterMap_append]
  cases h : x.write? i <;> simp [h]

/-! ## Which calls are accepted -/

namespace Round

variable {x : Round} {around : Surroundings} {i j : Identity} {ticket : Ticket}

theorem Sound.accepted_unregister (hx : x.Sound)
    (hturn : x.turn = .task around (.unregister i ticket)) :
    accepted x.effects = (x.before.store.get? i).isSome := by
  have h := hx.turn
  rw [hturn] at h
  have he := congrArg Prod.snd (Except.ok.inj h)
  simp only at he
  rw [← he, Worker.accepted_replyTo, ← Store.unregister_isOk]
  simp only [Worker.unregister, Worker.countTask]
  cases x.before.store.unregister i <;> rfl

/-- A push under a policy is accepted only if the binding allows it. -/
theorem Sound.accepted_setState {payload : String} {policy : RefreshPolicy} {token : Option Token}
    (hx : x.Sound) (hturn : x.turn = .task around (.setState i payload policy token ticket))
    (ha : accepted x.effects = true) :
    ∃ b, x.before.store.get? i = some b ∧
      x.after.store = x.before.store.put i (b.writeUnder policy payload around.now) := by
  have h := hx.turn
  have hs := hx.leaves.store
  rw [hturn] at h hs
  have he := congrArg Prod.snd (Except.ok.inj h)
  simp only at he hs
  rw [ha] at hs
  simp only [Turn.write, Task.write, if_true] at hs
  rw [← he, Worker.accepted_replyTo] at ha
  simp only [Worker.setState, Worker.countTask] at ha
  unfold Store.pushUnder at ha hs
  cases hb : x.before.store.get? i with
  | none => simp [Store.contains, hb, Except.isOk, Except.toBool] at ha
  | some b =>
    refine ⟨b, rfl, ?_⟩
    simp only [hb] at ha hs
    by_cases hallows : b.kind.allows policy = true
    · rw [if_pos hallows] at hs
      exact hs
    · -- A push that is not allowed is turned down, but this one was accepted.
      rw [if_neg hallows] at ha
      split at ha
      · simp [Except.isOk, Except.toBool] at ha
      · split at ha <;> simp [Except.isOk, Except.toBool] at ha

/-! ## The cached sample after a round -/

theorem state?_pushed (s : Store) (i j : Identity) (sample : Sample) :
    ((s.push j sample).toOption.getD s).state? i =
      (if j = i ∧ (s.get? i).isSome then some (some sample) else none).getD (s.state? i) := by
  rw [Store.push_eq]
  by_cases hj : j = i
  · subst hj
    cases hb : s.get? j <;> simp [Store.state?, hb, Binding.write]
  · have hi : i ≠ j := fun h => hj h.symm
    cases hb : s.get? j <;> simp [Store.state?, hj, hi]

/-- A cached sample is what the round overwrites it with, if it does. -/
theorem Sound.state?_after (hx : x.Sound) (i : Identity) :
    x.after.store.state? i = (x.overwrite? i).getD (x.before.store.state? i) := by
  have hs := hx.leaves.store
  simp only at hs
  unfold overwrite?
  cases hturn : x.turn with
  | shutdown => rw [hs, hturn]; rfl
  | deserted => rw [hs, hturn]; rfl
  | task around task =>
    cases task with
    | pushState j sample ticket =>
      rw [hs, hturn]
      exact state?_pushed _ i j sample
    | report j sample =>
      rw [hs, hturn]
      exact state?_pushed _ i j sample
    | respond j sample u =>
      rw [hs, hturn]
      exact state?_pushed _ i j sample
    | setState j payload policy token ticket =>
      by_cases ha : accepted x.effects = true
      · obtain ⟨b, hb, hafter⟩ := hx.accepted_setState hturn ha
        rw [hafter, Turn.overwrite?, ha]
        by_cases hj : j = i
        · subst hj
          by_cases hp : payload.isEmpty = true <;>
            simp [Store.state?, Binding.writeUnder, Binding.write, hp]
        · have hi : i ≠ j := fun h => hj h.symm
          simp [Store.state?, hj, hi]
      · rw [hs, hturn]
        simp [Turn.write, Task.write, Turn.overwrite?, ha]
    | register j provider kind ticket =>
      rw [hs, hturn]
      simp only [Turn.write, Task.write, Store.register_eq, Turn.overwrite?, Store.state?,
        Store.get?_put]
      by_cases hj : j = i
      · subst hj
        unfold Store.registered
        cases hb : x.before.store.get? j with
        | none => simp
        | some b => by_cases hk : b.kind = kind <;> simp [hk]
      · have hi : i ≠ j := fun h => hj h.symm
        simp [hj, hi]
    | unregister j ticket =>
      rw [hs, hturn]
      simp only [Turn.write, Task.write, Turn.overwrite?, Store.state?]
      cases hu : x.before.store.unregister j with
      | error e =>
        -- It was not bound, so nothing was cached either.
        have hnone : x.before.store.get? j = none := by
          have := x.before.store.unregister_isOk j
          rw [hu] at this
          simpa [Except.isOk, Except.toBool] using this.symm
        by_cases hj : j = i
        · subst hj
          simp [Except.toOption, hnone]
        · simp [Except.toOption, hj]
      | ok y =>
        simp only [Except.toOption, Option.map_some, Option.getD_some]
        rw [Store.get?_unregister (b := y.2) hu]
        by_cases hj : j = i
        · simp [hj]
        · have hi : i ≠ j := fun h => hj h.symm
          simp [hj, hi]
    | getContext u requester endpoint timeout =>
      rw [hs, hturn]
      simp only [Turn.write, Task.write, Store.state?, Store.get?_scatter]
      cases x.before.store.get? i with
      | none => rfl
      | some b =>
        -- Polling may leave a binding stale, but it does not touch the sample.
        have hpolled : b.polled.state = b.state := by
          unfold Binding.polled
          split <;> rfl
        simp only [Option.map_some, Option.bind_some]
        split
        · exact hpolled
        · rfl
    | _ => rw [hs, hturn]; rfl

/-- What is bound stays bound, unless it is unregistered. -/
theorem Sound.bound_after (hx : x.Sound) (hi : (x.before.store.get? i).isSome = true) :
    (x.after.store.get? i).isSome = true ∨
      ∃ around ticket, x.turn = .task around (.unregister i ticket) ∧
        accepted x.effects = true := by
  have hs := hx.leaves.store
  simp only at hs
  have hput : ∀ (s : Store) (j : Identity) (b : Binding), (s.get? i).isSome = true →
      ((s.put j b).get? i).isSome = true := by
    intro s j b hb
    rw [Store.get?_put]
    split
    · rfl
    · exact hb
  have hpush : ∀ (s : Store) (j : Identity) (sample : Sample), (s.get? i).isSome = true →
      (((s.push j sample).toOption.getD s).get? i).isSome = true := by
    intro s j sample hb
    rw [Store.push_eq]
    cases s.get? j with
    | none => exact hb
    | some b => exact hput s j _ hb
  cases hturn : x.turn with
  | shutdown => rw [hs, hturn]; exact .inl hi
  | deserted => rw [hs, hturn]; exact .inl hi
  | task around task =>
    cases task with
    | pushState j sample ticket => rw [hs, hturn]; exact .inl (hpush _ j sample hi)
    | report j sample => rw [hs, hturn]; exact .inl (hpush _ j sample hi)
    | respond j sample u => rw [hs, hturn]; exact .inl (hpush _ j sample hi)
    | register j provider kind ticket =>
      rw [hs, hturn]
      simp only [Turn.write, Task.write, Store.register_eq]
      exact .inl (hput _ j _ hi)
    | setState j payload policy token ticket =>
      by_cases ha : accepted x.effects = true
      · obtain ⟨b, -, hafter⟩ := hx.accepted_setState hturn ha
        rw [hafter]
        exact .inl (hput _ j _ hi)
      · rw [hs, hturn]
        simp only [Turn.write, Task.write, ha, Bool.false_eq_true, if_false]
        exact .inl hi
    | getContext u requester endpoint timeout =>
      rw [hs, hturn]
      simp only [Turn.write, Task.write, Store.get?_scatter, Option.isSome_map]
      exact .inl hi
    | unregister j ticket =>
      by_cases hj : j = i
      · subst hj
        exact .inr ⟨around, ticket, rfl, (hx.accepted_unregister hturn).trans hi⟩
      · rw [hs, hturn]
        simp only [Turn.write, Task.write]
        cases hu : x.before.store.unregister j with
        | error e => exact .inl hi
        | ok y =>
          simp only [Except.toOption, Option.map_some, Option.getD_some]
          rw [Store.get?_unregister (b := y.2) hu, if_neg fun h => hj h.symm]
          exact .inl hi
    | _ => rw [hs, hturn]; exact .inl hi

/-- Every round leaves identities filed under their endpoints. -/
theorem Sound.filed_after (hx : x.Sound) (h : x.before.store.Filed) : x.after.store.Filed := by
  have hs := hx.leaves.store
  simp only at hs
  have hpush : ∀ (j : Identity) (sample : Sample),
      ((x.before.store.push j sample).toOption.getD x.before.store).Filed := by
    intro j sample
    rw [Store.push_eq]
    cases x.before.store.get? j with
    | none => exact h
    | some b => exact h.put j _
  rw [hs]
  cases hturn : x.turn with
  | shutdown => exact h
  | deserted => exact h
  | task around task =>
    cases task with
    | pushState j sample ticket => exact hpush j sample
    | report j sample => exact hpush j sample
    | respond j sample u => exact hpush j sample
    | register j provider kind ticket =>
      simp only [Turn.write, Task.write, Store.register_eq]
      exact h.put j _
    | setState j payload policy token ticket =>
      by_cases ha : accepted x.effects = true
      · obtain ⟨b, -, hafter⟩ := hx.accepted_setState hturn ha
        rw [← hturn, ← hs, hafter]
        exact h.put j _
      · simp only [Turn.write, Task.write, ha, Bool.false_eq_true, if_false]
        exact h
    | getContext u requester endpoint timeout => exact h.scatter _ _
    | unregister j ticket =>
      simp only [Turn.write, Task.write]
      cases hu : x.before.store.unregister j with
      | error e => exact h
      | ok y => exact h.unregister (b := y.2) hu
    | _ => exact h

end Round

namespace Worker.Run

variable {w : Worker} {rounds : List Round}

theorem filed (h : Run w rounds) : w.store.Filed := by
  induction h with
  | start tokens =>
    intro endpoint i b hi
    simp [Store.bindings] at hi
  | tokens h tokens ih => exact ih
  | round h hx ih => exact hx.filed_after ih

/-- A cached sample is the one that was written last. -/
theorem lastWrite_eq (h : Run w rounds) {i : Identity} {sample : Sample}
    (hi : w.store.state? i = some sample) : lastWrite i rounds = some sample := by
  induction h with
  | start tokens => simp [Store.state?, Store.get?, Store.bindings] at hi
  | tokens h tokens ih => exact ih hi
  | @round x rounds h hx ih =>
    rw [hx.state?_after] at hi
    rw [lastWrite_concat, Round.write?]
    cases ho : x.overwrite? i with
    | none =>
      rw [ho] at hi
      exact ih hi
    | some o =>
      rw [ho] at hi
      obtain rfl : o = some sample := hi
      rfl

end Worker.Run

end ContextBroker
