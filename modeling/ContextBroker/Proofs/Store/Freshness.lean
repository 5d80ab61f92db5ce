import ContextBroker.Proofs.Store.Flat

set_option autoImplicit false

/-! # What is cached, and since when

The cached sample of an identity and its mark of freshness are explained by what was done to the
store (`Store.cached_by_history`). An `Occasion` is an operation with the store that it met. On some
occasions an identity is written (`Occasion.written?`), on some it is left without a sample
(`Occasion.resets`), and on some it is polled while it is refreshed sometimes (`Occasion.stales`).
The cached sample is the last that was written since the last reset, and the binding is fresh if
there was a write since the last reset or such poll.

An occasion does one thing at most to an identity that is bound after it (`Occasion.leaves`), so the
history is followed one occasion at a time (`Dated.occasion`). -/

namespace ContextBroker

/-! ## The part of a list after its last member of a kind -/

/-- `since` is what follows the last member of `l` that passes `p`. -/
def Since {α : Type} (p : α → Bool) (l since : List α) : Prop :=
  ∃ before x, l = before ++ x :: since ∧ p x = true ∧ ∀ y ∈ since, p y = false

namespace Since

variable {α : Type} {p : α → Bool} {l since : List α} {y : α}

theorem last (l : List α) (hy : p y = true) : Since p (l ++ [y]) [] :=
  ⟨l, y, rfl, hy, by simp⟩

theorem concat (h : Since p l since) (hy : p y = false) : Since p (l ++ [y]) (since ++ [y]) := by
  obtain ⟨before, x, rfl, hx, hsince⟩ := h
  refine ⟨before, x, by simp, hx, fun z hz => ?_⟩
  rcases List.mem_append.1 hz with hz | hz
  · exact hsince z hz
  · rwa [List.mem_singleton.1 hz]

end Since

/-! ## Occasions -/

/-- An operation, with the store that it met. -/
structure Occasion where
  store : Store
  operation : Operation

namespace Occasion

/-- The store that is left. -/
def after (x : Occasion) : Store := (x.operation.onStore x.store).1

/-- Whether the operation was a write, and was not turned down. -/
def writes (x : Occasion) : Bool :=
  match (x.operation.onStore x.store).2 with
  | .written result => result.isOk
  | _ => false

/-- The sample that was written to `i`. -/
def written? (x : Occasion) (i : Identity) : Option Sample :=
  match x.operation with
  | .push j sample => if j = i ∧ x.writes then some sample else none
  | .pushUnder j payload _ now =>
    if j = i ∧ x.writes ∧ ¬ payload.isEmpty then some { payload, time := now } else none
  | _ => none

/-- Whether `i` was left without a sample: it was bound for the first time or under another kind
    than before, or cleared. -/
def resets (i : Identity) (x : Occasion) : Bool :=
  match x.operation with
  | .register j _ kind => j = i && (x.store.get? i).all (·.kind ≠ kind)
  | .pushUnder j payload _ _ => j = i && x.writes && payload.isEmpty
  | _ => false

/-- Whether the endpoint of `i` was polled while `i` was refreshed sometimes. -/
def stales (i : Identity) (x : Occasion) : Bool :=
  match x.operation with
  | .scatter _ e => e = i.endpoint && (x.store.get? i).any (·.kind = .push .sometimes)
  | _ => false

end Occasion

/-- The occasions of operations that are done to a new store. -/
def Operation.occasions (ops : List Operation) : List Occasion :=
  (run (fun op s => ((op.onStore s).1, (⟨s, op⟩ : Occasion))) {} ops).2

/-- The store after operations that are done to a new one. -/
def Operation.final (ops : List Operation) : Store := (run onStore {} ops).1

namespace Operation

theorem occasions_concat (ops : List Operation) (op : Operation) :
    occasions (ops ++ [op]) = occasions ops ++ [⟨final ops, op⟩] := by
  have hstore : ∀ ops : List Operation,
      (run (fun op s => ((op.onStore s).1, (⟨s, op⟩ : Occasion))) {} ops).1 = final ops := by
    intro ops
    induction ops using List.reverseRecOn with
    | nil => rfl
    | append_singleton ops op ih => rw [run_concat, ih, final, final, run_concat]
  rw [occasions, run_concat, hstore, occasions]

theorem final_concat (ops : List Operation) (op : Operation) :
    final (ops ++ [op]) = Occasion.after ⟨final ops, op⟩ := by
  rw [final, run_concat]
  rfl

end Operation

namespace Occasion

variable {x : Occasion} {i : Identity} {b : Binding}

theorem writes_push {s : Store} {j : Identity} {sample : Sample} :
    writes ⟨s, .push j sample⟩ = (s.get? j).isSome := by
  simp only [writes, Operation.onStore, Store.push]
  cases s.get? j <;> rfl

theorem writes_pushUnder {s : Store} {j : Identity} {payload : String} {policy : RefreshPolicy}
    {now : Timestamp} :
    writes ⟨s, .pushUnder j payload policy now⟩ = (s.get? j).any (·.kind.allows policy) := by
  simp only [writes, Operation.onStore, Store.pushUnder]
  cases s.get? j with
  | none => rfl
  | some b =>
    by_cases ha : b.kind.allows policy = true <;>
      simp [Operation.Result.ofWrite, ha, Except.isOk, Except.toBool]

/-- What an occasion has done to an identity `i` that is bound to `b` after it. -/
inductive Leaves (x : Occasion) (i : Identity) (b : Binding) : Prop
  /-- It left `i` without a sample. -/
  | reset (hr : x.resets i = true) (hw : x.written? i = none) (hs : b.state = none)
      (hf : b.fresh = false)
  /-- It wrote to `i`. -/
  | written (sample : Sample) (hr : x.resets i = false) (ht : x.stales i = false)
      (hw : x.written? i = some sample) (old : Binding) (ho : x.store.get? i = some old)
      (hs : b.state = some sample) (hf : b.fresh = true)
  /-- It polled `i`, which is refreshed sometimes. -/
  | staled (hr : x.resets i = false) (ht : x.stales i = true) (hw : x.written? i = none)
      (old : Binding) (ho : x.store.get? i = some old) (hk : b.kind = .push .sometimes)
      (hs : b.state = old.state) (hf : b.fresh = false)
  /-- It left `i` as it was, but perhaps for its provider. -/
  | kept (hr : x.resets i = false) (ht : x.stales i = false) (hw : x.written? i = none)
      (old : Binding) (ho : x.store.get? i = some old) (hk : b.kind = old.kind)
      (hs : b.state = old.state) (hf : b.fresh = old.fresh)

/-- An occasion that is not about `i` keeps it. -/
theorem leaves (hb : x.after.get? i = some b) : x.Leaves i b := by
  obtain ⟨s, op⟩ := x
  rw [after, Operation.get?_onStore] at hb
  cases op with
  | register j provider kind =>
    by_cases hj : i = j
    · subst hj
      simp only [Operation.rebind, if_true, Option.some.injEq] at hb
      cases ho : s.get? i with
      | none =>
        rw [ho] at hb
        subst hb
        exact .reset (by simp [resets, ho]) rfl rfl rfl
      | some old =>
        simp only [ho] at hb
        by_cases hk : old.kind = kind
        · rw [if_pos hk] at hb
          subst hb
          exact .kept (by simp [resets, ho, hk]) rfl rfl old ho rfl rfl rfl
        · rw [if_neg hk] at hb
          subst hb
          exact .reset (by simp [resets, ho, hk]) rfl rfl rfl
    · simp only [Operation.rebind, hj, if_false] at hb
      exact .kept (by simp [resets, Ne.symm hj]) rfl rfl b hb rfl rfl rfl
  | unregister j =>
    by_cases hj : i = j
    · simp [Operation.rebind, hj] at hb
    · simp only [Operation.rebind, hj, if_false] at hb
      exact .kept rfl rfl rfl b hb rfl rfl rfl
  | push j sample =>
    by_cases hj : i = j
    · subst hj
      simp only [Operation.rebind, if_true, Option.map_eq_some_iff] at hb
      obtain ⟨old, ho, rfl⟩ := hb
      exact .written sample rfl rfl (by simp [written?, writes_push, ho]) old ho rfl rfl
    · simp only [Operation.rebind, hj, if_false] at hb
      exact .kept rfl rfl (by simp [written?, Ne.symm hj]) b hb rfl rfl rfl
  | pushUnder j payload policy now =>
    by_cases hj : i = j
    · subst hj
      simp only [Operation.rebind, if_true, Option.map_eq_some_iff] at hb
      obtain ⟨old, ho, hb⟩ := hb
      by_cases ha : old.kind.allows policy = true
      · rw [if_pos ha] at hb
        subst hb
        by_cases he : payload.isEmpty = true
        · refine .reset ?_ ?_ ?_ ?_
          · simp [resets, writes_pushUnder, ho, ha, he]
          · simp [written?, he]
          · simp [Binding.writeUnder, he]
          · simp [Binding.writeUnder, he]
        · refine .written { payload, time := now } ?_ rfl ?_ old ho ?_ ?_
          · simp [resets, he]
          · simp [written?, writes_pushUnder, ho, ha, he]
          · simp [Binding.writeUnder, Binding.write, he]
          · simp [Binding.writeUnder, Binding.write, he]
      · rw [if_neg ha] at hb
        subst hb
        refine .kept ?_ rfl ?_ old ho rfl rfl rfl
        · simp [resets, writes_pushUnder, ho, ha]
        · simp [written?, writes_pushUnder, ho, ha]
    · simp only [Operation.rebind, hj, if_false] at hb
      exact .kept (by simp [resets, Ne.symm hj]) rfl (by simp [written?, Ne.symm hj]) b hb rfl rfl
        rfl
  | scatter retrievable e =>
    by_cases he : i.endpoint = e
    · simp only [Operation.rebind, he, if_true, Option.map_eq_some_iff] at hb
      obtain ⟨old, ho, rfl⟩ := hb
      by_cases hk : old.kind = .push .sometimes
      · refine .staled rfl ?_ rfl old ho ?_ ?_ ?_
        · simp [stales, he, ho, hk]
        · simp [Binding.polled, hk]
        · simp [Binding.polled, hk]
        · simp [Binding.polled, hk]
      · refine .kept rfl ?_ rfl old ho ?_ ?_ ?_
        · simp [stales, ho, hk]
        · simp [Binding.polled, hk]
        · simp [Binding.polled, hk]
        · simp [Binding.polled, hk]
    · simp only [Operation.rebind, he, if_false] at hb
      exact .kept rfl (by simp [stales, Ne.symm he]) rfl b hb rfl rfl rfl

end Occasion

/-! ## Histories -/

/-- The sample and the freshness of a binding of `i` are what the history makes them. -/
structure Dated (i : Identity) (history : List Occasion) (b : Binding) : Prop where
  /-- The cached sample is the last one written since the last reset. -/
  state : ∃ since, Since (·.resets i) history since ∧
    b.state = (since.filterMap (·.written? i)).getLast?
  /-- The binding is fresh if it was written since the last reset or poll. -/
  fresh : ∃ since, Since (fun x => x.resets i || x.stales i) history since ∧
    (b.fresh = true ↔ ∃ x ∈ since, (x.written? i).isSome = true)
  /-- What is fresh is cached. -/
  cached : b.fresh = true → b.state.isSome = true
  /-- Only what is refreshed sometimes is cached and not fresh. -/
  other : b.kind ≠ .push .sometimes → b.fresh = b.state.isSome

namespace Dated

variable {i : Identity} {history : List Occasion} {x : Occasion} {b : Binding}

/-- One more occasion. -/
theorem occasion (h : ∀ old, x.store.get? i = some old → Dated i history old)
    (hb : x.after.get? i = some b) : Dated i (history ++ [x]) b := by
  cases x.leaves hb with
  | reset hr hw hs hf =>
    refine ⟨⟨[], .last history hr, hs⟩, ⟨[], .last history (by simp [hr]), ?_⟩, ?_, ?_⟩
    · simp [hf]
    · simp [hf]
    · simp [hf, hs]
  | written sample hr ht hw old ho hs hf =>
    obtain ⟨⟨since, hsince, -⟩, ⟨since', hsince', -⟩, -, -⟩ := h old ho
    refine ⟨⟨since ++ [x], hsince.concat hr, ?_⟩,
      ⟨since' ++ [x], hsince'.concat (by simp [hr, ht]), ?_⟩, ?_, ?_⟩
    · simp [hs, hw]
    · simp [hf, hw]
    · simp [hs]
    · simp [hf, hs]
  | staled hr ht hw old ho hk hs hf =>
    obtain ⟨⟨since, hsince, hstate⟩, -, -, -⟩ := h old ho
    refine ⟨⟨since ++ [x], hsince.concat hr, ?_⟩, ⟨[], .last history (by simp [ht]), ?_⟩, ?_, ?_⟩
    · simp [hs, hstate, hw]
    · simp [hf]
    · simp [hf]
    · exact fun hne => absurd hk hne
  | kept hr ht hw old ho hk hs hf =>
    obtain ⟨⟨since, hsince, hstate⟩, ⟨since', hsince', hfresh⟩, hcached, hother⟩ := h old ho
    refine ⟨⟨since ++ [x], hsince.concat hr, ?_⟩,
      ⟨since' ++ [x], hsince'.concat (by simp [hr, ht]), ?_⟩, ?_, ?_⟩
    · simp [hs, hstate, hw]
    · rw [hf, hfresh]
      simp [or_and_right, exists_or, hw]
    · rw [hf, hs]
      exact hcached
    · rw [hk, hf, hs]
      exact hother

end Dated

open Operation in
theorem dated_final (ops : List Operation) {i : Identity} {b : Binding}
    (hb : (final ops).get? i = some b) : Dated i (occasions ops) b := by
  induction ops using List.reverseRecOn generalizing b with
  | nil => simp [final, run, Store.get?, Store.bindings] at hb
  | append_singleton ops op ih =>
    rw [final_concat] at hb
    rw [occasions_concat]
    exact Dated.occasion (x := ⟨final ops, op⟩) (fun old => ih) hb

open Operation in
/-- **What is cached, and since when.** Of an identity that is bound, the cached sample is the last
    that was written since the last occasion on which the identity was bound anew, bound under
    another kind, or cleared; there is none if nothing was written since. The binding is fresh if it
    was written since the last such occasion or poll of it as one refreshed sometimes, and for what
    is refreshed sometimes this decides whether it is read. What is fresh is cached, and all that is
    cached is fresh unless it is refreshed sometimes. -/
theorem Store.cached_by_history (ops : List Operation) {i : Identity} {b : Binding}
    (hb : (final ops).get? i = some b) :
    (∃ since, Since (·.resets i) (occasions ops) since ∧
      b.state = (since.filterMap (·.written? i)).getLast?) ∧
    (∃ since, Since (fun x => x.resets i || x.stales i) (occasions ops) since ∧
      (b.fresh = true ↔ ∃ x ∈ since, (x.written? i).isSome = true) ∧
      (b.kind = .push .sometimes → ((∃ sample, (i, sample) ∈ (final ops).read i.endpoint) ↔
        ∃ x ∈ since, (x.written? i).isSome = true))) ∧
    (b.fresh = true → b.state.isSome = true) ∧
    (b.kind ≠ .push .sometimes → b.fresh = b.state.isSome) := by
  obtain ⟨hstate, ⟨since, hsince, hfresh⟩, hcached, hother⟩ := dated_final ops hb
  refine ⟨hstate, ⟨since, hsince, hfresh, fun hk => ?_⟩, hcached, hother⟩
  have hfiled : (final ops).Filed := (partitioned_run ops).filed
  rw [← hfresh]
  constructor
  · rintro ⟨sample, hm⟩
    obtain ⟨-, b', hb', -, -, hread⟩ := (mem_read hfiled).1 hm
    obtain rfl : b = b' := Option.some.inj (hb.symm.trans hb')
    exact hread hk
  · intro hf
    obtain ⟨sample, hs⟩ := Option.isSome_iff_exists.1 (hcached hf)
    exact ⟨sample, (mem_read hfiled).2 ⟨rfl, b, hb, hs, by simp [hk], fun _ => hf⟩⟩

open Operation in
/-- A door that was opened, then polled, and has not answered: what is cached of it is not read. -/
theorem Store.cached_by_history_polled :
    let door : Identity := ⟨"door", "locked", none, "home"⟩
    let ops : List Operation := [.register door 7 (.push .always),
      .pushUnder door "" .always default, .pushUnder door "open" .sometimes default,
      .scatter (fun _ => false) "home"]
    ∃ b, (final ops).get? door = some b ∧ b.kind = .push .sometimes ∧
      (∃ since, Since (·.resets door) (occasions ops) since ∧
        (since.filterMap (·.written? door)).getLast? =
          some { payload := "open", time := default }) ∧
      ∃ since, Since (fun x => x.resets door || x.stales door) (occasions ops) since ∧
        (∀ x ∈ since, (x.written? door).isSome = false) ∧
        ∀ sample, ¬ (door, sample) ∈ (final ops).read "home" := by
  intro door ops
  have hb : (final ops).get? door =
      some ⟨7, .push .sometimes, some { payload := "open", time := default }, false⟩ := by
    decide +kernel
  obtain ⟨⟨since, hsince, hstate⟩, ⟨since', hsince', hfresh, hread⟩, -, -⟩ :=
    cached_by_history ops hb
  have hnone : ¬ ∃ x ∈ since', (x.written? door).isSome = true := fun h => by
    have := hfresh.2 h
    cases this
  refine ⟨_, hb, rfl, ⟨since, hsince, hstate.symm⟩, since', hsince', fun x hx => ?_,
    fun sample hm => hnone ((hread rfl).1 ⟨sample, hm⟩)⟩
  rw [← Bool.not_eq_true]
  exact fun h => hnone ⟨x, hx, h⟩

end ContextBroker
