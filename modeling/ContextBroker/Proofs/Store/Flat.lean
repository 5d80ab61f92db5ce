import ContextBroker.Proofs.Store
import Mathlib.Data.List.Induction
import Mathlib.Data.List.Nodup

set_option autoImplicit false

/-! # The store as one map

A store files its bindings in one map for each endpoint. To whoever uses it this cannot be told from
a single map from identities to bindings: the same operations, done to the store
(`Operation.onStore`) and to a single map (`Operation.onMap`), return the same results and leave the
same bindings behind (`Store.same_as_map`).

What carries this is that an operation acts on each identity on its own (`Operation.rebind`), and
that the store stays `Partitioned`: no endpoint has an empty map, and each identity is filed under
its own endpoint. -/

namespace ContextBroker

namespace SortedMap

variable {κ ν : Type} [Ord κ] {m : SortedMap κ ν} {k : κ} {v : ν}

theorem isEmpty_of_get? (h : m.get? k = some v) : m.isEmpty = false := by
  unfold isEmpty
  unfold get? at h
  cases hl : m.toList with
  | nil => simp [hl, Entries.get?] at h
  | cons => rfl

theorem nodup_toList [Std.LawfulEqOrd κ] (m : SortedMap κ ν) : m.toList.Nodup :=
  m.nodup_keys.of_map

theorem isEmpty_mapValues {μ : Type} (f : κ → ν → μ) : (m.mapValues f).isEmpty = m.isEmpty := by
  rw [isEmpty, isEmpty, mapValues, List.isEmpty_map]

end SortedMap

/-! ## Operations -/

/-- What can be done to a store. -/
inductive Operation
  | register (identity : Identity) (provider : Provider) (kind : Kind)
  | unregister (identity : Identity)
  | push (identity : Identity) (sample : Sample)
  | pushUnder (identity : Identity) (payload : String) (policy : RefreshPolicy) (now : Timestamp)
  | scatter (retrievable : Provider → Bool) (endpoint : String)

namespace Operation

/-- What an operation returns. -/
inductive Result
  | registered (replaced : Bool)
  | unregistered (result : Except CallError Binding)
  | written (result : Except CallError Unit)
  | scattered (targets : List PollTarget)

/-- A write, which changes nothing when it is turned down. -/
def Result.ofWrite {σ : Type} (old : σ) : Except CallError σ → σ × Result
  | .ok new => (new, .written (.ok ()))
  | .error e => (old, .written (.error e))

/-- What becomes of a store, and what is returned. -/
def onStore (op : Operation) (s : Store) : Store × Result :=
  match op with
  | register i provider kind =>
    ((s.register i provider kind).1, .registered (s.register i provider kind).2)
  | unregister i =>
    match s.unregister i with
    | .ok (s', removed) => (s', .unregistered (.ok removed))
    | .error e => (s, .unregistered (.error e))
  | push i sample => Result.ofWrite s (s.push i sample)
  | pushUnder i payload policy now => Result.ofWrite s (s.pushUnder i payload policy now)
  | scatter retrievable e => ((s.scatter retrievable e).1, .scattered (s.scatter retrievable e).2)

/-- What becomes of a single map, and what is returned. -/
def onMap (op : Operation) (m : Bindings) : Bindings × Result :=
  match op with
  | register i provider kind =>
    match m.get? i with
    | some old =>
      (m.insert i (if old.kind = kind then { old with provider } else { provider, kind }),
        .registered true)
    | none => (m.insert i { provider, kind }, .registered false)
  | unregister i =>
    match m.get? i with
    | some old => (m.erase i, .unregistered (.ok old))
    | none => (m, .unregistered (.error (.unbound i)))
  | push i sample =>
    match m.get? i with
    | some b => (m.insert i { b with state := some sample, fresh := true }, .written (.ok ()))
    | none => (m, .written (.error (.unbound i)))
  | pushUnder i payload policy now =>
    match m.get? i with
    | some b =>
      if b.kind.allows policy then
        (m.insert i (b.writeUnder policy payload now), .written (.ok ()))
      else (m, .written (.error (.policyChange i b.kind.text policy)))
    | none => (m, .written (.error (.unbound i)))
  | scatter retrievable e =>
    (m.mapValues fun i b => if i.endpoint = e then b.polled else b,
      .scattered ((m.filter fun i b => i.endpoint = e && b.needsPoll retrievable).toList.map
        fun (i, b) => ⟨i, b.provider⟩))

/-- What becomes of the binding of `i`, or of its having none. -/
def rebind (op : Operation) (i : Identity) (b : Option Binding) : Option Binding :=
  match op with
  | register j provider kind =>
    if i = j then
      some (match b with
        | some old => if old.kind = kind then { old with provider } else { provider, kind }
        | none => { provider, kind })
    else b
  | unregister j => if i = j then none else b
  | push j sample => if i = j then b.map (·.write sample) else b
  | pushUnder j payload policy now =>
    if i = j then
      b.map fun b => if b.kind.allows policy then b.writeUnder policy payload now else b
    else b
  | scatter _ e => if i.endpoint = e then b.map (·.polled) else b

/-- An operation acts on each identity on its own, whatever else is bound. -/
theorem get?_onStore (op : Operation) (s : Store) (i : Identity) :
    (op.onStore s).1.get? i = op.rebind i (s.get? i) := by
  cases op with
  | register j provider kind =>
    simp only [onStore, rebind, Store.register_eq, Store.get?_put]
    split
    · rename_i hi
      rw [hi]
      unfold Store.registered
      cases s.get? j <;> rfl
    · rfl
  | unregister j =>
    simp only [onStore, rebind]
    cases hu : s.unregister j with
    | ok x => exact Store.get?_unregister (b := x.2) hu i
    | error e =>
      have hnone : s.get? j = none := by
        have hok := s.unregister_isOk j
        rw [hu] at hok
        exact Option.isNone_iff_eq_none.1 (Option.isSome_eq_false_iff.1 hok.symm)
      by_cases hi : i = j <;> simp [hi, hnone]
  | push j sample =>
    simp only [onStore, rebind, Store.push]
    cases hb : s.get? j with
    | none => by_cases hi : i = j <;> simp [Result.ofWrite, hi, hb]
    | some b => by_cases hi : i = j <;> simp [Result.ofWrite, hi, hb]
  | pushUnder j payload policy now =>
    simp only [onStore, rebind, Store.pushUnder]
    cases hb : s.get? j with
    | none => by_cases hi : i = j <;> simp [Result.ofWrite, hi, hb]
    | some b =>
      by_cases ha : b.kind.allows policy = true
      · by_cases hi : i = j <;> simp [Result.ofWrite, hi, hb, ha]
      · by_cases hi : i = j <;> simp [Result.ofWrite, hi, hb, ha]
  | scatter retrievable e =>
    simp only [onStore, rebind, Store.get?_scatter]
    split
    · rfl
    · simp

theorem get?_onMap (op : Operation) (m : Bindings) (i : Identity) :
    (op.onMap m).1.get? i = op.rebind i (m.get? i) := by
  cases op with
  | register j provider kind =>
    simp only [onMap, rebind]
    cases hb : m.get? j with
    | none => by_cases hi : i = j <;> simp [SortedMap.get?_insert, hi, hb]
    | some b => by_cases hi : i = j <;> simp [SortedMap.get?_insert, hi, hb]
  | unregister j =>
    simp only [onMap, rebind]
    cases hb : m.get? j with
    | none => by_cases hi : i = j <;> simp [hi, hb]
    | some b => simp [SortedMap.get?_erase]
  | push j sample =>
    simp only [onMap, rebind]
    cases hb : m.get? j with
    | none => by_cases hi : i = j <;> simp [hi, hb]
    | some b => by_cases hi : i = j <;> simp [SortedMap.get?_insert, hi, hb, Binding.write]
  | pushUnder j payload policy now =>
    simp only [onMap, rebind]
    cases hb : m.get? j with
    | none => by_cases hi : i = j <;> simp [hi, hb]
    | some b =>
      by_cases ha : b.kind.allows policy = true
      · by_cases hi : i = j <;> simp [SortedMap.get?_insert, hi, hb, ha]
      · by_cases hi : i = j <;> simp [hi, hb, ha]
  | scatter retrievable e =>
    simp only [onMap, rebind, SortedMap.get?_mapValues]
    split <;> simp

/-- All that an operation can do to a store. -/
theorem onStore_cases (op : Operation) (s : Store) :
    (op.onStore s).1 = s ∨ (∃ i b, (op.onStore s).1 = s.put i b) ∨
    (∃ i s' b, s.unregister i = .ok (s', b) ∧ (op.onStore s).1 = s') ∨
    ∃ retrievable e, (op.onStore s).1 = (s.scatter retrievable e).1 := by
  cases op with
  | register i provider kind => exact .inr (.inl ⟨i, _, s.register_eq i provider kind⟩)
  | unregister i =>
    simp only [onStore]
    cases hu : s.unregister i with
    | ok x => exact .inr (.inr (.inl ⟨i, x.1, x.2, hu, rfl⟩))
    | error e => exact .inl rfl
  | push i sample =>
    simp only [onStore, Store.push]
    cases s.get? i with
    | none => exact .inl rfl
    | some b => exact .inr (.inl ⟨i, _, rfl⟩)
  | pushUnder i payload policy now =>
    simp only [onStore, Store.pushUnder]
    cases s.get? i with
    | none => exact .inl rfl
    | some b =>
      by_cases ha : b.kind.allows policy = true
      · simp only [ha, if_true]
        exact .inr (.inl ⟨i, _, rfl⟩)
      · simp only [ha, Bool.false_eq_true, if_false]
        exact .inl rfl
  | scatter retrievable e => exact .inr (.inr (.inr ⟨retrievable, e, rfl⟩))

end Operation

/-! ## Partitions -/

namespace Store

/-- The maps of the endpoints are a partition of the bindings: none is empty, and each holds
    identities on its own endpoint only. -/
structure Partitioned (s : Store) : Prop where
  filed : s.Filed
  inhabited (e : String) (bs : Bindings) : s.endpoints.get? e = some bs → bs.isEmpty = false

namespace Partitioned

variable {s : Store}

theorem start : Partitioned {} where
  filed e i b hb := by simp [bindings] at hb
  inhabited e bs hbs := by simp at hbs

theorem put (h : s.Partitioned) (i : Identity) (b : Binding) : (s.put i b).Partitioned where
  filed := h.filed.put i b
  inhabited e bs hbs := by
    simp only [Store.put, SortedMap.get?_insert] at hbs
    split at hbs
    · obtain rfl := Option.some.inj hbs
      exact SortedMap.isEmpty_of_get? (SortedMap.get?_insert_self ..)
    · exact h.inhabited e bs hbs

theorem unregister (h : s.Partitioned) {i : Identity} {s' : Store} {b : Binding}
    (hu : s.unregister i = .ok (s', b)) : s'.Partitioned where
  filed := h.filed.unregister hu
  inhabited e bs hbs := by
    unfold Store.unregister at hu
    split at hu
    · cases hu
    · obtain ⟨rfl, -⟩ := Prod.mk.inj (Except.ok.inj hu)
      -- A map that would be left empty goes, and any other is no longer that of before.
      by_cases hempty : ((s.bindings i.endpoint).erase i).isEmpty = true
      · simp only [hempty, if_true, SortedMap.get?_erase] at hbs
        split at hbs
        · cases hbs
        · exact h.inhabited e bs hbs
      · simp only [hempty, Bool.false_eq_true, if_false, SortedMap.get?_insert] at hbs
        split at hbs
        · obtain rfl := Option.some.inj hbs
          simpa using hempty
        · exact h.inhabited e bs hbs

theorem scatter (h : s.Partitioned) (retrievable : Provider → Bool) (e : String) :
    (s.scatter retrievable e).1.Partitioned where
  filed := h.filed.scatter retrievable e
  inhabited e' bs hbs := by
    unfold Store.scatter at hbs
    cases he : s.endpoints.get? e with
    | none =>
      simp only [he] at hbs
      exact h.inhabited e' bs hbs
    | some old =>
      simp only [he, SortedMap.get?_insert] at hbs
      split at hbs
      · obtain rfl := Option.some.inj hbs
        rw [SortedMap.isEmpty_mapValues]
        exact h.inhabited e old he
      · exact h.inhabited e' bs hbs

/-- Every operation keeps the partition. -/
theorem onStore (h : s.Partitioned) (op : Operation) : (op.onStore s).1.Partitioned := by
  rcases op.onStore_cases s with he | ⟨i, b, he⟩ | ⟨i, s', b, hu, he⟩ | ⟨retrievable, e, he⟩
  · rw [he]
    exact h
  · rw [he]
    exact h.put i b
  · rw [he]
    exact h.unregister hu
  · rw [he]
    exact h.scatter retrievable e

end Partitioned

/-! ## Counting and listing -/

variable {s : Store} {m : Bindings}

/-- All bindings, endpoint by endpoint. -/
def entries (s : Store) : List (Identity × Binding) := s.endpoints.toList.flatMap (·.2.toList)

theorem size_eq_length (s : Store) : s.size = s.entries.length := by
  unfold size entries SortedMap.values
  rw [tally_map]
  induction s.endpoints.toList with
  | nil => rfl
  | cons e es ih =>
    rw [tally_cons, ih, List.flatMap_cons, List.length_append]
    rfl

theorem get?_bindings_eq (h : s.Filed) (e : String) (i : Identity) :
    (s.bindings e).get? i = if i.endpoint = e then s.get? i else none := by
  refine Option.ext fun b => ?_
  rw [get?_bindings h]
  split <;> simp_all

theorem mem_entries (h : s.Filed) {i : Identity} {b : Binding} :
    (i, b) ∈ s.entries ↔ s.get? i = some b := by
  simp only [entries, List.mem_flatMap, Prod.exists, SortedMap.mem_toList]
  constructor
  · rintro ⟨e, bs, he, hb⟩
    have hbs : s.bindings e = bs := by simp [bindings, he]
    rw [← hbs, get?_bindings h] at hb
    exact hb.2
  · intro hb
    unfold get? bindings at hb
    cases he : s.endpoints.get? i.endpoint with
    | none => simp [he] at hb
    | some bs => exact ⟨i.endpoint, bs, he, by simpa [he] using hb⟩

theorem nodup_entries (h : s.Filed) : s.entries.Nodup := by
  refine List.nodup_flatMap.2 ⟨fun x _ => x.2.nodup_toList, ?_⟩
  refine s.endpoints.increasing.imp_of_mem fun {x y} hx hy hxy => ?_
  rintro ⟨i, b⟩ hi hj
  have hfiled : ∀ z ∈ s.endpoints.toList, (i, b) ∈ z.2.toList → i.endpoint = z.1 := by
    intro z hz hm
    rw [SortedMap.mem_toList] at hm
    refine h z.1 i b ?_
    rwa [bindings, SortedMap.mem_toList.1 hz, Option.getD_some]
  rw [← hfiled x hx hi, ← hfiled y hy hj, Std.ReflOrd.compare_self] at hxy
  cases hxy

/-- A store has as many bindings as a single map that looks up alike. -/
theorem size_eq (h : s.Filed) (hm : ∀ i, s.get? i = m.get? i) : s.size = m.size := by
  rw [size_eq_length]
  refine ((List.perm_ext_iff_of_nodup (nodup_entries h) m.nodup_toList).2 ?_).length_eq
  rintro ⟨i, b⟩
  rw [mem_entries h, SortedMap.mem_toList, hm]

theorem isEmpty_iff (h : s.Partitioned) : s.isEmpty = true ↔ s.size = 0 := by
  rw [size_eq_length, List.length_eq_zero_iff, isEmpty, SortedMap.isEmpty, List.isEmpty_iff]
  constructor
  · intro he
    rw [entries, he, List.flatMap_nil]
  · intro he
    refine List.eq_nil_iff_forall_not_mem.2 fun x hx => ?_
    have hnil : x.2.toList = [] := List.flatMap_eq_nil_iff.1 he x hx
    have hne := h.inhabited x.1 x.2 (SortedMap.mem_toList.1 hx)
    rw [SortedMap.isEmpty, hnil] at hne
    cases hne

/-- The targets of a poll, out of the bindings on an endpoint. -/
theorem scatter_targets (s : Store) (retrievable : Provider → Bool) (e : String) :
    (s.scatter retrievable e).2 =
      ((s.bindings e).filter fun _ b => b.needsPoll retrievable).toList.map
        fun x => ⟨x.1, x.2.provider⟩ := by
  unfold scatter bindings
  cases s.endpoints.get? e with
  | none => rfl
  | some bs => rfl

theorem mem_targets (h : s.Filed) {retrievable : Provider → Bool} {e : String} {i : Identity}
    {p : Provider} :
    (i, p) ∈ (s.scatter retrievable e).2.map (fun x => (x.identity, x.provider)) ↔
      i.endpoint = e ∧ ∃ b, s.get? i = some b ∧ b.provider = p ∧
        (b.kind = .push .sometimes ∨ b.kind = .pull ∧ retrievable p = true) := by
  have hneeds : ∀ b : Binding, b.needsPoll retrievable = true ↔
      b.kind = .push .sometimes ∨ b.kind = .pull ∧ retrievable b.provider = true := by
    intro b
    unfold Binding.needsPoll
    cases b.kind <;> simp
  rw [scatter_targets, List.map_map]
  simp only [List.mem_map, Prod.exists, SortedMap.mem_toList, SortedMap.get?_filter,
    Option.filter_eq_some_iff, get?_bindings h, hneeds, Function.comp_apply, Prod.mk.injEq]
  constructor
  · rintro ⟨j, b, ⟨⟨he, hb⟩, hn⟩, rfl, rfl⟩
    exact ⟨he, b, hb, rfl, hn⟩
  · rintro ⟨he, b, hb, rfl, hn⟩
    exact ⟨i, b, ⟨⟨he, hb⟩, hn⟩, rfl, rfl⟩

theorem increasing_targets (s : Store) (retrievable : Provider → Bool) (e : String) :
    ((s.scatter retrievable e).2.map (·.identity)).Pairwise fun i j => compare i j = .lt := by
  rw [scatter_targets, List.map_map, List.pairwise_map]
  exact ((s.bindings e).filter _).increasing

end Store

/-! ## Step by step -/

namespace Operation

/-- A store and a single map that look up alike return the same. -/
theorem result_eq {s : Store} {m : Bindings} (h : s.Filed) (hm : ∀ i, s.get? i = m.get? i)
    (op : Operation) : (op.onStore s).2 = (op.onMap m).2 := by
  cases op with
  | register i provider kind =>
    simp only [onStore, onMap, Store.register, hm]
    cases m.get? i <;> rfl
  | unregister i =>
    simp only [onStore, onMap, Store.unregister, hm]
    cases m.get? i <;> rfl
  | push i sample =>
    simp only [onStore, onMap, Store.push, hm]
    cases m.get? i <;> rfl
  | pushUnder i payload policy now =>
    simp only [onStore, onMap, Store.pushUnder, hm]
    cases m.get? i with
    | none => rfl
    | some b => by_cases ha : b.kind.allows policy = true <;> simp [Result.ofWrite, ha]
  | scatter retrievable e =>
    simp only [onStore, onMap, Store.scatter_targets]
    congr 3
    refine SortedMap.ext_get? fun i => ?_
    rw [SortedMap.get?_filter, SortedMap.get?_filter, Store.get?_bindings_eq h, hm]
    by_cases he : i.endpoint = e
    · simp [he]
    · cases m.get? i <;> simp [he, Option.filter]

/-- Performs operations, one after the other, and lists what they return. -/
def run {σ ρ : Type} (perform : Operation → σ → σ × ρ) (start : σ) (ops : List Operation) :
    σ × List ρ :=
  ops.foldl (fun s op => ((perform op s.1).1, s.2 ++ [(perform op s.1).2])) (start, [])

theorem run_concat {σ ρ : Type} (perform : Operation → σ → σ × ρ) (start : σ)
    (ops : List Operation) (op : Operation) :
    run perform start (ops ++ [op]) =
      ((perform op (run perform start ops).1).1,
        (run perform start ops).2 ++ [(perform op (run perform start ops).1).2]) := by
  simp [run]

theorem partitioned_run (ops : List Operation) : (run onStore {} ops).1.Partitioned := by
  induction ops using List.reverseRecOn with
  | nil => exact .start
  | append_singleton ops op ih =>
    rw [run_concat]
    exact ih.onStore op

theorem get?_run (ops : List Operation) (i : Identity) :
    (run onStore {} ops).1.get? i = (run onMap ∅ ops).1.get? i := by
  induction ops using List.reverseRecOn with
  | nil => rfl
  | append_singleton ops op ih => rw [run_concat, run_concat, get?_onStore, get?_onMap, ih]

theorem results_run (ops : List Operation) : (run onStore {} ops).2 = (run onMap ∅ ops).2 := by
  induction ops using List.reverseRecOn with
  | nil => rfl
  | append_singleton ops op ih =>
    rw [run_concat, run_concat]
    exact congrArg₂ (· ++ [·]) ih (result_eq (partitioned_run ops).filed (get?_run ops) op)

end Operation

/-- The list has the entries that `p` describes and no others, in strictly increasing order of their
    identities, so that none is there twice. -/
structure Lists {α : Type} (l : List (Identity × α)) (p : Identity → α → Prop) : Prop where
  increasing : (l.map (·.1)).Pairwise fun i j => compare i j = .lt
  mem (i : Identity) (a : α) : (i, a) ∈ l ↔ p i a

open Operation in
/-- **A store is one map.** Whatever operations are done to a new store, and likewise to a single
    map, return the same results, and the same is bound afterwards. No endpoint is left with an
    empty map, so the store is empty exactly when nothing is bound. What is listed of an endpoint is
    what the single map has on it, in order and filtered, and a poll marks as stale what is
    refreshed sometimes and changes nothing else. -/
theorem Store.same_as_map (ops : List Operation) :
    let s := (run onStore {} ops).1
    let m := (run onMap ∅ ops).1
    (run onStore {} ops).2 = (run onMap ∅ ops).2 ∧
    (∀ i, s.get? i = m.get? i ∧ s.contains i = m.contains i) ∧ s.size = m.size ∧
    (∀ e bs, s.endpoints.get? e = some bs →
      bs.isEmpty = false ∧ ∀ i b, bs.get? i = some b → i.endpoint = e) ∧
    (s.isEmpty = true ↔ s.size = 0) ∧
    ∀ e,
      Lists (s.read e) (fun i sample => i.endpoint = e ∧ ∃ b, m.get? i = some b ∧
        b.state = some sample ∧ b.kind ≠ .push .never ∧
        (b.kind = .push .sometimes → b.fresh = true)) ∧
      (∀ refreshed unavailable, Lists (s.aggregate e refreshed unavailable) fun i sample =>
        i.endpoint = e ∧ ∃ b, m.get? i = some b ∧ b.state = some sample ∧
          b.kind ≠ .push .never ∧ ¬ i ∈ unavailable ∧
          (b.kind = .push .sometimes → i ∈ refreshed)) ∧
      ∀ retrievable,
        Lists ((s.scatter retrievable e).2.map fun x => (x.identity, x.provider)) (fun i p =>
          i.endpoint = e ∧ ∃ b, m.get? i = some b ∧ b.provider = p ∧
            (b.kind = .push .sometimes ∨ b.kind = .pull ∧ retrievable p = true)) ∧
        ∀ i, (s.scatter retrievable e).1.get? i = (m.get? i).map fun b =>
          if i.endpoint = e ∧ b.kind = .push .sometimes then { b with fresh := false } else b := by
  intro s m
  have hp : s.Partitioned := partitioned_run ops
  have hm : ∀ i, s.get? i = m.get? i := get?_run ops
  refine ⟨results_run ops, fun i => ⟨hm i, ?_⟩, size_eq hp.filed hm, fun e bs hbs =>
    ⟨hp.inhabited e bs hbs, fun i b hb => hp.filed e i b ?_⟩, isEmpty_iff hp, fun e =>
    ⟨⟨increasing_gather .., fun i sample => ?_⟩,
      fun refreshed unavailable => ⟨increasing_gather .., fun i sample => ?_⟩,
      fun retrievable => ⟨⟨?_, fun i p => ?_⟩, fun i => ?_⟩⟩⟩
  · rw [Store.contains, SortedMap.contains, hm]
  · rwa [bindings, hbs, Option.getD_some]
  · rw [mem_read hp.filed, hm]
  · rw [mem_aggregate hp.filed, hm]
  · rw [List.map_map]
    exact increasing_targets s retrievable e
  · rw [mem_targets hp.filed, hm]
  · rw [get?_scatter, hm]
    refine congrArg (Option.map · _) (funext fun b => ?_)
    unfold Binding.polled
    by_cases he : i.endpoint = e <;> simp [he]

end ContextBroker
