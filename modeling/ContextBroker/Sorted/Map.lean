set_option autoImplicit false

/-! # Finite maps with their keys in order

A `SortedMap` is its list of entries, strictly increasing by key. The list is the only form a map
has, so two maps that look up alike are equal (`SortedMap.ext_get?`), and whatever is listed from
a map comes in key order.

Each operation is described by what it does to `get?`. -/

namespace ContextBroker

variable {κ ν μ : Type}

/-- A finite map, kept as the list of its entries in strictly increasing key order. -/
structure SortedMap (κ ν : Type) [Ord κ] where
  /-- The entries, in key order. -/
  toList : List (κ × ν)
  increasing : toList.Pairwise fun a b => compare a.1 b.1 = .lt

namespace SortedMap

/-! ## The list operations -/

namespace Entries

variable [Ord κ]

/-- The value at `k`; the search ends at the first larger key. -/
def get? (k : κ) : List (κ × ν) → Option ν
  | [] => none
  | (a, v) :: rest =>
    match compare k a with
    | .lt => none
    | .eq => some v
    | .gt => get? k rest

/-- Writes `v` at `k`, at the place the order gives it. -/
def insert (k : κ) (v : ν) : List (κ × ν) → List (κ × ν)
  | [] => [(k, v)]
  | (a, w) :: rest =>
    match compare k a with
    | .lt => (k, v) :: (a, w) :: rest
    | .eq => (k, v) :: rest
    | .gt => (a, w) :: insert k v rest

/-- Drops the entry at `k`. -/
def erase (k : κ) : List (κ × ν) → List (κ × ν)
  | [] => []
  | (a, w) :: rest =>
    match compare k a with
    | .lt => (a, w) :: rest
    | .eq => rest
    | .gt => (a, w) :: erase k rest

/-- Strictly increasing by key. -/
abbrev Increasing (es : List (κ × ν)) : Prop := es.Pairwise fun a b => compare a.1 b.1 = .lt

theorem mem_of_mem_insert {k : κ} {v : ν} {e : κ × ν} :
    ∀ {es : List (κ × ν)}, e ∈ insert k v es → e = (k, v) ∨ e ∈ es
  | [], h => by simpa [insert] using h
  | (a, w) :: rest, h => by
    unfold insert at h
    split at h
    · simpa using h
    · simp only [List.mem_cons] at h ⊢
      exact h.imp id Or.inr
    · simp only [List.mem_cons] at h ⊢
      rcases h with h | h
      · exact .inr (.inl h)
      · exact (mem_of_mem_insert h).imp id Or.inr

theorem mem_of_mem_erase {k : κ} {e : κ × ν} :
    ∀ {es : List (κ × ν)}, e ∈ erase k es → e ∈ es
  | [], h => by simp [erase] at h
  | (a, w) :: rest, h => by
    unfold erase at h
    split at h
    · exact h
    · exact List.mem_cons_of_mem _ h
    · rcases List.mem_cons.1 h with h | h
      · exact List.mem_cons.2 (.inl h)
      · exact List.mem_cons_of_mem _ (mem_of_mem_erase h)

theorem increasing_insert [Std.TransOrd κ] (k : κ) (v : ν) :
    ∀ {es : List (κ × ν)}, Increasing es → Increasing (insert k v es)
  | [], _ => by simp [insert, Increasing]
  | (a, w) :: rest, h => by
    obtain ⟨ha, hr⟩ := List.pairwise_cons.1 h
    unfold insert
    split
    next hk =>
      refine List.pairwise_cons.2 ⟨fun e he => ?_, h⟩
      rcases List.mem_cons.1 he with rfl | he
      · exact hk
      · exact Std.TransCmp.lt_trans hk (ha e he)
    next hk =>
      refine List.pairwise_cons.2 ⟨fun e he => ?_, hr⟩
      exact Std.TransCmp.lt_of_eq_of_lt hk (ha e he)
    next hk =>
      refine List.pairwise_cons.2 ⟨fun e he => ?_, increasing_insert k v hr⟩
      rcases mem_of_mem_insert he with rfl | he
      · exact Std.OrientedCmp.lt_of_gt hk
      · exact ha e he

theorem increasing_erase (k : κ) :
    ∀ {es : List (κ × ν)}, Increasing es → Increasing (erase k es)
  | [], _ => .nil
  | (a, w) :: rest, h => by
    obtain ⟨ha, hr⟩ := List.pairwise_cons.1 h
    unfold erase
    split
    · exact h
    · exact hr
    · exact List.pairwise_cons.2
        ⟨fun e he => ha e (mem_of_mem_erase he), increasing_erase k hr⟩

theorem get?_of_forall_lt (k : κ) :
    ∀ {es : List (κ × ν)}, (∀ e ∈ es, compare k e.1 = .lt) → get? k es = none
  | [], _ => rfl
  | (a, w) :: rest, h => by simp [get?, h (a, w) (by simp)]

variable [Std.TransOrd κ] [Std.LawfulEqOrd κ]

theorem mem_iff_get?_eq_some {k : κ} {v : ν} :
    ∀ {es : List (κ × ν)}, Increasing es → ((k, v) ∈ es ↔ get? k es = some v)
  | [], _ => by simp [get?]
  | (a, w) :: rest, h => by
    obtain ⟨ha, hr⟩ := List.pairwise_cons.1 h
    have ih := mem_iff_get?_eq_some (k := k) (v := v) hr
    rw [List.mem_cons]
    unfold get?
    split
    next hk =>
      have : ¬ (k, v) = (a, w) := by
        rintro ⟨⟩
        simp at hk
      have hn : get? k rest = none :=
        get?_of_forall_lt k fun e he => Std.TransCmp.lt_trans hk (ha e he)
      simp [this, ih, hn]
    next hk =>
      have hk := Std.LawfulEqOrd.eq_of_compare hk
      subst hk
      have hn : get? k rest = none := get?_of_forall_lt k ha
      simp only [ih, hn, Prod.mk.injEq, true_and, reduceCtorEq, or_false, Option.some.injEq]
      exact eq_comm
    next hk =>
      have : ¬ (k, v) = (a, w) := by
        rintro ⟨⟩
        simp at hk
      simp [this, ih]

theorem get?_insert [DecidableEq κ] (k : κ) (v : ν) (x : κ) :
    ∀ {es : List (κ × ν)}, Increasing es →
      get? x (insert k v es) = if x = k then some v else get? x es
  | [], _ => by
    by_cases hx : x = k
    · simp [insert, get?, hx]
    · have : compare x k ≠ .eq := fun e => hx (Std.LawfulEqOrd.eq_of_compare e)
      simp only [insert, get?, hx, if_false]
      split <;> simp_all
  | (a, w) :: rest, h => by
    obtain ⟨ha, hr⟩ := List.pairwise_cons.1 h
    unfold insert
    split
    next hk =>
      by_cases hx : x = k
      · subst hx
        simp [get?]
      · have hne : compare x k ≠ .eq := fun e => hx (Std.LawfulEqOrd.eq_of_compare e)
        rw [if_neg hx]
        conv => lhs; unfold get?
        split
        next hlt => simp [get?, Std.TransCmp.lt_trans hlt hk]
        next e => exact absurd e hne
        next => rfl
    next hk =>
      have hk := Std.LawfulEqOrd.eq_of_compare hk
      subst hk
      by_cases hx : x = k
      · subst hx
        simp [get?]
      · have hne : compare x k ≠ .eq := fun e => hx (Std.LawfulEqOrd.eq_of_compare e)
        simp only [get?, if_neg hx]
        split <;> simp_all
    next hk =>
      have ih := get?_insert k v x hr
      by_cases hx : x = k
      · subst hx
        simp [get?, hk, ih]
      · rw [if_neg hx] at ih ⊢
        simp [get?, ih]

theorem get?_erase [DecidableEq κ] (k x : κ) :
    ∀ {es : List (κ × ν)}, Increasing es →
      get? x (erase k es) = if x = k then none else get? x es
  | [], _ => by simp [erase, get?]
  | (a, w) :: rest, h => by
    obtain ⟨ha, hr⟩ := List.pairwise_cons.1 h
    unfold erase
    split
    next hk =>
      by_cases hx : x = k
      · subst hx
        simp [get?, hk]
      · rw [if_neg hx]
    next hk =>
      have hk := Std.LawfulEqOrd.eq_of_compare hk
      subst hk
      by_cases hx : x = k
      · subst hx
        simp [get?_of_forall_lt x ha]
      · rw [if_neg hx]
        conv => rhs; unfold get?
        split
        next hlt => exact get?_of_forall_lt x fun e he => Std.TransCmp.lt_trans hlt (ha e he)
        next e => exact absurd (Std.LawfulEqOrd.eq_of_compare e) hx
        next => rfl
    next hk =>
      have ih := get?_erase k x hr
      by_cases hx : x = k
      · subst hx
        simp [get?, hk, ih]
      · rw [if_neg hx] at ih ⊢
        simp [get?, ih]

/-- Two increasing lists with the same members are the same list. -/
theorem eq_of_mem_iff :
    ∀ {es fs : List (κ × ν)}, Increasing es → Increasing fs → (∀ e, e ∈ es ↔ e ∈ fs) → es = fs
  | [], [], _, _, _ => rfl
  | [], f :: _, _, _, h => by simpa using h f
  | e :: _, [], _, _, h => by simpa using h e
  | e :: es, f :: fs, he, hf, h => by
    obtain ⟨he', hes⟩ := List.pairwise_cons.1 he
    obtain ⟨hf', hfs⟩ := List.pairwise_cons.1 hf
    have irrefl : ∀ {a : κ}, compare a a ≠ .lt := by simp
    have hef : e = f := by
      have h1 : e = f ∨ e ∈ fs := by simpa using (h e).1 (by simp)
      have h2 : f = e ∨ f ∈ es := by simpa using (h f).2 (by simp)
      rcases h1 with h1 | h1
      · exact h1
      · rcases h2 with h2 | h2
        · exact h2.symm
        · exact absurd (Std.TransCmp.lt_trans (he' f h2) (hf' e h1)) irrefl
    subst hef
    congr 1
    refine eq_of_mem_iff hes hfs fun x => ?_
    have hx := h x
    simp only [List.mem_cons] at hx
    constructor
    · intro hm
      rcases hx.1 (.inr hm) with rfl | h'
      · exact absurd (he' x hm) irrefl
      · exact h'
    · intro hm
      rcases hx.2 (.inr hm) with rfl | h'
      · exact absurd (hf' x hm) irrefl
      · exact h'

end Entries

/-! ## The map operations -/

variable [Ord κ]

instance [DecidableEq κ] [DecidableEq ν] : DecidableEq (SortedMap κ ν) := fun m n =>
  decidable_of_iff (m.toList = n.toList)
    ⟨fun h => by cases m; cases n; cases h; rfl, fun h => by rw [h]⟩

/-- The map with no entry. -/
def empty : SortedMap κ ν := ⟨[], .nil⟩

instance : EmptyCollection (SortedMap κ ν) := ⟨empty⟩

instance : Inhabited (SortedMap κ ν) := ⟨∅⟩

/-- The value at `k`, if there is one. -/
def get? (m : SortedMap κ ν) (k : κ) : Option ν := Entries.get? k m.toList

/-- Whether there is an entry at `k`. -/
def contains (m : SortedMap κ ν) (k : κ) : Bool := (m.get? k).isSome

/-- The number of entries. -/
def size (m : SortedMap κ ν) : Nat := m.toList.length

/-- Whether there is no entry. -/
def isEmpty (m : SortedMap κ ν) : Bool := m.toList.isEmpty

/-- The keys, in order. -/
def keys (m : SortedMap κ ν) : List κ := m.toList.map (·.1)

/-- The values, in the order of their keys. -/
def values (m : SortedMap κ ν) : List ν := m.toList.map (·.2)

/-- The map with `v` at `k`. -/
def insert [Std.TransOrd κ] (m : SortedMap κ ν) (k : κ) (v : ν) : SortedMap κ ν :=
  ⟨Entries.insert k v m.toList, Entries.increasing_insert k v m.increasing⟩

/-- The map without an entry at `k`. -/
def erase (m : SortedMap κ ν) (k : κ) : SortedMap κ ν :=
  ⟨Entries.erase k m.toList, Entries.increasing_erase k m.increasing⟩

/-- The entries that pass `p`. -/
def filter (m : SortedMap κ ν) (p : κ → ν → Bool) : SortedMap κ ν :=
  ⟨m.toList.filter fun e => p e.1 e.2, m.increasing.filter _⟩

/-- Every value replaced, at the same keys. -/
def mapValues (m : SortedMap κ ν) (f : κ → ν → μ) : SortedMap κ μ :=
  ⟨m.toList.map fun e => (e.1, f e.1 e.2), List.pairwise_map.2 m.increasing⟩

/-- The map of a list of entries; of two entries with one key the later counts. -/
def ofList [Std.TransOrd κ] (es : List (κ × ν)) : SortedMap κ ν :=
  es.foldl (fun m e => m.insert e.1 e.2) ∅

/-! ## Look-up -/

@[simp] theorem get?_empty (k : κ) : (∅ : SortedMap κ ν).get? k = none := rfl

@[simp] theorem toList_empty : (∅ : SortedMap κ ν).toList = [] := rfl

theorem contains_eq_isSome (m : SortedMap κ ν) (k : κ) : m.contains k = (m.get? k).isSome := rfl

variable [Std.TransOrd κ] [Std.LawfulEqOrd κ]

theorem get?_insert [DecidableEq κ] (m : SortedMap κ ν) (k : κ) (v : ν) (x : κ) :
    (m.insert k v).get? x = if x = k then some v else m.get? x :=
  Entries.get?_insert k v x m.increasing

@[simp] theorem get?_insert_self (m : SortedMap κ ν) (k : κ) (v : ν) :
    (m.insert k v).get? k = some v := by
  classical simp [get?_insert]

theorem get?_insert_of_ne (m : SortedMap κ ν) {k x : κ} (v : ν) (h : x ≠ k) :
    (m.insert k v).get? x = m.get? x := by
  classical simp [get?_insert, h]

theorem get?_erase [DecidableEq κ] (m : SortedMap κ ν) (k x : κ) :
    (m.erase k).get? x = if x = k then none else m.get? x :=
  Entries.get?_erase k x m.increasing

@[simp] theorem get?_erase_self (m : SortedMap κ ν) (k : κ) : (m.erase k).get? k = none := by
  classical simp [get?_erase]

theorem get?_erase_of_ne (m : SortedMap κ ν) {k x : κ} (h : x ≠ k) :
    (m.erase k).get? x = m.get? x := by
  classical simp [get?_erase, h]

/-- The entries listed are those looked up. -/
theorem mem_toList {m : SortedMap κ ν} {k : κ} {v : ν} :
    (k, v) ∈ m.toList ↔ m.get? k = some v :=
  Entries.mem_iff_get?_eq_some m.increasing

theorem mem_keys {m : SortedMap κ ν} {k : κ} : k ∈ m.keys ↔ (m.get? k).isSome := by
  simp only [keys, List.mem_map, Prod.exists, exists_and_right, exists_eq_right,
    Option.isSome_iff_exists, mem_toList]

omit [Std.TransOrd κ] in
theorem nodup_keys (m : SortedMap κ ν) : m.keys.Nodup := by
  refine List.pairwise_map.2 (m.increasing.imp fun {a b} h hab => ?_)
  rw [hab, Std.ReflOrd.compare_self] at h
  cases h

/-- Maps that look up alike are equal. -/
theorem ext_get? {m n : SortedMap κ ν} (h : ∀ k, m.get? k = n.get? k) : m = n := by
  have : m.toList = n.toList :=
    Entries.eq_of_mem_iff m.increasing n.increasing fun ⟨k, v⟩ => by
      rw [mem_toList, mem_toList, h]
  cases m; cases n; cases this; rfl

theorem get?_mapValues (m : SortedMap κ ν) (f : κ → ν → μ) (k : κ) :
    (m.mapValues f).get? k = (m.get? k).map (f k) := by
  apply Option.ext
  intro u
  rw [← mem_toList]
  simp only [mapValues, List.mem_map, Prod.mk.injEq, Option.map_eq_some_iff]
  constructor
  · rintro ⟨⟨a, v⟩, h, rfl, rfl⟩
    exact ⟨v, mem_toList.1 h, rfl⟩
  · rintro ⟨v, h, rfl⟩
    exact ⟨(k, v), mem_toList.2 h, rfl, rfl⟩

theorem get?_filter (m : SortedMap κ ν) (p : κ → ν → Bool) (k : κ) :
    (m.filter p).get? k = (m.get? k).filter (p k) := by
  apply Option.ext
  intro u
  rw [← mem_toList]
  simp only [filter, List.mem_filter, Option.filter_eq_some_iff]
  rw [mem_toList]

/-! ## One write after another -/

theorem erase_insert (m : SortedMap κ ν) (k : κ) (v : ν) : (m.insert k v).erase k = m.erase k := by
  classical
  refine ext_get? fun x => ?_
  rw [get?_erase, get?_erase, get?_insert]
  by_cases hx : x = k <;> simp [hx]

/-- Writing what is there already changes nothing. -/
theorem insert_eq_self {m : SortedMap κ ν} {k : κ} {v : ν} (h : m.get? k = some v) :
    m.insert k v = m := by
  classical
  refine ext_get? fun x => ?_
  rw [get?_insert]
  by_cases hx : x = k
  · rw [if_pos hx, hx, h]
  · rw [if_neg hx]

theorem insert_comm (m : SortedMap κ ν) {k l : κ} (h : k ≠ l) (u v : ν) :
    (m.insert k u).insert l v = (m.insert l v).insert k u := by
  classical
  refine ext_get? fun x => ?_
  simp only [get?_insert]
  by_cases hl : x = l
  · simp [hl, h.symm]
  · simp [hl]

theorem erase_insert_of_ne (m : SortedMap κ ν) {k l : κ} (h : k ≠ l) (u : ν) :
    (m.insert k u).erase l = (m.erase l).insert k u := by
  classical
  refine ext_get? fun x => ?_
  simp only [get?_insert, get?_erase]
  by_cases hl : x = l
  · simp [hl, h.symm]
  · simp [hl]

theorem erase_comm (m : SortedMap κ ν) (k l : κ) :
    (m.erase k).erase l = (m.erase l).erase k := by
  classical
  refine ext_get? fun x => ?_
  simp only [get?_erase]
  by_cases hk : x = k <;> by_cases hl : x = l <;> simp [hk, hl]

end SortedMap

end ContextBroker
