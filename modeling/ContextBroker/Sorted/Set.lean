import ContextBroker.Sorted.Map

set_option autoImplicit false

/-! # Finite sets in order

A `SortedSet` is a `SortedMap` to `Unit`: its elements are the keys. Two sets with the same members
are equal (`SortedSet.ext`), and the members are listed in order. -/

namespace ContextBroker

variable {α : Type}

/-- A finite set, its members in increasing order. -/
structure SortedSet (α : Type) [Ord α] where
  /-- The members, as the keys of a map. -/
  members : SortedMap α Unit
  deriving DecidableEq

namespace SortedSet

variable [Ord α]

/-- The set with no member. -/
def empty : SortedSet α := ⟨∅⟩

instance : EmptyCollection (SortedSet α) := ⟨empty⟩

instance : Inhabited (SortedSet α) := ⟨∅⟩

/-- Whether `a` is a member. -/
def contains (s : SortedSet α) (a : α) : Bool := s.members.contains a

instance : Membership α (SortedSet α) := ⟨fun s a => s.contains a = true⟩

instance (a : α) (s : SortedSet α) : Decidable (a ∈ s) :=
  inferInstanceAs (Decidable (s.contains a = true))

/-- The members, in order. -/
def toList (s : SortedSet α) : List α := s.members.keys

/-- The number of members. -/
def size (s : SortedSet α) : Nat := s.members.size

/-- Whether there is no member. -/
def isEmpty (s : SortedSet α) : Bool := s.members.isEmpty

/-- The set with `a` added. -/
def insert [Std.TransOrd α] (s : SortedSet α) (a : α) : SortedSet α := ⟨s.members.insert a ()⟩

/-- The set with `a` removed. -/
def erase (s : SortedSet α) (a : α) : SortedSet α := ⟨s.members.erase a⟩

/-- The set of the elements of a list. -/
def ofList [Std.TransOrd α] (as : List α) : SortedSet α := as.foldl insert ∅

theorem contains_iff_mem {s : SortedSet α} {a : α} : s.contains a = true ↔ a ∈ s := Iff.rfl

theorem mem_iff_get? {s : SortedSet α} {a : α} : a ∈ s ↔ s.members.get? a = some () := by
  rw [← contains_iff_mem, contains, SortedMap.contains_eq_isSome]
  cases s.members.get? a <;> simp

@[simp] theorem not_mem_empty (a : α) : ¬ a ∈ (∅ : SortedSet α) := by
  simp [mem_iff_get?, EmptyCollection.emptyCollection, empty, SortedMap.get?,
    SortedMap.empty, SortedMap.Entries.get?]

variable [Std.TransOrd α] [Std.LawfulEqOrd α]

theorem mem_toList {s : SortedSet α} {a : α} : a ∈ s.toList ↔ a ∈ s := by
  rw [mem_iff_get?, ← SortedMap.mem_toList]
  simp only [toList, SortedMap.keys, List.mem_map, Prod.exists]
  constructor
  · rintro ⟨b, u, h, rfl⟩
    exact h
  · intro h
    exact ⟨a, (), h, rfl⟩

@[simp] theorem mem_insert {s : SortedSet α} {a b : α} : b ∈ s.insert a ↔ b = a ∨ b ∈ s := by
  classical
  rw [mem_iff_get?, mem_iff_get?, insert, SortedMap.get?_insert]
  by_cases h : b = a <;> simp [h]

@[simp] theorem mem_erase {s : SortedSet α} {a b : α} : b ∈ s.erase a ↔ b ≠ a ∧ b ∈ s := by
  classical
  rw [mem_iff_get?, mem_iff_get?, erase, SortedMap.get?_erase]
  by_cases h : b = a <;> simp [h]

theorem mem_ofList {as : List α} {a : α} : a ∈ ofList as ↔ a ∈ as := by
  have : ∀ (as : List α) (s : SortedSet α), a ∈ as.foldl insert s ↔ a ∈ s ∨ a ∈ as := by
    intro as
    induction as with
    | nil => simp
    | cons b rest ih =>
      intro s
      rw [List.foldl_cons, ih, mem_insert, List.mem_cons]
      constructor
      · rintro ((h | h) | h)
        · exact .inr (.inl h)
        · exact .inl h
        · exact .inr (.inr h)
      · rintro (h | h | h)
        · exact .inl (.inr h)
        · exact .inl (.inl h)
        · exact .inr h
  simpa [ofList] using this as ∅

omit [Std.TransOrd α] in
theorem nodup_toList (s : SortedSet α) : s.toList.Nodup := s.members.nodup_keys

theorem erase_comm (s : SortedSet α) (a b : α) : (s.erase a).erase b = (s.erase b).erase a :=
  congrArg SortedSet.mk (s.members.erase_comm a b)

theorem isEmpty_iff {s : SortedSet α} : s.isEmpty = true ↔ ∀ a, ¬ a ∈ s := by
  simp only [← mem_toList]
  rw [isEmpty, SortedMap.isEmpty, toList, SortedMap.keys, ← List.eq_nil_iff_forall_not_mem]
  simp

/-- Sets with the same members are equal. -/
theorem ext {s t : SortedSet α} (h : ∀ a, a ∈ s ↔ a ∈ t) : s = t := by
  have : s.members = t.members := SortedMap.ext_get? fun a => by
    have ha := h a
    rw [mem_iff_get?, mem_iff_get?] at ha
    cases hs : s.members.get? a <;> cases ht : t.members.get? a <;> simp_all
  cases s; cases t; cases this; rfl

end SortedSet

end ContextBroker
