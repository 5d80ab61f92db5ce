import ContextBroker.Sorted.Map
import ContextBroker.Tally

set_option autoImplicit false

/-! # Sums over a finite map

`SortedMap.total f m` adds up `f` over the values of `m`. Writing a value adds its share and takes
away that of the value it replaces; erasing takes away the share of what was there. -/

namespace ContextBroker

namespace SortedMap

variable {κ ν : Type} [Ord κ]

/-- The sum of `f` over the values. -/
def total (f : ν → Nat) (m : SortedMap κ ν) : Nat := tally (fun e => f e.2) m.toList

/-- What `f` gives for the value at `k`; nothing when there is none. -/
def share (f : ν → Nat) (m : SortedMap κ ν) (k : κ) : Nat := ((m.get? k).map f).getD 0

theorem share_of_get? {f : ν → Nat} {m : SortedMap κ ν} {k : κ} {v : ν} (h : m.get? k = some v) :
    m.share f k = f v := by simp [share, h]

namespace Entries

theorem tally_insert (f : ν → Nat) (k : κ) (v : ν) (es : List (κ × ν)) :
    tally (fun e => f e.2) (insert k v es) + ((get? k es).map f).getD 0 =
      tally (fun e => f e.2) es + f v := by
  induction es with
  | nil => simp [insert, get?]
  | cons e rest ih =>
    obtain ⟨a, w⟩ := e
    unfold insert get?
    cases compare k a with
    | lt => simp; omega
    | eq => simp; omega
    | gt => simp at ih ⊢; omega

theorem tally_erase (f : ν → Nat) (k : κ) (es : List (κ × ν)) :
    tally (fun e => f e.2) (erase k es) + ((get? k es).map f).getD 0 =
      tally (fun e => f e.2) es := by
  induction es with
  | nil => simp [erase, get?]
  | cons e rest ih =>
    obtain ⟨a, w⟩ := e
    unfold erase get?
    cases compare k a with
    | lt => simp
    | eq => simp; omega
    | gt => simp at ih ⊢; omega

end Entries

theorem total_insert [Std.TransOrd κ] (f : ν → Nat) (m : SortedMap κ ν) (k : κ) (v : ν) :
    (m.insert k v).total f + m.share f k = m.total f + f v :=
  Entries.tally_insert f k v m.toList

theorem total_erase (f : ν → Nat) (m : SortedMap κ ν) (k : κ) :
    (m.erase k).total f + m.share f k = m.total f :=
  Entries.tally_erase f k m.toList

/-- The size counts one for each value. -/
theorem size_eq_total (m : SortedMap κ ν) : m.size = m.total fun _ => 1 :=
  (tally_one m.toList).symm

/-- Writing where nothing was makes the map larger by one, and writing elsewhere keeps its size. -/
theorem size_insert [Std.TransOrd κ] (m : SortedMap κ ν) (k : κ) (v : ν) :
    (m.insert k v).size = m.size + if m.contains k then 0 else 1 := by
  have h := m.total_insert (fun _ => 1) k v
  rw [size_eq_total, size_eq_total]
  cases hk : m.get? k with
  | none => simpa [share, contains, hk] using h
  | some w => simp [share, contains, hk] at h ⊢; omega

/-- Erasing an entry makes the map smaller by one. -/
theorem size_erase (m : SortedMap κ ν) (k : κ) :
    (m.erase k).size + (if m.contains k then 1 else 0) = m.size := by
  have h := m.total_erase (fun _ => 1) k
  rw [size_eq_total, size_eq_total]
  cases hk : m.get? k with
  | none => simpa [share, contains, hk] using h
  | some w => simpa [share, contains, hk] using h

end SortedMap

end ContextBroker
