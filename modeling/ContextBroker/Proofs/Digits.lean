import ContextBroker.Text.Digits
import Mathlib.Algebra.Group.Nat.Defs
import Mathlib.Data.List.TakeWhile

set_option autoImplicit false

/-! # Runs of digits

What is written in decimal is a run of digits, and reading takes a run to its end: up to where no
digit follows (`Stops`), or up to the width of its field (`read?_padded`). -/

namespace ContextBroker.Digits

/-- A run of at least one digit. -/
def IsRun (ds : List Char) : Prop := ds ≠ [] ∧ ∀ d ∈ ds, d.isDigit = true

/-- Whether a text does not start with a digit. -/
def Stops (cs : List Char) : Prop := ∀ c ∈ cs.head?, c.isDigit = false

variable {ds rest : List Char} {c : Char} {width most n : Nat}

/-! ## Where a run ends -/

theorem takeWhile_eq_nil (h : Stops rest) : rest.takeWhile Char.isDigit = [] := by
  cases rest with
  | nil => rfl
  | cons c cs => simp [h c rfl]

theorem dropWhile_eq_self (h : Stops rest) : rest.dropWhile Char.isDigit = rest := by
  cases rest with
  | nil => rfl
  | cons c cs => simp [h c rfl]

theorem Stops.take (h : Stops rest) (k : Nat) : Stops (rest.take k) := by
  intro c hc
  refine h c ?_
  cases rest <;> cases k <;> simp_all

/-- A run is taken whole where no digit follows. -/
theorem IsRun.takeWhile_append (h : IsRun ds) (hrest : Stops rest) :
    (ds ++ rest).takeWhile Char.isDigit = ds := by
  rw [List.takeWhile_append_of_pos h.2, takeWhile_eq_nil hrest, List.append_nil]

theorem IsRun.dropWhile_append (h : IsRun ds) (hrest : Stops rest) :
    (ds ++ rest).dropWhile Char.isDigit = rest := by
  rw [List.dropWhile_append_of_pos h.2, dropWhile_eq_self hrest]

/-- What starts with a run starts with a digit. -/
theorem IsRun.exists_cons (h : IsRun ds) : ∃ d ds', ds = d :: ds' ∧ d.isDigit = true := by
  obtain ⟨d, ds', rfl⟩ := List.exists_cons_of_ne_nil h.1
  exact ⟨d, ds', rfl, h.2 d List.mem_cons_self⟩

/-- What starts with a run starts with nothing else than a digit. -/
theorem IsRun.append_ne (h : IsRun ds) (hc : c.isDigit = false) (rest cs : List Char) :
    ds ++ rest ≠ c :: cs := by
  obtain ⟨d, ds', rfl, hd⟩ := h.exists_cons
  rintro heq
  rw [List.cons_append] at heq
  rw [List.head_eq_of_cons_eq heq, hc] at hd
  exact absurd hd (by decide)

/-- A run is read whole, when any number of digits may be. -/
theorem IsRun.read?_append (h : IsRun ds) (hrest : Stops rest) :
    read? (ds ++ rest).length (ds ++ rest) = some (value ds, rest) := by
  obtain ⟨d, ds', hds, _⟩ := h.exists_cons
  rw [read?, List.take_length, h.takeWhile_append hrest, hds]
  show some (value (d :: ds'), _) = _
  rw [← hds, List.drop_left]

/-! ## Numbers in decimal -/

theorem isRun_toDigits (n : Nat) : IsRun (Nat.toDigits 10 n) :=
  ⟨Nat.toDigits_ne_nil, fun _ hd => Nat.isDigit_of_mem_toDigits (by decide) (by decide) hd⟩

/-- A number that is not zero does not start with a zero. -/
theorem head?_toDigits_ne (n : Nat) (hn : 0 < n) : (Nat.toDigits 10 n).head? ≠ some '0' := by
  induction n using Nat.strongRecOn with
  | _ n ih =>
    by_cases h : n < 10
    · have digits : ∀ k < 10, 0 < k → some k.digitChar ≠ some '0' := by decide
      rw [Nat.toDigits_of_lt_base h]
      exact digits n h hn
    · have hlead := ih (n / 10) (by omega) (by omega)
      obtain ⟨d, ds, hds, _⟩ := (isRun_toDigits (n / 10)).exists_cons
      rw [Nat.toDigits_of_base_le (by decide) (by omega), hds]
      rwa [hds] at hlead

theorem value_toDigits (n : Nat) : value (Nat.toDigits 10 n) = n := by simp [value]

/-! ## Fields of fixed width -/

theorem isRun_padded (width n : Nat) : IsRun (padded width n) := by
  refine ⟨by simp [padded, Nat.toDigits_ne_nil], fun d hd => ?_⟩
  obtain hd | hd := List.mem_append.1 hd
  · rw [List.eq_of_mem_replicate hd]
    rfl
  · exact (isRun_toDigits n).2 d hd

/-- A number fills its field, if it is not too large for it. -/
theorem length_padded (hwidth : 0 < width) (hn : n < 10 ^ width) :
    (padded width n).length = width := by
  have := (Nat.length_toDigits_le_iff (by decide) hwidth).2 hn
  simp only [padded, List.length_append, List.length_replicate]
  omega

/-- Whether at most `most` digits reach to the end of a field of `width` digits and no further:
    there may be no more, or what follows the field is none. -/
def Bounds (width most : Nat) (rest : List Char) : Prop :=
  width = most ∨ width ≤ most ∧ Stops rest

/-- The digits in front of a text that starts with a field. -/
theorem takeWhile_padded (hwidth : 0 < width) (hn : n < 10 ^ width)
    (h : Bounds width most rest) :
    ((padded width n ++ rest).take most).takeWhile Char.isDigit = padded width n := by
  have hlength := length_padded hwidth hn
  have hle : width ≤ most := h.elim Nat.le_of_eq And.left
  have hstops : Stops (rest.take (most - width)) := by
    obtain rfl | ⟨_, hrest⟩ := h
    · simp [Stops]
    · exact hrest.take _
  rw [List.take_append, hlength, List.take_of_length_le (by omega),
    (isRun_padded width n).takeWhile_append hstops]

/-- **A number is read to the end of its field.** -/
theorem read?_padded (hwidth : 0 < width) (hn : n < 10 ^ width)
    (h : Bounds width most rest) : read? most (padded width n ++ rest) = some (n, rest) := by
  obtain ⟨d, ds, hds, _⟩ := (isRun_padded width n).exists_cons
  rw [read?, takeWhile_padded hwidth hn h, hds]
  show some (value (d :: ds), _) = _
  rw [← hds, value_padded, List.drop_left]

end ContextBroker.Digits
