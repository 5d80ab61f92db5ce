import ContextBroker.Timeline
import Mathlib.Data.List.Basic
import Mathlib.Data.List.TakeWhile

set_option autoImplicit false

/-! # Sleepers wake in order

On a timeline that is `Ahead` the sleepers stand in the order of their moments, and none of them has
overslept. Whatever moves the clock keeps this, so once the clock has come to a moment all that
sleeps on sleeps longer than that. -/

namespace ContextBroker

namespace Timeline

variable {α : Type}

/-- The sleepers stand in order, and all of them wake later than now. -/
structure Ahead (t : Timeline α) : Prop where
  sorted : t.asleep.Pairwise fun p q => p.1 ≤ q.1
  later (p : Nat × α) : p ∈ t.asleep → t.now < p.1

theorem insertSleeper_perm (d : Nat) (a : α) (l : List (Nat × α)) :
    (insertSleeper d a l).Perm ((d, a) :: l) := by
  induction l with
  | nil => exact .refl _
  | cons p l ih =>
    unfold insertSleeper
    split
    · exact .refl _
    · exact (ih.cons p).trans (.swap ..)

theorem sorted_insertSleeper (d : Nat) (a : α) {l : List (Nat × α)}
    (h : l.Pairwise fun p q => p.1 ≤ q.1) :
    (insertSleeper d a l).Pairwise fun p q => p.1 ≤ q.1 := by
  induction l with
  | nil => simp [insertSleeper]
  | cons p l ih =>
    obtain ⟨hp, hl⟩ := List.pairwise_cons.1 h
    unfold insertSleeper
    split
    · rename_i hlt
      refine List.pairwise_cons.2 ⟨fun q hq => ?_, h⟩
      rcases List.mem_cons.1 hq with rfl | hq
      · exact Nat.le_of_lt hlt
      · exact Nat.le_trans (Nat.le_of_lt hlt) (hp q hq)
    · rename_i hge
      refine List.pairwise_cons.2 ⟨fun q hq => ?_, ih hl⟩
      rcases List.mem_cons.1 ((insertSleeper_perm d a l).mem_iff.1 hq) with rfl | hq
      · exact Nat.le_of_not_lt hge
      · exact hp q hq

/-- What is left when the early sleepers have gone sleeps longer. -/
theorem lt_of_mem_dropWhile {moment : Nat} {l : List (Nat × α)}
    (h : l.Pairwise fun p q => p.1 ≤ q.1) {p : Nat × α}
    (hp : p ∈ l.dropWhile fun q => q.1 ≤ moment) : moment < p.1 := by
  induction l with
  | nil => simp at hp
  | cons q l ih =>
    obtain ⟨hq, hl⟩ := List.pairwise_cons.1 h
    by_cases hle : q.1 ≤ moment
    · rw [List.dropWhile_cons_of_pos (by simpa using hle)] at hp
      exact ih hl hp
    · rw [List.dropWhile_cons_of_neg (by simpa using hle)] at hp
      rcases List.mem_cons.1 hp with rfl | hp
      · exact Nat.lt_of_not_le hle
      · exact Nat.lt_of_lt_of_le (Nat.lt_of_not_le hle) (hq p hp)

theorem lt_wakingTime {now duration : Nat} (h : duration ≠ 0) : now < wakingTime now duration := by
  simp only [wakingTime, longest]
  omega

theorem wakingTime_le_add (now duration : Nat) : wakingTime now duration ≤ now + duration :=
  Nat.add_le_add_left (Nat.min_le_left ..) now

namespace Ahead

variable {t : Timeline α}

theorem sleep (h : t.Ahead) {duration : Nat} (hd : duration ≠ 0) (a : α) :
    (t.sleep duration a).Ahead where
  sorted := sorted_insertSleeper _ a h.sorted
  later p hp := by
    rcases List.mem_cons.1 ((insertSleeper_perm _ a t.asleep).mem_iff.1 hp) with rfl | hp
    · exact lt_wakingTime hd
    · exact h.later p hp

theorem advance (h : t.Ahead) (moment : Nat) : (t.advance moment).Ahead where
  sorted := h.sorted.sublist (List.dropWhile_sublist _)
  later _ hp := lt_of_mem_dropWhile h.sorted hp

/-- Nothing sleeps less long than until the next deadline. -/
theorem nextDeadline_le (h : t.Ahead) {d : Nat} (hd : t.nextDeadline? = some d) {p : Nat × α}
    (hp : p ∈ t.asleep) : d ≤ p.1 := by
  have hsorted := h.sorted
  unfold nextDeadline? at hd
  cases hl : t.asleep with
  | nil => simp [hl] at hp
  | cons q l =>
    rw [hl] at hp hd hsorted
    obtain rfl : q.1 = d := by simpa using hd
    rcases List.mem_cons.1 hp with rfl | hp
    · exact Nat.le_refl _
    · exact (List.pairwise_cons.1 hsorted).1 p hp

/-- What the clock wakes on its way to a moment, no later than the next deadline, was to wake just
    then. -/
theorem moment_eq (h : t.Ahead) {moment : Nat}
    (hm : ∀ d, t.nextDeadline? = some d → moment ≤ d) {p : Nat × α}
    (hp : p ∈ t.asleep.takeWhile fun q => q.1 ≤ moment) : p.1 = moment := by
  have hle : p.1 ≤ moment := by simpa using List.mem_takeWhile_imp hp
  have hmem : p ∈ t.asleep := (List.takeWhile_sublist _).subset hp
  cases hd : t.nextDeadline? with
  | none =>
    have hnil : t.asleep = [] := by simpa [nextDeadline?] using hd
    simp [hnil] at hmem
  | some d =>
    exact Nat.le_antisymm hle (Nat.le_trans (hm d hd) (h.nextDeadline_le hd hmem))

end Ahead

/-- Before the next deadline nobody wakes. -/
theorem ready_advance (t : Timeline α) {moment : Nat}
    (hm : ∀ d, t.nextDeadline? = some d → moment < d) : (t.advance moment).ready = t.ready := by
  unfold nextDeadline? at hm
  unfold advance
  cases hl : t.asleep with
  | nil => simp
  | cons p l =>
    have hlt : moment < p.1 := hm p.1 (by rw [hl]; rfl)
    simp only
    rw [List.takeWhile_cons_of_neg (by simpa using hlt), List.map_nil, List.append_nil]

end Timeline

/-- Settling goes turn by turn. -/
theorem Clocked.settle_eq {σ : Type} [Clocked σ] (s : σ) :
    settle s = match turn? s with
      | some s' => settle s'
      | none => s := by
  conv_lhs => rw [settle]
  split <;> rename_i h <;> rw [h]

/-- What is done up to a moment begins with the next turn, or else with the next waking. -/
theorem Clocked.runTo_eq {σ : Type} [Clocked σ] (moment : Nat) (s : σ) :
    runTo moment s = match turn? s with
      | some s' => runTo moment s'
      | none => match nextDeadline? s with
        | none => advance s moment
        | some d => if d ≤ moment then runTo moment (advance s d) else advance s moment := by
  conv_lhs => rw [runTo]
  split
  · rename_i h
    rw [h]
  · rename_i h
    rw [h]
    simp only
    split
    · rename_i h
      rw [h]
    · rename_i h
      rw [h]

end ContextBroker
