import Mathlib.Data.List.Basic
import Mathlib.Data.List.Induction

set_option autoImplicit false

/-! # Logs

A log grows at its end, so what it tells is followed one line at a time. What was begun on some line
is `Standing` until a line on which it is ended; the last line decides together with those before it
(`standing_concat`). -/

namespace ContextBroker

/-- An element of two lists together stands in the first or in the second. -/
theorem append_cons_eq_append {α : Type} {l k m n : List α} {y : α} (h : m ++ y :: n = l ++ k) :
    (∃ m', m = l ++ m' ∧ k = m' ++ y :: n) ∨ ∃ n', n = n' ++ k ∧ l = m ++ y :: n' := by
  rcases List.append_eq_append_iff.1 h with ⟨l', rfl, hk⟩ | ⟨m', rfl, rfl⟩
  · rcases List.cons_eq_append_iff.1 hk with ⟨rfl, rfl⟩ | ⟨n', rfl, rfl⟩
    · exact .inl ⟨[], by simp, rfl⟩
    · exact .inr ⟨n', rfl, rfl⟩
  · exact .inl ⟨m', rfl, rfl⟩

/-- An element of a list that ends in `x` is this `x`, or stands before it. -/
theorem append_cons_eq_concat {α : Type} {l m n : List α} {x y : α} (h : m ++ y :: n = l ++ [x]) :
    (n = [] ∧ m = l ∧ y = x) ∨ ∃ n', n = n' ++ [x] ∧ l = m ++ y :: n' := by
  refine (append_cons_eq_append h).imp_left ?_
  rintro ⟨m', rfl, hm⟩
  rcases List.cons_eq_append_iff.1 hm with ⟨rfl, hn⟩ | ⟨m'', rfl, hnil⟩
  · simp_all
  · simp at hnil

/-- What stands at a place of a list that ends in `x` stood there before, or is this `x`. -/
theorem getElem?_concat_eq_some {α : Type} {l : List α} {x y : α} {k : Nat}
    (h : (l ++ [x])[k]? = some y) : l[k]? = some y ∨ (k = l.length ∧ y = x) := by
  rcases Nat.lt_or_ge k l.length with hlt | hge
  · rw [List.getElem?_append_left hlt] at h
    exact .inl h
  · rw [List.getElem?_append_right hge, List.getElem?_singleton] at h
    split at h
    · exact .inr ⟨by omega, (Option.some.inj h).symm⟩
    · cases h

/-- An element of a list between `b` and `x` is one of the two, or stands between them. -/
theorem append_cons_eq_between {α : Type} {l m n : List α} {b x y : α}
    (h : m ++ y :: n = b :: l ++ [x]) :
    (m = [] ∧ y = b ∧ n = l ++ [x]) ∨ y = x ∨
      ∃ m' n', m = b :: m' ∧ n = n' ++ [x] ∧ l = m' ++ y :: n' := by
  rcases append_cons_eq_concat h with ⟨-, -, rfl⟩ | ⟨n', rfl, hl⟩
  · exact .inr (.inl rfl)
  · rcases List.cons_eq_append_iff.1 hl with ⟨rfl, hn⟩ | ⟨m', rfl, hm⟩
    · obtain ⟨rfl, rfl⟩ := List.cons.inj hn
      exact .inl ⟨rfl, rfl, rfl⟩
    · exact .inr (.inr ⟨m', n', rfl, rfl, hm⟩)

/-- Of those that have a value, if all values are different, one at most has a given value. -/
theorem eq_of_nodup_filterMap {α β : Type} {f : α → Option β} {l : List α}
    (h : (l.filterMap f).Nodup) {x y : α} {b : β} (hx : x ∈ l) (hy : y ∈ l) (hfx : f x = some b)
    (hfy : f y = some b) : x = y := by
  have hpair := List.pairwise_iff_getElem.1 (List.pairwise_filterMap.1 h)
  obtain ⟨i, hi, rfl⟩ := List.getElem_of_mem hx
  obtain ⟨j, hj, rfl⟩ := List.getElem_of_mem hy
  rcases Nat.lt_trichotomy i j with hij | rfl | hij
  · exact absurd rfl (hpair i j hi hj hij b hfx b hfy)
  · rfl
  · exact absurd rfl (hpair j i hj hi hij b hfy b hfx)

variable {α : Type} {begins ends : α → Prop} {log : List α} {y : α}

/-- Something was begun, and not ended since. -/
def Standing (begins ends : α → Prop) (log : List α) : Prop :=
  ∃ before x after, log = before ++ x :: after ∧ begins x ∧ ∀ z ∈ after, ¬ ends z

theorem not_standing_nil : ¬ Standing begins ends [] := by
  rintro ⟨before, x, after, hlog, -⟩
  simp at hlog

/-- What stands was begun on the last line, or stood before and is not ended on it. -/
theorem standing_concat : Standing begins ends (log ++ [y]) ↔
    begins y ∨ (Standing begins ends log ∧ ¬ ends y) := by
  constructor
  · rintro ⟨before, x, after, hlog, hx, hafter⟩
    rcases append_cons_eq_concat hlog.symm with ⟨rfl, rfl, rfl⟩ | ⟨after, rfl, rfl⟩
    · exact .inl hx
    · refine .inr ⟨⟨before, x, after, rfl, hx, fun z hz => ?_⟩, hafter y (by simp)⟩
      exact hafter z (List.mem_append_left _ hz)
  · rintro (hy | ⟨⟨before, x, after, rfl, hx, hafter⟩, hy⟩)
    · exact ⟨log, y, [], rfl, hy, by simp⟩
    · refine ⟨before, x, after ++ [y], by simp, hx, fun z hz => ?_⟩
      rcases List.mem_append.1 hz with hz | hz
      · exact hafter z hz
      · rwa [List.mem_singleton.1 hz]

/-- What stands was begun again after it was ended. -/
theorem exists_begins_of_standing {mid : List α} (hbegins : ¬ begins y) (hends : ends y)
    (h : Standing begins ends (log ++ y :: mid)) : ∃ x ∈ mid, begins x := by
  induction mid using List.reverseRecOn with
  | nil => exact absurd (standing_concat.1 h) (by simp [hbegins, hends])
  | append_singleton mid z ih =>
    rw [← List.cons_append, ← List.append_assoc, standing_concat] at h
    rcases h with hz | ⟨h, -⟩
    · exact ⟨z, by simp, hz⟩
    · obtain ⟨x, hx, hxb⟩ := ih h
      exact ⟨x, List.mem_append_left _ hx, hxb⟩

/-- What was ever begun still stands, or was ended on a line at which it stood. -/
theorem standing_or_ended (ends : α → Prop) {x : α} (hx : x ∈ log) (hbegins : begins x) :
    Standing begins ends log ∨ ∃ before z after, log = before ++ z :: after ∧
      Standing begins ends before ∧ ends z := by
  induction log using List.reverseRecOn with
  | nil => simp at hx
  | append_singleton log y ih =>
    rcases List.mem_append.1 hx with hx | hx
    · rcases ih hx with hstands | ⟨before, z, after, rfl, hstood, hz⟩
      · by_cases hy : ends y
        · exact .inr ⟨log, y, [], rfl, hstands, hy⟩
        · exact .inl (standing_concat.2 (.inr ⟨hstands, hy⟩))
      · exact .inr ⟨before, z, after ++ [y], by simp, hstood, hz⟩
    · obtain rfl := List.mem_singleton.1 hx
      exact .inl (standing_concat.2 (.inl hbegins))

end ContextBroker
