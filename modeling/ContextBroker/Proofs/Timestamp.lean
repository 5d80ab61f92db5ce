import ContextBroker.Proofs.Digits
import ContextBroker.Timestamp.Text

set_option autoImplicit false

/-! # A written instant is read as itself

Every number of a written instant but a year with a sign fills a field of fixed width, so it is read
to the end of its field and no further (`Digits.read?_padded`). The places of the second come in the
fewest of 3, 6 and 9 digits that are exact, and reading makes up for the digits left out
(`Timestamp.nanos?_fractionText`). A leap second has a number of its own, 60, and stays one. -/

namespace ContextBroker.Timestamp

open Digits

/-! ## Fields -/

/-- A digit is no blank. -/
theorem isBlank_of_isDigit {c : Char} (h : c.isDigit = true) : Text.isBlank c = false := by
  have : 48 ≤ c.toNat ∧ c.toNat ≤ 57 := by
    simpa [Char.isDigit, UInt32.le_iff_toNat_le] using h
  simp [Text.isBlank, Text.blankRanges]
  omega

/-- No blanks are skipped before a field. -/
theorem skipBlanks_padded (width n : Nat) (rest : List Char) :
    Text.skipBlanks (padded width n ++ rest) = padded width n ++ rest := by
  obtain ⟨d, ds, hds, hd⟩ := (isRun_padded width n).exists_cons
  simp [Text.skipBlanks, hds, isBlank_of_isDigit hd]

theorem number?_padded {n : Nat} (hn : n < 100) (rest : List Char) :
    number? 2 (padded 2 n ++ rest) = some (n, rest) := by
  rw [number?, skipBlanks_padded, read?_padded (by decide) hn (.inl rfl)]

/-- A field of two digits after its separator. -/
theorem numberAfter?_padded {separator : Char} (hseparator : Text.isBlank separator = false)
    {n : Nat} (hn : n < 100) (rest : List Char) :
    numberAfter? separator (separator :: (padded 2 n ++ rest)) = some (n, rest) := by
  simp [numberAfter?, Text.skipBlanks, hseparator, after?, number?_padded hn]

/-! ## The day -/

/-- A year is read as it was written, of four digits or with its sign. -/
theorem year?_yearText (year : Int) {rest : List Char} (hrest : Stops rest) :
    year? (yearText year ++ rest) = some (year, rest) := by
  unfold yearText
  split
  case isTrue hfour =>
    rw [year?, skipBlanks_padded]
    split
    case h_1 h => exact absurd h ((isRun_padded 4 _).append_ne rfl _ _)
    case h_2 h => exact absurd h ((isRun_padded 4 _).append_ne rfl _ _)
    case h_3 =>
      rw [read?_padded (by decide) (by omega) (.inl rfl)]
      simp only [Option.map_some, Option.some.injEq, Prod.mk.injEq, and_true]
      omega
  case isFalse hfour =>
    have hread := (isRun_padded 4 year.natAbs).read?_append hrest
    rw [value_padded] at hread
    by_cases hneg : year < 0
    · have hblanks : Text.skipBlanks ('-' :: (padded 4 year.natAbs ++ rest)) =
          '-' :: (padded 4 year.natAbs ++ rest) := rfl
      rw [if_pos hneg, List.cons_append, year?, hblanks]
      simp only [hread, Option.map_some, Option.some.injEq, Prod.mk.injEq, and_true]
      omega
    · have hblanks : Text.skipBlanks ('+' :: (padded 4 year.natAbs ++ rest)) =
          '+' :: (padded 4 year.natAbs ++ rest) := rfl
      rw [if_neg hneg, List.cons_append, year?, hblanks]
      simp only [hread, Option.map_some, Option.some.injEq, Prod.mk.injEq, and_true]
      omega

theorem daysInMonth_le (year : Int) (month : Nat) : Calendar.daysInMonth year month ≤ 31 := by
  unfold Calendar.daysInMonth
  split
  · split <;> decide
  all_goals decide

theorem date_of? (d : Date) : Date.of? d.year d.month d.day = some d := by
  rw [Date.of?, dif_pos d.month_valid, dif_pos d.day_valid]

/-- A written day. -/
theorem date?_append (d : Date) (rest : List Char) :
    date? (yearText d.year ++ '-' :: (padded 2 d.month ++ '-' :: (padded 2 d.day ++ rest))) =
      some (d, rest) := by
  have hmonth : d.month < 100 := by have := d.month_valid; omega
  have hday : d.day < 100 := by
    have := d.day_valid
    have := daysInMonth_le d.year d.month
    omega
  have hstops : Stops ('-' :: (padded 2 d.month ++ '-' :: (padded 2 d.day ++ rest))) := by
    simp [Stops]
  simp [date?, year?_yearText d.year hstops,
    numberAfter?_padded (by decide : Text.isBlank '-' = false), hmonth, hday, date_of?]

/-! ## The time of day -/

theorem time_of? (t : TimeOfDay) : TimeOfDay.of? t.hour t.minute t.second t.nanos = some t := by
  rw [TimeOfDay.of?, dif_pos ⟨t.hour_lt, t.minute_lt, t.second_le, t.nanos_lt⟩]

/-- Places of the second, in a field of up to nine digits. -/
theorem nanos?_padded {width n : Nat} (hwidth : 0 < width) (hnine : width ≤ 9)
    (hn : n < 10 ^ width) {rest : List Char} (hrest : Stops rest) :
    nanos? ('.' :: (padded width n ++ rest)) = some (n * 10 ^ (9 - width), rest) := by
  have hbounds : Bounds width 9 rest := .inr ⟨hnine, hrest⟩
  simp [nanos?, takeWhile_padded hwidth hn hbounds, read?_padded hwidth hn hbounds,
    length_padded hwidth hn, dropWhile_eq_self hrest]

/-- The places of the second are read back, however few are written. -/
theorem nanos?_fractionText {n : Nat} (hn : n < 1000000000) :
    nanos? (fractionText n ++ ['Z']) = some (n, ['Z']) := by
  have hrest : Stops ['Z'] := by simp [Stops]
  unfold fractionText
  split
  · subst n
    rfl
  split
  · rw [List.cons_append, nanos?_padded (by decide) (by decide) (by omega) hrest]
    simp
    omega
  split
  · rw [List.cons_append, nanos?_padded (by decide) (by decide) (by omega) hrest]
    simp
    omega
  · rw [List.cons_append, nanos?_padded (by decide) (by decide) hn hrest]
    simp

/-- A written time of day. -/
theorem time?_append (t : TimeOfDay) :
    time? (padded 2 t.hour ++ ':' :: (padded 2 t.minute ++ ':' :: (padded 2 t.second ++
      (fractionText t.nanos ++ ['Z'])))) = some (t, ['Z']) := by
  have hhour : t.hour < 100 := by have := t.hour_lt; omega
  have hminute : t.minute < 100 := by have := t.minute_lt; omega
  have hsecond : t.second < 100 := by have := t.second_le; omega
  simp [time?, number?_padded, numberAfter?_padded (by decide : Text.isBlank ':' = false),
    hhour, hminute, hsecond, nanos?_fractionText t.nanos_lt, time_of?]

/-! ## The instant -/

/-- A time of day at the minute that it is in. -/
theorem atMinute_self (t : TimeOfDay) {m : Nat} (h : m < 1440)
    (hm : m = t.hour * 60 + t.minute) : t.atMinute m h = t := by
  obtain ⟨hour, minute, second, nanos, _, hminute, _, _⟩ := t
  simp only at hm
  simp only [TimeOfDay.atMinute, TimeOfDay.mk.injEq, and_true]
  omega

/-- Clocks that show UTC show the instant. -/
theorem ofLocal_zero (t : Timestamp) : ofLocal t 0 = t := by
  have hhour := t.time.hour_lt
  have hminute := t.time.minute_lt
  rw [ofLocal, if_neg (by omega), if_pos (by omega), atMinute_self _ _ (by omega)]

/-- **A written instant is read as itself**, if instants of its year are read at all. -/
theorem ofText?_text {t : Timestamp} (hrange : inRange t.date = true) :
    ofText? t.text = some t := by
  have hchars : t.chars = yearText t.date.year ++ '-' :: (padded 2 t.date.month ++
      '-' :: (padded 2 t.date.day ++ 'T' :: (padded 2 t.time.hour ++ ':' ::
        (padded 2 t.time.minute ++ ':' :: (padded 2 t.time.second ++
          (fractionText t.time.nanos ++ ['Z'])))))) := by
    simp [chars]
  have hoffset : offset? (Text.skipBlanks ['Z']) = some (0, []) := by decide
  have hend : Text.skipBlanks [] = [] := rfl
  rw [ofText?, text, String.toList_ofList, hchars, ofChars?]
  simp [date?_append, time?_append, hoffset, hend, ofLocal_zero, hrange]

end ContextBroker.Timestamp
