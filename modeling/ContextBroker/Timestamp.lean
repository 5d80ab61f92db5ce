set_option autoImplicit false

/-! # Timestamps

A `Timestamp` is an instant of UTC as a calendar day and a time of day, down to the nanosecond. A
minute may have a leap second, numbered 60. The calendar is the Gregorian one, carried on
backwards before its introduction, with a year zero. -/

namespace ContextBroker

/-! ## Days -/

namespace Calendar

/-- Whether a year has a 29th of February. -/
def isLeap (year : Int) : Bool := year % 4 == 0 && (year % 100 != 0 || year % 400 == 0)

/-- The number of days of a month, counted from 1. -/
def daysInMonth (year : Int) (month : Nat) : Nat :=
  match month with
  | 2 => if isLeap year then 29 else 28
  | 4 | 6 | 9 | 11 => 30
  | _ => 31

theorem daysInMonth_pos (year : Int) (month : Nat) : 1 ≤ daysInMonth year month := by
  unfold daysInMonth
  split
  · split <;> omega
  all_goals omega

end Calendar

/-- A calendar day. -/
structure Date where
  year : Int
  month : Nat
  day : Nat
  month_valid : 1 ≤ month ∧ month ≤ 12
  day_valid : 1 ≤ day ∧ day ≤ Calendar.daysInMonth year month
  deriving DecidableEq

namespace Date

/-- The day of these numbers, if there is one. -/
def of? (year : Int) (month day : Nat) : Option Date :=
  if hm : 1 ≤ month ∧ month ≤ 12 then
    if hd : 1 ≤ day ∧ day ≤ Calendar.daysInMonth year month then some ⟨year, month, day, hm, hd⟩
    else none
  else none

/-- The first day of 1970. -/
instance : Inhabited Date := ⟨⟨1970, 1, 1, by decide, by decide⟩⟩

/-- The day after. -/
def next (d : Date) : Date :=
  if h : d.day < Calendar.daysInMonth d.year d.month then
    { d with day := d.day + 1, day_valid := by omega }
  else if hm : d.month < 12 then
    ⟨d.year, d.month + 1, 1, by omega, by simp [Calendar.daysInMonth_pos]⟩
  else
    ⟨d.year + 1, 1, 1, by decide, by simp [Calendar.daysInMonth_pos]⟩

/-- The day before. -/
def prev (d : Date) : Date :=
  if h : 1 < d.day then
    { d with day := d.day - 1, day_valid := by have := d.day_valid; omega }
  else if hm : 1 < d.month then
    ⟨d.year, d.month - 1, Calendar.daysInMonth d.year (d.month - 1),
      by have := d.month_valid; omega, by simp [Calendar.daysInMonth_pos]⟩
  else
    ⟨d.year - 1, 12, 31, by decide, by simp [Calendar.daysInMonth]⟩

end Date

/-! ## Times of day -/

/-- A time of day. Second 60 is a leap second. -/
structure TimeOfDay where
  hour : Nat
  minute : Nat
  second : Nat
  nanos : Nat
  hour_lt : hour < 24
  minute_lt : minute < 60
  second_le : second ≤ 60
  nanos_lt : nanos < 1000000000
  deriving DecidableEq

namespace TimeOfDay

/-- Midnight. -/
instance : Inhabited TimeOfDay :=
  ⟨⟨0, 0, 0, 0, by decide, by decide, by decide, by decide⟩⟩

/-- The time of these numbers, if there is one. -/
def of? (hour minute second nanos : Nat) : Option TimeOfDay :=
  if h : hour < 24 ∧ minute < 60 ∧ second ≤ 60 ∧ nanos < 1000000000 then
    some ⟨hour, minute, second, nanos, h.1, h.2.1, h.2.2.1, h.2.2.2⟩
  else none

/-- The same second of another minute of the day, counted from midnight. -/
def atMinute (t : TimeOfDay) (m : Nat) (h : m < 1440) : TimeOfDay :=
  { t with
    hour := m / 60
    minute := m % 60
    hour_lt := by omega
    minute_lt := by omega }

end TimeOfDay

/-! ## Instants -/

/-- An instant of UTC. -/
structure Timestamp where
  date : Date
  time : TimeOfDay
  deriving DecidableEq, Inhabited

namespace Timestamp

/-- The instant at which clocks `offset` minutes ahead of UTC show `shown`, for an offset of less
    than a day. -/
def ofLocal (shown : Timestamp) (offset : Int) : Timestamp :=
  let m : Int := shown.time.hour * 60 + shown.time.minute - offset
  let time := shown.time.atMinute (m % 1440).toNat (by omega)
  if m < 0 then ⟨shown.date.prev, time⟩
  else if m < 1440 then ⟨shown.date, time⟩
  else ⟨shown.date.next, time⟩

end Timestamp

end ContextBroker
