import ContextBroker.Text.Blank
import ContextBroker.Text.Digits
import ContextBroker.Timestamp

set_option autoImplicit false

/-! # Timestamps as text

Timestamps are written as RFC 3339 has it, in UTC, with the fewest of 0, 3, 6 or 9 places of the
second that are exact. Reading takes any offset, and is lenient: blanks may stand around the
numbers, and numbers may be short of their leading zeros. -/

namespace ContextBroker.Timestamp

/-! ## Writing -/

/-- A year: four digits from 0000 to 9999, beyond that with its sign. -/
def yearText (year : Int) : List Char :=
  if 0 ≤ year ∧ year ≤ 9999 then Digits.padded 4 year.toNat
  else (if year < 0 then '-' else '+') :: Digits.padded 4 year.natAbs

/-- The places of the second: none, three, six or nine, whichever is exact first. -/
def fractionText (nanos : Nat) : List Char :=
  if nanos = 0 then []
  else if nanos % 1000000 = 0 then '.' :: Digits.padded 3 (nanos / 1000000)
  else if nanos % 1000 = 0 then '.' :: Digits.padded 6 (nanos / 1000)
  else '.' :: Digits.padded 9 nanos

/-- The written form of an instant. -/
def chars (t : Timestamp) : List Char :=
  yearText t.date.year ++ '-' :: Digits.padded 2 t.date.month ++
    '-' :: Digits.padded 2 t.date.day ++
    'T' :: Digits.padded 2 t.time.hour ++ ':' :: Digits.padded 2 t.time.minute ++
    ':' :: Digits.padded 2 t.time.second ++ fractionText t.time.nanos ++ ['Z']

/-- The written form of an instant. -/
def text (t : Timestamp) : String := String.ofList t.chars

/-! ## Reading -/

/-- The text after the character `c`. -/
def after? (c : Char) : List Char → Option (List Char)
  | x :: rest => if x = c then some rest else none
  | [] => none

/-- A number of at most `most` digits, blanks before it left out. -/
def number? (most : Nat) (cs : List Char) : Option (Nat × List Char) :=
  Digits.read? most (Text.skipBlanks cs)

/-- A year: up to four digits, or any number of digits after a sign. -/
def year? (cs : List Char) : Option (Int × List Char) :=
  match Text.skipBlanks cs with
  | '-' :: rest => (Digits.read? rest.length rest).map fun (n, rest) => (-(n : Int), rest)
  | '+' :: rest => (Digits.read? rest.length rest).map fun (n, rest) => ((n : Int), rest)
  | cs => (Digits.read? 4 cs).map fun (n, rest) => ((n : Int), rest)

/-- A number after a separator, blanks on either side of the separator left out. -/
def numberAfter? (separator : Char) (cs : List Char) : Option (Nat × List Char) := do
  let cs ← after? separator (Text.skipBlanks cs)
  number? 2 cs

/-- A day: year, month and day, with hyphens between. -/
def date? (cs : List Char) : Option (Date × List Char) := do
  let (year, cs) ← year? cs
  let (month, cs) ← numberAfter? '-' cs
  let (day, cs) ← numberAfter? '-' cs
  let date ← Date.of? year month day
  return (date, cs)

/-- The places of the second, as nanoseconds; places past the ninth are dropped. -/
def nanos? : List Char → Option (Nat × List Char)
  | '.' :: cs => do
    let ds := (cs.take 9).takeWhile Char.isDigit
    let (n, rest) ← Digits.read? 9 cs
    return (n * Nat.pow 10 (9 - ds.length), rest.dropWhile Char.isDigit)
  | cs => some (0, cs)

/-- A time of day: hour, minute and second, with colons between, and places of the second. -/
def time? (cs : List Char) : Option (TimeOfDay × List Char) := do
  let (hour, cs) ← number? 2 cs
  let (minute, cs) ← numberAfter? ':' cs
  let (second, cs) ← numberAfter? ':' cs
  let (nanos, cs) ← nanos? cs
  let time ← TimeOfDay.of? hour minute second nanos
  return (time, cs)

/-- Hours and minutes of an offset, two digits each; colons and blanks may stand between. -/
def offsetMinutes? : List Char → Option (Nat × List Char)
  | h :: h' :: cs =>
    match cs.dropWhile (fun c => c = ':' || Text.isBlank c) with
    | m :: m' :: rest =>
      if h.isDigit && h'.isDigit && m.isDigit && m'.isDigit && Digits.value [m, m'] < 60 then
        some (Digits.value [h, h'] * 60 + Digits.value [m, m'], rest)
      else none
    | _ => none
  | _ => none

/-- An offset from UTC in minutes: `Z`, `UTC`, or a sign, hours and minutes, less than a day. The
    minus sign may be the hyphen or U+2212. -/
def offset? (cs : List Char) : Option (Int × List Char) :=
  match cs with
  | c :: rest =>
    if c = 'Z' || c = 'z' then some (0, rest)
    else if (cs.take 3).map Char.toUpper = ['U', 'T', 'C'] then some (0, cs.drop 3)
    else if c = '+' then (offsetMinutes? rest).bind fun (m, rest) =>
      if m < 1440 then some ((m : Int), rest) else none
    else if c = '-' || c = '\u2212' then (offsetMinutes? rest).bind fun (m, rest) =>
      if m < 1440 then some (-(m : Int), rest) else none
    else none
  | [] => none

/-- The years that timestamps are read in. -/
def inRange (d : Date) : Bool := -262143 ≤ d.year && d.year ≤ 262142

/-- Reads an instant: a day, `T` or a blank, a time of day and an offset, and nothing more. -/
def ofChars? (cs : List Char) : Option Timestamp := do
  let (date, cs) ← date? cs
  let cs ← match cs with
    | c :: rest => if c = 'T' || c = 't' || c = ' ' then some rest else none
    | [] => none
  let (time, cs) ← time? cs
  let (offset, cs) ← offset? (Text.skipBlanks cs)
  let t := ofLocal ⟨date, time⟩ offset
  if (Text.skipBlanks cs).isEmpty && inRange date && inRange t.date then some t else none

/-- Reads an instant from a text. -/
def ofText? (s : String) : Option Timestamp := ofChars? s.toList

end ContextBroker.Timestamp
