set_option autoImplicit false

/-! # Decimal digits

Numbers written in a field of a given width, and digits taken from the front of a text. -/

namespace ContextBroker.Digits

/-- `n` in decimal, with zeros in front up to `width` digits. -/
def padded (width n : Nat) : List Char :=
  let ds := Nat.toDigits 10 n
  List.replicate (width - ds.length) '0' ++ ds

/-- The value of a run of decimal digits. -/
def value (ds : List Char) : Nat := Nat.ofDigitChars 10 ds 0

/-- The value of at least one and at most `most` digits in front of a text, and what follows. -/
def read? (most : Nat) (cs : List Char) : Option (Nat × List Char) :=
  match (cs.take most).takeWhile Char.isDigit with
  | [] => none
  | d :: ds => some (value (d :: ds), cs.drop (d :: ds).length)

theorem value_padded (width n : Nat) : value (padded width n) = n := by
  simp [value, padded, Nat.ofDigitChars_append]

end ContextBroker.Digits
