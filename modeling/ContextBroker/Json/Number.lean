import ContextBroker.Text.Digits

set_option autoImplicit false

/-! # Numbers

A number is kept digit by digit, as it was spelled. Whether it is too large for a binary floating
point number of 64 bits is decided without rounding errors, from a significand of at most 64 bits
and a power of ten. -/

namespace ContextBroker.Json

/-- A number as it was spelled. -/
structure Number where
  negative : Bool := false
  /-- The digits before the point. -/
  whole : List Char
  /-- The digits after the point, when there is one. -/
  fraction : Option (List Char) := none
  exponent : Option Int := none
  deriving DecidableEq, Inhabited

namespace Number

/-- A natural number in decimal. -/
def ofNat (n : Nat) : Number := { whole := Nat.toDigits 10 n }

/-- The number, if it is spelled as a natural number: digits only. -/
def natural? (n : Number) : Option Nat :=
  if n.negative || n.fraction.isSome || n.exponent.isSome then none
  else some (Digits.value n.whole)

/-! ## Size -/

/-- The largest value of 64 bits. -/
def largestWord : Nat := 18446744073709551615

/-- Puts digits after the number `n` as long as it stays within 64 bits. Also tells how many digits
    were left over. -/
def accumulate : Nat → List Char → Nat × Nat
  | n, [] => (n, 0)
  | n, d :: ds =>
    let m := n * 10 + (d.toNat - '0'.toNat)
    if m ≤ largestWord then accumulate m ds else (n, (d :: ds).length)

/-- The significand, and the power of ten it counts. Digits past its 64 bits are dropped. -/
def scaled (n : Number) : Nat × Int :=
  let (m, left) := accumulate 0 n.whole
  let ds := n.fraction.getD []
  let (m, left') := accumulate m ds
  (m, (left : Int) - ((ds.length - left' : Nat) : Int) + n.exponent.getD 0)

/-- `n` rounded to 53 significant bits, a half to the even neighbour. -/
def round53 (n : Nat) : Nat :=
  let shift := n.log2 + 1 - 53
  let unit := 1 <<< shift
  let low := n / unit
  let rest := n % unit
  let up := unit < 2 * rest ∨ (unit = 2 * rest ∧ low % 2 = 1)
  (if up then low + 1 else low) * unit

/-- The least number that rounds to infinity. -/
def infinityBound : Nat := 1 <<< 1024 - 1 <<< 970

/-- Whether the number fits a floating point number of 64 bits. A power of ten above the 308th is
    taken to be too large at once. -/
def isFinite (n : Number) : Bool :=
  let (m, power) := n.scaled
  if m = 0 ∨ power < 0 then true
  else power ≤ 308 && round53 m * round53 (Nat.pow 10 power.toNat) < infinityBound

/-! ## Spelling -/

/-- A run of at least one digit, and what follows it. -/
def digits? (cs : List Char) : Option (List Char × List Char) :=
  match cs.takeWhile Char.isDigit with
  | [] => none
  | d :: ds => some (d :: ds, cs.dropWhile Char.isDigit)

/-- A minus sign or none, and what follows it. -/
def sign : List Char → Bool × List Char
  | '-' :: cs => (true, cs)
  | cs => (false, cs)

/-- The digits after a point, if there is one. -/
def fraction? : List Char → Option (Option (List Char) × List Char)
  | '.' :: cs => (digits? cs).map fun (ds, rest) => (some ds, rest)
  | cs => some (none, cs)

/-- The sign of an exponent, which may be a plus, and what follows it. -/
def exponentSign : List Char → Bool × List Char
  | '+' :: cs => (false, cs)
  | cs => sign cs

/-- The exponent, if there is one. -/
def exponent? : List Char → Option (Option Int × List Char)
  | c :: cs =>
    if c = 'e' ∨ c = 'E' then
      (digits? (exponentSign cs).2).map fun (ds, rest) =>
        let n : Int := Digits.value ds
        (some (if (exponentSign cs).1 then -n else n), rest)
    else some (none, c :: cs)
  | [] => some (none, [])

/-- Reads a number, and gives what follows it. No zero may stand before other digits. -/
def scan? (cs : List Char) : Option (Number × List Char) := do
  let (negative, cs) := sign cs
  let (whole, cs) ← digits? cs
  if whole.head? = some '0' ∧ whole.length ≠ 1 then none
  else
    let (fraction, cs) ← fraction? cs
    let (exponent, cs) ← exponent? cs
    return (⟨negative, whole, fraction, exponent⟩, cs)

/-! ### What is left to read -/

theorem length_sign_le (cs : List Char) : (sign cs).2.length ≤ cs.length := by
  unfold sign
  split <;> simp

theorem length_digits?_lt {cs ds rest : List Char} (h : digits? cs = some (ds, rest)) :
    rest.length < cs.length := by
  unfold digits? at h
  split at h
  · simp at h
  · rename_i d ds' hd
    simp only [Option.some.injEq, Prod.mk.injEq] at h
    obtain ⟨rfl, rfl⟩ := h
    have := congrArg List.length (List.takeWhile_append_dropWhile (p := Char.isDigit) (l := cs))
    rw [List.length_append, hd] at this
    simp at this ⊢
    omega

theorem length_fraction?_le {cs rest : List Char} {f : Option (List Char)}
    (h : fraction? cs = some (f, rest)) : rest.length ≤ cs.length := by
  unfold fraction? at h
  split at h
  · obtain ⟨⟨ds, rest'⟩, hd, he⟩ := Option.map_eq_some_iff.1 h
    simp only [Prod.mk.injEq] at he
    obtain ⟨rfl, rfl⟩ := he
    have := length_digits?_lt hd
    simp
    omega
  · simp_all

theorem length_exponentSign_le (cs : List Char) : (exponentSign cs).2.length ≤ cs.length := by
  unfold exponentSign
  split
  · simp
  · exact length_sign_le cs

theorem length_exponent?_le {cs rest : List Char} {e : Option Int}
    (h : exponent? cs = some (e, rest)) : rest.length ≤ cs.length := by
  unfold exponent? at h
  split at h
  · rename_i c cs
    split at h
    · obtain ⟨⟨ds, rest'⟩, hd, he⟩ := Option.map_eq_some_iff.1 h
      simp only [Prod.mk.injEq] at he
      obtain ⟨_, rfl⟩ := he
      have h1 := length_digits?_lt hd
      have h2 := length_exponentSign_le cs
      simp only [List.length_cons]
      omega
    · simp_all
  · simp_all

theorem length_scan?_lt {cs rest : List Char} {n : Number} (h : scan? cs = some (n, rest)) :
    rest.length < cs.length := by
  simp only [scan?, Option.bind_eq_bind, Option.bind_eq_some_iff, Prod.exists] at h
  obtain ⟨whole, cs', hd, h⟩ := h
  split at h
  · simp at h
  · simp only [Option.bind_eq_some_iff, Option.pure_def, Option.some.injEq, Prod.mk.injEq,
      Prod.exists] at h
    obtain ⟨f, cs₁, hf, e, cs₂, he, _, rfl⟩ := h
    have h0 := length_sign_le cs
    have h1 := length_digits?_lt hd
    have h2 := length_fraction?_le hf
    have h3 := length_exponent?_le he
    omega

end Number

end ContextBroker.Json
