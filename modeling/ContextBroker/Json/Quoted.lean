set_option autoImplicit false

/-! # Quoted text

Text between quotation marks. Writing escapes what must be: the quotation mark, the backslash and
the control characters below U+0020. Reading takes every escape. An escape may name half of a
character beyond U+FFFF; text in which a half stands without the other is well formed, but it is no
text (`join?`). -/

namespace ContextBroker.Json.Quoted

/-! ## Writing -/

/-- The digit of a value below 16. -/
def hexDigit (n : Nat) : Char := Nat.digitChar n

/-- A character as it is written. -/
def encodeChar (c : Char) : List Char :=
  match c with
  | '"' => ['\\', '"']
  | '\\' => ['\\', '\\']
  | '\x08' => ['\\', 'b']
  | '\t' => ['\\', 't']
  | '\n' => ['\\', 'n']
  | '\x0c' => ['\\', 'f']
  | '\r' => ['\\', 'r']
  | c =>
    if c.toNat < 0x20 then
      ['\\', 'u', '0', '0', hexDigit (c.toNat / 16), hexDigit (c.toNat % 16)]
    else [c]

/-- A text as it is written, without the quotation marks. -/
def encode (cs : List Char) : List Char := cs.flatMap encodeChar

/-! ## Reading -/

/-- What stands at one place of a quoted text. -/
inductive Piece
  | char (c : Char)
  /-- Half of a character: a surrogate code unit. -/
  | half (unit : Nat)
  deriving DecidableEq, Inhabited

/-- What a code unit stands for. -/
def Piece.ofUnit (unit : Nat) : Piece :=
  if 0xD800 ≤ unit ∧ unit < 0xE000 then .half unit else .char (Char.ofNat unit)

/-- The value of a hexadecimal digit. -/
def hexValue? (c : Char) : Option Nat :=
  if '0' ≤ c ∧ c ≤ '9' then some (c.toNat - '0'.toNat)
  else if 'a' ≤ c ∧ c ≤ 'f' then some (c.toNat - 'a'.toNat + 10)
  else if 'A' ≤ c ∧ c ≤ 'F' then some (c.toNat - 'A'.toNat + 10)
  else none

/-- The code unit of four hexadecimal digits. -/
def unit? (a b c d : Char) : Option Nat := do
  return ((← hexValue? a) * 16 + (← hexValue? b)) * 256 + (← hexValue? c) * 16 + (← hexValue? d)

/-- The character that a letter after a backslash stands for. -/
def escaped? : Char → Option Char
  | '"' => some '"'
  | '\\' => some '\\'
  | '/' => some '/'
  | 'b' => some '\x08'
  | 'f' => some '\x0c'
  | 'n' => some '\n'
  | 'r' => some '\r'
  | 't' => some '\t'
  | _ => none

/-- Reads up to the closing quotation mark; also gives what follows it. `none` when there is no
    closing mark, or an escape or a control character that may not stand there. -/
def scan? : List Char → Option (List Piece × List Char)
  | [] => none
  | '"' :: rest => some ([], rest)
  | '\\' :: 'u' :: a :: b :: c :: d :: rest => do
    let unit ← unit? a b c d
    let (pieces, rest) ← scan? rest
    return (.ofUnit unit :: pieces, rest)
  | '\\' :: letter :: rest => do
    let c ← escaped? letter
    let (pieces, rest) ← scan? rest
    return (.char c :: pieces, rest)
  | c :: rest =>
    if c.toNat < 0x20 ∨ c = '\\' then none
    else do
      let (pieces, rest) ← scan? rest
      return (.char c :: pieces, rest)

/-- The text that the pieces make up; `none` when half of a character stands alone. -/
def join? : List Piece → Option (List Char)
  | [] => some []
  | .char c :: rest => (join? rest).map (c :: ·)
  | .half high :: .half low :: rest =>
    if high < 0xDC00 ∧ 0xDC00 ≤ low then
      (join? rest).map (Char.ofNat (0x10000 + (high - 0xD800) * 0x400 + (low - 0xDC00)) :: ·)
    else none
  | .half _ :: _ => none

/-- What is left to read after the closing mark is shorter. -/
theorem length_scan?_lt {cs rest : List Char} {pieces : List Piece}
    (h : scan? cs = some (pieces, rest)) : rest.length < cs.length := by
  fun_induction scan? cs generalizing pieces rest with
  | case1 => simp at h
  | case2 => simp_all
  | case3 a b c d rest' ih =>
    simp only [Option.bind_eq_bind, Option.bind_eq_some_iff, Option.pure_def, Option.some.injEq,
      Prod.mk.injEq, Prod.exists] at h
    obtain ⟨_, _, _, _, hs, _, rfl⟩ := h
    have := ih hs
    simp
    omega
  | case4 letter rest' _ ih =>
    simp only [Option.bind_eq_bind, Option.bind_eq_some_iff, Option.pure_def, Option.some.injEq,
      Prod.mk.injEq, Prod.exists] at h
    obtain ⟨_, _, _, _, hs, _, rfl⟩ := h
    have := ih hs
    simp
    omega
  | case5 => simp at h
  | case6 c rest' _ _ _ _ ih =>
    simp only [Option.bind_eq_bind, Option.bind_eq_some_iff, Option.pure_def, Option.some.injEq,
      Prod.mk.injEq, Prod.exists] at h
    obtain ⟨_, _, hs, _, rfl⟩ := h
    have := ih hs
    simp
    omega

end ContextBroker.Json.Quoted
