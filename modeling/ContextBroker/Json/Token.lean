import ContextBroker.Json.Number
import ContextBroker.Json.Quoted

set_option autoImplicit false

/-! # Tokens

A text is read token by token. Between tokens blanks, tabs and line ends may stand. What is no token
ends the list of tokens with `bad`. -/

namespace ContextBroker.Json

/-- The smallest part of a text with a meaning of its own. -/
inductive Token
  | openObject
  | closeObject
  | openArray
  | closeArray
  | colon
  | comma
  | null
  | bool (value : Bool)
  | number (value : Number)
  /-- A quoted text; `none` when it is no text. -/
  | string (text : Option String)
  /-- No token; the text is read no further. -/
  | bad
  deriving DecidableEq, Inhabited

namespace Token

/-- Whether a character may stand between tokens. -/
def isSpace (c : Char) : Bool := c = ' ' || c = '\t' || c = '\n' || c = '\r'

/-- The token that starts with `c`, and what follows it. -/
def scan (c : Char) (cs : List Char) : Token × List Char :=
  match c, cs with
  | '{', _ => (.openObject, cs)
  | '}', _ => (.closeObject, cs)
  | '[', _ => (.openArray, cs)
  | ']', _ => (.closeArray, cs)
  | ':', _ => (.colon, cs)
  | ',', _ => (.comma, cs)
  | 'n', 'u' :: 'l' :: 'l' :: rest => (.null, rest)
  | 't', 'r' :: 'u' :: 'e' :: rest => (.bool true, rest)
  | 'f', 'a' :: 'l' :: 's' :: 'e' :: rest => (.bool false, rest)
  | '"', _ =>
    match Quoted.scan? cs with
    | some (pieces, rest) => (.string ((Quoted.join? pieces).map String.ofList), rest)
    | none => (.bad, [])
  | _, _ =>
    match Number.scan? (c :: cs) with
    | some (n, rest) => (.number n, rest)
    | none => (.bad, [])

theorem length_scan_le (c : Char) (cs : List Char) : (scan c cs).2.length ≤ cs.length := by
  unfold scan
  split
  all_goals try (simp; done)
  all_goals try (simp; omega)
  · split
    · rename_i h
      exact Nat.le_of_lt (Quoted.length_scan?_lt h)
    · simp
  · split
    · rename_i h
      exact Nat.le_of_lt_succ (Number.length_scan?_lt h)
    · simp

/-- The first token, and what follows it; `none` at the end of the text. -/
def next? : List Char → Option (Token × List Char)
  | [] => none
  | c :: cs => if isSpace c then next? cs else some (scan c cs)

theorem length_next?_lt {cs rest : List Char} {t : Token} (h : next? cs = some (t, rest)) :
    rest.length < cs.length := by
  induction cs with
  | nil => simp [next?] at h
  | cons c cs ih =>
    unfold next? at h
    split at h
    · have := ih h
      simp
      omega
    · have := length_scan_le c cs
      rw [Option.some.inj h] at this
      exact Nat.lt_succ_of_le this

end Token

/-- The tokens of a text. -/
def tokens (cs : List Char) : List Token :=
  match _h : Token.next? cs with
  | none => []
  | some (t, rest) => t :: tokens rest
termination_by cs.length
decreasing_by exact Token.length_next?_lt _h

end ContextBroker.Json
