import ContextBroker.Json.Tree

set_option autoImplicit false

/-! # Forms

A `Form` says how the values of a type are written and read. What is wrong first, from left to
right, is what reading reports. -/

namespace ContextBroker.Json

/-- Why a text is not read. -/
inductive ReadError
  /-- It is not spelled as JSON has it. -/
  | malformed
  /-- A value is not of the type that is read, or not in its range. -/
  | mistyped
  | missing (field : String)
  | duplicate (field : String)
  | unknownVariant (variant : String) (known : List String)
  deriving DecidableEq, Inhabited

namespace ReadError

/-- Whether the text is well formed up to where it is found wrong. -/
def isAboutData : ReadError → Bool
  | malformed => false
  | _ => true

/-- A name between backticks. -/
def ticked (name : String) : String := "\x60" ++ name ++ "\x60"

/-- The text of an error that names what it is about. -/
def message? : ReadError → Option String
  | malformed | mistyped => none
  | missing field => some ("missing field " ++ ticked field)
  | duplicate field => some ("duplicate field " ++ ticked field)
  | unknownVariant variant known =>
    some ("unknown variant " ++ ticked variant ++ ", expected one of " ++
      String.intercalate ", " (known.map ticked))

end ReadError

/-- What is wrong with a value where another type of value should stand. A value is looked at only
    as far as its first token. -/
def Tree.refusal : Tree → ReadError
  | .broken | .string none => .malformed
  | .number n => if n.isFinite then .mistyped else .malformed
  | _ => .mistyped

/-- How the values of a type are written and read. -/
structure Form (α : Type) where
  write : α → Tree
  read : Tree → Except ReadError α

namespace Form

variable {α β : Type}

/-- A form whose values stand for others; a value that stands for none is mistyped. -/
def refine (f : Form α) (meant : α → Option β) (back : β → α) : Form β where
  write b := f.write (back b)
  read t :=
    match f.read t with
    | .error e => .error e
    | .ok a => (meant a).elim (.error .mistyped) .ok

/-- Texts. -/
def text : Form String where
  write s := .string (some s)
  read
    | .string (some s) => .ok s
    | t => .error t.refusal

/-- Natural numbers, written with digits only. Digits whose value is beyond 64 bits are read as a
    floating point number, which is no natural number and may even be too large for one. -/
def natural : Form Nat where
  write := .natural
  read
    | .number n =>
      match n.natural?.filter (· ≤ Number.largestWord) with
      | some v => .ok v
      | none => .error (Tree.number n).refusal
    | t => .error t.refusal

/-- Values that may be `null`. -/
def optional (f : Form α) : Form (Option α) where
  write
    | none => .null
    | some a => f.write a
  read
    | .null => .ok none
    | t => (f.read t).map some

/-- One of a few values, each with a name. It may be read from its name, or from an object whose
    only member has that name and the value `null`. -/
def variant (name : α → String) (all : List α) : Form α where
  write a := .string (some (name a))
  read t :=
    let named (s : String) : Except ReadError α :=
      (all.find? fun a => name a = s).elim (.error (.unknownVariant s (all.map name))) .ok
    match t with
    | .string (some s) => named s
    | .object ((some key, value) :: rest) closed =>
      match named key with
      | .error e => .error e
      | .ok a =>
        match value with
        | .null => if rest.isEmpty && closed then .ok a else .error .malformed
        | value => .error value.refusal
    | _ => .error .malformed

/-- The written form of a value. -/
def chars (f : Form α) (a : α) : List Char := (f.write a).chars

/-- Reads a text, which must end with the value. -/
def ofChars (f : Form α) (cs : List Char) : Except ReadError α :=
  let d := Document.ofChars cs
  match f.read d.root with
  | .error e => .error e
  | .ok a => if d.whole then .ok a else .error .malformed

/-- The written form of a value. -/
def toText (f : Form α) (a : α) : String := String.ofList (f.chars a)

/-- Reads a text, which must end with the value. -/
def ofText (f : Form α) (s : String) : Except ReadError α := f.ofChars s.toList

end Form

end ContextBroker.Json
