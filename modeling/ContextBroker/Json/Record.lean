import ContextBroker.Json.Form

set_option autoImplicit false

/-! # Records

A record has named fields in a certain order. It is written as an object. It is read from an object,
in whatever order the members stand there, or from an array of the values in the order of the
fields. Members that are no fields are skipped. -/

namespace ContextBroker.Json

/-- A field of a record. -/
structure Field where
  name : String
  Value : Type
  form : Form Value
  /-- The value of a field that is left out; `none` when it must not be. -/
  absent : Option Value := none
  /-- Whether a value is left out when it is written. -/
  hidden : Value → Bool := fun _ => false

/-- The values of a record's fields. -/
def Record : List Field → Type
  | [] => Unit
  | f :: fs => f.Value × Record fs

/-- The values of those fields that were read. -/
def Slots : List Field → Type
  | [] => Unit
  | f :: fs => Option f.Value × Slots fs

namespace Slots

/-- No field was read. -/
def empty : (fs : List Field) → Slots fs
  | [] => ()
  | _ :: fs => (none, empty fs)

/-- Reads a member. A field must not be read twice, whatever its value. -/
def put : (fs : List Field) → Slots fs → String → Tree → Except ReadError (Slots fs)
  | [], slots, _, t => if t.isWhole then .ok slots else .error .malformed
  | f :: fs, (slot, slots), key, t =>
    if key = f.name then
      match slot with
      | some _ => .error (.duplicate f.name)
      | none => (f.form.read t).map fun v => (some v, slots)
    else (put fs slots key t).map fun slots => (slot, slots)

/-- Reads members in the order they stand. -/
def putAll (fs : List Field) : Slots fs → List Member → Except ReadError (Slots fs)
  | slots, [] => .ok slots
  | _, (none, _) :: _ => .error .malformed
  | slots, (some key, t) :: members =>
    match put fs slots key t with
    | .error e => .error e
    | .ok slots => putAll fs slots members

/-- The record, with the fields that were left out filled in. -/
def complete : (fs : List Field) → Slots fs → Except ReadError (Record fs)
  | [], _ => .ok ()
  | f :: fs, (slot, slots) =>
    match slot <|> f.absent with
    | none => .error (.missing f.name)
    | some v => (complete fs slots).map fun r => (v, r)

end Slots

namespace Record

/-- The members of a record, in the order of its fields. -/
def members : (fs : List Field) → Record fs → List Member
  | [], _ => []
  | f :: fs, (v, r) =>
    if f.hidden v then members fs r else (some f.name, f.form.write v) :: members fs r

/-- Reads the values of an array one by one. Fields at the end may be left out; nothing may follow
    the last. -/
def ofItems : (fs : List Field) → List Tree → (closed : Bool) → Except ReadError (Record fs)
  | [], items, closed => if items.isEmpty && closed then .ok () else .error .malformed
  | f :: fs, t :: ts, closed =>
    match f.form.read t with
    | .error e => .error e
    | .ok v => (ofItems fs ts closed).map fun r => (v, r)
  | f :: fs, [], closed =>
    if closed then
      match f.absent with
      | none => .error .mistyped
      | some v => (ofItems fs [] closed).map fun r => (v, r)
    else .error .malformed

/-- Records with the given fields. -/
def form (fs : List Field) : Form (Record fs) where
  write r := .object (members fs r) true
  read
    | .object ms closed =>
      match Slots.putAll fs (.empty fs) ms with
      | .error e => .error e
      | .ok slots => if closed then slots.complete fs else .error .malformed
    | .array items closed => ofItems fs items closed
    | t => .error t.refusal

end Record

end ContextBroker.Json
