import ContextBroker.Config
import ContextBroker.Yaml.Document

set_option autoImplicit false

/-! # Settings from files

Settings are read from a YAML mapping. Keys that are no settings do not count. A file that is named
must hold settings; of the files that are only looked for, those that hold none are passed over. -/

namespace ContextBroker

open Yaml

/-! ## Values -/

namespace Config

/-- The value of the digits of a number with a base; `none` if there is another character, or no
    digit at all. -/
def digitsValue? (base : Nat) (cs : List Char) : Option Nat :=
  let digit (c : Char) : Option Nat := (Scalar.hexValue? c).filter (· < base)
  if cs.isEmpty then none else cs.foldlM (fun n c => (digit c).map (n * base + ·)) 0

/-- Whether a text is a zero followed by further digits, which makes it no number. -/
def isZeroPadded : List Char → Bool
  | '0' :: c :: cs => (c :: cs).all Char.isDigit
  | _ => false

/-- A number without a sign, in decimal or with `0x`, `0o` or `0b` in front. -/
def unsigned? (cs : List Char) : Option Nat :=
  match cs with
  | '0' :: 'x' :: ds => digitsValue? 16 ds
  | '0' :: 'o' :: ds => digitsValue? 8 ds
  | '0' :: 'b' :: ds => digitsValue? 2 ds
  | ds => if isZeroPadded ds then none else digitsValue? 10 ds

/-- A natural number of 64 bits, with or without a plus. -/
def word? (cs : List Char) : Option UInt64 :=
  let n? := match cs with
    | '+' :: ds => unsigned? ds
    | ds => unsigned? ds
  (n?.filter (· < UInt64.size)).map UInt64.ofNat

/-- The tag of whole numbers. -/
def integerTag : String := "tag:yaml.org,2002:int"

/-- A scalar, which may be given by an alias. -/
def scalar? (root : Node) : Node → Option (Properties × Text)
  | .scalar p text => some (p, text)
  | .alias n =>
    match root.find? n with
    | some (.scalar p text) => some (p, text)
    | _ => none
  | _ => none

/-- A setting that is a text: any scalar. -/
def textOf? (root n : Node) : Option String := (scalar? root n).map (·.2.content)

/-- A setting that is a number: a plain scalar, whatever its tag, or a literal block with the tag of
    whole numbers. -/
def wordOf? (root n : Node) : Option UInt64 := do
  let (p, text) ← scalar? root n
  let isNumber := text.style = .plain || (text.style = .literal && p.tag = some integerTag)
  if isNumber then word? text.content.toList else none

/-- The value of a setting, or `absent` if it is not there; a setting must not be there twice. -/
def setting? {α : Type} (entries : List (String × Node)) (name : String) (absent : α)
    (read : Node → Option α) : Option α :=
  match entries.filter fun e => e.1 = name with
  | [] => some absent
  | [(_, n)] => read n
  | _ => none

/-- The settings that a document gives. A document in which nothing stands leaves all of them to
    their defaults. -/
def ofNode? : Option Node → Option Config
  | none => some {}
  | some root =>
    match root with
    | .scalar _ ⟨"", .plain⟩ => some {}
    | .mapping _ entries => do
      let entries ← entries.mapM fun (k, v) => return (← textOf? root k, v)
      let absent : Config := {}
      return {
        endpoint := ← setting? entries "default-endpoint-id" absent.endpoint (textOf? root)
        timeout := ← setting? entries "default-timeout-ms" absent.timeout (wordOf? root) }
    | _ => none

/-! ## Files -/

/-- What is found where a file is looked for. -/
inductive Found
  | nothing
  | directory
  | file (bytes : ByteArray)
  deriving Inhabited

/-- Why a file gives no settings. -/
inductive LoadError
  /-- There is no file, or it holds no text. -/
  | unreadable
  /-- The text gives no settings. -/
  | unparsable
  /-- The default endpoint is empty, so that nothing could be reached through it. -/
  | emptyEndpoint
  deriving DecidableEq, Inhabited

/-- The text of an error. -/
def LoadError.message : LoadError → String
  | unreadable => "Failed to read config file"
  | unparsable => "Failed to parse config file"
  | emptyEndpoint => "default-endpoint-id must not be empty"

/-- What an error at a path is told with, outermost first. -/
def LoadError.messages (path : String) (e : LoadError) : List String :=
  ["Failed to load config from " ++ path, e.message]

/-- The settings that a text gives. -/
def ofText (s : String) : Except LoadError Config :=
  match (document? s.toList).bind ofNode? with
  | none => .error .unparsable
  | some c => if c.endpoint.isEmpty then .error .emptyEndpoint else .ok c

/-- The settings in a file. -/
def load : Found → Except LoadError Config
  | .file bytes =>
    match String.fromUTF8? bytes with
    | some s => ofText s
    | none => .error .unreadable
  | .nothing | .directory => .error .unreadable

/-- The settings of the first place that gives any; the defaults if none does. -/
def search (places : List Found) : Config :=
  (places.findSome? fun found => (load found).toOption).getD {}

/-! ## The timeout -/

/-- The whole seconds of the timeout. -/
def timeoutSeconds (c : Config) : Nat := c.timeout.toNat / 1000

/-- The milliseconds of the timeout beyond its whole seconds. -/
def timeoutMillis (c : Config) : Nat := c.timeout.toNat % 1000

end Config

end ContextBroker
