import ContextBroker.Yaml.Scalar
import ContextBroker.Text.Digits

set_option autoImplicit false

/-! # Tokens

The smallest parts of a YAML text. Where a block collection starts and ends is told by indentation
alone, but it has tokens of its own, as if it were in brackets. -/

namespace ContextBroker.Yaml

/-- A collection of values. -/
inductive Collection
  | blockSequence
  | blockMapping
  | flowSequence
  | flowMapping
  deriving DecidableEq, Inhabited

namespace Collection

/-- Whether a collection is written in brackets. -/
def isFlow : Collection → Bool
  | flowSequence | flowMapping => true
  | blockSequence | blockMapping => false

end Collection

/-- What separates the values of a collection. -/
inductive Mark
  /-- A hyphen. -/
  | entry
  /-- A question mark, or the place where a key turned out to start. -/
  | key
  /-- A colon. -/
  | value
  | comma
  deriving DecidableEq, Inhabited

/-- A tag as it was written. -/
structure TagName where
  /-- The handle, with its exclamation marks; empty for a tag that is written in full. -/
  handle : String
  suffix : String
  deriving DecidableEq, Inhabited

/-- How a scalar is written. -/
inductive Style
  /-- Without quotation marks, and not as a block. -/
  | plain
  | quoted
  /-- As a block whose line ends are kept. -/
  | literal
  /-- As a block whose line ends are folded. -/
  | folded
  deriving DecidableEq, Inhabited

/-- A scalar as it was written. -/
structure Text where
  content : String
  style : Style
  deriving DecidableEq, Inhabited

/-- The smallest part of a text with a meaning of its own. -/
inductive Token
  | version (major minor : Nat)
  | tagHandle (handle replacement : String)
  | documentStart
  | documentEnd
  | opening (collection : Collection)
  | closing (flow : Option Collection)
  | mark (mark : Mark)
  | alias (name : String)
  | anchor (name : String)
  | tag (name : TagName)
  | scalar (text : Text)
  deriving DecidableEq, Inhabited

namespace Token

/-! ## Names -/

/-- The characters of names. -/
def isNameChar (c : Char) : Bool := c.isAlphanum || c = '_' || c = '-'

/-- The characters that may follow the name of an anchor, gaps apart. -/
def mayFollowName (c : Char) : Bool := "?:,]\x7d%@\x60".toList.contains c

/-- Reads the name of an anchor. -/
def name? (s : Source) : Option (String × Source) :=
  let (cs, rest) := Source.spanChars isNameChar s
  if cs.isEmpty then none
  else if Source.atGap rest || (rest.head?.any fun p => mayFollowName p.char) then
    some (String.ofList cs, rest)
  else none

/-! ## Tags -/

/-- The characters of tags. Some may stand only between angle brackets or in a directive. -/
def isTagChar (bracketed : Bool) (c : Char) : Bool :=
  isNameChar c || ";/?:@&=+$.%!~*'()".toList.contains c || (bracketed && ",[]".toList.contains c)

/-- How many octets follow the first one of a character; `none` for an octet that comes first in
    none. -/
def followers? (octet : Nat) : Option Nat :=
  if octet < 0x80 then some 0
  else if octet < 0xC0 then none
  else if octet < 0xE0 then some 1
  else if octet < 0xF0 then some 2
  else if octet < 0xF8 then some 3
  else none

/-- How many octets are still to come after one that comes when `left` were; `none` if it may not
    come there. -/
def octetsLeft? (left octet : Nat) : Option Nat :=
  if left = 0 then followers? octet
  else if 0x80 ≤ octet ∧ octet < 0xC0 then some (left - 1)
  else none

/-- The characters of a tag. A percent sign and two digits stand for an octet, which is kept as a
    character of its own; `left` more octets must come to make up a character. -/
def tagChars? (bracketed : Bool) : (left : Nat) → Source → Option (List Char × Source)
  | left, [] => if left = 0 then some ([], []) else none
  | left, p :: s =>
    if p.char = '%' then
      match s with
      | a :: b :: rest =>
        match Scalar.hexValue? a.char, Scalar.hexValue? b.char with
        | some x, some y =>
          match octetsLeft? left (x * 16 + y) with
          | some left =>
            (tagChars? bracketed left rest).map fun (cs, rest) =>
              (Char.ofNat (x * 16 + y) :: cs, rest)
          | none => none
        | _, _ => none
      | _ => none
    else if left ≠ 0 then none
    else if isTagChar bracketed p.char then
      (tagChars? bracketed 0 s).map fun (cs, rest) => (p.char :: cs, rest)
    else some ([], p :: s)

/-- The text of a tag's characters, which an octet of zero ends. -/
def tagText (cs : List Char) : String := String.ofList (cs.takeWhile (· ≠ '\x00'))

/-- A handle after its first exclamation mark: a name, and mostly a second exclamation mark. -/
def handle (s : Source) : List Char × Bool × Source :=
  let (cs, rest) := Source.spanChars isNameChar s
  if Source.startsWith '!' rest then (cs, true, rest.tail) else (cs, false, rest)

/-- The handle of tags that are not named in full. -/
def primaryHandle : String := "!"

/-- Reads a tag after its first exclamation mark. -/
def tag? (flow : Bool) (s : Source) : Option (TagName × Source) := do
  let (name, rest) ←
    if Source.startsWith '<' s then do
      let (cs, rest) ← tagChars? true 0 s.tail
      if cs.isEmpty || !Source.startsWith '>' rest then none
      else some (TagName.mk "" (tagText cs), rest.tail)
    else
      let (cs, closed, rest) := handle s
      if closed then do
        let (suffix, rest) ← tagChars? false 0 rest
        if suffix.isEmpty then none
        else some (TagName.mk (String.ofList ('!' :: cs ++ ['!'])) (tagText suffix), rest)
      else do
        let (more, rest) ← tagChars? false 0 rest
        let suffix := tagText (cs ++ more)
        if suffix.isEmpty then some (TagName.mk "" primaryHandle, rest)
        else some (TagName.mk primaryHandle suffix, rest)
  if Source.atGap rest || (flow && Source.startsWith ',' rest) then some (name, rest) else none

/-! ## Directives -/

/-- A number of at most nine digits. -/
def versionNumber? (s : Source) : Option (Nat × Source) :=
  let (ds, rest) := Source.spanChars Char.isDigit s
  if ds.isEmpty || 9 < ds.length then none else some (Digits.value ds, rest)

/-- Reads a directive after its percent sign. -/
def directive? (s : Source) : Option (Token × Source) := do
  let (name, s) := Source.spanChars isNameChar s
  if !Source.atGap s then none
  else
    let s := (Source.skipBlanks s)
    let (token, s) ←
      if name = "YAML".toList then do
        let (major, s) ← versionNumber? s
        if !Source.startsWith '.' s then none
        else
          let (minor, s) ← versionNumber? s.tail
          some (Token.version major minor, s)
      else if name = "TAG".toList then do
        if !Source.startsWith '!' s then none
        else
          let (cs, closed, s) := handle s.tail
          let handle := '!' :: cs ++ if closed then ['!'] else []
          if (!closed && !cs.isEmpty) || Source.atLineEnd s || !Source.atGap s then none
          else
            let (replacement, s) ← tagChars? true 0 (Source.skipBlanks s)
            if replacement.isEmpty || !Source.atGap s then none
            else some (Token.tagHandle (String.ofList handle) (tagText replacement), s)
      else none
    let s ← Source.skipLine? s
    return (token, s)

end Token

end ContextBroker.Yaml
