import ContextBroker.Yaml.Source

set_option autoImplicit false

/-! # Scalars

A scalar is text in one of four styles: plain, in single or double quotation marks, or a block of
lines. Within a plain or quoted scalar lines are folded: a line end counts as a blank, and further
line ends count as themselves. -/

namespace ContextBroker.Yaml.Scalar

/-! ## Folding -/

/-- What stands between two words. -/
inductive Gap
  | none
  /-- Blanks, latest first. -/
  | blanks (cs : List Char)
  /-- A line end, unless it is escaped, and further line ends, latest first. -/
  | lines (first : Option Char) (more : List Char)
  deriving DecidableEq, Inhabited

namespace Gap

/-- One more blank. Blanks around line ends do not count. -/
def addBlank (c : Char) : Gap → Gap
  | none => blanks [c]
  | blanks cs => blanks (c :: cs)
  | lines first more => lines first more

/-- One more line end. -/
def addBreak (c : Char) : Gap → Gap
  | lines first more => lines first (c :: more)
  | _ => lines (some c) []

/-- Whether there is nothing. -/
def isNone : Gap → Bool
  | none => true
  | _ => false

/-- Whether there is a line end. -/
def hasBreak : Gap → Bool
  | lines .. => true
  | _ => false

/-- What the gap counts as, latest first. -/
def folded : Gap → List Char
  | none => []
  | blanks cs => cs
  | lines (some '\n') [] => [' ']
  | lines (some '\n') more => more
  | lines first more => more ++ first.toList

end Gap

/-! ## Quoted scalars -/

/-- The value of a hexadecimal digit. -/
def hexValue? (c : Char) : Option Nat :=
  if '0' ≤ c ∧ c ≤ '9' then some (c.toNat - '0'.toNat)
  else if 'a' ≤ c ∧ c ≤ 'f' then some (c.toNat - 'a'.toNat + 10)
  else if 'A' ≤ c ∧ c ≤ 'F' then some (c.toNat - 'A'.toNat + 10)
  else none

/-- What a character after a backslash stands for. -/
inductive Escape
  | char (c : Char)
  /-- A character by its number, in this many hexadecimal digits. -/
  | number (digits : Nat)
  deriving DecidableEq, Inhabited

/-- The escapes of double quoted scalars. -/
def escape? : Char → Option Escape
  | '0' => some (.char '\x00')
  | 'a' => some (.char '\x07')
  | 'b' => some (.char '\x08')
  | 't' | '\t' => some (.char '\t')
  | 'n' => some (.char '\n')
  | 'v' => some (.char '\x0b')
  | 'f' => some (.char '\x0c')
  | 'r' => some (.char '\r')
  | 'e' => some (.char '\x1b')
  | ' ' => some (.char ' ')
  | '"' => some (.char '"')
  | '/' => some (.char '/')
  | '\\' => some (.char '\\')
  | 'N' => some (.char '\x85')
  | '_' => some (.char '\xa0')
  | 'L' => some (.char '\u2028')
  | 'P' => some (.char '\u2029')
  | 'x' => some (.number 2)
  | 'u' => some (.number 4)
  | 'U' => some (.number 8)
  | _ => none

/-- The character of a number, unless it is half of one or too large. -/
def charOf? (n : Nat) : Option Char :=
  if n.isValidChar then some (Char.ofNat n) else none

/-- How far an escape is read. -/
inductive Mode
  | text
  | backslash
  /-- So many digits of a number are still to come. -/
  | number (left value : Nat)
  /-- A single quotation mark, which a second one would make part of the text. -/
  | mark
  deriving DecidableEq, Inhabited

/-- Reads a quoted scalar after its opening mark; `done` is what was read, latest first. Gives the
    text and what follows the closing mark. -/
def quoted? (single : Bool) : Mode → (done : List Char) → Gap → Source → Option (String × Source)
  | .mark, done, _, [] => some (String.ofList done.reverse, [])
  | _, _, _, [] => none
  | .backslash, done, gap, p :: s =>
    if isBreak p.char then quoted? single .text done (.lines none []) s
    else
      match escape? p.char with
      | some (.char c) => quoted? single .text (c :: done) gap s
      | some (.number n) => quoted? single (.number n 0) done gap s
      | none => none
  | .number left value, done, gap, p :: s =>
    match hexValue? p.char with
    | none => none
    | some v =>
      let value := value * 16 + v
      if left = 1 then
        match charOf? value with
        | some c => quoted? single .text (c :: done) gap s
        | none => none
      else quoted? single (.number (left - 1) value) done gap s
  | .mark, done, gap, p :: s =>
    if p.char = '\'' then quoted? single .text ('\'' :: done) gap s
    else some (String.ofList done.reverse, p :: s)
  | .text, done, gap, p :: s =>
    if Source.atDocumentMark (p :: s) then none
    else if isBlank p.char then quoted? single .text done (gap.addBlank p.char) s
    else if isBreak p.char then quoted? single .text done (gap.addBreak p.char) s
    else
      let done := gap.folded ++ done
      if single then
        if p.char = '\'' then quoted? single .mark done .none s
        else quoted? single .text (p.char :: done) .none s
      else if p.char = '"' then some (String.ofList done.reverse, s)
      else if p.char = '\\' then quoted? single .backslash done .none s
      else quoted? single .text (p.char :: done) .none s

/-! ## Plain scalars -/

/-- The characters that end a plain scalar within brackets. -/
def endsInFlow (c : Char) : Bool := c = ',' || c = '[' || c = ']' || c = '\x7b' || c = '\x7d'

/-- Reads a plain scalar, whose further lines must be indented to `indent` at least. Gives the text,
    whether a line end follows it, and the rest. -/
def plain? (flow : Bool) (indent : Nat) : (done : List Char) → Gap → Source →
    Option (String × Bool × Source)
  | done, gap, [] => some (String.ofList done.reverse, gap.hasBreak, [])
  | done, gap, p :: s =>
    let stop := some (String.ofList done.reverse, gap.hasBreak, p :: s)
    if isBlank p.char then
      if p.char = '\t' && gap.hasBreak && p.column < indent then none
      else plain? flow indent done (gap.addBlank p.char) s
    else if isBreak p.char then plain? flow indent done (gap.addBreak p.char) s
    else if !gap.isNone && ((!flow && p.column < indent) || p.char = '#') then stop
    else if Source.atDocumentMark (p :: s) then stop
    else if flow && p.char = ':' &&
        (s.head?.any fun q => endsInFlow q.char || q.char = '?') then none
    else if (p.char = ':' && Source.atGap s) || (flow && endsInFlow p.char) then stop
    else plain? flow indent (p.char :: (gap.folded ++ done)) .none s

/-! ## Block scalars -/

/-- What becomes of the line ends after a block. -/
inductive Chomp
  | strip
  | clip
  | keep
  deriving DecidableEq, Inhabited

/-- The chomping that a character asks for. -/
def chomp? (c : Char) : Option Chomp :=
  if c = '+' then some .keep else if c = '-' then some .strip else none

/-- The indentation that a character asks for. -/
def indentation? (c : Char) : Option Nat :=
  if '1' ≤ c ∧ c ≤ '9' then some (c.toNat - '0'.toNat) else none

/-- The chomping and the indentation in front of a block, in either order. -/
def blockHeader : Source → Chomp × Option Nat × Source
  | [] => (.clip, none, [])
  | p :: s =>
    match chomp? p.char, indentation? p.char with
    | some chomp, _ =>
      match s with
      | q :: s' => if (indentation? q.char).isSome then (chomp, indentation? q.char, s')
        else (chomp, none, s)
      | [] => (chomp, none, s)
    | none, some n =>
      match s with
      | q :: s' => match chomp? q.char with
        | some chomp => (chomp, some n, s')
        | none => (.clip, some n, s)
      | [] => (.clip, some n, s)
    | none, none => (.clip, none, p :: s)

/-- The largest column that the blanks in front of a block reach, up to its first text or the end of
    everything; `none` when a tab stands among them. -/
def blockColumn? : Nat → Source → Option Nat
  | column, [] => some column
  | column, p :: s =>
    if p.char = ' ' then blockColumn? (max column (p.column + 1)) s
    else if p.char = '\t' then none
    else if isBreak p.char then blockColumn? column s
    else some column

/-- A block as far as it was read. -/
structure Block where
  /-- What was read, latest first. -/
  done : List Char := []
  /-- The end of the last line. -/
  lineEnd : Option Char := none
  /-- The empty lines after it, latest first. -/
  empty : List Char := []
  /-- Whether the last line started with a blank. -/
  blankLine : Bool := false
  deriving Inhabited

/-- The block with a line started. Between lines that start with no blank a line end is folded,
    unless the block is literal. -/
def Block.startLine (b : Block) (literal blankLine : Bool) : Block :=
  let fold := !literal && b.lineEnd = some '\n' && !b.blankLine && !blankLine
  let ended := if fold then (if b.empty.isEmpty then [' '] else []) else b.lineEnd.toList
  { done := b.empty ++ ended ++ b.done, blankLine }

/-- The text of a block. -/
def Block.text (b : Block) (chomp : Chomp) : String :=
  let ends := match chomp with
    | .strip => []
    | .clip => b.lineEnd.toList
    | .keep => b.empty ++ b.lineEnd.toList
  String.ofList (ends ++ b.done).reverse

/-- Reads the lines of a block that are indented to `indent`. -/
def blockLines? (literal : Bool) (indent : Nat) : (inLine : Bool) → Block → Source →
    Option (Block × Source)
  | _, b, [] => some (b, [])
  | true, b, p :: s =>
    if isBreak p.char then blockLines? literal indent false { b with lineEnd := some p.char } s
    else blockLines? literal indent true { b with done := p.char :: b.done } s
  | false, b, p :: s =>
    if p.column < indent && p.char = ' ' then blockLines? literal indent false b s
    else if p.column < indent && p.char = '\t' then none
    else if isBreak p.char then
      blockLines? literal indent false { b with empty := p.char :: b.empty } s
    else if p.column = indent then
      let b := b.startLine literal (isBlank p.char)
      blockLines? literal indent true { b with done := p.char :: b.done } s
    else some (b, p :: s)

/-- Reads a block scalar after its first character, within a collection whose entries must be
    indented to `least`. -/
def block? (literal : Bool) (least : Nat) (s : Source) : Option (String × Source) := do
  let (chomp, asked, s) := blockHeader s
  let s ← s.skipLine?
  let indent ← match asked with
    | some n => some (least - 1 + n)
    | none => (blockColumn? 0 s).map fun column => max column (max least 1)
  let (b, s) ← blockLines? literal indent false {} s
  return (b.text chomp, s)

end ContextBroker.Yaml.Scalar
