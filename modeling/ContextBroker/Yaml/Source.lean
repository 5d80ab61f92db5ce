set_option autoImplicit false

/-! # Characters and where they stand

YAML looks at lines and columns, so each character is read together with its place. The ways to end
a line are made one on the way: a carriage return, one before a line feed, and the character U+0085
read as a line feed. -/

namespace ContextBroker.Yaml

/-- Whether a character ends a line. -/
def isBreak (c : Char) : Bool :=
  c = '\n' || c = '\r' || c = '\x85' || c = '\u2028' || c = '\u2029'

/-- Whether a character is a blank within a line. -/
def isBlank (c : Char) : Bool := c = ' ' || c = '\t'

/-- Whether a character may stand in a text at all. -/
def isAllowed (c : Char) : Bool :=
  c = '\t' || c = '\n' || c = '\r' || (' ' ≤ c && c ≤ '~') || c = '\x85' ||
    ('\xa0' ≤ c && c ≤ '\ufffd') || 0x10000 ≤ c.toNat

/-- A character and its place. Lines and columns count from zero. -/
structure Place where
  char : Char
  /-- The number of bytes before it. -/
  index : Nat
  line : Nat
  column : Nat
  deriving DecidableEq, Inhabited

/-- What is left to read. -/
abbrev Source := List Place

namespace Source

/-- A text from a given place on. -/
def mark (index line column : Nat) : List Char → Source
  | [] => []
  | '\r' :: '\n' :: cs => ⟨'\n', index, line, column⟩ :: mark (index + 2) (line + 1) 0 cs
  | c :: cs =>
    if isBreak c then
      let read := if c = '\r' || c = '\x85' then '\n' else c
      ⟨read, index, line, column⟩ :: mark (index + c.utf8Size) (line + 1) 0 cs
    else ⟨c, index, line, column⟩ :: mark (index + c.utf8Size) line (column + 1) cs

/-- The mark that tells how a text is encoded. It may stand at the start of a line, and what follows
    it there is in the second column. -/
def byteOrderMark : Char := '\ufeff'

/-- A text as a source; `none` when it holds a character that may not stand there. -/
def ofChars? (cs : List Char) : Option Source :=
  if cs.all isAllowed then some (mark 0 0 0 cs) else none

/-- Whether a blank, a line end or the end of the text comes next. -/
def atGap : Source → Bool
  | [] => true
  | p :: _ => isBlank p.char || isBreak p.char

/-- Whether a line end or the end of the text comes next. -/
def atLineEnd : Source → Bool
  | [] => true
  | p :: _ => isBreak p.char

/-- Whether `c` comes next. -/
def startsWith (c : Char) : Source → Bool
  | [] => false
  | p :: _ => p.char = c

/-- Whether a line starts here with `c` three times and then a gap. -/
def isIndicator (c : Char) : Source → Bool
  | p :: q :: r :: rest => p.column = 0 && p.char = c && q.char = c && r.char = c && atGap rest
  | _ => false

/-- Whether the start or the end of a document is marked here. -/
def atDocumentMark (s : Source) : Bool := s.isIndicator '-' || s.isIndicator '.'

/-- The characters in front that pass `p`, and the rest. -/
def spanChars (p : Char → Bool) (s : Source) : List Char × Source :=
  ((s.takeWhile fun x => p x.char).map (·.char), s.dropWhile fun x => p x.char)

/-- What follows the blanks. -/
def skipBlanks (s : Source) : Source := s.dropWhile fun p => isBlank p.char

/-- What follows the rest of the line, which must be blank but for a comment; the line end is read
    too. -/
def skipLine? (s : Source) : Option Source :=
  let s : Source := s.skipBlanks
  let s : Source := if s.startsWith '#' then s.dropWhile fun p => !isBreak p.char else s
  if s.atLineEnd then some s.tail else none

end Source

end ContextBroker.Yaml
