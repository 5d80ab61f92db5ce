import ContextBroker.Yaml.Token

set_option autoImplicit false

/-! # Reading tokens

A key is recognised only by the colon that follows it. So where a node starts that may be a key, its
place is remembered as a *candidate*; a colon on the same line settles it, and a mapping starts there
if it is indented further than what is around it. In block context a collection ends with the first
line that is indented less. -/

namespace ContextBroker.Yaml

/-- A node that may turn out to be a key. -/
structure Candidate where
  place : Place
  /-- The number of tokens before it. -/
  before : Nat
  /-- Whether nothing but a key may stand there. -/
  required : Bool
  deriving DecidableEq, Inhabited

namespace Candidate

/-- Whether a colon at `p` comes too late: keys stand on one line, and take no more than 1024 bytes
    with what stands before the colon. -/
def isStale (c : Candidate) (p : Place) : Bool :=
  c.place.line < p.line || c.place.index + 1024 < p.index

end Candidate

/-- A text as far as its tokens were read. -/
structure Lexer where
  rest : Source
  /-- The columns of the open block collections, innermost first. -/
  indents : List Nat := []
  /-- The candidate at this level of brackets. -/
  candidate : Option Candidate := none
  /-- The candidates at the outer levels of brackets, innermost first. -/
  outer : List (Option Candidate) := []
  /-- Whether a key may start here. -/
  keyAllowed : Bool := true
  /-- The tokens, latest first. -/
  tokens : List Token := []
  deriving Inhabited

namespace Lexer

/-- Whether the text is within brackets. -/
def inFlow (l : Lexer) : Bool := !l.outer.isEmpty

/-- The least column of what belongs to the innermost block collection. -/
def least (l : Lexer) : Nat := (l.indents.head?.map (· + 1)).getD 0

/-- Adds a token, and goes on at `rest`. -/
def emit (l : Lexer) (t : Token) (rest : Source) : Lexer :=
  { l with tokens := t :: l.tokens, rest }

/-! ## Candidates -/

/-- Gives up the candidate; `none` if that had to be a key. -/
def giveUp? (l : Lexer) : Option Lexer :=
  if l.candidate.any (·.required) then none else some { l with candidate := none }

/-- Remembers a node that starts at `p` as a candidate, if a key may start there. -/
def remember? (l : Lexer) (p : Place) : Option Lexer :=
  if l.keyAllowed then do
    let l ← l.giveUp?
    let required := !l.inFlow && l.indents.head? = some p.column
    return { l with candidate := some ⟨p, l.tokens.length, required⟩ }
  else some l

/-- A candidate unless it is stale at `p`; `none` if it had to be a key. -/
def refresh? (p : Place) (candidate : Option Candidate) : Option (Option Candidate) :=
  match candidate with
  | none => some none
  | some c => if c.isStale p then if c.required then none else some none else some (some c)

/-- Gives up the candidates that are stale at `p`, at every level. -/
def refreshAll? (l : Lexer) (p : Place) : Option Lexer := do
  let candidate ← refresh? p l.candidate
  let outer ← l.outer.mapM (refresh? p)
  return { l with candidate, outer }

/-! ## Indentation -/

/-- Ends the block collections that are indented further than `column`; all of them for `none`.
    Within brackets indentation does not count. -/
def unroll (l : Lexer) (column : Option Nat) : Lexer :=
  if l.inFlow then l
  else
    let ended := l.indents.takeWhile fun i => column.all (· < i)
    { l with
      indents := l.indents.drop ended.length
      tokens := ended.map (fun _ => .closing none) ++ l.tokens }

/-- Puts a token before all but the first `n` tokens. -/
def insert (l : Lexer) (n : Nat) (t : Token) : Lexer :=
  let k := l.tokens.length - n
  { l with tokens := l.tokens.take k ++ t :: l.tokens.drop k }

/-- Starts a block collection at `column`, unless one is open there. -/
def roll (l : Lexer) (column before : Nat) (c : Collection) : Lexer :=
  if l.inFlow || column < l.least then l
  else { l with indents := column :: l.indents }.insert before (.opening c)

/-! ## Tokens -/

/-- What follows the blanks, the comments and the line ends. In block context a new line may start
    with a key, but not with a tab. A byte order mark at the start of a line is passed over. -/
def skip (flow : Bool) : (comment keyAllowed : Bool) → Source → Bool × Source
  | _, keyAllowed, [] => (keyAllowed, [])
  | comment, keyAllowed, p :: s =>
    if isBreak p.char then skip flow false (keyAllowed || !flow) s
    else if comment then skip flow true keyAllowed s
    else if p.char = ' ' || (p.char = '\t' && (flow || !keyAllowed)) then
      skip flow false keyAllowed s
    else if p.char = Source.byteOrderMark && p.column = 0 then skip flow false keyAllowed s
    else if p.char = '#' then skip flow true keyAllowed s
    else (keyAllowed, p :: s)

/-- A directive or the mark of a document ends all block collections. -/
def document? (l : Lexer) (t : Token) (rest : Source) : Option Lexer := do
  let l ← (l.unroll none).giveUp?
  return { l with keyAllowed := false }.emit t rest

/-- An opening bracket. -/
def open? (l : Lexer) (p : Place) (c : Collection) (s : Source) : Option Lexer := do
  let l ← l.remember? p
  return { l with outer := l.candidate :: l.outer, candidate := none, keyAllowed := true }.emit
    (.opening c) s

/-- A closing bracket. -/
def close? (l : Lexer) (c : Collection) (s : Source) : Option Lexer := do
  let l ← l.giveUp?
  return { l with candidate := l.outer.head?.join, outer := l.outer.tail, keyAllowed := false }.emit
    (.closing (some c)) s

/-- A comma within brackets. -/
def comma? (l : Lexer) (s : Source) : Option Lexer := do
  let l ← l.giveUp?
  return { l with keyAllowed := true }.emit (.mark .comma) s

/-- A hyphen that starts an entry, or a question mark that starts a key. -/
def indicator? (l : Lexer) (p : Place) (m : Mark) (c : Collection) (keyAfter : Bool) (s : Source) :
    Option Lexer := do
  if !l.inFlow && !l.keyAllowed then none
  else
    let l ← (l.roll p.column l.tokens.length c).giveUp?
    return { l with keyAllowed := keyAfter }.emit (.mark m) s

/-- A colon. It makes the candidate a key; without one it follows a key that was marked as such. -/
def value? (l : Lexer) (p : Place) (s : Source) : Option Lexer :=
  match l.candidate with
  | some c =>
    let l := (l.insert c.before (.mark .key)).roll c.place.column c.before .blockMapping
    some ({ l with candidate := none, keyAllowed := false }.emit (.mark .value) s)
  | none =>
    if !l.inFlow && !l.keyAllowed then none
    else
      let l := l.roll p.column l.tokens.length .blockMapping
      some ({ l with keyAllowed := !l.inFlow }.emit (.mark .value) s)

/-- A token that may be a key or start one. -/
def node? (l : Lexer) (p : Place) (t : Token) (s : Source) : Option Lexer := do
  let l ← l.remember? p
  return { l with keyAllowed := false }.emit t s

/-- A block scalar. -/
def block? (l : Lexer) (literal : Bool) (s : Source) : Option Lexer := do
  let l ← l.giveUp?
  let (text, s) ← Scalar.block? literal l.least s
  return { l with keyAllowed := true }.emit
    (.scalar ⟨text, if literal then .literal else .folded⟩) s

/-- A quoted scalar. -/
def quoted? (l : Lexer) (p : Place) (single : Bool) (s : Source) : Option Lexer := do
  let (text, s) ← Scalar.quoted? single .text [] .none s
  l.node? p (.scalar ⟨text, .quoted⟩) s

/-- A plain scalar. A key may start on the line after it. -/
def plain? (l : Lexer) (p : Place) (s : Source) : Option Lexer := do
  let (text, atLineEnd, rest) ← Scalar.plain? l.inFlow l.least [] .none (p :: s)
  let l ← l.node? p (.scalar ⟨text, .plain⟩) rest
  return { l with keyAllowed := atLineEnd }

/-- Whether a character may not start a plain scalar, unless as a hyphen, a question mark or a colon
    with no gap behind it. -/
def isIndicator (c : Char) : Bool := "-?:,[]\x7b\x7d#&*!|>'\"%@\x60".toList.contains c

/-- Reads the token that starts at `p`. -/
def token? (l : Lexer) (p : Place) (s : Source) : Option Lexer := do
  let l := (← l.refreshAll? p).unroll (some p.column)
  -- Directives and the marks of documents, at the start of a line only.
  if p.column = 0 && p.char = '%' then
    let (t, rest) ← Token.directive? s
    l.document? t rest
  else if Source.isIndicator '-' (p :: s) then l.document? .documentStart (s.drop 2)
  else if Source.isIndicator '.' (p :: s) then l.document? .documentEnd (s.drop 2)
  -- Brackets, and what separates entries, keys and values.
  else if p.char = '[' then l.open? p .flowSequence s
  else if p.char = '\x7b' then l.open? p .flowMapping s
  else if p.char = ']' then l.close? .flowSequence s
  else if p.char = '\x7d' then l.close? .flowMapping s
  else if p.char = ',' then l.comma? s
  else if p.char = '-' && Source.atGap s then l.indicator? p .entry .blockSequence true s
  else if p.char = '?' && (l.inFlow || Source.atGap s) then
    l.indicator? p .key .blockMapping (!l.inFlow) s
  else if p.char = ':' && (l.inFlow || Source.atGap s) then l.value? p s
  -- Names: aliases, anchors and tags.
  else if p.char = '*' then
    let (name, rest) ← Token.name? s
    l.node? p (.alias name) rest
  else if p.char = '&' then
    let (name, rest) ← Token.name? s
    l.node? p (.anchor name) rest
  else if p.char = '!' then
    let (name, rest) ← Token.tag? l.inFlow s
    l.node? p (.tag name) rest
  -- Scalars; whatever no other token starts with may start a plain one.
  else if (p.char = '|' || p.char = '>') && !l.inFlow then l.block? (p.char = '|') s
  else if p.char = '\'' then l.quoted? p true s
  else if p.char = '"' then l.quoted? p false s
  else if !(isBlank p.char || isIndicator p.char) || p.char = '-' ||
      (!l.inFlow && (p.char = '?' || p.char = ':')) then l.plain? p s
  else none

/-- The tokens at the end of a text; `none` if a candidate had to be a key. -/
def finish? (l : Lexer) : Option (List Token) := do
  let l ← (l.unroll none).giveUp?
  return l.tokens.reverse

/-- Reads at most `n` tokens, and `none` if there are more. -/
def run? : (n : Nat) → Lexer → Option (List Token)
  | n, l =>
    let (keyAllowed, rest) := skip l.inFlow false l.keyAllowed l.rest
    let l := { l with keyAllowed, rest }
    match n, rest with
    | _, [] => l.finish?
    | 0, _ => none
    | n + 1, p :: s => (l.token? p s).bind (run? n)

end Lexer

/-- The tokens of a text, each of which is a character long at least; `none` if the text cannot be
    read as tokens. -/
def tokens? (cs : List Char) : Option (List Token) := do
  let s ← Source.ofChars? cs
  Lexer.run? s.length { rest := s }

end ContextBroker.Yaml
