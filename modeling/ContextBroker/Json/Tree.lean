import ContextBroker.Json.Token

set_option autoImplicit false

/-! # Values as trees

A `Tree` is a JSON value as far as it could be read. Where the text goes wrong the tree is *broken*,
and holds what came before. So whoever walks a tree from left to right meets what is wrong with the
text, and what is wrong with the values, in the order in which they stand there.

A `Document` is built token by token, with the brackets that are still open on a stack. -/

namespace ContextBroker.Json

/-- A value as far as it could be read. -/
inductive Tree
  | null
  | bool (value : Bool)
  | number (value : Number)
  /-- A text; `none` for quoted text that is no text. -/
  | string (text : Option String)
  | array (items : List Tree) (closed : Bool)
  /-- Keys are texts, as values are. -/
  | object (members : List (Option String × Tree)) (closed : Bool)
  /-- The text goes wrong before there is a value. -/
  | broken
  deriving Inhabited

/-- A member of an object. -/
abbrev Member := Option String × Tree

namespace Tree

mutual

/-- Whether nothing is wrong in the spelling of a value. -/
def isWhole : Tree → Bool
  | .null | .bool _ | .number _ | .string _ => true
  | .array items closed => closed && areWhole items
  | .object members closed => closed && haveWhole members
  | .broken => false

/-- Whether nothing is wrong in the spelling of some values. -/
def areWhole : List Tree → Bool
  | [] => true
  | t :: ts => t.isWhole && areWhole ts

/-- Whether nothing is wrong in the spelling of the values of some members. -/
def haveWhole : List (Option String × Tree) → Bool
  | [] => true
  | (_, t) :: ms => t.isWhole && haveWhole ms

end

/-! ## Writing -/

/-- A natural number. -/
def natural (n : Nat) : Tree := .number (.ofNat n)

/-- A text in quotation marks. -/
def quoted (s : String) : List Char := '"' :: Quoted.encode s.toList ++ ['"']

/-- An exponent as it is written. -/
def exponentChars : Int → List Char
  | .ofNat n => 'e' :: Nat.toDigits 10 n
  | .negSucc n => 'e' :: '-' :: Nat.toDigits 10 (n + 1)

/-- A number as it is written. -/
def numberChars (n : Number) : List Char :=
  (if n.negative then ['-'] else []) ++ n.whole ++ (n.fraction.elim [] ('.' :: ·)) ++
    (n.exponent.elim [] exponentChars)

mutual

/-- A value as it is written, without blanks. -/
def chars : Tree → List Char
  | .null => "null".toList
  | .bool true => "true".toList
  | .bool false => "false".toList
  | .number n => numberChars n
  | .string text => quoted (text.getD "")
  | .array items _ => '[' :: itemsChars items ++ [']']
  | .object members _ => '\x7b' :: membersChars members ++ ['\x7d']
  | .broken => []

/-- Values with commas between them. -/
def itemsChars : List Tree → List Char
  | [] => []
  | [t] => t.chars
  | t :: ts => t.chars ++ ',' :: itemsChars ts

/-- Members with commas between them. -/
def membersChars : List (Option String × Tree) → List Char
  | [] => []
  | [(key, t)] => quoted (key.getD "") ++ ':' :: t.chars
  | (key, t) :: ms => quoted (key.getD "") ++ ':' :: t.chars ++ ',' :: membersChars ms

end

end Tree

/-! ## Building -/

/-- An open bracket that waits for a value; what was read within it, latest first. -/
inductive Frame
  | item (done : List Tree)
  | member (done : List Member) (key : Option String)
  deriving Inhabited

/-- What is read so far, and what may come next. -/
inductive Partial
  /-- A value must come. -/
  | value (outer : List Frame)
  /-- A value must come, or the end of an empty array. -/
  | firstItem (outer : List Frame)
  /-- A comma must come, or the end of the array. -/
  | nextItem (done : List Tree) (outer : List Frame)
  /-- A key must come, or, when it would be the first, the end of an empty object. -/
  | nextKey (first : Bool) (done : List Member) (outer : List Frame)
  | colon (done : List Member) (key : Option String) (outer : List Frame)
  /-- A comma must come, or the end of the object. -/
  | nextMember (done : List Member) (outer : List Frame)
  /-- The text must end. -/
  | whole (t : Tree)
  /-- The text went wrong. -/
  | wrong (t : Tree)
  deriving Inhabited

namespace Partial

/-- Puts a value where one is awaited. -/
def place (t : Tree) : List Frame → Partial
  | [] => .whole t
  | .item done :: outer => .nextItem (t :: done) outer
  | .member done key :: outer => .nextMember ((key, t) :: done) outer

/-- The value that a text leaves when it goes wrong at `t`. -/
def cut (t : Tree) : List Frame → Tree
  | [] => t
  | .item done :: outer => cut (.array (t :: done).reverse false) outer
  | .member done key :: outer => cut (.object ((key, t) :: done).reverse false) outer

/-- A token where a value must come. -/
def start (outer : List Frame) : Token → Partial
  | .null => place .null outer
  | .bool b => place (.bool b) outer
  | .number n => place (.number n) outer
  | .string text => place (.string text) outer
  | .openArray => .firstItem outer
  | .openObject => .nextKey true [] outer
  | .closeObject | .closeArray | .colon | .comma | .bad => .wrong (cut .broken outer)

/-- Takes the next token. -/
def step : Partial → Token → Partial
  | .value outer, token => start outer token
  | .firstItem outer, .closeArray => place (.array [] true) outer
  | .firstItem outer, token => start (.item [] :: outer) token
  | .nextItem done outer, .comma => .value (.item done :: outer)
  | .nextItem done outer, .closeArray => place (.array done.reverse true) outer
  | .nextItem done outer, _ => .wrong (cut (.array done.reverse false) outer)
  | .nextKey _ done outer, .string text => .colon done text outer
  | .nextKey true done outer, .closeObject => place (.object done.reverse true) outer
  | .nextKey _ done outer, _ => .wrong (cut (.object done.reverse false) outer)
  | .colon done key outer, .colon => .value (.member done key :: outer)
  | .colon done key outer, _ => .wrong (cut .broken (.member done key :: outer))
  | .nextMember done outer, .comma => .nextKey false done outer
  | .nextMember done outer, .closeObject => place (.object done.reverse true) outer
  | .nextMember done outer, _ => .wrong (cut (.object done.reverse false) outer)
  | .whole t, _ => .wrong t
  | .wrong t, _ => .wrong t

/-- The value that a text leaves when it ends here. -/
def root : Partial → Tree
  | .value outer => cut .broken outer
  | .firstItem outer => cut (.array [] false) outer
  | .nextItem done outer => cut (.array done.reverse false) outer
  | .nextKey _ done outer => cut (.object done.reverse false) outer
  | .colon done key outer => cut .broken (.member done key :: outer)
  | .nextMember done outer => cut (.object done.reverse false) outer
  | .whole t => t
  | .wrong t => t

/-- Whether a text that ends here is the spelling of a value. -/
def isWhole : Partial → Bool
  | .whole _ => true
  | _ => false

end Partial

/-- A text as it was read. -/
structure Document where
  root : Tree
  /-- Whether nothing is wrong in the spelling, up to the end. -/
  whole : Bool
  deriving Inhabited

/-- Reads a text. -/
def Document.ofChars (cs : List Char) : Document :=
  let p := (tokens cs).foldl Partial.step (.value [])
  ⟨p.root, p.isWhole⟩

end ContextBroker.Json
