import ContextBroker.Yaml.Token

set_option autoImplicit false

/-! # Nodes

The tokens of a document are put together bracket by bracket. What stands within one pair of brackets
is a flat list of nodes, of their properties and of the marks between them; it is cut at the marks,
and makes a node of its own. -/

namespace ContextBroker.Yaml

/-- What is said in front of a node. The anchors of a document are numbered. Two nodes may have the
    same number; then the later one is meant. -/
structure Properties where
  anchor : Option Nat := none
  tag : Option String := none
  deriving DecidableEq, Inhabited

/-- A value of a document. -/
inductive Node
  | scalar (properties : Properties) (text : Text)
  /-- The node with an anchor. -/
  | alias (anchor : Nat)
  | sequence (properties : Properties) (items : List Node)
  | mapping (properties : Properties) (entries : List (Node × Node))
  deriving Inhabited

namespace Node

/-- What stands where a node is left out. -/
def empty (properties : Properties) : Node := .scalar properties ⟨"", .plain⟩

/-- The node with properties; `none` for an alias, which has those of the node it means. -/
def withProperties? (p : Properties) : Node → Option Node
  | .scalar _ text => some (.scalar p text)
  | .alias n => if p = {} then some (.alias n) else none
  | .sequence _ items => some (.sequence p items)
  | .mapping _ entries => some (.mapping p entries)

mutual

/-- The last node with an anchor. What is within a node comes after it. -/
def find? (anchor : Nat) : Node → Option Node
  | .scalar p text => if p.anchor = some anchor then some (.scalar p text) else none
  | .alias _ => none
  | .sequence p items =>
    (findItem? anchor items).or (if p.anchor = some anchor then some (.sequence p items) else none)
  | .mapping p entries =>
    (findPair? anchor entries).or (if p.anchor = some anchor then some (.mapping p entries) else none)

/-- The last node with an anchor among some nodes. -/
def findItem? (anchor : Nat) : List Node → Option Node
  | [] => none
  | n :: ns => (findItem? anchor ns).or (n.find? anchor)

/-- The last node with an anchor among some entries. -/
def findPair? (anchor : Nat) : List (Node × Node) → Option Node
  | [] => none
  | (k, v) :: es => (findPair? anchor es).or ((v.find? anchor).or (k.find? anchor))

end

end Node

/-- What stands within brackets. -/
inductive Part
  | mark (mark : Mark)
  | anchor (number : Nat)
  | tag (tag : String)
  | node (node : Node)
  deriving Inhabited

namespace Part

/-- Whether a part is the given mark. -/
def isMark (m : Mark) : Part → Bool
  | .mark n => n = m
  | _ => false

/-- Cuts a list at a mark. There is one piece more than marks. -/
def cut (m : Mark) : List Part → List (List Part)
  | [] => [[]]
  | p :: ps =>
    if p.isMark m then [] :: cut m ps
    else
      match cut m ps with
      | [] => [[p]]
      | piece :: pieces => (p :: piece) :: pieces

/-- The properties in front of a list, at most one of each kind, and what follows them. -/
def properties : List Part → Properties × List Part
  | .anchor n :: .tag t :: ps => (⟨some n, some t⟩, ps)
  | .tag t :: .anchor n :: ps => (⟨some n, some t⟩, ps)
  | .anchor n :: ps => (⟨some n, none⟩, ps)
  | .tag t :: ps => (⟨none, some t⟩, ps)
  | ps => ({}, ps)

/-- The node that a list makes up, if it is no more than one. A node may be left out. -/
def single? (ps : List Part) : Option Node :=
  match properties ps with
  | (p, []) => some (.empty p)
  | (p, [.node n]) => n.withProperties? p
  | _ => none

/-- The node that a list makes up, which must not be left out altogether. -/
def present? (ps : List Part) : Option Node := if ps.isEmpty then none else single? ps

/-- The items that a list of entries makes up, each with a hyphen in front. -/
def entries? (ps : List Part) : Option (List Node) :=
  match cut .entry ps with
  | [] :: pieces => pieces.mapM single?
  | _ => none

/-- A key or a value of a block mapping. It may be a sequence that is not indented further than the
    mapping. -/
def slot? (ps : List Part) : Option Node :=
  if ps.any (isMark .entry) then
    let (p, ps) := properties ps
    (entries? ps).map (.sequence p)
  else single? ps

/-- An entry of a block mapping, after the mark of its key. -/
def blockPair? (ps : List Part) : Option (Node × Node) :=
  match cut .value ps with
  | [key] => do return (← slot? key, .empty {})
  | [key, value] => do return (← slot? key, ← slot? value)
  | _ => none

/-- A key and its value within brackets, after the mark of the key. -/
def flowPair? (keyOf : List Part → Option Node) (ps : List Part) : Option (Node × Node) :=
  match cut .value ps with
  | [key] => do return (← keyOf key, .empty {})
  | [key, value] => do return (← keyOf key, ← single? value)
  | _ => none

/-- An item of a sequence in brackets: a node, or a key that is there and its value. -/
def flowItem? : List Part → Option Node
  | .mark .key :: ps => (flowPair? present? ps).map fun entry => .mapping {} [entry]
  | ps => present? ps

/-- An entry of a mapping in brackets: a key and its value, or a node without a value. -/
def flowMember? : List Part → Option (Node × Node)
  | .mark .key :: ps => flowPair? single? ps
  | ps => do return (← present? ps, .empty {})

/-- The pieces between commas. After the last comma nothing has to follow. -/
def flowPieces (ps : List Part) : List (List Part) :=
  let pieces := cut .comma ps
  if pieces.getLast?.any List.isEmpty then pieces.dropLast else pieces

/-- The collection that a list of parts makes up. -/
def collection? (c : Collection) (ps : List Part) : Option Node :=
  match c with
  | .blockSequence => (entries? ps).map (.sequence {})
  | .blockMapping =>
    match cut .key ps with
    | [] :: pieces => (pieces.mapM blockPair?).map (.mapping {})
    | _ => none
  | .flowSequence => ((flowPieces ps).mapM flowItem?).map (.sequence {})
  | .flowMapping => ((flowPieces ps).mapM flowMember?).map (.mapping {})

end Part

/-! ## Brackets -/

/-- A document as far as its tokens were read. -/
structure Composition where
  /-- What stands within the innermost open bracket, latest first. -/
  parts : List Part := []
  /-- The open brackets, innermost first, with what stands before them. -/
  outer : List (Collection × List Part) := []
  /-- The names of the anchors, each with its number. -/
  anchors : List (String × Nat) := []
  deriving Inhabited

namespace Composition

/-- The replacements for the handles of tags. -/
abbrev Handles := List (String × String)

/-- Adds a part. -/
def add (c : Composition) (p : Part) : Composition := { c with parts := p :: c.parts }

/-- Gives an anchor its number: how many names there are before it. A name that comes again is
    numbered anew, so that its number will be that of the next new name too. -/
def addAnchor (c : Composition) (name : String) : Composition :=
  let number := c.anchors.length
  { c with anchors := (name, number) :: c.anchors.filter (·.1 ≠ name) }.add (.anchor number)

/-- Whether a question mark within the brackets of a sequence waits for its key. -/
def awaitsKey (c : Composition) : Bool :=
  (c.outer.head?.any (·.1 = .flowSequence)) && c.parts.head?.any (Part.isMark .key)

/-- Whether a token, right behind a question mark within the brackets of a sequence, stands for a key
    that is left out. It counts as nothing else then; so a closing bracket closes nothing. -/
def standsForKey : Token → Bool
  | .mark .value | .mark .comma | .closing (some .flowSequence) => true
  | _ => false

/-- Whether a closing token fits a collection. -/
def closes (c : Collection) : Option Collection → Bool
  | none => !c.isFlow
  | some d => c = d

/-- Takes the next token. No block starts within brackets. -/
def step? (handles : Handles) (c : Composition) (t : Token) : Option Composition :=
  if c.awaitsKey && standsForKey t then some (c.add (.node (.empty {})))
  else match t with
  | .opening collection =>
    if !collection.isFlow && (c.outer.head?.any (·.1.isFlow)) then none
    else some { c with parts := [], outer := (collection, c.parts) :: c.outer }
  | .closing flow =>
    match c.outer with
    | [] => none
    | (collection, parts) :: outer =>
      if closes collection flow then do
        let n ← Part.collection? collection c.parts.reverse
        return { c with parts := .node n :: parts, outer }
      else none
  | .mark m => some (c.add (.mark m))
  | .alias name => (c.anchors.lookup name).map fun n => c.add (.node (.alias n))
  | .anchor name => some (c.addAnchor name)
  | .tag name =>
    if name.handle.isEmpty then some (c.add (.tag name.suffix))
    else (handles.lookup name.handle).map fun start => c.add (.tag (start ++ name.suffix))
  | .scalar text => some (c.add (.node (.scalar {} text)))
  | .version .. | .tagHandle .. | .documentStart | .documentEnd => none

end Composition

/-- The node that the tokens of a document make up. -/
def Node.ofTokens? (handles : Composition.Handles) (tokens : List Token) : Option Node := do
  let c ← tokens.foldlM (Composition.step? handles) {}
  if c.outer.isEmpty then Part.single? c.parts.reverse else none

end ContextBroker.Yaml
