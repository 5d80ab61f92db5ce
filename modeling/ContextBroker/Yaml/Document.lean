import ContextBroker.Yaml.Lexer
import ContextBroker.Yaml.Node

set_option autoImplicit false

/-! # Documents

A text may hold a document without a mark in front, or documents that start with a mark, and with
directives before it. Here a text holds one document at most. -/

namespace ContextBroker.Yaml

namespace Document

/-- Whether a token stands between documents. -/
def isBoundary : Token → Bool
  | .version .. | .tagHandle .. | .documentStart | .documentEnd => true
  | _ => false

/-- The handles that need no directive. -/
def defaultHandles : Composition.Handles := [("!", "!"), ("!!", "tag:yaml.org,2002:")]

/-- Reads the directives in front of a document: one version at most, 1.1 or 1.2, and handles that
    differ. Gives the handles and what follows the directives. -/
def directives? : (versionSeen : Bool) → (handles : Composition.Handles) → List Token →
    Option (Composition.Handles × List Token)
  | seen, handles, .version major minor :: ts =>
    if seen || major ≠ 1 || (minor ≠ 1 && minor ≠ 2) then none else directives? true handles ts
  | seen, handles, .tagHandle handle replacement :: ts =>
    if (handles.lookup handle).isSome then none
    else directives? seen ((handle, replacement) :: handles) ts
  | _, handles, ts => some (handles, ts)

/-- The node of the tokens up to the end of a document; only marks of the end may follow. -/
def content? (handles : Composition.Handles) (explicit : Bool) (ts : List Token) : Option Node :=
  let inside := ts.takeWhile fun t => !isBoundary t
  let rest := ts.dropWhile fun t => !isBoundary t
  if (inside.isEmpty && !explicit) || rest.any (· ≠ .documentEnd) then none
  else Node.ofTokens? handles inside

end Document

/-- The only document of a text, if there is one; `none` if the text cannot be read, or holds more
    than one. -/
def document? (cs : List Char) : Option (Option Node) := do
  let ts ← tokens? cs
  if ts.isEmpty then return none
  else
    let (handles, rest) ← Document.directives? false [] ts
    match rest with
    | .documentStart :: rest =>
      return some (← Document.content? (handles ++ Document.defaultHandles) true rest)
    | rest =>
      if rest.length = ts.length then
        return some (← Document.content? Document.defaultHandles false rest)
      else none

end ContextBroker.Yaml
