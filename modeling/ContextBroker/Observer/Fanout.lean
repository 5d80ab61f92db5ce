import ContextBroker.Observer

set_option autoImplicit false

/-! # Telling observers who react

Observers may add and remove observers, and announce further changes, while they are told of one. A
`Fanout` is a hub in the middle of that. It keeps a log of who was told what and of each reaction's
result, and runs at most a given number of announcements, so that it comes to an end whatever the
observers do. Its trace also tells who asked for what and when it was done, in which announcement
observers were told, when it began and ended, and who was registered all the while. -/

namespace ContextBroker

/-- What an observer, or whoever holds the hub, may do. -/
inductive Reaction
  | add (observer : Observer)
  | remove (observer : Observer)
  | count
  | announce (notice : Notice)
  deriving DecidableEq, Inhabited

namespace Reaction

/-- What came of a reaction. -/
inductive Result
  /-- The number of observers after one was added. -/
  | added (size : Nat)
  /-- Whether there was an observer to remove. -/
  | removed (found : Bool)
  | counted (size : Nat)
  | announced
  /-- No announcement is left to run. -/
  | spent
  deriving DecidableEq, Inhabited

end Reaction

/-- A line of the log. -/
inductive Fanout.Entry
  /-- The observer was told of the change. -/
  | told (observer : Observer) (notice : Notice)
  /-- The observer did this, with this result. -/
  | reacted (observer : Observer) (reaction : Reaction) (result : Reaction.Result)
  deriving DecidableEq, Inhabited

/-- Who asks for a reaction. -/
inductive Fanout.Asker
  /-- Whoever holds the hub. -/
  | holder
  /-- The observer, in answer to the telling of this number. -/
  | told (telling : Nat) (observer : Observer)
  deriving DecidableEq, Inhabited

/-- Something that happened to a hub. Announcements are numbered in the order in which they begin, and
    tellings in the order in which they are made. -/
inductive Fanout.Act
  /-- This is to be done now. -/
  | asked (asker : Fanout.Asker) (reaction : Reaction)
  | answered (asker : Fanout.Asker) (reaction : Reaction) (result : Reaction.Result)
  | added (observer : Observer)
  | removed (observer : Observer)
  | began (call : Nat) (notice : Notice)
  | told (call : Nat) (observer : Observer) (notice : Notice)
  | ended (call : Nat)
  deriving DecidableEq, Inhabited

/-- What the log has of it. -/
def Fanout.Act.entry? : Fanout.Act → Option Fanout.Entry
  | told _ o n => some (.told o n)
  | answered (.told _ o) r result => some (.reacted o r result)
  | _ => none

/-- A line of the trace. -/
structure Fanout.Mark where
  act : Fanout.Act
  /-- The hub right after. -/
  hub : Hub
  deriving DecidableEq, Inhabited

/-- A hub whose observers react. -/
structure Fanout where
  hub : Hub := {}
  /-- The number of announcements that may still run. -/
  left : Nat
  /-- The number of times an observer was told something. -/
  told : Nat := 0
  /-- The number of announcements that began. -/
  calls : Nat := 0
  log : List Fanout.Entry := []
  trace : List Fanout.Mark := []

namespace Fanout

/-- How observers react: what the observer does the `n`-th time that any observer is told. -/
abbrev Plan := Nat → Observer → List Reaction

/-- Adds a line to the trace, and what the log has of it to the log. -/
def mark (f : Fanout) (act : Act) : Fanout :=
  { f with trace := f.trace ++ [⟨act, f.hub⟩], log := f.log ++ act.entry?.toList }

/-- How a reaction is done. -/
abbrev Doing := Fanout → Reaction → Fanout × Reaction.Result

/-- Asks for a reaction, which is done before anything else. -/
def ask (doing : Doing) (asker : Asker) (f : Fanout) (r : Reaction) : Fanout × Reaction.Result :=
  let done := doing (f.mark (.asked asker r)) r
  (done.1.mark (.answered asker r done.2), done.2)

/-- Asks for one reaction after the other. -/
def perform (doing : Doing) (asker : Asker) (f : Fanout) (reactions : List Reaction) : Fanout :=
  reactions.foldl (fun f r => (ask doing asker f r).1) f

/-- Tells an observer, and lets it react before anything else is done. -/
def tell (doing : Doing) (plan : Plan) (call : Nat) (n : Notice) (f : Fanout) (o : Observer) :
    Fanout :=
  let telling := f.told + 1
  let f' := { f with told := telling }.mark (.told call o n)
  perform doing (.told telling o) f' (plan telling o)

/-- Tells each observer of the hub as it is now, in order. -/
def announce (doing : Doing) (plan : Plan) (f : Fanout) (n : Notice) : Fanout :=
  let call := f.calls + 1
  let f' := { f with left := f.left - 1, calls := call }.mark (.began call n)
  (f.hub.observers.foldl (tell doing plan call n) f').mark (.ended call)

/-- Does `r`. Announcements are nested at most `depth` deep. -/
def reactWithin (plan : Plan) : Nat → Doing
  | _, f, .add o => ({ f with hub := f.hub.add o }.mark (.added o), .added (f.hub.add o).size)
  | _, f, .remove o =>
    ({ f with hub := f.hub.remove o }.mark (.removed o), .removed (f.hub.contains o))
  | _, f, .count => (f, .counted f.hub.size)
  | 0, f, .announce _ => (f, .spent)
  | depth + 1, f, .announce n =>
    if f.left = 0 then (f, .spent) else (announce (reactWithin plan depth) plan f n, .announced)

/-- Does `r`, with all that observers do in reaction to it. No deeper nesting is possible than there
    are announcements left to run. -/
def react (plan : Plan) (f : Fanout) (r : Reaction) : Fanout × Reaction.Result :=
  ask (reactWithin plan f.left) .holder f r

end Fanout

end ContextBroker
