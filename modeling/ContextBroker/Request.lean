import ContextBroker.Failure
import ContextBroker.Timer

set_option autoImplicit false

/-! # Open requests

A `Request` waits for the answers to the polls it sent out. Each polled identity is awaited until
it is resolved, as refreshed or as unavailable; a request that awaits nothing is complete. -/

namespace ContextBroker

/-- Whoever asked for a context, by number. -/
abbrev Requester := Nat

/-- A request that waits for answers. -/
structure Request where
  requester : Requester
  endpoint : String
  /-- Polled and not yet answered. -/
  awaited : SortedSet Identity
  /-- Answered with a state for this request. -/
  refreshed : SortedSet Identity := ∅
  /-- Answered without a state; left out of the context. -/
  unavailable : SortedSet Identity := ∅
  timer : Option TimerId := none
  /-- Which of all requests this is; tells it from others that had its token. -/
  generation : Nat
  deriving DecidableEq, Inhabited

namespace Request

/-- Whether `i` is still to be answered. -/
def awaits (r : Request) (i : Identity) : Bool := r.awaited.contains i

/-- Whether every poll was answered. -/
def isComplete (r : Request) : Bool := r.awaited.isEmpty

/-- The request after `i` was answered, with a state or without one. -/
def resolve (r : Request) (i : Identity) (available : Bool) : Request :=
  let r := { r with awaited := r.awaited.erase i }
  if available then { r with refreshed := r.refreshed.insert i }
  else { r with unavailable := r.unavailable.insert i }

end Request

/-- What is delivered to a requester, once. -/
inductive Outcome
  | context (endpoint : String) (context : Context)
  | failure (error : RequestError)
  deriving DecidableEq, Inhabited

end ContextBroker
