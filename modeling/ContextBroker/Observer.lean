import ContextBroker.Sample

set_option autoImplicit false

/-! # Observers

A `Hub` lists the observers of state changes in the order they were added. A change is told to the
observers that are listed when it is announced, whatever is added or removed while it is told. -/

namespace ContextBroker

/-- An observer of state changes, by number. -/
abbrev Observer := Nat

/-- A state change, as observers are told of it. -/
structure Notice where
  identity : Identity
  sample : Sample
  cause : Cause
  deriving DecidableEq, Inhabited

/-- The registered observers, in the order they were added. -/
structure Hub where
  observers : List Observer := []
  deriving DecidableEq, Inhabited

namespace Hub

/-- Whether an observer is registered. -/
def contains (h : Hub) (o : Observer) : Bool := h.observers.contains o

/-- Adds an observer at the end; one that is registered keeps its place. -/
def add (h : Hub) (o : Observer) : Hub :=
  if h.contains o then h else ⟨h.observers ++ [o]⟩

/-- Removes an observer. -/
def remove (h : Hub) (o : Observer) : Hub := ⟨h.observers.filter (· ≠ o)⟩

/-- The number of observers. -/
def size (h : Hub) : Nat := h.observers.length

/-- Whether nobody is registered. -/
def isEmpty (h : Hub) : Bool := h.observers.isEmpty

end Hub

end ContextBroker
