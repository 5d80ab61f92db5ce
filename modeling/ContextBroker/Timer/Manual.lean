import ContextBroker.Token
import ContextBroker.Sorted.Map
import ContextBroker.Timer

set_option autoImplicit false

/-! # Timers run by hand

A `ManualTimer` keeps the timeouts it was given until each is fired by hand. A timeout is fired at
most once, and may be fired even after it was cancelled. -/

namespace ContextBroker

/-- The timeouts not yet fired, each with the token and the generation of the request it was set
    for. -/
structure ManualTimer where
  waiting : SortedMap TimerId (Token × Nat) := ∅
  deriving DecidableEq, Inhabited

namespace ManualTimer

/-- Keeps a timeout. -/
def set (m : ManualTimer) (id : TimerId) (token : Token) (generation : Nat) : ManualTimer :=
  ⟨m.waiting.insert id (token, generation)⟩

/-- Takes out a timeout to be fired. -/
def fire? (m : ManualTimer) (id : TimerId) : Option (Token × Nat × ManualTimer) :=
  (m.waiting.get? id).map fun (token, generation) => (token, generation, ⟨m.waiting.erase id⟩)

end ManualTimer

end ContextBroker
