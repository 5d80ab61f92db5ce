import ContextBroker.Sorted.Set

set_option autoImplicit false

/-! # Timers

A `Timer` remembers which of the timeouts it was given are armed: set, and neither elapsed nor
cancelled. Only an armed timeout can elapse, and it is armed no more after that; so it acts at most
once, and never after it was cancelled. -/

namespace ContextBroker

/-- A timeout that was set, by the number it was given. -/
abbrev TimerId := Nat

/-- The armed timeouts. -/
structure Timer where
  armed : SortedSet TimerId := ∅
  deriving DecidableEq, Inhabited

namespace Timer

/-- Arms a timeout. -/
def arm (t : Timer) (id : TimerId) : Timer := ⟨t.armed.insert id⟩

/-- Disarms a timeout; one that is not armed is left as it is. -/
def cancel (t : Timer) (id : TimerId) : Timer := ⟨t.armed.erase id⟩

/-- Whether a timeout is armed. -/
def isArmed (t : Timer) (id : TimerId) : Bool := t.armed.contains id

/-- The timer after a timeout elapsed; `none` when it is not armed. -/
def elapse? (t : Timer) (id : TimerId) : Option Timer :=
  if t.isArmed id then some (t.cancel id) else none

/-- The number of armed timeouts. -/
def active (t : Timer) : Nat := t.armed.size

theorem mem_arm {t : Timer} {id id' : TimerId} :
    id' ∈ (t.arm id).armed ↔ id' = id ∨ id' ∈ t.armed := SortedSet.mem_insert

theorem mem_cancel {t : Timer} {id id' : TimerId} :
    id' ∈ (t.cancel id).armed ↔ id' ≠ id ∧ id' ∈ t.armed := SortedSet.mem_erase

end Timer

end ContextBroker
