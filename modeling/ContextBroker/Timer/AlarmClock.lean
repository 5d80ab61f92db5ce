import ContextBroker.Timeline
import ContextBroker.Timer

set_option autoImplicit false

/-! # Alarm clocks

An `AlarmClock` is a timer on a virtual clock. Each timeout is a piece of work: it goes to sleep for
its duration once it gets its turn, and when it wakes it runs its callback, if it is still armed. A
callback may set or cancel timeouts itself. All that is asked of the clock and all that it does is
logged, with the moment and with the timer as it was right after. -/

namespace ContextBroker

/-- What a timeout does when it elapses. -/
inductive Callback
  | nothing
  | cancel (id : TimerId)
  | set (duration : Nat) (callback : Callback)
  /-- One thing after another. -/
  | andThen (first next : Callback)
  deriving DecidableEq, Inhabited

/-- A timeout's work. -/
inductive Alarm
  /-- It goes to sleep for its duration. -/
  | start (id : TimerId) (duration : Nat) (callback : Callback)
  /-- Its time is over. -/
  | ring (id : TimerId) (callback : Callback)
  deriving DecidableEq, Inhabited

namespace AlarmClock

/-- Something that happened. -/
inductive Event
  /-- The timeout was set, with what it does when it elapses. -/
  | set (id : TimerId) (duration : Nat) (callback : Callback)
  /-- A timeout was to be cancelled, whether it was armed or not. -/
  | cancelled (id : TimerId)
  /-- The timeout's callback was run. -/
  | fired (id : TimerId)
  deriving DecidableEq, Inhabited

/-- A line of the log. -/
structure Entry where
  moment : Nat
  event : Event
  /-- The timer right after. -/
  timer : Timer
  deriving DecidableEq, Inhabited

end AlarmClock

/-- A timer, the clock it runs on, and the timeouts that acted. -/
structure AlarmClock where
  timer : Timer := {}
  /-- The number that was given out last. -/
  last : TimerId := 0
  line : Timeline Alarm := {}
  /-- The timeouts whose callback ran, latest first. -/
  fired : List TimerId := []
  log : List AlarmClock.Entry := []
  deriving Inhabited

namespace AlarmClock

/-- Adds to the log. -/
def note (c : AlarmClock) (event : Event) : AlarmClock :=
  { c with log := c.log ++ [⟨c.line.now, event, c.timer⟩] }

/-- Sets a timeout. -/
def set (c : AlarmClock) (duration : Nat) (callback : Callback) : AlarmClock × TimerId :=
  let id := c.last + 1
  let line := c.line.spawn (.start id duration callback)
  ({ c with timer := c.timer.arm id, last := id, line }.note (.set id duration callback), id)

/-- Cancels a timeout. -/
def cancel (c : AlarmClock) (id : TimerId) : AlarmClock :=
  { c with timer := c.timer.cancel id }.note (.cancelled id)

/-- Runs a callback. -/
def run (c : AlarmClock) : Callback → AlarmClock
  | .nothing => c
  | .cancel id => c.cancel id
  | .set duration callback => (c.set duration callback).1
  | .andThen first next => (c.run first).run next

/-- A timeout's time is over: it acts if it is armed. -/
def ring (c : AlarmClock) (id : TimerId) (callback : Callback) : AlarmClock :=
  match c.timer.elapse? id with
  | some timer => ({ c with timer, fired := id :: c.fired }.note (.fired id)).run callback
  | none => c

/-- A timeout gets its turn. A duration of zero is over at once. -/
def runAlarm (c : AlarmClock) : Alarm → AlarmClock
  | .start id duration callback =>
    if duration = 0 then c.ring id callback
    else { c with line := c.line.sleep duration (.ring id callback) }
  | .ring id callback => c.ring id callback

/-- The next timeout in line gets its turn. -/
def turn? (c : AlarmClock) : Option AlarmClock :=
  match c.line.ready with
  | [] => none
  | a :: rest => some ({ c with line.ready := rest }.runAlarm a)

/-! ## It comes to an end -/

/-- What a callback may still set off. -/
def callbackWeight : Callback → Nat
  | .nothing | .cancel _ => 0
  | .set _ callback => 3 + callbackWeight callback
  | .andThen first next => callbackWeight first + callbackWeight next

/-- What a timeout may still set off. -/
def alarmWeight : Alarm → Nat
  | .start _ _ callback => 3 + callbackWeight callback
  | .ring _ callback => 1 + callbackWeight callback

/-- What is left to do. -/
def weight (c : AlarmClock) : Nat := c.line.weight alarmWeight

theorem weight_run (c : AlarmClock) (callback : Callback) :
    (c.run callback).weight = c.weight + callbackWeight callback := by
  induction callback generalizing c with
  | nothing => rfl
  | cancel id => rfl
  | set duration callback _ => simp [run, set, note, weight, callbackWeight, alarmWeight]
  | andThen first next ih ih' =>
    rw [run, ih', ih, callbackWeight]
    omega

theorem weight_ring_le (c : AlarmClock) (id : TimerId) (callback : Callback) :
    (c.ring id callback).weight ≤ c.weight + callbackWeight callback := by
  unfold ring
  split
  · exact Nat.le_of_eq (weight_run _ callback)
  · omega

theorem weight_runAlarm_lt (c : AlarmClock) (a : Alarm) :
    (c.runAlarm a).weight < c.weight + alarmWeight a := by
  cases a with
  | start id duration callback =>
    by_cases hd : duration = 0
    · have := c.weight_ring_le id callback
      simp only [runAlarm, hd, if_true, alarmWeight]
      omega
    · simp [runAlarm, hd, weight, alarmWeight]
      omega
  | ring id callback =>
    have := c.weight_ring_le id callback
    simp only [runAlarm, alarmWeight]
    omega

theorem weight_turn?_lt {c c' : AlarmClock} (h : c.turn? = some c') : c'.weight < c.weight := by
  unfold turn? at h
  split at h
  · simp at h
  · rename_i a rest hr
    obtain rfl := Option.some.inj h
    have := weight_runAlarm_lt { c with line.ready := rest } a
    have hc : c.weight = ({ c with line.ready := rest } : AlarmClock).weight + alarmWeight a := by
      simp [weight, Timeline.weight, hr]
      omega
    omega

instance : Clocked AlarmClock where
  now c := c.line.now
  turn? := turn?
  nextDeadline? c := c.line.nextDeadline?
  advance c moment := { c with line := c.line.advance moment }
  rank c := (c.weight, 0)
  turn_lt h := .left _ _ (weight_turn?_lt h)
  advance_lt h := .left _ _ (Timeline.weight_advance_lt alarmWeight h)

end AlarmClock

end ContextBroker
