import ContextBroker.Tally

set_option autoImplicit false

/-! # A virtual clock

A `Timeline` runs pieces of work on one thread under a clock that moves only when told to. Work that
can run waits in line, first come first served; work that waits for a moment sleeps until the clock
gets there. Of work that wakes at one moment, what was put to sleep first comes first.

No sleep lasts longer than `Timeline.longest`: whoever asks for more wakes early. So every moment
that anything waits for is one the clock can still get to in a single sleep (`wakingTime_le`), and
up to that limit a duration means what it says (`wakingTime_of_le`). -/

namespace ContextBroker

/-- Work in line and work asleep. Times are in milliseconds. -/
structure Timeline (α : Type) where
  now : Nat := 0
  /-- Work that can run, in the order it will. -/
  ready : List α := []
  /-- Work that waits for a moment, in the order it will wake. -/
  asleep : List (Nat × α) := []
  deriving Inhabited

namespace Timeline

variable {α : Type}

/-- Puts work at the end of the line. -/
def spawn (t : Timeline α) (a : α) : Timeline α := { t with ready := t.ready ++ [a] }

/-- Inserts a sleeper behind all that wake no later. -/
def insertSleeper (deadline : Nat) (a : α) : List (Nat × α) → List (Nat × α)
  | [] => [(deadline, a)]
  | (d, b) :: rest =>
    if deadline < d then (deadline, a) :: (d, b) :: rest
    else (d, b) :: insertSleeper deadline a rest

/-- The longest sleep: thirty years of 365 days. -/
def longest : Nat := 30 * 365 * 24 * 60 * 60 * 1000

/-- The moment at which a sleep that begins at `now` is over. -/
def wakingTime (now duration : Nat) : Nat := now + min duration longest

theorem wakingTime_of_le {now duration : Nat} (h : duration ≤ longest) :
    wakingTime now duration = now + duration := by
  rw [wakingTime, Nat.min_eq_left h]

theorem wakingTime_le (now duration : Nat) : wakingTime now duration ≤ wakingTime now longest := by
  simp only [wakingTime]
  omega

/-- Puts work to sleep for a time. -/
def sleep (t : Timeline α) (duration : Nat) (a : α) : Timeline α :=
  { t with asleep := insertSleeper (wakingTime t.now duration) a t.asleep }

/-- The moment at which something wakes next. -/
def nextDeadline? (t : Timeline α) : Option Nat := t.asleep.head?.map (·.1)

/-- Moves the clock to `moment`, and whatever sleeps no longer than that into the line. -/
def advance (t : Timeline α) (moment : Nat) : Timeline α :=
  { now := moment
    ready := t.ready ++ (t.asleep.takeWhile fun s => s.1 ≤ moment).map (·.2)
    asleep := t.asleep.dropWhile fun s => s.1 ≤ moment }

/-! ### How much is left to do -/

/-- The weight of all work, by the weight of each piece. To be asleep weighs one more. -/
def weight (w : α → Nat) (t : Timeline α) : Nat :=
  tally w t.ready + tally (fun s => w s.2 + 1) t.asleep

@[simp] theorem weight_spawn (w : α → Nat) (t : Timeline α) (a : α) :
    (t.spawn a).weight w = t.weight w + w a := by
  simp only [weight, spawn, tally_append, tally_cons, tally_nil]
  omega

theorem tally_insertSleeper (w : α → Nat) (d : Nat) (a : α) (l : List (Nat × α)) :
    tally (fun s => w s.2 + 1) (insertSleeper d a l) =
      tally (fun s => w s.2 + 1) l + (w a + 1) := by
  induction l with
  | nil => simp [insertSleeper]
  | cons s rest ih =>
    unfold insertSleeper
    split
    · simp; omega
    · simp [ih]; omega

@[simp] theorem weight_sleep (w : α → Nat) (t : Timeline α) (d : Nat) (a : α) :
    (t.sleep d a).weight w = t.weight w + w a + 1 := by
  have := tally_insertSleeper w (wakingTime t.now d) a t.asleep
  simp only [weight, sleep]
  omega

theorem tally_asleep_eq (w : α → Nat) (moment : Nat) (l : List (Nat × α)) :
    tally (fun s => w s.2 + 1) l =
      tally w ((l.takeWhile fun s => s.1 ≤ moment).map (·.2)) +
        (l.takeWhile fun s => s.1 ≤ moment).length +
        tally (fun s => w s.2 + 1) (l.dropWhile fun s => s.1 ≤ moment) := by
  induction l with
  | nil => simp
  | cons s rest ih =>
    by_cases h : s.1 ≤ moment
    · simp [h] at ih ⊢
      omega
    · simp [h]

/-- Waking weighs less. -/
theorem weight_advance_lt (w : α → Nat) {t : Timeline α} {d : Nat} (h : t.nextDeadline? = some d) :
    (t.advance d).weight w < t.weight w := by
  cases hs : t.asleep with
  | nil => simp [nextDeadline?, hs] at h
  | cons s rest =>
    simp only [nextDeadline?, hs, List.head?_cons, Option.map_some, Option.some.injEq] at h
    have := tally_asleep_eq w d (s :: rest)
    simp only [weight, advance, hs, tally_append]
    have hpos : 0 < ((s :: rest).takeWhile fun s => decide (s.1 ≤ d)).length := by
      simp [h]
    omega

end Timeline

/-! ## Systems on a timeline -/

/-- A system that runs on a virtual clock. Every turn, and every waking, brings it closer to a state
    in which nothing is left to do. -/
class Clocked (σ : Type) where
  now : σ → Nat
  /-- Does the next piece of work; `none` when there is none. -/
  turn? : σ → Option σ
  /-- The moment at which something wakes next. -/
  nextDeadline? : σ → Option Nat
  /-- Moves the clock, and wakes what is due. -/
  advance : σ → Nat → σ
  /-- What is left to do. -/
  rank : σ → Nat × Nat
  turn_lt {s s' : σ} : turn? s = some s' → Prod.Lex (· < ·) (· < ·) (rank s') (rank s)
  advance_lt {s : σ} {d : Nat} : nextDeadline? s = some d →
    Prod.Lex (· < ·) (· < ·) (rank (advance s d)) (rank s)

namespace Clocked

variable {σ : Type} [Clocked σ]

/-- Does all that can be done without moving the clock. -/
def settle (s : σ) : σ :=
  match _h : turn? s with
  | none => s
  | some s' => settle s'
termination_by rank s
decreasing_by exact turn_lt _h

/-- Does all that can be done up to the moment `moment`, moving the clock from one deadline to the
    next. -/
def runTo (moment : Nat) (s : σ) : σ :=
  match _h : turn? s with
  | some s' => runTo moment s'
  | none =>
    match _h' : nextDeadline? s with
    | none => advance s moment
    | some d => if d ≤ moment then runTo moment (advance s d) else advance s moment
termination_by rank s
decreasing_by
  · exact turn_lt _h
  · exact advance_lt _h'

/-- Sleeps for a time, while the system does what falls due. -/
def sleep (duration : Nat) (s : σ) : σ := runTo (Timeline.wakingTime (now s) duration) s

end Clocked

end ContextBroker
