import ContextBroker.Worker

set_option autoImplicit false

/-! # The work queue

A `WorkQueue` is a queue of tasks with the worker that takes them, first come first served. It runs
until it takes a `shutdown` task, or until nobody is left who could post and the queue is empty.
Then open requests are cancelled and what is still queued is turned down. -/

namespace ContextBroker

/-- Whether the worker still takes tasks. -/
inductive Phase
  | running
  | stopped
  /-- A task broke a rule; whatever was queued behind it is lost. -/
  | broken (fault : Fault)
  deriving DecidableEq, Inhabited

/-- A queue of tasks and its worker. -/
structure WorkQueue where
  worker : Worker := {}
  tasks : List Task := []
  /-- The number of those who can post. -/
  senders : Nat := 1
  phase : Phase := .running
  deriving DecidableEq, Inhabited

namespace WorkQueue

/-- Whether a task that is posted now is taken some day. -/
def isOpen (q : WorkQueue) : Bool := q.phase = .running && 0 < q.senders

/-- Puts a task at the end of the queue; `none` when the queue is closed. -/
def post? (q : WorkQueue) (task : Task) : Option WorkQueue :=
  if q.isOpen then some { q with tasks := q.tasks ++ [task] } else none

/-- Puts a task at the end of the queue, or drops it when the queue is closed. -/
def post (q : WorkQueue) (task : Task) : WorkQueue := (q.post? task).getD q

/-- Ends the work with `rest` still queued. -/
def stop (q : WorkQueue) (worker : Worker) (rest : List Task) (ticket : Option Ticket) :
    WorkQueue × List Effect :=
  let (worker, effects) := worker.stop rest ticket
  ({ q with worker, tasks := [], phase := .stopped }, effects)

/-- What the worker does next: it handles the first task, or ends its work. `none` when it has
    nothing to do. -/
def take? (q : WorkQueue) (around : Surroundings) : Option (WorkQueue × List Effect) :=
  if q.phase ≠ .running then none
  else
    match q.tasks with
    -- Nobody can post any more: the work ends without being told to.
    | [] => if q.senders = 0 then some (q.stop q.worker [] none) else none
    | .shutdown ticket :: rest => some (q.stop q.worker.countTask rest ticket)
    | task :: rest =>
      match q.worker.countTask.handle around task with
      | .ok (worker, effects) => some ({ q with worker, tasks := rest }, effects)
      | .error fault => some ({ q with tasks := [], phase := .broken fault }, [])

/-- Whether the worker has nothing to do: it has stopped, or it waits for a task. -/
def isIdle (q : WorkQueue) : Bool := q.phase ≠ .running || (q.tasks.isEmpty && q.senders ≠ 0)

/-- How many more times the worker can take something. -/
def remaining (q : WorkQueue) : Nat :=
  q.tasks.length + if q.phase = .running then 1 else 0

theorem remaining_take?_lt {q q' : WorkQueue} {around : Surroundings} {effects : List Effect}
    (h : q.take? around = some (q', effects)) : q'.remaining < q.remaining := by
  unfold take? at h
  split at h
  · simp at h
  · rename_i hp
    have hp : q.phase = .running := by simpa using hp
    split at h
    · split at h
      · simp only [stop, Option.some.injEq, Prod.mk.injEq] at h
        obtain ⟨rfl, rfl⟩ := h
        simp [remaining, hp]
      · simp at h
    · simp only [stop, Option.some.injEq, Prod.mk.injEq] at h
      obtain ⟨rfl, rfl⟩ := h
      simp [remaining, hp]
    · rename_i ht
      split at h <;> simp only [Option.some.injEq, Prod.mk.injEq] at h <;>
        obtain ⟨rfl, rfl⟩ := h <;> simp [remaining, hp, ht]

/-- Lets the worker take all it can, and lists what it asked for. -/
def run (q : WorkQueue) (around : Surroundings) : WorkQueue × List Effect :=
  match _h : q.take? around with
  | none => (q, [])
  | some (q', effects) =>
    let (q'', more) := q'.run around
    (q'', effects ++ more)
termination_by q.remaining
decreasing_by exact remaining_take?_lt _h

end WorkQueue

end ContextBroker
