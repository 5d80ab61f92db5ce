import ContextBroker.WorkQueue
import ContextBroker.Proofs.Worker.Turn

set_option autoImplicit false

/-! # What the worker takes from its queue

`WorkQueue.turn?` says which turn the worker takes next. Taking it removes from the queue what the
turn is about: one task, or all that is left of the queue when the work ends. -/

namespace ContextBroker

namespace WorkQueue

/-- The turn that the worker takes next; `none` when it has nothing to do. -/
def turn? (q : WorkQueue) (around : Surroundings) : Option Turn :=
  if q.phase ≠ .running then none
  else
    match q.tasks with
    | [] => if q.senders = 0 then some .deserted else none
    | .shutdown ticket :: rest => some (.shutdown ticket rest)
    | task :: _ => some (.task around task)

/-- The queue after the turn, with the worker after it. -/
def after (q : WorkQueue) (turn : Turn) (worker : Worker) : WorkQueue :=
  { q with worker, tasks := if turn.isEnd then [] else q.tasks.tail,
           phase := if turn.isEnd then .stopped else .running }

/-- The queue after a turn that broke a rule. -/
def fallen (q : WorkQueue) (fault : Fault) : WorkQueue :=
  { q with tasks := [], phase := .broken fault }

theorem take?_eq (q : WorkQueue) (around : Surroundings) :
    q.take? around = (q.turn? around).map fun turn => match q.worker.turn turn with
      | .ok (w, effects) => (q.after turn w, effects)
      | .error fault => (q.fallen fault, []) := by
  by_cases hp : q.phase = .running
  · cases ht : q.tasks with
    | nil =>
      simp only [take?, turn?, hp, ht, ne_eq, not_true, if_false]
      split <;> rfl
    | cons task rest =>
      cases task with
      | shutdown ticket =>
        simp only [take?, turn?, hp, ht, ne_eq, not_true, if_false]
        rfl
      | _ =>
        simp only [take?, turn?, hp, ht, ne_eq, not_true, if_false, Option.map_some, Worker.turn,
          after, Turn.isEnd, Bool.false_eq_true, List.tail_cons]
        split <;> simp_all [fallen]
  · simp [take?, turn?, hp]

/-- A turn takes from the queue the requests that it is about. -/
theorem requested_of_turn? {q : WorkQueue} {around : Surroundings} {turn : Turn}
    (h : q.turn? around = some turn) (w : Worker) :
    requested q.tasks = turn.requests ++ requested (q.after turn w).tasks := by
  unfold turn? at h
  split at h
  · simp at h
  · split at h
    · split at h
      · rename_i ht _
        obtain rfl := Option.some.inj h
        simp [ht, Turn.requests, after, Turn.isEnd]
      · simp at h
    · rename_i ticket rest ht
      obtain rfl := Option.some.inj h
      simp [ht, Turn.requests, after, Turn.isEnd, requested_cons, Task.request?]
    · rename_i task rest _ ht
      obtain rfl := Option.some.inj h
      simp [ht, Turn.requests, after, Turn.isEnd, requested_cons]

end WorkQueue

end ContextBroker
