import ContextBroker.Proofs.History.Tokens

set_option autoImplicit false

/-! # What a call does to the queue

A call takes tokens from the allocator, gives them back, and adds to the end of the queue
(`Broker.queue_call`). It keeps the tokens in order (`WorkQueue.Tracked.call`). -/

namespace ContextBroker

namespace WorkQueue

/-- A task that is posted goes to the end of the queue, while it is open. -/
theorem post_eq (q : WorkQueue) (task : Task) :
    q.post task = { q with tasks := q.tasks ++ if q.isOpen then [task] else [] } := by
  unfold post post?
  cases q.isOpen <;> simp

end WorkQueue

namespace Broker

theorem queue_begin (b : Broker) (ticket : Ticket) (c : Call) :
    ∃ tokens, (b.begin ticket c).1.queue = { b.queue with worker.tokens := tokens } := by
  unfold begin
  split
  · exact ⟨_, rfl⟩
  · split
    · split
      · exact ⟨_, rfl⟩
      · exact ⟨_, rfl⟩
    · exact ⟨_, rfl⟩

theorem queue_finish (b : Broker) (u : Underway) :
    ∃ tokens more, (b.finish u).1.queue =
      { b.queue with worker.tokens := tokens, tasks := b.queue.tasks ++ more } := by
  unfold finish
  split
  · rename_i queue hq
    obtain rfl : b.queue.post (b.task u) = queue := by rw [WorkQueue.post, hq, Option.getD_some]
    rw [WorkQueue.post_eq]
    exact ⟨_, _, rfl⟩
  · unfold giveUp
    refine ⟨if u.call.requester?.isSome then b.queue.worker.tokens.release u.token
      else b.queue.worker.tokens, [], ?_⟩
    split <;> simp_all

/-- A call adds to the end of the queue, and uses the allocator. -/
theorem queue_call (b : Broker) (ticket : Ticket) (c : Call) :
    ∃ tokens more, (b.call ticket c).1.queue =
      { b.queue with worker.tokens := tokens, tasks := b.queue.tasks ++ more } := by
  obtain ⟨tokens, hb⟩ := b.queue_begin ticket c
  rw [call_eq]
  split
  · rename_i b' response he
    rw [he] at hb
    exact ⟨tokens, [], by simpa using hb⟩
  · rename_i b' u he
    rw [he] at hb
    obtain ⟨tokens', more, hf⟩ := b'.queue_finish u
    simp only at hb
    rw [hb] at hf
    exact ⟨tokens', more, hf⟩

end Broker

theorem History.Tracked.changes {h h' : History} (ht : h.Tracked)
    (hc : Relation.ReflTransGen Change h h') : h'.Tracked := by
  induction hc with
  | refl => exact ht
  | tail _ hc ih => exact ih.change hc

namespace WorkQueue.Tracked

/-- A call that nothing comes between keeps the tokens in order. -/
theorem call {b : Broker} (h : b.queue.Tracked []) (ticket : Ticket) (c : Call) :
    (b.call ticket c).1.queue.Tracked [] := by
  have hbegin : (History.begin { broker := b } ticket c).Tracked :=
    History.Tracked.change (h := { broker := b }) h (History.change_begin _ ticket c)
  have hrun : (History.respond { broker := b } c (b.call ticket c)).Tracked := by
    rw [History.respond_call]
    exact hbegin.changes (History.changes_settle _ 0)
  exact hrun

/-- A task that is no request may be posted at any time. -/
theorem post_other {q : WorkQueue} {numbered : List (Token × Requester)} (h : q.Tracked numbered)
    {task : Task} (hno : task.request? = none) : (q.post task).Tracked numbered := by
  unfold WorkQueue.post
  cases hq : q.post? task with
  | none => exact h
  | some q' => exact Tracked.post (by simpa [hno] using h) hq

end WorkQueue.Tracked

end ContextBroker
