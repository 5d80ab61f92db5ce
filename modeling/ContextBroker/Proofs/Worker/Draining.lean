import ContextBroker.Proofs.Docket
import ContextBroker.Proofs.Worker.Disarming
import ContextBroker.Proofs.Worker.Replying
import Mathlib.Data.List.Basic

set_option autoImplicit false

/-! # The end of the work

When the work ends, every open request is cancelled and what is left of the queue is turned down,
task by task. `Worker.EndsWork` says all that becomes of the worker and all that it asks for on the
way, and `Worker.stop_endsWork` that this is what the worker does, whatever is left of the queue. -/

namespace ContextBroker

/-! ## Turning tasks down -/

namespace Task

/-- How a task is answered that is turned down by a worker with these metrics. -/
def refusal (m : Metrics) : Task → List Effect
  | register _ _ _ ticket | unregister _ ticket | setState _ _ _ _ ticket
  | pushState _ _ ticket => [.reply ticket (.done (.error .shuttingDown))]
  | read _ ticket => [.reply ticket (.context (.error .shuttingDown))]
  | metrics ticket => [.reply ticket (.metrics m)]
  | shutdown ticket => ticket.toList.map (.reply · .stopped)
  | report .. | getContext .. | respond .. | unavailable .. | timeout .. => []

/-- Whether nobody is told what becomes of the task. -/
def isSilent : Task → Bool
  | report .. | respond .. | unavailable .. | timeout .. => true
  | _ => false

end Task

namespace Worker

variable {w : Worker}

theorem replied_reject (w : Worker) (task : Task) :
    replied (w.reject task).2 = task.refusal w.metrics := by
  cases task with
  | shutdown ticket => exact replied_replies (replies_map ticket.toList _)
  | _ => rfl

/-- A request that is turned down has failed. -/
theorem counters_reject (w : Worker) (task : Task) :
    (w.reject task).1.counters =
      { w.counters with failed := w.counters.failed + (requested [task]).length } := by
  cases task <;> rfl

theorem reject_silent {task : Task} (h : task.isSilent = true) (w : Worker) :
    w.reject task = (w, []) := by
  cases task with
  | report | respond | unavailable | timeout => rfl
  | _ => simp [Task.isSilent] at h

/-! ## Turning down the rest of the queue -/

theorem counters_drain (w : Worker) (queue : List Task) :
    (w.drain queue).1.counters =
      { w.counters with failed := w.counters.failed + (requested queue).length } := by
  induction queue using List.reverseRecOn with
  | nil => rfl
  | append_singleton queue task ih =>
    rw [drain_append_singleton, andThen, counters_reject, ih, requested_append, List.length_append,
      ← Nat.add_assoc]

/-- The metrics of a worker that has turned the tasks down: nothing has changed but that the
    requests among them have failed. -/
theorem metrics_drain (w : Worker) (queue : List Task) :
    (w.drain queue).1.metrics =
      { w.metrics with counters.failed := w.counters.failed + (requested queue).length } := by
  have hd := drains_drain w queue
  rw [metrics, hd.store, hd.requests, counters_drain]
  rfl

/-- Each task is answered as the worker stands when its turn comes. -/
theorem replied_drain (w : Worker) (queue : List Task) :
    replied (w.drain queue).2 = queue.zipIdx.flatMap fun x => x.1.refusal
      { w.metrics with
        counters.failed := w.counters.failed + (requested (queue.take x.2)).length } := by
  induction queue using List.reverseRecOn with
  | nil => rfl
  | append_singleton queue task ih =>
    -- What stands before a task that was there already is what stood there.
    have hbefore : ∀ x ∈ queue.zipIdx, (queue ++ [task]).take x.2 = queue.take x.2 := by
      intro x hx
      have hlt := (List.mem_zipIdx hx).2.1
      exact List.take_append_of_le_length (by omega)
    rw [drain_append_singleton, andThen, replied_append, replied_reject, metrics_drain, ih,
      List.zipIdx_append, List.flatMap_append]
    congr 1
    · exact List.flatMap_congr fun x hx => by rw [hbefore x hx]
    · simp

/-- A task that nobody hears of leaves no trace among the others. -/
theorem drain_silent {task : Task} (h : task.isSilent = true) (w : Worker)
    (before after : List Task) :
    w.drain (before ++ task :: after) = w.drain (before ++ after) := by
  induction before generalizing w with
  | nil => rw [List.nil_append, List.nil_append, drain_cons, reject_silent h, andThen,
      List.nil_append]
  | cons x before ih =>
    rw [List.cons_append, List.cons_append, drain_cons, drain_cons, andThen, andThen, ih]

/-! ## Cancelling the open requests -/

theorem counters_fail {t : Token} {r : Request} (hr : w.requests.get? t = some r)
    (error : RequestError) :
    (w.fail t error).1.counters = { w.counters with failed := w.counters.failed + 1 } := by
  rw [fail, hr]
  rfl

theorem cancelEach_append_singleton (w : Worker) (ts : List Token) (t : Token) :
    w.cancelEach (ts ++ [t]) = andThen (w.cancelEach ts) (·.fail t .cancelled) :=
  each_append_singleton ..

/-- Each request that is cancelled is counted. -/
theorem counters_cancelEach (w : Worker) {ts : List Token} (hts : ts.Nodup)
    (hopen : ∀ t ∈ ts, (w.requests.get? t).isSome) :
    (w.cancelEach ts).1.counters =
      { w.counters with failed := w.counters.failed + ts.length } := by
  induction ts using List.reverseRecOn with
  | nil => rfl
  | append_singleton ts t ih =>
    obtain ⟨hts', -, hdis⟩ := List.nodup_append.1 hts
    have hnot : t ∉ ts := fun h => hdis t h t (by simp) rfl
    have ih := ih hts' fun u hu => hopen u (List.mem_append_left _ hu)
    -- The last of the requests is still open when its turn comes.
    have hs := Settles.each (fun w' t _ => settles_fail w' t .cancelled) hts' (w := w)
    obtain ⟨r, hr⟩ := Option.isSome_iff_exists.1 (hopen t (by simp))
    have hget : (w.cancelEach ts).1.requests.get? t = some r := by
      rw [cancelEach, hs.requests, hr, Option.bind_some, if_neg hnot]
      rfl
    rw [cancelEach_append_singleton, andThen, counters_fail hget, ih, List.length_append]
    rfl

/-- The open requests are gone, and nothing has changed but that they have failed. -/
theorem cancelled_eq (w : Worker) :
    let w' := (w.cancelEach w.requests.keys).1
    w'.requests = ∅ ∧
      w'.counters = { w.counters with failed := w.counters.failed + w.requests.size } := by
  have hs := settles_cancelEach w
  refine ⟨SortedMap.ext_get? fun t => ?_, ?_⟩
  · rw [hs.requests, SortedMap.get?_empty]
    cases w.requests.get? t <;> rfl
  · have hsize : w.requests.keys.length = w.requests.size := List.length_map _
    rw [counters_cancelEach w w.requests.nodup_keys fun t => SortedMap.mem_keys.1, hsize]

/-! ## The end of the work -/

/-- The step `s` ends the work of `w` with `rest` left of the queue, and answers `ticket` last. -/
structure EndsWork (w : Worker) (rest : List Task) (ticket : Option Ticket) (s : Step) : Prop where
  /-- The requests that are open and those in the queue are delivered as cancelled. -/
  delivers (t : Token) : deliveries t s.2 =
    ((w.requests.get? t).toList.map fun r => (r.requester, .failure .cancelled)) ++
      ((requested rest).filter (·.1 = t)).map fun x => (x.2, .failure .cancelled)
  /-- Their tokens are free again. -/
  live (t : Token) : t ∈ s.1.tokens.live ↔
    t ∈ w.tokens.live ∧ w.requests.get? t = none ∧ t ∉ (requested rest).map (·.1)
  /-- The timers of the open requests are cancelled, and no others. -/
  cancels (id : TimerId) : .cancelTimer id ∈ s.2 ↔
    ∃ t r, w.requests.get? t = some r ∧ r.timer = some id
  /-- Nobody is polled, and no timer is set. -/
  asked : asked s.2 = []
  /-- Each task in the queue is answered as it is turned down, with what is counted by then. -/
  replied : replied s.2 =
    (rest.zipIdx.flatMap fun x => x.1.refusal
      ⟨w.store.size, 0, { w.counters with
        failed := w.counters.failed + w.requests.size +
          (requested (rest.take x.2)).length }⟩) ++
      ticket.toList.map (.reply · .stopped)
  requests : s.1.requests = ∅
  counters : s.1.counters = { w.counters with
    failed := w.counters.failed + w.requests.size + (requested rest).length }
  store : s.1.store = w.store
  generation : s.1.generation = w.generation
  timers : s.1.timers = w.timers
  last : s.1.tokens.last = w.tokens.last

/-- Without a task that nobody hears of the work ends in the same way. -/
theorem stop_silent {task : Task} (h : task.isSilent = true) (w : Worker)
    (before after : List Task) (ticket : Option Ticket) :
    w.stop (before ++ task :: after) ticket = w.stop (before ++ after) ticket := by
  unfold stop
  rw [andThen, andThen, drain_silent h]
  rfl

/-- **How the work ends**, whatever is left of the queue. -/
theorem stop_endsWork (w : Worker) (rest : List Task) (ticket : Option Ticket) :
    w.EndsWork rest ticket (w.stop rest ticket) := by
  have hc := settles_cancelEach w
  have hd := drains_drain (w.cancelEach w.requests.keys).1 rest
  have hreply := replies_map ticket.toList .stopped
  obtain ⟨hrequests, hcounters⟩ := cancelled_eq w
  have hmetrics : (w.cancelEach w.requests.keys).1.metrics =
      ⟨w.store.size, 0, { w.counters with failed := w.counters.failed + w.requests.size }⟩ := by
    rw [metrics, hc.store, hrequests, hcounters]
    rfl
  have hgone : (w.stop rest ticket).1.requests = ∅ := hd.requests.trans hrequests
  refine ⟨?_, ?_, ?_, ?_, ?_, hgone, ?_, hd.store.trans hc.store,
    hd.generation.trans hc.generation, hd.timers.trans hc.timers, hd.last.trans hc.last⟩
  · intro t
    simp only [stop, andThen, deliveries_append, deliveries_replies hreply, List.append_nil,
      hd.delivers, hc.delivers]
    cases w.requests.get? t <;> rfl
  · intro t
    simp only [stop, andThen, hd.live, hc.live]
    cases w.requests.get? t <;> simp
  · intro id
    rw [(disarms_stop w rest ticket).cancels, hgone]
    simp
  · simp only [stop, andThen, asked_append, asked_replies hreply, hc.asked, hd.asked,
      List.append_nil]
  · simp only [stop, andThen, replied_append, replied_replies hreply, hc.replied, replied_drain,
      hmetrics, hcounters, List.nil_append]
  · simp only [stop, andThen, counters_drain, hcounters]

end Worker

end ContextBroker
