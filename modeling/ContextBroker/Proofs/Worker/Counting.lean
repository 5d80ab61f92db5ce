import ContextBroker.Proofs.Docket
import ContextBroker.Proofs.Worker.Leaving
import ContextBroker.Sorted.Total

set_option autoImplicit false

/-! # What the worker counts

Every delivery is counted when it is made, and takes one request from the table unless the request
never got there. `Worker.Counts` says this of a step, given how many requests the step takes in and
how many answers come too late for it. One step after another adds up (`Counts.andThen`), so it is
enough to look at the few places where a request is opened, closed or turned down, or where an
answer is late. -/

namespace ContextBroker

namespace Effect

/-- Whether a context is delivered. -/
def isSuccess : Effect → Bool
  | .deliver _ _ (.context ..) => true
  | _ => false

/-- Whether a failure is delivered. -/
def isFailure : Effect → Bool
  | .deliver _ _ (.failure _) => true
  | _ => false

/-- Whether it is delivered that a request timed out. -/
def isTimeout : Effect → Bool
  | .deliver _ _ (.failure .timeout) => true
  | _ => false

/-- Whether something is delivered. -/
def isDelivery : Effect → Bool
  | .deliver .. => true
  | _ => false

end Effect

/-- Whether the task is an answer with the token of no open request. -/
def Task.isLate (w : Worker) : Task → Bool
  | .respond _ _ t | .unavailable _ t _ => !w.requests.contains t
  | _ => false

/-- Whether the turn takes an answer with the token of no open request. -/
def Turn.isLate (w : Worker) : Turn → Bool
  | .task _ x => x.isLate w
  | .shutdown .. | .deserted => false

namespace Worker

/-- The step `s` counts what it delivers, and `late` answers that come too late; each of the
    requests that were open before it, or are among the `opened` ones that it takes in, is open
    after it or delivered. -/
structure Counts (w : Worker) (opened late : Nat) (s : Step) : Prop where
  completed : s.1.counters.completed = w.counters.completed + s.2.countP (·.isSuccess)
  failed : s.1.counters.failed = w.counters.failed + s.2.countP (·.isFailure)
  timeouts : s.1.counters.timeouts = w.counters.timeouts + s.2.countP (·.isTimeout)
  settled : s.2.countP (·.isSuccess) + s.2.countP (·.isFailure) + s.1.requests.size =
    w.requests.size + opened
  stale : s.1.counters.stale = w.counters.stale + late
  tasks : s.1.counters.tasks = w.counters.tasks

/-- Effects that deliver nothing count for nothing. -/
theorem countP_quiet {es : List Effect} (h : ∀ e ∈ es, e.isDelivery = false) :
    es.countP (·.isSuccess) = 0 ∧ es.countP (·.isFailure) = 0 ∧ es.countP (·.isTimeout) = 0 := by
  refine ⟨?_, ?_, ?_⟩ <;>
  · rw [List.countP_eq_zero]
    intro e he
    have hq := h e he
    cases e <;> simp [Effect.isDelivery, Effect.isSuccess, Effect.isFailure, Effect.isTimeout]
      at hq ⊢

theorem quiet_replies {es : List Effect} (h : Replies es) : ∀ e ∈ es, e.isDelivery = false := by
  intro e he
  obtain ⟨ticket, reply, rfl⟩ := h e he
  rfl

namespace Counts

variable {w w' : Worker} {s : Step} {opened opened' late late' : Nat}

/-- A step that delivers nothing and leaves the table and the counters as they are. -/
theorem quiet (hcounters : s.1.counters = w.counters) (hrequests : s.1.requests = w.requests)
    (heffects : ∀ e ∈ s.2, e.isDelivery = false) : Counts w 0 0 s := by
  obtain ⟨hsuccess, hfailure, htimeout⟩ := countP_quiet heffects
  refine ⟨?_, ?_, ?_, ?_, ?_, ?_⟩ <;>
    simp only [hcounters, hrequests, hsuccess, hfailure, htimeout, Nat.add_zero, Nat.zero_add]

theorem nothing (w : Worker) : Counts w 0 0 (w, []) := quiet rfl rfl (by simp)

/-- What was done to the table beforehand is counted in. -/
theorem of_before (h : Counts w' opened late s) (hcounters : w'.counters = w.counters)
    (hsize : w'.requests.size + opened = w.requests.size + opened') : Counts w opened' late s := by
  obtain ⟨hcompleted, hfailed, htimeouts, hsettled, hstale, htasks⟩ := h
  rw [hcounters] at hcompleted hfailed htimeouts hstale htasks
  exact ⟨hcompleted, hfailed, htimeouts, hsettled.trans hsize, hstale, htasks⟩

/-- One step after another. -/
theorem andThen (h : Counts w opened late s) (next : Worker → Step)
    (h' : Counts s.1 opened' late' (next s.1)) :
    Counts w (opened + opened') (late + late') (Worker.andThen s next) := by
  obtain ⟨hcompleted, hfailed, htimeouts, hsettled, hstale, htasks⟩ := h
  obtain ⟨hcompleted', hfailed', htimeouts', hsettled', hstale', htasks'⟩ := h'
  refine ⟨?_, ?_, ?_, ?_, ?_, htasks'.trans htasks⟩ <;>
    simp only [Worker.andThen, List.countP_append] <;> omega

/-- A reply that comes after a step counts for nothing. -/
theorem replies {es : List Effect} (h : Counts w opened late s) (hes : Replies es) :
    Counts w opened late (s.1, s.2 ++ es) :=
  h.andThen (fun w => (w, es)) (quiet rfl rfl (quiet_replies hes))

/-- A step for each of a list of tokens, when each of them opens nothing. -/
theorem each {step : Worker → Token → Step} (h : ∀ w t, Counts w 0 0 (step w t)) (w : Worker)
    (ts : List Token) : Counts w 0 0 (w.each ts step) := by
  induction ts using List.reverseRecOn with
  | nil => exact nothing w
  | append_singleton ts t ih =>
    rw [each_append_singleton]
    exact ih.andThen (step · t) (h _ t)

end Counts

/-! ## Closing and answering -/

end Worker

/-- The counters once an outcome is counted. -/
def Counters.delivered (c : Counters) : Outcome → Counters
  | .context .. => { c with completed := c.completed + 1 }
  | .failure .timeout => { c with failed := c.failed + 1, timeouts := c.timeouts + 1 }
  | .failure _ => { c with failed := c.failed + 1 }

namespace Worker

section

variable {w : Worker} {t : Token} {r : Request}

/-- Closing a request takes it from the table and counts its outcome. -/
theorem counts_close (hr : w.requests.get? t = some r) (o : Outcome) :
    Counts w 0 0 ({ w with
        requests := w.requests.erase t
        tokens := w.tokens.release t
        counters := w.counters.delivered o },
      r.timer.toList.map .cancelTimer ++ [.deliver r.requester t o]) := by
  have hsize : (w.requests.erase t).size + 1 = w.requests.size := by
    have h := w.requests.size_erase t
    rwa [SortedMap.contains_eq_isSome, hr] at h
  have hquiet : ∀ e ∈ r.timer.toList.map Effect.cancelTimer, e.isDelivery = false := by
    intro e he
    obtain ⟨id, -, rfl⟩ := List.mem_map.1 he
    rfl
  obtain ⟨hsuccess, hfailure, htimeout⟩ := countP_quiet hquiet
  generalize r.timer.toList.map Effect.cancelTimer = cancels at *
  rcases o with ⟨endpoint, context⟩ | (_ | _ | _) <;>
  · refine ⟨?_, ?_, ?_, ?_, rfl, rfl⟩ <;>
      simp only [List.countP_append, List.countP_singleton, hsuccess, hfailure, htimeout] <;>
      simp [Counters.delivered, Effect.isSuccess, Effect.isFailure, Effect.isTimeout, ← hsize,
        Nat.add_comm]

theorem counts_succeed (w : Worker) (t : Token) : Counts w 0 0 (w.succeed t) := by
  cases hr : w.requests.get? t with
  | none =>
    rw [succeed, hr]
    exact .nothing w
  | some r =>
    rw [succeed_eq hr]
    exact counts_close hr (.context ..)

/-- A failure is counted, unless it is a timeout, which is counted twice. -/
theorem counts_fail (w : Worker) (t : Token) {error : RequestError} (he : error ≠ .timeout) :
    Counts w 0 0 (w.fail t error) := by
  cases hr : w.requests.get? t with
  | none =>
    rw [fail, hr]
    exact .nothing w
  | some r =>
    rw [fail_eq hr]
    cases error with
    | timeout => exact absurd rfl he
    | endpointUnreachable => exact counts_close hr (.failure .endpointUnreachable)
    | cancelled => exact counts_close hr (.failure .cancelled)

theorem counts_timeOut (w : Worker) (t : Token) (generation : Nat) :
    Counts w 0 0 (w.timeOut t generation) := by
  unfold timeOut
  cases hr : w.requests.get? t with
  | none => exact .nothing w
  | some r =>
    by_cases hg : r.generation = generation
    · simp only [hg, if_true]
      rw [fail_eq (w := { w with counters.timeouts := w.counters.timeouts + 1 }) hr]
      exact counts_close hr (.failure .timeout)
    · simp only [hg, if_false]
      exact .nothing w

theorem counts_answer (w : Worker) (i : Identity) (available : Bool) (t : Token) :
    Counts w 0 0 (w.answer i available t) := by
  unfold answer
  cases hr : w.requests.get? t with
  | none => exact .nothing w
  | some r =>
    have hsize : (w.requests.insert t (r.resolve i available)).size = w.requests.size := by
      simp [SortedMap.size_insert, SortedMap.contains_eq_isSome, hr]
    by_cases hi : r.awaits i = true
    · simp only [hi, if_true]
      split
      · exact (counts_succeed _ t).of_before rfl hsize
      · exact (Counts.nothing _).of_before rfl hsize
    · simp only [hi, Bool.false_eq_true, if_false]
      exact .nothing w

theorem counts_answerEach (w : Worker) (ts : List Token) (i : Identity) (available : Bool) :
    Counts w 0 0 (w.answerEach ts i available) :=
  Counts.each (fun w t => counts_answer w i available t) w ts

theorem counts_satisfy (w : Worker) (i : Identity) (token : Option Token) :
    Counts w 0 0 (w.satisfy i token) := by
  cases token with
  | none => exact counts_answerEach w _ i true
  | some t => exact counts_answer w i true t

end

/-! ## Tasks -/

section

variable {w : Worker}

/-- A call that may be turned down counts as much as what it comes to. -/
theorem counts_replyTo (ticket : Ticket) {r : Except CallError Step}
    (h : ∀ s, r = .ok s → Counts w 0 0 s) : Counts w 0 0 (w.replyTo ticket r) := by
  cases r with
  | error e => exact .quiet rfl rfl (quiet_replies (replies_singleton _ _))
  | ok s => exact (h s rfl).replies (replies_singleton _ _)

theorem counts_unregister {i : Identity} {s : Step} (h : w.unregister i = .ok s) :
    Counts w 0 0 s := by
  unfold unregister at h
  cases hu : w.store.unregister i with
  | error e => simp [hu] at h
  | ok x =>
    simp only [hu, Except.ok.injEq] at h
    rw [← h]
    exact (counts_answerEach { w with store := x.1 } _ i false).of_before rfl rfl

theorem counts_pushState {i : Identity} {sample : Sample} {s : Step}
    (h : w.pushState i sample = .ok s) : Counts w 0 0 s := by
  unfold pushState at h
  cases hp : w.store.push i sample with
  | error e => simp [hp] at h
  | ok store =>
    simp only [hp, Except.ok.injEq] at h
    rw [← h]
    exact (counts_satisfy { w with store } i none).of_before rfl rfl

theorem counts_setState {now : Timestamp} {i : Identity} {payload : String}
    {policy : RefreshPolicy} {token : Option Token} {s : Step}
    (h : w.setState now i payload policy token = .ok s) : Counts w 0 0 s := by
  unfold setState at h
  split at h
  · simp at h
  · split at h
    · simp at h
    · cases hp : w.store.pushUnder i payload policy now with
      | error e => simp [hp] at h
      | ok store =>
        simp only [hp, Except.ok.injEq] at h
        rw [← h]
        exact (counts_satisfy { w with store } i token).of_before rfl rfl

/-- An answer with the token of no open request is late. -/
theorem counts_late (w : Worker) (store : Store) :
    Counts w 0 1 ({ w with store }.countStale, []) := by
  refine ⟨rfl, rfl, rfl, ?_, rfl, rfl⟩
  exact Nat.zero_add _

theorem counts_respond (w : Worker) (i : Identity) (sample : Sample) (t : Token) :
    Counts w 0 (if (Task.respond i sample t).isLate w then 1 else 0) (w.respond i sample t) := by
  simp only [respond, Task.isLate]
  rw [cache_eq w i sample]
  by_cases ht : w.requests.contains t = true
  · simp only [ht, Bool.not_true, Bool.false_eq_true, if_false, if_true]
    exact (counts_answer _ i true t).of_before rfl rfl
  · simp only [ht, Bool.not_false, Bool.false_eq_true, if_false, if_true]
    exact counts_late w _

theorem counts_unavailable (w : Worker) (i : Identity) (t : Token) (unreachable : Bool) :
    Counts w 0 (if (Task.unavailable i t unreachable).isLate w then 1 else 0)
      (w.unavailable i t unreachable) := by
  simp only [unavailable, Task.isLate]
  by_cases ht : w.requests.contains t = true
  · simp only [ht, Bool.not_true, Bool.false_eq_true, if_false]
    split
    · exact counts_fail w t (by simp)
    · exact counts_answer w i false t
  · simp only [ht, Bool.not_false, if_true]
    exact counts_late w w.store

/-- A new request is in the table, or delivered at once. -/
theorem counts_getContext (w : Worker) (retrievable : Provider → Bool) {t : Token}
    (requester : Requester) (endpoint : String) (timeout : Nat)
    (ht : w.requests.get? t = none) :
    Counts w 1 0 (w.getContext retrievable t requester endpoint timeout) := by
  have hsize : ∀ r : Request, (w.requests.insert t r).size = w.requests.size + 1 := by
    intro r
    simp [SortedMap.size_insert, SortedMap.contains_eq_isSome, ht]
  simp only [getContext]
  split
  · exact (counts_succeed _ t).of_before rfl (hsize _)
  · have hquiet : ∀ (w' : Worker) (es : List Effect), (∀ e ∈ es, e.isDelivery = false) →
        Counts w' 0 0 (w', es) := fun w' es => Counts.quiet (s := (w', es)) rfl rfl
    exact (hquiet _ _ (by simp [Effect.isDelivery])).of_before rfl (hsize _)

theorem counts_handle {around : Surroundings} {task : Task} {s : Step}
    (h : w.handle around task = .ok s) :
    Counts w (requested [task]).length (if task.isLate w then 1 else 0) s := by
  cases task with
  | register | read | metrics =>
    obtain rfl := Except.ok.inj h
    exact .quiet rfl rfl (quiet_replies (replies_singleton _ _))
  | shutdown ticket =>
    obtain rfl := Except.ok.inj h
    exact .quiet rfl rfl (quiet_replies (replies_map _ _))
  | report i sample =>
    obtain rfl := Except.ok.inj h
    have hcache := cache_eq w i sample
    exact .quiet (by rw [hcache]) (by rw [hcache]) (by simp)
  | unregister i ticket =>
    obtain rfl := Except.ok.inj h
    exact counts_replyTo ticket fun s hs => counts_unregister hs
  | setState i payload policy token ticket =>
    obtain rfl := Except.ok.inj h
    exact counts_replyTo ticket fun s hs => counts_setState hs
  | pushState i sample ticket =>
    obtain rfl := Except.ok.inj h
    exact counts_replyTo ticket fun s hs => counts_pushState hs
  | respond i sample t =>
    obtain rfl := Except.ok.inj h
    exact counts_respond w i sample t
  | unavailable i t unreachable =>
    obtain rfl := Except.ok.inj h
    exact counts_unavailable w i t unreachable
  | timeout t generation =>
    obtain rfl := Except.ok.inj h
    exact counts_timeOut w t generation
  | getContext t requester endpoint timeout =>
    simp only [handle] at h
    split at h
    · cases h
    · rename_i hc
      obtain rfl := Except.ok.inj h
      rw [SortedMap.contains_eq_isSome, Option.not_isSome_iff_eq_none] at hc
      exact counts_getContext w around.retrievable requester endpoint timeout hc

/-! ## The end of the work -/

/-- A request that is turned down is delivered without having been in the table. -/
theorem counts_reject (w : Worker) (task : Task) :
    Counts w (requested [task]).length 0 (w.reject task) := by
  cases task with
  | getContext t requester endpoint timeout =>
    refine ⟨rfl, rfl, rfl, ?_, rfl, rfl⟩
    show 0 + 1 + w.requests.size = w.requests.size + 1
    omega
  | register | unregister | setState | pushState | read | metrics =>
    exact .quiet rfl rfl (quiet_replies (replies_singleton _ _))
  | shutdown ticket => exact .quiet rfl rfl (quiet_replies (replies_map _ _))
  | report | respond | unavailable | timeout => exact .nothing w

theorem counts_drain (w : Worker) (queue : List Task) :
    Counts w (requested queue).length 0 (w.drain queue) := by
  induction queue using List.reverseRecOn with
  | nil => exact .nothing w
  | append_singleton queue task ih =>
    rw [drain_append_singleton, requested_append, List.length_append]
    exact ih.andThen (reject · task) (counts_reject _ task)

theorem counts_stop (w : Worker) (rest : List Task) (ticket : Option Ticket) :
    Counts w (requested rest).length 0 (w.stop rest ticket) := by
  have hcancel : Counts w 0 0 (w.cancelEach w.requests.keys) :=
    Counts.each (fun w t => counts_fail w t (by simp)) w _
  have hdrain := hcancel.andThen (drain · rest) (counts_drain _ rest)
  rw [Nat.zero_add] at hdrain
  exact hdrain.replies (replies_map _ _)

/-- The worker once the task is counted that the turn begins with, if there is one. -/
def begin (w : Worker) : Turn → Worker
  | .deserted => w
  | .task .. | .shutdown .. => w.countTask

/-- **What a turn counts**: everything that it delivers, and its task if that is a late answer. -/
theorem counts_turn {turn : Turn} {s : Step} (h : w.turn turn = .ok s) :
    Counts (w.begin turn) turn.requests.length (if turn.isLate w then 1 else 0) s := by
  cases turn with
  | task around task => exact counts_handle h
  | shutdown ticket rest =>
    obtain rfl := Except.ok.inj h
    exact counts_stop _ rest ticket
  | deserted =>
    obtain rfl := Except.ok.inj h
    exact counts_stop w [] none

end

end Worker

end ContextBroker
