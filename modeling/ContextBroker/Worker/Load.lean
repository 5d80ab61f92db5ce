import ContextBroker.Sorted.Total
import ContextBroker.WorkQueue

set_option autoImplicit false

/-! # How much a task sets off

A task may close many requests at once, and each of them asks for a delivery. The *load* of a step
counts the open requests it leaves behind and what it asks for. Only a new request adds to it, and
no more than its task weighs; so the weight of a queue falls whenever the worker takes something,
by more than what is then asked of others (`WorkQueue.weight_take?_lt`). -/

namespace ContextBroker

/-- How much an effect leaves for others to do. A timeout is set, sleeps, wakes, and is posted. -/
def Effect.weight : Effect → Nat
  | .poll .. | .deliver .. => 1
  | .setTimer .. => 5
  | .reply .. | .cancelTimer .. => 0

/-- How much a task can set off. -/
def Task.weight : Task → Nat
  | .getContext .. => 8
  | _ => 1

theorem Task.weight_pos (task : Task) : 0 < task.weight := by
  cases task <;> simp [weight]

theorem Task.weight_le (task : Task) : task.weight ≤ 8 := by
  cases task <;> simp [weight]

/-- How much some effects leave for others to do. -/
def effectsWeight (effects : List Effect) : Nat := tally Effect.weight effects

@[simp] theorem effectsWeight_nil : effectsWeight [] = 0 := rfl

@[simp] theorem effectsWeight_cons (e : Effect) (es : List Effect) :
    effectsWeight (e :: es) = e.weight + effectsWeight es := by
  simp [effectsWeight]

@[simp] theorem effectsWeight_append (es fs : List Effect) :
    effectsWeight (es ++ fs) = effectsWeight es + effectsWeight fs := by
  simp [effectsWeight]

theorem effectsWeight_map_cancelTimer (ids : List TimerId) :
    effectsWeight (ids.map .cancelTimer) = 0 := by
  rw [effectsWeight, tally_map]
  exact tally_eq_zero (fun _ => rfl) ids

theorem effectsWeight_map_reply (tickets : List Ticket) (r : Reply) :
    effectsWeight (tickets.map (.reply · r)) = 0 := by
  rw [effectsWeight, tally_map]
  exact tally_eq_zero (fun _ => rfl) tickets

namespace Worker

/-- The requests a step leaves open, and what it leaves for others to do. -/
def load (s : Step) : Nat := s.1.requests.size + effectsWeight s.2

@[simp] theorem load_none (w : Worker) : load (w, []) = w.requests.size := rfl

theorem load_andThen_le {s : Step} {next : Worker → Step}
    (h : ∀ w, load (next w) ≤ w.requests.size) : load (andThen s next) ≤ load s := by
  have := h s.1
  simp only [load, andThen, effectsWeight_append] at this ⊢
  omega

theorem load_foldl_le {α : Type} (as : List α) {step : Worker → α → Step}
    (h : ∀ w a, load (step w a) ≤ w.requests.size) (s : Step) :
    load (as.foldl (fun s a => andThen s (step · a)) s) ≤ load s := by
  induction as generalizing s with
  | nil => exact Nat.le_refl _
  | cons a as ih => exact Nat.le_trans (ih _) (load_andThen_le fun w => h w a)

theorem load_each_le (w : Worker) (tokens : List Token) {step : Worker → Token → Step}
    (h : ∀ w t, load (step w t) ≤ w.requests.size) :
    load (w.each tokens step) ≤ w.requests.size :=
  load_foldl_le tokens h (w, [])

/-! ## Closing -/

theorem load_close {w : Worker} {t : Token} {r : Request} (h : w.requests.get? t = some r) :
    load (w.close t r) + 1 = w.requests.size := by
  have hs := w.requests.size_erase t
  rw [SortedMap.contains_eq_isSome, h] at hs
  simpa [load, close, effectsWeight_map_cancelTimer] using hs

theorem load_succeed_le (w : Worker) (t : Token) : load (w.succeed t) ≤ w.requests.size := by
  unfold succeed
  split
  · exact Nat.le_refl _
  · rename_i r h
    have := load_close h
    simp only [load, andThen, effectsWeight_append, effectsWeight_cons, effectsWeight_nil,
      Effect.weight] at this ⊢
    omega

theorem load_fail_le (w : Worker) (t : Token) (e : RequestError) :
    load (w.fail t e) ≤ w.requests.size := by
  unfold fail
  split
  · exact Nat.le_refl _
  · rename_i r h
    have := load_close h
    simp only [load, andThen, effectsWeight_append, effectsWeight_cons, effectsWeight_nil,
      Effect.weight] at this ⊢
    omega

theorem load_answer_le (w : Worker) (i : Identity) (available : Bool) (t : Token) :
    load (w.answer i available t) ≤ w.requests.size := by
  unfold answer
  split
  · exact Nat.le_refl _
  · rename_i r h
    have hs : (w.requests.insert t (r.resolve i available)).size = w.requests.size := by
      rw [SortedMap.size_insert, SortedMap.contains_eq_isSome, h]
      simp
    split
    · simp only
      split
      · exact Nat.le_trans (load_succeed_le _ _) (Nat.le_of_eq hs)
      · exact Nat.le_of_eq hs
    · exact Nat.le_refl _

theorem load_answerEach_le (w : Worker) (tokens : List Token) (i : Identity) (available : Bool) :
    load (w.answerEach tokens i available) ≤ w.requests.size :=
  load_each_le w tokens fun w t => load_answer_le w i available t

theorem load_satisfy_le (w : Worker) (i : Identity) (token : Option Token) :
    load (w.satisfy i token) ≤ w.requests.size := by
  unfold satisfy
  split
  · exact load_answer_le ..
  · exact load_answerEach_le ..

/-! ## The tasks -/

theorem load_replyTo_le (w : Worker) (ticket : Ticket) {r : Except CallError Step}
    (h : ∀ s, r = .ok s → load s ≤ w.requests.size) :
    load (w.replyTo ticket r) ≤ w.requests.size := by
  cases r with
  | ok s => simpa [replyTo, load, Effect.weight] using h s rfl
  | error e => simp [replyTo, load, Effect.weight]

theorem load_unregister_le {w : Worker} {i : Identity} {s : Step} (h : w.unregister i = .ok s) :
    load s ≤ w.requests.size := by
  unfold unregister at h
  split at h
  · simp at h
  · rw [← Except.ok.inj h]
    exact load_answerEach_le ..

theorem load_setState_le {w : Worker} {now : Timestamp} {i : Identity} {payload : String}
    {policy : RefreshPolicy} {token : Option Token} {s : Step}
    (h : w.setState now i payload policy token = .ok s) : load s ≤ w.requests.size := by
  unfold setState at h
  split at h
  · simp at h
  · split at h
    · simp at h
    · split at h
      · simp at h
      · rw [← Except.ok.inj h]
        exact load_satisfy_le ..

theorem load_pushState_le {w : Worker} {i : Identity} {sample : Sample} {s : Step}
    (h : w.pushState i sample = .ok s) : load s ≤ w.requests.size := by
  unfold pushState at h
  split at h
  · simp at h
  · rw [← Except.ok.inj h]
    exact load_satisfy_le ..

@[simp] theorem requests_cache (w : Worker) (i : Identity) (sample : Sample) :
    (w.cache i sample).requests = w.requests := by
  unfold cache
  split <;> rfl

theorem load_getContext_le (w : Worker) (retrievable : Provider → Bool) (t : Token)
    (requester : Requester) (endpoint : String) (timeout : Nat) :
    load (w.getContext retrievable t requester endpoint timeout) ≤ w.requests.size + 7 := by
  have insert_le : ∀ r : Request, (w.requests.insert t r).size ≤ w.requests.size + 1 := by
    intro r
    rw [SortedMap.size_insert]
    split <;> omega
  simp only [getContext]
  split
  · exact Nat.le_trans (load_succeed_le _ _) (Nat.le_trans (insert_le _) (by omega))
  · simp only [load, effectsWeight_cons, effectsWeight_nil, Effect.weight]
    exact Nat.le_trans (Nat.add_le_add_right (insert_le _) _) (by omega)

theorem load_respond_le (w : Worker) (i : Identity) (sample : Sample) (t : Token) :
    load (w.respond i sample t) ≤ w.requests.size := by
  simp only [respond]
  split
  · exact Nat.le_trans (load_answer_le ..) (by simp)
  · simp [countStale]

theorem load_unavailable_le (w : Worker) (i : Identity) (t : Token) (unreachable : Bool) :
    load (w.unavailable i t unreachable) ≤ w.requests.size := by
  unfold unavailable
  split
  · simp [countStale]
  · split
    · exact load_fail_le ..
    · exact load_answer_le ..

theorem load_timeOut_le (w : Worker) (t : Token) (generation : Nat) :
    load (w.timeOut t generation) ≤ w.requests.size := by
  unfold timeOut
  split
  · exact Nat.le_refl _
  · split
    · exact load_fail_le ..
    · exact Nat.le_refl _

/-- Handling a task weighs less than the task. -/
theorem load_handle_lt {w : Worker} {around : Surroundings} {task : Task} {s : Step}
    (h : w.handle around task = .ok s) : load s < w.requests.size + task.weight := by
  have lt_of_le {n m : Nat} (h : n ≤ m) : n < m + 1 := Nat.lt_succ_of_le h
  cases task <;> simp only [handle, Except.ok.injEq, Task.weight] at h ⊢
  case register => subst h; simp [load, Effect.weight]
  case unregister => subst h; exact lt_of_le (load_replyTo_le _ _ fun _ => load_unregister_le)
  case setState => subst h; exact lt_of_le (load_replyTo_le _ _ fun _ => load_setState_le)
  case pushState => subst h; exact lt_of_le (load_replyTo_le _ _ fun _ => load_pushState_le)
  case report => subst h; simp
  case getContext =>
    split at h
    · simp at h
    · rw [← Except.ok.inj h]
      exact lt_of_le (load_getContext_le ..)
  case respond => subst h; exact lt_of_le (load_respond_le ..)
  case unavailable => subst h; exact lt_of_le (load_unavailable_le ..)
  case timeout => subst h; exact lt_of_le (load_timeOut_le ..)
  case read => subst h; simp [load, Effect.weight]
  case metrics => subst h; simp [load, Effect.weight]
  case shutdown => subst h; simp [load, effectsWeight_map_reply]

/-! ## The end of the work -/

theorem load_reject_le (w : Worker) (task : Task) :
    load (w.reject task) ≤ w.requests.size + task.weight := by
  cases task <;> simp [reject, load, Effect.weight, Task.weight, effectsWeight_map_reply]

theorem load_drain_le (queue : List Task) (s : Step) :
    load (queue.foldl (fun s task => andThen s (reject · task)) s) ≤
      load s + tally Task.weight queue := by
  induction queue generalizing s with
  | nil => simp
  | cons task queue ih =>
    have h := s.1.load_reject_le task
    refine Nat.le_trans (ih _) ?_
    simp only [load, andThen, effectsWeight_append, tally_cons] at h ⊢
    omega

/-- Ending the work sets off no more than the queue weighs. -/
theorem load_stop_le (w : Worker) (queue : List Task) (ticket : Option Ticket) :
    load (w.stop queue ticket) ≤ w.requests.size + tally Task.weight queue := by
  have hc : load (w.cancelEach w.requests.keys) ≤ w.requests.size :=
    load_each_le w _ fun w t => load_fail_le w t .cancelled
  have hd := load_drain_le queue ((w.cancelEach w.requests.keys).1, [])
  simp only [stop, load, andThen, drain, effectsWeight_append, effectsWeight_map_reply,
    effectsWeight_nil] at hc hd ⊢
  omega

end Worker

namespace WorkQueue

/-- How much a queue has left to do. -/
def weight (q : WorkQueue) : Nat :=
  q.worker.requests.size + tally Task.weight q.tasks + if q.phase = .running then 1 else 0

/-- Posting adds no more than the task. -/
theorem weight_post_le (q : WorkQueue) (task : Task) :
    (q.post task).weight ≤ q.weight + task.weight := by
  unfold post post?
  split
  · simp [weight]
    omega
  · simp

/-- What the worker takes weighs more than what it leaves behind. -/
theorem weight_take?_lt {q q' : WorkQueue} {around : Surroundings} {effects : List Effect}
    (h : q.take? around = some (q', effects)) :
    q'.weight + effectsWeight effects < q.weight := by
  have stop_lt (w : Worker) (rest : List Task) (ticket : Option Ticket)
      (hp : q.phase = .running) (hw : w.requests = q.worker.requests)
      (hr : tally Task.weight rest ≤ tally Task.weight q.tasks)
      (h : q.stop w rest ticket = (q', effects)) : q'.weight + effectsWeight effects < q.weight := by
    have hl := w.load_stop_le rest ticket
    simp only [stop, Prod.mk.injEq] at h
    obtain ⟨rfl, rfl⟩ := h
    simp only [Worker.load, hw] at hl
    simp only [weight, hp, tally_nil]
    simp
    omega
  unfold take? at h
  split at h
  · simp at h
  · rename_i hp
    have hp : q.phase = .running := by simpa using hp
    split at h
    · split at h
      · exact stop_lt _ _ _ hp rfl (by simp) (Option.some.inj h)
      · simp at h
    · rename_i ticket rest ht
      exact stop_lt q.worker.countTask rest ticket hp rfl (by simp [ht]) (Option.some.inj h)
    · rename_i task rest _ ht
      split at h
      · rename_i worker effects' hh
        have hl := Worker.load_handle_lt hh
        simp only [Option.some.injEq, Prod.mk.injEq] at h
        obtain ⟨rfl, rfl⟩ := h
        simp only [Worker.load, Worker.countTask] at hl
        simp only [weight, hp, ht, tally_cons]
        omega
      · simp only [Option.some.injEq, Prod.mk.injEq] at h
        obtain ⟨rfl, rfl⟩ := h
        have := task.weight_pos
        simp only [weight, ht, tally_cons, tally_nil]
        simp
        omega

end WorkQueue

end ContextBroker
