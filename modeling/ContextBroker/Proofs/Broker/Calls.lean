import ContextBroker.Broker

set_option autoImplicit false

/-! # Calls in two parts

A call first checks whether the broker shuts down, and a request is numbered; then it posts its
task. Other calls, timeouts and turns of the worker can come between the two: a task may be posted
after the broker was told to shut down, and even behind the task that ends the work. A call that
passed its check and has posted nothing yet is `Underway`. A call that nothing comes between is the
two parts in a row (`Broker.call_eq`). -/

namespace ContextBroker

/-- Who asks for a context with a call. -/
def Call.requester? : Call → Option Requester
  | getContext requester _ _ | getDefaultContext requester => some requester
  | _ => none

/-- The response to a call that posts nothing. -/
def Call.refusal : Call → Response
  | respond .. | unavailable .. | shutdown => .done
  | _ => .refused .shuttingDown

/-- A call that passed its check and has still to post its task. -/
structure Underway where
  ticket : Ticket
  call : Call
  /-- The token of a request. -/
  token : Token := Token.noRequest
  deriving DecidableEq, Inhabited

/-- The request that is underway with a call, by its token. -/
def Underway.request? (u : Underway) : Option (Token × Requester) :=
  u.call.requester?.map fun requester => (u.token, requester)

namespace Broker

/-- The task of a call. -/
def task (b : Broker) (u : Underway) : Task :=
  match u.call with
  | .register i provider kind => .register (b.resolve i) provider kind u.ticket
  | .unregister i => .unregister (b.resolve i) u.ticket
  | .setState i payload policy token =>
    .setState (b.resolve i) payload policy (token.filter (· ≠ Token.noRequest)) u.ticket
  | .pushState i sample => .pushState (b.resolve i) sample u.ticket
  | .report i sample _ => .report (b.resolve i) sample
  | .getContext requester endpoint timeout =>
    .getContext u.token requester (b.resolveEndpoint endpoint) timeout
  | .getDefaultContext requester =>
    .getContext u.token requester (b.resolveEndpoint "") b.config.timeout.toNat
  | .respond i sample token => .respond (b.resolve i) sample token
  | .unavailable i token unreachable => .unavailable (b.resolve i) token unreachable
  | .read endpoint => .read (b.resolveEndpoint endpoint) u.ticket
  | .metrics => .metrics u.ticket
  | .shutdown => .shutdown (some u.ticket)

/-- The response to a call whose task was posted. -/
def accepted (b : Broker) (u : Underway) : Response :=
  match u.call with
  | .report i sample cause => .announced ⟨b.resolve i, sample, cause⟩ b.hub.observers
  | .getContext .. | .getDefaultContext _ => .requested u.token
  | .respond .. | .unavailable .. => .done
  | _ => .awaited

/-- The first part of a call: the check, and the number of a request. The call that ends the work
    has every later one turned down from here on. -/
def begin (b : Broker) (ticket : Ticket) (call : Call) : Broker × Except Response Underway :=
  if b.shuttingDown then (b, .error call.refusal)
  else
    match call.requester? with
    | some _ =>
      match b.queue.worker.tokens.allocate? with
      | none => (b, .error .exhausted)
      | some (token, tokens) =>
        ({ b with queue.worker.tokens := tokens }, .ok ⟨ticket, call, token⟩)
    | none =>
      ({ b with shuttingDown := call = .shutdown }, .ok { ticket, call })

theorem call_of_begin {b b' : Broker} {ticket : Ticket} {c : Call} {u : Underway}
    (h : b.begin ticket c = (b', .ok u)) : u.call = c := by
  unfold begin at h
  split at h
  · simp at h
  · split at h
    · split at h
      · simp at h
      · obtain ⟨-, hu⟩ := Prod.mk.inj h
        rw [← Except.ok.inj hu]
    · obtain ⟨-, hu⟩ := Prod.mk.inj h
      rw [← Except.ok.inj hu]

/-- Ends a call without posting its task. The token of a request is free again. -/
def giveUp (b : Broker) (u : Underway) : Broker × Response :=
  (if u.call.requester?.isSome then
    { b with queue.worker.tokens := b.queue.worker.tokens.release u.token } else b,
    u.call.refusal)

/-- The second part of a call: its task is posted, if the queue is still open. -/
def finish (b : Broker) (u : Underway) : Broker × Response :=
  match b.queue.post? (b.task u) with
  | some queue => ({ b with queue }, b.accepted u)
  | none => b.giveUp u

section

variable {b : Broker}

theorem submit_eq (hs : b.shuttingDown = false) (task : Task) (response : Response) :
    b.submit task response = match b.queue.post? task with
      | some queue => ({ b with queue }, response)
      | none => (b, .refused .shuttingDown) := by
  unfold submit post?
  rw [hs]
  cases b.queue.post? task <;> rfl

theorem notify_eq (hs : b.shuttingDown = false) (task : Task) :
    b.notify task = match b.queue.post? task with
      | some queue => ({ b with queue }, .done)
      | none => (b, .done) := by
  unfold notify post?
  rw [hs]
  cases b.queue.post? task <;> rfl

theorem request_eq (hs : b.shuttingDown = false) (requester : Requester) (endpoint : String)
    (timeout : Nat) :
    b.request requester endpoint timeout = match b.queue.worker.tokens.allocate? with
      | none => (b, .exhausted)
      | some (token, tokens) =>
        let queue := { b.queue with worker.tokens := tokens }
        match queue.post? (.getContext token requester (b.resolveEndpoint endpoint) timeout) with
        | some queue => ({ b with queue }, .requested token)
        | none =>
          ({ b with queue.worker.tokens := tokens.release token }, .refused .shuttingDown) := by
  unfold request post?
  simp only [hs, Bool.false_eq_true, if_false]
  cases b.queue.worker.tokens.allocate? with
  | none => rfl
  | some x =>
    obtain ⟨token, tokens⟩ := x
    simp only
    cases WorkQueue.post? { b.queue with worker.tokens := tokens }
      (.getContext token requester (b.resolveEndpoint endpoint) timeout) <;> rfl

/-- A broker that was not told to shut down begins other calls than requests and the one that ends
    the work without changing anything. -/
theorem begin_other (hs : b.shuttingDown = false) (ticket : Ticket) {c : Call}
    (hr : c.requester? = none) (hc : c ≠ .shutdown) :
    b.begin ticket c = (b, .ok { ticket, call := c }) := by
  simp only [begin, hs, Bool.false_eq_true, if_false, hr, hc, decide_false]
  rw [← hs]

/-- A call that nothing comes between. -/
theorem call_eq (b : Broker) (ticket : Ticket) (c : Call) :
    b.call ticket c = match b.begin ticket c with
      | (b, .error response) => (b, response)
      | (b, .ok u) => b.finish u := by
  by_cases hs : b.shuttingDown = true
  · cases c <;> simp [call, begin, submit, notify, post?, request, shutdown, hs, Call.refusal]
  · -- Only requests and the call that ends the work change the broker in their first part.
    have hs : b.shuttingDown = false := by simpa using hs
    cases c with
    | getContext requester endpoint timeout =>
      rw [call, request_eq hs, begin]
      simp only [hs, Call.requester?]
      cases b.queue.worker.tokens.allocate? <;> rfl
    | getDefaultContext requester =>
      rw [call, request_eq hs, begin]
      simp only [hs, Call.requester?]
      cases b.queue.worker.tokens.allocate? <;> rfl
    | shutdown =>
      rw [call, shutdown, begin]
      simp only [hs, Call.requester?]
      rfl
    | respond i sample token =>
      rw [call, notify_eq hs, begin_other hs ticket rfl (by simp)]
      rfl
    | unavailable i token unreachable =>
      rw [call, notify_eq hs, begin_other hs ticket rfl (by simp)]
      rfl
    | _ =>
      rw [call, submit_eq hs, begin_other hs ticket rfl (by simp)]
      rfl

end

end Broker

end ContextBroker
