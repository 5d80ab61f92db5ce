import ContextBroker.Task

set_option autoImplicit false

/-! # The worker

The `Worker` owns the store and the table of open requests and handles one task at a time. A task
changes the worker and yields the effects it asks for, in order; effects never change the worker,
so what it does is a function of the tasks it is given.

A request is closed in one place, `Worker.close`, which takes it from the table, frees its token
and cancels its timer, whatever decided it. -/

namespace ContextBroker

/-- The state that tasks work on. -/
structure Worker where
  store : Store := {}
  /-- The open requests. -/
  requests : SortedMap Token Request := ∅
  /-- The tokens in flight, shared with those who post requests. -/
  tokens : TokenAllocator := {}
  /-- The generation of the latest request. -/
  generation : Nat := 0
  /-- The number of timers set. -/
  timers : Nat := 0
  counters : Counters := {}
  deriving DecidableEq, Inhabited

/-- What a task finds around the worker: the clock's reading, and which providers report that their
    state can be retrieved. -/
structure Surroundings where
  now : Timestamp
  retrievable : Provider → Bool

/-- A task that breaks a rule of the queue. -/
inductive Fault
  /-- A request was posted with the token of an open one. -/
  | tokenInUse (token : Token)
  deriving DecidableEq, Inhabited

/-- The text of a fault. -/
def Fault.message : Fault → String
  | tokenInUse t => "request token " ++ toString t.toNat ++ " reused while still in flight"

namespace Worker

/-- A worker, and the effects it asked for on the way. -/
abbrev Step := Worker × List Effect

/-- One step after another. -/
def andThen (s : Step) (next : Worker → Step) : Step :=
  let s' := next s.1
  (s'.1, s.2 ++ s'.2)

/-- A step for each of a list of tokens, in order. -/
def each (w : Worker) (tokens : List Token) (step : Worker → Token → Step) : Step :=
  tokens.foldl (fun s t => andThen s (step · t)) (w, [])

/-- The counters, and the sizes they are reported with. -/
def metrics (w : Worker) : Metrics := ⟨w.store.size, w.requests.size, w.counters⟩

/-- The open requests that await `i`. -/
def awaiting (w : Worker) (i : Identity) : List Token :=
  (w.requests.filter fun _ r => r.awaits i).keys

/-! ## Closing a request -/

/-- Takes a request from the table, frees its token and cancels its timer. -/
def close (w : Worker) (t : Token) (r : Request) : Step :=
  ({ w with requests := w.requests.erase t, tokens := w.tokens.release t },
    r.timer.toList.map .cancelTimer)

/-- Closes a request with the context of its endpoint. -/
def succeed (w : Worker) (t : Token) : Step :=
  match w.requests.get? t with
  | none => (w, [])
  | some r =>
    andThen (w.close t r) fun w =>
      let context := w.store.aggregate r.endpoint r.refreshed r.unavailable
      ({ w with counters.completed := w.counters.completed + 1 },
        [.deliver r.requester t (.context r.endpoint context)])

/-- Closes a request with a failure. -/
def fail (w : Worker) (t : Token) (error : RequestError) : Step :=
  match w.requests.get? t with
  | none => (w, [])
  | some r =>
    andThen (w.close t r) fun w =>
      ({ w with counters.failed := w.counters.failed + 1 },
        [.deliver r.requester t (.failure error)])

/-! ## Answering requests -/

/-- Resolves `i` for one request, if that awaits it; the request ends with its last answer. -/
def answer (w : Worker) (i : Identity) (available : Bool) (t : Token) : Step :=
  match w.requests.get? t with
  | none => (w, [])
  | some r =>
    if r.awaits i then
      let r := r.resolve i available
      let w := { w with requests := w.requests.insert t r }
      if r.isComplete then w.succeed t else (w, [])
    else (w, [])

/-- Resolves `i` for the given requests, one after the other. -/
def answerEach (w : Worker) (tokens : List Token) (i : Identity) (available : Bool) : Step :=
  w.each tokens fun w t => w.answer i available t

/-- Resolves `i` for one request when a token is given, otherwise for all that await it. -/
def satisfy (w : Worker) (i : Identity) (token : Option Token) : Step :=
  match token with
  | some t => w.answer i true t
  | none => w.answerEach (w.awaiting i) i true

/-! ## The tasks -/

/-- Unbinds `i`; the requests that await it go on without it. -/
def unregister (w : Worker) (i : Identity) : Except CallError Step :=
  match w.store.unregister i with
  | .error e => .error e
  | .ok (store, _) => .ok ({ w with store }.answerEach (w.awaiting i) i false)

/-- Writes a payload under a policy, and answers requests with it. -/
def setState (w : Worker) (now : Timestamp) (i : Identity) (payload : String)
    (policy : RefreshPolicy) (token : Option Token) : Except CallError Step :=
  if !w.store.contains i then .error (.unbound i)
  else match token.filter fun t => !w.requests.contains t with
    | some t => .error (.staleToken t)
    | none =>
      match w.store.pushUnder i payload policy now with
      | .error e => .error e
      | .ok store => .ok ({ w with store }.satisfy i token)

/-- Writes a sample, and answers the requests that await it. -/
def pushState (w : Worker) (i : Identity) (sample : Sample) : Except CallError Step :=
  match w.store.push i sample with
  | .error e => .error e
  | .ok store => .ok ({ w with store }.satisfy i none)

/-- Caches a sample if its identity is bound. -/
def cache (w : Worker) (i : Identity) (sample : Sample) : Worker :=
  match w.store.push i sample with
  | .ok store => { w with store }
  | .error _ => w

/-- Opens a request: polls what its endpoint needs polled and waits for the answers, or ends it at
    once when there is nothing to poll. -/
def getContext (w : Worker) (retrievable : Provider → Bool) (t : Token) (requester : Requester)
    (endpoint : String) (timeout : Nat) : Step :=
  let (store, targets) := w.store.scatter retrievable endpoint
  let generation := w.generation + 1
  let request : Request :=
    { requester, endpoint, awaited := .ofList (targets.map (·.identity)), generation }
  if request.isComplete then
    { w with store, generation, requests := w.requests.insert t request }.succeed t
  else
    -- The request is in the table before anyone is polled: an answer given at once finds it.
    let timer := w.timers + 1
    let request := { request with timer := some timer }
    ({ w with store, generation, timers := timer, requests := w.requests.insert t request },
      [.setTimer timer timeout t generation, .poll t targets])

/-- Counts an answer that came too late, or for no request at all. -/
def countStale (w : Worker) : Worker :=
  { w with counters.stale := w.counters.stale + 1 }

/-- Caches an answer, and resolves it for its request. A late answer is still cached. -/
def respond (w : Worker) (i : Identity) (sample : Sample) (t : Token) : Step :=
  let w := w.cache i sample
  if w.requests.contains t then w.answer i true t else (w.countStale, [])

/-- Resolves an answer without a state. That an endpoint is unreachable ends the whole request. -/
def unavailable (w : Worker) (i : Identity) (t : Token) (unreachable : Bool) : Step :=
  if !w.requests.contains t then (w.countStale, [])
  else if unreachable then w.fail t .endpointUnreachable
  else w.answer i false t

/-- Ends a request whose own timeout elapsed; a timeout that was set for an earlier request with
    its token does nothing. -/
def timeOut (w : Worker) (t : Token) (generation : Nat) : Step :=
  match w.requests.get? t with
  | none => (w, [])
  | some r =>
    if r.generation = generation then
      { w with counters.timeouts := w.counters.timeouts + 1 }.fail t .timeout
    else (w, [])

/-- The step of a call that may be turned down, and its reply. -/
def replyTo (w : Worker) (ticket : Ticket) : Except CallError Step → Step
  | .ok s => (s.1, s.2 ++ [.reply ticket (.done (.ok ()))])
  | .error e => (w, [.reply ticket (.done (.error e))])

/-- Handles one task. -/
def handle (w : Worker) (around : Surroundings) : Task → Except Fault Step
  | .register i provider kind ticket =>
    .ok ({ w with store := (w.store.register i provider kind).1 },
      [.reply ticket (.done (.ok ()))])
  | .unregister i ticket => .ok (w.replyTo ticket (w.unregister i))
  | .setState i payload policy token ticket =>
    .ok (w.replyTo ticket (w.setState around.now i payload policy token))
  | .pushState i sample ticket => .ok (w.replyTo ticket (w.pushState i sample))
  | .report i sample => .ok (w.cache i sample, [])
  | .getContext t requester endpoint timeout =>
    -- Tokens are handed out by the allocator, so this cannot happen to callers of a broker.
    if w.requests.contains t then .error (.tokenInUse t)
    else .ok (w.getContext around.retrievable t requester endpoint timeout)
  | .respond i sample t => .ok (w.respond i sample t)
  | .unavailable i t unreachable => .ok (w.unavailable i t unreachable)
  | .timeout t generation => .ok (w.timeOut t generation)
  | .read endpoint ticket => .ok (w, [.reply ticket (.context (.ok (w.store.read endpoint)))])
  | .metrics ticket => .ok (w, [.reply ticket (.metrics w.metrics)])
  | .shutdown ticket => .ok (w, ticket.toList.map (.reply · .stopped))

/-! ## The end of the work -/

/-- Ends the given requests as cancelled, one after the other. -/
def cancelEach (w : Worker) (tokens : List Token) : Step :=
  w.each tokens fun w t => w.fail t .cancelled

/-- Turns down a task that was still queued when work ended. The caller of a request holds a token,
    so the request is delivered as cancelled. -/
def reject (w : Worker) : Task → Step
  | .getContext t requester _ _ =>
    ({ w with tokens := w.tokens.release t, counters.failed := w.counters.failed + 1 },
      [.deliver requester t (.failure .cancelled)])
  | .register _ _ _ ticket | .unregister _ ticket | .setState _ _ _ _ ticket
  | .pushState _ _ ticket => (w, [.reply ticket (.done (.error .shuttingDown))])
  | .read _ ticket => (w, [.reply ticket (.context (.error .shuttingDown))])
  | .metrics ticket => (w, [.reply ticket (.metrics w.metrics)])
  | .shutdown ticket => (w, ticket.toList.map (.reply · .stopped))
  | .report .. | .respond .. | .unavailable .. | .timeout .. => (w, [])

/-- Turns down what is left of the queue, in order. -/
def drain (w : Worker) (queue : List Task) : Step :=
  queue.foldl (fun s task => andThen s (reject · task)) (w, [])

/-- Ends the work: open requests are cancelled, the rest of the queue is turned down, and last the
    caller who asked for the end is answered. -/
def stop (w : Worker) (queue : List Task) (ticket : Option Ticket) : Step :=
  andThen (andThen (w.cancelEach w.requests.keys) (drain · queue)) fun w =>
    (w, ticket.toList.map (.reply · .stopped))

/-- Counts a task taken from the queue. -/
def countTask (w : Worker) : Worker :=
  { w with counters.tasks := w.counters.tasks + 1 }

end Worker

end ContextBroker
