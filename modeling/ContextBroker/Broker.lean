import ContextBroker.Config
import ContextBroker.Observer
import ContextBroker.WorkQueue

set_option autoImplicit false

/-! # The broker

A `Broker` is what callers hold: it resolves the endpoint they leave out, numbers their requests
and posts their calls as tasks. Once it is told to shut down it turns every call down. -/

namespace ContextBroker

/-- A broker with its queue, its observers and its settings. -/
structure Broker where
  config : Config := {}
  queue : WorkQueue := {}
  hub : Hub := {}
  /-- Whether it was told to shut down. -/
  shuttingDown : Bool := false
  deriving DecidableEq, Inhabited

/-- What callers ask of a broker. An empty endpoint, also within an identity, means the default
    one. -/
inductive Call
  | register (identity : Identity) (provider : Provider) (kind : Kind)
  | unregister (identity : Identity)
  /-- A push under a policy; without a token, or with the reserved one, it answers every request
      that waits for it. -/
  | setState (identity : Identity) (payload : String) (policy : RefreshPolicy)
      (token : Option Token)
  | pushState (identity : Identity) (sample : Sample)
  /-- A change to cache and to tell the observers of. -/
  | report (identity : Identity) (sample : Sample) (cause : Cause)
  | getContext (requester : Requester) (endpoint : String) (timeout : Nat)
  /-- The context of the default endpoint, within the configured timeout. -/
  | getDefaultContext (requester : Requester)
  | respond (identity : Identity) (sample : Sample) (token : Token)
  | unavailable (identity : Identity) (token : Token) (unreachable : Bool)
  | read (endpoint : String)
  | metrics
  | shutdown
  deriving DecidableEq, Inhabited

namespace Call

/-- Binds a provider that is asked for its state. -/
def addProvider (identity : Identity) (provider : Provider) : Call :=
  .register identity provider .pull

/-- Binds a provider that pushes its state, to begin with under the policy `always`; without a
    provider unbinds the identity. -/
def setProvider (identity : Identity) : Option Provider → Call
  | some provider => .register identity provider (.push .always)
  | none => .unregister identity

end Call

/-- What a call comes to at once. -/
inductive Response
  /-- The reply will come under the call's ticket. -/
  | awaited
  /-- Nothing more is to come. -/
  | done
  /-- The observers are to be told of the change, in this order. -/
  | announced (notice : Notice) (observers : List Observer)
  /-- The outcome will be delivered with this token. -/
  | requested (token : Token)
  | refused (error : CallError)
  /-- Every token is in flight. -/
  | exhausted
  deriving DecidableEq, Inhabited

namespace Broker

/-- The identity meant by `i`. -/
def resolve (b : Broker) (i : Identity) : Identity := i.resolve b.config.endpoint

/-- The endpoint meant by `e`. -/
def resolveEndpoint (b : Broker) (e : String) : String :=
  Identity.resolveEndpoint b.config.endpoint e

/-- Posts a task, unless the broker shuts down or has ended. -/
def post? (b : Broker) (task : Task) : Option Broker :=
  if b.shuttingDown then none else (b.queue.post? task).map fun queue => { b with queue }

/-- Posts a task, and responds with `response` or turns the call down. -/
def submit (b : Broker) (task : Task) (response : Response) : Broker × Response :=
  match b.post? task with
  | some b => (b, response)
  | none => (b, .refused .shuttingDown)

/-- Posts a task that nobody is told the fate of. -/
def notify (b : Broker) (task : Task) : Broker × Response := ((b.post? task).getD b, .done)

/-- Numbers a request and posts it. The token of a request that cannot be posted is free again. -/
def request (b : Broker) (requester : Requester) (endpoint : String) (timeout : Nat) :
    Broker × Response :=
  if b.shuttingDown then (b, .refused .shuttingDown)
  else
    match b.queue.worker.tokens.allocate? with
    | none => (b, .exhausted)
    | some (token, tokens) =>
      let numbered := { b with queue.worker.tokens := tokens }
      let task := .getContext token requester (b.resolveEndpoint endpoint) timeout
      match numbered.post? task with
      | some b => (b, .requested token)
      | none =>
        ({ b with queue.worker.tokens := tokens.release token }, .refused .shuttingDown)

/-- Ends the work once the tasks posted so far are done. A second call has no effect. -/
def shutdown (b : Broker) (ticket : Ticket) : Broker × Response :=
  if b.shuttingDown then (b, .done)
  else
    match b.queue.post? (.shutdown (some ticket)) with
    | some queue => ({ b with queue, shuttingDown := true }, .awaited)
    | none => ({ b with shuttingDown := true }, .done)

/-- Takes a call. What it has to wait for comes under `ticket`. -/
def call (b : Broker) (ticket : Ticket) : Call → Broker × Response
  | .register i provider kind => b.submit (.register (b.resolve i) provider kind ticket) .awaited
  | .unregister i => b.submit (.unregister (b.resolve i) ticket) .awaited
  | .setState i payload policy token =>
    let token := token.filter (· ≠ Token.noRequest)
    b.submit (.setState (b.resolve i) payload policy token ticket) .awaited
  | .pushState i sample => b.submit (.pushState (b.resolve i) sample ticket) .awaited
  | .report i sample cause =>
    let i := b.resolve i
    b.submit (.report i sample) (.announced ⟨i, sample, cause⟩ b.hub.observers)
  | .getContext requester endpoint timeout => b.request requester endpoint timeout
  | .getDefaultContext requester => b.request requester "" b.config.timeout.toNat
  | .respond i sample token => b.notify (.respond (b.resolve i) sample token)
  | .unavailable i token unreachable =>
    b.notify (.unavailable (b.resolve i) token unreachable)
  | .read endpoint => b.submit (.read (b.resolveEndpoint endpoint) ticket) .awaited
  | .metrics => b.submit (.metrics ticket) .awaited
  | .shutdown => b.shutdown ticket

/-- Puts a timeout that elapsed into the queue. This is not a call: it is also taken while the
    broker shuts down, and dropped once nobody holds the broker. -/
def elapse (b : Broker) (token : Token) (generation : Nat) : Broker :=
  { b with queue := b.queue.post (.timeout token generation) }

/-- One more holds the broker. -/
def share (b : Broker) : Broker := { b with queue.senders := b.queue.senders + 1 }

/-- One less holds the broker. -/
def drop (b : Broker) : Broker := { b with queue.senders := b.queue.senders - 1 }

/-- The worker takes its next task; `none` when it has nothing to do. -/
def work? (b : Broker) (around : Surroundings) : Option (Broker × List Effect) :=
  (b.queue.take? around).map fun (queue, effects) => ({ b with queue }, effects)

end Broker

end ContextBroker
