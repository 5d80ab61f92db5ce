import ContextBroker.Request
import ContextBroker.Store

set_option autoImplicit false

/-! # Tasks

A `Task` is a piece of work for the worker. Tasks wait in a queue and are taken in order. What the
worker asks of its surroundings while it handles one is an `Effect`. -/

namespace ContextBroker

/-- Whoever waits for a task's reply, by number. -/
abbrev Ticket := Nat

/-- Work for the worker. -/
inductive Task
  | register (identity : Identity) (provider : Provider) (kind : Kind) (ticket : Ticket)
  | unregister (identity : Identity) (ticket : Ticket)
  /-- A push under a policy; with a token it answers that request alone. -/
  | setState (identity : Identity) (payload : String) (policy : RefreshPolicy)
      (token : Option Token) (ticket : Ticket)
  | pushState (identity : Identity) (sample : Sample) (ticket : Ticket)
  /-- A change to cache, which answers no request. -/
  | report (identity : Identity) (sample : Sample)
  | getContext (token : Token) (requester : Requester) (endpoint : String) (timeout : Nat)
  | respond (identity : Identity) (sample : Sample) (token : Token)
  | unavailable (identity : Identity) (token : Token) (unreachable : Bool)
  /-- A timeout elapsed; the generation tells for which request it was set. -/
  | timeout (token : Token) (generation : Nat)
  | read (endpoint : String) (ticket : Ticket)
  | metrics (ticket : Ticket)
  | shutdown (ticket : Option Ticket)
  deriving DecidableEq, Inhabited

/-- The name of a task's kind. -/
def Task.name : Task → String
  | register .. => "register"
  | unregister .. => "unregister"
  | setState .. => "set_state"
  | pushState .. => "push_state"
  | report .. => "report_state_change"
  | getContext .. => "get_context"
  | respond .. => "state_response"
  | unavailable .. => "state_unavailable"
  | timeout .. => "timeout"
  | read .. => "read_context"
  | metrics .. => "get_metrics"
  | shutdown .. => "shutdown"

/-- The ticket under which a task is answered; `none` when nobody waits for an answer. -/
def Task.ticket? : Task → Option Ticket
  | register _ _ _ ticket | unregister _ ticket | setState _ _ _ _ ticket | pushState _ _ ticket
  | read _ ticket | metrics ticket => some ticket
  | shutdown ticket => ticket
  | report .. | getContext .. | respond .. | unavailable .. | timeout .. => none

/-- What the worker has counted. -/
structure Counters where
  completed : Nat := 0
  failed : Nat := 0
  timeouts : Nat := 0
  /-- Answers whose token had no open request. -/
  stale : Nat := 0
  /-- Tasks taken from the queue. -/
  tasks : Nat := 0
  deriving DecidableEq, Inhabited

/-- A snapshot of the worker. -/
structure Metrics where
  /-- Bindings in the store. -/
  registered : Nat
  /-- Open requests. -/
  pending : Nat
  counters : Counters
  deriving DecidableEq, Inhabited

/-- What a ticket is answered with. -/
inductive Reply
  | done (result : Except CallError Unit)
  | context (result : Except CallError Context)
  | metrics (metrics : Metrics)
  | stopped
  deriving Inhabited

/-- What a caller is told whose task was lost before it was answered. -/
def Reply.lost : Reply := .done (.error .shuttingDown)

/-- What the worker asks of its surroundings. -/
inductive Effect
  | reply (ticket : Ticket) (reply : Reply)
  /-- Ask the providers of the targets, in order. -/
  | poll (token : Token) (targets : List PollTarget)
  | deliver (requester : Requester) (token : Token) (outcome : Outcome)
  /-- Set a timeout after `delay` milliseconds. -/
  | setTimer (timer : TimerId) (delay : Nat) (token : Token) (generation : Nat)
  | cancelTimer (timer : TimerId)
  deriving Inhabited

end ContextBroker
