import ContextBroker.Proofs.Worker.Settling

set_option autoImplicit false

/-! # Turns of the worker

A `Turn` is what the worker does next: it handles a task, or ends its work, because it is told to or
because nobody is left who could post. What a turn does to a request can be read off the turn
itself: `Turn.failure?` says when it makes the request fail, `Turn.resolution?` says which polled
identity it resolves for the request. `Turn.ruling` puts these together for every token, whether its
request is open already or arrives with the turn, and `Turn.Rules` says of a step that this is all
it does to requests and tokens. -/

namespace ContextBroker

/-- What the worker does next. -/
inductive Turn
  /-- It handles a task. -/
  | task (around : Surroundings) (task : Task)
  /-- It is told to end its work, with the rest of the queue still to be turned down. -/
  | shutdown (ticket : Option Ticket) (rest : List Task)
  /-- It ends its work because nobody can post any more. -/
  | deserted

/-- Whether the turn ends the work. -/
def Turn.isEnd : Turn → Bool
  | task .. => false
  | shutdown .. | deserted => true

/-- Takes a turn. -/
def Worker.turn (w : Worker) : Turn → Except Fault Worker.Step
  | .task around task => w.countTask.handle around task
  | .shutdown ticket rest => .ok (w.countTask.stop rest ticket)
  | .deserted => .ok (w.stop [] none)

/-! ## Requests among tasks -/

/-- The token and the requester of a request. -/
def Task.request? : Task → Option (Token × Requester)
  | .getContext t requester _ _ => some (t, requester)
  | _ => none

/-- The requests among tasks, in order. -/
def requested (tasks : List Task) : List (Token × Requester) := tasks.filterMap Task.request?

@[simp] theorem requested_nil : requested [] = [] := rfl

@[simp] theorem requested_append (l m : List Task) :
    requested (l ++ m) = requested l ++ requested m := List.filterMap_append

theorem requested_cons (task : Task) (l : List Task) :
    requested (task :: l) = task.request?.toList ++ requested l := by
  cases h : task.request? <;> simp [requested, h]

namespace Turn

/-- The requests that a turn takes from the queue. -/
def requests : Turn → List (Token × Requester)
  | task _ t => requested [t]
  | shutdown _ rest => requested rest
  | deserted => []

/-- The tokens of the requests that a turn takes from the queue. -/
def tokens (turn : Turn) : List Token := turn.requests.map (·.1)

/-- Every request that the turn takes has a token of its own, which no open request has. -/
structure Distinct (turn : Turn) (w : Worker) : Prop where
  nodup : turn.tokens.Nodup
  apart (t : Token) : t ∈ turn.tokens → w.requests.get? t = none

end Turn

/-! ## What a turn means for a request -/

/-- The identity that a task resolves for the request with the token `t`, and whether with a state.
    Of the tasks that may be turned down, only one that was accepted resolves anything. -/
def Task.resolution? (t : Token) (accepted : Bool) : Task → Option (Identity × Bool)
  | .respond i _ u => if u = t then some (i, true) else none
  | .unavailable i u false => if u = t then some (i, false) else none
  | .pushState i _ _ => if accepted then some (i, true) else none
  | .setState i _ _ token _ =>
    if accepted ∧ (token = none ∨ token = some t) then some (i, true) else none
  | .unregister i _ => if accepted then some (i, false) else none
  | _ => none

/-- Why a task makes the request with the token `t` and the generation `generation` fail. -/
def Task.failure? (t : Token) (generation : Nat) : Task → Option RequestError
  | .timeout u g => if u = t ∧ g = generation then some .timeout else none
  | .unavailable _ u true => if u = t then some .endpointUnreachable else none
  | _ => none

/-- Whether some caller was told that its call was done. -/
def accepted (effects : List Effect) : Bool := effects.any (·.isAcceptance)

namespace Turn

/-- The identity that a turn resolves for the request with the token `t`, and whether with a
    state. -/
def resolution? (turn : Turn) (t : Token) (accepted : Bool) : Option (Identity × Bool) :=
  match turn with
  | task _ x => x.resolution? t accepted
  | shutdown .. | deserted => none

/-- Why a turn makes the request with the token `t` and the generation `generation` fail. When the
    work ends, every open request is cancelled. -/
def failure? (turn : Turn) (t : Token) (generation : Nat) : Option RequestError :=
  match turn with
  | task _ x => x.failure? t generation
  | shutdown .. | deserted => some .cancelled

/-- The verdict of a turn on the open request `r` with the token `t`, by whether its task was
    accepted and by the store that it leaves behind. -/
def verdict (turn : Turn) (accepted : Bool) (store : Store) (t : Token) (r : Request) : Verdict :=
  match turn.failure? t r.generation with
  | some error => .ends (.failure error)
  | none =>
    match turn.resolution? t accepted with
    | some (i, available) => r.answered store i available
    | none => .stays r

theorem keeps_verdict (turn : Turn) (accepted : Bool) (store : Store) (t : Token) (r : Request) :
    (turn.verdict accepted store t r).Keeps r := by
  unfold verdict
  split
  · exact Verdict.keeps_ends _ _
  · split
    · exact Request.keeps_answered _ _ _ _
    · exact Verdict.keeps_stays r

end Turn

/-- What becomes at once of a new request: it ends when there is nothing to poll, and otherwise it
    awaits what was polled. -/
def Worker.admitted (w : Worker) (retrievable : Provider → Bool) (requester : Requester)
    (endpoint : String) : Verdict :=
  let (store, targets) := w.store.scatter retrievable endpoint
  let request : Request :=
    { requester, endpoint, awaited := .ofList (targets.map (·.identity)),
      generation := w.generation + 1 }
  if request.isComplete then .ends (.context endpoint (store.aggregate endpoint ∅ ∅))
  else .stays { request with timer := some (w.timers + 1) }

namespace Turn

/-- The requester of the request that arrives with the turn under the token `t`, and what becomes of
    it at once. -/
def arrival? (turn : Turn) (w : Worker) (t : Token) : Option (Requester × Verdict) :=
  match turn with
  | task around (.getContext u requester endpoint _) =>
    if u = t then some (requester, w.admitted around.retrievable requester endpoint) else none
  | shutdown _ rest => ((requested rest).lookup t).map fun q => (q, .ends (.failure .cancelled))
  | _ => none

/-- A request that arrives is admitted, or cancelled because the work ends. -/
theorem arrival?_cases {turn : Turn} {w : Worker} {t : Token} {requester : Requester} {v : Verdict}
    (h : turn.arrival? w t = some (requester, v)) :
    (∃ around endpoint timeout, turn = .task around (.getContext t requester endpoint timeout) ∧
      v = w.admitted around.retrievable requester endpoint) ∨
    (turn.isEnd = true ∧ v = .ends (.failure .cancelled)) := by
  cases turn with
  | deserted => simp [arrival?] at h
  | shutdown ticket rest =>
    obtain ⟨q, -, hq⟩ := Option.map_eq_some_iff.1 h
    exact .inr ⟨rfl, (Prod.mk.inj hq).2.symm⟩
  | task around task =>
    cases task with
    | getContext u q endpoint timeout =>
      simp only [arrival?, Option.ite_none_right_eq_some, Option.some.injEq, Prod.mk.injEq] at h
      obtain ⟨rfl, rfl, hv⟩ := h
      exact .inl ⟨around, endpoint, timeout, rfl, hv.symm⟩
    | _ => simp [arrival?] at h

/-- The requester of the request with the token `t`, whether it is open already or arrives with the
    turn, and what becomes of it in the step `s`. -/
def ruling (turn : Turn) (w : Worker) (s : Worker.Step) (t : Token) :
    Option (Requester × Verdict) :=
  match w.requests.get? t with
  | some r => some (r.requester, turn.verdict (accepted s.2) s.1.store t r)
  | none => turn.arrival? w t

/-- The step `s` of the worker `w` does to requests and their tokens what the turn's rulings say. -/
structure Rules (turn : Turn) (w : Worker) (s : Worker.Step) : Prop where
  requests (t : Token) : s.1.requests.get? t = (turn.ruling w s t).bind (·.2.request?)
  delivers (t : Token) :
    deliveries t s.2 = ((turn.ruling w s t).map fun v => v.2.delivered v.1).getD []
  live (t : Token) :
    t ∈ s.1.tokens.live ↔
      t ∈ w.tokens.live ∧ ∀ v, turn.ruling w s t = some v → v.2.outcome? = none
  last : s.1.tokens.last = w.tokens.last

end Turn

end ContextBroker
