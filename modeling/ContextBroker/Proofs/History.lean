import ContextBroker.Proofs.Broker.Calls
import ContextBroker.Proofs.Worker.Run
import ContextBroker.Proofs.WorkQueue.InFlight
import ContextBroker.Timer.Manual
import Mathlib.Logic.Relation

set_option autoImplicit false

/-! # Histories of a broker

A `History` is a broker with the calls that are underway, the timeouts that may still elapse and a
log. It goes on by moves, which come in any order: whoever holds the broker calls it, in one or in
two parts, shares it or drops it; the worker takes a turn; a timeout elapses. A timeout elapses at
most once, at any time after it was set and whether it was cancelled or not. Nothing is said of who
makes a call, so every call from within a callback is one of these moves too.

Behind the moves there are fewer changes of state (`History.Change`), and what every change keeps
holds of every history. -/

namespace ContextBroker

namespace History

/-- What is written down of a history. -/
inductive Event
  /-- A call came back. -/
  | responded (call : Call) (response : Response)
  /-- The worker took a turn. -/
  | worked (round : Round)

/-- The round of the worker that an event is. -/
def Event.round? : Event → Option Round
  | responded .. => none
  | worked round => some round

/-- How a history can go on. -/
inductive Move
  /-- A call that nothing comes between. -/
  | call (ticket : Ticket) (call : Call)
  /-- The first part of a call. -/
  | begin (ticket : Ticket) (call : Call)
  /-- The second part of the `n`-th call that is underway. -/
  | finish (n : Nat)
  /-- The `n`-th call that is underway is a request, and it is told that the broker shuts down. -/
  | giveUp (n : Nat)
  | share
  | drop
  | addObserver (observer : Observer)
  | removeObserver (observer : Observer)
  /-- The worker takes what is next. -/
  | work (around : Surroundings)
  /-- A timeout elapses. -/
  | elapse (timer : TimerId)

end History

/-- A broker among those who use it, with the log of what happened. -/
structure History where
  broker : Broker
  underway : List Underway := []
  /-- The timeouts that were set and have not elapsed. -/
  timeouts : ManualTimer := {}
  log : List History.Event := []

/-- Keeps the timeouts that effects set. -/
def ManualTimer.keep (m : ManualTimer) (effects : List Effect) : ManualTimer :=
  effects.foldl (fun m e => match e with
    | .setTimer id _ token generation => m.set id token generation
    | _ => m) m

namespace History

/-- The rounds of the worker. -/
def rounds (h : History) : List Round := h.log.filterMap (·.round?)

/-- Whether someone holds the broker. -/
def isHeld (h : History) : Bool := 0 < h.broker.queue.senders

/-- A new broker, whose allocator handed out `last`. -/
def start (config : Config) (last : Token) : History :=
  { broker := { config, queue := { worker := { tokens := { last } } } } }

/-! ## Moves -/

/-- A call comes back. -/
def respond (h : History) (c : Call) (r : Broker × Response) : History :=
  { h with broker := r.1, log := h.log ++ [.responded c r.2] }

/-- A call is begun. -/
def begin (h : History) (ticket : Ticket) (c : Call) : History :=
  match h.broker.begin ticket c with
  | (broker, .error response) => h.respond c (broker, response)
  | (broker, .ok u) => { h with broker, underway := h.underway ++ [u] }

/-- The `n`-th call that is underway comes back after `last`. -/
def settle (h : History) (n : Nat) (last : Underway → Broker × Response) : History :=
  match h.underway[n]? with
  | none => h
  | some u => { h with underway := h.underway.eraseIdx n }.respond u.call (last u)

/-- The worker takes what is next, if there is anything. -/
def work (h : History) (around : Surroundings) : History :=
  match h.broker.queue.turn? around, h.broker.work? around with
  | some turn, some (broker, effects) =>
    let round := ⟨h.broker.queue.worker, turn, broker.queue.worker, effects⟩
    { h with broker, timeouts := h.timeouts.keep effects, log := h.log ++ [.worked round] }
  | _, _ => h

/-- A timeout elapses that was set and has not elapsed yet. -/
def elapse (h : History) (timer : TimerId) : History :=
  match h.timeouts.fire? timer with
  | none => h
  | some (token, generation, timeouts) =>
    { h with timeouts, broker := h.broker.elapse token generation }

/-- Makes a move; one that cannot be made changes nothing. Only who holds the broker can call it,
    share it or add and remove observers, and whoever is amid a call does not let go of it. -/
def apply (h : History) : Move → History
  | .call ticket c => if h.isHeld then h.respond c (h.broker.call ticket c) else h
  | .begin ticket c => if h.isHeld then h.begin ticket c else h
  | .finish n => h.settle n h.broker.finish
  | .giveUp n =>
    if h.broker.shuttingDown ∧ h.underway[n]?.any (·.call.requester?.isSome) then
      h.settle n h.broker.giveUp
    else h
  | .share => if h.isHeld then { h with broker := h.broker.share } else h
  | .drop =>
    if h.underway = [] ∨ 1 < h.broker.queue.senders then { h with broker := h.broker.drop } else h
  | .addObserver o =>
    if h.isHeld then { h with broker.hub := h.broker.hub.add o } else h
  | .removeObserver o =>
    if h.isHeld then { h with broker.hub := h.broker.hub.remove o } else h
  | .work around => h.work around
  | .elapse timer => h.elapse timer

/-- Makes moves, one after the other. -/
def run (h : History) (moves : List Move) : History := moves.foldl apply h

/-! ## Changes -/

/-- What can become of a history at once. -/
inductive Change (h : History) : History → Prop
  /-- A call comes back that posts nothing. -/
  | refused (c : Call) (response : Response) (hr : ∀ t, response ≠ .requested t) :
      Change h (h.respond c (h.broker, response))
  /-- A request is numbered. -/
  | numbered (u : Underway) (requester : Requester) (hu : u.call.requester? = some requester)
      (tokens : TokenAllocator)
      (ht : h.broker.queue.worker.tokens.allocate? = some (u.token, tokens)) :
      Change h { h with broker.queue.worker.tokens := tokens, underway := h.underway ++ [u] }
  /-- Another call is begun. -/
  | begun (u : Underway) (hu : u.call.requester? = none) (shuttingDown : Bool) :
      Change h
        { h with broker.shuttingDown := shuttingDown, underway := h.underway ++ [u] }
  /-- A call posts its task. -/
  | posted (n : Nat) (u : Underway) (hn : h.underway[n]? = some u) (queue : WorkQueue)
      (hq : h.broker.queue.post? (h.broker.task u) = some queue) :
      Change h ({ h with underway := h.underway.eraseIdx n }.respond u.call
        ({ h.broker with queue }, h.broker.accepted u))
  /-- A call is given up. -/
  | givenUp (n : Nat) (u : Underway) (hn : h.underway[n]? = some u) :
      Change h ({ h with underway := h.underway.eraseIdx n }.respond u.call (h.broker.giveUp u))
  /-- Others hold the broker or observe it. -/
  | held (senders : Nat) (hub : Hub) :
      Change h { h with broker.queue.senders := senders, broker.hub := hub }
  /-- The worker takes a turn. -/
  | worked (around : Surroundings) (turn : Turn)
      (ht : h.broker.queue.turn? around = some turn) (s : Worker.Step)
      (hs : h.broker.queue.worker.turn turn = .ok s) :
      Change h { h with broker.queue := h.broker.queue.after turn s.1
                        timeouts := h.timeouts.keep s.2
                        log := h.log ++ [.worked ⟨h.broker.queue.worker, turn, s.1, s.2⟩] }
  /-- The worker breaks a rule. -/
  | fell (around : Surroundings) (turn : Turn)
      (ht : h.broker.queue.turn? around = some turn) (fault : Fault)
      (hs : h.broker.queue.worker.turn turn = .error fault) (log : List Event) :
      Change h { h with broker.queue := h.broker.queue.fallen fault, log }
  /-- A timeout elapses. -/
  | elapsed (timer : TimerId) (token : Token) (generation : Nat) (timeouts : ManualTimer)
      (ht : h.timeouts.fire? timer = some (token, generation, timeouts)) :
      Change h { h with timeouts, broker := h.broker.elapse token generation }

theorem refusal_ne_requested (c : Call) (t : Token) : c.refusal ≠ .requested t := by
  cases c <;> simp [Call.refusal]

/-- Beginning a call refuses it or leaves it underway. -/
theorem change_begin (h : History) (ticket : Ticket) (c : Call) :
    Change h (h.begin ticket c) := by
  unfold begin Broker.begin
  by_cases hs : h.broker.shuttingDown = true
  · rw [if_pos hs]
    exact .refused c _ (refusal_ne_requested c)
  · rw [if_neg hs]
    cases hc : c.requester? with
    | some requester =>
      cases ht : h.broker.queue.worker.tokens.allocate? with
      | none => exact .refused c _ (by simp)
      | some x => exact .numbered ⟨ticket, c, x.1⟩ requester hc x.2 ht
    | none => exact .begun { ticket, call := c } hc _

/-- A call that is underway posts its task or is given up. -/
theorem change_finish (h : History) {n : Nat} {u : Underway} (hn : h.underway[n]? = some u) :
    Change h (h.settle n h.broker.finish) := by
  simp only [settle, hn, Broker.finish]
  cases hq : h.broker.queue.post? (h.broker.task u) with
  | some queue => exact .posted n u hn queue hq
  | none => exact .givenUp n u hn

theorem change_work (h : History) (around : Surroundings) :
    h.work around = h ∨ Change h (h.work around) := by
  unfold work Broker.work?
  cases ht : h.broker.queue.turn? around with
  | none => exact .inl rfl
  | some turn =>
    rw [WorkQueue.take?_eq, ht]
    cases hs : h.broker.queue.worker.turn turn with
    | ok s => exact .inr (by simpa [hs] using .worked around turn ht s hs)
    | error fault => exact .inr (by simpa [hs] using .fell around turn ht fault hs _)

/-- A call that nothing comes between is begun and then finished. -/
theorem respond_call (h : History) (ticket : Ticket) (c : Call) :
    h.respond c (h.broker.call ticket c) =
      (h.begin ticket c).settle h.underway.length (h.begin ticket c).broker.finish := by
  rw [Broker.call_eq, begin]
  rcases hb : h.broker.begin ticket c with ⟨b, response | u⟩
  · simp only [settle, respond, List.getElem?_eq_none (Nat.le_refl _)]
  · simp only [settle, respond, List.getElem?_concat_length, Broker.call_of_begin hb,
      List.eraseIdx_append_of_length_le (Nat.le_refl _), Nat.sub_self, List.eraseIdx_cons_zero,
      List.append_nil]

open Relation

theorem changes_settle (h : History) (n : Nat) :
    ReflTransGen Change h (h.settle n h.broker.finish) := by
  cases hn : h.underway[n]? with
  | none => rw [settle, hn]
  | some u => exact .single (change_finish h hn)

/-- Every move comes down to changes. -/
theorem changes_apply (h : History) (m : Move) : ReflTransGen Change h (h.apply m) := by
  have hguard : ∀ {p : Prop} [Decidable p] {h' : History},
      (p → ReflTransGen Change h h') → ReflTransGen Change h (if p then h' else h) := by
    intro p _ h' hc
    split
    · exact hc ‹_›
    · exact .refl
  cases m with
  | call ticket c =>
    refine hguard fun _ => ?_
    rw [respond_call]
    exact (ReflTransGen.single (change_begin h ticket c)).trans (changes_settle _ _)
  | begin ticket c => exact hguard fun _ => .single (change_begin h ticket c)
  | finish n => exact changes_settle h n
  | giveUp n =>
    refine hguard fun hg => ?_
    cases hn : h.underway[n]? with
    | none => simp [hn] at hg
    | some u =>
      rw [settle, hn]
      exact .single (.givenUp n u hn)
  | share => exact hguard fun _ => .single (.held _ h.broker.hub)
  | drop => exact hguard fun _ => .single (.held _ h.broker.hub)
  | addObserver o => exact hguard fun _ => .single (.held h.broker.queue.senders _)
  | removeObserver o => exact hguard fun _ => .single (.held h.broker.queue.senders _)
  | work around =>
    rcases change_work h around with he | hc
    · rw [apply, he]
    · exact .single hc
  | elapse timer =>
    rw [apply, elapse]
    cases ht : h.timeouts.fire? timer with
    | none => exact .refl
    | some x => exact .single (.elapsed timer x.1 x.2.1 x.2.2 ht)

theorem changes_run (h : History) (moves : List Move) : ReflTransGen Change h (h.run moves) := by
  induction moves generalizing h with
  | nil => exact .refl
  | cons m moves ih => exact (changes_apply h m).trans (ih _)

/-- What holds of a new broker and is kept by every change holds throughout every history. -/
theorem invariant {P : History → Prop} (config : Config) (last : Token)
    (hstart : P (start config last)) (hchange : ∀ h h', P h → Change h h' → P h')
    (moves : List Move) : P ((start config last).run moves) := by
  have hrun := changes_run (start config last) moves
  generalize (start config last).run moves = h at hrun
  induction hrun with
  | refl => exact hstart
  | tail _ hc ih => exact hchange _ _ ih hc

end History

end ContextBroker
