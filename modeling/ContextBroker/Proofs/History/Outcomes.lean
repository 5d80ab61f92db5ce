import ContextBroker.Proofs.History.Tokens

set_option autoImplicit false

/-! # One outcome for every accepted request

The `record` of a token lists, in order, the requests that were accepted under it and the outcomes
that were delivered with it. The two take turns, because only a request that is in the queue or
open is owed an outcome (`WorkQueue.owed?`), at most one is at a time, and it is owed none as soon
as its outcome is delivered. -/

namespace ContextBroker

namespace History

/-- What happens under a token. -/
inductive Mark
  /-- A request was accepted: its call came back with the token. -/
  | accepted (requester : Requester)
  | delivered (requester : Requester) (outcome : Outcome)

/-- What an event does under the token `t`. -/
def Event.marks (t : Token) : Event → List Mark
  | responded c (.requested u) => if u = t then c.requester?.toList.map .accepted else []
  | responded .. => []
  | worked round => (deliveries t round.effects).map fun x => .delivered x.1 x.2

/-- What happened under the token `t`, in order. -/
def record (h : History) (t : Token) : List Mark := h.log.flatMap (·.marks t)

/-- The record of requests that were accepted and given their outcomes, one after the other. -/
def exchanges (answered : List (Requester × Outcome)) : List Mark :=
  answered.flatMap fun x => [.accepted x.1, .delivered x.1 x.2]

/-- Under each token every accepted request got its outcome, but for the last if it is owed one. -/
def Answered (h : History) : Prop :=
  ∀ t, ∃ answered, h.record t =
    exchanges answered ++ (h.broker.queue.owed? t).toList.map .accepted

theorem marks_responded {c : Call} {response : Response} (hr : ∀ t, response ≠ .requested t)
    (t : Token) : (Event.responded c response).marks t = [] := by
  cases response with
  | requested u => exact absurd rfl (hr u)
  | _ => rfl

theorem marks_accepted (b : Broker) (u : Underway) (t : Token) :
    (Event.responded u.call (b.accepted u)).marks t =
      (u.request?.toList.lookup t).toList.map .accepted := by
  cases hu : u.call.requester? with
  | none =>
    rw [Underway.request?, hu]
    refine marks_responded (fun v hv => ?_) t
    unfold Broker.accepted at hv
    cases hc : u.call <;> simp [hc, Call.requester?] at hu hv
  | some requester =>
    have ha : b.accepted u = .requested u.token := by
      unfold Broker.accepted
      cases hc : u.call <;> simp [hc, Call.requester?] at hu ⊢
    by_cases ht : u.token = t
    · simp [ha, Event.marks, Underway.request?, hu, ht]
    · have hb : (t == u.token) = false := by simpa using fun h : t = u.token => ht h.symm
      simp [ha, Event.marks, Underway.request?, hu, ht, List.lookup_cons, hb]

/-- An event that does nothing under `t` keeps the record. -/
theorem Answered.quiet {h h' : History} (ha : h.Answered)
    (howed : ∀ t, h'.broker.queue.owed? t = h.broker.queue.owed? t)
    (hlog : ∀ t, h'.record t = h.record t) : h'.Answered := by
  intro t
  rw [howed, hlog]
  exact ha t

theorem Answered.change {h h' : History} (ha : h.Answered) (ht : h.Tracked)
    (hc : Change h h') : h'.Answered := by
  cases hc with
  | refused c response hr =>
    refine ha.quiet (fun _ => rfl) fun t => ?_
    simp [record, respond, marks_responded hr]
  | numbered u requester hu tokens ht => exact ha.quiet (fun _ => rfl) fun _ => rfl
  | begun u hu shuttingDown => exact ha.quiet (fun _ => rfl) fun _ => rfl
  | held senders hub => exact ha.quiet (fun _ => rfl) fun _ => rfl
  | givenUp n u hn =>
    refine ha.quiet (fun t => ?_) fun t => ?_
    · unfold respond Broker.giveUp
      split <;> rfl
    · have := marks_responded (c := u.call) (refusal_ne_requested u.call) t
      simp [record, respond, Broker.giveUp, this]
  | posted n u hn queue hq =>
    intro t
    obtain ⟨answered, hrec⟩ := ha t
    refine ⟨answered, ?_⟩
    have howed : queue.owed? t = (h.broker.queue.owed? t).or (u.request?.toList.lookup t) := by
      rw [WorkQueue.owed?_post hq, h.broker.request?_task]
    have hnew : record ({ h with underway := h.underway.eraseIdx n }.respond u.call
        ({ h.broker with queue }, h.broker.accepted u)) t =
        h.record t ++ (u.request?.toList.lookup t).toList.map .accepted := by
      simp [record, respond, marks_accepted]
    rw [hnew, hrec, List.append_assoc]
    show _ = _ ++ (queue.owed? t).toList.map Mark.accepted
    rw [howed]
    cases hl : u.request?.toList.lookup t with
    | none => simp
    | some requester =>
      -- The request was still to be posted, so none was owed anything under its token.
      have hm : t ∈ h.numbered.map (·.1) := by
        refine ((numbered_perm hn).map _).mem_iff.2 ?_
        rw [List.map_append]
        exact List.mem_append_left _ (Worker.lookup_isSome.1 (by simp [hl]))
      rw [WorkQueue.owed?_of_numbered ht hm]
      simp
  | worked around turn hturn s hs =>
    have hrules := (ht.round hturn hs).rules
    intro t
    obtain ⟨answered, hrec⟩ := ha t
    have hnew : ∀ timeouts, record
        { h with broker.queue := h.broker.queue.after turn s.1
                 timeouts
                 log := h.log ++ [.worked ⟨h.broker.queue.worker, turn, s.1, s.2⟩] } t =
        h.record t ++ (deliveries t s.2).map fun x => .delivered x.1 x.2 := by
      simp [record, Event.marks]
    rw [hnew, hrec]
    show ∃ answered, _ = exchanges answered ++
      ((h.broker.queue.after turn s.1).owed? t).toList.map Mark.accepted
    rcases WorkQueue.owed?_turn ht hturn hrules t with ⟨hd, ho⟩ | ⟨requester, outcome, ho, hd, ho'⟩
    · rw [hd, ho]
      exact ⟨answered, by simp⟩
    · rw [hd, ho, ho']
      exact ⟨answered ++ [(requester, outcome)], by simp [exchanges]⟩
  | fell around turn hturn fault hs log => exact absurd hs (ht.no_fault hturn)
  | elapsed timer token generation timeouts htimer =>
    refine ha.quiet (fun t => ?_) fun _ => rfl
    unfold Broker.elapse WorkQueue.post
    cases hq : h.broker.queue.post? (.timeout token generation) with
    | none => rfl
    | some queue =>
      show queue.owed? t = _
      simp [WorkQueue.owed?_post hq, Task.request?]

theorem answered_run (config : Config) (last : Token) (moves : List Move) :
    ((start config last).run moves).Answered :=
  invariant_of_tracked config last (fun _ => ⟨[], rfl⟩) (fun _ _ ht ha hc => ha.change ht hc) moves

/-- **Exactly one outcome.** In every history, and under every token, each accepted request is
    followed by its outcome, delivered once and to its own requester, before another request is
    accepted under the token; only the last may still be owed its outcome, and none is once the
    worker has stopped. A call that was turned down leaves nothing in the record, so nothing is
    delivered for it. -/
theorem exactly_one_outcome (config : Config) (last : Token) (moves : List Move) (t : Token) :
    let h := (start config last).run moves
    ∃ (answered : List (Requester × Outcome)) (owed : Option Requester),
      h.record t =
        answered.flatMap (fun x => [.accepted x.1, .delivered x.1 x.2]) ++
          owed.toList.map .accepted ∧
      (h.broker.queue.phase = .stopped → owed = none) := by
  intro h
  obtain ⟨answered, hrec⟩ := answered_run config last moves t
  refine ⟨answered, h.broker.queue.owed? t, hrec, fun hp => ?_⟩
  have ht : h.Tracked := tracked_run config last moves
  obtain ⟨htasks, hopen⟩ := ht.ended (by simp [hp])
  rw [WorkQueue.owed?, hopen, htasks]
  rfl

end History

end ContextBroker
