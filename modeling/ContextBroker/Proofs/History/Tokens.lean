import ContextBroker.Proofs.History
import Mathlib.Data.List.Perm.Basic

set_option autoImplicit false

/-! # The tokens of a history

Every change of a history keeps the tokens in order (`WorkQueue.Tracked`): numbering a request adds
a token that none in flight has, posting it moves the token into the queue, the worker takes it from
there into its table, and the token is set free where the request is given up, answered or turned
down. -/

namespace ContextBroker

theorem Broker.request?_task (b : Broker) (u : Underway) : (b.task u).request? = u.request? := by
  unfold task Underway.request?
  cases u.call <;> rfl

namespace History

/-- The requests that are numbered and not posted yet. -/
def numbered (h : History) : List (Token × Requester) := h.underway.filterMap (·.request?)

/-- The tokens of the requests in flight: of those open, of those in the queue, and of those that
    are still to be posted. -/
def inFlight (h : History) : List Token :=
  h.broker.queue.worker.requests.keys ++ (requested h.broker.queue.tasks).map (·.1) ++
    h.numbered.map (·.1)

/-- The allocator knows the requests in flight. -/
def Tracked (h : History) : Prop := h.broker.queue.Tracked h.numbered

theorem tracked_start (config : Config) (last : Token) : (start config last).Tracked where
  nodup := by simp [start, numbered]
  apart t ht := by simp [start, numbered] at ht
  live t := by simp [start, numbered]
  nonzero := by simp [start]
  sound fault := by simp [start]
  ended hp := by simp [start] at hp

/-- The requests to be posted are that of a call and those of the others. -/
theorem numbered_perm {h : History} {n : Nat} {u : Underway} (hn : h.underway[n]? = some u) :
    h.numbered.Perm
      (u.request?.toList ++ { h with underway := h.underway.eraseIdx n }.numbered) := by
  obtain ⟨hlt, rfl⟩ := List.getElem?_eq_some_iff.1 hn
  have hp := (List.getElem_cons_eraseIdx_perm hlt).symm.filterMap (·.request?)
  refine hp.trans (List.Perm.of_eq ?_)
  cases hr : h.underway[n].request? <;> simp [numbered, hr]

theorem Tracked.change {h h' : History} (ht : h.Tracked) (hc : Change h h') : h'.Tracked := by
  cases hc with
  | refused c response hr => exact ht
  | numbered u requester hu tokens ha =>
    have hnum : { h with broker.queue.worker.tokens := tokens,
                         underway := h.underway ++ [u] }.numbered =
        h.numbered ++ [(u.token, requester)] := by
      simp [History.numbered, Underway.request?, hu]
    unfold Tracked
    rw [hnum]
    exact WorkQueue.Tracked.number ht ha requester
  | begun u hu shuttingDown =>
    have hnum : { h with broker.shuttingDown := shuttingDown,
                         underway := h.underway ++ [u] }.numbered = h.numbered := by
      simp [History.numbered, Underway.request?, hu]
    unfold Tracked
    rw [hnum]
    exact ht
  | posted n u hn queue hq =>
    have hp := ht.perm (numbered_perm hn)
    rw [← h.broker.request?_task] at hp
    exact hp.post hq
  | givenUp n u hn =>
    have hp := ht.perm (numbered_perm hn)
    unfold Tracked respond Broker.giveUp
    cases hu : u.call.requester? with
    | some requester =>
      simp only [Underway.request?, hu, Option.map_some, Option.toList_some,
        List.singleton_append] at hp
      exact hp.release
    | none =>
      -- A call that is no request has no token to give back.
      simp only [Underway.request?, hu, Option.map_none, Option.toList_none,
        List.nil_append] at hp
      exact hp
  | held senders hub => exact WorkQueue.Tracked.senders ht senders
  | worked around turn hturn s hs =>
    obtain ⟨s', hs', -, -, ht'⟩ := WorkQueue.Tracked.turn ht hturn
    obtain rfl := Except.ok.inj (hs.symm.trans hs')
    exact ht'
  | fell around turn hturn fault hs log =>
    obtain ⟨s, hs', -⟩ := WorkQueue.Tracked.turn ht hturn
    cases hs.symm.trans hs'
  | elapsed timer token generation timeouts htimer =>
    unfold Tracked Broker.elapse WorkQueue.post
    cases hq : h.broker.queue.post? (.timeout token generation) with
    | none => exact ht
    | some queue =>
      have ht : h.broker.queue.Tracked
        ((Task.timeout token generation).request?.toList ++ h.numbered) := ht
      exact ht.post hq

theorem tracked_run (config : Config) (last : Token) (moves : List Move) :
    ((start config last).run moves).Tracked :=
  invariant config last (tracked_start config last) (fun _ _ => Tracked.change) moves

/-- What holds of a new broker, and is kept by every change while the tokens are in order, holds
    throughout every history. -/
theorem invariant_of_tracked {P : History → Prop} (config : Config) (last : Token)
    (hstart : P (start config last))
    (hchange : ∀ h h' : History, h.Tracked → P h → Change h h' → P h') (moves : List Move) :
    P ((start config last).run moves) := by
  have hboth : ((start config last).run moves).Tracked ∧ P ((start config last).run moves) :=
    invariant (P := fun h => h.Tracked ∧ P h) config last ⟨tracked_start config last, hstart⟩
      (fun h h' hh hc => ⟨hh.1.change hc, hchange h h' hh.1 hh.2 hc⟩) moves
  exact hboth.2

/-- While the tokens are in order every turn of the worker is a sound round. -/
theorem Tracked.round {h : History} (ht : h.Tracked) {around : Surroundings} {turn : Turn}
    (hturn : h.broker.queue.turn? around = some turn) {s : Worker.Step}
    (hs : h.broker.queue.worker.turn turn = .ok s) :
    Round.Sound ⟨h.broker.queue.worker, turn, s.1, s.2⟩ := by
  obtain ⟨-, -, hd, -⟩ := WorkQueue.Tracked.turn ht hturn
  exact ⟨hs, hd⟩

/-- While the tokens are in order the worker breaks no rule. -/
theorem Tracked.no_fault {h : History} (ht : h.Tracked) {around : Surroundings} {turn : Turn}
    (hturn : h.broker.queue.turn? around = some turn) {fault : Fault} :
    h.broker.queue.worker.turn turn ≠ .error fault := by
  obtain ⟨s, hs, -⟩ := WorkQueue.Tracked.turn ht hturn
  rw [hs]
  intro h
  cases h

/-- Requests in flight have tokens of their own. -/
theorem Tracked.nodup_inFlight {h : History} (ht : h.Tracked) : h.inFlight.Nodup := by
  unfold inFlight
  rw [List.append_assoc, ← List.map_append, List.nodup_append]
  refine ⟨SortedMap.nodup_keys _, ht.nodup, fun t hopen u hwait htu => ?_⟩
  rw [SortedMap.mem_keys, htu, ht.apart u hwait] at hopen
  simp at hopen

theorem Tracked.live_iff {h : History} (ht : h.Tracked) (t : Token) :
    t ∈ h.broker.queue.worker.tokens.live ↔ t ∈ h.inFlight := by
  unfold inFlight
  rw [ht.live, List.append_assoc, ← List.map_append, List.mem_append, SortedMap.mem_keys]

/-- **Token bookkeeping.** In every history the live tokens are exactly those of the requests in
    flight, no two of which share one, and zero is none of them; while no call is underway, they
    are the tokens of the open requests and of those in the queue. So the worker never takes a
    request whose token is open, and once it has stopped every token is free again. -/
theorem live_iff_inFlight (config : Config) (last : Token) (moves : List Move) :
    let h := (start config last).run moves
    let q := h.broker.queue
    h.inFlight.Nodup ∧
    (∀ t, t ∈ q.worker.tokens.live ↔ t ∈ h.inFlight) ∧
    ¬ Token.noRequest ∈ h.inFlight ∧
    (h.underway = [] → ∀ t, t ∈ q.worker.tokens.live ↔
      (q.worker.requests.get? t).isSome ∨ t ∈ (requested q.tasks).map (·.1)) ∧
    (∀ fault, q.phase ≠ .broken fault) ∧
    (q.phase = .stopped → h.underway = [] → q.worker.tokens.live = ∅) := by
  intro h q
  have ht : h.Tracked := tracked_run config last moves
  have hnone : h.underway = [] → h.numbered = [] := fun hu => by simp [numbered, hu]
  refine ⟨ht.nodup_inFlight, ht.live_iff, fun hz => ht.nonzero ((ht.live_iff _).2 hz), ?_, ht.sound,
    ?_⟩
  · intro hu t
    rw [ht.live, hnone hu, List.append_nil]
  · intro hp hu
    obtain ⟨htasks, hopen⟩ := ht.ended (by simp [show h.broker.queue.phase = .stopped from hp])
    refine SortedSet.ext fun t => ?_
    rw [ht.live, hopen, htasks, hnone hu]
    simp

end History

end ContextBroker
