import ContextBroker.Proofs.Scenario.Addressing

set_option autoImplicit false

/-! # The empty endpoint is the default endpoint

To leave the endpoint out is to name the default endpoint. This is so for each call
(`Broker.call_resolve`), and then for whole scenarios: filling in the default endpoint in all that is
still to be done (`Scenario.resolve`) commutes with everything a scenario does. So scenarios whose
scripts say the same once the default endpoint is filled in go on in step, whichever endpoints each
of them leaves out (`Scenario.empty_endpoint_is_default`). -/

namespace ContextBroker

/-! ## Calls -/

namespace Identity

@[simp] theorem resolveEndpoint_resolveEndpoint (d e : String) :
    resolveEndpoint d (resolveEndpoint d e) = resolveEndpoint d e := by
  by_cases he : e.isEmpty = true
  · simp [resolveEndpoint, he]
  · simp [resolveEndpoint, he]

@[simp] theorem resolve_resolve (d : String) (i : Identity) :
    (i.resolve d).resolve d = i.resolve d := by
  simp [resolve]

end Identity

/-- The call with the default endpoint filled in. -/
def Call.resolve (d : String) : Call → Call
  | register i provider kind => .register (i.resolve d) provider kind
  | unregister i => .unregister (i.resolve d)
  | setState i payload policy token => .setState (i.resolve d) payload policy token
  | pushState i sample => .pushState (i.resolve d) sample
  | report i sample cause => .report (i.resolve d) sample cause
  | getContext requester endpoint timeout =>
    .getContext requester (Identity.resolveEndpoint d endpoint) timeout
  | getDefaultContext requester => .getDefaultContext requester
  | respond i sample token => .respond (i.resolve d) sample token
  | unavailable i token unreachable => .unavailable (i.resolve d) token unreachable
  | read endpoint => .read (Identity.resolveEndpoint d endpoint)
  | metrics => .metrics
  | shutdown => .shutdown

/-- A call that leaves the endpoint out is a call that names the default endpoint. -/
theorem Broker.call_resolve (b : Broker) (ticket : Ticket) (c : Call) :
    b.call ticket (c.resolve b.config.endpoint) = b.call ticket c := by
  cases c <;> simp [Call.resolve, call, request, Broker.resolve, Broker.resolveEndpoint]

namespace Timeline

variable {α β : Type} (f : α → β)

/-- Other work in the same places. -/
def map (t : Timeline α) : Timeline β := ⟨t.now, t.ready.map f, t.asleep.map (Prod.map id f)⟩

theorem map_spawn (t : Timeline α) (a : α) : (t.spawn a).map f = (t.map f).spawn (f a) := by
  simp [map, spawn]

theorem map_sleep (t : Timeline α) (duration : Nat) (a : α) :
    (t.sleep duration a).map f = (t.map f).sleep duration (f a) := by
  have hinsert (deadline : Nat) (l : List (Nat × α)) :
      (insertSleeper deadline a l).map (Prod.map id f) =
        insertSleeper deadline (f a) (l.map (Prod.map id f)) := by
    induction l with
    | nil => rfl
    | cons p l ih =>
      obtain ⟨due, b⟩ := p
      by_cases hlt : deadline < due
      · simp [insertSleeper, hlt]
      · simp [insertSleeper, hlt, ih]
  simp only [map, sleep, hinsert]

theorem map_advance (t : Timeline α) (moment : Nat) :
    (t.advance moment).map f = (t.map f).advance moment := by
  simp only [map, advance, List.map_append, List.takeWhile_map, List.dropWhile_map, List.map_map]
  rfl

theorem nextDeadline?_map (t : Timeline α) : (t.map f).nextDeadline? = t.nextDeadline? := by
  cases h : t.asleep <;> simp [map, nextDeadline?, h]

end Timeline

theorem SortedMap.mapValues_insert {κ ν μ : Type} [Ord κ] [Std.TransOrd κ] [Std.LawfulEqOrd κ]
    (m : SortedMap κ ν) (f : κ → ν → μ) (k : κ) (v : ν) :
    (m.insert k v).mapValues f = (m.mapValues f).insert k (f k v) := by
  classical
  refine ext_get? fun x => ?_
  rw [get?_mapValues, get?_insert, get?_insert, get?_mapValues]
  split
  · rename_i hx
    rw [hx]
    rfl
  · rfl

namespace Scenario

/-! ## What is still to be done -/

/-- The action with the default endpoint filled in. -/
def Action.resolve (d : String) : Action → Action
  | .register i provider kind retrievable =>
    .register (i.map (·.resolve d)) provider kind retrievable
  | .unregister i => .unregister (i.map (·.resolve d))
  | .setState i payload policy token => .setState (i.map (·.resolve d)) payload policy token
  | .pushState i sample => .pushState (i.map (·.resolve d)) sample
  | .report i sample cause => .report (i.map (·.resolve d)) sample cause
  | .getContext endpoint timeout => .getContext (Identity.resolveEndpoint d endpoint) timeout
  | .respond i sample token => .respond (i.map (·.resolve d)) sample token
  | .unavailable i token unreachable => .unavailable (i.map (·.resolve d)) token unreachable
  | .read endpoint => .read (Identity.resolveEndpoint d endpoint)
  | action => action

mutual

/-- The step with the default endpoint filled in, also in the script of whom it brings in. -/
def Step.resolve (d : String) : Step → Step
  | ⟨handle, delay, action, script, times⟩ =>
    ⟨handle, delay, action.resolve d, Step.resolveAll d script, times⟩

/-- The steps with the default endpoint filled in. -/
def Step.resolveAll (d : String) : List Step → List Step
  | [] => []
  | step :: steps => step.resolve d :: Step.resolveAll d steps

end

/-- The party whose script has the default endpoint filled in. -/
def Party.resolve (d : String) (p : Party) : Party := { p with script := Step.resolveAll d p.script }

/-- The frame with the default endpoint filled in. -/
def Frame.resolve (d : String) : Frame → Frame
  | .perform step scene => .perform (step.resolve d) scene
  | .resume step scene => .resume (step.resolve d) scene
  | frame => frame

/-- The job with the default endpoint filled in. -/
def Job.resolve (d : String) : Job → Job
  | .work => .work
  | .act frames => .act (frames.map (·.resolve d))
  | .wait duration frame => .wait duration (frame.resolve d)

/-- The parties whose scripts have the default endpoint filled in. -/
def resolveParties (d : String) (parties : SortedMap Nat Party) : SortedMap Nat Party :=
  parties.mapValues fun _ p => p.resolve d

/-- The scenario with the default endpoint filled in in all that is still to be done. -/
def resolve (d : String) (s : Scenario) : Scenario :=
  { s with
    line := s.line.map (·.resolve d)
    agenda := s.agenda.map (·.resolve d)
    providers := resolveParties d s.providers
    requesters := resolveParties d s.requesters
    observers := resolveParties d s.observers }

/-- The move with the default endpoint filled in. -/
def Move.resolve (d : String) : Move → Move
  | .step what => .step (what.resolve d)
  | .amid what scene => .amid (what.resolve d) scene
  | .turn => .turn
  | .wait moment => .wait moment

theorem Step.resolveAll_eq_map (d : String) (steps : List Step) :
    Step.resolveAll d steps = steps.map (·.resolve d) := by
  induction steps with
  | nil => simp [Step.resolveAll]
  | cons step steps ih => simp [Step.resolveAll, ih]

theorem Step.resolve_eq (d : String) (step : Step) : step.resolve d =
    { step with action := step.action.resolve d, script := Step.resolveAll d step.script } := by
  cases step
  rw [Step.resolve]

/-- The call that an action makes is the same once the default endpoint is filled in. -/
theorem Action.call?_resolve (d : String) (scene : Scene) (requester : Requester) (a : Action) :
    ((a.resolve d).call? scene requester).map (Call.resolve d) =
      (a.call? scene requester).map (Call.resolve d) := by
  have hwhom (i : Option Identity) :
      (scene.whom (i.map (·.resolve d))).resolve d = (scene.whom i).resolve d := by
    cases i <;> simp [Scene.whom]
  cases a <;> simp [Action.resolve, Action.call?, Call.resolve, hwhom]

/-! ## What commutes -/

section

variable {d : String} {s : Scenario}

@[simp] theorem broker_resolve (d : String) (s : Scenario) : (s.resolve d).broker = s.broker := rfl

theorem resolve_note (s : Scenario) (e : Event) :
    (s.note e).resolve d = (s.resolve d).note e := rfl

theorem resolve_spawn (s : Scenario) (job : Job) :
    (s.spawn job).resolve d = (s.resolve d).spawn (job.resolve d) := by
  simp only [resolve, spawn, Timeline.map_spawn]

theorem resolve_wake (s : Scenario) : s.wake.resolve d = (s.resolve d).wake := by
  have hworks : (s.resolve d).worksSoon = s.worksSoon := by
    simp only [worksSoon, resolve, Timeline.map, List.any_map]
    congr 1
    funext job
    cases job <;> rfl
  unfold wake
  rw [hworks, broker_resolve]
  split
  · rfl
  · exact resolve_spawn s .work

theorem around_resolve (s : Scenario) : (s.resolve d).around = s.around := by
  simp only [around, resolve, resolveParties, SortedMap.get?_mapValues, Option.map_map]
  rfl

theorem resolve_letGo (s : Scenario) : s.letGo.resolve d = (s.resolve d).letGo := resolve_wake _

theorem resolve_leave (s : Scenario) : s.leave.resolve d = (s.resolve d).leave := resolve_spawn s _

theorem resolve_answered (s : Scenario) (ticket : Ticket) :
    (s.answered ticket).resolve d = (s.resolve d).answered ticket := by
  unfold answered
  split
  · rw [resolve_leave, if_pos ‹_›]
    rfl
  · exact (if_neg ‹_›).symm

theorem resolve_announce (s : Scenario) (notice : Notice) (observers : List Observer) :
    (s.announce notice observers).resolve d = (s.resolve d).announce notice observers := by
  simp only [announce, resolve, hold, List.map_append, List.map_cons, List.map_map]
  rfl

/-! ### Steps -/

theorem resolveParties_introduce (parties : SortedMap Nat Party) (n : Nat) (p : Party) :
    resolveParties d (introduce parties n p) =
      introduce (resolveParties d parties) n (p.resolve d) := by
  have hcontains : (resolveParties d parties).contains n = parties.contains n := by
    simp only [resolveParties, SortedMap.contains_eq_isSome, SortedMap.get?_mapValues,
      Option.isSome_map]
  unfold introduce
  rw [hcontains]
  split
  · rfl
  · exact SortedMap.mapValues_insert ..

theorem party_resolve (step : Step) (retrievable : Bool) :
    (step.resolve d).party retrievable = (step.party retrievable).resolve d := by
  rw [Step.resolve_eq]
  rfl

theorem resolve_bringIn (s : Scenario) (step : Step) :
    (s.bringIn step).resolve d = (s.resolve d).bringIn (step.resolve d) := by
  have hparty := party_resolve (d := d) step
  have haction : (step.resolve d).action = step.action.resolve d := by rw [Step.resolve_eq]
  unfold bringIn
  rw [haction]
  cases step.action <;> simp only [Action.resolve, hparty, resolve, resolveParties_introduce]

/-- A call does the same whether it leaves out the default endpoint or names it. -/
theorem resolve_call (h : s.broker.config.endpoint = d) {c c' : Call}
    (hc : c.resolve d = c'.resolve d) :
    (s.resolve d).call c' = ((s.call c).1.resolve d, (s.call c).2) := by
  have hcall : s.broker.call s.tickets c' = s.broker.call s.tickets c := by
    rw [← Broker.call_resolve, h, ← hc, ← h, Broker.call_resolve]
  have hcalled (b : Broker) : ({ s.resolve d with broker := b, tickets := s.tickets + 1 } : Scenario) =
      ({ s with broker := b, tickets := s.tickets + 1 } : Scenario).resolve d := rfl
  simp only [call, resolve_wake]
  have htickets : (s.resolve d).tickets = s.tickets := rfl
  rw [broker_resolve, htickets, hcall, hcalled]
  cases (s.broker.call s.tickets c).2 with
  | announced notice observers => simp only [resolve_announce]
  | _ => rfl

theorem resolve_fire (s : Scenario) (id : TimerId) :
    (s.resolve d).fire id = ((s.fire id).1.resolve d, (s.fire id).2) := by
  have hmanual : (s.resolve d).manual = s.manual := rfl
  unfold fire
  rw [hmanual]
  cases s.manual.fire? id with
  | none => rfl
  | some x =>
    simp only [resolve_wake]
    rfl

theorem resolve_actWith (h : s.broker.config.endpoint = d) (step : Step) (scene : Scene) :
    (s.resolve d).actWith (step.resolve d) scene =
      ((s.actWith step scene).1.resolve d, (s.actWith step scene).2) := by
  have hin := resolve_bringIn (d := d) s step
  have haction : (step.resolve d).action = step.action.resolve d := by rw [Step.resolve_eq]
  have hhandle : (step.resolve d).handle = step.handle := by rw [Step.resolve_eq]
  have hcall (c c' : Call) (hc : c.resolve d = c'.resolve d) :
      ((s.resolve d).bringIn (step.resolve d)).call c' =
        (((s.bringIn step).call c).1.resolve d, ((s.bringIn step).call c).2) := by
    rw [← hin]
    exact resolve_call (by rw [broker_bringIn, h]) hc
  have hsame := step.action.call?_resolve d scene s.tickets
  unfold actWith
  rw [haction, hhandle]
  cases ha : step.action with
  | addObserver o =>
    simp only [Action.resolve, ← hin]
    rfl
  | removeObserver o =>
    simp only [Action.resolve, ← hin]
    rfl
  | drop =>
    simp only [Action.resolve, resolve_wake]
    rfl
  | info => rfl
  | share => rfl
  | fire id => rfl
  | setRetrievable provider retrievable => rfl
  | getDefaultContext => exact hcall _ _ rfl
  | metrics => exact hcall _ _ rfl
  | shutdown => exact hcall _ _ rfl
  | _ =>
    rw [ha] at hsame
    simp only [Action.resolve, Action.call?, Option.map_some, Option.some.injEq] at hsame ⊢
    exact hcall _ _ hsame.symm

theorem resolve_setRetrievable (s : Scenario) (provider : Provider) (retrievable : Bool) :
    (s.resolve d).setRetrievable provider retrievable =
      (s.setRetrievable provider retrievable).resolve d := by
  have hget : (s.resolve d).providers.get? provider =
      (s.providers.get? provider).map (·.resolve d) := SortedMap.get?_mapValues ..
  unfold setRetrievable
  rw [hget]
  cases s.providers.get? provider with
  | none => rfl
  | some p =>
    simp only [Option.map_some, resolve, resolveParties, SortedMap.mapValues_insert]
    rfl

/-- **A step does the same whether it leaves out the default endpoint or names it.** -/
theorem resolve_act (h : s.broker.config.endpoint = d) (step : Step) (scene : Scene) :
    (s.resolve d).act (step.resolve d) scene =
      ((s.act step scene).1.resolve d, (s.act step scene).2) := by
  have haction : (step.resolve d).action = step.action.resolve d := by rw [Step.resolve_eq]
  have hhandle : (step.resolve d).handle = step.handle := by rw [Step.resolve_eq]
  have hwith := resolve_actWith h step scene
  have hholds : (s.resolve d).holds step.handle = s.holds step.handle := rfl
  unfold act
  rw [haction, hhandle, hholds]
  cases ha : step.action with
  | fire id => exact resolve_fire s id
  | setRetrievable provider retrievable =>
    simp only [Action.resolve, ← resolve_bringIn, resolve_setRetrievable]
  | _ =>
    simp only [Action.resolve]
    split
    · exact hwith
    · rfl

/-! ### Frames -/

theorem callBack_resolve (parties : SortedMap Nat Party) (n : Nat) (scene : Scene) :
    callBack (resolveParties d parties) n scene =
      (resolveParties d (callBack parties n scene).1,
        (callBack parties n scene).2.map (·.resolve d)) := by
  have hget : (resolveParties d parties).get? n = (parties.get? n).map (·.resolve d) :=
    SortedMap.get?_mapValues ..
  unfold callBack
  rw [hget]
  cases parties.get? n with
  | none => rfl
  | some p =>
    have hcalled : (p.resolve d).called = (Step.resolveAll d p.called.1, p.called.2.resolve d) := by
      obtain ⟨retrievable, script, left⟩ := p
      cases left with
      | zero => simp [Party.called, Party.resolve, Step.resolveAll]
      | succ left => rfl
    simp only [Option.map_some, hcalled, resolveParties, SortedMap.mapValues_insert,
      Step.resolveAll_eq_map, List.map_map]
    rfl

/-- What comes of the step that is done in a frame, if one is. -/
def Frame.result? (s : Scenario) : Frame → Option Result
  | .perform step scene => if step.delay.isNone then some (s.act step scene).2 else none
  | .resume step scene => some (s.act step scene).2
  | _ => none

theorem resolve_runFrame (h : s.broker.config.endpoint = d) (frame : Frame) :
    (s.resolve d).runFrame (frame.resolve d) = (s.runFrame frame).resolve d ∧
      (frame.resolve d).result? (s.resolve d) = frame.result? s := by
  cases frame with
  | perform step scene =>
    have hdelay : (step.resolve d).delay = step.delay := by rw [Step.resolve_eq]
    simp only [Frame.resolve, runFrame, Frame.result?, hdelay, resolve_act h, and_true]
    cases step.delay with
    | some n => exact (resolve_spawn s (.wait n (.resume step scene))).symm
    | none =>
      simp only
      split
      · exact (resolve_leave (s.act step scene).1.hold).symm
      · rfl
  | resume step scene =>
    simp only [Frame.resolve, runFrame, Frame.result?, resolve_act h, and_true]
    cases (s.act step scene).2.awaited? <;> rfl
  | pull target token =>
    refine ⟨?_, rfl⟩
    have hback := callBack_resolve (d := d) s.providers target.provider ⟨target.identity, token⟩
    simp only [Frame.resolve, runFrame, resolve_note]
    simp only [resolve, hback, List.map_append]
  | deliver requester token outcome =>
    refine ⟨?_, rfl⟩
    have hback := callBack_resolve (d := d) s.requesters requester { token }
    simp only [Frame.resolve, runFrame, resolve_note]
    simp only [resolve, hback, List.map_append]
  | tell observer notice =>
    refine ⟨?_, rfl⟩
    have hback := callBack_resolve (d := d) s.observers observer { identity := notice.identity }
    simp only [Frame.resolve, runFrame, resolve_note]
    simp only [resolve, hback, List.map_append]
  | elapse id t generation =>
    refine ⟨?_, rfl⟩
    have htimer : (s.resolve d).timer = s.timer := rfl
    simp only [Frame.resolve, runFrame, htimer]
    cases s.timer.elapse? id with
    | none => rfl
    | some timer =>
      exact (resolve_wake { s with timer, broker := s.broker.elapse t generation }).symm
  | letGo => exact ⟨(resolve_letGo s).symm, rfl⟩

/-! ### Turns -/

theorem resolve_fulfil (s : Scenario) (e : Effect) :
    (s.resolve d).fulfil e = (s.fulfil e).resolve d := by
  cases e with
  | reply ticket r => exact (resolve_answered (s.note (.did (.reply ticket r))) ticket).symm
  | poll t targets =>
    simp only [fulfil, resolve_spawn, Job.resolve, List.map_map]
    rfl
  | deliver requester t outcome =>
    exact (resolve_spawn s (.act [.deliver requester t outcome])).symm
  | setTimer id delay t generation =>
    simp only [fulfil, ← resolve_note]
    generalize s.note (.did (.setTimer id delay t generation)) = n
    have htiming : (n.resolve d).timing = n.timing := rfl
    rw [htiming]
    split
    · exact (resolve_spawn { n with timer := n.timer.arm id }
        (.wait delay (.elapse id t generation))).symm
    · rfl
    · exact (resolve_wake { n with broker := n.broker.elapse t generation }).symm
  | cancelTimer id =>
    simp only [fulfil, ← resolve_note]
    generalize s.note (.did (.cancelTimer id)) = n
    have htiming : (n.resolve d).timing = n.timing := rfl
    rw [htiming]
    split <;> rfl

theorem resolve_foldl_fulfil (s : Scenario) (es : List Effect) :
    es.foldl fulfil (s.resolve d) = (es.foldl fulfil s).resolve d := by
  induction es generalizing s with
  | nil => rfl
  | cons e es ih => rw [List.foldl_cons, resolve_fulfil, ih, List.foldl_cons]

theorem resolve_turn? (h : s.broker.config.endpoint = d) :
    (s.resolve d).turn? = s.turn?.map (·.resolve d) := by
  have hagenda : (s.resolve d).agenda = s.agenda.map (·.resolve d) := rfl
  have hready : (s.resolve d).line.ready = s.line.ready.map (·.resolve d) := rfl
  have hwaiting : (s.resolve d).waiting = s.waiting := rfl
  unfold turn?
  rw [hagenda, hready, hwaiting, around_resolve, broker_resolve]
  cases ha : s.agenda with
  | cons frame agenda =>
    exact congrArg some (resolve_runFrame (s := { s with agenda }) h frame).1
  | nil =>
    cases hr : s.line.ready with
    | nil =>
      cases hw : s.waiting with
      | zero => rfl
      | succ waiting => exact congrArg some (resolve_letGo { s with waiting, agenda := [] }).symm
    | cons job ready =>
      cases job with
      | work =>
        cases s.broker.work? s.around with
        | some x => exact congrArg some (resolve_foldl_fulfil { s with broker := x.1, agenda := [] } x.2)
        | none => rfl
      | act frames => rfl
      | wait duration frame =>
        have hjob : (Job.wait duration frame).resolve d = .wait duration (frame.resolve d) := rfl
        have hsleep :=
          Timeline.map_sleep (Job.resolve d) { s.line with ready } duration (.act [frame])
        by_cases hd : duration = 0
        · simp only [List.map_cons, hd, if_true]
          rfl
        · simp only [List.map_cons, hjob, hd, if_false, Option.map_some, resolve, hsleep]
          rfl

/-- What comes of the step that is done in a move, if one is. -/
def result? (s : Scenario) : Move → Option Result
  | .step step => some (s.act step {}).2
  | .amid step scene => (Frame.perform step scene).result? s
  | .turn =>
    match s.agenda with
    | frame :: agenda => frame.result? { s with agenda }
    | [] => none
  | .wait _ => none

/-- **A move does the same whether it leaves out the default endpoint or names it.** -/
theorem resolve_apply (h : s.broker.config.endpoint = d) (m : Move) :
    (s.resolve d).apply (m.resolve d) = (s.apply m).resolve d ∧
      (s.resolve d).result? (m.resolve d) = s.result? m := by
  cases m with
  | step step =>
    simp only [Move.resolve, apply, result?, resolve_act h, and_true]
    split <;> rfl
  | amid step scene => exact resolve_runFrame h (.perform step scene)
  | turn =>
    refine ⟨?_, ?_⟩
    · simp only [Move.resolve, apply, resolve_turn? h]
      cases s.turn? <;> rfl
    · have hagenda : (s.resolve d).agenda = s.agenda.map (·.resolve d) := rfl
      simp only [Move.resolve, result?, hagenda]
      cases s.agenda with
      | nil => rfl
      | cons frame agenda => exact (resolve_runFrame (s := { s with agenda }) h frame).2
  | wait moment =>
    refine ⟨?_, rfl⟩
    simp only [Move.resolve, apply, resolve_turn? h, Option.isNone_map]
    have hnow : (s.resolve d).line.now = s.line.now := rfl
    have hnext : (s.resolve d).line.nextDeadline? = s.line.nextDeadline? := s.line.nextDeadline?_map _
    rw [hnow, hnext]
    split
    · simp only [resolve, Timeline.map_advance]
    · rfl

/-- What came of the steps that were done, in order. -/
def results (s : Scenario) : List Move → List Result
  | [] => []
  | m :: moves => (s.result? m).toList ++ (s.apply m).results moves

theorem resolve_run (h : s.Addressed d) (moves : List Move) :
    (s.resolve d).run (moves.map (·.resolve d)) = (s.run moves).resolve d ∧
      (s.resolve d).results (moves.map (·.resolve d)) = s.results moves := by
  induction moves generalizing s with
  | nil => exact ⟨rfl, rfl⟩
  | cons m moves ih =>
    obtain ⟨happly, hresult⟩ := resolve_apply h.endpoint m
    obtain ⟨hrun, hresults⟩ := ih (h.apply m)
    refine ⟨?_, ?_⟩
    · rw [List.map_cons, run_cons, happly, hrun, run_cons]
    · rw [List.map_cons, results, happly, hresult, hresults, results]

end

/-- **The empty endpoint is the default endpoint.** Moves that are the same once the default endpoint
    is filled in, also in the scripts of whom they bring in, go the same way: every step comes to the
    same result; the log is the same, that is replies, deliveries, calls to providers and what
    observers are told; the broker is the same, and so is all else but for what scripts leave out.
    And nothing in the broker, no call to a provider and nothing that an observer is told is about an
    empty endpoint, unless that is the default. -/
theorem empty_endpoint_is_default (config : Config) (last : Token) (today : Timestamp)
    (timing : Timing) (moves moves' : List Move)
    (h : moves.map (·.resolve config.endpoint) = moves'.map (·.resolve config.endpoint)) :
    let s₀ : Scenario := { start config last today with timing }
    let s := s₀.run moves
    let s' := s₀.run moves'
    let worker := s.broker.queue.worker
    (s₀.results moves = s₀.results moves' ∧ s.log = s'.log ∧ s.broker = s'.broker ∧
      s.resolve config.endpoint = s'.resolve config.endpoint) ∧
    (config.endpoint ≠ "" →
      (∀ endpoint i b, (worker.store.bindings endpoint).get? i = some b → i.endpoint ≠ "") ∧
      (∀ t r i, worker.requests.get? t = some r → r.awaits i = true → i.endpoint ≠ "") ∧
      (∀ task ∈ s.broker.queue.tasks, ∀ e ∈ task.endpoint?, e ≠ "") ∧
      ∀ e ∈ s.log, ∀ i ∈ e.about?, i.endpoint ≠ "") := by
  intro s₀ s s' worker
  have hstart : s₀.Addressed config.endpoint := .start config last today timing
  have hresolve : s₀.resolve config.endpoint = s₀ := rfl
  obtain ⟨hrun, hresults⟩ := resolve_run hstart moves
  obtain ⟨hrun', hresults'⟩ := resolve_run hstart moves'
  rw [h] at hrun hresults
  have hsame : s.resolve config.endpoint = s'.resolve config.endpoint := hrun.symm.trans hrun'
  have haddressed : s.Addressed config.endpoint := hstart.run moves
  have hlog : (s.resolve config.endpoint).log = (s'.resolve config.endpoint).log := by rw [hsame]
  have hbroker : (s.resolve config.endpoint).broker = (s'.resolve config.endpoint).broker := by
    rw [hsame]
  refine ⟨⟨hresults.symm.trans hresults', hlog, hbroker, hsame⟩, ?_⟩
  intro hd
  refine ⟨?_, ?_, ?_, ?_⟩
  · intro endpoint i b hb
    exact haddressed.worker.store endpoint i b hb hd
  · intro t r i hr hi
    exact haddressed.worker.awaited t r i hr hi hd
  · intro task htask e he
    exact haddressed.tasks task htask e he hd
  · intro e he i hi
    exact haddressed.log e he i hi hd

/-- A sensor on the endpoint `e` is asked by a request for the endpoint `e'`, and from within the
    call it answers for itself by `e'`. -/
def asked (e e' : String) : List Move := [
  .step {
    action := .register (some ⟨"climate", "temperature", none, e⟩) 0 .pull true
    script := [{ action := .respond (some ⟨"climate", "temperature", none, e'⟩) default .own }] },
  .turn, .turn, .step { action := .getContext e' 1000 }, .turn, .turn, .turn, .turn, .turn, .turn,
  .turn, .turn, .turn, .turn]

/-- In a kitchen a sensor may leave out the kitchen when it registers, or when it answers; either way
    one context with its state is delivered. -/
theorem empty_endpoint_is_default_kitchen :
    let s₀ : Scenario := { start { endpoint := "kitchen" } 0 default with timing := .clock }
    (asked "" "kitchen").map (·.resolve "kitchen") = (asked "kitchen" "").map (·.resolve "kitchen") ∧
    s₀.results (asked "" "kitchen") = s₀.results (asked "kitchen" "") ∧
    (s₀.run (asked "" "kitchen")).log = (s₀.run (asked "kitchen" "")).log ∧
    ((s₀.run (asked "" "kitchen")).log.any fun e => match e with
      | .did (.deliver _ _ (.context endpoint context)) => endpoint = "kitchen" && context.length = 1
      | _ => false) = true ∧
    ∀ e ∈ (s₀.run (asked "" "kitchen")).log, ∀ i ∈ e.about?, i.endpoint ≠ "" := by
  intro s₀
  have h : (asked "" "kitchen").map (·.resolve "kitchen") =
      (asked "kitchen" "").map (·.resolve "kitchen") := by
    simp [asked, Move.resolve, Step.resolve, Step.resolveAll, Action.resolve, Identity.resolve,
      Identity.resolveEndpoint]
  obtain ⟨⟨hresults, hlog, -, -⟩, haddressed⟩ :=
    empty_endpoint_is_default { endpoint := "kitchen" } 0 default .clock _ _ h
  exact ⟨h, hresults, hlog, by decide +kernel, (haddressed (by decide)).2.2.2⟩

end Scenario

end ContextBroker
