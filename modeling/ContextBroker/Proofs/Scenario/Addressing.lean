import ContextBroker.Proofs.Broker.Posting
import ContextBroker.Proofs.Docket.View
import ContextBroker.Proofs.History.Decisions
import ContextBroker.Proofs.Scenario.Holding
import ContextBroker.Proofs.Scenario.Timeouts
import ContextBroker.Proofs.Worker.Within

set_option autoImplicit false

/-! # Every endpoint is one that was meant

A broker fills in the default endpoint where a call leaves the endpoint out, and only calls bring in
endpoints. So an empty endpoint gets no further than the call, unless it is the default itself: no
task, nothing that the worker knows, no call to a provider and nothing that an observer is told is
about an endpoint that was left out (`Scenario.Addressed`). -/

namespace ContextBroker

/-- The endpoint does not stand for another one, the default endpoint being `d`. -/
def Meant (d e : String) : Prop := d ≠ "" → e ≠ ""

theorem meant_resolveEndpoint (d e : String) : Meant d (Identity.resolveEndpoint d e) := by
  intro hd
  unfold Identity.resolveEndpoint
  split
  · exact hd
  · rwa [String.isEmpty_iff] at *

namespace Broker

variable {b : Broker} {ticket : Ticket} {c : Call}

/-- The task of a call is about an endpoint that was meant. -/
theorem meant_task (b : Broker) (u : Underway) :
    ∀ e ∈ (b.task u).endpoint?, Meant b.config.endpoint e := by
  intro e he
  unfold task at he
  split at he <;> simp only [Task.endpoint?, Option.mem_def, Option.some.injEq, reduceCtorEq] at he
  all_goals
    subst he
    exact meant_resolveEndpoint _ _

theorem not_announced_refusal (c : Call) (notice : Notice) (observers : List Observer) :
    c.refusal ≠ .announced notice observers := by
  cases c <;> simp [Call.refusal]

theorem meant_accepted {u : Underway} {notice : Notice} {observers : List Observer}
    (h : b.accepted u = .announced notice observers) :
    Meant b.config.endpoint notice.identity.endpoint := by
  unfold accepted at h
  split at h
  · obtain ⟨rfl, -⟩ := Response.announced.inj h
    exact meant_resolveEndpoint _ _
  all_goals cases h

/-- What a call makes of a broker, and whom it tells observers of. -/
structure Posts (b : Broker) (r : Broker × Response) : Prop where
  /-- It uses the allocator, may end the work and posts one task at most. -/
  broker : ∃ tokens more shuttingDown, r.1 = { b with
      queue := { b.queue with worker.tokens := tokens, tasks := b.queue.tasks ++ more }
      shuttingDown } ∧
    ∀ task ∈ more, ∀ e ∈ task.endpoint?, Meant b.config.endpoint e
  told (notice : Notice) (observers : List Observer) : r.2 = .announced notice observers →
    Meant b.config.endpoint notice.identity.endpoint

theorem posts_finish (b : Broker) (tokens : TokenAllocator) (shuttingDown : Bool) (u : Underway) :
    Posts b ({ b with queue.worker.tokens := tokens, shuttingDown }.finish u) := by
  unfold finish
  split
  · rename_i queue hq
    have hpost := WorkQueue.post_eq { b.queue with worker.tokens := tokens }
      (task { b with queue.worker.tokens := tokens, shuttingDown } u)
    rw [WorkQueue.post, hq, Option.getD_some] at hpost
    refine ⟨⟨tokens, _, shuttingDown, by rw [hpost], fun task htask => ?_⟩,
      fun notice observers => meant_accepted⟩
    split at htask
    · rw [List.mem_singleton.1 htask]
      exact meant_task { b with queue.worker.tokens := tokens, shuttingDown } u
    · cases htask
  · refine ⟨?_, fun notice observers h => absurd h (not_announced_refusal _ _ _)⟩
    unfold giveUp
    split
    · exact ⟨_, [], shuttingDown, by rw [List.append_nil], by simp⟩
    · exact ⟨tokens, [], shuttingDown, by rw [List.append_nil], by simp⟩

theorem posts_call (b : Broker) (ticket : Ticket) (c : Call) : Posts b (b.call ticket c) := by
  have hrefused (response : Response) (h : ∀ n os, response ≠ .announced n os) :
      Posts b (b, response) :=
    ⟨⟨b.queue.worker.tokens, [], b.shuttingDown, by simp, by simp⟩, fun n os he => absurd he (h n os)⟩
  rw [call_eq]
  unfold begin
  by_cases hs : b.shuttingDown = true
  · rw [if_pos hs]
    exact hrefused _ (not_announced_refusal c)
  · rw [if_neg hs]
    cases hc : c.requester? with
    | none => exact posts_finish b b.queue.worker.tokens _ _
    | some requester =>
      cases ht : b.queue.worker.tokens.allocate? with
      | none => exact hrefused .exhausted (by simp)
      | some x => exact posts_finish b x.2 b.shuttingDown _

end Broker

namespace Scenario

/-! ## What names an endpoint -/

/-- The identity that somebody is told of in a frame. -/
def Frame.about? : Frame → Option Identity
  | .pull target _ => some target.identity
  | .tell _ notice => some notice.identity
  | _ => none

/-- The identity that somebody was told of. -/
def Event.about? : Event → Option Identity
  | .pulled target _ => some target.identity
  | .told _ notice => some notice.identity
  | .did _ => none

/-- The frames of a job. -/
def Job.steps : Job → List Frame
  | .work => []
  | .act frames => frames
  | .wait _ frame => [frame]

/-- Who is told of an identity in these frames is told of an endpoint that was meant. -/
def MeantIn (d : String) (frames : List Frame) : Prop :=
  ∀ f ∈ frames, ∀ i ∈ f.about?, Meant d i.endpoint

theorem meantIn_of_quiet {d : String} {frames : List Frame} (h : ∀ f ∈ frames, f.about? = none) :
    MeantIn d frames := by
  intro f hf i hi
  rw [h f hf] at hi
  cases hi

/-- With `d` as the default endpoint nothing in a scenario is about an endpoint that was left
    out. -/
structure Addressed (d : String) (s : Scenario) : Prop where
  endpoint : s.broker.config.endpoint = d
  worker : s.broker.queue.worker.Within (Meant d)
  tasks (task : Task) : task ∈ s.broker.queue.tasks → ∀ e ∈ task.endpoint?, Meant d e
  agenda : MeantIn d s.agenda
  ready (job : Job) : job ∈ s.line.ready → MeantIn d job.steps
  asleep (p : Nat × Job) : p ∈ s.line.asleep → MeantIn d p.2.steps
  log (e : Event) : e ∈ s.log → ∀ i ∈ e.about?, Meant d i.endpoint

namespace Addressed

variable {d : String} {s s' : Scenario}

theorem start (config : Config) (last : Token) (today : Timestamp) (timing : Timing) :
    Addressed config.endpoint { Scenario.start config last today with timing } where
  endpoint := rfl
  worker := {
    store := fun _ _ _ h => by simp [Scenario.start, Store.bindings] at h
    awaited := fun _ _ _ h => by simp [Scenario.start] at h }
  tasks _ h := absurd h List.not_mem_nil
  agenda _ h := absurd h List.not_mem_nil
  ready _ h := absurd h List.not_mem_nil
  asleep _ h := absurd h List.not_mem_nil
  log _ h := absurd h List.not_mem_nil

/-- The broker goes on. -/
theorem withBroker (h : Addressed d s) (hconfig : s'.broker.config = s.broker.config)
    (hworker : s'.broker.queue.worker.Within (Meant d))
    (htasks : ∀ task ∈ s'.broker.queue.tasks, task ∈ s.broker.queue.tasks ∨
      ∀ e ∈ task.endpoint?, Meant d e)
    (hagenda : s'.agenda = s.agenda) (hline : s'.line = s.line) (hlog : s'.log = s.log) :
    Addressed d s' :=
  ⟨hconfig ▸ h.endpoint, hworker, fun task ht => (htasks task ht).elim (h.tasks task) id,
    hagenda ▸ h.agenda, hline ▸ h.ready, hline ▸ h.asleep, hlog ▸ h.log⟩

/-- Others hold the broker or observe it. -/
theorem of_eq (h : Addressed d s) (hconfig : s'.broker.config = s.broker.config)
    (hworker : s'.broker.queue.worker = s.broker.queue.worker)
    (htasks : s'.broker.queue.tasks = s.broker.queue.tasks)
    (hagenda : s'.agenda = s.agenda) (hline : s'.line = s.line) (hlog : s'.log = s.log) :
    Addressed d s' :=
  h.withBroker hconfig (hworker ▸ h.worker) (fun _ ht => .inl (htasks ▸ ht)) hagenda hline hlog

theorem note (h : Addressed d s) {e : Event} (he : ∀ i ∈ e.about?, Meant d i.endpoint) :
    Addressed d (s.note e) := by
  refine ⟨h.endpoint, h.worker, h.tasks, h.agenda, h.ready, h.asleep, fun e' he' => ?_⟩
  rcases List.mem_append.1 he' with he' | he'
  · exact h.log e' he'
  · rwa [List.mem_singleton.1 he']

theorem spawn (h : Addressed d s) {job : Job} (hjob : MeantIn d job.steps) :
    Addressed d (s.spawn job) := by
  refine ⟨h.endpoint, h.worker, h.tasks, h.agenda, fun job' hj => ?_, h.asleep, h.log⟩
  rcases List.mem_append.1 hj with hj | hj
  · exact h.ready job' hj
  · rwa [List.mem_singleton.1 hj]

/-- Frames come on the agenda. -/
theorem push (h : Addressed d s) {frames : List Frame} (hframes : MeantIn d frames) :
    Addressed d { s with agenda := frames ++ s.agenda } :=
  ⟨h.endpoint, h.worker, h.tasks, fun f hf => (List.mem_append.1 hf).elim (hframes f) (h.agenda f),
    h.ready, h.asleep, h.log⟩

/-! ### Who holds the broker -/

theorem wake (h : Addressed d s) : Addressed d s.wake := by
  unfold Scenario.wake
  split
  · exact h
  · exact h.spawn (meantIn_of_quiet (by simp [Job.steps]))

theorem hold (h : Addressed d s) : Addressed d s.hold := h.of_eq rfl rfl rfl rfl rfl rfl

theorem leave (h : Addressed d s) : Addressed d s.leave :=
  h.spawn (meantIn_of_quiet (by simp [Job.steps, Frame.about?]))

theorem letGo (h : Addressed d s) : Addressed d s.letGo :=
  wake (h.of_eq rfl rfl rfl rfl rfl rfl)

theorem elapse (h : Addressed d s) (t : Token) (generation : Nat) (timer : Timer)
    (manual : ManualTimer) :
    Addressed d { s with timer, manual, broker := s.broker.elapse t generation } := by
  have hq : s.broker.elapse t generation = { s.broker with queue := { s.broker.queue with
      tasks := s.broker.queue.tasks ++
        if s.broker.queue.isOpen then [.timeout t generation] else [] } } := by
    rw [Broker.elapse, WorkQueue.post_eq]
  rw [hq]
  refine h.withBroker rfl h.worker (fun task ht => ?_) rfl rfl rfl
  refine (List.mem_append.1 ht).imp_right fun ht => ?_
  split at ht
  · rw [List.mem_singleton.1 ht]
    simp [Task.endpoint?]
  · cases ht

/-! ### Steps -/

theorem call (h : Addressed d s) (c : Call) : Addressed d (s.call c).1 := by
  obtain ⟨⟨tokens, more, shuttingDown, hb, hmore⟩, htold⟩ := s.broker.posts_call s.tickets c
  have hcall : Addressed d
      { s with broker := (s.broker.call s.tickets c).1, tickets := s.tickets + 1 } := by
    rw [hb]
    refine h.withBroker rfl ⟨h.worker.store, h.worker.awaited⟩ (fun task ht => ?_) rfl rfl rfl
    exact (List.mem_append.1 ht).imp_right fun ht => h.endpoint ▸ hmore task ht
  simp only [Scenario.call]
  refine wake ?_
  split
  · rename_i notice observers hr
    have htell : MeantIn d (observers.map (.tell · notice) ++ [.letGo]) := by
      intro f hf i hi
      rcases List.mem_append.1 hf with hf | hf
      · obtain ⟨o, -, rfl⟩ := List.mem_map.1 hf
        obtain rfl := Option.some.inj hi
        exact h.endpoint ▸ htold notice observers hr
      · rw [List.mem_singleton.1 hf] at hi
        cases hi
    have hpush := hcall.hold.push htell
    rw [List.append_assoc] at hpush
    exact hpush
  · exact hcall

theorem bringIn (h : Addressed d s) (step : Step) : Addressed d (s.bringIn step) := by
  unfold Scenario.bringIn
  split <;> exact h.of_eq rfl rfl rfl rfl rfl rfl

theorem actWith (h : Addressed d s) (step : Step) (scene : Scene) :
    Addressed d (s.actWith step scene).1 := by
  have hin := h.bringIn step
  have hbroker := s.broker_bringIn step
  unfold Scenario.actWith
  split
  · exact hin.of_eq (by simp [hbroker]) (by simp [hbroker]) (by simp [hbroker]) rfl rfl rfl
  · exact hin.of_eq (by simp [hbroker]) (by simp [hbroker]) (by simp [hbroker]) rfl rfl rfl
  · exact h
  · exact h.of_eq rfl rfl rfl rfl rfl rfl
  · exact wake (h.of_eq rfl rfl rfl rfl rfl rfl)
  · split
    · exact hin.call _
    · exact h

theorem act (h : Addressed d s) (step : Step) (scene : Scene) :
    Addressed d (s.act step scene).1 := by
  unfold Scenario.act
  split
  · unfold Scenario.fire
    split
    · exact h
    · exact (h.elapse _ _ s.timer _).wake
  · unfold Scenario.setRetrievable
    split
    · exact (h.bringIn step).of_eq rfl rfl rfl rfl rfl rfl
    · exact h.bringIn step
  · split
    · exact h.actWith step scene
    · exact h

/-! ### Frames -/

/-- Whoever is called back does its script. -/
theorem perform (h : Addressed d s) (parties : SortedMap Nat Party) (k : Nat) (scene : Scene) :
    Addressed d { s with agenda := (callBack parties k scene).2 ++ s.agenda } := by
  refine h.push (meantIn_of_quiet fun f hf => ?_)
  unfold callBack at hf
  split at hf
  · cases hf
  · obtain ⟨step, -, rfl⟩ := List.mem_map.1 hf
    rfl

theorem runFrame (h : Addressed d s) {frame : Frame}
    (hframe : ∀ i ∈ frame.about?, Meant d i.endpoint) : Addressed d (s.runFrame frame) := by
  cases frame with
  | perform step scene =>
    simp only [Scenario.runFrame]
    split
    · exact h.spawn (meantIn_of_quiet (by simp [Job.steps, Frame.about?]))
    · split
      · exact (h.act step scene).hold.leave
      · exact h.act step scene
  | resume step scene =>
    simp only [Scenario.runFrame]
    split
    · exact (h.act step scene).of_eq rfl rfl rfl rfl rfl rfl
    · exact h.act step scene
  | pull target token =>
    exact ((h.perform s.providers target.provider ⟨target.identity, token⟩).note
      (e := .pulled target token) hframe).of_eq rfl rfl rfl rfl rfl rfl
  | deliver requester token outcome =>
    exact ((h.perform s.requesters requester { token }).note
      (e := .did (.deliver requester token outcome)) (by simp [Event.about?])).of_eq
        rfl rfl rfl rfl rfl rfl
  | tell observer notice =>
    exact ((h.perform s.observers observer { identity := notice.identity }).note
      (e := .told observer notice) hframe).of_eq rfl rfl rfl rfl rfl rfl
  | elapse id t generation =>
    simp only [Scenario.runFrame]
    split
    · exact (h.elapse t generation _ s.manual).wake
    · exact h
  | letGo => exact h.letGo

/-- The first frame is taken from the agenda. -/
theorem next (h : Addressed d s) {frame : Frame} {rest : List Frame}
    (hs : s.agenda = frame :: rest) : Addressed d ({ s with agenda := rest }.runFrame frame) := by
  have hmeant := hs ▸ h.agenda
  have hrest : Addressed d { s with agenda := rest } :=
    ⟨h.endpoint, h.worker, h.tasks, fun f hf => hmeant f (List.mem_cons_of_mem _ hf), h.ready,
      h.asleep, h.log⟩
  exact hrest.runFrame (hmeant frame List.mem_cons_self)

/-! ### Turns -/

theorem fulfil (h : Addressed d s) {e : Effect} (he : ∀ t targets, e = .poll t targets →
    ∀ target ∈ targets, Meant d target.identity.endpoint) : Addressed d (s.fulfil e) := by
  have hnote : Addressed d (s.note (.did e)) := h.note (by simp [Event.about?])
  cases e with
  | reply ticket r =>
    simp only [Scenario.fulfil, answered]
    split
    · exact leave (hnote.of_eq rfl rfl rfl rfl rfl rfl)
    · exact hnote
  | poll t targets =>
    refine h.spawn fun f hf i hi => ?_
    obtain ⟨target, htarget, rfl⟩ := List.mem_map.1 hf
    obtain rfl := Option.some.inj hi
    exact he t targets rfl target htarget
  | deliver requester t outcome =>
    exact h.spawn (meantIn_of_quiet (by simp [Job.steps, Frame.about?]))
  | setTimer id delay t generation =>
    simp only [Scenario.fulfil]
    split
    · have harmed : Addressed d
          { s.note (.did (.setTimer id delay t generation)) with timer := s.timer.arm id } :=
        hnote.of_eq rfl rfl rfl rfl rfl rfl
      exact harmed.spawn (meantIn_of_quiet (by simp [Job.steps, Frame.about?]))
    · exact hnote.of_eq rfl rfl rfl rfl rfl rfl
    · exact (hnote.elapse t generation s.timer s.manual).wake
  | cancelTimer id =>
    simp only [Scenario.fulfil]
    split <;> exact hnote.of_eq rfl rfl rfl rfl rfl rfl

theorem foldl_fulfil (h : Addressed d s) {es : List Effect} (hes : ∀ t targets,
    .poll t targets ∈ es → ∀ target ∈ targets, Meant d target.identity.endpoint) :
    Addressed d (es.foldl Scenario.fulfil s) := by
  induction es generalizing s with
  | nil => exact h
  | cons e es ih =>
    refine ih (h.fulfil fun t targets he => ?_) fun t targets he => ?_
    · exact hes t targets (he ▸ List.mem_cons_self)
    · exact hes t targets (List.mem_cons_of_mem _ he)

/-- The worker takes what is next. -/
theorem work (h : Addressed d s) {b : Broker} {effects : List Effect}
    (hw : s.broker.work? s.around = some (b, effects)) :
    Addressed d (effects.foldl Scenario.fulfil { s with broker := b }) := by
  obtain ⟨⟨q, es⟩, hq, he⟩ := Option.map_eq_some_iff.1 hw
  obtain ⟨rfl, rfl⟩ := Prod.mk.inj he
  rw [WorkQueue.take?_eq, Option.map_eq_some_iff] at hq
  obtain ⟨turn, hturn, hq⟩ := hq
  cases hstep : s.broker.queue.worker.turn turn with
  | error fault =>
    rw [hstep] at hq
    obtain ⟨rfl, rfl⟩ := Prod.mk.inj hq
    exact h.withBroker rfl h.worker (fun task ht => absurd ht List.not_mem_nil) rfl rfl rfl
  | ok step =>
    rw [hstep] at hq
    obtain ⟨rfl, rfl⟩ := Prod.mk.inj hq
    obtain ⟨htask, htasks⟩ := WorkQueue.mem_tasks_of_turn? hturn
    obtain ⟨hworker, hpolls⟩ := h.worker.turn (fun around i provider kind ticket ht =>
      h.tasks _ (htask around _ ht) i.endpoint rfl) hstep
    refine foldl_fulfil ?_ hpolls
    exact h.withBroker rfl hworker (fun task ht => .inl (htasks step.1 task ht)) rfl rfl rfl

theorem turn (h : Addressed d s) (ht : s.turn? = some s') : Addressed d s' := by
  unfold turn? at ht
  split at ht
  · rename_i frame rest hagenda
    obtain rfl := Option.some.inj ht
    exact h.next hagenda
  · rename_i hagenda
    split at ht
    · split at ht
      · cases ht
      · obtain rfl := Option.some.inj ht
        exact letGo (h.of_eq rfl rfl rfl rfl rfl rfl)
    · rename_i ready hready
      split at ht
      · rename_i b effects hw
        obtain rfl := Option.some.inj ht
        exact h.work hw
      · obtain rfl := Option.some.inj ht
        refine ⟨h.endpoint, h.worker, h.tasks, h.agenda, fun job hj => h.ready job ?_, h.asleep, h.log⟩
        exact hready ▸ List.mem_cons_of_mem _ hj
    · rename_i frames ready hready
      obtain rfl := Option.some.inj ht
      refine ⟨h.endpoint, h.worker, h.tasks, h.ready (.act frames) (hready ▸ List.mem_cons_self),
        fun job hj => h.ready job ?_, h.asleep, h.log⟩
      exact hready ▸ List.mem_cons_of_mem _ hj
    · rename_i duration frame ready hready
      have hframe := h.ready (.wait duration frame) (hready ▸ List.mem_cons_self)
      have hrest (job : Job) (hj : job ∈ ready) : MeantIn d job.steps :=
        h.ready job (hready ▸ List.mem_cons_of_mem _ hj)
      split at ht
      · obtain rfl := Option.some.inj ht
        exact ⟨h.endpoint, h.worker, h.tasks, hframe, hrest, h.asleep, h.log⟩
      · obtain rfl := Option.some.inj ht
        refine ⟨h.endpoint, h.worker, h.tasks, h.agenda, hrest, fun p hp => ?_, h.log⟩
        rcases List.mem_cons.1 ((Timeline.insertSleeper_perm _ _ _).mem_iff.1 hp) with rfl | hp
        · exact hframe
        · exact h.asleep p hp

theorem apply (h : Addressed d s) (m : Move) : Addressed d (s.apply m) := by
  cases m with
  | step step =>
    simp only [Scenario.apply]
    split
    · exact (h.act step {}).of_eq rfl rfl rfl rfl rfl rfl
    · exact h.act step {}
  | amid step scene =>
    show Addressed d (s.runFrame (.perform step scene))
    exact h.runFrame (by simp [Frame.about?])
  | turn =>
    simp only [Scenario.apply]
    cases ht : s.turn? with
    | none => exact h
    | some s' => exact h.turn ht
  | wait moment =>
    simp only [Scenario.apply]
    split
    · refine ⟨h.endpoint, h.worker, h.tasks, h.agenda, fun job hj => ?_, fun p hp => ?_, h.log⟩
      · rcases List.mem_append.1 hj with hj | hj
        · exact h.ready job hj
        · obtain ⟨p, hp, rfl⟩ := List.mem_map.1 hj
          exact h.asleep p ((List.takeWhile_sublist _).subset hp)
      · exact h.asleep p ((List.dropWhile_sublist _).subset hp)
    · exact h

theorem run (h : Addressed d s) (moves : List Move) : Addressed d (s.run moves) := by
  induction moves generalizing s with
  | nil => exact h
  | cons m moves ih => exact ih (h.apply m)

end Addressed

end Scenario

end ContextBroker
