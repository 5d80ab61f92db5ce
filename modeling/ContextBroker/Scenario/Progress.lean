import ContextBroker.Scenario

set_option autoImplicit false

/-! # Scenarios come to rest

The weight of a scenario bounds what it can still set off: what stands in line or sleeps, what is on
the agenda, what is queued for the worker, what the parties may still do, and the callers that wait.
A turn lowers it, or leaves it and shortens the agenda; a waking lowers it. -/

namespace ContextBroker

namespace Scenario

/-! ## Weights -/

/-- What a frame can set off. A party's own share is counted with the party; a delay that is over
    counts no longer. -/
def Frame.weight : Frame → Nat
  | .perform step _ => step.weight
  | .resume step _ => step.weight - 4
  | .elapse .. => 2
  | .letGo => 1
  | .pull .. | .deliver .. | .tell .. => 0

/-- What frames can set off. -/
def agendaWeight (frames : List Frame) : Nat := tally Frame.weight frames

@[simp] theorem agendaWeight_nil : agendaWeight [] = 0 := rfl

@[simp] theorem agendaWeight_cons (f : Frame) (fs : List Frame) :
    agendaWeight (f :: fs) = f.weight + agendaWeight fs := by
  simp [agendaWeight]

@[simp] theorem agendaWeight_append (fs gs : List Frame) :
    agendaWeight (fs ++ gs) = agendaWeight fs + agendaWeight gs := by
  simp [agendaWeight]

theorem agendaWeight_map_eq_zero {α : Type} (as : List α) {f : α → Frame}
    (h : ∀ a, (f a).weight = 0) : agendaWeight (as.map f) = 0 := by
  rw [agendaWeight, tally_map]
  exact tally_eq_zero h as

theorem agendaWeight_map_perform (steps : List Step) (scene : Scene) :
    agendaWeight (steps.map (.perform · scene)) = Step.weights steps := by
  induction steps with
  | nil => simp [Step.weights]
  | cons step steps ih => simp [ih, Step.weights, Frame.weight]

/-- What a job can set off. -/
def Job.weight : Job → Nat
  | .work => 1
  | .act frames => 1 + agendaWeight frames
  | .wait _ frame => 3 + frame.weight

/-- What a scenario can still set off. -/
def weight (s : Scenario) : Nat :=
  s.line.weight Job.weight + agendaWeight s.agenda + s.broker.queue.weight +
    s.providers.total Party.weight + s.requesters.total Party.weight +
    s.observers.total Party.weight + 2 * s.awaited.length + 2 * s.waiting

@[simp] theorem weight_note (s : Scenario) (e : Event) : (s.note e).weight = s.weight := rfl

@[simp] theorem agenda_note (s : Scenario) (e : Event) : (s.note e).agenda = s.agenda := rfl

@[simp] theorem weight_spawn (s : Scenario) (job : Job) :
    (s.spawn job).weight = s.weight + job.weight := by
  simp only [weight, spawn, Timeline.weight_spawn]
  omega

theorem weight_wake_le (s : Scenario) : s.wake.weight ≤ s.weight + 1 := by
  unfold wake
  split
  · omega
  · simp [Job.weight]

/-! ## Parties -/

theorem total_introduce_le (parties : SortedMap Nat Party) (n : Nat) (p : Party) :
    (introduce parties n p).total Party.weight ≤ parties.total Party.weight + p.weight := by
  unfold introduce
  split
  · omega
  · have := parties.total_insert Party.weight n p
    omega

/-- What a party does when it is called back was counted with the party. -/
theorem total_callBack (parties : SortedMap Nat Party) (n : Nat) (scene : Scene) :
    (callBack parties n scene).1.total Party.weight + agendaWeight (callBack parties n scene).2 ≤
        parties.total Party.weight ∧
      ((callBack parties n scene).2 ≠ [] →
        (callBack parties n scene).1.total Party.weight +
          agendaWeight (callBack parties n scene).2 < parties.total Party.weight) := by
  unfold callBack
  cases h : parties.get? n with
  | none => simp
  | some p =>
    have hc := p.weight_called
    have ht := parties.total_insert Party.weight n p.called.2
    rw [SortedMap.share_of_get? h] at ht
    simp only [agendaWeight_map_perform, ne_eq, List.map_eq_nil_iff]
    exact ⟨by omega, fun hne => by have := hc.2 hne; omega⟩

theorem weight_party (step : Step) (retrievable : Bool) :
    (step.party retrievable).weight = step.times * (1 + Step.weights step.script) := rfl

theorem weight_bringIn_le (s : Scenario) (step : Step) :
    (s.bringIn step).weight ≤ s.weight + step.times * (1 + Step.weights step.script) := by
  unfold bringIn
  split
  · rename_i provider _ retrievable _
    have := total_introduce_le s.providers provider (step.party retrievable)
    rw [weight_party] at this
    simp only [weight]
    omega
  · have := total_introduce_le s.requesters s.tickets (step.party true)
    rw [weight_party] at this
    simp only [weight]
    omega
  · have := total_introduce_le s.requesters s.tickets (step.party true)
    rw [weight_party] at this
    simp only [weight]
    omega
  · rename_i o _
    have := total_introduce_le s.observers o (step.party true)
    rw [weight_party] at this
    simp only [weight]
    omega
  · rename_i o _
    have := total_introduce_le s.observers o (step.party true)
    rw [weight_party] at this
    simp only [weight]
    omega
  · rename_i provider retrievable _
    have := total_introduce_le s.providers provider (step.party retrievable)
    rw [weight_party] at this
    simp only [weight]
    omega
  · omega

theorem weight_setRetrievable (s : Scenario) (provider : Provider) (retrievable : Bool) :
    (s.setRetrievable provider retrievable).weight = s.weight := by
  unfold setRetrievable
  split
  · rename_i p h
    have ht := s.providers.total_insert Party.weight provider { p with retrievable }
    rw [SortedMap.share_of_get? h] at ht
    simp only [Party.weight] at ht
    simp only [weight]
    omega
  · rfl

end Scenario

/-! ## Calls -/

namespace Broker

theorem weight_post?_le {b b' : Broker} {task : Task} (h : b.post? task = some b') :
    b'.queue.weight ≤ b.queue.weight + 8 := by
  unfold post? at h
  split at h
  · simp at h
  · obtain ⟨queue, hq, rfl⟩ := Option.map_eq_some_iff.1 h
    have hw := b.queue.weight_post_le task
    have ht := task.weight_le
    simp only [WorkQueue.post, hq, Option.getD_some] at hw
    exact Nat.le_trans hw (by omega)

theorem weight_submit_le (b : Broker) (task : Task) (response : Response) :
    (b.submit task response).1.queue.weight ≤ b.queue.weight + 8 := by
  unfold submit
  split
  · rename_i b' h
    exact weight_post?_le h
  · simp

theorem weight_notify_le (b : Broker) (task : Task) :
    (b.notify task).1.queue.weight ≤ b.queue.weight + 8 := by
  unfold notify
  cases h : b.post? task with
  | none => simp
  | some b' => exact weight_post?_le h

theorem weight_request_le (b : Broker) (requester : Requester) (endpoint : String)
    (timeout : Nat) : (b.request requester endpoint timeout).1.queue.weight ≤ b.queue.weight + 8 := by
  unfold request
  split
  · simp
  · split
    · simp
    · simp only
      split
      · rename_i token tokens _ _ b' h
        exact weight_post?_le (b := { b with queue.worker.tokens := tokens }) h
      · exact Nat.le_add_right _ _

theorem weight_shutdown_le (b : Broker) (ticket : Ticket) :
    (b.shutdown ticket).1.queue.weight ≤ b.queue.weight + 8 := by
  unfold shutdown
  split
  · simp
  · split
    · rename_i queue h
      have hw := b.queue.weight_post_le (.shutdown (some ticket))
      simp only [WorkQueue.post, h, Option.getD_some, Task.weight] at hw
      simp only
      omega
    · simp

/-- A call posts one task at most. -/
theorem weight_call_le (b : Broker) (ticket : Ticket) (c : Call) :
    (b.call ticket c).1.queue.weight ≤ b.queue.weight + 8 := by
  cases c <;> simp only [call]
  case getContext => exact weight_request_le ..
  case getDefaultContext => exact weight_request_le ..
  case respond => exact weight_notify_le ..
  case unavailable => exact weight_notify_le ..
  case shutdown => exact weight_shutdown_le ..
  all_goals exact weight_submit_le ..

@[simp] theorem weight_share (b : Broker) : b.share.queue.weight = b.queue.weight := rfl

theorem weight_elapse_le (b : Broker) (token : Token) (generation : Nat) :
    (b.elapse token generation).queue.weight ≤ b.queue.weight + 1 :=
  b.queue.weight_post_le (.timeout token generation)

theorem weight_work?_lt {b b' : Broker} {around : Surroundings} {effects : List Effect}
    (h : b.work? around = some (b', effects)) :
    b'.queue.weight + effectsWeight effects < b.queue.weight := by
  obtain ⟨⟨queue, es⟩, hq, he⟩ := Option.map_eq_some_iff.1 h
  simp only [Prod.mk.injEq] at he
  obtain ⟨rfl, rfl⟩ := he
  exact WorkQueue.weight_take?_lt hq

end Broker

namespace Scenario

/-! ## Who holds the broker -/

theorem weight_letGo_le (s : Scenario) : s.letGo.weight ≤ s.weight + 1 := weight_wake_le _

@[simp] theorem weight_hold (s : Scenario) : s.hold.weight = s.weight := rfl

@[simp] theorem weight_leave (s : Scenario) : s.leave.weight = s.weight + 2 := weight_spawn s _

theorem weight_await (s : Scenario) (ticket : Ticket) :
    (s.await ticket).weight = s.weight + 2 := by
  simp only [weight, await, hold, Broker.weight_share, List.length_cons]
  omega

/-- Whom a reply sends into the line was counted while it was awaited. -/
theorem weight_answered (s : Scenario) (ticket : Ticket) :
    (s.answered ticket).weight = s.weight := by
  unfold answered
  split
  · rename_i h
    have hl := List.length_erase_of_mem h
    have hp := List.length_pos_of_mem h
    rw [weight_leave]
    simp only [weight, hl]
    omega
  · rfl

theorem weight_announce (s : Scenario) (notice : Notice) (observers : List Observer) :
    (s.announce notice observers).weight = s.weight + 1 := by
  have h0 : agendaWeight (observers.map (.tell · notice)) = 0 :=
    agendaWeight_map_eq_zero _ fun _ => rfl
  simp only [weight, announce, hold, Broker.weight_share, agendaWeight_append, agendaWeight_cons,
    Frame.weight, h0]
  omega

/-! ## Steps -/

theorem weight_call_le (s : Scenario) (c : Call) : (s.call c).1.weight ≤ s.weight + 10 := by
  have hb := s.broker.weight_call_le s.tickets c
  simp only [call]
  refine Nat.le_trans (weight_wake_le _) ?_
  split
  · rw [weight_announce]
    simp only [weight]
    omega
  · simp only [weight]
    omega

theorem weight_fire_le (s : Scenario) (id : TimerId) : (s.fire id).1.weight ≤ s.weight + 9 := by
  unfold fire
  split
  · exact Nat.le_add_right _ _
  · rename_i token generation manual _
    have hb := s.broker.weight_elapse_le token generation
    refine Nat.le_trans (weight_wake_le _) ?_
    simp only [weight]
    omega

theorem weight_actWith_le (s : Scenario) (step : Step) (scene : Scene) :
    (s.actWith step scene).1.weight ≤
      s.weight + 10 + step.times * (1 + Step.weights step.script) := by
  have hb := s.weight_bringIn_le step
  unfold actWith
  split
  · rename_i o _
    exact Nat.le_trans (m := (s.bringIn step).weight) (by simp [bringIn, *, weight]) (by omega)
  · rename_i o _
    exact Nat.le_trans (m := (s.bringIn step).weight) (by simp [bringIn, *, weight]) (by omega)
  · simp only; omega
  · exact Nat.le_trans (Nat.le_add_right s.weight 10) (Nat.le_add_right _ _)
  · refine Nat.le_trans (weight_wake_le _) (Nat.le_trans (m := s.weight + 1) (Nat.le_refl _) ?_)
    omega
  · split
    · rename_i c _
      have hc := (s.bringIn step).weight_call_le c
      omega
    · simp only; omega

/-- A step sets off less than it weighs. -/
theorem weight_act_lt (s : Scenario) (step : Step) (scene : Scene) :
    (s.act step scene).1.weight + 6 < s.weight + step.weight := by
  have hw := step.weight_eq
  unfold act
  split
  · rename_i id _
    have := s.weight_fire_le id
    omega
  · rename_i provider retrievable _
    have := s.weight_bringIn_le step
    simp only [weight_setRetrievable]
    omega
  · split
    · have := s.weight_actWith_le step scene
      omega
    · simp only; omega

/-! ## Frames, effects and turns -/

/-- A scenario that has less to do: it weighs less, or it weighs the same with a shorter agenda. -/
def Lighter (s' s : Scenario) : Prop :=
  s'.weight < s.weight ∨ (s'.weight = s.weight ∧ s'.agenda.length < s.agenda.length)

theorem Lighter.of_callBack {s s' : Scenario} {frame : Frame} {frames rest : List Frame} {n m : Nat}
    (hs : s.agenda = frame :: rest) (hs' : s'.agenda = frames ++ rest)
    (hle : m ≤ n) (hlt : frames ≠ [] → m < n) (hw : s'.weight + n ≤ s.weight + m) :
    Lighter s' s := by
  by_cases hf : frames = []
  · rcases Nat.lt_or_ge s'.weight s.weight with h | h
    · exact .inl h
    · exact .inr ⟨by omega, by simp [hs, hs', hf]⟩
  · have := hlt hf
    exact .inl (by omega)

theorem lighter_runFrame {s : Scenario} {frame : Frame} {rest : List Frame}
    (hs : s.agenda = frame :: rest) : Lighter ({ s with agenda := rest }.runFrame frame) s := by
  have hw : s.weight = ({ s with agenda := rest } : Scenario).weight + frame.weight := by
    simp only [weight, hs, agendaWeight_cons]
    omega
  cases frame with
  | perform step scene =>
    simp only [Frame.weight] at hw
    simp only [runFrame]
    split
    · have := step.weight_eq
      refine .inl ?_
      rw [weight_spawn, Job.weight, Frame.weight]
      omega
    · have := ({ s with agenda := rest } : Scenario).weight_act_lt step scene
      refine .inl ?_
      split
      · rw [weight_leave, weight_hold]
        omega
      · omega
  | resume step scene =>
    simp only [Frame.weight] at hw
    have hs := step.weight_eq
    have := ({ s with agenda := rest } : Scenario).weight_act_lt step scene
    refine .inl ?_
    simp only [runFrame]
    split
    · rw [weight_await]
      omega
    · omega
  | pull target token =>
    obtain ⟨hle, hlt⟩ := total_callBack s.providers target.provider ⟨target.identity, token⟩
    refine .of_callBack hs rfl hle hlt ?_
    simp only [runFrame, weight_note]
    simp only [weight, hs, agendaWeight_cons, agendaWeight_append, Frame.weight]
    omega
  | deliver requester token outcome =>
    obtain ⟨hle, hlt⟩ := total_callBack s.requesters requester { token }
    refine .of_callBack hs rfl hle hlt ?_
    simp only [runFrame, weight_note]
    simp only [weight, hs, agendaWeight_cons, agendaWeight_append, Frame.weight]
    omega
  | tell observer notice =>
    obtain ⟨hle, hlt⟩ := total_callBack s.observers observer { identity := notice.identity }
    refine .of_callBack hs rfl hle hlt ?_
    simp only [runFrame, weight_note]
    simp only [weight, hs, agendaWeight_cons, agendaWeight_append, Frame.weight]
    omega
  | elapse id token generation =>
    simp only [Frame.weight] at hw
    simp only [runFrame]
    split
    · rename_i timer _
      have hb := s.broker.weight_elapse_le token generation
      have hk := weight_wake_le { s with
        agenda := rest, timer, broker := s.broker.elapse token generation }
      rcases Nat.lt_or_ge (wake { s with
        agenda := rest, timer, broker := s.broker.elapse token generation }).weight s.weight with h | h
      · exact .inl h
      · refine .inr ⟨?_, ?_⟩
        · simp only [weight] at hk hw h ⊢
          omega
        · unfold wake
          split <;> simp [spawn, hs]
    · exact .inl (by omega)
  | letGo =>
    simp only [Frame.weight] at hw
    have hk := weight_letGo_le { s with agenda := rest }
    rcases Nat.lt_or_ge (letGo { s with agenda := rest }).weight s.weight with h | h
    · exact .inl h
    · refine .inr ⟨?_, ?_⟩
      · simp only [runFrame]
        omega
      · simp only [runFrame, letGo, wake]
        split <;> simp [spawn, hs]

theorem weight_fulfil_le (s : Scenario) (e : Effect) :
    (s.fulfil e).weight ≤ s.weight + e.weight := by
  cases e with
  | reply ticket r => simp [fulfil, weight_answered]
  | poll token targets =>
    rw [fulfil, weight_spawn, Job.weight, agendaWeight_map_eq_zero _ fun _ => rfl]
    exact Nat.le_refl _
  | deliver requester token outcome => simp [fulfil, Job.weight, Effect.weight, Frame.weight]
  | setTimer id delay token generation =>
    simp only [fulfil, Effect.weight]
    split
    · rw [weight_spawn]
      exact Nat.le_refl _
    · exact Nat.le_add_right _ _
    · have hb := s.broker.weight_elapse_le token generation
      refine Nat.le_trans (weight_wake_le _) ?_
      simp only [weight, note]
      omega
  | cancelTimer id =>
    simp only [fulfil]
    split <;> exact Nat.le_add_right _ _

theorem weight_foldl_fulfil_le (effects : List Effect) (s : Scenario) :
    (effects.foldl fulfil s).weight ≤ s.weight + effectsWeight effects := by
  induction effects generalizing s with
  | nil => simp
  | cons e es ih =>
    have h := s.weight_fulfil_le e
    refine Nat.le_trans (ih _) ?_
    rw [effectsWeight_cons]
    omega

/-- Every turn brings a scenario closer to rest. -/
theorem lighter_turn? {s s' : Scenario} (h : s.turn? = some s') : Lighter s' s := by
  unfold turn? at h
  split at h
  · rename_i frame rest hs
    obtain rfl := Option.some.inj h
    exact lighter_runFrame hs
  · rename_i hs
    split at h
    · split at h
      · simp at h
      · rename_i waiting hn
        obtain rfl := Option.some.inj h
        refine .inl (Nat.lt_of_le_of_lt (weight_letGo_le _) ?_)
        simp only [weight, hn]
        omega
    · rename_i ready hr
      split at h
      · rename_i broker effects hb
        obtain rfl := Option.some.inj h
        have hlt := Broker.weight_work?_lt hb
        have hle := weight_foldl_fulfil_le effects { s with broker }
        refine .inl (Nat.lt_of_le_of_lt hle ?_)
        simp only [weight]
        omega
      · obtain rfl := Option.some.inj h
        refine .inl ?_
        simp [weight, Timeline.weight, hr, Job.weight]
    · rename_i frames ready hr
      obtain rfl := Option.some.inj h
      refine .inl ?_
      simp [weight, Timeline.weight, hr, hs, Job.weight]
      omega
    · rename_i duration frame ready hr
      split at h
      · obtain rfl := Option.some.inj h
        refine .inl ?_
        simp [weight, Timeline.weight, hr, hs, Job.weight]
        omega
      · obtain rfl := Option.some.inj h
        refine .inl ?_
        simp only [weight, Timeline.weight_sleep, Job.weight, agendaWeight_cons, agendaWeight_nil]
        simp [Timeline.weight, hr, hs, Job.weight]
        omega

/-- What is left to do: the weight, then the length of the agenda. -/
def rank (s : Scenario) : Nat × Nat := (s.weight, s.agenda.length)

theorem Lighter.rank_lt {s s' : Scenario} (h : Lighter s' s) :
    Prod.Lex (· < ·) (· < ·) s'.rank s.rank := by
  rcases h with h | ⟨h, hl⟩
  · exact .left _ _ h
  · rw [rank, rank, h]
    exact .right _ hl

instance : Clocked Scenario where
  now s := s.line.now
  turn? := turn?
  nextDeadline? s := s.line.nextDeadline?
  advance s moment := { s with line := s.line.advance moment }
  rank := rank
  turn_lt h := (lighter_turn? h).rank_lt
  advance_lt {s d} h := by
    refine .left _ _ ?_
    have := Timeline.weight_advance_lt Job.weight h
    simp only [weight]
    omega

/-! ## From outside -/

/-- Clears the agenda. -/
def finish (s : Scenario) : Scenario :=
  match _h : s.agenda with
  | [] => s
  | frame :: rest => finish ({ s with agenda := rest }.runFrame frame)
termination_by s.rank
decreasing_by exact (lighter_runFrame _h).rank_lt

/-- Does a step from outside, with all that has to be done at once. -/
def perform (s : Scenario) (step : Step) : Scenario × Result :=
  let (s, result) := s.act step {}
  let s := if result.awaited?.isSome then s.remain else s
  (s.finish, result)

/-- Does steps from outside, one after the other, before anyone else has a turn. -/
def performAll (s : Scenario) : List Step → Scenario × List Result
  | [] => (s, [])
  | step :: steps =>
    let (s, result) := s.perform step
    let (s, results) := s.performAll steps
    (s, result :: results)

end Scenario

end ContextBroker
