import ContextBroker.Proofs.Scenario.Turning
import Mathlib.Data.List.Induction
import Mathlib.Data.List.Nodup

set_option autoImplicit false

/-! # No timer is leaked and no request is overdue

A scenario goes on by moves, which come in any order: somebody outside does a step, a callback does
one, the next turn is taken, and once nothing can be done the clock goes on. What parties are
scripted to do are turns too; but a callback may do any step at any time, so scripts are no
restriction. What is done from outside, what is done until nothing more can be, and sleeping are
runs of such moves (`exists_run_perform`, `exists_run_settle`, `Sound.exists_run_runTo`).

Whenever nothing can be done, what is armed are the timeouts of the open requests, and every one of
these is due later than now. -/

namespace ContextBroker

namespace Scenario

/-- A new broker, whose allocator handed out `last` and whose timeouts elapse by the clock. -/
def start (config : Config) (last : Token) (today : Timestamp) : Scenario :=
  { broker := { config, queue := { worker := { tokens := { last } } } }, today }

/-- How a scenario can go on. -/
inductive Move
  /-- Somebody outside does a step, and holds the broker while the reply is still to come. -/
  | step (step : Step)
  /-- Some callback does a step, or puts it off. -/
  | amid (step : Step) (scene : Scene)
  /-- What comes next is done. -/
  | turn
  /-- The clock goes on, as long as nothing can be done and nothing sleeps less long. -/
  | wait (moment : Nat)

/-- Makes a move; one that cannot be made changes nothing. -/
def apply (s : Scenario) : Move → Scenario
  | .step step =>
    let (s, result) := s.act step {}
    if result.awaited?.isSome then s.remain else s
  | .amid step scene => s.runFrame (.perform step scene)
  | .turn => s.turn?.getD s
  | .wait moment =>
    if s.turn?.isNone ∧ s.line.now ≤ moment ∧ s.line.nextDeadline?.all (moment ≤ ·) then
      { s with line := s.line.advance moment }
    else s

/-- Makes moves, one after the other. -/
def run (s : Scenario) (moves : List Move) : Scenario := moves.foldl apply s

/-- Nothing is on the agenda, and nothing stands in line. -/
def Quiescent (s : Scenario) : Prop := s.agenda = [] ∧ s.line.ready = []

theorem run_append (s : Scenario) (moves more : List Move) :
    s.run (moves ++ more) = (s.run moves).run more := List.foldl_append

/-! ## Runs keep a scenario in step -/

/-- One of the moves is the turn that handles the request of an opening, and by `moment` that is
    due. -/
def Due (s : Scenario) (moves : List Move) (o : Opening) (moment : Nat) : Prop :=
  ∃ earlier later, moves = earlier ++ .turn :: later ∧ (s.run earlier).Opens o moment

theorem Due.concat {s : Scenario} {moves : List Move} {o : Opening} {moment : Nat}
    (h : s.Due moves o moment) (m : Move) : s.Due (moves ++ [m]) o moment := by
  obtain ⟨earlier, later, rfl, hopens⟩ := h
  exact ⟨earlier, later ++ [m], by simp, hopens⟩

namespace Sound

variable {due : Opening → Nat → Prop} {now n : Nat} {s : Scenario}

theorem start (config : Config) (last : Token) (today : Timestamp) (due : Opening → Nat → Prop) :
    Sound due 0 0 (Scenario.start config last today) where
  timing := rfl
  clock := rfl
  ahead := ⟨.nil, by simp [Scenario.start]⟩
  tracked := History.tracked_start config last
  orderly := Worker.Orderly.start _
  held := rfl
  clockwork := .start due rfl

/-- Moves other than turns open no request. -/
theorem apply (h : Sound due now n s) {m : Move} (hm : m ≠ .turn) :
    ∃ now', Sound due now' n (s.apply m) := by
  cases m with
  | turn => exact absurd rfl hm
  | step step =>
    obtain ⟨hact, hpos⟩ := h.act step {}
    refine ⟨now, ?_⟩
    simp only [Scenario.apply]
    split
    · exact hact.remain (hpos ‹_›)
    · exact hact
  | amid step scene =>
    have hp : Sound due now n { s with agenda := .perform step scene :: s.agenda } :=
      h.refit 0 [(s.line.now, .perform step scene)] rfl (by simp [Frame.countdown?]) h.clock h.ahead
        (.refl _)
    exact ⟨now, hp.runFrame rfl⟩
  | wait moment =>
    simp only [Scenario.apply]
    split
    · rename_i hguard
      obtain ⟨hrest, -, hm⟩ := hguard
      refine ⟨moment, h.advance (Option.isNone_iff_eq_none.1 hrest) fun d hd => ?_⟩
      simpa [hd] using hm
    · exact ⟨now, h⟩

end Sound

theorem Attended.apply {s : Scenario} (h : s.Attended) (hs : s.timing = .clock) (m : Move) :
    (s.apply m).Attended := by
  cases m with
  | turn =>
    simp only [Scenario.apply]
    cases ht : s.turn? with
    | none => exact h
    | some s' => exact h.turn hs ht
  | step step =>
    simp only [Scenario.apply]
    split
    · exact (h.act step {}).hold
    · exact h.act step {}
  | amid step scene => exact h.runFrame _
  | wait moment =>
    simp only [Scenario.apply]
    split
    · refine h.imp_right fun hw => ?_
      simp only [worksSoon, Timeline.advance, List.any_append, Bool.or_eq_true] at hw ⊢
      exact .inl hw
    · exact h

theorem sound_run (config : Config) (last : Token) (today : Timestamp) (moves : List Move) :
    let s := (start config last today).run moves
    Sound ((start config last today).Due moves) s.line.now 0 s ∧ s.Attended := by
  induction moves using List.reverseRecOn with
  | nil => exact ⟨Sound.start config last today _, .inl rfl⟩
  | append_singleton moves m ih =>
    obtain ⟨h, hatt⟩ := ih
    rw [run_append]
    refine ⟨?_, hatt.apply h.timing m⟩
    have hdue := fun o moment (hd : (start config last today).Due moves o moment) => hd.concat m
    by_cases hm : m = .turn
    · subst hm
      simp only [run, List.foldl_cons, List.foldl_nil, Scenario.apply]
      cases ht : ((start config last today).run moves).turn? with
      | none =>
        rw [run] at ht
        rw [ht]
        exact h.mono hdue
      | some s' =>
        have hs' := h.turn ht
        rw [run] at ht
        rw [ht, Option.getD_some, hs'.clock]
        refine hs'.mono fun o moment hd => ?_
        rcases hd with hd | hopens
        · exact hdue o moment hd
        · exact ⟨moves, [], rfl, hopens⟩
    · obtain ⟨now, hs'⟩ := (h.mono hdue).apply hm
      obtain rfl := hs'.clock
      exact hs'

/-! ## What is a run -/

theorem run_cons (s : Scenario) (m : Move) (moves : List Move) :
    s.run (m :: moves) = (s.apply m).run moves := rfl

theorem apply_turn {s s' : Scenario} (h : s.turn? = some s') : s.apply .turn = s' := by
  rw [Scenario.apply, h, Option.getD_some]

theorem apply_wait {s : Scenario} (hrest : s.turn? = none) {moment : Nat}
    (hle : s.line.now ≤ moment) (hm : ∀ d, s.line.nextDeadline? = some d → moment ≤ d) :
    s.apply (.wait moment) = { s with line := s.line.advance moment } := by
  refine if_pos ⟨by rw [hrest]; rfl, hle, ?_⟩
  cases hd : s.line.nextDeadline? with
  | none => rfl
  | some d => simpa using hm d hd

/-- What has to be done at once is a run. -/
theorem exists_run_finish (s : Scenario) : ∃ k, s.finish = s.run (List.replicate k .turn) := by
  induction s using finish.induct with
  | case1 s h =>
    refine ⟨0, ?_⟩
    rw [finish]
    split
    · rfl
    · rename_i h'
      rw [h] at h'
      cases h'
  | case2 s frame rest h ih =>
    obtain ⟨k, hk⟩ := ih
    have ht : s.turn? = some ({ s with agenda := rest }.runFrame frame) := by
      unfold turn?
      rw [h]
    refine ⟨k + 1, ?_⟩
    rw [List.replicate_succ, run_cons, apply_turn ht, ← hk, finish]
    split
    · rename_i h'
      rw [h] at h'
      cases h'
    · rename_i h'
      rw [h] at h'
      obtain ⟨rfl, rfl⟩ := List.cons.inj h'
      rfl

/-- A step from outside is a run. -/
theorem exists_run_perform (s : Scenario) (step : Step) :
    ∃ more, (s.perform step).1 = s.run more := by
  obtain ⟨k, hk⟩ := (s.apply (.step step)).exists_run_finish
  exact ⟨.step step :: List.replicate k .turn, hk⟩

/-- To do all that can be done without moving the clock is a run. -/
theorem exists_run_settle (s : Scenario) :
    ∃ k, Clocked.settle s = s.run (List.replicate k .turn) ∧ (Clocked.settle s).turn? = none := by
  induction s using Clocked.settle.induct (σ := Scenario) with
  | case1 s h =>
    have hs : Clocked.settle s = s := by rw [Clocked.settle_eq, h]
    exact ⟨0, hs, hs.symm ▸ h⟩
  | case2 s s' h ih =>
    have hs : Clocked.settle s = Clocked.settle s' := by rw [Clocked.settle_eq, h]
    obtain ⟨k, hk, hrest⟩ := ih
    refine ⟨k + 1, ?_, hs ▸ hrest⟩
    rw [hs, List.replicate_succ, run_cons, apply_turn h, hk]

theorem turn?_advance {s : Scenario} (hrest : s.turn? = none) {moment : Nat}
    (hm : ∀ d, s.line.nextDeadline? = some d → moment < d) :
    { s with line := s.line.advance moment }.turn? = none := by
  obtain ⟨hagenda, hready, hwaiting⟩ := turn?_eq_none.1 hrest
  exact turn?_eq_none.2 ⟨hagenda, (s.line.ready_advance hm).trans hready, hwaiting⟩

/-- What is done up to a moment is a run, after which nothing can be done. -/
theorem Sound.exists_run_runTo {moment : Nat} {s : Scenario} :
    ∀ {due : Opening → Nat → Prop} {now : Nat}, Sound due now 0 s → now ≤ moment →
      ∃ more, Clocked.runTo moment s = s.run more ∧ (s.run more).turn? = none := by
  -- To go on to the moment is the last move.
  have hlast : ∀ {s : Scenario}, s.turn? = none → s.line.now ≤ moment →
      (∀ d, s.line.nextDeadline? = some d → moment < d) →
      ∃ more, { s with line := s.line.advance moment } = s.run more ∧
        (s.run more).turn? = none := by
    intro s ht hle hm
    have hwait := apply_wait ht hle fun d hd => Nat.le_of_lt (hm d hd)
    exact ⟨[.wait moment], hwait.symm, (congrArg turn? hwait).trans (turn?_advance ht hm)⟩
  induction s using Clocked.runTo.induct (σ := Scenario) moment with
  | case1 s s' ht ih =>
    intro due now h hle
    obtain ⟨more, hrun, hrest⟩ := ih (h.turn ht) hle
    have hstep : s.run (.turn :: more) = s'.run more := by rw [run_cons, apply_turn ht]
    refine ⟨.turn :: more, ?_, hstep ▸ hrest⟩
    rw [hstep, ← hrun, Clocked.runTo_eq, ht]
  | case2 s ht hd =>
    intro due now h hle
    rw [Clocked.runTo_eq, ht, hd]
    exact hlast ht (h.clock ▸ hle) fun d hd' => by cases hd.symm.trans hd'
  | case3 s ht d hd hle ih =>
    intro due now h _
    have hlt : s.line.now ≤ d := by
      obtain ⟨p, hp, rfl⟩ := Option.map_eq_some_iff.1 hd
      exact Nat.le_of_lt (h.ahead.later p (List.mem_of_mem_head? hp))
    have hm : ∀ d', s.line.nextDeadline? = some d' → d ≤ d' := fun d' hd' =>
      Nat.le_of_eq (Option.some.inj (hd.symm.trans hd'))
    obtain ⟨more, hrun, hrest⟩ := ih (h.advance ht hm) hle
    have hstep : s.run (.wait d :: more) = (Clocked.advance s d).run more := by
      rw [run_cons, apply_wait ht hlt hm]
      rfl
    refine ⟨.wait d :: more, ?_, hstep ▸ hrest⟩
    rw [hstep, ← hrun, Clocked.runTo_eq, ht, hd]
    exact if_pos hle
  | case4 s ht d hd hlt =>
    intro due now h hle
    rw [Clocked.runTo_eq, ht, hd]
    simp only [if_neg hlt]
    exact hlast ht (h.clock ▸ hle) fun d' hd' =>
      Nat.lt_of_not_le (Option.some.inj (hd.symm.trans hd') ▸ hlt)

/-! ## Timeouts -/

variable {due : Opening → Nat → Prop} {now n : Nat} {s : Scenario}

/-- Once nothing can be done the worker waits for a task, and somebody can post one; or it has
    stopped. -/
theorem Attended.isIdle (h : s.Attended) (hq : s.Quiescent) : s.broker.queue.isIdle = true := by
  refine h.resolve_right fun hw => ?_
  simp [worksSoon, hq.2] at hw

/-- What is still to be done when nothing can be done sleeps longer than now. -/
theorem Sound.lt_moment (h : Sound due now n s) (hq : s.Quiescent) {a : Countdown}
    (ha : a ∈ s.countdowns) : now < a.moment := by
  obtain ⟨p, hp, hpa⟩ := List.mem_filterMap.1 ha
  simp only [frames, upcoming, hq.1, hq.2, List.map_nil, List.flatMap_nil, List.append_nil,
    List.nil_append, List.mem_flatMap] at hp
  obtain ⟨⟨m, job⟩, hm, hp⟩ := hp
  have hlater : now < m := h.clock ▸ h.ahead.later _ hm
  cases job with
  | work => simp [Job.frames] at hp
  | act frames =>
    obtain ⟨f, -, rfl⟩ := List.mem_map.1 hp
    cases f <;> simp only [Frame.countdown?, Option.some.injEq, reduceCtorEq] at hpa
    rw [← hpa]
    exact hlater
  | wait duration f =>
    obtain rfl := List.mem_singleton.1 hp
    cases f <;> simp only [Frame.countdown?, Option.some.injEq, reduceCtorEq] at hpa
    rw [← hpa]
    exact Nat.lt_of_lt_of_le hlater (Nat.le_add_right ..)

/-- While nothing can be done the timeout of an open request is armed, and due later than now. -/
theorem Sound.armed_of_open (h : Sound due now n s) (hatt : s.Attended) (hq : s.Quiescent)
    {t : Token} {r : Request} {id : TimerId}
    (hr : s.broker.queue.worker.requests.get? t = some r) (hid : r.timer = some id) :
    id ∈ s.timer.armed ∧ ∃ moment, due (r.opening t) moment ∧ now < moment := by
  have hphase : s.broker.queue.phase = .running := by
    by_contra hp
    rw [(h.tracked.ended hp).2] at hr
    cases hr
  have hidle := hatt.isIdle hq
  simp only [WorkQueue.isIdle, hphase, ne_eq, not_true, decide_false, Bool.false_or,
    Bool.and_eq_true, List.isEmpty_iff, decide_eq_true_eq] at hidle
  rcases h.clockwork.covered t r id hr hid with ⟨harmed, a, ha, -, m, hdue, hle⟩ | htask | hzero
  · exact ⟨harmed, m, hdue, Nat.lt_of_lt_of_le (h.lt_moment hq ha) hle⟩
  · rw [hidle.1] at htask
    cases htask
  · exact absurd hzero hidle.2

/-- Each open request has one timeout, and no other. -/
theorem active_eq_size {timer : Timer} {w : Worker} (hw : w.Orderly)
    (h : ∀ id, id ∈ timer.armed ↔ ∃ t r, w.requests.get? t = some r ∧ r.timer = some id) :
    timer.active = w.requests.size := by
  have hperm : (timer.armed.toList.map some).Perm (w.requests.toList.map (·.2.timer)) := by
    refine (List.perm_ext_iff_of_nodup ?_ ?_).2 fun id => ?_
    · exact (SortedMap.nodup_keys _).map fun _ _ => Option.some.inj
    · -- Requests with other tokens have other timers.
      have hkeys := List.pairwise_map.1 (SortedMap.nodup_keys w.requests)
      refine List.pairwise_map.2 (hkeys.imp_of_mem fun {a b} ha hb hne hid => hne ?_)
      exact hw.apart a.1 b.1 a.2 b.2 (SortedMap.mem_toList.1 ha) (SortedMap.mem_toList.1 hb)
        (.inr hid)
    · simp only [List.mem_map, SortedSet.mem_toList, Prod.exists, SortedMap.mem_toList]
      constructor
      · rintro ⟨id, hid, rfl⟩
        obtain ⟨t, r, hr, hid⟩ := (h id).1 hid
        exact ⟨t, r, hr, hid⟩
      · rintro ⟨t, r, hr, rfl⟩
        obtain ⟨id, hid, -⟩ := hw.timed t r hr
        exact ⟨id, (h id).2 ⟨t, r, hr, hid⟩, hid.symm⟩
  have hlength := hperm.length_eq
  rw [List.length_map, List.length_map] at hlength
  exact (List.length_map ..).symm.trans hlength

/-- **No timer is leaked and no request is overdue.** Whenever nothing can be done, what is armed
    are the timers of the open requests, one for each; and since the turn that handled an open
    request less time has passed than its timeout. So it is after every sleep, for a sleep is a run
    that ends when nothing can be done. Once the worker has stopped nothing is armed at all. -/
theorem timeouts_of_open_requests (config : Config) (last : Token) (today : Timestamp)
    (moves : List Move) :
    let s₀ := start config last today
    let s := s₀.run moves
    let requests := s.broker.queue.worker.requests
    (s.Quiescent →
      (∀ id, s.timer.isArmed id = true ↔ ∃ t r, requests.get? t = some r ∧ r.timer = some id) ∧
      s.timer.active = requests.size ∧
      ∀ t r, requests.get? t = some r → ∃ earlier later timeout,
        moves = earlier ++ .turn :: later ∧
        (s₀.run earlier).Handles (.getContext t r.requester r.endpoint timeout) ∧
        r.generation = (s₀.run earlier).broker.queue.worker.generation + 1 ∧
        s.line.now < (s₀.run earlier).line.now + timeout) ∧
    (∀ duration, ∃ more, Clocked.sleep duration s = s₀.run (moves ++ more) ∧
      (Clocked.sleep duration s).Quiescent) ∧
    (s.broker.queue.phase ≠ .running → s.timer.active = 0) := by
  intro s₀ s requests
  obtain ⟨h, hatt⟩ := sound_run config last today moves
  have harmed : s.Quiescent → ∀ id, id ∈ s.timer.armed ↔
      ∃ t r, requests.get? t = some r ∧ r.timer = some id := fun hq id =>
    ⟨h.clockwork.armed id, fun ⟨_, _, hr, hid⟩ => (h.armed_of_open hatt hq hr hid).1⟩
  refine ⟨fun hq => ⟨harmed hq, active_eq_size h.orderly (harmed hq), ?_⟩, ?_, ?_⟩
  · intro t r hr
    obtain ⟨id, hid, -⟩ := h.orderly.timed t r hr
    obtain ⟨-, moment, hdue, hlt⟩ := h.armed_of_open hatt hq hr hid
    obtain ⟨earlier, later, hmoves, timeout, hhandles, hg, rfl⟩ := hdue
    exact ⟨earlier, later, timeout, hmoves, hhandles, hg, hlt⟩
  · intro duration
    obtain ⟨more, hrun, hrest⟩ :=
      h.exists_run_runTo (Nat.le_add_right _ (min duration Timeline.longest))
    refine ⟨more, hrun.trans (run_append ..).symm, ?_⟩
    obtain ⟨hagenda, hready, -⟩ := turn?_eq_none.1 hrest
    rw [Clocked.sleep]
    exact ⟨(congrArg agenda hrun).trans hagenda, (congrArg (·.line.ready) hrun).trans hready⟩
  · intro hp
    have hnone : ∀ t, requests.get? t = none := (h.tracked.ended hp).2
    have hempty : requests = ∅ :=
      SortedMap.ext_get? fun t => (hnone t).trans (SortedMap.get?_empty t).symm
    have hsize : s.timer.active = requests.size := active_eq_size h.orderly fun id =>
      ⟨h.clockwork.armed id, fun ⟨t, _, hr, _⟩ => by cases (hnone t).symm.trans hr⟩
    exact hsize.trans (congrArg SortedMap.size hempty)

/-- A request with a timeout of a second waits for a sensor that does not answer, and 400
    milliseconds pass. -/
def halfWay : List Move := [
  .step { action := .register (some ⟨"climate", "temperature", none, "kitchen"⟩) 0 .pull true },
  .turn, .turn, .turn, .step { action := .getContext "kitchen" 1000 }, .turn, .turn, .turn, .turn,
  .turn, .wait 400]

/-- Half way the timer of the request is the only one that is armed; the end of the work cancels
    it. -/
theorem timeouts_of_open_requests_half_way :
    let s₀ := start {} 0 default
    let s := s₀.run halfWay
    let stopped := s₀.run (halfWay ++ [.step { action := .shutdown }, .turn])
    s.Quiescent ∧ s.timer.active = 1 ∧
    (∃ t r earlier later timeout, s.broker.queue.worker.requests.get? t = some r ∧
      halfWay = earlier ++ .turn :: later ∧ 400 < (s₀.run earlier).line.now + timeout) ∧
    (∃ more, Clocked.sleep 1000 s = s₀.run (halfWay ++ more)) ∧
    stopped.broker.queue.phase ≠ .running ∧ stopped.timer.active = 0 := by
  have hrun : ((start {} 0 default).run halfWay).agenda.isEmpty = true ∧
      ((start {} 0 default).run halfWay).line.ready.isEmpty = true ∧
      ((start {} 0 default).run halfWay).line.now = 400 ∧
      ((start {} 0 default).run halfWay).broker.queue.worker.requests.size = 1 ∧
      (((start {} 0 default).run halfWay).broker.queue.worker.requests.get? 1).isSome = true := by
    decide +kernel
  have hstop : ((start {} 0 default).run
      (halfWay ++ [.step { action := .shutdown }, .turn])).broker.queue.phase ≠ .running := by
    decide +kernel
  obtain ⟨hagenda, hready, hnow, hsize, hopen⟩ := hrun
  obtain ⟨hquiescent, hsleep, -⟩ := timeouts_of_open_requests {} 0 default halfWay
  have hq : ((start {} 0 default).run halfWay).Quiescent :=
    ⟨List.isEmpty_iff.1 hagenda, List.isEmpty_iff.1 hready⟩
  obtain ⟨-, hactive, hdue⟩ := hquiescent hq
  obtain ⟨r, hr⟩ := Option.isSome_iff_exists.1 hopen
  obtain ⟨earlier, later, timeout, hmoves, -, -, hlt⟩ := hdue 1 r hr
  obtain ⟨more, hmore, -⟩ := hsleep 1000
  exact ⟨hq, hactive.trans hsize,
    ⟨1, r, earlier, later, timeout, hr, hmoves, Nat.lt_of_le_of_lt (Nat.le_of_eq hnow.symm) hlt⟩,
    ⟨more, hmore⟩, hstop, (timeouts_of_open_requests {} 0 default _).2.2 hstop⟩

end Scenario

end ContextBroker
