import ContextBroker.Proofs.Scenario.Holding

set_option autoImplicit false

/-! # Every turn keeps a scenario in step

A turn does one frame, lets the worker take one task, or lets something go to sleep. Each of these
keeps the broker, its timer and its worker in step (`Scenario.Sound.turn`), and after each the
worker stands in line if it has something to take (`Scenario.Attended`). -/

namespace ContextBroker

namespace WorkQueue

/-- The worker that handles a task next handles the first in its queue. -/
theorem head_of_turn? {q : WorkQueue} {around around' : Surroundings} {task : Task}
    (h : q.turn? around = some (.task around' task)) :
    q.phase = .running ∧ q.tasks.head? = some task := by
  unfold turn? at h
  split at h
  · cases h
  · rename_i hp
    refine ⟨not_not.1 hp, ?_⟩
    split at h
    · split at h <;> cases h
    · cases h
    · rename_i head rest _ hq
      obtain ⟨-, rfl⟩ := Turn.task.inj (Option.some.inj h)
      rw [hq, List.head?_cons]

theorem isIdle_of_take? {q : WorkQueue} {around : Surroundings} (h : q.take? around = none) :
    q.isIdle = true := by
  rw [take?_eq, Option.map_eq_none_iff] at h
  unfold turn? at h
  unfold isIdle
  split at h
  · rename_i hp
    simp [hp]
  · split at h
    · rename_i ht
      split at h
      · cases h
      · rename_i hs
        simp [ht, hs]
    · cases h
    · cases h

end WorkQueue

namespace Scenario

namespace Sound

variable {due : Opening → Nat → Prop} {now n : Nat} {s : Scenario}

/-! ## Frames -/

theorem runOut (h : Sound due now n s) {id : TimerId} {t : Token} {generation : Nat}
    {rest : List Frame} (hs : s.agenda = .elapse id t generation :: rest) :
    Sound due now n ({ s with agenda := rest }.runFrame (.elapse id t generation)) := by
  let a : Countdown := ⟨s.line.now, id, t, generation⟩
  have ha : ∀ b, b ∈ s.countdowns ↔ b = a ∨ b ∈ { s with agenda := rest }.countdowns := by
    intro b
    simp [countdowns, frames, upcoming, hs, Frame.countdown?, a, eq_comm]
  have hheld : s.broker.queue.senders = { s with agenda := rest }.holders + n := by
    have hc : { s with agenda := rest }.callers = s.callers := rfl
    have hheld := h.held
    simp only [holders, hc, frames, upcoming, hs, List.map_cons, List.cons_append,
      List.countP_cons, Frame.holds] at hheld ⊢
    simpa using hheld
  simp only [runFrame, Timer.elapse?]
  split
  · rename_i timer he
    split at he
    · obtain rfl := Option.some.inj he
      have hq := s.broker.queue.post_eq (.timeout t generation)
      refine wake ⟨h.timing, h.clock, h.ahead, h.tracked.post_other rfl, ?_, ?_,
        h.clockwork.runOut ha fun hp => (h.tracked.ended hp).2⟩
      · simp only [Broker.elapse, hq]
        exact h.orderly
      · simp only [Broker.elapse, hq]
        exact hheld
    · cases he
  · rename_i he
    split at he
    · cases he
    · rename_i harmed
      exact ⟨h.timing, h.clock, h.ahead, h.tracked, h.orderly, hheld, h.clockwork.pass ha harmed⟩

theorem runFrame (h : Sound due now n s) {frame : Frame} {rest : List Frame}
    (hs : s.agenda = frame :: rest) :
    Sound due now n ({ s with agenda := rest }.runFrame frame) := by
  cases frame with
  | perform step scene =>
    have h' : Sound due now n { s with agenda := rest } := h.consume hs fun _ => rfl
    simp only [Scenario.runFrame]
    split
    · exact h'.spawn (by simp [Job.frames, Frame.countdown?])
    · obtain ⟨hact, hpos⟩ := h'.act step scene
      split
      · exact (hact.hold (hpos ‹_›)).leave
      · exact hact
  | resume step scene =>
    have h' : Sound due now n { s with agenda := rest } := h.consume hs fun _ => rfl
    obtain ⟨hact, hpos⟩ := h'.act step scene
    simp only [Scenario.runFrame]
    split
    · rename_i ticket he
      exact hact.await (hpos (by rw [he]; rfl)) ticket
    · exact hact
  | pull target token =>
    have h' : Sound due now n { s with agenda := rest } := h.consume hs fun _ => rfl
    exact { h'.perform s.providers target.provider ⟨target.identity, token⟩ with }
  | deliver requester token outcome =>
    have h' : Sound due now n { s with agenda := rest } := h.consume hs fun _ => rfl
    exact { h'.perform s.requesters requester { token } with }
  | tell observer notice =>
    have h' : Sound due now n { s with agenda := rest } := h.consume hs fun _ => rfl
    exact { h'.perform s.observers observer { identity := notice.identity } with }
  | elapse id token generation => exact h.runOut hs
  | letGo => exact letGo (h.consume hs fun _ => rfl)

end Sound

/-! ## The worker's wishes -/

/-- `s'` comes of `s` when some effects are fulfilled: jobs come into line, and the timer follows
    the effects. -/
structure Fulfilled (s : Scenario) (es : List Effect) (s' : Scenario) : Prop where
  timing : s'.timing = s.timing
  broker : s'.broker = s.broker
  now : s'.line.now = s.line.now
  asleep : s'.line.asleep = s.line.asleep
  ready : ∃ jobs, s'.line.ready = s.line.ready ++ jobs
  timer : s'.timer = es.foldl Timer.follow s.timer
  holders : s'.holders = s.holders
  countdowns (a : Countdown) : a ∈ s'.countdowns ↔ a ∈ s.countdowns ∨ ∃ delay,
    .setTimer a.timer delay a.token a.generation ∈ es ∧
      a.moment = Timeline.wakingTime s.line.now delay

theorem holders_spawn (s : Scenario) (job : Job) :
    (s.spawn job).holders = s.holders + (job.frames s.line.now).countP (·.2.holds) := by
  have hc : (s.spawn job).callers = s.callers := rfl
  rw [holders, holders, hc, (frames_spawn s job).countP_eq, List.countP_append]
  omega

theorem mem_countdowns_spawn {s : Scenario} {job : Job} {a : Countdown} :
    a ∈ (s.spawn job).countdowns ↔
      a ∈ s.countdowns ∨ ∃ p ∈ job.frames s.line.now, p.2.countdown? p.1 = some a := by
  simp only [countdowns, List.mem_filterMap, (frames_spawn s job).mem_iff, List.mem_append]
  rw [or_comm]
  simp only [or_and_right, exists_or]

namespace Fulfilled

variable {s s' s'' : Scenario} {es es' : List Effect}

theorem trans (h : Fulfilled s es s') (h' : Fulfilled s' es' s'') :
    Fulfilled s (es ++ es') s'' where
  timing := h'.timing.trans h.timing
  broker := h'.broker.trans h.broker
  now := h'.now.trans h.now
  asleep := h'.asleep.trans h.asleep
  ready := by
    obtain ⟨jobs, hj⟩ := h.ready
    obtain ⟨jobs', hj'⟩ := h'.ready
    exact ⟨jobs ++ jobs', by rw [hj', hj, List.append_assoc]⟩
  timer := by rw [h'.timer, h.timer, List.foldl_append]
  holders := h'.holders.trans h.holders
  countdowns a := by
    rw [h'.countdowns, h.countdowns, h.now, or_assoc]
    simp only [List.mem_append, or_and_right, exists_or]

end Fulfilled

theorem mem_countdowns_spawn_of_quiet {s : Scenario} {job : Job}
    (hjob : ∀ p ∈ job.frames s.line.now, p.2.countdown? p.1 = none) (a : Countdown) :
    a ∈ (s.spawn job).countdowns ↔ a ∈ s.countdowns := by
  rw [mem_countdowns_spawn, or_iff_left]
  rintro ⟨p, hp, ha⟩
  rw [hjob p hp] at ha
  cases ha

theorem fulfilled_fulfil {s : Scenario} (h : s.timing = .clock) (e : Effect) :
    Fulfilled s [e] (s.fulfil e) := by
  cases e with
  | reply ticket r =>
    simp only [fulfil, answered]
    split
    · rename_i hm
      let s₀ : Scenario :=
        { s.note (.did (.reply ticket r)) with awaited := s.awaited.erase ticket }
      have hlength := List.length_erase_of_mem hm
      have hpos := List.length_pos_of_mem hm
      have hh : s.holders = s₀.holders + 1 :=
        holders_eq s s₀ rfl (by simp only [s₀, callers, note] at *; omega)
      refine ⟨rfl, rfl, rfl, rfl, ⟨[_], rfl⟩, rfl, ?_, fun a => ?_⟩
      · exact (holders_spawn s₀ _).trans hh.symm
      · simp only [List.mem_singleton, reduceCtorEq, false_and, exists_false, or_false]
        exact mem_countdowns_spawn_of_quiet (s := s₀) (by simp [Job.frames, Frame.countdown?]) a
    · refine ⟨rfl, rfl, rfl, rfl, ⟨[], (List.append_nil _).symm⟩, rfl, rfl, fun a => ?_⟩
      simp only [List.mem_singleton, reduceCtorEq, false_and, exists_false, or_false]
      exact Iff.rfl
  | poll token targets =>
    refine ⟨rfl, rfl, rfl, rfl, ⟨[_], rfl⟩, rfl, ?_, fun a => ?_⟩
    · rw [fulfil, holders_spawn, List.countP_eq_zero.2]
      · rfl
      · simp [Job.frames, Frame.holds]
    · simp only [List.mem_singleton, reduceCtorEq, false_and, exists_false, or_false]
      exact mem_countdowns_spawn_of_quiet (by simp [Job.frames, Frame.countdown?]) a
  | deliver requester token outcome =>
    refine ⟨rfl, rfl, rfl, rfl, ⟨[_], rfl⟩, rfl, holders_spawn s _, fun a => ?_⟩
    simp only [List.mem_singleton, reduceCtorEq, false_and, exists_false, or_false]
    exact mem_countdowns_spawn_of_quiet (by simp [Job.frames, Frame.countdown?]) a
  | setTimer id delay token generation =>
    let s₀ : Scenario :=
      { s.note (.did (.setTimer id delay token generation)) with timer := s.timer.arm id }
    have hs : s.fulfil (.setTimer id delay token generation) =
        s₀.spawn (.wait delay (.elapse id token generation)) := by
      simp only [fulfil, note, h, s₀]
    rw [hs]
    refine ⟨rfl, rfl, rfl, rfl, ⟨[_], rfl⟩, rfl, holders_spawn s₀ _, fun a => ?_⟩
    have hcountdowns : s₀.countdowns = s.countdowns := rfl
    rw [mem_countdowns_spawn, hcountdowns]
    refine or_congr_right ?_
    simp only [Job.frames, List.mem_singleton, exists_eq_left, Frame.countdown?, Option.some.injEq,
      Effect.setTimer.injEq]
    constructor
    · rintro rfl
      exact ⟨delay, ⟨rfl, rfl, rfl, rfl⟩, rfl⟩
    · obtain ⟨moment, timer, t, g⟩ := a
      rintro ⟨delay, ⟨rfl, rfl, rfl, rfl⟩, rfl⟩
      rfl
  | cancelTimer id =>
    let s₀ : Scenario := { s.note (.did (.cancelTimer id)) with timer := s.timer.cancel id }
    have hs : s.fulfil (.cancelTimer id) = s₀ := by simp only [fulfil, note, h, s₀]
    rw [hs]
    refine ⟨rfl, rfl, rfl, rfl, ⟨[], (List.append_nil _).symm⟩, rfl, rfl, fun a => ?_⟩
    simp only [List.mem_singleton, reduceCtorEq, false_and, exists_false, or_false]
    exact Iff.rfl

theorem fulfilled_foldl {s : Scenario} (h : s.timing = .clock) (es : List Effect) :
    Fulfilled s es (es.foldl fulfil s) := by
  induction es generalizing s with
  | nil => exact ⟨rfl, rfl, rfl, rfl, ⟨[], (List.append_nil _).symm⟩, rfl, rfl, by simp⟩
  | cons e es ih =>
    have he := fulfilled_fulfil h e
    exact he.trans (ih (he.timing.trans h))

/-! ## Turns -/

/-- The worker handles this task in the next turn. -/
def Handles (s : Scenario) (task : Task) : Prop :=
  s.agenda = [] ∧ s.line.ready.head? = some .work ∧
    s.broker.queue.phase = .running ∧ s.broker.queue.tasks.head? = some task

/-- The next turn handles the request of an opening, and by `moment` that is due. -/
def Opens (s : Scenario) (o : Opening) (moment : Nat) : Prop :=
  ∃ timeout, s.Handles (.getContext o.token o.requester o.endpoint timeout) ∧
    o.generation = s.broker.queue.worker.generation + 1 ∧ moment = s.line.now + timeout

/-- Nothing can be done now. -/
theorem turn?_eq_none {s : Scenario} :
    s.turn? = none ↔ s.agenda = [] ∧ s.line.ready = [] ∧ s.waiting = 0 := by
  unfold turn?
  cases s.agenda with
  | cons frame agenda => simp
  | nil =>
    cases s.line.ready with
    | nil => cases s.waiting <;> simp
    | cons job ready =>
      cases job with
      | work => simp only; split <;> simp
      | act frames => simp
      | wait duration frame => simp only; split <;> simp

/-! ### Frames change their places -/

section

variable {s : Scenario} {ready : List Job} {agenda : List Frame} {frame : Frame}

theorem frames_unworked (hready : s.line.ready = .work :: ready) :
    { s with line.ready := ready }.frames = s.frames := by
  simp only [frames, upcoming, hready, List.flatMap_cons, Job.frames, List.nil_append]

theorem frames_act (hagenda : s.agenda = []) (hready : s.line.ready = .act agenda :: ready) :
    { s with line.ready := ready, agenda }.frames = s.frames := by
  simp only [frames, upcoming, hagenda, hready, List.flatMap_cons, Job.frames, List.map_nil,
    List.nil_append, List.append_assoc]

/-- A time of zero is over at once. -/
theorem frames_over (hagenda : s.agenda = []) (hready : s.line.ready = .wait 0 frame :: ready) :
    { s with line.ready := ready, agenda := [frame] }.frames = s.frames := by
  simp only [frames, upcoming, hagenda, hready, List.flatMap_cons, Job.frames, List.map_nil,
    List.map_cons, List.nil_append, Timeline.wakingTime, Nat.zero_min, Nat.add_zero]

theorem frames_sleep (hagenda : s.agenda = []) {duration : Nat}
    (hready : s.line.ready = .wait duration frame :: ready) :
    { s with line := { s.line with ready }.sleep duration (.act [frame]) }.frames.Perm
      s.frames := by
  have hp := (Timeline.insertSleeper_perm (Timeline.wakingTime s.line.now duration)
    (Job.act [frame]) s.line.asleep).flatMap_right fun p => p.2.frames p.1
  simp only [frames, upcoming, hagenda, hready, Timeline.sleep, List.map_nil, List.nil_append,
    List.flatMap_cons, Job.frames]
  refine (hp.append_left _).trans ?_
  simp only [List.flatMap_cons, Job.frames, List.map_cons, List.map_nil, List.cons_append,
    List.nil_append]
  exact List.perm_middle

theorem frames_advance (hahead : s.line.Ahead) (hrest : s.turn? = none) {moment : Nat}
    (hm : ∀ d, s.line.nextDeadline? = some d → moment ≤ d) :
    { s with line := s.line.advance moment }.frames = s.frames := by
  obtain ⟨hagenda, hready, -⟩ := turn?_eq_none.1 hrest
  have hwoken : (s.line.asleep.takeWhile fun p => p.1 ≤ moment).flatMap
        (fun p => p.2.frames moment) =
      (s.line.asleep.takeWhile fun p => p.1 ≤ moment).flatMap fun p => p.2.frames p.1 := by
    refine List.flatMap_congr fun p hp => ?_
    rw [hahead.moment_eq hm hp]
  simp only [frames, upcoming, hagenda, hready, Timeline.advance, List.map_nil, List.nil_append,
    List.flatMap_nil, List.flatMap_map, hwoken]
  rw [← List.flatMap_append, List.takeWhile_append_dropWhile]

end

namespace Sound

variable {due due' : Opening → Nat → Prop} {now n : Nat} {s s' : Scenario}

theorem mono (h : Sound due now n s) (hdue : ∀ o m, due o m → due' o m) : Sound due' now n s :=
  { h with clockwork := h.clockwork.mono hdue }

/-- The worker takes a turn. -/
theorem work (h : Sound due now n s) (hagenda : s.agenda = []) {ready : List Job}
    (hready : s.line.ready = .work :: ready) {b : Broker} {effects : List Effect}
    (hw : s.broker.work? s.around = some (b, effects)) :
    Sound (fun o m => due o m ∨ s.Opens o m) now n
      (effects.foldl fulfil { s with broker := b }) := by
  obtain ⟨⟨q, es⟩, hq, he⟩ := Option.map_eq_some_iff.1 hw
  obtain ⟨rfl, rfl⟩ := Prod.mk.inj he
  rw [WorkQueue.take?_eq, Option.map_eq_some_iff] at hq
  obtain ⟨turn, hturn, hq⟩ := hq
  obtain ⟨step, hstep, hdistinct, -, htracked⟩ := h.tracked.turn hturn
  rw [hstep] at hq
  obtain ⟨rfl, rfl⟩ := Prod.mk.inj hq
  let x : Round := ⟨s.broker.queue.worker, turn, step.1, step.2⟩
  have hx : x.Sound := ⟨hstep, hdistinct⟩
  let s₀ : Scenario := { s with broker.queue := s.broker.queue.after turn step.1 }
  have hf : Fulfilled s₀ step.2 (step.2.foldl fulfil s₀) :=
    fulfilled_foldl (s := s₀) h.timing step.2
  have hclockwork := h.clockwork.round (x := x) hx h.orderly rfl hturn hf.countdowns
  refine ⟨hf.timing.trans h.timing, hf.now.trans h.clock, ⟨?_, ?_⟩, ?_, ?_, ?_, ?_⟩
  · rw [hf.asleep]
    exact h.ahead.sorted
  · rw [hf.asleep, hf.now]
    exact h.ahead.later
  · rw [hf.broker]
    exact htracked
  · rw [hf.broker]
    exact Worker.Orderly.round (x := x) h.orderly hx
  · rw [hf.broker, hf.holders]
    exact h.held
  · rw [hf.broker, hf.timer]
    refine hclockwork.mono fun o m hdue => hdue.imp_right ?_
    rintro ⟨around, timeout, hget, hg, hm⟩
    obtain ⟨hp, hhead⟩ := WorkQueue.head_of_turn? (hturn.trans (congrArg some hget))
    exact ⟨timeout, ⟨hagenda, by rw [hready]; rfl, hp, hhead⟩, hg, hm⟩

/-- The frames change their places, and no frame comes in. -/
theorem rearrange (h : Sound due now n s) {agenda : List Frame} {line : Timeline Job} {now' : Nat}
    (hl : line.now = now') (ha : line.Ahead)
    (hp : ({ s with agenda, line } : Scenario).frames.Perm s.frames) :
    Sound due now' n { s with agenda, line } :=
  h.refit 0 [] rfl (by simp) hl ha hp

/-- Something goes to sleep. -/
theorem sleep (h : Sound due now n s) (hagenda : s.agenda = []) {duration : Nat} {frame : Frame}
    {ready : List Job} (hready : s.line.ready = .wait duration frame :: ready)
    (hd : duration ≠ 0) :
    Sound due now n
      { s with line := { s.line with ready }.sleep duration (.act [frame]) } := by
  have hahead : ({ s.line with ready } : Timeline Job).Ahead := ⟨h.ahead.sorted, h.ahead.later⟩
  exact h.rearrange h.clock (hahead.sleep hd (.act [frame])) (frames_sleep hagenda hready)

/-- Time goes by while nothing can be done, and no longer than until the next deadline. -/
theorem advance (h : Sound due now n s) (hrest : s.turn? = none) {moment : Nat}
    (hm : ∀ d, s.line.nextDeadline? = some d → moment ≤ d) :
    Sound due moment n { s with line := s.line.advance moment } :=
  h.rearrange rfl (h.ahead.advance moment) (.of_eq (frames_advance h.ahead hrest hm))

/-- **Turns keep a scenario in step.** The request that a turn opens is due once its timeout has
    passed. -/
theorem turn (h : Sound due now n s) (ht : s.turn? = some s') :
    Sound (fun o m => due o m ∨ s.Opens o m) now n s' := by
  have hold : ∀ {s'}, Sound due now n s' → Sound (fun o m => due o m ∨ s.Opens o m) now n s' :=
    fun h => h.mono fun _ _ => .inl
  unfold turn? at ht
  split at ht
  · rename_i frame rest hs
    obtain rfl := Option.some.inj ht
    exact hold (h.runFrame hs)
  · rename_i hagenda
    split at ht
    · split at ht
      · cases ht
      · rename_i waiting hw
        obtain rfl := Option.some.inj ht
        have hh : s.holders = { s with waiting }.holders + 1 :=
          holders_eq s { s with waiting } rfl (by simp only [callers, hw]; omega)
        refine hold (letGo { h with held := ?_ })
        exact h.held.trans (by omega)
    · rename_i ready hready
      split at ht
      · rename_i b effects hw
        obtain rfl := Option.some.inj ht
        exact h.work hagenda hready hw
      · obtain rfl := Option.some.inj ht
        exact hold (h.rearrange h.clock ⟨h.ahead.sorted, h.ahead.later⟩
          (.of_eq (frames_unworked hready)))
    · rename_i agenda ready hready
      obtain rfl := Option.some.inj ht
      exact hold (h.rearrange h.clock ⟨h.ahead.sorted, h.ahead.later⟩
        (.of_eq (frames_act hagenda hready)))
    · rename_i duration frame ready hready
      split at ht
      · rename_i hd
        subst hd
        obtain rfl := Option.some.inj ht
        exact hold (h.rearrange h.clock ⟨h.ahead.sorted, h.ahead.later⟩
          (.of_eq (frames_over hagenda hready)))
      · rename_i hd
        obtain rfl := Option.some.inj ht
        exact hold (h.sleep hagenda hready hd)

end Sound

/-! ## The worker stands in line -/

/-- The worker stands in line if it has something to take. -/
def Attended (s : Scenario) : Prop := s.broker.queue.isIdle = true ∨ s.worksSoon = true

theorem attended_wake (s : Scenario) : s.wake.Attended := by
  unfold wake
  split
  · rename_i h
    exact Bool.or_eq_true_iff.1 h
  · exact .inr (by simp [worksSoon, spawn, Timeline.spawn])

namespace Attended

variable {s s' : Scenario}

theorem spawn (h : s.Attended) (job : Job) : (s.spawn job).Attended :=
  h.imp_right fun hw => by
    simp only [worksSoon, Scenario.spawn, Timeline.spawn, List.any_append] at hw ⊢
    simp [hw]

theorem hold (h : s.Attended) : s.hold.Attended :=
  h.imp_left fun hi => by
    simp only [WorkQueue.isIdle, Scenario.hold, Broker.share] at hi ⊢
    simp only [Bool.or_eq_true, Bool.and_eq_true] at hi ⊢
    exact hi.imp_right fun hnone => ⟨hnone.1, by simp⟩

theorem bringIn (h : s.Attended) (step : Step) : (s.bringIn step).Attended := by
  unfold Scenario.bringIn
  split <;> exact h

theorem actWith (h : s.Attended) (step : Step) (scene : Scene) :
    (s.actWith step scene).1.Attended := by
  unfold Scenario.actWith
  split
  · exact h.bringIn step
  · exact h.bringIn step
  · exact h
  · exact h.hold
  · exact attended_wake _
  · split
    · exact attended_wake _
    · exact h

theorem act (h : s.Attended) (step : Step) (scene : Scene) : (s.act step scene).1.Attended := by
  unfold Scenario.act
  split
  · unfold fire
    split
    · exact h
    · exact attended_wake _
  · simp only [setRetrievable]
    split <;> exact h.bringIn step
  · split
    · exact h.actWith step scene
    · exact h

theorem runFrame (h : s.Attended) (frame : Frame) : (s.runFrame frame).Attended := by
  cases frame with
  | perform step scene =>
    simp only [Scenario.runFrame]
    split
    · exact h.spawn _
    · split
      · exact (h.act step scene).hold.spawn _
      · exact h.act step scene
  | resume step scene =>
    simp only [Scenario.runFrame]
    split
    · exact (h.act step scene).hold
    · exact h.act step scene
  | elapse id token generation =>
    simp only [Scenario.runFrame]
    split
    · exact attended_wake _
    · exact h
  | letGo => exact attended_wake _
  | _ => exact h

/-- After a turn the worker stands in line if it has something to take: it keeps its place until it
    finds nothing. -/
theorem turn (h : s.Attended) (hs : s.timing = .clock) (ht : s.turn? = some s') :
    s'.Attended := by
  unfold turn? at ht
  split at ht
  · rename_i frame rest _
    obtain rfl := Option.some.inj ht
    exact Attended.runFrame (s := { s with agenda := rest }) h frame
  · split at ht
    · split at ht
      · cases ht
      · obtain rfl := Option.some.inj ht
        exact attended_wake _
    · rename_i ready hready
      split at ht
      · rename_i b effects hw
        obtain rfl := Option.some.inj ht
        obtain ⟨jobs, hj⟩ := (fulfilled_foldl (s := { s with broker := b }) hs effects).ready
        refine .inr ?_
        rw [worksSoon, hj, hready]
        rfl
      · rename_i hw
        obtain rfl := Option.some.inj ht
        exact .inl (WorkQueue.isIdle_of_take? (Option.map_eq_none_iff.1 hw))
    · rename_i hready
      obtain rfl := Option.some.inj ht
      exact h.imp_right fun hw => by simpa [worksSoon, hready] using hw
    · rename_i hready
      split at ht
      · obtain rfl := Option.some.inj ht
        exact h.imp_right fun hw => by simpa [worksSoon, hready] using hw
      · obtain rfl := Option.some.inj ht
        exact h.imp_right fun hw => by simpa [worksSoon, hready, Timeline.sleep] using hw

end Attended

end Scenario

end ContextBroker
