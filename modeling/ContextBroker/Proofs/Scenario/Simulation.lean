import ContextBroker.Proofs.Scenario.Outside
import ContextBroker.Proofs.Scenario.Timeouts

set_option autoImplicit false

/-! # What a scenario does is a history

A history leaves it open what comes next, and who makes a call; a scenario has a line and parties
with scripts, and does one thing at a time. So what a scenario does is one of the things that can
happen in a history with its polls (`Scenario.exists_polling`): the broker is the same, and
providers are called for the same requests in the same order.

The history follows the scenario move by move (`Scenario.Follows`). What is done from outside is
done in both; a call to a provider is the next call of the first poll that has one left; and the
timeouts that may elapse are among those that the history keeps. What is said of broker and timeouts
holds of histories without polls too (`Scenario.Mirrors`). -/

namespace ContextBroker

/-- A timeout waits after effects if it waited before or one of them set it, unless they set
    another one of its number. -/
theorem ManualTimer.get?_keep_of_set {m : ManualTimer} {effects : List Effect} {id : TimerId}
    {t : Token} {generation : Nat}
    (hsets : ∀ delay u g, .setTimer id delay u g ∈ effects → u = t ∧ g = generation)
    (h : m.waiting.get? id = some (t, generation) ∨
      ∃ delay, .setTimer id delay t generation ∈ effects) :
    (m.keep effects).waiting.get? id = some (t, generation) := by
  induction effects generalizing m with
  | nil =>
    rcases h with h | ⟨delay, he⟩
    · exact h
    · simp at he
  | cons e effects ih =>
    have hrest : ∀ delay u g, .setTimer id delay u g ∈ effects → u = t ∧ g = generation :=
      fun delay u g he => hsets delay u g (List.mem_cons_of_mem _ he)
    cases e with
    | setTimer id' delay u g =>
      show ((m.set id' u g).keep effects).waiting.get? id = _
      by_cases hid : id = id'
      · subst hid
        obtain ⟨rfl, rfl⟩ := hsets delay u g List.mem_cons_self
        exact ih hrest (.inl (SortedMap.get?_insert_self ..))
      · refine ih hrest (h.imp ?_ ?_)
        · intro hm
          exact (SortedMap.get?_insert_of_ne _ _ hid).trans hm
        · rintro ⟨delay', he⟩
          exact ⟨delay', by simpa [hid] using he⟩
    | _ =>
      refine ih hrest (h.imp_right ?_)
      rintro ⟨delay, he⟩
      exact ⟨delay, by simpa using he⟩

namespace Scenario

/-! ## Broker and timeouts -/

/-- Countdowns run on when a frame leaves the agenda. -/
theorem mem_countdowns_tail {s : Scenario} {frame : Frame} {rest : List Frame}
    (hs : s.agenda = frame :: rest) {a : Countdown}
    (ha : a ∈ { s with agenda := rest }.countdowns) : a ∈ s.countdowns := by
  simp only [countdowns, frames, upcoming, hs, List.map_cons, List.cons_append,
    List.mem_filterMap, List.mem_cons] at ha ⊢
  obtain ⟨q, hq, hqa⟩ := ha
  exact ⟨q, .inr hq, hqa⟩

/-- The history `h` has the broker of the scenario `s`, and its timeouts. -/
structure Mirrors (h : History) (s : Scenario) : Prop where
  broker : h.broker = s.broker
  underway : h.underway = []
  /-- A countdown that is armed is for a timeout that may elapse. -/
  timeouts (a : Countdown) : a ∈ s.countdowns → a.timer ∈ s.timer.armed →
    h.timeouts.waiting.get? a.timer = some (a.token, a.generation)

namespace Mirrors

variable {h h' : History} {s s' : Scenario} {due : Opening → Nat → Prop} {now n : Nat}

theorem start (config : Config) (last : Token) (today : Timestamp) :
    Mirrors (.start config last) (.start config last today) :=
  ⟨rfl, rfl, fun _ ha => absurd ha List.not_mem_nil⟩

/-- Nothing is done with timeouts. -/
theorem keep (hm : Mirrors h s) (hbroker : h'.broker = s'.broker) (hunderway : h'.underway = [])
    (htimeouts : h'.timeouts = h.timeouts) (htimer : s'.timer = s.timer)
    (hcountdowns : ∀ a, a ∈ s'.countdowns → a ∈ s.countdowns) : Mirrors h' s' where
  broker := hbroker
  underway := hunderway
  timeouts a ha harmed := by
    rw [htimer] at harmed
    rw [htimeouts]
    exact hm.timeouts a (hcountdowns a ha) harmed

/-- A timeout elapses whose countdown is over. -/
theorem elapse (hm : Mirrors h s) {id : TimerId} {t : Token} {generation : Nat}
    {rest : List Frame} (hs : s.agenda = .elapse id t generation :: rest)
    (harmed : s.timer.isArmed id = true) :
    (h.apply (.elapse id)).log = h.log ∧
      Mirrors (h.apply (.elapse id)) { s with
        agenda := rest, timer := s.timer.cancel id, broker := s.broker.elapse t generation } := by
  have hwaits : h.timeouts.waiting.get? id = some (t, generation) := by
    refine hm.timeouts ⟨s.line.now, id, t, generation⟩ ?_ (SortedSet.contains_iff_mem.1 harmed)
    simp [countdowns, frames, upcoming, hs, Frame.countdown?]
  have happly : h.apply (.elapse id) = { h with
      timeouts := ⟨h.timeouts.waiting.erase id⟩
      broker := s.broker.elapse t generation } := by
    simp [History.apply, History.elapse, ManualTimer.fire?, hwaits, hm.broker]
  rw [happly]
  refine ⟨rfl, rfl, hm.underway, ?_⟩
  intro a ha harmed
  obtain ⟨hne, harmed⟩ := Timer.mem_cancel.1 harmed
  rw [SortedMap.get?_erase_of_ne _ hne]
  exact hm.timeouts a (mem_countdowns_tail hs ha) harmed

/-- The worker takes what is next. -/
theorem work (hm : Mirrors h s) (hs : Sound due now n s) {b : Broker} {effects : List Effect}
    (hw : s.broker.work? s.around = some (b, effects)) :
    ∃ x : Round, x.effects = effects ∧
      (h.apply (.work s.around)).log = h.log ++ [.worked x] ∧
      Mirrors (h.apply (.work s.around)) (effects.foldl fulfil { s with broker := b }) := by
  obtain ⟨⟨q, es⟩, hq, he⟩ := Option.map_eq_some_iff.1 hw
  obtain ⟨rfl, rfl⟩ := Prod.mk.inj he
  rw [WorkQueue.take?_eq, Option.map_eq_some_iff] at hq
  obtain ⟨turn, hturn, hq⟩ := hq
  obtain ⟨step, hstep, hdistinct, -, -⟩ := hs.tracked.turn hturn
  rw [hstep] at hq
  obtain ⟨rfl, rfl⟩ := Prod.mk.inj hq
  let x : Round := ⟨s.broker.queue.worker, turn, step.1, step.2⟩
  have hx : x.Sound := ⟨hstep, hdistinct⟩
  let s₀ : Scenario := { s with broker.queue := s.broker.queue.after turn step.1 }
  have hf : Fulfilled s₀ step.2 (step.2.foldl fulfil s₀) :=
    fulfilled_foldl (s := s₀) hs.timing step.2
  have happly : h.apply (.work s.around) = { h with
      broker := s₀.broker
      timeouts := h.timeouts.keep step.2
      log := h.log ++ [.worked x] } := by
    show h.work s.around = _
    simp only [History.work, hm.broker, hturn, hw]
    rfl
  rw [happly]
  refine ⟨x, rfl, rfl, hf.broker.symm, hm.underway, ?_⟩
  intro a ha harmed
  rw [hf.timer] at harmed
  have harmed := (Clockwork.mem_armed_after hx hs.orderly).1 harmed
  rcases (hf.countdowns a).1 ha with ha | ⟨delay, hset, -⟩
  · -- The timers of countdowns that run already are not set again.
    have hnot : ∀ delay u g, ¬ .setTimer a.timer delay u g ∈ x.effects := by
      intro delay u g hset
      obtain ⟨-, -, -, -, -, hid, -⟩ := hx.sets_iff.1 hset
      have hle : a.timer ≤ x.before.timers := hs.clockwork.numbered a ha
      rw [hid] at hle
      exact Nat.not_succ_le_self _ hle
    rcases harmed with ⟨delay, u, g, hset⟩ | ⟨harmed, -⟩
    · exact absurd hset (hnot delay u g)
    · exact ManualTimer.get?_keep_of_set (fun delay u g hset => absurd hset (hnot delay u g))
        (.inl (hm.timeouts a ha harmed))
  · refine ManualTimer.get?_keep_of_set ?_ (.inr ⟨delay, hset⟩)
    intro delay' u g hset'
    obtain ⟨_, _, _, hturn, -, -, rfl⟩ := hx.sets_iff.1 hset'
    obtain ⟨_, _, _, hturn', -, -, hg⟩ := hx.sets_iff.1 hset
    rw [hturn, Turn.task.injEq, Task.getContext.injEq] at hturn'
    exact ⟨hturn'.2.1, hg.symm⟩

end Mirrors

/-! ## Step by step -/

/-- The history `p` with its polls has come to where the scenario `s` is. -/
structure Follows (p : Polling) (s : Scenario) : Prop where
  broker : p.history.broker = s.broker
  underway : p.history.underway = []
  /-- A countdown that is armed is for a timeout that may elapse. -/
  timeouts (a : Countdown) : a ∈ s.countdowns → a.timer ∈ s.timer.armed →
    p.history.timeouts.waiting.get? a.timer = some (a.token, a.generation)
  manual : s.manual = {}
  pulled : p.pulled.map (·.pull) = s.pulled
  left : p.left.flatten = s.toPull
  still : s.Still

namespace Follows

variable {p : Polling} {s s' : Scenario} {due : Opening → Nat → Prop} {now n : Nat}

theorem mirrors (h : Follows p s) : Mirrors p.history s := ⟨h.broker, h.underway, h.timeouts⟩

/-- What is done from outside is done in the history too. -/
theorem aside (h : Follows p s) (ha : Aside s s') : ∃ moves, Follows (p.run moves) s' := by
  obtain ⟨moves, log, hp⟩ := ha.broker p h.broker h.underway
  refine ⟨moves, ?_⟩
  rw [hp]
  have hm : Mirrors { p.history with broker := s'.broker, log } s' :=
    h.mirrors.keep rfl h.underway rfl ha.timer fun a => (ha.countdowns a).1
  exact ⟨rfl, h.underway, hm.timeouts, ha.manual.trans h.manual, h.pulled.trans ha.pulled.symm,
    h.left.trans ha.toPull.symm, ha.still h.still⟩

/-- One run after another. -/
theorem after (moves : List Polling.Move) (h : ∃ more, Follows ((p.run moves).run more) s) :
    ∃ moves, Follows (p.run moves) s := by
  obtain ⟨more, h⟩ := h
  exact ⟨moves ++ more, by rw [p.run_append]; exact h⟩

/-- A frame is taken from the agenda that neither calls a provider nor ends a countdown. -/
theorem consume (h : Follows p s) {frame : Frame} {rest : List Frame}
    (hs : s.agenda = frame :: rest) (hpulls : frame.pulls = []) :
    Follows p { s with agenda := rest } where
  broker := h.broker
  underway := h.underway
  timeouts a ha := h.timeouts a (mem_countdowns_tail hs ha)
  manual := h.manual
  pulled := h.pulled
  left := by
    refine h.left.trans ?_
    simp [toPull, hs, hpulls]
  still := ⟨h.still.waits, h.still.sleepers⟩

/-- A provider is called when the poll makes its next call. -/
theorem pull (h : Follows p s) {target : PollTarget} {token : Token} {rest : List Frame}
    (hs : s.agenda = .pull target token :: rest) :
    ∃ moves, Follows (p.run moves) ({ s with agenda := rest }.runFrame (.pull target token)) := by
  let called : Scenario := { s with agenda := rest }.note (.pulled target token)
  have hleft : p.left.flatten = ⟨token, target⟩ :: called.toPull := by
    rw [h.left]
    simp [toPull, hs, Frame.pulls, called, note]
  obtain ⟨k, hrest, hpulled⟩ := p.exists_pull hleft
  have hcalled : Follows (p.pull k) called := by
    refine ⟨?_, ?_, ?_, h.manual, ?_, hrest, ⟨h.still.waits, h.still.sleepers⟩⟩
    · rw [p.history_pull]
      exact h.broker
    · rw [p.history_pull]
      exact h.underway
    · intro a ha
      rw [p.history_pull]
      exact h.timeouts a (mem_countdowns_tail hs ha)
    · rw [hpulled, List.map_append, h.pulled]
      simp [Scenario.pulled, called, note, Event.pull?]
  refine after [.pull k] (hcalled.aside ?_)
  have hcalled := Deeds.callBack called s.providers target.provider ⟨target.identity, token⟩
  exact .of_deeds (hcalled.tail (.around rfl rfl rfl rfl rfl rfl))

/-- A timeout elapses whose countdown is over. -/
theorem elapse (h : Follows p s) {id : TimerId} {t : Token} {generation : Nat}
    {rest : List Frame} (hs : s.agenda = .elapse id t generation :: rest) :
    ∃ moves, Follows (p.run moves) ({ s with agenda := rest }.runFrame (.elapse id t generation)) := by
  have hrest : Follows p { s with agenda := rest } := h.consume hs rfl
  simp only [runFrame, Timer.elapse?]
  by_cases harmed : s.timer.isArmed id = true
  · simp only [harmed, if_true]
    let elapsed : Scenario :=
      { s with agenda := rest, timer := s.timer.cancel id, broker := s.broker.elapse t generation }
    obtain ⟨hlog, hm⟩ := h.mirrors.elapse hs harmed
    refine after [.go (.elapse id)] (aside (s := elapsed) ?_ (.of_deeds (.wake elapsed)))
    show Follows (p.go (.elapse id)) elapsed
    rw [p.go_eq (by rw [History.rounds, hlog, History.rounds])]
    exact ⟨hm.broker, hm.underway, hm.timeouts, h.manual, h.pulled, hrest.left,
      ⟨h.still.waits, h.still.sleepers⟩⟩
  · simp only [harmed]
    exact ⟨[], hrest⟩

end Follows

/-- `s'` comes of `s` when some effects are fulfilled: the calls that they ask for are to come. -/
structure Wished (s : Scenario) (es : List Effect) (s' : Scenario) : Prop where
  manual : s'.manual = s.manual
  pulled : s'.pulled = s.pulled
  toPull : s'.toPull = s.toPull ++ es.flatMap (·.pulls)
  still : s.Still → s'.Still

namespace Wished

variable {s s' s'' : Scenario} {e : Effect} {es es' : List Effect}

theorem trans (h : Wished s es s') (h' : Wished s' es' s'') : Wished s (es ++ es') s'' where
  manual := h'.manual.trans h.manual
  pulled := h'.pulled.trans h.pulled
  toPull := by rw [h'.toPull, h.toPull, List.flatMap_append, List.append_assoc]
  still hs := h'.still (h.still hs)

/-- What puts nothing in line. -/
theorem of_eq (hmanual : s'.manual = s.manual) (hpulled : s'.pulled = s.pulled)
    (hagenda : s'.agenda = s.agenda) (hline : s'.line = s.line) (hes : es.flatMap (·.pulls) = []) :
    Wished s es s' where
  manual := hmanual
  pulled := hpulled
  toPull := by rw [hes, List.append_nil, Scenario.toPull, hagenda, hline, Scenario.toPull]
  still hs := ⟨by rw [hline]; exact hs.waits, by rw [hline]; exact hs.sleepers⟩

theorem spawn (s : Scenario) {job : Job} (hpulls : job.pulls = e.pulls)
    (hwait : ∀ duration frame, job = .wait duration frame → frame.pulls = []) :
    Wished s [e] (s.spawn job) where
  manual := rfl
  pulled := rfl
  toPull := by simp [Scenario.toPull, Scenario.spawn, Timeline.spawn, hpulls]
  still hs := by
    refine ⟨?_, hs.sleepers⟩
    intro duration frame hmem
    rcases List.mem_append.1 hmem with hmem | hmem
    · exact hs.waits duration frame hmem
    · exact hwait duration frame (List.mem_singleton.1 hmem).symm

end Wished

theorem wished_fulfil {s : Scenario} (h : s.timing = .clock) (e : Effect) :
    Wished s [e] (s.fulfil e) := by
  have hnote : (s.note (.did e)).pulled = s.pulled := by simp [pulled, note, Event.pull?]
  cases e with
  | reply ticket r =>
    simp only [fulfil, answered]
    split
    · let s₀ : Scenario :=
        { s.note (.did (.reply ticket r)) with awaited := s.awaited.erase ticket }
      have hs₀ : Wished s [] s₀ := .of_eq rfl hnote rfl rfl rfl
      exact hs₀.trans (.spawn s₀ rfl (by simp))
    · exact .of_eq rfl hnote rfl rfl rfl
  | poll token targets =>
    refine .spawn s ?_ (by simp)
    show (targets.map (Frame.pull · token)).flatMap (·.pulls) = targets.map (⟨token, ·⟩)
    rw [List.flatMap_map, List.map_eq_flatMap]
    rfl
  | deliver requester token outcome => exact .spawn s rfl (by simp)
  | setTimer id delay token generation =>
    let s₀ : Scenario :=
      { s.note (.did (.setTimer id delay token generation)) with timer := s.timer.arm id }
    have hs : s.fulfil (.setTimer id delay token generation) =
        s₀.spawn (.wait delay (.elapse id token generation)) := by
      simp only [fulfil, note, h, s₀]
    rw [hs]
    have hs₀ : Wished s [] s₀ := .of_eq rfl hnote rfl rfl rfl
    refine hs₀.trans (.spawn s₀ rfl ?_)
    rintro duration frame ⟨⟩
    rfl
  | cancelTimer id =>
    simp only [fulfil, note, h]
    exact .of_eq rfl hnote rfl rfl rfl

theorem wished_foldl {s : Scenario} (h : s.timing = .clock) (es : List Effect) :
    Wished s es (es.foldl fulfil s) := by
  induction es generalizing s with
  | nil => exact ⟨rfl, rfl, (List.append_nil _).symm, id⟩
  | cons e es ih =>
    exact (wished_fulfil h e).trans (ih ((fulfilled_fulfil h e).timing.trans h))

namespace Follows

variable {p : Polling} {s s' : Scenario} {due : Opening → Nat → Prop} {now n : Nat}

/-- The worker takes what is next. -/
theorem work (h : Follows p s) (hs : Sound due now n s) {b : Broker} {effects : List Effect}
    (hw : s.broker.work? s.around = some (b, effects)) :
    Follows (p.go (.work s.around)) (effects.foldl fulfil { s with broker := b }) := by
  obtain ⟨x, rfl, hlog, hm⟩ := h.mirrors.work hs hw
  let s₀ : Scenario := { s with broker := b }
  have hwished : Wished s₀ x.effects (x.effects.foldl fulfil s₀) :=
    wished_foldl (s := s₀) hs.timing x.effects
  have hgo : p.go (.work s.around) = { p with
      history := p.history.apply (.work s.around)
      left := p.left ++ [x.pulls] } := by
    have hrounds : (p.history.apply (.work s.around)).rounds = p.history.rounds ++ [x] := by
      rw [History.rounds, hlog]
      exact List.filterMap_append
    simp only [Polling.go, hrounds, List.drop_left]
    rfl
  rw [hgo]
  refine ⟨hm.broker, hm.underway, hm.timeouts, hwished.manual.trans h.manual,
    h.pulled.trans hwished.pulled.symm, ?_, hwished.still ⟨h.still.waits, h.still.sleepers⟩⟩
  rw [hwished.toPull, List.flatten_append, h.left]
  simp [Round.pulls, toPull, s₀]

/-- **A turn is a run of the history.** -/
theorem turn (h : Follows p s) (hs : Sound due now n s) (ht : s.turn? = some s') :
    ∃ moves, Follows (p.run moves) s' := by
  unfold turn? at ht
  split at ht
  · rename_i frame rest hagenda
    obtain rfl := Option.some.inj ht
    have hother : frame.pulls = [] → (∀ m, frame.countdown? m = none) →
        ∃ moves, Follows (p.run moves) ({ s with agenda := rest }.runFrame frame) :=
      fun hpulls hquiet => (h.consume hagenda hpulls).aside
        (.runFrame (hs.consume hagenda hquiet) h.manual hpulls hquiet)
    cases frame with
    | pull target token => exact h.pull hagenda
    | elapse id token generation => exact h.elapse hagenda
    | _ => exact hother rfl fun _ => rfl
  · rename_i hagenda
    split at ht
    · split at ht
      · cases ht
      · rename_i waiting hw
        obtain rfl := Option.some.inj ht
        have hw : Aside s { s with waiting } := .of_eq (.refl _) rfl rfl rfl rfl rfl
        exact h.aside (hw.trans (.of_deeds (.letGo _)))
    · rename_i ready hready
      split at ht
      · rename_i b effects hw
        obtain rfl := Option.some.inj ht
        exact ⟨[.go (.work s.around)], h.work hs hw⟩
      · obtain rfl := Option.some.inj ht
        refine h.aside (.rearrange (.of_eq (frames_unworked hready)) ?_
          fun hstill => hstill.shorten hready _)
        simp [toPull, hready, Job.pulls]
    · rename_i agenda ready hready
      obtain rfl := Option.some.inj ht
      refine h.aside (.rearrange (.of_eq (frames_act hagenda hready)) ?_
        fun hstill => hstill.shorten hready _)
      simp [toPull, hagenda, hready, Job.pulls]
    · rename_i duration frame ready hready
      have hpulls : frame.pulls = [] :=
        h.still.waits duration frame (by rw [hready]; exact List.mem_cons_self)
      split at ht
      · rename_i hd
        subst hd
        obtain rfl := Option.some.inj ht
        refine h.aside (.rearrange (.of_eq (frames_over hagenda hready)) ?_
          fun hstill => hstill.shorten hready _)
        simp [toPull, hagenda, hready, Job.pulls]
      · obtain rfl := Option.some.inj ht
        refine h.aside (.rearrange (frames_sleep hagenda hready) ?_ fun hstill => ?_)
        · simp [toPull, hagenda, hready, Job.pulls, Timeline.sleep, hpulls]
        · refine ⟨(hstill.shorten hready []).waits, fun q hq => ?_⟩
          have hmem := (Timeline.insertSleeper_perm _ _ _).mem_iff.1 hq
          rcases List.mem_cons.1 hmem with rfl | hq
          · simp [Job.pulls, hpulls]
          · exact hstill.sleepers q hq

/-- Time goes by while nothing can be done. -/
theorem advance (h : Follows p s) (hs : Sound due now n s) (hrest : s.turn? = none) {moment : Nat}
    (hm : ∀ d, s.line.nextDeadline? = some d → moment ≤ d) :
    ∃ moves, Follows (p.run moves) { s with line := s.line.advance moment } := by
  obtain ⟨hagenda, hready, -⟩ := turn?_eq_none.1 hrest
  have hwoken : ∀ job ∈ (s.line.asleep.takeWhile fun q => q.1 ≤ moment).map (·.2),
      job.pulls = [] := by
    intro job hjob
    obtain ⟨q, hq, rfl⟩ := List.mem_map.1 hjob
    exact h.still.sleepers q ((List.takeWhile_sublist _).subset hq)
  refine h.aside (.rearrange (.of_eq (frames_advance hs.ahead hrest hm)) ?_ fun _ => ⟨?_, ?_⟩)
  · simp only [toPull, hagenda, hready, Timeline.advance, List.nil_append, List.flatMap_nil]
    exact List.flatMap_eq_nil_iff.2 hwoken
  · intro duration frame hmem
    simp only [Timeline.advance, hready, List.nil_append] at hmem
    exact hwoken (.wait duration frame) hmem
  · intro q hq
    exact h.still.sleepers q ((List.dropWhile_sublist _).subset hq)

/-- Every move of a scenario is a run of the history. -/
theorem apply (h : Follows p s) (hs : Sound due now n s) (m : Move) :
    ∃ moves, Follows (p.run moves) (s.apply m) := by
  cases m with
  | step step => exact h.aside (.of_deeds (.applyStep hs h.manual step))
  | amid step scene => exact h.aside (.of_deeds (.performFrame hs h.manual step scene))
  | turn =>
    simp only [Scenario.apply]
    cases ht : s.turn? with
    | none => exact ⟨[], h⟩
    | some s' => exact h.turn hs ht
  | wait moment =>
    simp only [Scenario.apply]
    split
    · rename_i hguard
      obtain ⟨hrest, -, hm⟩ := hguard
      refine h.advance hs (Option.isNone_iff_eq_none.1 hrest) fun d hd => ?_
      simpa [hd] using hm
    · exact ⟨[], h⟩

theorem start (config : Config) (last : Token) (today : Timestamp) :
    Follows (.start config last) (.start config last today) where
  broker := rfl
  underway := rfl
  timeouts _ ha := absurd ha List.not_mem_nil
  manual := rfl
  pulled := rfl
  left := rfl
  still := ⟨fun _ _ hmem => absurd hmem List.not_mem_nil, fun _ hmem => absurd hmem List.not_mem_nil⟩

end Follows

/-- **What a scenario does is a history.** Whatever is done in a scenario can be done in a history
    with its polls, so that it has the same broker, providers were called for the same requests in
    the same order, and those that are still to be called are the same too. -/
theorem exists_polling (config : Config) (last : Token) (today : Timestamp) (moves : List Move) :
    let s := (start config last today).run moves
    ∃ moves', let p := (Polling.start config last).run moves'
      p.history.broker = s.broker ∧ p.pulled.map (·.pull) = s.pulled ∧
        p.left.flatten = s.toPull := by
  intro s
  have hrun : ∃ moves', Follows ((Polling.start config last).run moves') s := by
    induction moves using List.reverseRecOn with
    | nil => exact ⟨[], .start config last today⟩
    | append_singleton moves m ih =>
      obtain ⟨moves', h⟩ := ih
      have hs := (sound_run config last today moves).1
      have hm := Follows.after moves' (h.apply hs m)
      show ∃ moves', Follows _ ((start config last today).run (moves ++ [m]))
      rw [run_append]
      exact hm
  obtain ⟨moves', h⟩ := hrun
  exact ⟨moves', h.broker, h.pulled, h.left⟩

end Scenario

end ContextBroker
