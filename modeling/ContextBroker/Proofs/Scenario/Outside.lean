import ContextBroker.Proofs.History.Pulling
import ContextBroker.Proofs.Scenario.Deeds

set_option autoImplicit false

/-! # What is done in a scenario from outside

Most of what is done in a scenario comes from outside (`Outside`): somebody makes a call, or begins
or ceases to hold the broker. Each of these deeds is a move of a history (`Makes`), and leaves
timeouts and polls alone (`Scenario.Aside.of_deeds`). What remains are three kinds of turns, in which
a provider is called, a timeout elapses, or the worker takes what is next. -/

namespace ContextBroker

namespace Polling

theorem run_append (p : Polling) (moves more : List Move) :
    p.run (moves ++ more) = (p.run moves).run more := List.foldl_append

theorem go_eq (p : Polling) {m : History.Move} (h : (p.history.apply m).rounds = p.history.rounds) :
    p.go m = { p with history := p.history.apply m } := by
  simp [go, h]

end Polling

/-! ## What is done from outside -/

/-- In every history whose broker is `b`, amid no call, the move makes the broker `b'`, and `events`
    are written down. -/
def Makes (m : History.Move) (b b' : Broker) (events : List History.Event) : Prop :=
  ∀ h : History, h.broker = b → h.underway = [] →
    h.apply m = { h with broker := b', log := h.log ++ events }

namespace Makes

variable {b : Broker}

theorem share (hpos : 0 < b.queue.senders) : Makes .share b b.share [] := by
  rintro h rfl -
  have hheld : h.isHeld = true := decide_eq_true hpos
  simp only [History.apply, hheld, if_true, List.append_nil]

theorem drop (b : Broker) : Makes .drop b b.drop [] := by
  rintro h rfl hu
  simp only [History.apply, hu, true_or, if_true, List.append_nil]

theorem addObserver (hpos : 0 < b.queue.senders) (o : Observer) :
    Makes (.addObserver o) b { b with hub := b.hub.add o } [] := by
  rintro h rfl -
  have hheld : h.isHeld = true := decide_eq_true hpos
  simp only [History.apply, hheld, if_true, List.append_nil]

theorem removeObserver (hpos : 0 < b.queue.senders) (o : Observer) :
    Makes (.removeObserver o) b { b with hub := b.hub.remove o } [] := by
  rintro h rfl -
  have hheld : h.isHeld = true := decide_eq_true hpos
  simp only [History.apply, hheld, if_true, List.append_nil]

theorem call (hpos : 0 < b.queue.senders) (ticket : Ticket) (c : Call) :
    Makes (.call ticket c) b (b.call ticket c).1 [.responded c (b.call ticket c).2] := by
  rintro h rfl -
  have hheld : h.isHeld = true := decide_eq_true hpos
  simp only [History.apply, hheld, if_true, History.respond]

end Makes

/-- In every history whose broker is `b`, amid no call, those who hold the broker can make it
    `b'`. -/
def Outside (b b' : Broker) : Prop :=
  ∀ p : Polling, p.history.broker = b → p.history.underway = [] →
    ∃ moves log, p.run moves = { p with history := { p.history with broker := b', log } }

namespace Outside

variable {b b' b'' : Broker}

theorem refl (b : Broker) : Outside b b := by
  rintro p rfl -
  exact ⟨[], p.history.log, rfl⟩

theorem trans (h : Outside b b') (h' : Outside b' b'') : Outside b b'' := by
  intro p hb hu
  obtain ⟨moves, log, hp⟩ := h p hb hu
  obtain ⟨more, log', hp'⟩ := h' (p.run moves) (by rw [hp]) (by rw [hp]; exact hu)
  refine ⟨moves ++ more, log', ?_⟩
  rw [Polling.run_append, hp', hp]

/-- One move that takes no round. -/
theorem of_makes {m : History.Move} {events : List History.Event} (hm : Makes m b b' events)
    (hevents : events.filterMap (·.round?) = []) : Outside b b' := by
  intro p hb hu
  have happly := hm p.history hb hu
  have hrounds : (p.history.apply m).rounds = p.history.rounds := by
    rw [happly, History.rounds, List.filterMap_append, hevents, List.append_nil, History.rounds]
  refine ⟨[.go m], p.history.log ++ events, ?_⟩
  show p.go m = _
  rw [p.go_eq hrounds, happly]

end Outside

namespace Scenario

/-! ## Calls made and calls to come -/

/-- The calls that a frame makes to providers. -/
def Frame.pulls : Frame → List Pull
  | .pull target token => [⟨token, target⟩]
  | _ => []

/-- The calls that a job makes to providers, in order. -/
def Job.pulls : Job → List Pull
  | .work => []
  | .act frames => frames.flatMap (·.pulls)
  | .wait _ frame => frame.pulls

/-- The call to a provider that an event is. -/
def Event.pull? : Event → Option Pull
  | .pulled target token => some ⟨token, target⟩
  | _ => none

/-- The calls that were made to providers, in order. -/
def pulled (s : Scenario) : List Pull := s.log.filterMap (·.pull?)

/-- The calls that are to be made to providers, in order. -/
def toPull (s : Scenario) : List Pull :=
  s.agenda.flatMap (·.pulls) ++ s.line.ready.flatMap (·.pulls)

/-- Nothing that sleeps, or is about to, calls a provider. -/
structure Still (s : Scenario) : Prop where
  waits (duration : Nat) (frame : Frame) : .wait duration frame ∈ s.line.ready → frame.pulls = []
  sleepers (p : Nat × Job) : p ∈ s.line.asleep → p.2.pulls = []

/-- The line goes on, and nothing goes to sleep. -/
theorem Still.shorten {s : Scenario} (h : s.Still) {job : Job} {ready : List Job}
    (hready : s.line.ready = job :: ready) (agenda : List Frame) :
    { s with line.ready := ready, agenda }.Still := by
  refine ⟨fun duration frame hmem => h.waits duration frame ?_, h.sleepers⟩
  rw [hready]
  exact List.mem_cons_of_mem _ hmem

/-- `s'` comes of `s` by what is done from outside: timeouts and polls are left alone. -/
structure Aside (s s' : Scenario) : Prop where
  broker : Outside s.broker s'.broker
  timer : s'.timer = s.timer
  manual : s'.manual = s.manual
  countdowns (a : Countdown) : a ∈ s'.countdowns ↔ a ∈ s.countdowns
  pulled : s'.pulled = s.pulled
  toPull : s'.toPull = s.toPull
  still : s.Still → s'.Still

namespace Aside

variable {s s' s'' : Scenario}

theorem trans (h : Aside s s') (h' : Aside s' s'') : Aside s s'' where
  broker := h.broker.trans h'.broker
  timer := h'.timer.trans h.timer
  manual := h'.manual.trans h.manual
  countdowns a := (h'.countdowns a).trans (h.countdowns a)
  pulled := h'.pulled.trans h.pulled
  toPull := h'.toPull.trans h.toPull
  still hs := h'.still (h.still hs)

/-- What has to do with no one's turn. -/
theorem of_eq (hbroker : Outside s.broker s'.broker) (htimer : s'.timer = s.timer)
    (hmanual : s'.manual = s.manual) (hlog : s'.log = s.log) (hagenda : s'.agenda = s.agenda)
    (hline : s'.line = s.line) : Aside s s' where
  broker := hbroker
  timer := htimer
  manual := hmanual
  countdowns a := by rw [Scenario.countdowns, frames, hagenda, hline]; exact Iff.rfl
  pulled := by rw [Scenario.pulled, hlog, Scenario.pulled]
  toPull := by rw [Scenario.toPull, hagenda, hline, Scenario.toPull]
  still hs := ⟨by rw [hline]; exact hs.waits, by rw [hline]; exact hs.sleepers⟩

theorem refl (s : Scenario) : Aside s s := of_eq (.refl _) rfl rfl rfl rfl rfl

/-- A job stands in line that neither calls providers nor ends a countdown. -/
theorem spawn (s : Scenario) {job : Job} (hpulls : job.pulls = [])
    (hquiet : ∀ p ∈ job.frames s.line.now, p.2.countdown? p.1 = none) : Aside s (s.spawn job) where
  broker := .refl _
  timer := rfl
  manual := rfl
  countdowns := mem_countdowns_spawn_of_quiet hquiet
  pulled := rfl
  toPull := by
    simp [Scenario.toPull, Scenario.spawn, Timeline.spawn, hpulls]
  still hs := by
    refine ⟨?_, hs.sleepers⟩
    intro duration frame hmem
    rcases List.mem_append.1 hmem with hmem | hmem
    · exact hs.waits duration frame hmem
    · obtain rfl := List.mem_singleton.1 hmem
      exact hpulls

/-- Frames come on the agenda that neither call providers nor end a countdown. -/
theorem agenda (s : Scenario) {more : List Frame} (hpulls : ∀ f ∈ more, f.pulls = [])
    (hquiet : ∀ f ∈ more, ∀ m, f.countdown? m = none) :
    Aside s { s with agenda := more ++ s.agenda } where
  broker := .refl _
  timer := rfl
  manual := rfl
  countdowns a := by
    have hnone : (more.map (s.line.now, ·)).filterMap (fun p => p.2.countdown? p.1) = [] := by
      rw [List.filterMap_eq_nil_iff]
      intro p hp
      obtain ⟨f, hf, rfl⟩ := List.mem_map.1 hp
      exact hquiet f hf _
    simp only [Scenario.countdowns, frames, upcoming, List.map_append, List.filterMap_append, hnone,
      List.nil_append]
  pulled := rfl
  toPull := by
    simp only [Scenario.toPull, List.flatMap_append]
    rw [List.flatMap_eq_nil_iff.2 hpulls, List.nil_append]
  still hs := ⟨hs.waits, hs.sleepers⟩

theorem note (s : Scenario) {e : Event} (he : e.pull? = none) : Aside s (s.note e) where
  broker := .refl _
  timer := rfl
  manual := rfl
  countdowns _ := Iff.rfl
  pulled := by simp [Scenario.pulled, Scenario.note, he]
  toPull := rfl
  still hs := ⟨hs.waits, hs.sleepers⟩

/-- Observers are to be told, and then somebody lets the broker go. -/
theorem announce (s : Scenario) (notice : Notice) (observers : List Observer) :
    Aside s { s with agenda := observers.map (.tell · notice) ++ .letGo :: s.agenda } := by
  have hframe : ∀ f ∈ observers.map (Frame.tell · notice) ++ [.letGo],
      (∃ o, f = .tell o notice) ∨ f = .letGo := by
    intro f hf
    rcases List.mem_append.1 hf with hf | hf
    · obtain ⟨o, -, rfl⟩ := List.mem_map.1 hf
      exact .inl ⟨o, rfl⟩
    · exact .inr (List.mem_singleton.1 hf)
  have hagenda : observers.map (Frame.tell · notice) ++ .letGo :: s.agenda =
      observers.map (Frame.tell · notice) ++ [.letGo] ++ s.agenda := by simp
  rw [hagenda]
  refine agenda s ?_ ?_
  · intro f hf
    rcases hframe f hf with ⟨o, rfl⟩ | rfl <;> rfl
  · intro f hf m
    rcases hframe f hf with ⟨o, rfl⟩ | rfl <;> rfl

/-- What a party does when it is called back calls no provider. -/
theorem perform (s : Scenario) (steps : List Step) (scene : Scene) :
    Aside s { s with agenda := steps.map (.perform · scene) ++ s.agenda } := by
  refine agenda s ?_ ?_
  · intro f hf
    obtain ⟨step, -, rfl⟩ := List.mem_map.1 hf
    rfl
  · intro f hf m
    obtain ⟨step, -, rfl⟩ := List.mem_map.1 hf
    rfl

theorem of_deed (h : Deed s s') : Aside s s' := by
  cases h with
  | around hbroker htimer hmanual hlog hagenda hline =>
    exact of_eq (by rw [hbroker]; exact .refl _) htimer hmanual hlog hagenda hline
  | share hpos => exact of_eq (.of_makes (.share hpos) rfl) rfl rfl rfl rfl rfl
  | drop => exact of_eq (.of_makes (.drop _) rfl) rfl rfl rfl rfl rfl
  | addObserver hpos o => exact of_eq (.of_makes (.addObserver hpos o) rfl) rfl rfl rfl rfl rfl
  | removeObserver hpos o =>
    exact of_eq (.of_makes (.removeObserver hpos o) rfl) rfl rfl rfl rfl rfl
  | call hpos ticket c hquiet =>
    exact of_eq (.of_makes (.call hpos ticket c) rfl) rfl rfl rfl rfl rfl
  | report hpos ticket c notice observers hcall =>
    have hcalled : Aside s { s with broker := (s.broker.call ticket c).1 } :=
      of_eq (.of_makes (.call hpos ticket c) rfl) rfl rfl rfl rfl rfl
    exact hcalled.trans (announce _ notice observers)
  | work => exact spawn s rfl (by simp [Job.frames])
  | leave => exact spawn s rfl (by simp [Job.frames, Frame.countdown?])
  | putOff duration step scene => exact spawn s rfl (by simp [Job.frames, Frame.countdown?])
  | perform steps scene => exact perform s steps scene
  | note e => exact note s rfl

/-- Deeds come from outside. -/
theorem of_deeds (h : Deeds s s') : Aside s s' := by
  induction h with
  | refl => exact refl s
  | tail _ h ih => exact ih.trans (of_deed h)

/-- Frames change their places, and calls to providers keep theirs. -/
theorem rearrange {agenda : List Frame} {line : Timeline Job}
    (hp : ({ s with agenda, line } : Scenario).frames.Perm s.frames)
    (htoPull : ({ s with agenda, line } : Scenario).toPull = s.toPull)
    (hstill : s.Still → ({ s with agenda, line } : Scenario).Still) :
    Aside s { s with agenda, line } where
  broker := .refl _
  timer := rfl
  manual := rfl
  countdowns _ := (hp.filterMap _).mem_iff
  pulled := rfl
  toPull := htoPull
  still := hstill

/-! ### Frames -/

variable {due : Opening → Nat → Prop} {now n : Nat}

/-- Most frames are done without any poll. -/
theorem runFrame (h : Sound due now n s) (hmanual : s.manual = {}) {frame : Frame}
    (hpulls : frame.pulls = []) (hquiet : ∀ m, frame.countdown? m = none) :
    Aside s (s.runFrame frame) := by
  cases frame with
  | pull target token => simp [Frame.pulls] at hpulls
  | elapse id token generation => simp [Frame.countdown?] at hquiet
  | perform step scene => exact of_deeds (.performFrame h hmanual step scene)
  | resume step scene => exact of_deeds (.resumeFrame h hmanual step scene)
  | deliver requester token outcome => exact of_deeds (.deliverFrame s requester token outcome)
  | tell observer notice =>
    have hcalled := Deeds.callBack s s.observers observer { identity := notice.identity }
    refine (of_deeds (hcalled.tail ?_)).trans (note _ rfl)
    exact .around rfl rfl rfl rfl rfl rfl
  | letGo => exact of_deeds (.letGo s)

end Aside

end Scenario

end ContextBroker
