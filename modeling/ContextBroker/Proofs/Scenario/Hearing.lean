import ContextBroker.Proofs.History.Announcing
import ContextBroker.Proofs.Scenario.Simulation

set_option autoImplicit false

/-! # Who is to be told stands on the agenda

In a scenario, a report is posted, and then those who are to be told stand on the agenda before
anything else. For each frame on the agenda it is known to which announcement it belongs
(`Scenario.Marked`): those who were not told yet of an announcement are those whose frames belong to
it, in order (`Scenario.Hears`).

What parties do is done amid whatever announcement it may be (`Scenario.Hears.deeds`): what is posted
by it is marked with that, and so are the scripts that it brings on the agenda. -/

namespace ContextBroker

namespace Announcing

variable {a a' : Announcing} {amid : Option Nat} {m : History.Move}

/-- What observers were told, in order. -/
def tellings (a : Announcing) : List (Observer × Notice) :=
  a.told.filterMap fun x => a.announcements[x.announcement]?.map fun b => (x.observer, b.notice)

/-- What observers were told does not change when more is announced. -/
theorem tellings_append (hbounded : ∀ x ∈ a.told, x.announcement < a.announcements.length)
    {more : List Announcement} (hannouncements : a'.announcements = a.announcements ++ more)
    (htold : a'.told = a.told) : a'.tellings = a.tellings := by
  rw [tellings, tellings, htold, hannouncements]
  refine List.filterMap_congr fun x hx => ?_
  rw [List.getElem?_append_left (hbounded x hx)]

theorem run_append (a : Announcing) (moves more : List Move) :
    a.run (moves ++ more) = (a.run moves).run more := List.foldl_append

theorem run_go (hamid : amid.all a.hasTold = true) : a.run [.go amid m] = a.go amid m := by
  simp only [run, List.foldl_cons, List.foldl_nil, apply, hamid, if_true]

/-- What is done amid an announcement tells nobody. -/
theorem told_run_go (a : Announcing) (amid : Option Nat) (moves : List History.Move) :
    (a.run (moves.map (.go amid))).told = a.told := by
  induction moves generalizing a with
  | nil => rfl
  | cons m moves ih =>
    refine (ih (a.apply (.go amid m))).trans ?_
    simp only [apply]
    split <;> rfl

theorem announcements_go (h : (a.history.apply m).announced = a.history.announced) :
    (a.go amid m).announcements = a.announcements := by
  simp [go, h]

end Announcing

namespace Scenario

/-! ## Who is to be told -/

/-- Who is told, and of what. -/
def Frame.telling? : Frame → Option (Observer × Notice)
  | .tell observer notice => some (observer, notice)
  | _ => none

/-- Who was told, and of what. -/
def Event.telling? : Event → Option (Observer × Notice)
  | .told observer notice => some (observer, notice)
  | _ => none

/-- What observers were told, in order. -/
def tellings (s : Scenario) : List (Observer × Notice) := s.log.filterMap (·.telling?)

/-- Nobody is told when the job is done. -/
def Job.Hushed (job : Job) : Prop := ∀ p ∈ job.frames 0, p.2.telling? = none

/-- Who is to be told stands on the agenda, and not in line. -/
structure Hushed (s : Scenario) : Prop where
  ready (job : Job) : job ∈ s.line.ready → job.Hushed
  asleep (p : Nat × Job) : p ∈ s.line.asleep → p.2.Hushed

theorem Hushed.spawn {s : Scenario} (h : s.Hushed) {job : Job} (hjob : job.Hushed) :
    (s.spawn job).Hushed := by
  refine ⟨fun job' hmem => ?_, h.asleep⟩
  rcases List.mem_append.1 hmem with hmem | hmem
  · exact h.ready job' hmem
  · rw [List.mem_singleton.1 hmem]
    exact hjob

/-- The line goes on. -/
theorem Hushed.shorten {s : Scenario} (h : s.Hushed) {job : Job} {ready : List Job}
    (hready : s.line.ready = job :: ready) (agenda : List Frame) :
    { s with line.ready := ready, agenda }.Hushed := by
  refine ⟨fun job' hmem => h.ready job' ?_, h.asleep⟩
  rw [hready]
  exact List.mem_cons_of_mem _ hmem

theorem Job.Hushed.act {frames : List Frame} (h : (Job.act frames).Hushed) :
    ∀ f ∈ frames, f.telling? = none :=
  fun f hf => h (0, f) (List.mem_map_of_mem hf)

theorem Job.Hushed.wait {duration : Nat} {frame : Frame} (h : (Job.wait duration frame).Hushed) :
    frame.telling? = none :=
  h _ List.mem_cons_self

/-- A frame, and the announcement to which it belongs: the one that an observer is to be told of, or
    the one amid which the frame is done. -/
structure Marked where
  frame : Frame
  amid : Option Nat

namespace Marked

/-- Who is to be told of the `n`-th announcement. -/
def tells? (n : Nat) (f : Marked) : Option (Observer × Notice) :=
  if f.amid = some n then f.frame.telling? else none

/-- Frames that tell observers of the `n`-th announcement. -/
def tellAll (n : Nat) (notice : Notice) (observers : List Observer) : List Marked :=
  observers.map fun o => ⟨.tell o notice, some n⟩

variable {n k : Nat} {notice : Notice} {observers : List Observer} {f : Marked}

theorem mem_tellAll (hf : f ∈ tellAll n notice observers) :
    f.amid = some n ∧ f.frame.telling? ≠ none := by
  obtain ⟨o, -, rfl⟩ := List.mem_map.1 hf
  exact ⟨rfl, by simp [Frame.telling?]⟩

theorem tells?_tellAll : (tellAll n notice observers).filterMap (tells? n) =
    observers.map (·, notice) := by
  rw [tellAll, List.filterMap_map, ← List.filterMap_eq_map]
  exact List.filterMap_congr fun o _ => if_pos rfl

theorem tells?_tellAll_of_ne (h : n ≠ k) :
    (tellAll n notice observers).filterMap (tells? k) = [] := by
  rw [List.filterMap_eq_nil_iff]
  intro f hf
  simp [tells?, (mem_tellAll hf).1, h]

end Marked

/-- The announcements `a` have come to where the scenario `s` is, with the frames `todo` on its
    agenda. -/
structure Hears (a : Announcing) (todo : List Marked) (s : Scenario) : Prop where
  mirrors : Mirrors a.history s
  manual : s.manual = {}
  tellings : a.tellings = s.tellings
  agenda : s.agenda = todo.map (·.frame)
  /-- Those who were not told yet of an announcement stand on the agenda. -/
  toTell (n : Nat) (b : Announcement) : a.announcements[n]? = some b →
    todo.filterMap (·.tells? n) = (b.observers.drop (a.heard n).length).map (·, b.notice)
  /-- Who is to be told is to be told of an announcement. -/
  announced (f : Marked) : f ∈ todo → f.frame.telling? ≠ none →
    ∃ n < a.announcements.length, f.amid = some n
  /-- What is done amid an announcement is done when somebody was told of it. -/
  amid (f : Marked) : f ∈ todo → f.frame.telling? = none → f.amid.all a.hasTold = true
  told (x : Telling) : x ∈ a.told → x.announcement < a.announcements.length
  hushed : s.Hushed

/-- What is done amid `amid` leads from `a`, with the frames `todo` on the agenda, to `s'`. Frames
    that come on the agenda meanwhile are done amid `amid` too. -/
def Amid (amid : Option Nat) (a : Announcing) (todo : List Marked) (s' : Scenario) : Prop :=
  ∃ (moves : List History.Move) (more : List Marked),
    Hears (a.run (moves.map (.go amid))) (more ++ todo) s' ∧
      ∀ f ∈ more, f.frame.telling? = none → f.amid = amid

/-- What is done amid one announcement is done one after the other. -/
theorem Amid.bind {amid : Option Nat} {a : Announcing} {todo : List Marked} {s s' : Scenario}
    (h : Amid amid a todo s) (hamid : amid.all a.hasTold = true)
    (hnext : ∀ {a' : Announcing} {todo' : List Marked}, Hears a' todo' s →
      amid.all a'.hasTold = true → Amid amid a' todo' s') : Amid amid a todo s' := by
  obtain ⟨moves, more, h, hmore⟩ := h
  have hasTold : (a.run (moves.map (.go amid))).hasTold = a.hasTold := by
    funext n
    rw [Announcing.hasTold, Announcing.told_run_go, Announcing.hasTold]
  obtain ⟨moves', more', h', hmore'⟩ := hnext h (by rw [hasTold]; exact hamid)
  refine ⟨moves ++ moves', more' ++ more, ?_, ?_⟩
  · rw [List.map_append, Announcing.run_append, List.append_assoc]
    exact h'
  · intro f hf
    exact (List.mem_append.1 hf).elim (hmore' f) (hmore f)

theorem Amid.exists_hears {amid : Option Nat} {a : Announcing} {todo : List Marked} {s : Scenario}
    (h : Amid amid a todo s) : ∃ moves todo', Hears (a.run moves) todo' s := by
  obtain ⟨moves, more, h, -⟩ := h
  exact ⟨_, _, h⟩

namespace Hears

variable {a a' : Announcing} {amid : Option Nat} {todo : List Marked} {s s' : Scenario}

/-! ## What parties do -/

/-- Nobody is told, nobody is to be told, and nothing is announced. -/
theorem keep (h : Hears a todo s) (hm : Mirrors a'.history s')
    (hannouncements : a'.announcements = a.announcements) (htold : a'.told = a.told)
    (hmanual : s'.manual = s.manual) (htellings : s'.tellings = s.tellings) (more : List Marked)
    (hagenda : s'.agenda = more.map (·.frame) ++ s.agenda)
    (hmore : ∀ f ∈ more, f.frame.telling? = none ∧ f.amid.all a.hasTold = true)
    (hhushed : s'.Hushed) : Hears a' (more ++ todo) s' where
  mirrors := hm
  manual := hmanual.trans h.manual
  tellings := by
    rw [htellings, ← h.tellings, Announcing.tellings, Announcing.tellings, hannouncements, htold]
  agenda := by rw [hagenda, h.agenda, List.map_append]
  toTell n b hn := by
    rw [hannouncements] at hn
    have hnone : more.filterMap (·.tells? n) = [] := by
      rw [List.filterMap_eq_nil_iff]
      intro f hf
      simp [Marked.tells?, (hmore f hf).1]
    rw [List.filterMap_append, hnone, Announcing.heard, htold]
    exact h.toTell n b hn
  announced f hf htell := by
    rw [hannouncements]
    rcases List.mem_append.1 hf with hf | hf
    · exact absurd (hmore f hf).1 htell
    · exact h.announced f hf htell
  amid f hf hnone := by
    have hasTold : a'.hasTold = a.hasTold := by
      funext n
      rw [Announcing.hasTold, htold, Announcing.hasTold]
    rw [hasTold]
    rcases List.mem_append.1 hf with hf | hf
    · exact (hmore f hf).2
    · exact h.amid f hf hnone
  told := by rw [htold, hannouncements]; exact h.told
  hushed := hhushed

/-- Nothing is done with the broker. -/
theorem stay (h : Hears a todo s) (hamid : amid.all a.hasTold = true)
    (hbroker : s'.broker = s.broker) (htimer : s'.timer = s.timer)
    (hmanual : s'.manual = s.manual) (htellings : s'.tellings = s.tellings) (more : List Marked)
    (hagenda : s'.agenda = more.map (·.frame) ++ s.agenda)
    (hmore : ∀ f ∈ more, f.frame.telling? = none ∧ f.amid = amid)
    (hcountdowns : ∀ c, c ∈ s'.countdowns → c ∈ s.countdowns) (hhushed : s'.Hushed) :
    Amid amid a todo s' := by
  have hm : Mirrors a.history s' :=
    h.mirrors.keep (h.mirrors.broker.trans hbroker.symm) h.mirrors.underway rfl htimer hcountdowns
  refine ⟨[], more, h.keep hm rfl rfl hmanual htellings more hagenda ?_ hhushed,
    fun f hf _ => (hmore f hf).2⟩
  intro f hf
  rw [(hmore f hf).2]
  exact ⟨(hmore f hf).1, hamid⟩

/-- Something is done with the broker that announces nothing. -/
theorem move (h : Hears a todo s) (hamid : amid.all a.hasTold = true) {m : History.Move}
    {events : List History.Event} (hm : Makes m s.broker s'.broker events)
    (hevents : events.filterMap (·.announcement?) = []) (htimer : s'.timer = s.timer)
    (hmanual : s'.manual = s.manual) (hlog : s'.log = s.log) (hagenda : s'.agenda = s.agenda)
    (hline : s'.line = s.line) : Amid amid a todo s' := by
  have happly := hm a.history h.mirrors.broker h.mirrors.underway
  have hannounced : (a.history.apply m).announced = a.history.announced := by
    rw [happly, History.announced, List.filterMap_append, hevents, List.append_nil,
      History.announced]
  have hcountdowns : s'.countdowns = s.countdowns := by
    rw [countdowns, frames, hagenda, hline, countdowns, frames]
  have hmirrors : Mirrors (a.history.apply m) s' := by
    rw [happly]
    exact h.mirrors.keep rfl h.mirrors.underway rfl htimer fun c hc => hcountdowns ▸ hc
  refine ⟨[m], [], ?_, by simp⟩
  rw [List.map_singleton, Announcing.run_go hamid]
  refine h.keep hmirrors (Announcing.announcements_go hannounced) rfl hmanual ?_ [] hagenda
    (by simp) ⟨?_, ?_⟩
  · rw [Scenario.tellings, hlog, Scenario.tellings]
  · rw [hline]
    exact h.hushed.ready
  · rw [hline]
    exact h.hushed.asleep

/-- A job stands in line. -/
theorem spawn (h : Hears a todo s) (hamid : amid.all a.hasTold = true) {job : Job}
    (hquiet : ∀ p ∈ job.frames s.line.now, p.2.countdown? p.1 = none) (hjob : job.Hushed) :
    Amid amid a todo (s.spawn job) :=
  h.stay hamid rfl rfl rfl rfl [] rfl (by simp)
    (fun c => (mem_countdowns_spawn_of_quiet hquiet c).1) (h.hushed.spawn hjob)

/-- Nobody is to be told yet of an announcement that is still to come. -/
theorem toTell_eq_nil (h : Hears a todo s) :
    todo.filterMap (·.tells? a.announcements.length) = [] := by
  rw [List.filterMap_eq_nil_iff]
  intro f hf
  simp only [Marked.tells?]
  split
  · rename_i hamid
    by_contra htell
    obtain ⟨n, hn, hf⟩ := h.announced f hf htell
    exact Nat.ne_of_lt hn (Option.some.inj (hf.symm.trans hamid))
  · rfl

/-- A report is announced. -/
theorem report (h : Hears a todo s) (hamid : amid.all a.hasTold = true)
    (hpos : 0 < s.broker.queue.senders) {ticket : Ticket} {c : Call} {notice : Notice}
    {observers : List Observer} (hcall : (s.broker.call ticket c).2 = .announced notice observers) :
    Amid amid a todo { s with
      broker := (s.broker.call ticket c).1
      agenda := observers.map (.tell · notice) ++ .letGo :: s.agenda } := by
  let toTell : List Marked := Marked.tellAll a.announcements.length notice observers
  have happly := Makes.call hpos ticket c a.history h.mirrors.broker h.mirrors.underway
  have hannouncements : (a.go amid (.call ticket c)).announcements =
      a.announcements ++ [⟨notice, observers, amid, a.posts.length⟩] := by
    simp [Announcing.go, happly, History.announced, hcall, History.Event.announcement?]
  have hlength : a.announcements.length < (a.go amid (.call ticket c)).announcements.length := by
    simp [hannouncements]
  refine ⟨[.call ticket c], toTell ++ [⟨.letGo, amid⟩], ?_, ?_⟩
  · rw [List.map_singleton, Announcing.run_go hamid, List.append_assoc]
    exact
      { mirrors := by
          show Mirrors (a.history.apply (.call ticket c)) _
          rw [happly]
          exact h.mirrors.keep rfl h.mirrors.underway rfl rfl
            fun c => ((Aside.announce s notice observers).countdowns c).1
        manual := h.manual
        tellings := (Announcing.tellings_append h.told hannouncements rfl).trans h.tellings
        agenda := by simp [toTell, Marked.tellAll, h.agenda, Function.comp_def]
        toTell := by
          intro n b hn
          have hletGo : [(⟨.letGo, amid⟩ : Marked)].filterMap (·.tells? n) = [] := by
            simp [Marked.tells?, Frame.telling?]
          rw [hannouncements] at hn
          rw [List.filterMap_append, List.filterMap_append, hletGo, List.nil_append]
          rcases getElem?_concat_eq_some hn with hold | ⟨rfl, rfl⟩
          · have hne := Nat.ne_of_gt (List.getElem?_eq_some_iff.1 hold).1
            rw [Marked.tells?_tellAll_of_ne hne]
            exact h.toTell n b hold
          · have hheard : (a.go amid (.call ticket c)).heard a.announcements.length = [] :=
              Announcing.heard_eq_nil h.told (Nat.le_refl _)
            rw [h.toTell_eq_nil, hheard, List.append_nil]
            exact Marked.tells?_tellAll
        announced := by
          intro f hf htell
          rcases List.mem_append.1 hf with hf | hf
          · exact ⟨_, hlength, (Marked.mem_tellAll hf).1⟩
          · rcases List.mem_cons.1 hf with rfl | hf
            · exact absurd rfl htell
            · obtain ⟨n, hn, hf⟩ := h.announced f hf htell
              exact ⟨n, Nat.lt_trans hn hlength, hf⟩
        amid := by
          intro f hf hnone
          rcases List.mem_append.1 hf with hf | hf
          · exact absurd hnone (Marked.mem_tellAll hf).2
          · rcases List.mem_cons.1 hf with rfl | hf
            · exact hamid
            · exact h.amid f hf hnone
        told := fun x hx => Nat.lt_trans (h.told x hx) hlength
        hushed := ⟨h.hushed.ready, h.hushed.asleep⟩ }
  · intro f hf hnone
    rcases List.mem_append.1 hf with hf | hf
    · exact absurd hnone (Marked.mem_tellAll hf).2
    · rw [List.mem_singleton.1 hf]

/-- A deed is done amid whatever announcement it may be. -/
theorem deed (h : Hears a todo s) (hamid : amid.all a.hasTold = true) (hd : Deed s s') :
    Amid amid a todo s' := by
  cases hd with
  | around hbroker htimer hmanual hlog hagenda hline =>
    refine h.stay hamid hbroker htimer hmanual ?_ [] hagenda (by simp) ?_ ⟨?_, ?_⟩
    · rw [Scenario.tellings, hlog, Scenario.tellings]
    · rw [countdowns, frames, hagenda, hline]
      exact fun _ => id
    · rw [hline]
      exact h.hushed.ready
    · rw [hline]
      exact h.hushed.asleep
  | share hpos => exact h.move hamid (.share hpos) rfl rfl rfl rfl rfl rfl
  | drop => exact h.move hamid (.drop _) rfl rfl rfl rfl rfl rfl
  | addObserver hpos o => exact h.move hamid (.addObserver hpos o) rfl rfl rfl rfl rfl rfl
  | removeObserver hpos o => exact h.move hamid (.removeObserver hpos o) rfl rfl rfl rfl rfl rfl
  | call hpos ticket c hquiet =>
    have hnone : (History.Event.responded c (s.broker.call ticket c).2).announcement? = none := by
      cases hr : (s.broker.call ticket c).2 with
      | announced notice observers => exact absurd hr (hquiet notice observers)
      | _ => rfl
    exact h.move hamid (.call hpos ticket c) (List.filterMap_cons_none hnone) rfl rfl rfl rfl rfl
  | report hpos ticket c notice observers hcall => exact h.report hamid hpos hcall
  | work => exact h.spawn hamid (by simp [Job.frames]) (by simp [Job.Hushed, Job.frames])
  | leave =>
    exact h.spawn hamid (by simp [Job.frames, Frame.countdown?])
      (by simp [Job.Hushed, Job.frames, Frame.telling?])
  | putOff duration step scene =>
    exact h.spawn hamid (by simp [Job.frames, Frame.countdown?])
      (by simp [Job.Hushed, Job.frames, Frame.telling?])
  | perform steps scene =>
    refine h.stay hamid rfl rfl rfl rfl (steps.map fun step => ⟨.perform step scene, amid⟩)
      (by simp) ?_ (fun c => ((Aside.perform s steps scene).countdowns c).1)
      ⟨h.hushed.ready, h.hushed.asleep⟩
    intro f hf
    obtain ⟨step, -, rfl⟩ := List.mem_map.1 hf
    exact ⟨rfl, rfl⟩
  | note e =>
    refine h.stay hamid rfl rfl rfl ?_ [] rfl (by simp) (fun _ => id)
      ⟨h.hushed.ready, h.hushed.asleep⟩
    simp [Scenario.tellings, note, Event.telling?]

/-- Deeds are done one after the other. -/
theorem deeds (h : Hears a todo s) (hamid : amid.all a.hasTold = true) (hd : Deeds s s') :
    Amid amid a todo s' := by
  induction hd with
  | refl => exact ⟨[], [], h, by simp⟩
  | tail _ hd ih => exact ih.bind hamid fun h hamid => h.deed hamid hd

end Hears

end Scenario

end ContextBroker
