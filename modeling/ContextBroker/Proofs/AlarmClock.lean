import ContextBroker.Proofs.Log
import ContextBroker.Proofs.Timeline
import ContextBroker.Timer.AlarmClock
import Mathlib.Data.List.Nodup
import Mathlib.Data.Set.Card

set_option autoImplicit false

/-! # What an alarm clock keeps in step

The log of an alarm clock tells which timeouts are `Outstanding`: those that were set, and have
neither fired nor been cancelled since. `Sound` says how the clock keeps to its log. What is armed
is what is outstanding, now and after every line of the log; whatever is armed is counted down; and
a countdown is over at the moment for which its timeout was set. A timeout is taken from the line
before it rings, so in between its countdown is held beside the clock. -/

namespace ContextBroker

namespace AlarmClock

/-! ## What the log tells -/

/-- The timeout that was set. -/
def Event.set? : Event → Option TimerId
  | set id _ _ => some id
  | _ => none

/-- The timeout whose callback was run. -/
def Event.fired? : Event → Option TimerId
  | fired id => some id
  | _ => none

theorem Event.fired?_eq_some {event : Event} {id : TimerId} :
    event.fired? = some id ↔ event = .fired id := by
  cases event <;> simp [fired?]

/-- The line is about setting the timeout `id`. -/
def Entry.Sets (id : TimerId) (e : Entry) : Prop :=
  ∃ duration callback, e.event = .set id duration callback

/-- The line is about the end of the timeout `id`. -/
def Entry.Ends (id : TimerId) (e : Entry) : Prop := e.event = .cancelled id ∨ e.event = .fired id

/-- The timeout `id` was set, and has neither fired nor been cancelled since. -/
def Outstanding (log : List Entry) (id : TimerId) : Prop :=
  Standing (Entry.Sets id) (Entry.Ends id) log

theorem outstanding_concat {log : List Entry} {e : Entry} {id : TimerId} :
    Outstanding (log ++ [e]) id ↔ (∃ duration callback, e.event = .set id duration callback) ∨
      (Outstanding log id ∧ ¬ (e.event = .cancelled id ∨ e.event = .fired id)) := standing_concat

/-! ## Countdowns -/

/-- A timeout with the moment at which its time is over and with what it does then. -/
structure Countdown where
  moment : Nat
  id : TimerId
  callback : Callback

/-- The timeout was set, with this callback and so that its time is over at this moment. -/
def SetFor (log : List Entry) (k : Countdown) : Prop :=
  ∃ e ∈ log, ∃ duration, e.event = .set k.id duration k.callback ∧
    k.moment = Timeline.wakingTime e.moment duration

theorem SetFor.append {log : List Entry} {k : Countdown} (h : SetFor log k) (more : List Entry) :
    SetFor (log ++ more) k := by
  obtain ⟨e, he, duration, hset⟩ := h
  exact ⟨e, List.mem_append_left _ he, duration, hset⟩

end AlarmClock

/-- The countdown of a piece of work that is done at `now`. -/
def Alarm.countdown (now : Nat) : Alarm → AlarmClock.Countdown
  | start id duration callback => ⟨Timeline.wakingTime now duration, id, callback⟩
  | ring id callback => ⟨now, id, callback⟩

namespace AlarmClock

/-- The countdowns that still run. -/
def countdowns (c : AlarmClock) : List Countdown :=
  c.line.ready.map (Alarm.countdown c.line.now) ++ c.line.asleep.map fun p => p.2.countdown p.1

/-- A clock that keeps to its log. The countdowns in `held` run beside those of the clock. -/
structure Sound (held : List Countdown) (c : AlarmClock) : Prop where
  ahead : c.line.Ahead
  /-- Timeouts are numbered in the order in which they are set. -/
  numbered : c.log.filterMap (·.event.set?) = List.range' 1 c.last
  acted : c.log.filterMap (·.event.fired?) = c.fired.reverse
  armed (id : TimerId) : id ∈ c.timer.armed ↔ Outstanding c.log id
  timed (k : Countdown) : k ∈ held ++ c.countdowns → SetFor c.log k
  counted (id : TimerId) : id ∈ c.timer.armed → ∃ k ∈ held ++ c.countdowns, k.id = id
  /-- After every line of the log what was armed is what was outstanding. -/
  kept (before : List Entry) (e : Entry) (after : List Entry) : c.log = before ++ e :: after →
    ∀ id, id ∈ e.timer.armed ↔ Outstanding (before ++ [e]) id
  /-- What fired was outstanding, and its time was just over. -/
  fired (before : List Entry) (e : Entry) (after : List Entry) (id : TimerId) :
    c.log = before ++ e :: after → e.event = .fired id →
      Outstanding before id ∧ ∃ callback, SetFor before ⟨e.moment, id, callback⟩

namespace Sound

variable {held held' : List Countdown} {c c' : AlarmClock} {id : TimerId}

theorem start : Sound [] ({} : AlarmClock) where
  ahead := ⟨.nil, by simp⟩
  numbered := rfl
  acted := rfl
  armed id := iff_of_false (SortedSet.not_mem_empty id) not_standing_nil
  timed k hk := by simp [countdowns] at hk
  counted id hid := absurd hid (SortedSet.not_mem_empty id)
  kept before e after hlog := by simp at hlog
  fired before e after id hlog := by simp at hlog

/-- Countdowns may be counted elsewhere. -/
theorem move (h : Sound held c) (hahead : c'.line.Ahead) (hlog : c'.log = c.log)
    (hlast : c'.last = c.last) (hfired : c'.fired = c.fired) (htimer : c'.timer = c.timer)
    (hcount : ∀ k, k ∈ held' ++ c'.countdowns ↔ k ∈ held ++ c.countdowns) : Sound held' c' where
  ahead := hahead
  numbered := by rw [hlog, hlast, h.numbered]
  acted := by rw [hlog, hfired, h.acted]
  armed id := by rw [htimer, hlog, h.armed]
  timed k hk := by
    rw [hlog]
    exact h.timed k ((hcount k).1 hk)
  counted id hid := by
    obtain ⟨k, hk, hkid⟩ := h.counted id (htimer ▸ hid)
    exact ⟨k, (hcount k).2 hk, hkid⟩
  kept before e after hb := h.kept before e after (hlog ▸ hb)
  fired before e after id hb := h.fired before e after id (hlog ▸ hb)

/-- One line more in the log. -/
theorem note (h : Sound held c) (event : Event) (hahead : c'.line.Ahead) (hlog : c'.log = c.log)
    (hnumbered : List.range' 1 c.last ++ event.set?.toList = List.range' 1 c'.last)
    (hacted : c'.fired = event.fired?.toList ++ c.fired)
    (harmed : ∀ id, id ∈ c'.timer.armed ↔ (∃ duration callback, event = .set id duration callback) ∨
      (id ∈ c.timer.armed ∧ ¬ (event = .cancelled id ∨ event = .fired id)))
    (htimed : ∀ k ∈ held' ++ c'.countdowns, k ∈ held ++ c.countdowns ∨
      ∃ duration, event = .set k.id duration k.callback ∧
        k.moment = Timeline.wakingTime c'.line.now duration)
    (hcounted : ∀ id ∈ c'.timer.armed, ∃ k ∈ held' ++ c'.countdowns, k.id = id)
    (hfired : ∀ id, event = .fired id →
      id ∈ c.timer.armed ∧ ∃ callback, SetFor c.log ⟨c'.line.now, id, callback⟩) :
    Sound held' (c'.note event) where
  ahead := hahead
  numbered := by
    show (c'.log ++ _).filterMap _ = List.range' 1 c'.last
    rw [← hnumbered, ← h.numbered, hlog, List.filterMap_append]
    cases event <;> rfl
  acted := by
    show (c'.log ++ _).filterMap _ = c'.fired.reverse
    rw [hacted, hlog, List.filterMap_append, h.acted, List.reverse_append]
    cases event <;> rfl
  armed id := by
    show id ∈ c'.timer.armed ↔ Outstanding (c'.log ++ _) id
    rw [harmed, h.armed, hlog]
    exact (outstanding_concat (e := ⟨c'.line.now, event, c'.timer⟩)).symm
  timed k hk := by
    show SetFor (c'.log ++ _) k
    rw [hlog]
    rcases htimed k hk with hk | ⟨duration, he, hm⟩
    · exact (h.timed k hk).append _
    · exact ⟨_, List.mem_append_right _ List.mem_cons_self, duration, he, hm⟩
  counted := hcounted
  kept before e after hb id := by
    have hb : c.log ++ [⟨c'.line.now, event, c'.timer⟩] = before ++ e :: after := hlog ▸ hb
    rcases append_cons_eq_concat hb.symm with ⟨rfl, rfl, rfl⟩ | ⟨after, -, hlog⟩
    · rw [harmed, h.armed]
      exact (outstanding_concat (e := ⟨c'.line.now, event, c'.timer⟩)).symm
    · exact h.kept before e after hlog id
  fired before e after id hb he := by
    have hb : c.log ++ [⟨c'.line.now, event, c'.timer⟩] = before ++ e :: after := hlog ▸ hb
    rcases append_cons_eq_concat hb.symm with ⟨rfl, rfl, rfl⟩ | ⟨after, -, hlog⟩
    · exact ⟨(h.armed id).1 (hfired id he).1, (hfired id he).2⟩
    · exact h.fired before e after id hlog he

/-! ## What is asked of the clock -/

theorem set (h : Sound held c) (duration : Nat) (callback : Callback) :
    Sound held (c.set duration callback).1 := by
  have hmem : ∀ k, k ∈ held ++ (c.set duration callback).1.countdowns ↔ k ∈ held ++ c.countdowns ∨
      k = ⟨Timeline.wakingTime c.line.now duration, c.last + 1, callback⟩ := by
    intro k
    simp only [AlarmClock.set, AlarmClock.note, countdowns, Timeline.spawn, List.map_append,
      List.map_cons, List.map_nil, List.mem_append, List.mem_singleton, Alarm.countdown]
    tauto
  refine h.note (.set (c.last + 1) duration callback) ⟨h.ahead.sorted, h.ahead.later⟩ rfl ?_ rfl
    ?_ ?_ ?_ ?_
  · show List.range' 1 c.last ++ [c.last + 1] = List.range' 1 (c.last + 1)
    rw [List.range'_concat, Nat.one_mul, Nat.add_comm 1]
  · intro id
    simp [Timer.mem_arm, eq_comm]
  · intro k hk
    refine ((hmem k).1 hk).imp_right ?_
    rintro rfl
    exact ⟨duration, rfl, rfl⟩
  · intro id hid
    rcases Timer.mem_arm.1 hid with rfl | hid
    · exact ⟨_, (hmem _).2 (.inr rfl), rfl⟩
    · obtain ⟨k, hk, hkid⟩ := h.counted id hid
      exact ⟨k, (hmem k).2 (.inl hk), hkid⟩
  · intro id he
    cases he

theorem cancel (h : Sound held c) (id : TimerId) : Sound held (c.cancel id) := by
  refine h.note (.cancelled id) h.ahead rfl (List.append_nil _) rfl ?_ (fun k hk => .inl hk) ?_ ?_
  · intro id'
    simp [Timer.mem_cancel, and_comm, eq_comm]
  · intro id' hid
    exact h.counted id' (Timer.mem_cancel.1 hid).2
  · intro id' he
    cases he

/-- Whatever a callback does is asked of the clock. -/
theorem run (h : Sound held c) (callback : Callback) : Sound held (c.run callback) := by
  induction callback generalizing c with
  | nothing => exact h
  | cancel id => exact h.cancel id
  | set duration callback _ => exact h.set duration callback
  | andThen first next ih ih' => exact ih' (ih h)

/-! ## Turns -/

/-- A timeout whose time is over fires if it is armed; its countdown is done with either way. -/
theorem ring {callback : Callback} (h : Sound [⟨c.line.now, id, callback⟩] c) :
    Sound [] (c.ring id callback) := by
  unfold AlarmClock.ring Timer.elapse?
  by_cases harmed : c.timer.isArmed id = true
  · simp only [harmed, if_true]
    refine Sound.run ?_ callback
    refine h.note (.fired id) h.ahead rfl (List.append_nil _) rfl ?_ ?_ ?_ ?_
    · intro id'
      simp [Timer.mem_cancel, and_comm, eq_comm]
    · intro k hk
      exact .inl (List.mem_append_right _ hk)
    · intro id' hid
      obtain ⟨hne, hid⟩ := Timer.mem_cancel.1 hid
      obtain ⟨k, hk, rfl⟩ := h.counted id' hid
      refine ⟨k, (List.mem_append.1 hk).resolve_left fun hk => hne ?_, rfl⟩
      rw [List.mem_singleton.1 hk]
    · intro id' he
      obtain rfl := Event.fired.inj he
      exact ⟨SortedSet.contains_iff_mem.1 harmed, callback, h.timed _ List.mem_cons_self⟩
  · simp only [harmed]
    have hnot : ¬ id ∈ c.timer.armed := harmed
    refine ⟨h.ahead, h.numbered, h.acted, h.armed,
      fun k hk => h.timed k (List.mem_cons_of_mem _ hk), ?_, h.kept, h.fired⟩
    intro id' hid
    obtain ⟨k, hk, rfl⟩ := h.counted id' hid
    refine ⟨k, (List.mem_cons.1 hk).resolve_left fun hk => hnot ?_, rfl⟩
    rwa [hk] at hid

theorem runAlarm {a : Alarm} (h : Sound [a.countdown c.line.now] c) : Sound [] (c.runAlarm a) := by
  cases a with
  | ring id callback => exact h.ring
  | start id duration callback =>
    by_cases hd : duration = 0
    · subst hd
      exact Sound.ring (by simpa [Alarm.countdown, Timeline.wakingTime] using h)
    · simp only [AlarmClock.runAlarm, hd, if_false]
      refine h.move (h.ahead.sleep hd _) rfl rfl rfl rfl fun k => ?_
      have hperm := (Timeline.insertSleeper_perm (Timeline.wakingTime c.line.now duration)
        (.ring id callback) c.line.asleep).map fun q => q.2.countdown q.1
      simp only [countdowns, Timeline.sleep, List.nil_append, List.mem_append, hperm.mem_iff,
        List.map_cons, List.mem_cons, List.not_mem_nil, or_false]
      exact or_left_comm

/-- The countdown of what gets its turn is held beside the clock. -/
theorem take (h : Sound [] c) {a : Alarm} {rest : List Alarm} (hready : c.line.ready = a :: rest) :
    Sound [a.countdown c.line.now] { c with line.ready := rest } :=
  h.move ⟨h.ahead.sorted, h.ahead.later⟩ rfl rfl rfl rfl fun k => by simp [countdowns, hready]

theorem turn (h : Sound [] c) (ht : c.turn? = some c') : Sound [] c' := by
  unfold AlarmClock.turn? at ht
  split at ht
  · cases ht
  · rename_i a rest hready
    obtain rfl := Option.some.inj ht
    exact Sound.runAlarm (h.take hready)

end Sound

end AlarmClock

end ContextBroker
