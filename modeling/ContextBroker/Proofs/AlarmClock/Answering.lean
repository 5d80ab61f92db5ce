import ContextBroker.Proofs.AlarmClock

set_option autoImplicit false

/-! # What a clock answers for

A clock has a line in its log for whatever it is asked, be it from outside or by a callback, and no
others but those of the timeouts that fire. What it does on its own is one ring after the other
(`RingsOn`): a timeout fires at the moment for which it was set, and the answers to what its
callback asks for follow at once. -/

namespace ContextBroker

namespace AlarmClock

/-- What a clock is asked for. -/
inductive Ask
  | set (duration : Nat) (callback : Callback)
  | cancel (id : TimerId)

end AlarmClock

/-- What a callback asks for, in order. -/
def Callback.asks : Callback → List AlarmClock.Ask
  | nothing => []
  | cancel id => [.cancel id]
  | set duration callback => [.set duration callback]
  | andThen first next => first.asks ++ next.asks

namespace AlarmClock

/-- What the event is the answer to. -/
def Event.ask? : Event → Option Ask
  | set _ duration callback => some (.set duration callback)
  | cancelled id => some (.cancel id)
  | fired _ => none

/-- The lines answer for what was asked at `moment`, one line for one thing. -/
def Answers (moment : Nat) (asks : List Ask) (lines : List Entry) : Prop :=
  lines.map (·.event.ask?) = asks.map some ∧ ∀ e ∈ lines, e.moment = moment

/-- The lines of a timeout that was set in `log`: it fires when its time is over, and then come the
    answers to what its callback asks for. -/
def Rings (log lines : List Entry) : Prop :=
  ∃ id callback e answers, lines = e :: answers ∧ e.event = .fired id ∧
    SetFor log ⟨e.moment, id, callback⟩ ∧ Answers e.moment callback.asks answers

/-- From `c` it goes on to `c'`, one ring after the other. -/
def RingsOn (c c' : AlarmClock) : Prop :=
  ∃ rings : List (List Entry), c'.log = c.log ++ rings.flatten ∧ ∀ lines ∈ rings, Rings c'.log lines

variable {c c' c'' : AlarmClock} {id : TimerId} {callback : Callback}

/-! ## What is asked -/

theorem Answers.append {moment : Nat} {asks asks' : List Ask} {lines lines' : List Entry}
    (h : Answers moment asks lines) (h' : Answers moment asks' lines') :
    Answers moment (asks ++ asks') (lines ++ lines') := by
  refine ⟨by rw [List.map_append, List.map_append, h.1, h'.1], fun e he => ?_⟩
  exact (List.mem_append.1 he).elim (h.2 e) (h'.2 e)

theorem now_run (c : AlarmClock) (callback : Callback) :
    (c.run callback).line.now = c.line.now := by
  induction callback generalizing c with
  | nothing => rfl
  | cancel id => rfl
  | set duration callback _ => rfl
  | andThen first next ih ih' => rw [AlarmClock.run, ih', ih]

/-- Whatever a callback asks for, it gets. -/
theorem answers_run (c : AlarmClock) (callback : Callback) : ∃ lines,
    (c.run callback).log = c.log ++ lines ∧ Answers c.line.now callback.asks lines := by
  induction callback generalizing c with
  | nothing => exact ⟨[], (List.append_nil _).symm, rfl, by simp⟩
  | cancel id => exact ⟨_, rfl, rfl, by simp⟩
  | set duration callback _ => exact ⟨_, rfl, rfl, by simp [Timeline.spawn]⟩
  | andThen first next ih ih' =>
    obtain ⟨lines, hlog, hfirst⟩ := ih c
    obtain ⟨lines', hlog', hnext⟩ := ih' (c.run first)
    rw [now_run] at hnext
    refine ⟨lines ++ lines', ?_, hfirst.append hnext⟩
    rw [AlarmClock.run, hlog', hlog, List.append_assoc]

/-! ## What rings -/

theorem Rings.append {log lines : List Entry} (h : Rings log lines) (more : List Entry) :
    Rings (log ++ more) lines := by
  obtain ⟨id, callback, e, answers, hlines, hfired, hset, hanswers⟩ := h
  exact ⟨id, callback, e, answers, hlines, hfired, hset.append more, hanswers⟩

theorem RingsOn.of_log_eq (h : c'.log = c.log) : RingsOn c c' :=
  ⟨[], by simp [h], by simp⟩

theorem RingsOn.trans (h : RingsOn c c') (h' : RingsOn c' c'') : RingsOn c c'' := by
  obtain ⟨rings, hlog, hrings⟩ := h
  obtain ⟨rings', hlog', hrings'⟩ := h'
  refine ⟨rings ++ rings', by simp [hlog', hlog], fun lines hlines => ?_⟩
  rcases List.mem_append.1 hlines with hlines | hlines
  · rw [hlog']
    exact (hrings lines hlines).append _
  · exact hrings' lines hlines

namespace Sound

/-- A timeout that rings fires, and does what it was set to do, or else leaves no line. -/
theorem ringsOn_ring (h : Sound [⟨c.line.now, id, callback⟩] c) :
    RingsOn c (c.ring id callback) := by
  unfold AlarmClock.ring
  split
  · rename_i timer _
    obtain ⟨answers, hlog, hanswers⟩ :=
      answers_run ({ c with timer, fired := id :: c.fired }.note (.fired id)) callback
    refine ⟨[⟨c.line.now, .fired id, timer⟩ :: answers], ?_, fun lines hlines => ?_⟩
    · rw [hlog]
      simp [AlarmClock.note]
    · obtain rfl := List.mem_singleton.1 hlines
      have hset : SetFor c.log ⟨c.line.now, id, callback⟩ := h.timed _ List.mem_cons_self
      refine ⟨id, callback, _, answers, rfl, rfl, ?_, hanswers⟩
      rw [hlog]
      exact (hset.append _).append _
  · exact .of_log_eq rfl

theorem ringsOn_runAlarm {a : Alarm} (h : Sound [a.countdown c.line.now] c) :
    RingsOn c (c.runAlarm a) := by
  cases a with
  | ring id callback => exact h.ringsOn_ring
  | start id duration callback =>
    by_cases hd : duration = 0
    · subst hd
      exact ringsOn_ring (by simpa [Alarm.countdown, Timeline.wakingTime] using h)
    · simp only [AlarmClock.runAlarm, hd, if_false]
      exact .of_log_eq rfl

theorem ringsOn_turn (h : Sound [] c) (ht : c.turn? = some c') : RingsOn c c' := by
  unfold AlarmClock.turn? at ht
  split at ht
  · cases ht
  · rename_i a rest hready
    obtain rfl := Option.some.inj ht
    exact ringsOn_runAlarm (h.take hready)

end Sound

end AlarmClock

end ContextBroker
