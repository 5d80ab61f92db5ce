import ContextBroker.Proofs.AlarmClock.Answering
import Mathlib.Data.List.Permutation

set_option autoImplicit false

/-! # Timeouts fire once, in time

A clock is asked to set and to cancel timeouts and to sleep, in any order and from within callbacks
too. While it sleeps it goes from one deadline to the next and one timeout rings after the other, and
it keeps to its log all the way (`Sound.runTo`). At the end nothing stands in line and whatever sleeps
on sleeps longer, so a timeout whose time is over is not outstanding any more. A number is given out
once, so what has fired or was cancelled is never outstanding again (`not_outstanding`). -/

namespace ContextBroker

namespace AlarmClock

/-- What a clock can be asked for. -/
inductive Move
  | set (duration : Nat) (callback : Callback)
  | cancel (id : TimerId)
  | sleep (duration : Nat)

/-- The clock after it was asked for something. -/
def apply (c : AlarmClock) : Move → AlarmClock
  | .set duration callback => (c.set duration callback).1
  | .cancel id => c.cancel id
  | .sleep duration => Clocked.sleep duration c

/-- The clock after it was asked for one thing after the other. -/
def after (c : AlarmClock) (moves : List Move) : AlarmClock := moves.foldl apply c

variable {c c' : AlarmClock} {log : List Entry} {id : TimerId} {moment : Nat}

/-! ## Sleeping -/

theorem now_ring (c : AlarmClock) (id : TimerId) (callback : Callback) :
    (c.ring id callback).line.now = c.line.now := by
  unfold ring
  split
  · exact now_run _ callback
  · rfl

theorem now_runAlarm (c : AlarmClock) (a : Alarm) : (c.runAlarm a).line.now = c.line.now := by
  cases a with
  | ring id callback => exact c.now_ring id callback
  | start id duration callback =>
    by_cases hd : duration = 0
    · simp only [runAlarm, hd, if_true]
      exact c.now_ring id callback
    · simp only [runAlarm, hd, if_false]
      rfl

theorem now_turn (h : c.turn? = some c') : c'.line.now = c.line.now := by
  unfold turn? at h
  split at h
  · cases h
  · obtain rfl := Option.some.inj h
    exact now_runAlarm _ _

theorem turn?_eq_none : c.turn? = none ↔ c.line.ready = [] := by
  unfold turn?
  split
  · rename_i h
    simp [h]
  · rename_i a rest h
    simp [h]

/-- The clock moves on, no further than to the next deadline. -/
theorem Sound.advance (h : Sound [] c) (hready : c.line.ready = [])
    (hm : ∀ d, c.line.nextDeadline? = some d → moment ≤ d) :
    Sound [] { c with line := c.line.advance moment } := by
  refine h.move (h.ahead.advance moment) rfl rfl rfl rfl fun p => ?_
  -- Those that wake were to wake just then.
  have hwoken : (c.line.asleep.takeWhile fun q => q.1 ≤ moment).map
      (fun q => q.2.countdown moment) =
        (c.line.asleep.takeWhile fun q => q.1 ≤ moment).map fun q => q.2.countdown q.1 :=
    List.map_congr_left fun q hq => by rw [h.ahead.moment_eq hm hq]
  have hall : ({ c with line := c.line.advance moment } : AlarmClock).countdowns =
      c.countdowns := by
    simp only [countdowns, Timeline.advance, hready, List.nil_append, List.map_map,
      List.map_nil]
    rw [← List.takeWhile_append_dropWhile (p := fun q => decide (q.1 ≤ moment))
      (l := c.line.asleep), List.map_append]
    simp only [List.takeWhile_append_dropWhile]
    exact congrArg (· ++ _) hwoken
  rw [hall]

/-- What is done up to a moment keeps to the log, is one ring after the other, and leaves nothing in
    line. -/
theorem Sound.runTo {c : AlarmClock} (h : Sound [] c) (hle : c.line.now ≤ moment) :
    Sound [] (Clocked.runTo moment c) ∧ RingsOn c (Clocked.runTo moment c) ∧
      (Clocked.runTo moment c).line.now = moment ∧ (Clocked.runTo moment c).line.ready = [] := by
  -- To go on to the moment is the last thing that is done.
  have hlast : ∀ {c : AlarmClock}, Sound [] c → c.turn? = none →
      (∀ d, c.line.nextDeadline? = some d → moment < d) →
      Sound [] (Clocked.advance c moment) ∧ RingsOn c (Clocked.advance c moment) ∧
        (Clocked.advance c moment).line.now = moment ∧
        (Clocked.advance c moment).line.ready = [] := by
    intro c h ht hm
    have hready := turn?_eq_none.1 ht
    exact ⟨h.advance hready fun d hd => Nat.le_of_lt (hm d hd), .of_log_eq rfl, rfl,
      (c.line.ready_advance hm).trans hready⟩
  induction c using Clocked.runTo.induct (σ := AlarmClock) moment with
  | case1 c c' ht ih =>
    rw [Clocked.runTo_eq, ht]
    obtain ⟨hsound, hrings, hend⟩ := ih (h.turn ht) (Nat.le_trans (Nat.le_of_eq (now_turn ht)) hle)
    exact ⟨hsound, (h.ringsOn_turn ht).trans hrings, hend⟩
  | case2 c ht hd =>
    rw [Clocked.runTo_eq, ht, hd]
    exact hlast h ht fun d hd' => by cases hd.symm.trans hd'
  | case3 c ht d hd hled ih =>
    rw [Clocked.runTo_eq, ht, hd]
    simp only [hled, if_true]
    have hnext : ∀ d', c.line.nextDeadline? = some d' → d ≤ d' := fun d' hd' =>
      Nat.le_of_eq (Option.some.inj (hd.symm.trans hd'))
    obtain ⟨hsound, hrings, hend⟩ := ih (h.advance (turn?_eq_none.1 ht) hnext) hled
    exact ⟨hsound, RingsOn.trans (.of_log_eq rfl) hrings, hend⟩
  | case4 c ht d hd hlt =>
    rw [Clocked.runTo_eq, ht, hd]
    simp only [hlt, if_false]
    exact hlast h ht fun d' hd' => Nat.lt_of_not_le (Option.some.inj (hd.symm.trans hd') ▸ hlt)

theorem Sound.sleep (h : Sound [] c) (duration : Nat) :
    Sound [] (Clocked.sleep duration c) ∧ RingsOn c (Clocked.sleep duration c) ∧
      (Clocked.sleep duration c).line.now = Timeline.wakingTime c.line.now duration ∧
      (Clocked.sleep duration c).line.ready = [] :=
  h.runTo (Nat.le_add_right _ _)

theorem sound_after (moves : List Move) : Sound [] (({} : AlarmClock).after moves) := by
  induction moves using List.reverseRecOn with
  | nil => exact .start
  | append_singleton moves m ih =>
    rw [after, List.foldl_append]
    cases m with
    | set duration callback => exact ih.set duration callback
    | cancel id => exact ih.cancel id
    | sleep duration => exact (ih.sleep duration).1

/-! ## What follows from keeping to the log -/

/-- What has ended is not outstanding again, for its number is given out once. -/
theorem not_outstanding {before mid : List Entry} {e : Entry}
    (hnodup : ((before ++ e :: mid).filterMap (·.event.set?)).Nodup) (hout : Outstanding before id)
    (he : e.event = .fired id ∨ e.event = .cancelled id) : ¬ Outstanding (before ++ e :: mid) id := by
  intro h
  have hset : ¬ Entry.Sets id e := by
    rintro ⟨duration, callback, hs⟩
    rcases he with he | he <;> cases hs.symm.trans he
  obtain ⟨x, hx, duration, callback, hxs⟩ := exists_begins_of_standing hset he.symm h
  obtain ⟨front, y, back, rfl, ⟨duration', callback', hys⟩, -⟩ := hout
  rw [List.filterMap_append, List.filterMap_cons] at hnodup
  refine (List.nodup_append.1 hnodup).2.2 id ?_ id ?_ rfl
  · exact List.mem_filterMap.2 ⟨y, by simp, by rw [hys]; rfl⟩
  · have hmem : id ∈ mid.filterMap (·.event.set?) :=
      List.mem_filterMap.2 ⟨x, hx, by rw [hxs]; rfl⟩
    split
    · exact hmem
    · exact List.mem_cons_of_mem _ hmem

namespace Sound

variable (h : Sound [] c)
include h

theorem nodup_set : (c.log.filterMap (·.event.set?)).Nodup := by
  rw [h.numbered]
  exact List.nodup_range'

/-- A timeout is set on one line only. -/
theorem set_unique {s s' : Entry} {d d' : Nat} {f f' : Callback} (hs : s ∈ c.log)
    (hs' : s' ∈ c.log) (hset : s.event = .set id d f) (hset' : s'.event = .set id d' f') : s = s' :=
  eq_of_nodup_filterMap h.nodup_set hs hs' (by rw [hset]; rfl) (by rw [hset']; rfl)

/-- Once nothing stands in line, all that is counted down is over later than now. -/
theorem now_lt (hready : c.line.ready = []) {k : Countdown} (hk : k ∈ [] ++ c.countdowns) :
    c.line.now < k.moment := by
  simp only [countdowns, hready, List.map_nil, List.nil_append] at hk
  obtain ⟨q, hq, rfl⟩ := List.mem_map.1 hk
  have hlater := h.ahead.later q hq
  cases ha : q.2 with
  | start id duration callback => exact Nat.lt_of_lt_of_le hlater (Nat.le_add_right ..)
  | ring id callback => exact hlater

/-- What has fired or was cancelled does not fire after that. -/
theorem not_fired_after {before after : List Entry} {e x : Entry}
    (hlog : c.log = before ++ e :: after) (hout : Outstanding before id)
    (he : e.event = .fired id ∨ e.event = .cancelled id) (hx : x ∈ after) :
    x.event ≠ .fired id := by
  intro hfired
  obtain ⟨mid, rest, rfl⟩ := List.append_of_mem hx
  have hlog' : c.log = (before ++ e :: mid) ++ x :: rest := by rw [hlog]; simp
  have hnodup := h.nodup_set
  rw [hlog', List.filterMap_append] at hnodup
  exact not_outstanding (List.nodup_append.1 hnodup).1 hout he (h.fired _ x rest id hlog' hfired).1

theorem nodup_fired : c.fired.Nodup := by
  rw [← List.nodup_reverse, ← h.acted, List.Nodup, List.pairwise_filterMap,
    List.pairwise_iff_getElem]
  intro i j hi hj hij a ha b hb
  have hlog : c.log = c.log.take i ++ c.log[i] :: c.log.drop (i + 1) := by simp
  have hafter : c.log[j] ∈ c.log.drop (i + 1) :=
    List.mem_drop_iff_getElem.2 ⟨j - (i + 1), by omega, by congr; omega⟩
  rw [Event.fired?_eq_some] at ha hb
  rintro rfl
  exact h.not_fired_after hlog (h.fired _ _ _ a hlog ha).1 (.inl ha) hafter hb

end Sound

/-- To cancel what is not armed is only logged. -/
theorem cancel_eq_note (hid : c.timer.isArmed id = false) :
    c.cancel id = c.note (.cancelled id) := by
  have htimer : c.timer.cancel id = c.timer := by
    refine congrArg Timer.mk (SortedSet.ext fun id' => ?_)
    rw [SortedSet.mem_erase, and_iff_right_iff_imp]
    rintro hid' rfl
    exact absurd hid' (Bool.eq_false_iff.1 hid)
  rw [cancel, htimer]

/-- The number of armed timeouts. -/
theorem active_eq_ncard {timer : Timer} {p : TimerId → Prop}
    (h : ∀ id, id ∈ timer.armed ↔ p id) : timer.active = {id | p id}.ncard := by
  have hset : {id | p id} = (timer.armed.toList.toFinset : Set TimerId) := by
    ext id
    simp [← h, SortedSet.mem_toList]
  have hnodup : timer.armed.toList.Nodup := SortedMap.nodup_keys _
  rw [hset, Set.ncard_coe_finset, List.toFinset_card_of_nodup hnodup]
  exact (List.length_map ..).symm

open Timeline in
/-- **Timeouts fire once, in time.** Whatever is asked of a clock, and whatever callbacks ask of it
    while they run:

    * to set a timeout or to cancel one is one line more in the log, with the number that is given
      out; and whatever is written during a sleep are timeouts that fire, each followed by what its
      callback asks for;
    * timeouts have different numbers, and each fires at most once;
    * one that fires is outstanding then, and not less time has passed since it was set than its
      duration, or the longest sleep if that is shorter;
    * one that was cancelled while it was outstanding does not fire any more;
    * one whose time is over by the end of a sleep has fired by then, or was cancelled while it was
      outstanding;
    * to cancel one that is not armed leaves everything as it is, but for the log;
    * what is armed is what is outstanding, after every line of the log. -/
theorem fires_once (moves : List Move) :
    let c := ({} : AlarmClock).after moves
    (∀ duration callback, ∃ e, (c.set duration callback).1.log = c.log ++ [e] ∧
      e.event = .set (c.set duration callback).2 duration callback ∧ e.moment = c.line.now) ∧
    (∀ id, ∃ e, (c.cancel id).log = c.log ++ [e] ∧ e.event = .cancelled id ∧
      e.moment = c.line.now) ∧
    (∀ duration, RingsOn c (Clocked.sleep duration c)) ∧
    (c.log.filterMap (·.event.set?)).Nodup ∧
    c.log.filterMap (·.event.fired?) = c.fired.reverse ∧ c.fired.Nodup ∧
    (∀ before e after id, c.log = before ++ e :: after → e.event = .fired id →
      Outstanding before id ∧ ∃ s ∈ before, ∃ duration callback,
        s.event = .set id duration callback ∧ s.moment + min duration longest ≤ e.moment) ∧
    (∀ before e after id, c.log = before ++ e :: after → e.event = .cancelled id →
      Outstanding before id → ∀ x ∈ after, x.event ≠ .fired id) ∧
    (∀ duration, let c' := Clocked.sleep duration c
      c'.line.now = wakingTime c.line.now duration ∧
      ∀ s ∈ c'.log, ∀ id duration callback, s.event = .set id duration callback →
        wakingTime s.moment duration ≤ c'.line.now →
          ∃ before e after, c'.log = before ++ e :: after ∧ Outstanding before id ∧
            (e.event = .fired id ∨ e.event = .cancelled id)) ∧
    (∀ (x : AlarmClock) (id : TimerId), x.timer.isArmed id = false →
      x.cancel id = x.note (.cancelled id)) ∧
    (∀ before e after, c.log = before ++ e :: after →
      (∀ id, e.timer.isArmed id = true ↔ Outstanding (before ++ [e]) id) ∧
      e.timer.active = {id | Outstanding (before ++ [e]) id}.ncard) ∧
    c.timer.active = {id | Outstanding c.log id}.ncard := by
  intro c
  have h : Sound [] c := sound_after moves
  refine ⟨fun _ _ => ⟨_, rfl, rfl, rfl⟩, fun _ => ⟨_, rfl, rfl, rfl⟩, fun d => (h.sleep d).2.1,
    h.nodup_set, h.acted, h.nodup_fired, ?_, ?_, ?_, ?_, ?_, active_eq_ncard h.armed⟩
  · intro before e after id hlog he
    obtain ⟨hout, callback, s, hs, duration, hset, hm⟩ := h.fired before e after id hlog he
    exact ⟨hout, s, hs, duration, callback, hset, Nat.le_of_eq hm.symm⟩
  · intro before e after id hlog he hout x hx
    exact h.not_fired_after hlog hout (.inr he) hx
  · intro duration
    obtain ⟨h', -, hnow, hready⟩ := h.sleep duration
    refine ⟨hnow, fun s hs id d callback hset hdue => ?_⟩
    have hsets : Entry.Sets id s := ⟨d, callback, hset⟩
    rcases standing_or_ended (fun e => Entry.Ends id e) hs hsets with
      hout | ⟨before, e, after, hlog, hout, he⟩
    · -- What is outstanding sleeps longer than now, and was set for that moment.
      exfalso
      obtain ⟨k, hk, rfl⟩ := h'.counted id ((h'.armed id).2 hout)
      obtain ⟨s', hs', d', hset', hmoment⟩ := h'.timed k hk
      obtain rfl : s' = s := h'.set_unique hs' hs hset' hset
      obtain rfl : d' = d := (Event.set.inj (hset'.symm.trans hset)).2.1
      exact Nat.not_lt_of_le hdue (hmoment ▸ h'.now_lt hready hk)
    · exact ⟨before, e, after, hlog, hout, he.symm⟩
  · intro x id hid
    exact cancel_eq_note hid
  · intro before e after hlog
    exact ⟨h.kept before e after hlog, active_eq_ncard (h.kept before e after hlog)⟩

/-- The first of two timeouts for one moment cancels the other, and sets one for no time at all. -/
example : (({} : AlarmClock).after [.set 5 (.andThen (.cancel 2) (.set 0 .nothing)),
    .set 5 .nothing, .sleep 5]).fired = [3, 1] := by
  cbv

/-- A timeout for a millisecond more than the longest sleep fires a millisecond early. -/
theorem fires_early_beyond_longest :
    let c := ({} : AlarmClock).after [.set 946080000001 .nothing, .sleep 946080000000]
    ¬ ∀ before e after id, c.log = before ++ e :: after → e.event = .fired id →
      ∃ s ∈ before, ∃ duration callback, s.event = .set id duration callback ∧
        s.moment + duration ≤ e.moment := by
  have hlog : (({} : AlarmClock).after [.set 946080000001 .nothing, .sleep 946080000000]).log =
      [⟨0, .set 1 946080000001 .nothing, ⟨.ofList [1]⟩⟩, ⟨946080000000, .fired 1, {}⟩] := by
    cbv
  intro c hnever
  obtain ⟨s, hs, duration, callback, hset, hle⟩ := hnever [_] _ [] 1 hlog rfl
  obtain rfl := List.mem_singleton.1 hs
  obtain rfl := (Event.set.inj hset).2.1
  exact absurd hle (by decide)

end AlarmClock

end ContextBroker
