import ContextBroker.Proofs.Scenario.Clockwork
import ContextBroker.Scenario.Progress

set_option autoImplicit false

/-! # Who holds the broker, and what is still counted down

A broker counts those who hold it, and a scenario knows who they are (`Scenario.holders`). The two
agree whatever is done (`Scenario.Sound`), so nobody can come to hold a broker that was let go by
all. With that the timer and the table of open requests stay in step (`Clockwork`): a countdown is
a frame that is still to be done, wherever it stands. -/

namespace ContextBroker

namespace Scenario

theorem broker_wake (s : Scenario) : s.wake.broker = s.broker := by
  unfold wake
  split <;> rfl

theorem broker_bringIn (s : Scenario) (step : Step) : (s.bringIn step).broker = s.broker := by
  unfold bringIn
  split <;> rfl

/-! ## Frames that are still to be done -/

/-- The countdown that ends with a frame which is done at `moment`. -/
def Frame.countdown? (moment : Nat) : Frame → Option Countdown
  | .elapse id token generation => some ⟨moment, id, token, generation⟩
  | _ => none

/-- Whether a frame holds the broker. -/
def Frame.holds : Frame → Bool
  | .letGo => true
  | _ => false

/-- The frames of a job that is done at `now`, each with its moment. -/
def Job.frames (now : Nat) : Job → List (Nat × Frame)
  | .work => []
  | .act frames => frames.map (now, ·)
  | .wait duration frame => [(Timeline.wakingTime now duration, frame)]

/-- The frames of what can be done now: what is on the agenda comes before what stands in line. -/
def upcoming (now : Nat) (agenda : List Frame) (ready : List Job) : List (Nat × Frame) :=
  agenda.map (now, ·) ++ ready.flatMap (Job.frames now)

/-- The frames that are still to be done, each with its moment. -/
def frames (s : Scenario) : List (Nat × Frame) :=
  upcoming s.line.now s.agenda s.line.ready ++ s.line.asleep.flatMap fun p => p.2.frames p.1

/-- The countdowns that still run. -/
def countdowns (s : Scenario) : List Countdown := s.frames.filterMap fun p => p.2.countdown? p.1

/-- The number of handles, and of callers who hold the broker until they have their reply. -/
def callers (s : Scenario) : Nat := s.handles.count true + s.awaited.length + s.waiting

/-- The number of those who hold the broker. -/
def holders (s : Scenario) : Nat := s.callers + s.frames.countP (·.2.holds)

/-- Handles and callers count for themselves. -/
theorem holders_eq (s' s : Scenario) (hf : s'.frames = s.frames) {k : Nat}
    (hc : s'.callers = s.callers + k) : s'.holders = s.holders + k := by
  rw [holders, holders, hf, hc]
  omega

theorem frames_spawn (s : Scenario) (job : Job) :
    (s.spawn job).frames.Perm (job.frames s.line.now ++ s.frames) := by
  simp only [frames, upcoming, spawn, Timeline.spawn, List.flatMap_append, List.flatMap_cons,
    List.flatMap_nil, List.append_nil, List.append_assoc]
  refine (List.Perm.append_left _ ?_).trans (List.perm_append_comm_assoc ..)
  exact List.perm_append_comm_assoc ..

/-- A scenario in which at `now` the broker, its timer and its worker are in step. Besides those who
    are known to hold the broker there are `others`. By `due` the requests that were opened are
    due. -/
structure Sound (due : Opening → Nat → Prop) (now others : Nat) (s : Scenario) : Prop where
  timing : s.timing = .clock
  clock : s.line.now = now
  ahead : s.line.Ahead
  tracked : s.broker.queue.Tracked []
  orderly : s.broker.queue.worker.Orderly
  held : s.broker.queue.senders = s.holders + others
  clockwork : Clockwork due s.timer s.broker.queue s.countdowns

namespace Sound

variable {due : Opening → Nat → Prop} {now n : Nat} {s : Scenario}

/-- Other frames are to be done: those in `extra` come in, and none of them ends a countdown. Of
    them `k` hold the broker. -/
theorem refit (k : Nat) (h : Sound due now (n + k) s) (extra : List (Nat × Frame))
    (hcount : extra.countP (·.2.holds) = k) (hquiet : ∀ p ∈ extra, p.2.countdown? p.1 = none)
    {agenda : List Frame} {line : Timeline Job} {now' : Nat} (hl : line.now = now')
    (ha : line.Ahead)
    (hp : ({ s with agenda, line } : Scenario).frames.Perm (extra ++ s.frames)) :
    Sound due now' n { s with agenda, line } where
  timing := h.timing
  clock := hl
  ahead := ha
  tracked := h.tracked
  orderly := h.orderly
  held := by
    have hheld := h.held
    have hc : ({ s with agenda, line } : Scenario).callers = s.callers := rfl
    simp only [holders, hc, hp.countP_eq, List.countP_append, hcount] at hheld ⊢
    omega
  clockwork := by
    refine h.clockwork.congr fun a => ?_
    simp only [countdowns, List.mem_filterMap, hp.mem_iff, List.mem_append]
    constructor
    · rintro ⟨p, hp | hp, hpa⟩
      · rw [hquiet p hp] at hpa
        cases hpa
      · exact ⟨p, hp, hpa⟩
    · rintro ⟨p, hp, hpa⟩
      exact ⟨p, .inr hp, hpa⟩

/-- A frame that ends no countdown is done with. -/
theorem consume (h : Sound due now n s) {frame : Frame} {rest : List Frame}
    (hs : s.agenda = frame :: rest) (hquiet : ∀ m, frame.countdown? m = none) :
    Sound due now (n + if frame.holds then 1 else 0) { s with agenda := rest } where
  timing := h.timing
  clock := h.clock
  ahead := h.ahead
  tracked := h.tracked
  orderly := h.orderly
  held := by
    have hheld := h.held
    have hc : { s with agenda := rest }.callers = s.callers := rfl
    simp only [holders, hc, frames, upcoming, hs, List.map_cons, List.cons_append,
      List.countP_cons] at hheld ⊢
    omega
  clockwork := by
    refine h.clockwork.congr fun a => ?_
    simp [countdowns, frames, upcoming, hs, hquiet]

/-- A job that ends no countdown stands in line. -/
theorem spawn {job : Job} (h : Sound due now (n + (job.frames s.line.now).countP (·.2.holds)) s)
    (hquiet : ∀ p ∈ job.frames s.line.now, p.2.countdown? p.1 = none) :
    Sound due now n (s.spawn job) :=
  h.refit _ _ rfl hquiet h.clock ⟨h.ahead.sorted, h.ahead.later⟩ (frames_spawn s job)

theorem wake (h : Sound due now n s) : Sound due now n s.wake := by
  unfold Scenario.wake
  split
  · exact h
  · exact h.spawn (by simp [Job.frames])

/-! ## Who holds the broker -/

/-- Whoever holds the broker lets another one hold it too. -/
theorem hold (h : Sound due now n s) (hpos : 0 < s.broker.queue.senders) :
    Sound due now (n + 1) s.hold where
  timing := h.timing
  clock := h.clock
  ahead := h.ahead
  tracked := h.tracked.senders _
  orderly := h.orderly
  held := congrArg (· + 1) h.held
  clockwork := h.clockwork.senders _ (by omega)

theorem drop (h : Sound due now (n + 1) s) :
    Sound due now n { s with broker := s.broker.drop } where
  timing := h.timing
  clock := h.clock
  ahead := h.ahead
  tracked := h.tracked.senders _
  orderly := h.orderly
  held := congrArg (· - 1) h.held
  clockwork := h.clockwork.senders _ (by omega)

theorem letGo (h : Sound due now (n + 1) s) : Sound due now n s.letGo := h.drop.wake

theorem leave (h : Sound due now (n + 1) s) : Sound due now n s.leave :=
  Sound.spawn (by simpa [Job.frames, Frame.holds] using h) (by simp [Job.frames, Frame.countdown?])

theorem await (h : Sound due now n s) (hpos : 0 < s.broker.queue.senders) (ticket : Ticket) :
    Sound due now n (s.await ticket) :=
  { h.hold hpos with
    held := by
      have hh : (s.await ticket).holders = s.hold.holders + 1 :=
        holders_eq (s.await ticket) s.hold rfl
          (by simp only [callers, Scenario.await, Scenario.hold, List.length_cons]; omega)
      rw [hh]
      exact (h.hold hpos).held.trans (by omega) }

theorem answered (h : Sound due now n s) (ticket : Ticket) :
    Sound due now n (s.answered ticket) := by
  unfold Scenario.answered
  split
  · rename_i hm
    refine leave { h with held := ?_ }
    have hlength := List.length_erase_of_mem hm
    have hpos := List.length_pos_of_mem hm
    have hh : s.holders = { s with awaited := s.awaited.erase ticket }.holders + 1 :=
      holders_eq s { s with awaited := s.awaited.erase ticket } rfl
        (by simp only [callers, hlength]; omega)
    exact h.held.trans (by omega)
  · exact h

theorem remain (h : Sound due now n s) (hpos : 0 < s.broker.queue.senders) :
    Sound due now n s.remain :=
  { h.hold hpos with
    held := by
      have hh : s.remain.holders = s.hold.holders + 1 :=
        holders_eq s.remain s.hold rfl (Nat.add_assoc ..).symm
      rw [hh]
      exact (h.hold hpos).held.trans (by omega) }

theorem announce (h : Sound due now n s) (hpos : 0 < s.broker.queue.senders) (notice : Notice)
    (observers : List Observer) : Sound due now n (s.announce notice observers) := by
  let tells : List (Nat × Frame) := observers.map fun o => (s.line.now, .tell o notice)
  have htell : ∀ p ∈ tells, ∃ o, p = (s.line.now, .tell o notice) := by
    intro p hp
    obtain ⟨o, -, rfl⟩ := List.mem_map.1 hp
    exact ⟨o, rfl⟩
  refine (h.hold hpos).refit 1 ((s.line.now, .letGo) :: tells) ?_ ?_ h.clock h.ahead ?_
  · rw [List.countP_cons, List.countP_eq_zero.2 fun p hp => ?_]
    · rfl
    · obtain ⟨o, rfl⟩ := htell p hp
      simp [Frame.holds]
  · intro p hp
    rcases List.mem_cons.1 hp with rfl | hp
    · rfl
    · obtain ⟨o, rfl⟩ := htell p hp
      rfl
  · have hf : s.hold.frames = s.frames := rfl
    rw [hf]
    simp only [frames, upcoming, List.map_append, List.map_map, List.map_cons, List.append_assoc,
      List.cons_append, tells]
    exact List.perm_middle

/-- Whoever holds a handle holds the broker. -/
theorem senders_pos (h : Sound due now n s) {handle : Nat} (hh : s.holds handle = true) :
    0 < s.broker.queue.senders := by
  have hmem : true ∈ s.handles := by
    rw [Scenario.holds, List.getD_eq_getElem?_getD] at hh
    cases hget : s.handles[handle]? with
    | none => simp [hget] at hh
    | some held =>
      obtain rfl : held = true := by simpa [hget] using hh
      exact List.mem_of_getElem? hget
  have hcount := List.count_pos_iff.2 hmem
  rw [h.held, holders, callers]
  omega

/-! ## Steps -/

/-- Tasks come into the queue, and tokens are taken for them. -/
theorem grow (h : Sound due now n s) {b : Broker} {tokens : TokenAllocator} {more : List Task}
    (hq : b.queue = { s.broker.queue with
      worker.tokens := tokens, tasks := s.broker.queue.tasks ++ more })
    (ht : b.queue.Tracked []) (tickets : Nat) :
    Sound due now n { s with broker := b, tickets } where
  timing := h.timing
  clock := h.clock
  ahead := h.ahead
  tracked := ht
  orderly := by
    simp only [hq]
    exact h.orderly.tokens tokens
  held := by
    simp only [hq]
    exact h.held
  clockwork := by
    simp only [hq]
    exact h.clockwork.grow tokens more

theorem elapse (h : Sound due now n s) (t : Token) (generation : Nat) (manual : ManualTimer) :
    Sound due now n { s with manual, broker := s.broker.elapse t generation } := by
  have hq := s.broker.queue.post_eq (.timeout t generation)
  exact { h.grow (b := s.broker.elapse t generation) hq (h.tracked.post_other rfl) s.tickets with }

theorem call (h : Sound due now n s) (hpos : 0 < s.broker.queue.senders) (c : Call) :
    Sound due now n (s.call c).1 ∧ 0 < (s.call c).1.broker.queue.senders := by
  obtain ⟨tokens, more, hq⟩ := s.broker.queue_call s.tickets c
  have hgrown := h.grow hq (h.tracked.call s.tickets c) (s.tickets + 1)
  have hpos : 0 < (s.broker.call s.tickets c).1.queue.senders := by rw [hq]; exact hpos
  simp only [Scenario.call]
  split
  · rename_i notice observers _
    refine ⟨(hgrown.announce hpos notice observers).wake, ?_⟩
    rw [broker_wake]
    exact Nat.succ_pos _
  · refine ⟨hgrown.wake, ?_⟩
    rw [broker_wake]
    exact hpos

theorem bringIn (h : Sound due now n s) (step : Step) : Sound due now n (s.bringIn step) := by
  unfold Scenario.bringIn
  split <;> exact { h with }

theorem setRetrievable (h : Sound due now n s) (provider : Provider) (retrievable : Bool) :
    Sound due now n (s.setRetrievable provider retrievable) := by
  unfold Scenario.setRetrievable
  split
  · exact { h with }
  · exact h

theorem fire (h : Sound due now n s) (id : TimerId) : Sound due now n (s.fire id).1 := by
  unfold Scenario.fire
  split
  · exact h
  · rename_i t generation manual _
    exact (h.elapse t generation manual).wake

/-- A further handle. -/
theorem share (h : Sound due now n s) (hpos : 0 < s.broker.queue.senders) :
    Sound due now n { s with broker := s.broker.share, handles := s.handles ++ [true] } := by
  let s' : Scenario := { s with broker := s.broker.share, handles := s.handles ++ [true] }
  have hh : s'.holders = s.hold.holders + 1 :=
    holders_eq s' s.hold rfl (by simp [s', callers, Scenario.hold]; omega)
  have hheld := (h.hold hpos).held
  exact { h.hold hpos with held := hheld.trans (by show _ = s'.holders + n; omega) }

/-- A handle is given back. -/
theorem giveBack (h : Sound due now n s) {handle : Nat} (hh : s.holds handle = true) :
    Sound due now n { s with broker := s.broker.drop, handles := s.handles.set handle false } := by
  refine drop (s := { s with handles := s.handles.set handle false }) { h with held := ?_ }
  have hget : s.handles[handle]? = some true := by
    rw [Scenario.holds, List.getD_eq_getElem?_getD] at hh
    cases hget : s.handles[handle]? with
    | none => simp [hget] at hh
    | some held => simpa [hget] using hh
  obtain ⟨hlt, hget⟩ := List.getElem?_eq_some_iff.1 hget
  have hcount : (s.handles.set handle false).count true + 1 = s.handles.count true := by
    have hpos := List.count_pos_iff.2 (hget ▸ List.getElem_mem hlt)
    rw [List.count_set hlt, hget]
    simp
    omega
  have hh : s.holders = { s with handles := s.handles.set handle false }.holders + 1 :=
    holders_eq s { s with handles := s.handles.set handle false } rfl
      (by simp only [callers]; omega)
  exact h.held.trans (by omega)

/-- What is done with a handle, and whether the reply is still to come. -/
theorem actWith (h : Sound due now n s) (step : Step) (scene : Scene)
    (hh : s.holds step.handle = true) :
    Sound due now n (s.actWith step scene).1 ∧
      ((s.actWith step scene).2.awaited?.isSome = true →
        0 < (s.actWith step scene).1.broker.queue.senders) := by
  have hpos := h.senders_pos hh
  unfold Scenario.actWith
  split
  · exact ⟨{ h.bringIn step with }, by simp [Result.awaited?]⟩
  · exact ⟨{ h.bringIn step with }, by simp [Result.awaited?]⟩
  · exact ⟨h, by simp [Result.awaited?]⟩
  · exact ⟨h.share hpos, by simp [Result.awaited?]⟩
  · exact ⟨(h.giveBack hh).wake, by simp [Result.awaited?]⟩
  · split
    · rename_i c _
      have hc := (h.bringIn step).call (by rw [broker_bringIn]; exact hpos) c
      exact ⟨hc.1, fun _ => hc.2⟩
    · exact ⟨h, by simp [Result.awaited?]⟩

theorem act (h : Sound due now n s) (step : Step) (scene : Scene) :
    Sound due now n (s.act step scene).1 ∧
      ((s.act step scene).2.awaited?.isSome = true →
        0 < (s.act step scene).1.broker.queue.senders) := by
  unfold Scenario.act
  split
  · rename_i id _
    refine ⟨h.fire id, ?_⟩
    unfold Scenario.fire
    split <;> simp [Result.awaited?]
  · exact ⟨(h.bringIn step).setRetrievable _ _, by simp [Result.awaited?]⟩
  · split
    · exact h.actWith step scene ‹_›
    · refine ⟨h, ?_⟩
      simp only
      split <;> simp [Result.awaited?]

/-! ## Callbacks -/

/-- What a party does when it is called back comes on the agenda. -/
theorem perform (h : Sound due now n s) (parties : SortedMap Nat Party) (k : Nat) (scene : Scene) :
    Sound due now n { s with agenda := (callBack parties k scene).2 ++ s.agenda } := by
  have hstep : ∀ p ∈ (callBack parties k scene).2.map (s.line.now, ·),
      ∃ step, p = (s.line.now, .perform step scene) := by
    intro p hp
    unfold callBack at hp
    split at hp
    · simp at hp
    · rw [List.map_map] at hp
      obtain ⟨step, -, rfl⟩ := List.mem_map.1 hp
      exact ⟨step, rfl⟩
  refine h.refit 0 ((callBack parties k scene).2.map (s.line.now, ·)) ?_ ?_ h.clock h.ahead ?_
  · refine List.countP_eq_zero.2 fun p hp => ?_
    obtain ⟨step, rfl⟩ := hstep p hp
    simp [Frame.holds]
  · intro p hp
    obtain ⟨step, rfl⟩ := hstep p hp
    rfl
  · simp only [frames, upcoming, List.map_append, List.append_assoc]
    exact .refl _

end Sound

end Scenario

end ContextBroker
