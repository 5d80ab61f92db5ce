import ContextBroker.Proofs.Broker.Posting
import ContextBroker.Proofs.Timeline
import ContextBroker.Proofs.Worker.Disarming

set_option autoImplicit false

/-! # Timers and open requests

A timer and the table of open requests are kept apart: they meet in the effects that set and cancel
timeouts and in the tasks that report a timeout which elapsed. `Clockwork` says what holds between
the two at every moment. An armed timeout is that of an open request. A request that is open will
meet its timeout: the timeout is armed and its countdown is over no later than the request is due,
or it was reported and the report is still queued, or nobody is left who could post and the work
ends with the next turn. -/

namespace ContextBroker

/-- A timeout that was set and whose time is not over. -/
structure Countdown where
  /-- When its time is over. -/
  moment : Nat
  timer : TimerId
  token : Token
  generation : Nat

/-- Which request is meant, from when it is opened to when it ends. -/
structure Opening where
  token : Token
  requester : Requester
  endpoint : String
  generation : Nat

/-- The opening of a request that is open with the token `t`. -/
def Request.opening (r : Request) (t : Token) : Opening :=
  ⟨t, r.requester, r.endpoint, r.generation⟩

theorem Round.opening_progress (x : Round) (t : Token) (r : Request) :
    (x.progress t r).opening t = r.opening t := by
  rw [Request.opening, x.requester_progress, x.endpoint_progress, x.generation_progress,
    Request.opening]

namespace WorkQueue

/-- A task that is queued is taken next, or is still queued after a turn that does not end the
    work. -/
theorem mem_tasks_after {q : WorkQueue} {around : Surroundings} {turn : Turn}
    (h : q.turn? around = some turn) (w : Worker) {task : Task} (ht : task ∈ q.tasks) :
    turn.isEnd = true ∨ turn = .task around task ∨ task ∈ (q.after turn w).tasks := by
  unfold turn? at h
  split at h
  · cases h
  · split at h
    · rename_i hnil
      simp [hnil] at ht
    · obtain rfl := Option.some.inj h
      exact .inl rfl
    · rename_i head rest _ hq
      obtain rfl := Option.some.inj h
      rw [hq, List.mem_cons] at ht
      rcases ht with rfl | ht
      · exact .inr (.inl rfl)
      · exact .inr (.inr (by simpa [after, Turn.isEnd, hq] using ht))

end WorkQueue

namespace Timer

/-- The timer after an effect. -/
def follow (t : Timer) : Effect → Timer
  | .setTimer id .. => t.arm id
  | .cancelTimer id => t.cancel id
  | _ => t

/-- What is armed after effects that do not set and cancel the same timeout. -/
theorem mem_foldl_follow {es : List Effect} {t : Timer} {id : TimerId}
    (h : .cancelTimer id ∈ es → ∀ delay u g, ¬ .setTimer id delay u g ∈ es) :
    id ∈ (es.foldl follow t).armed ↔
      (∃ delay u g, .setTimer id delay u g ∈ es) ∨ (id ∈ t.armed ∧ ¬ .cancelTimer id ∈ es) := by
  induction es generalizing t with
  | nil => simp
  | cons e es ih =>
    have ih := @ih (t.follow e) fun hc delay u g hs =>
      h (List.mem_cons_of_mem _ hc) delay u g (List.mem_cons_of_mem _ hs)
    rw [List.foldl_cons, ih]
    cases e with
    | setTimer id' delay u g =>
      simp only [follow, mem_arm, List.mem_cons, Effect.setTimer.injEq, reduceCtorEq, false_or]
      by_cases hid : id = id'
      · subst hid
        -- It is not cancelled later on, so it is armed to the end.
        have hc : ¬ .cancelTimer id ∈ es := fun hc =>
          h (List.mem_cons_of_mem _ hc) delay u g List.mem_cons_self
        simp [hc, exists_or]
      · simp [hid]
    | cancelTimer id' =>
      simp only [follow, mem_cancel, List.mem_cons, Effect.cancelTimer.injEq, reduceCtorEq,
        false_or, not_or, and_assoc, and_left_comm]
    | _ => simp [follow]

end Timer

/-- What holds between a timer, a queue with the requests of its worker, and the countdowns
    that still run. By `due` the requests that were opened are due. -/
structure Clockwork (due : Opening → Nat → Prop) (timer : Timer) (q : WorkQueue)
    (countdowns : List Countdown) : Prop where
  /-- Nothing is armed that no open request waits for. -/
  armed (id : TimerId) : id ∈ timer.armed →
    ∃ t r, q.worker.requests.get? t = some r ∧ r.timer = some id
  numbered (a : Countdown) : a ∈ countdowns → a.timer ≤ q.worker.timers
  /-- A countdown is for the request that has its timer. -/
  meant (a : Countdown) (t : Token) (r : Request) : a ∈ countdowns →
    q.worker.requests.get? t = some r → r.timer = some a.timer →
    t = a.token ∧ r.generation = a.generation
  covered (t : Token) (r : Request) (id : TimerId) : q.worker.requests.get? t = some r →
    r.timer = some id →
    (id ∈ timer.armed ∧ ∃ a ∈ countdowns, a.timer = id ∧
      ∃ moment, due (r.opening t) moment ∧ a.moment ≤ moment) ∨
    .timeout t r.generation ∈ q.tasks ∨ q.senders = 0

namespace Clockwork

variable {due due' : Opening → Nat → Prop} {timer : Timer} {q : WorkQueue}
  {countdowns countdowns' : List Countdown}

/-- Before anything is opened. -/
theorem start (due : Opening → Nat → Prop) (h : q.worker.requests = ∅) :
    Clockwork due {} q [] where
  armed id h := absurd h (SortedSet.not_mem_empty id)
  numbered a ha := absurd ha List.not_mem_nil
  meant a t r ha := absurd ha List.not_mem_nil
  covered t r id hr := by simp [h] at hr

theorem mono (h : Clockwork due timer q countdowns) (hdue : ∀ o m, due o m → due' o m) :
    Clockwork due' timer q countdowns :=
  { h with
    covered := fun t r id hr hid => (h.covered t r id hr hid).imp_left
      fun ⟨harmed, a, ha, hat, m, hm, hle⟩ => ⟨harmed, a, ha, hat, m, hdue _ m hm, hle⟩ }

/-- It does not matter where countdowns are kept. -/
theorem congr (h : Clockwork due timer q countdowns) (ha : ∀ a, a ∈ countdowns' ↔ a ∈ countdowns) :
    Clockwork due timer q countdowns' := by
  obtain ⟨h₁, h₂, h₃, h₄⟩ := h
  simp only [← ha] at h₂ h₃ h₄
  exact ⟨h₁, h₂, h₃, h₄⟩

/-- Tasks may be added to the queue, and tokens taken for them. -/
theorem grow (h : Clockwork due timer q countdowns) (tokens : TokenAllocator) (more : List Task) :
    Clockwork due timer { q with worker.tokens := tokens, tasks := q.tasks ++ more }
      countdowns where
  armed := h.armed
  numbered := h.numbered
  meant := h.meant
  covered t r id hr hid :=
    (h.covered t r id hr hid).imp_right fun hq => hq.imp_left (List.mem_append_left _)

/-- Who can post plays no part while somebody can. -/
theorem senders (h : Clockwork due timer q countdowns) (n : Nat) (hn : q.senders = 0 → n = 0) :
    Clockwork due timer { q with senders := n } countdowns where
  armed := h.armed
  numbered := h.numbered
  meant := h.meant
  covered t r id hr hid := (h.covered t r id hr hid).imp_right fun hq => hq.imp_right hn

/-! ## A countdown is over -/

section

variable {a : Countdown} {rest : List Countdown} (ha : ∀ b, b ∈ countdowns ↔ b = a ∨ b ∈ rest)

include ha

/-- The time is over of a timeout that was cancelled: nothing happens. -/
theorem pass (h : Clockwork due timer q countdowns) (harmed : ¬ a.timer ∈ timer.armed) :
    Clockwork due timer q rest where
  armed := h.armed
  numbered b hb := h.numbered b ((ha b).2 (.inr hb))
  meant b t r hb := h.meant b t r ((ha b).2 (.inr hb))
  covered t r id hr hid := by
    refine (h.covered t r id hr hid).imp_left ?_
    rintro ⟨hid, b, hb, rfl, hdue⟩
    rcases (ha b).1 hb with rfl | hb
    · exact absurd hid harmed
    · exact ⟨hid, b, hb, rfl, hdue⟩

/-- The time is over of an armed timeout: it is reported, and armed no more. -/
theorem runOut (h : Clockwork due timer q countdowns) (hended : q.phase ≠ .running →
      ∀ t, q.worker.requests.get? t = none) :
    Clockwork due (timer.cancel a.timer) (q.post (.timeout a.token a.generation)) rest := by
  rw [WorkQueue.post_eq]
  refine ⟨fun id hid => h.armed id (Timer.mem_cancel.1 hid).2,
    fun b hb => h.numbered b ((ha b).2 (.inr hb)),
    fun b t r hb => h.meant b t r ((ha b).2 (.inr hb)), fun t r id hr hid => ?_⟩
  · by_cases hne : id = a.timer
    · -- The report is queued, unless nobody can post any more.
      subst hne
      obtain ⟨rfl, hg⟩ := h.meant a t r ((ha a).2 (.inl rfl)) hr hid
      by_cases hzero : q.senders = 0
      · exact .inr (.inr hzero)
      · have hopen : q.isOpen = true := by
          have hphase : q.phase = .running := by
            by_contra hp
            rw [hended hp] at hr
            cases hr
          simp [WorkQueue.isOpen, hphase, Nat.pos_of_ne_zero hzero]
        exact .inr (.inl (by simp [hopen, hg]))
    · rcases h.covered t r id hr hid with ⟨harmed, b, hb, rfl, hdue⟩ | hq | hzero
      · rcases (ha b).1 hb with rfl | hb
        · exact absurd rfl hne
        · exact .inl ⟨Timer.mem_cancel.2 ⟨hne, harmed⟩, b, hb, rfl, hdue⟩
      · exact .inr (.inl (List.mem_append_left _ hq))
      · exact .inr (.inr hzero)

end

/-! ## The worker takes a turn -/

/-- The opening of the request that the effects of a round set a timer for, with the moment by which
    it is due when the round takes place at `now`. -/
def Opens (x : Round) (now : Nat) (o : Opening) (moment : Nat) : Prop :=
  ∃ around delay, x.turn = .task around (.getContext o.token o.requester o.endpoint delay) ∧
    o.generation = x.before.generation + 1 ∧ moment = now + delay

section

variable {x : Round} {now : Nat} (hx : x.Sound) (horderly : x.before.Orderly)
  (hbefore : q.worker = x.before)

include hx horderly

/-- A round sets no timer that an open request has. -/
theorem not_sets_of_open {t : Token} {r : Request} {id : TimerId}
    (hr : x.before.requests.get? t = some r) (hid : r.timer = some id) {delay : Nat} {u : Token}
    {g : Nat} : ¬ .setTimer id delay u g ∈ x.effects := by
  intro hs
  obtain ⟨id', hid', hle⟩ := horderly.timed t r hr
  obtain rfl : id = id' := Option.some.inj (hid.symm.trans hid')
  obtain ⟨-, -, -, -, -, rfl, -⟩ := hx.sets_iff.1 hs
  exact Nat.not_succ_le_self _ hle

theorem mem_armed_after {id : TimerId} :
    id ∈ (x.effects.foldl Timer.follow timer).armed ↔
      (∃ delay u g, .setTimer id delay u g ∈ x.effects) ∨
        (id ∈ timer.armed ∧ ¬ .cancelTimer id ∈ x.effects) :=
  Timer.mem_foldl_follow fun hc delay u g => by
    obtain ⟨t, r, hr, hid, -⟩ := hx.cancels_iff.1 hc
    exact not_sets_of_open hx horderly hr hid

/-- A request that stays open keeps its timeout armed. -/
theorem mem_armed_of_open {t : Token} {r r' : Request} {id : TimerId}
    (hr : x.before.requests.get? t = some r) (hid : r.timer = some id)
    (hr' : x.after.requests.get? t = some r') (harmed : id ∈ timer.armed) :
    id ∈ (x.effects.foldl Timer.follow timer).armed := by
  refine (mem_armed_after hx horderly).2 (.inr ⟨harmed, fun hc => ?_⟩)
  obtain ⟨u, s, hs, hid', hnone⟩ := hx.cancels_iff.1 hc
  obtain rfl := horderly.apart t u r s hr hs (.inr (hid.trans hid'.symm))
  rw [hr'] at hnone
  cases hnone

include hbefore

/-- A round disarms what it closes, and arms what it opens with a countdown that is over in
    time. -/
theorem round (h : Clockwork due timer q countdowns) {around : Surroundings}
    (hturn : q.turn? around = some x.turn)
    (hcountdowns : ∀ a, a ∈ countdowns' ↔ a ∈ countdowns ∨ ∃ delay,
      .setTimer a.timer delay a.token a.generation ∈ x.effects ∧
        a.moment = Timeline.wakingTime now delay) :
    Clockwork (fun o m => due o m ∨ Opens x now o m) (x.effects.foldl Timer.follow timer)
      (q.after x.turn x.after) countdowns' := by
  obtain ⟨harmed, hnumbered, hmeant, hcovered⟩ := h
  rw [hbefore] at harmed hnumbered hmeant hcovered
  have hafter := horderly.round hx
  refine ⟨fun id hid => ?_, fun a ha => ?_, fun a t r' ha hr' hid => ?_,
    fun t r' id hr' hid => ?_⟩
  · rcases (mem_armed_after hx horderly).1 hid with ⟨delay, t, g, hs⟩ | ⟨hid, hc⟩
    · obtain ⟨around, requester, endpoint, hget, hp, rfl, -⟩ := hx.sets_iff.1 hs
      exact ⟨t, _, (hx.opened hget hp).1, rfl⟩
    · -- It was not cancelled, so its request is open still.
      obtain ⟨t, r, hr, hid⟩ := harmed id hid
      cases hr' : x.after.requests.get? t with
      | none => exact absurd (hx.cancels_iff.2 ⟨t, r, hr, hid, hr'⟩) hc
      | some r' =>
        rcases hx.open_after hr' with ⟨r₀, hr₀, rfl, -⟩ | ⟨hnone, -⟩
        · obtain rfl : r = r₀ := Option.some.inj (hr.symm.trans hr₀)
          exact ⟨t, _, hr', (x.timer_progress t r).trans hid⟩
        · rw [hr] at hnone
          cases hnone
  · rcases (hcountdowns a).1 ha with ha | ⟨delay, hs, -⟩
    · have htimers : x.after.timers = x.before.timers + _ := hx.leaves.timers
      exact Nat.le_trans (hnumbered a ha) (htimers ▸ Nat.le_add_right _ _)
    · obtain ⟨around, requester, endpoint, hget, hp, hid, -⟩ := hx.sets_iff.1 hs
      obtain ⟨id', hid', hle⟩ := hafter.timed _ _ (hx.opened hget hp).1
      rw [hid, Option.some.inj hid']
      exact hle
  · rcases hx.open_after hr' with ⟨r, hr, rfl, -⟩ | ⟨-, around, timeout, hget, -, he⟩
    · rw [x.timer_progress] at hid
      rw [x.generation_progress]
      rcases (hcountdowns a).1 ha with ha | ⟨delay, hs, -⟩
      · exact hmeant a t r ha hr hid
      · exact absurd hs (not_sets_of_open hx horderly hr hid)
    · -- The countdowns from before have other timers than a new request.
      rw [he] at hid ⊢
      rcases (hcountdowns a).1 ha with ha | ⟨delay, hs, -⟩
      · have := hnumbered a ha
        rw [← Option.some.inj hid] at this
        exact absurd this (Nat.not_succ_le_self _)
      · obtain ⟨around', requester, endpoint, hget', -, -, hg⟩ := hx.sets_iff.1 hs
        rw [hget, Turn.task.injEq, Task.getContext.injEq] at hget'
        exact ⟨hget'.2.1, hg.symm⟩
  · rcases hx.open_after hr' with ⟨r, hr, rfl, hnot⟩ | ⟨-, around, timeout, hget, hp, he⟩
    · rw [x.timer_progress] at hid
      rw [x.opening_progress, x.generation_progress]
      rcases hcovered t r id hr hid with ⟨harmed, a, ha, hat, m, hm, hle⟩ | hq | hzero
      · exact .inl ⟨mem_armed_of_open hx horderly hr hid hr' harmed, a, (hcountdowns a).2 (.inl ha),
          hat, m, .inl hm, hle⟩
      · -- A report that is taken, and the end of the work, both decide the request.
        rcases WorkQueue.mem_tasks_after hturn x.after hq with hend | htask | hq
        · exact absurd (.cancelled hend) (hnot _)
        · exact absurd (.timeout around htask) (hnot _)
        · exact .inr (.inl hq)
      · exact .inr (.inr hzero)
    · have hs := (hx.opened hget hp).2.2
      have hid : id = x.before.timers + 1 := by
        rw [he] at hid
        exact (Option.some.inj hid).symm
      have hg : r'.generation = x.before.generation + 1 := by rw [he]
      rw [hid]
      refine .inl ⟨(mem_armed_after hx horderly).2 (.inl ⟨_, _, _, hs⟩),
        ⟨Timeline.wakingTime now timeout, _, _, _⟩, (hcountdowns _).2 (.inr ⟨_, hs, rfl⟩), rfl,
        now + timeout, .inr ⟨around, timeout, hget, hg, rfl⟩, ?_⟩
      exact Timeline.wakingTime_le_add now timeout

end

end Clockwork

end ContextBroker
