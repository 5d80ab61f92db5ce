import ContextBroker.Proofs.Broker.Posting
import ContextBroker.Proofs.History.Pulling

set_option autoImplicit false

/-! # First come, first served

The worker takes tasks in the order in which they were posted. `History.posted` lists all that were
ever posted: those that the worker took and those that wait. Whatever a history does, it adds to the
end of this list (`History.posted_apply`), as `History.Goes` says of every move: it posts, or the
worker takes what stood first. One round takes one task; only the round that ends the work takes all
that is left, and no round comes after it (`History.Closing.last`). So a round takes the task that
was posted at its own place (`History.taken_at`).

A report is announced when its task is posted, and not otherwise. -/

namespace ContextBroker

/-- The tasks that a turn takes from the queue, in order. -/
def Turn.taken : Turn → List Task
  | .task _ x => [x]
  | .shutdown ticket rest => .shutdown ticket :: rest
  | .deserted => []

/-- A turn takes its tasks from the front of the queue. -/
theorem WorkQueue.tasks_of_turn? {q : WorkQueue} {around : Surroundings} {turn : Turn}
    (h : q.turn? around = some turn) (w : Worker) :
    q.tasks = turn.taken ++ (q.after turn w).tasks := by
  unfold turn? at h
  split at h
  · simp at h
  · split at h
    · rename_i ht
      split at h
      · obtain rfl := Option.some.inj h
        simp [ht, Turn.taken, after, Turn.isEnd]
      · simp at h
    · rename_i ticket rest ht
      obtain rfl := Option.some.inj h
      simp [ht, Turn.taken, after, Turn.isEnd]
    · rename_i task rest _ ht
      obtain rfl := Option.some.inj h
      simp [ht, Turn.taken, after, Turn.isEnd]

namespace History

/-- What was announced by a call that came back, and to whom. -/
def Event.announcement? : Event → Option (Notice × List Observer)
  | responded _ (.announced notice observers) => some (notice, observers)
  | _ => none

/-- What was announced, and to whom, in order. -/
def announced (h : History) : List (Notice × List Observer) := h.log.filterMap (·.announcement?)

/-- The tasks that were ever posted, in order: those that the worker took, and those that wait. -/
def posted (h : History) : List Task :=
  h.rounds.flatMap (·.turn.taken) ++ h.broker.queue.tasks

/-! ## What a move does to the queue -/

/-- What a move can do to the queue: tasks are posted, a report is posted and announced, or the
    worker takes what stands first. -/
inductive Goes (h h' : History) : Prop
  | quiet (more : List Task) (htasks : h'.broker.queue.tasks = h.broker.queue.tasks ++ more)
      (hrounds : h'.rounds = h.rounds) (hannounced : h'.announced = h.announced)
  | reported (notice : Notice) (observers : List Observer)
      (htasks : h'.broker.queue.tasks =
        h.broker.queue.tasks ++ [.report notice.identity notice.sample])
      (hrounds : h'.rounds = h.rounds)
      (hannounced : h'.announced = h.announced ++ [(notice, observers)])
  | worked (x : Round) (htasks : h.broker.queue.tasks = x.turn.taken ++ h'.broker.queue.tasks)
      (hrounds : h'.rounds = h.rounds ++ [x]) (hannounced : h'.announced = h.announced)

variable {h h' : History}

theorem Goes.refl (h : History) : Goes h h := .quiet [] (List.append_nil _).symm rfl rfl

theorem announced_respond (h : History) (c : Call) (r : Broker × Response) :
    (h.respond c r).announced = h.announced ++ (Event.responded c r.2).announcement?.toList := by
  rw [announced, respond, List.filterMap_append, announced]
  cases h : (Event.responded c r.2).announcement? <;> simp [h]

/-- A call that is turned down announces nothing. -/
theorem announcement?_refusal (c : Call) :
    (Event.responded c c.refusal).announcement? = none := by
  cases c <;> rfl

/-- The first part of a call neither posts nor announces anything. -/
theorem quiet_begin (h : History) (ticket : Ticket) (c : Call) :
    (h.begin ticket c).broker.queue.tasks = h.broker.queue.tasks ∧
      (h.begin ticket c).rounds = h.rounds ∧ (h.begin ticket c).announced = h.announced := by
  obtain ⟨tokens, hqueue⟩ := h.broker.queue_begin ticket c
  unfold begin
  cases hb : h.broker.begin ticket c with
  | mk broker result =>
    rw [hb] at hqueue
    have htasks : broker.queue.tasks = h.broker.queue.tasks := by
      simpa using congrArg WorkQueue.tasks hqueue
    cases result with
    | ok u => exact ⟨htasks, rfl, rfl⟩
    | error response =>
      refine ⟨htasks, rounds_respond h c _, ?_⟩
      have hresponse : response = c.refusal ∨ response = .exhausted := by
        unfold Broker.begin at hb
        split at hb
        · exact .inl (Except.error.inj (Prod.mk.inj hb).2).symm
        · split at hb
          · split at hb
            · exact .inr (Except.error.inj (Prod.mk.inj hb).2).symm
            · cases (Prod.mk.inj hb).2
          · cases (Prod.mk.inj hb).2
      have hnone : (Event.responded c response).announcement? = none := by
        rcases hresponse with rfl | rfl
        · exact announcement?_refusal c
        · rfl
      show (h.respond c (broker, response)).announced = _
      rw [announced_respond, hnone]
      exact List.append_nil _

/-- A call that is given up posts nothing. -/
theorem Goes.giveUp (h : History) (n : Nat) : Goes h (h.settle n h.broker.giveUp) := by
  unfold settle
  cases hn : h.underway[n]? with
  | none => exact .refl h
  | some u =>
    refine .quiet [] ?_ (rounds_respond _ _ _) ?_
    · show (h.broker.giveUp u).1.queue.tasks = _
      unfold Broker.giveUp
      simp only
      split <;> exact (List.append_nil _).symm
    · rw [announced_respond]
      show _ ++ (Event.responded u.call u.call.refusal).announcement?.toList = _
      rw [announcement?_refusal]
      exact List.append_nil _

/-- A call whose task is posted announces it if it is a report. -/
theorem Goes.finish (h : History) (n : Nat) : Goes h (h.settle n h.broker.finish) := by
  cases hn : h.underway[n]? with
  | none =>
    rw [settle, hn]
    exact .refl h
  | some u =>
    cases hq : h.broker.queue.post? (h.broker.task u) with
    | none =>
      have hgiveUp := Goes.giveUp h n
      simp only [settle, hn] at hgiveUp ⊢
      simpa only [Broker.finish, hq] using hgiveUp
    | some queue =>
      simp only [settle, hn, Broker.finish, hq]
      have htasks : queue.tasks = h.broker.queue.tasks ++ [h.broker.task u] :=
        (WorkQueue.tasks_post hq).1
      have hannounced := announced_respond { h with underway := h.underway.eraseIdx n } u.call
        ({ h.broker with queue }, h.broker.accepted u)
      cases hc : u.call with
      | report i sample cause =>
        rw [hc] at hannounced
        refine .reported ⟨h.broker.resolve i, sample, cause⟩ h.broker.hub.observers ?_
          (rounds_respond _ _ _) ?_
        · show queue.tasks = _
          rw [htasks, Broker.task, hc]
        · rw [hannounced, Broker.accepted, hc]
          rfl
      | _ =>
        rw [hc] at hannounced
        refine .quiet [h.broker.task u] htasks (rounds_respond _ _ _) ?_
        rw [hannounced, Broker.accepted, hc]
        exact List.append_nil _

/-- The worker takes what stands first, if it takes anything. -/
theorem Goes.work (ht : h.Tracked) (around : Surroundings) : Goes h (h.work around) := by
  unfold History.work Broker.work?
  cases hturn : h.broker.queue.turn? around with
  | none => exact .refl h
  | some turn =>
    obtain ⟨s, hs, -⟩ := WorkQueue.Tracked.turn ht hturn
    rw [WorkQueue.take?_eq, hturn]
    simp only [Option.map_some, hs]
    refine .worked ⟨h.broker.queue.worker, turn, s.1, s.2⟩ (WorkQueue.tasks_of_turn? hturn s.1) ?_ ?_
    · exact List.filterMap_append
    · exact List.filterMap_append.trans (List.append_nil _)

/-- Every move posts, or lets the worker take what stands first. -/
theorem goes_apply (ht : h.Tracked) (m : Move) : Goes h (h.apply m) := by
  have hguard : ∀ {p : Prop} [Decidable p] {h' : History},
      Goes h h' → Goes h (if p then h' else h) := by
    intro p _ h' hgoes
    split
    · exact hgoes
    · exact .refl h
  have hsame : ∀ {h' : History}, h'.broker.queue.tasks = h.broker.queue.tasks →
      h'.log = h.log → Goes h h' := by
    intro h' htasks hlog
    refine .quiet [] (by rw [htasks, List.append_nil]) ?_ ?_
    · rw [rounds, hlog, rounds]
    · rw [announced, hlog, announced]
  cases m with
  | call ticket c =>
    refine hguard ?_
    rw [respond_call]
    obtain ⟨htasks, hrounds, hannounced⟩ := h.quiet_begin ticket c
    cases Goes.finish (h.begin ticket c) h.underway.length with
    | quiet more ht hr ha =>
      exact .quiet more (by rw [ht, htasks]) (hr.trans hrounds) (ha.trans hannounced)
    | reported notice observers ht hr ha =>
      exact .reported notice observers (by rw [ht, htasks]) (hr.trans hrounds) (by rw [ha, hannounced])
    | worked x ht hr ha =>
      exact .worked x (by rw [← ht, htasks]) (by rw [hr, hrounds]) (ha.trans hannounced)
  | begin ticket c =>
    obtain ⟨htasks, hrounds, hannounced⟩ := h.quiet_begin ticket c
    exact hguard (.quiet [] (by rw [htasks, List.append_nil]) hrounds hannounced)
  | finish n => exact Goes.finish h n
  | giveUp n => exact hguard (Goes.giveUp h n)
  | share | drop | addObserver o | removeObserver o => exact hguard (hsame rfl rfl)
  | work around => exact Goes.work ht around
  | elapse timer =>
    rw [apply, elapse]
    cases h.timeouts.fire? timer with
    | none => exact .refl h
    | some x =>
      refine .quiet (if h.broker.queue.isOpen then [.timeout x.1 x.2.1] else []) ?_ rfl rfl
      show (h.broker.queue.post _).tasks = _
      rw [WorkQueue.post_eq]

/-- **First come, first served.** A move adds what it posts to the end of all that was posted. -/
theorem posted_apply (ht : h.Tracked) (m : Move) :
    (h.apply m).posted = h.posted ++
      (h.apply m).broker.queue.tasks.drop h.broker.queue.tasks.length := by
  unfold posted
  cases goes_apply ht m with
  | quiet more htasks hrounds => simp [htasks, hrounds]
  | reported notice observers htasks hrounds => simp [htasks, hrounds]
  | worked x htasks hrounds => simp [htasks, hrounds]

/-! ## One round, one task -/

/-- No round comes after the one that ended the work. -/
structure Closing (h : History) : Prop where
  last (earlier : List Round) (x : Round) (later : List Round) :
    h.rounds = earlier ++ x :: later → x.turn.isEnd = true → later = []
  stopped (x : Round) : x ∈ h.rounds → x.turn.isEnd = true → h.broker.queue.phase ≠ .running

theorem Closing.quiet (hc : h.Closing) (hrounds : h'.rounds = h.rounds)
    (hphase : h'.broker.queue.phase = h.broker.queue.phase) : h'.Closing :=
  ⟨by rw [hrounds]; exact hc.last, by rw [hrounds, hphase]; exact hc.stopped⟩

theorem phase_post (q : WorkQueue) (task : Task) : (q.post task).phase = q.phase := by
  rw [WorkQueue.post_eq]

theorem Closing.change (hc : h.Closing) (ht : h.Tracked) (hchange : Change h h') : h'.Closing := by
  cases hchange with
  | refused c response hr => exact hc.quiet (rounds_respond _ _ _) rfl
  | numbered u requester hu tokens ha => exact hc.quiet rfl rfl
  | begun u hu shuttingDown => exact hc.quiet rfl rfl
  | held senders hub => exact hc.quiet rfl rfl
  | posted n u hn queue hq =>
    refine hc.quiet (rounds_respond _ _ _) ?_
    obtain rfl : h.broker.queue.post (h.broker.task u) = queue := by rw [WorkQueue.post, hq]; rfl
    exact phase_post _ _
  | givenUp n u hn =>
    refine hc.quiet (rounds_respond _ _ _) ?_
    show (h.broker.giveUp u).1.queue.phase = _
    unfold Broker.giveUp
    simp only
    split <;> rfl
  | elapsed timer token generation timeouts htimer => exact hc.quiet rfl (phase_post _ _)
  | fell around turn hturn fault hs log => exact absurd hs (ht.no_fault hturn)
  | worked around turn hturn s hs =>
    have hphase : h.broker.queue.phase = .running := by
      by_contra hp
      rw [WorkQueue.turn?, if_pos hp] at hturn
      cases hturn
    -- The queue was running, so no round has ended the work before.
    have hbefore : ∀ y ∈ h.rounds, y.turn.isEnd ≠ true :=
      fun y hy he => hc.stopped y hy he hphase
    have hrounds : rounds { h with broker.queue := h.broker.queue.after turn s.1
                                   timeouts := h.timeouts.keep s.2
                                   log := h.log ++
                                    [.worked ⟨h.broker.queue.worker, turn, s.1, s.2⟩] } =
        h.rounds ++ [⟨h.broker.queue.worker, turn, s.1, s.2⟩] := List.filterMap_append
    refine ⟨?_, ?_⟩
    · intro earlier x later hr he
      rw [hrounds] at hr
      rcases append_cons_eq_concat hr.symm with ⟨rfl, -, -⟩ | ⟨later, -, hl⟩
      · rfl
      · exact absurd he (hbefore x (by simp [hl]))
    · intro x hx he
      rw [hrounds] at hx
      rcases List.mem_append.1 hx with hx | hx
      · exact absurd he (hbefore x hx)
      · obtain rfl := List.mem_singleton.1 hx
        simp [WorkQueue.after, show turn.isEnd = true from he]

theorem closing_run (config : Config) (last : Token) (moves : List Move) :
    ((start config last).run moves).Closing := by
  refine invariant_of_tracked config last ?_ (fun _ _ ht hc hchange => hc.change ht hchange) moves
  exact ⟨fun earlier x later hr => by simp [rounds, start] at hr, by simp [rounds, start]⟩

/-- Rounds that do not end the work take one task each. -/
theorem length_taken {rounds : List Round} (h : ∀ x ∈ rounds, x.turn.isEnd = false) :
    (rounds.flatMap (·.turn.taken)).length = rounds.length := by
  induction rounds with
  | nil => rfl
  | cons x rounds ih =>
    have hx : x.turn.taken.length = 1 := by
      have hend := h x List.mem_cons_self
      cases hturn : x.turn with
      | task around task => rfl
      | shutdown ticket rest => simp [hturn, Turn.isEnd] at hend
      | deserted => simp [hturn, Turn.isEnd] at hend
    rw [List.flatMap_cons, List.length_append, hx, ih fun y hy => h y (List.mem_cons_of_mem _ hy),
      List.length_cons, Nat.add_comm]

/-- A round takes the task that was posted at its own place, or ends the work and takes all that was
    posted from there on. -/
theorem taken_at (hc : h.Closing) (ht : h.Tracked) {earlier later : List Round} {x : Round}
    (hrounds : h.rounds = earlier ++ x :: later) :
    (∃ around task, x.turn = .task around task ∧ h.posted[earlier.length]? = some task) ∨
      (x.turn.isEnd = true ∧ later = [] ∧ x.turn.taken = h.posted.drop earlier.length) := by
  have hearlier : ∀ y ∈ earlier, y.turn.isEnd = false := by
    intro y hy
    by_contra he
    obtain ⟨l, m, rfl⟩ := List.append_of_mem hy
    have hnil := hc.last l y (m ++ x :: later) (by rw [hrounds]; simp) (by simpa using he)
    simp at hnil
  have hlength := length_taken hearlier
  have hposted : h.posted = earlier.flatMap (·.turn.taken) ++ (x.turn.taken ++
      (later.flatMap (·.turn.taken) ++ h.broker.queue.tasks)) := by
    simp [posted, hrounds]
  cases hend : x.turn.isEnd with
  | true =>
    have hnil := hc.last earlier x later hrounds hend
    have htasks := (ht.ended (hc.stopped x (by simp [hrounds]) hend)).1
    refine .inr ⟨rfl, hnil, ?_⟩
    rw [hposted, ← hlength, List.drop_left, hnil, htasks]
    simp
  | false =>
    cases hturn : x.turn with
    | shutdown ticket rest => simp [hturn, Turn.isEnd] at hend
    | deserted => simp [hturn, Turn.isEnd] at hend
    | task around task =>
      refine .inl ⟨around, task, rfl, ?_⟩
      rw [hposted, ← hlength, List.getElem?_append_right (Nat.le_refl _), Nat.sub_self, hturn]
      rfl

end History

end ContextBroker
