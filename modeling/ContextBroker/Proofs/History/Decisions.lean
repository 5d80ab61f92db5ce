import ContextBroker.Proofs.History.Tokens
import ContextBroker.Proofs.Worker.Deciding

set_option autoImplicit false

/-! # What decides the requests of a history

The worker of a history runs through the rounds that are written down in its log
(`History.run_rounds`), so the first round that decides a request gives its outcome. That a timeout
decides only the request that it was set for takes two things more: a timeout is taken only after
some round has set a timer for it (`History.Armed`), and no two rounds set timers for one
generation. -/

namespace ContextBroker

/-- Some round set a timer for the request with this token and generation. -/
def Armed (rounds : List Round) (t : Token) (generation : Nat) : Prop :=
  ∃ x ∈ rounds, ∃ id delay, .setTimer id delay t generation ∈ x.effects

theorem Armed.append {rounds : List Round} {t : Token} {generation : Nat}
    (h : Armed rounds t generation) (later : List Round) :
    Armed (rounds ++ later) t generation := by
  obtain ⟨x, hx, h⟩ := h
  exact ⟨x, List.mem_append_left _ hx, h⟩

/-- Every timeout that waits after effects waited before, or was set by one of them. -/
theorem ManualTimer.get?_keep {m : ManualTimer} {effects : List Effect} {id : TimerId} {t : Token}
    {generation : Nat} (h : (m.keep effects).waiting.get? id = some (t, generation)) :
    m.waiting.get? id = some (t, generation) ∨
      ∃ delay, .setTimer id delay t generation ∈ effects := by
  unfold keep at h
  induction effects generalizing m with
  | nil => exact .inl h
  | cons e effects ih =>
    rcases ih h with hm | ⟨delay, he⟩
    · cases e with
      | setTimer id' delay u g =>
        simp only [set, SortedMap.get?_insert] at hm
        by_cases hid : id = id'
        · rw [if_pos hid] at hm
          obtain ⟨rfl, rfl⟩ := Prod.mk.inj (Option.some.inj hm)
          exact .inr ⟨delay, by simp [hid]⟩
        · rw [if_neg hid] at hm
          exact .inl hm
      | _ => exact .inl hm
    · exact .inr ⟨delay, List.mem_cons_of_mem _ he⟩

theorem Broker.task_ne_timeout (b : Broker) (u : Underway) (t : Token) (generation : Nat) :
    b.task u ≠ .timeout t generation := by
  unfold task
  cases u.call <;> simp

theorem WorkQueue.tasks_post {q q' : WorkQueue} {task : Task} (h : q.post? task = some q') :
    q'.tasks = q.tasks ++ [task] ∧ q'.worker = q.worker := by
  unfold post? at h
  split at h
  · obtain rfl := Option.some.inj h
    exact ⟨rfl, rfl⟩
  · simp at h

/-- A turn takes its task from the queue, and adds none. -/
theorem WorkQueue.mem_tasks_of_turn? {q : WorkQueue} {around : Surroundings} {turn : Turn}
    (h : q.turn? around = some turn) :
    (∀ around' task, turn = .task around' task → task ∈ q.tasks) ∧
      ∀ w, ∀ task ∈ (q.after turn w).tasks, task ∈ q.tasks := by
  refine ⟨?_, ?_⟩
  · intro around' task ht
    subst ht
    unfold turn? at h
    split at h
    · simp at h
    · split at h
      · split at h <;> simp at h
      · simp at h
      · rename_i first rest _ hq
        cases h
        simp [hq]
  · intro w task hm
    unfold after at hm
    simp only at hm
    split at hm
    · simp at hm
    · exact List.mem_of_mem_tail hm

namespace History

/-! ## The rounds of a history -/

theorem run_change {h h' : History} (ht : h.Tracked) (hrun : h.broker.queue.worker.Run h.rounds)
    (hc : Change h h') : h'.broker.queue.worker.Run h'.rounds := by
  have hquiet : ∀ log c response, (log ++ [Event.responded c response]).filterMap (·.round?) =
      log.filterMap (·.round?) := by
    intro log c response
    simp [Event.round?]
  cases hc with
  | refused c response hr =>
    simp only [rounds, respond, hquiet]
    exact hrun
  | numbered u requester hu tokens ha => exact hrun.tokens tokens
  | begun u hu shuttingDown => exact hrun
  | posted n u hn queue hq =>
    simp only [rounds, respond, hquiet, (WorkQueue.tasks_post hq).2]
    exact hrun
  | givenUp n u hn =>
    simp only [rounds, respond, hquiet, Broker.giveUp]
    split
    · exact hrun.tokens _
    · exact hrun
  | held senders hub => exact hrun
  | worked around turn hturn s hs =>
    have hround := hrun.round (ht.round hturn hs)
    show s.1.Run (List.filterMap _ (h.log ++ [_]))
    rw [List.filterMap_append]
    exact hround
  | fell around turn hturn fault hs log => exact absurd hs (ht.no_fault hturn)
  | elapsed timer token generation timeouts htimer =>
    unfold rounds Broker.elapse WorkQueue.post
    cases hq : h.broker.queue.post? (.timeout token generation) with
    | none => exact hrun
    | some queue =>
      simp only [Option.getD_some, (WorkQueue.tasks_post hq).2]
      exact hrun

/-- The worker runs through the rounds of the history. -/
theorem run_rounds (config : Config) (last : Token) (moves : List Move) :
    let h := (start config last).run moves
    h.broker.queue.worker.Run h.rounds :=
  invariant_of_tracked (P := fun h => h.broker.queue.worker.Run h.rounds) config last (.start _)
    (fun _ _ => run_change) moves

/-- A history that is named need not be unfolded to know that. -/
theorem run_rounds_of_eq {h : History} {config : Config} {last : Token} {moves : List Move}
    (hh : h = (start config last).run moves) : h.broker.queue.worker.Run h.rounds := by
  subst hh
  exact run_rounds config last moves

/-! ## Timeouts -/

/-- Every timeout that waits, is queued or was taken was set in an earlier round. -/
structure Timely (h : History) : Prop where
  waiting (id : TimerId) (t : Token) (generation : Nat) :
    h.timeouts.waiting.get? id = some (t, generation) → Armed h.rounds t generation
  queued (t : Token) (generation : Nat) :
    .timeout t generation ∈ h.broker.queue.tasks → Armed h.rounds t generation
  taken (earlier : List Round) (x : Round) (later : List Round) :
    h.rounds = earlier ++ x :: later → ∀ around t generation,
      x.turn = .task around (.timeout t generation) → Armed earlier t generation

/-- What adds neither rounds nor timeouts keeps timeouts timely. -/
theorem Timely.quiet {h h' : History} (ht : h.Timely) (hrounds : h'.rounds = h.rounds)
    (hwaiting : h'.timeouts = h.timeouts)
    (hqueued : ∀ t generation, .timeout t generation ∈ h'.broker.queue.tasks →
      .timeout t generation ∈ h.broker.queue.tasks) : h'.Timely := by
  refine ⟨?_, ?_, ?_⟩
  · intro id t g hw
    rw [hrounds]
    rw [hwaiting] at hw
    exact ht.waiting id t g hw
  · intro t g hq
    rw [hrounds]
    exact ht.queued t g (hqueued t g hq)
  · intro earlier x later hr
    rw [hrounds] at hr
    exact ht.taken earlier x later hr

theorem rounds_respond (h : History) (c : Call) (r : Broker × Response) :
    (h.respond c r).rounds = h.rounds := by
  simp [rounds, respond, Event.round?]

theorem Timely.change {h h' : History} (ht : h.Timely) (htr : h.Tracked) (hc : Change h h') :
    h'.Timely := by
  cases hc with
  | refused c response hr => exact ht.quiet (rounds_respond h c _) rfl fun _ _ hq => hq
  | numbered u requester hu tokens ha => exact ht.quiet rfl rfl fun _ _ hq => hq
  | begun u hu shuttingDown => exact ht.quiet rfl rfl fun _ _ hq => hq
  | held senders hub => exact ht.quiet rfl rfl fun _ _ hq => hq
  | givenUp n u hn =>
    refine ht.quiet (rounds_respond _ _ _) rfl fun t g hq => ?_
    simp only [respond, Broker.giveUp] at hq
    split at hq <;> exact hq
  | posted n u hn queue hq =>
    refine ht.quiet (rounds_respond _ _ _) rfl fun t g hm => ?_
    have hm : Task.timeout t g ∈ queue.tasks := hm
    rw [(WorkQueue.tasks_post hq).1, List.mem_append, List.mem_singleton] at hm
    rcases hm with hm | hm
    · exact hm
    · exact absurd hm.symm (h.broker.task_ne_timeout u t g)
  | worked around turn hturn s hs =>
    have hrounds : rounds { h with broker.queue := h.broker.queue.after turn s.1
                                   timeouts := h.timeouts.keep s.2
                                   log := h.log ++
                                    [.worked ⟨h.broker.queue.worker, turn, s.1, s.2⟩] } =
        h.rounds ++ [⟨h.broker.queue.worker, turn, s.1, s.2⟩] := List.filterMap_append
    refine ⟨?_, ?_, ?_⟩
    · intro id t g hw
      rw [hrounds]
      rcases ManualTimer.get?_keep hw with hw | ⟨delay, he⟩
      · exact (ht.waiting id t g hw).append _
      · exact ⟨_, List.mem_append_right _ (List.mem_singleton_self _), id, delay, he⟩
    · intro t g hq
      rw [hrounds]
      exact (ht.queued t g ((WorkQueue.mem_tasks_of_turn? hturn).2 s.1 _ hq)).append _
    · intro earlier x later hr a t g hx
      rw [hrounds] at hr
      -- It is the round just taken, whose timeout was in the queue, or one before it.
      rcases append_cons_eq_concat hr.symm with ⟨-, rfl, rfl⟩ | ⟨later, -, hl⟩
      · exact ht.queued t g ((WorkQueue.mem_tasks_of_turn? hturn).1 a _ hx)
      · exact ht.taken earlier x later hl a t g hx
  | fell around turn hturn fault hs log => exact absurd hs (htr.no_fault hturn)
  | elapsed timer token generation timeouts htimer =>
    obtain ⟨x, hx, he⟩ := Option.map_eq_some_iff.1 htimer
    obtain ⟨rfl, hrest⟩ := Prod.mk.inj he
    obtain ⟨rfl, rfl⟩ := Prod.mk.inj hrest
    refine ⟨?_, ?_, ht.taken⟩
    · intro id t g hw
      simp only [SortedMap.get?_erase] at hw
      split at hw
      · simp at hw
      · exact ht.waiting id t g hw
    · intro t g hq
      unfold Broker.elapse WorkQueue.post at hq
      cases hp : h.broker.queue.post? (.timeout x.1 x.2) with
      | none =>
        rw [hp] at hq
        exact ht.queued t g hq
      | some queue =>
        simp only [hp, Option.getD_some, (WorkQueue.tasks_post hp).1, List.mem_append,
          List.mem_singleton, Task.timeout.injEq] at hq
        rcases hq with hq | ⟨rfl, rfl⟩
        · exact ht.queued t g hq
        · exact ht.waiting timer x.1 x.2 hx

theorem timely_run (config : Config) (last : Token) (moves : List Move) :
    ((start config last).run moves).Timely := by
  refine invariant_of_tracked config last ?_ (fun _ _ htr ht hc => ht.change htr hc) moves
  exact ⟨by simp [start], by simp [start], fun earlier x later hr => by simp [rounds, start] at hr⟩

/-! ## The decision -/

/-- **What decides a request.** A round that opens a request with something to poll delivers nothing
    for it, and sets the one timer there is for its generation. From then on, as long as no round
    decides the request, it stays open, changed by the answers it awaits and by nothing else, and
    nothing is delivered with its token; the first round that decides it closes it and delivers the
    outcome to its requester. -/
theorem first_decision (config : Config) (last : Token) (moves : List Move)
    (earlier later : List Round) (opening : Round) (around : Surroundings) (t : Token)
    (requester : Requester) (endpoint : String) (timeout : Nat)
    (hrounds : ((start config last).run moves).rounds = earlier ++ opening :: later)
    (hturn : opening.turn = .task around (.getContext t requester endpoint timeout))
    (hpolled : (opening.before.store.scatter around.retrievable endpoint).2 ≠ []) :
    ∃ r : Request, opening.after.requests.get? t = some r ∧
      r.requester = requester ∧ r.endpoint = endpoint ∧
      (∀ i, r.awaits i = true ↔
        i ∈ (opening.before.store.scatter around.retrievable endpoint).2.map (·.identity)) ∧
      deliveries t opening.effects = [] ∧
      -- A timeout with its token and its generation comes from its own timer.
      (∃ id, .setTimer id timeout t r.generation ∈ opening.effects) ∧
      (∀ y ∈ earlier ++ later, ∀ id delay u,
        ¬ .setTimer id delay u r.generation ∈ y.effects) ∧
      (∀ before x after, later = before ++ x :: after → ∀ a generation,
        x.turn = .task a (.timeout t generation) →
          Armed (earlier ++ opening :: before) t generation) ∧
      -- Until it is decided it is open, and the first round that decides it closes it.
      (Undecided t r later →
        ((start config last).run moves).broker.queue.worker.requests.get? t =
          some (follow t r later)) ∧
      ∀ before x after, later = before ++ x :: after → Undecided t r before →
        x.before.requests.get? t = some (follow t r before) ∧
        (∀ y ∈ before, deliveries t y.effects = []) ∧
        ∀ outcome, x.Decides t (follow t r before) outcome →
          x.after.requests.get? t = none ∧ deliveries t x.effects = [(requester, outcome)] := by
  have hrun := run_rounds config last moves
  simp only [hrounds] at hrun
  obtain ⟨hget, hquiet, htimer⟩ := hrun.split.2.opened hturn hpolled
  refine ⟨_, hget, rfl, rfl, ?_, hquiet, ⟨_, htimer⟩, ?_, ?_, ?_, ?_⟩
  · intro i
    exact SortedSet.mem_ofList
  · intro y hy id delay u
    exact hrun.setTimer_unique htimer hy id delay u
  · rintro before x after rfl a generation hx
    refine (timely_run config last moves).taken _ x after ?_ a t generation hx
    rw [hrounds]
    simp
  · exact fun hu => (hrun.undecided hget hu).1
  · rintro before x after rfl hu
    have heq : earlier ++ opening :: (before ++ x :: after) =
        earlier ++ opening :: before ++ x :: after := by simp
    rw [heq] at hrun
    obtain ⟨hopen, hbefore⟩ := hrun.split.1.undecided hget hu
    exact ⟨hopen, hbefore, fun outcome hd => hrun.decided hget hu hd⟩

/-- A request that nobody answers is decided by its timeout. -/
theorem first_decision_unanswered :
    let around : Surroundings := ⟨default, fun _ => true⟩
    let h := (start {} 0).run [.call 0 (.register ⟨"light", "power", none, ""⟩ 7 .pull),
      .call 1 (.getContext 3 "" 50), .work around, .work around, .elapse 1, .work around]
    ∃ x ∈ h.rounds, x.turn = .task around (.timeout 1 1) ∧
      deliveries 1 x.effects = [(3, .failure .timeout)] := by
  intro around h
  obtain ⟨x, y, z, hrounds, hturn, hpolled, hlast, hget⟩ : ∃ x y z, h.rounds = [x] ++ y :: [z] ∧
      y.turn = .task around (.getContext 1 3 "default" 50) ∧
      (y.before.store.scatter around.retrievable "default").2 ≠ [] ∧
      z.turn = .task around (.timeout 1 1) ∧
      (y.after.requests.get? 1).map (·.generation) = some 1 :=
    ⟨_, _, _, rfl, rfl, by decide, rfl, rfl⟩
  obtain ⟨r, hr, -, -, -, -, -, -, -, -, hdecide⟩ :=
    first_decision {} 0 _ [x] [z] y around 1 3 "default" 50 hrounds hturn hpolled
  rw [hr] at hget
  have hg : r.generation = 1 := Option.some.inj hget
  obtain ⟨-, -, hdecided⟩ := hdecide [] z [] rfl fun _ _ _ he => by simp at he
  refine ⟨z, by simp [hrounds], hlast, (hdecided _ (.timeout around ?_)).2⟩
  rw [hlast]
  exact congrArg (fun g => Turn.task around (.timeout 1 g)) hg.symm

end History

end ContextBroker
