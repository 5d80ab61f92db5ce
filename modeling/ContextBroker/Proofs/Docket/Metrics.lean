import ContextBroker.Proofs.Docket.Table
import ContextBroker.Proofs.Store.Flat
import ContextBroker.Proofs.Worker.Counting
import ContextBroker.Proofs.Worker.Draining

set_option autoImplicit false

/-! # What the metrics say

The metrics can be worked out from a docket and the pages that it came to, without looking at the
worker: from the tasks that were taken, the requests among all lines, and what was delivered
(`Docket.metrics_account`). They are right after every line, also while the rest of a queue is
turned down. Line by line this is `Accounts.takes`; what a single turn counts is in
`Worker.counts_turn`. -/

namespace ContextBroker

/-! ## What is bound, by the tasks that were taken -/

namespace Task

/-- Whether the task registers `i`. -/
def registers (i : Identity) : Task → Bool
  | register j .. => j = i
  | _ => false

/-- Whether the task unregisters `i`. -/
def unregisters (i : Identity) : Task → Bool
  | unregister j _ => j = i
  | _ => false

/-- Among the tasks is one that registers `i`, and none after it unregisters `i`. -/
def Bind (tasks : List Task) (i : Identity) : Prop :=
  ∃ before task after, tasks = before ++ task :: after ∧ task.registers i = true ∧
    ∀ u ∈ after, u.unregisters i = false

theorem bind_concat {tasks : List Task} {task : Task} {i : Identity} :
    Bind (tasks ++ [task]) i ↔
      task.registers i = true ∨ (Bind tasks i ∧ task.unregisters i = false) := by
  constructor
  · rintro ⟨before, u, after, heq, hu, hafter⟩
    rcases append_cons_eq_concat heq.symm with ⟨-, rfl, rfl⟩ | ⟨after, rfl, rfl⟩
    · exact .inl hu
    · refine .inr ⟨⟨before, u, after, rfl, hu, fun v hv => ?_⟩, hafter task (by simp)⟩
      exact hafter v (List.mem_append_left _ hv)
  · rintro (h | ⟨⟨before, u, after, rfl, hu, hafter⟩, h⟩)
    · exact ⟨tasks, task, [], rfl, h, by simp⟩
    · refine ⟨before, u, after ++ [task], by simp, hu, fun v hv => ?_⟩
      rcases List.mem_append.1 hv with hv | hv
      · exact hafter v hv
      · rw [List.mem_singleton.1 hv]
        exact h

/-- What a task does to the store, if it does anything. -/
def operation? (around : Surroundings) (accepted : Bool) : Task → Option Operation
  | register i provider kind _ => some (.register i provider kind)
  | unregister i _ => some (.unregister i)
  | setState i payload policy _ _ =>
    if accepted then some (.pushUnder i payload policy around.now) else none
  | pushState i sample _ | report i sample | respond i sample _ => some (.push i sample)
  | getContext _ _ endpoint _ => some (.scatter around.retrievable endpoint)
  | unavailable .. | timeout .. | read .. | metrics _ | shutdown _ => none

theorem write_eq (around : Surroundings) (accepted : Bool) (s : Store) (task : Task) :
    task.write around accepted s =
      ((task.operation? around accepted).map fun op => (op.onStore s).1).getD s := by
  have hwrite : ∀ r : Except CallError Store,
      r.toOption.getD s = (Operation.Result.ofWrite s r).1 := fun r => by cases r <;> rfl
  cases task with
  | unregister i ticket =>
    simp only [write, operation?, Operation.onStore, Option.map_some, Option.getD_some]
    cases s.unregister i <;> rfl
  | setState i payload policy token ticket =>
    cases accepted with
    | true => exact hwrite _
    | false => rfl
  | pushState | report | respond => exact hwrite _
  | _ => rfl

/-- A task binds what it registers and unbinds what it unregisters, and nothing else. -/
theorem isSome_write (around : Surroundings) (accepted : Bool) (s : Store) (task : Task)
    (i : Identity) :
    ((task.write around accepted s).get? i).isSome = true ↔
      task.registers i = true ∨ ((s.get? i).isSome = true ∧ task.unregisters i = false) := by
  rw [write_eq]
  cases task with
  | register j provider kind ticket =>
    simp only [operation?, Option.map_some, Option.getD_some, Operation.get?_onStore,
      Operation.rebind, registers, unregisters, decide_eq_true_eq, and_true]
    by_cases hj : i = j
    · simp [hj]
    · simp [hj, Ne.symm hj]
  | unregister j ticket =>
    simp only [operation?, Option.map_some, Option.getD_some, Operation.get?_onStore,
      Operation.rebind, registers, unregisters, Bool.false_eq_true, false_or,
      decide_eq_false_iff_not]
    by_cases hj : i = j
    · simp [hj]
    · simp [hj, Ne.symm hj]
  | setState j payload policy token ticket =>
    cases accepted with
    | false => simp [operation?, registers, unregisters]
    | true =>
      simp only [operation?, if_true, Option.map_some, Option.getD_some, Operation.get?_onStore,
        Operation.rebind, registers, unregisters, Bool.false_eq_true, false_or, and_true]
      split <;> simp
  | pushState | report | respond | getContext =>
    simp only [operation?, Option.map_some, Option.getD_some, Operation.get?_onStore,
      Operation.rebind, registers, unregisters, Bool.false_eq_true, false_or, and_true]
    split <;> simp
  | _ => simp [operation?, registers, unregisters]

end Task

/-! ## Reported metrics -/

theorem mem_replied {es : List Effect} {ticket : Ticket} {reply : Reply}
    (h : .reply ticket reply ∈ es) : .reply ticket reply ∈ replied es :=
  List.mem_filter.2 ⟨h, rfl⟩

/-- Unless tasks are left to be turned down, metrics are reported in answer to one task only, and
    as they are after it. -/
theorem Worker.metrics_turn {w : Worker} {turn : Turn} {s : Step} (h : w.turn turn = .ok s)
    (hrest : ∀ last rest, turn = .shutdown last rest → rest = []) {ticket : Ticket} {m : Metrics}
    (he : .reply ticket (.metrics m) ∈ s.2) : m = s.1.metrics := by
  have hm := mem_replied he
  have hstop : ∀ (w : Worker) last,
      ¬ .reply ticket (.metrics m) ∈ replied (w.stop [] last).2 := by
    intro w last
    rw [(w.stop_endsWork [] last).replied]
    simp
  cases turn with
  | task around task =>
    rw [replied_turn h] at hm
    cases task with
    | metrics u =>
      obtain rfl := Except.ok.inj h
      simp only [Task.replies, List.mem_singleton, Effect.reply.injEq, Reply.metrics.injEq] at hm
      exact hm.2
    | _ => simp [Task.replies] at hm
  | shutdown last rest =>
    obtain rfl := hrest last rest rfl
    obtain rfl := Except.ok.inj h
    exact absurd hm (hstop _ last)
  | deserted =>
    obtain rfl := Except.ok.inj h
    exact absurd hm (hstop _ none)

/-! ## Journals -/

/-- The task that the worker takes from a line, unless it has ended its work. -/
def Desk.task? (d : Desk) (line : Docket.Line) : Option Task :=
  if d.ended then none
  else
    match line with
    | .task _ task => some task
    | .elapsed _ n => (d.opened n).map fun x => .timeout x.1 x.2
    | .deserted | .blank => none

namespace Docket

/-- Lines with the pages that they came to. -/
abbrev Journal := List (Line × Page)

namespace Journal

/-- All that the worker asked for. -/
def effects (j : Journal) : List Effect := j.flatMap (·.2.effects)

/-- The tasks that the worker took before it ended its work. -/
def tasks (j : Journal) : List Task := j.filterMap fun x => x.2.before.task? x.1

/-- The requests, also those that were turned down. -/
def requests (j : Journal) : List (Token × Requester) := j.filterMap (·.1.request?)

/-- The number of answers that the worker took with the token of no request that was open then. -/
def late (j : Journal) : Nat :=
  j.countP fun x => (x.2.before.task? x.1).any (·.isLate x.2.before.worker)

end Journal

/-- The worker has counted what the journal says. -/
structure Accounts (j : Journal) (w : Worker) : Prop where
  completed : w.counters.completed = j.effects.countP (·.isSuccess)
  failed : w.counters.failed = j.effects.countP (·.isFailure)
  timeouts : w.counters.timeouts = j.effects.countP (·.isTimeout)
  requests : w.counters.completed + w.counters.failed + w.requests.size = j.requests.length
  stale : w.counters.stale = j.late
  tasks : w.counters.tasks = j.tasks.length
  bound (i : Identity) : (w.store.get? i).isSome = true ↔ Task.Bind j.tasks i

namespace Accounts

variable {j : Journal} {line : Line} {d d' : Desk} {effects : List Effect}

theorem start : Accounts [] {} := by
  refine ⟨rfl, rfl, rfl, rfl, rfl, rfl, fun i => ?_⟩
  constructor
  · intro h
    simp [Store.get?, Store.bindings] at h
  · rintro ⟨before, task, after, h, -⟩
    simp [Journal.tasks] at h

/-- One line more, once its task is counted. -/
theorem concat {w : Worker} (h : Accounts j d.worker)
    (hcounters : w.counters = { d.worker.counters with
      tasks := d.worker.counters.tasks + (d.task? line).toList.length })
    (htable : w.requests = d.worker.requests)
    (hc : w.Counts line.request?.toList.length
      (if (d.task? line).any (·.isLate d.worker) then 1 else 0) (d'.worker, effects))
    (hbound : ∀ i, (d'.worker.store.get? i).isSome = true ↔
      Task.Bind (j.tasks ++ (d.task? line).toList) i) :
    Accounts (j ++ [(line, ⟨d, effects, d'⟩)]) d'.worker := by
  have heffects : Journal.effects (j ++ [(line, ⟨d, effects, d'⟩)]) = j.effects ++ effects := by
    simp [Journal.effects]
  have htasks : Journal.tasks (j ++ [(line, ⟨d, effects, d'⟩)]) =
      j.tasks ++ (d.task? line).toList := by
    simp only [Journal.tasks, List.filterMap_append]
    cases ht : d.task? line <;> simp [ht]
  have hrequests : Journal.requests (j ++ [(line, ⟨d, effects, d'⟩)]) =
      j.requests ++ line.request?.toList := by
    simp only [Journal.requests, List.filterMap_append]
    cases hr : line.request? <;> simp [hr]
  have hlate : Journal.late (j ++ [(line, ⟨d, effects, d'⟩)]) =
      j.late + if (d.task? line).any (·.isLate d.worker) then 1 else 0 := by
    simp only [Journal.late, List.countP_append, List.countP_singleton]
  have hcompleted := hc.completed
  have hfailed := hc.failed
  have hsettled := hc.settled
  have hbefore := h.requests
  rw [hcounters] at hcompleted hfailed
  rw [htable] at hsettled
  refine ⟨?_, ?_, ?_, ?_, ?_, ?_, ?_⟩
  · rw [heffects, List.countP_append, ← h.completed]
    exact hcompleted
  · rw [heffects, List.countP_append, ← h.failed]
    exact hfailed
  · rw [heffects, List.countP_append, ← h.timeouts]
    exact hc.timeouts.trans (by rw [hcounters])
  · -- What was open or taken in is open or delivered.
    rw [hrequests, List.length_append]
    simp only at hcompleted hfailed hsettled
    omega
  · rw [hlate, ← h.stale]
    exact hc.stale.trans (by rw [hcounters])
  · rw [htasks, List.length_append, ← h.tasks]
    exact hc.tasks.trans (by rw [hcounters])
  · rw [htasks]
    exact hbound

/-- A line that is turned down counts the request on it. -/
theorem counts_reject (line : Line) (w : Worker) :
    w.Counts line.request?.toList.length 0 (line.reject w) := by
  cases line with
  | task around task =>
    have h := w.counts_reject task
    rwa [requested_cons, requested_nil, List.append_nil] at h
  | elapsed | deserted | blank => exact .nothing w

/-- The turn for a line takes the task of the line, or it is the end of the work. -/
theorem task?_cases {turn : Turn} (he : d.ended = false)
    (hl : line.turn? d.opened = some turn) :
    (∃ around task, turn = .task around task ∧ d.task? line = some task) ∨
    (∃ ticket, turn = .shutdown none [] ∧ d.task? line = some (.shutdown ticket)) ∨
    (turn = .deserted ∧ d.task? line = none) := by
  simp only [Desk.task?, he, Bool.false_eq_true, if_false]
  cases line with
  | blank => simp [Line.turn?] at hl
  | deserted =>
    obtain rfl := Option.some.inj hl
    exact .inr (.inr ⟨rfl, rfl⟩)
  | elapsed around n =>
    obtain ⟨x, hx, rfl⟩ := Option.map_eq_some_iff.1 hl
    exact .inl ⟨around, _, rfl, by simp only [hx, Option.map_some]⟩
  | task around task =>
    cases task with
    | shutdown ticket =>
      obtain rfl := Option.some.inj hl
      exact .inr (.inl ⟨ticket, rfl, rfl⟩)
    | _ =>
      obtain rfl := Option.some.inj hl
      exact .inl ⟨around, _, rfl, rfl⟩

theorem task?_eq_none (hl : line.turn? d.opened = none) : d.task? line = none := by
  unfold Desk.task?
  split
  · rfl
  · cases line with
    | task around task => cases task <;> simp [Line.turn?] at hl
    | elapsed around m => simpa [Line.turn?] using hl
    | deserted | blank => rfl

/-- Every line keeps the accounts. -/
theorem takes {n : Nat} (h : Accounts j d.worker) (ht : d.Takes n line d' effects) :
    Accounts (j ++ [(line, ⟨d, effects, d'⟩)]) d'.worker := by
  cases ht with
  | rejected tokens he =>
    have hnone : d.task? line = none := if_pos he
    refine h.concat (w := { d.worker with tokens }) ?_ rfl ?_ fun i => ?_
    · rw [hnone]
      rfl
    · rw [hnone]
      exact counts_reject line _
    · rw [hnone, Option.toList_none, List.append_nil, Line.store_reject]
      exact h.bound i
  | skipped tokens he hl =>
    have hnone := task?_eq_none hl
    refine h.concat (w := { d.worker with tokens }) ?_ rfl ?_ fun i => ?_
    · rw [hnone]
      rfl
    · rw [hnone, Line.request?_eq_none hl]
      exact .nothing _
    · rw [hnone, Option.toList_none, List.append_nil]
      exact h.bound i
  | round tokens he turn hl w effects hx =>
    have hc := Worker.counts_turn hx.turn
    have hstore := hx.leaves.store
    simp only [Line.requests_turn? hl] at hc hstore
    rcases task?_cases he hl with ⟨around, task, rfl, htask⟩ | ⟨ticket, rfl, htask⟩ | ⟨rfl, htask⟩
    · refine h.concat (w := Worker.begin { d.worker with tokens } (.task around task))
        (by rw [htask]; rfl) rfl (by rw [htask]; exact hc) fun i => ?_
      rw [htask, Option.toList_some, Task.bind_concat, ← h.bound i, hstore]
      exact Task.isSome_write around _ _ task i
    · refine h.concat (w := Worker.begin { d.worker with tokens } (.shutdown none []))
        (by rw [htask]; rfl) rfl (by rw [htask]; exact hc) fun i => ?_
      rw [htask, Option.toList_some, Task.bind_concat, ← h.bound i, hstore]
      simp [Turn.write, Task.registers, Task.unregisters]
    · refine h.concat (w := Worker.begin { d.worker with tokens } .deserted)
        (by rw [htask]; rfl) rfl (by rw [htask]; exact hc) fun i => ?_
      rw [htask, Option.toList_none, List.append_nil, ← h.bound i, hstore]
      rfl

end Accounts

/-! ## Metrics -/

/-- Metrics are reported as they are once the line is done with. -/
theorem metrics_reported {d d' : Desk} {n : Nat} {line : Line} {effects : List Effect}
    (ht : d.Takes n line d' effects) {ticket : Ticket} {m : Metrics}
    (he : .reply ticket (.metrics m) ∈ effects) : m = d'.worker.metrics := by
  cases ht with
  | rejected tokens =>
    have hm := mem_replied he
    cases line with
    | task around task =>
      rw [Line.reject, Worker.replied_reject] at hm
      cases task with
      | metrics u =>
        simp only [Task.refusal, List.mem_singleton, Effect.reply.injEq, Reply.metrics.injEq] at hm
        exact hm.2
      | _ => simp [Task.refusal] at hm
    | _ => simp [Line.reject] at he
  | skipped tokens => simp at he
  | round tokens he' turn hl w effects hx =>
    refine Worker.metrics_turn hx.turn ?_ he
    rintro last rest rfl
    cases line with
    | task around task =>
      cases task with
      | shutdown ticket => exact (Turn.shutdown.inj (Option.some.inj hl)).2.symm
      | _ => simp [Line.turn?] at hl
    | elapsed around m => simp [Line.turn?] at hl
    | deserted | blank => simp [Line.turn?] at hl

/-- **Metrics account for everything.** After every line, whether the work goes on or has ended, the
    metrics are those that the lines so far came to. Every context and every failure that was
    delivered is counted, and timeouts among the failures are counted once more; requests that
    neither was delivered for are open. Late are the answers with the token of no request that was
    open when they were taken, and tasks are counted until the work ends, the one that ends it
    included. Bound is what was registered and not unregistered since. Whoever asks for the metrics
    is told just these. -/
theorem metrics_account {others : Nat → TokenAllocator → TokenAllocator} {docket : Docket}
    {pages : List Page} (h : work others docket = .ok pages) {n : Nat} {p : Page}
    (hp : pages[n]? = some p) :
    let j : Journal := (docket.zip pages).take (n + 1)
    let m := p.after.worker.metrics
    m.counters.completed = j.effects.countP (·.isSuccess) ∧
    m.counters.failed = j.effects.countP (·.isFailure) ∧
    m.counters.timeouts = j.effects.countP (·.isTimeout) ∧
    m.counters.completed + m.counters.failed + m.pending = j.requests.length ∧
    m.counters.stale = j.late ∧
    m.counters.tasks = j.tasks.length ∧
    (∃ bound : List Identity, bound.Nodup ∧ (∀ i, i ∈ bound ↔ Task.Bind j.tasks i) ∧
      m.registered = bound.length) ∧
    ∀ ticket m', .reply ticket (.metrics m') ∈ p.effects → m' = m := by
  intro j m
  obtain ⟨-, ho, haccounts⟩ := work_induct (P := fun n d => d.Orderly ∧
      Accounts ((docket.zip pages).take n) d.worker) h
    ⟨⟨.start _, fun t _ => rfl⟩, .start⟩
    (fun n p line hpage hline htake ⟨ho, ha⟩ => by
      refine ⟨ho.takes (Desk.takes htake), ?_⟩
      have hentry : (docket.zip pages)[n]? = some (line, p) :=
        List.getElem?_zip_eq_some.2 ⟨hline, hpage⟩
      rw [List.take_add_one, hentry]
      exact ha.takes (Desk.takes htake)) hp
  obtain ⟨line, -, htake⟩ := work_take h hp
  have hfiled := ho.table.filed
  refine ⟨haccounts.completed, haccounts.failed, haccounts.timeouts, haccounts.requests,
    haccounts.stale, haccounts.tasks,
    ⟨p.after.worker.store.entries.map (·.1), ?_, fun i => ?_, ?_⟩, fun ticket m' he => ?_⟩
  · refine List.Nodup.map_on ?_ (Store.nodup_entries hfiled)
    rintro ⟨i, b⟩ hi ⟨j, c⟩ hj rfl
    rw [Store.mem_entries hfiled] at hi hj
    rw [Option.some.inj (hi.symm.trans hj)]
  · rw [← haccounts.bound i, Option.isSome_iff_exists]
    simp only [List.mem_map, Prod.exists, exists_and_right, exists_eq_right,
      Store.mem_entries hfiled]
  · rw [List.length_map]
    exact Store.size_eq_length _
  · exact metrics_reported (Desk.takes htake) he

/-- One request is answered, and once more; a second one is still open when the work ends, and a
    third one is in the queue by then. -/
theorem metrics_account_shutdown :
    let around : Surroundings := ⟨default, fun _ => true⟩
    let light : Identity := ⟨"light", "power", none, "home"⟩
    let docket : Docket := [.task around (.register light 7 .pull 0),
      .task around (.getContext 1 3 "home" 50), .task around (.respond light default 1),
      .task around (.respond light default 1), .task around (.getContext 2 3 "home" 50),
      .task around (.shutdown (some 1)), .task around (.getContext 3 4 "home" 50),
      .task around (.metrics 2)]
    ∃ pages p, work (fun _ => id) docket = .ok pages ∧ pages[7]? = some p ∧
      p.after.worker.metrics = ⟨1, 0, ⟨1, 2, 0, 1, 6⟩⟩ ∧
      Journal.late (docket.zip pages) = 1 ∧
      (Journal.effects (docket.zip pages)).countP (·.isFailure) = 2 ∧
      ∃ i, ∀ j, Task.Bind (Journal.tasks (docket.zip pages)) j ↔ j = i := by
  intro around light docket
  have hrun : ((work (fun _ => id) docket).toOption.bind fun pages => pages[7]?.map fun p =>
      (p.after.worker.metrics, pages.length)) = some (⟨1, 0, ⟨1, 2, 0, 1, 6⟩⟩, 8) := by
    decide +kernel
  simp only [Option.bind_eq_some_iff, Option.map_eq_some_iff, Prod.mk.injEq] at hrun
  obtain ⟨pages, hpages, p, hp, hmetrics, hlength⟩ := hrun
  have hwork := work_of_toOption hpages
  have hall : (docket.zip pages).take (7 + 1) = docket.zip pages :=
    List.take_of_length_le (by rw [List.length_zip, hlength]; decide)
  obtain ⟨-, hfailed, -, -, hstale, -, ⟨bound, -, hbind, hregistered⟩, -⟩ :=
    metrics_account hwork hp
  rw [hall, hmetrics] at hfailed hstale
  rw [hmetrics] at hregistered
  obtain ⟨i, rfl⟩ := List.length_eq_one_iff.1 hregistered.symm
  refine ⟨pages, p, hwork, hp, hmetrics, hstale.symm, hfailed.symm, i, fun j => ?_⟩
  rw [← hall, ← hbind, List.mem_singleton]

end Docket

end ContextBroker
