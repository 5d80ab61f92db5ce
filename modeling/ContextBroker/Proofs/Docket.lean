import ContextBroker.Proofs.WorkQueue.InFlight
import ContextBroker.Proofs.Worker.Run

set_option autoImplicit false

/-! # Dockets

A `Docket` is all that the worker is given, line by line: tasks, timeouts that elapse, and the word
that nobody is left who could post. Lines are counted from zero, and a timeout is told by the line
of the request that it was set for. So a line may be blanked out and all others keep their meaning,
although later requests get other generations.

A `Desk` is a worker at work on a docket, and `Docket.work` gives a page for each line, with the
desk before and after it and the effects. A request whose token is open breaks a rule, and then
there are no pages. Between the lines others may do to the allocator what they like. A queue is
worked through in just this way (`WorkQueue.take?_eq_take`, `WorkQueue.take?_eq_work`). -/

namespace ContextBroker

namespace Docket

/-- A line of a docket. -/
inductive Line
  /-- A task, with what the worker finds around it. -/
  | task (around : Surroundings) (task : Task)
  /-- The timeout elapsed that was set for the request on line `line`. -/
  | elapsed (around : Surroundings) (line : Nat)
  /-- Nobody is left who could post. -/
  | deserted
  | blank

/-- Which request was opened on a line: its token and its generation. -/
abbrev Register := Nat → Option (Token × Nat)

namespace Line

/-- The turn that the worker takes for a line. Whoever asked for the end is answered only once the
    rest was turned down, so not on the line that ends the work. -/
def turn? (opened : Register) : Line → Option Turn
  | task _ (.shutdown _) => some (.shutdown none [])
  | task around x => some (.task around x)
  | elapsed around line => (opened line).map fun x => .task around (.timeout x.1 x.2)
  | deserted => some .deserted
  | blank => none

/-- Turns a line down. -/
def reject (line : Line) (w : Worker) : Worker.Step :=
  match line with
  | task _ x => w.reject x
  | elapsed .. | deserted | blank => (w, [])

/-- The request on a line. -/
def request? : Line → Option (Token × Requester)
  | task _ x => x.request?
  | elapsed .. | deserted | blank => none

/-- Writes down the request that was opened on line `n` under a generation. -/
def enter (line : Line) (n generation : Nat) (opened : Register) : Register :=
  match line.request? with
  | some (t, _) => fun m => if m = n then some (t, generation) else opened m
  | none => opened

end Line

end Docket

/-- What the worker is given, line by line. -/
abbrev Docket := List Docket.Line

/-- A worker at work on a docket. -/
structure Desk where
  worker : Worker := {}
  /-- Whether the work has ended, so that all else is turned down. -/
  ended : Bool := false
  opened : Docket.Register := fun _ => none

/-- Takes line `n`, after others have changed the allocator. -/
def Desk.take (d : Desk) (others : TokenAllocator → TokenAllocator) (n : Nat)
    (line : Docket.Line) : Except Fault (Desk × List Effect) :=
  let w := { d.worker with tokens := others d.worker.tokens }
  if d.ended then .ok ({ d with worker := (line.reject w).1 }, (line.reject w).2)
  else
    match line.turn? d.opened with
    | none => .ok ({ d with worker := w }, [])
    | some turn =>
      match w.turn turn with
      | .error fault => .error fault
      | .ok (worker, effects) =>
        .ok (⟨worker, turn.isEnd, line.enter n worker.generation d.opened⟩, effects)

namespace Docket

/-- What a line came to. -/
structure Page where
  before : Desk
  effects : List Effect
  after : Desk

/-- Works through the lines from line `n` on. -/
def workFrom (others : Nat → TokenAllocator → TokenAllocator) (n : Nat) (d : Desk) :
    Docket → Except Fault (List Page)
  | [] => .ok []
  | line :: rest =>
    match d.take (others n) n line with
    | .error fault => .error fault
    | .ok (d', effects) =>
      match workFrom others (n + 1) d' rest with
      | .error fault => .error fault
      | .ok pages => .ok (⟨d, effects, d'⟩ :: pages)

/-- Works through a docket with a new worker. `others n` is what others do to the allocator before
    line `n`. -/
def work (others : Nat → TokenAllocator → TokenAllocator) (docket : Docket) :
    Except Fault (List Page) :=
  workFrom others 0 {} docket

end Docket

/-- What is left of a queue is turned down from its front. -/
theorem Worker.drain_cons (w : Worker) (task : Task) (rest : List Task) :
    w.drain (task :: rest) = andThen (w.reject task) (·.drain rest) := by
  induction rest using List.reverseRecOn with
  | nil => simp [drain, andThen]
  | append_singleton rest x ih =>
    rw [← List.cons_append, drain_append_singleton, ih]
    simp only [andThen, drain_append_singleton, List.append_assoc]

/-! ## What a line can do -/

/-- A task that breaks no rule is no request with the token of an open one. -/
theorem Worker.closed_of_turn {w : Worker} {around : Surroundings} {task : Task} {s : Worker.Step}
    (h : w.turn (.task around task) = .ok s) {t : Token} {requester : Requester}
    (ht : task.request? = some (t, requester)) : w.requests.get? t = none := by
  cases task with
  | getContext u q endpoint timeout =>
    obtain ⟨rfl, -⟩ := Prod.mk.inj (Option.some.inj ht)
    simp only [turn, handle] at h
    split at h
    · cases h
    · rename_i hc
      rwa [SortedMap.contains_eq_isSome, Option.not_isSome_iff_eq_none] at hc
  | _ => simp [Task.request?] at ht

namespace Docket.Line

variable {line : Line} {opened : Register} {turn : Turn}

/-- The turn for a line takes the request on it. -/
theorem requests_turn? (h : line.turn? opened = some turn) :
    turn.requests = line.request?.toList := by
  cases line with
  | task around task =>
    cases task with
    | shutdown ticket =>
      obtain rfl := Option.some.inj h
      rfl
    | _ =>
      obtain rfl := Option.some.inj h
      simp [Turn.requests, requested_cons, request?]
  | elapsed around m =>
    obtain ⟨x, -, rfl⟩ := Option.map_eq_some_iff.1 h
    rfl
  | deserted =>
    obtain rfl := Option.some.inj h
    rfl
  | blank => simp [turn?] at h

/-- The request on a line has a token of its own if no open request has it. -/
theorem distinct (h : line.turn? opened = some turn) {w : Worker}
    (hw : ∀ t requester, line.request? = some (t, requester) → w.requests.get? t = none) :
    turn.Distinct w := by
  constructor
  · rw [Turn.tokens, requests_turn? h]
    cases line.request? <;> simp
  · intro t ht
    rw [Turn.tokens, requests_turn? h] at ht
    cases hr : line.request? with
    | none => simp [hr] at ht
    | some x =>
      obtain rfl : t = x.1 := by simpa [hr] using ht
      exact hw x.1 x.2 hr

/-- A turn that breaks no rule has its request apart from the open ones. -/
theorem distinct_of_turn (h : line.turn? opened = some turn) {w : Worker} {s : Worker.Step}
    (hs : w.turn turn = .ok s) : turn.Distinct w := by
  refine distinct h fun t requester ht => ?_
  cases turn with
  | task around task =>
    have hr := requests_turn? h
    have hq : task.request? = some (t, requester) := by
      rw [ht] at hr
      cases hq : task.request? with
      | none => simp [Turn.requests, requested_cons, hq] at hr
      | some x => simpa [Turn.requests, requested_cons, hq] using hr
    exact w.closed_of_turn hs hq
  | shutdown ticket rest =>
    cases line with
    | task around task => cases task <;> simp [turn?, request?, Task.request?] at h ht
    | _ => simp [request?] at ht
  | deserted =>
    have hr := requests_turn? h
    simp [ht, Turn.requests] at hr

end Docket.Line

namespace Desk

open Docket

/-- All that taking a line can do: turn it down, nothing, or a round of the worker. -/
inductive Takes (d : Desk) (n : Nat) (line : Line) : Desk → List Effect → Prop
  | rejected (tokens : TokenAllocator) (he : d.ended = true) :
      Takes d n line { d with worker := (line.reject { d.worker with tokens }).1 }
        (line.reject { d.worker with tokens }).2
  | skipped (tokens : TokenAllocator) (he : d.ended = false) (hl : line.turn? d.opened = none) :
      Takes d n line { d with worker.tokens := tokens } []
  | round (tokens : TokenAllocator) (he : d.ended = false) (turn : Turn)
      (hl : line.turn? d.opened = some turn) (w : Worker) (effects : List Effect)
      (hx : Round.Sound ⟨{ d.worker with tokens }, turn, w, effects⟩) :
      Takes d n line ⟨w, turn.isEnd, line.enter n w.generation d.opened⟩ effects

variable {d d' : Desk} {others : TokenAllocator → TokenAllocator} {n : Nat} {line : Line}
  {effects : List Effect}

theorem takes (h : d.take others n line = .ok (d', effects)) : d.Takes n line d' effects := by
  unfold take at h
  by_cases he : d.ended = true
  · simp only [he, if_true, Except.ok.injEq, Prod.mk.injEq] at h
    obtain ⟨rfl, rfl⟩ := h
    rw [← he]
    exact .rejected _ he
  · have he : d.ended = false := by simpa using he
    simp only [he, Bool.false_eq_true, if_false] at h
    cases hl : line.turn? d.opened with
    | none =>
      simp only [hl, Except.ok.injEq, Prod.mk.injEq] at h
      obtain ⟨rfl, rfl⟩ := h
      rw [← he]
      exact .skipped _ he hl
    | some turn =>
      rw [hl] at h
      cases hs : Worker.turn { d.worker with tokens := others d.worker.tokens } turn with
      | error fault => simp [hs] at h
      | ok s =>
        simp only [hs, Except.ok.injEq, Prod.mk.injEq] at h
        obtain ⟨rfl, rfl⟩ := h
        exact .round _ he turn hl _ _ ⟨hs, Line.distinct_of_turn hl hs⟩

/-- A line breaks no rule if its request, should it have one, has the token of no open request. -/
theorem take_ok (d : Desk) (others : TokenAllocator → TokenAllocator) (n : Nat) (line : Line)
    (hl : ∀ t requester, line.request? = some (t, requester) →
      d.worker.requests.get? t = none) :
    ∃ d' effects, d.take others n line = .ok (d', effects) := by
  unfold take
  by_cases he : d.ended = true
  · simp only [he, if_true]
    exact ⟨_, _, rfl⟩
  · have he : d.ended = false := by simpa using he
    simp only [he, Bool.false_eq_true, if_false]
    cases hturn : line.turn? d.opened with
    | none => exact ⟨_, _, rfl⟩
    | some turn =>
      obtain ⟨s, hs⟩ := Worker.turn_ok
        (Line.distinct (w := { d.worker with tokens := others d.worker.tokens }) hturn hl)
      simp only [hs]
      exact ⟨_, _, rfl⟩

end Desk

/-! ## From line to line -/

namespace Docket

variable {others : Nat → TokenAllocator → TokenAllocator} {docket : Docket} {pages : List Page}

theorem workFrom_cons {n : Nat} {d : Desk} {line : Line}
    (h : workFrom others n d (line :: docket) = .ok pages) :
    ∃ d' effects rest, d.take (others n) n line = .ok (d', effects) ∧
      workFrom others (n + 1) d' docket = .ok rest ∧ pages = ⟨d, effects, d'⟩ :: rest := by
  unfold workFrom at h
  split at h
  · cases h
  · rename_i d' effects htake
    split at h
    · cases h
    · rename_i rest hrest
      exact ⟨d', effects, rest, htake, hrest, (Except.ok.inj h).symm⟩

/-- That a docket can be worked through may be found out by doing it. -/
theorem work_of_toOption (h : (work others docket).toOption = some pages) :
    work others docket = .ok pages := by
  cases hw : work others docket with
  | error fault => simp [hw, Except.toOption] at h
  | ok pages' => simpa [hw, Except.toOption] using h

theorem workFrom_length {n : Nat} {d : Desk} (h : workFrom others n d docket = .ok pages) :
    pages.length = docket.length := by
  induction docket generalizing n d pages with
  | nil =>
    obtain rfl := Except.ok.inj h
    rfl
  | cons line docket ih =>
    obtain ⟨d', effects, rest, -, hrest, rfl⟩ := workFrom_cons h
    simp [ih hrest]

/-- What holds of the first desk and is kept line by line holds before and after every line. -/
theorem workFrom_induct {P : Nat → Desk → Prop} {n : Nat} {d : Desk}
    (h : workFrom others n d docket = .ok pages) (start : P n d)
    (step : ∀ k p line, pages[k]? = some p → docket[k]? = some line →
      p.before.take (others (n + k)) (n + k) line = .ok (p.after, p.effects) →
      P (n + k) p.before → P (n + k + 1) p.after) :
    ∀ k p, pages[k]? = some p → ∃ line, docket[k]? = some line ∧
      p.before.take (others (n + k)) (n + k) line = .ok (p.after, p.effects) ∧
      P (n + k) p.before ∧ P (n + k + 1) p.after := by
  induction docket generalizing n d pages with
  | nil =>
    obtain rfl := Except.ok.inj h
    intro k p hp
    simp at hp
  | cons line docket ih =>
    obtain ⟨d', effects, rest, htake, hrest, rfl⟩ := workFrom_cons h
    have hnext : P (n + 1) d' := step 0 ⟨d, effects, d'⟩ line rfl rfl htake start
    intro k p hp
    cases k with
    | zero =>
      obtain rfl : (⟨d, effects, d'⟩ : Page) = p := by simpa using hp
      exact ⟨line, rfl, htake, start, hnext⟩
    | succ k =>
      have hk : n + (k + 1) = n + 1 + k := by omega
      rw [hk]
      refine ih hrest hnext (fun j q line' hq hline htake' hP => ?_) k p (by simpa using hp)
      have hj : n + 1 + j = n + (j + 1) := by omega
      rw [hj] at htake' hP ⊢
      exact step (j + 1) q line' (by simpa using hq) (by simpa using hline) htake' hP

/-- What holds of a new desk and is kept line by line holds before and after every line. -/
theorem work_induct {P : Nat → Desk → Prop} (h : work others docket = .ok pages) (start : P 0 {})
    (step : ∀ n p line, pages[n]? = some p → docket[n]? = some line →
      p.before.take (others n) n line = .ok (p.after, p.effects) → P n p.before →
      P (n + 1) p.after) {n : Nat} {p : Page} (hp : pages[n]? = some p) :
    P n p.before ∧ P (n + 1) p.after := by
  have h := workFrom_induct (P := P) h start (by simpa using step) n p hp
  simp only [Nat.zero_add] at h
  obtain ⟨line, -, -, h⟩ := h
  exact h

/-- Every page comes from taking its line. -/
theorem work_take (h : work others docket = .ok pages) {n : Nat} {p : Page}
    (hp : pages[n]? = some p) :
    ∃ line, docket[n]? = some line ∧
      p.before.take (others n) n line = .ok (p.after, p.effects) := by
  have h := workFrom_induct (P := fun _ _ => True) h trivial (fun _ _ _ _ _ _ _ => trivial) n p hp
  simp only [Nat.zero_add] at h
  obtain ⟨line, hline, htake, -⟩ := h
  exact ⟨line, hline, htake⟩

/-- A second docket can be worked through beside the first, line by line, if each line leads from
    two desks that are related to two that are. -/
theorem workFrom_beside {R : Nat → Desk → Desk → Prop} {Q : Nat → Page → Page → Prop} {n : Nat}
    {d d' : Desk} (h : workFrom others n d docket = .ok pages) (docket' : Docket)
    (hlength : docket'.length = docket.length)
    (others' : Nat → TokenAllocator → TokenAllocator) (start : R n d d')
    (step : ∀ k p line line' d', pages[k]? = some p → docket[k]? = some line →
      docket'[k]? = some line' →
      p.before.take (others (n + k)) (n + k) line = .ok (p.after, p.effects) →
      R (n + k) p.before d' → ∃ d'' effects,
        d'.take (others' (n + k)) (n + k) line' = .ok (d'', effects) ∧
        R (n + k + 1) p.after d'' ∧ Q (n + k) p ⟨d', effects, d''⟩) :
    ∃ pages', workFrom others' n d' docket' = .ok pages' ∧
      ∀ k p p', pages[k]? = some p → pages'[k]? = some p' → Q (n + k) p p' := by
  induction docket generalizing n d d' pages docket' with
  | nil =>
    obtain rfl := Except.ok.inj h
    obtain rfl := List.length_eq_zero_iff.1 hlength
    exact ⟨[], rfl, fun k p p' hp => by simp at hp⟩
  | cons line docket ih =>
    obtain ⟨d₁, effects, rest, htake, hrest, rfl⟩ := workFrom_cons h
    cases docket' with
    | nil => simp at hlength
    | cons line' docket' =>
      obtain ⟨d₁', effects', htake', hR, hQ⟩ :=
        step 0 ⟨d, effects, d₁⟩ line line' d' rfl rfl rfl htake start
      obtain ⟨rest', hrest', hall⟩ := ih hrest docket' (by simpa using hlength) hR
        fun k p l l' e hp hl hl' ht hr => by
          have hk : n + 1 + k = n + (k + 1) := by omega
          rw [hk] at ht hr ⊢
          exact step (k + 1) p l l' e (by simpa using hp) (by simpa using hl) (by simpa using hl')
            ht hr
      refine ⟨⟨d', effects', d₁'⟩ :: rest', ?_, fun k p p' hp hp' => ?_⟩
      · simp only [Nat.add_zero] at htake'
        simp only [workFrom, htake', hrest']
      · cases k with
        | zero =>
          obtain rfl : (⟨d, effects, d₁⟩ : Page) = p := by simpa using hp
          obtain rfl : (⟨d', effects', d₁'⟩ : Page) = p' := by simpa using hp'
          exact hQ
        | succ k =>
          have hk : n + (k + 1) = n + 1 + k := by omega
          rw [hk]
          exact hall k p p' (by simpa using hp) (by simpa using hp')

/-- Once the work has ended, tasks are turned down as if they were drained from a queue. -/
theorem workFrom_drain (around : Surroundings) (rest : List Task) (w : Worker) (opened : Register)
    (n : Nat) : ∃ pages, workFrom (fun _ => id) n ⟨w, true, opened⟩ (rest.map (.task around)) =
        .ok pages ∧
      (w.drain rest).2 = pages.flatMap (·.effects) ∧
      (w.drain rest).1 = (pages.getLast?.map (·.after.worker)).getD w := by
  induction rest generalizing w n with
  | nil => exact ⟨[], rfl, rfl, rfl⟩
  | cons task rest ih =>
    obtain ⟨pages, hpages, heffects, hworker⟩ := ih (w.reject task).1 (n + 1)
    refine ⟨⟨⟨w, true, opened⟩, (w.reject task).2, ⟨(w.reject task).1, true, opened⟩⟩ :: pages,
      ?_, ?_, ?_⟩
    · simp only [List.map_cons, workFrom, Desk.take, if_true, id_eq, Line.reject, hpages]
    · rw [Worker.drain_cons, Worker.andThen, heffects]
      rfl
    · rw [Worker.drain_cons, Worker.andThen, hworker, List.getLast?_cons]
      cases pages.getLast? <;> rfl

end Docket

/-! ## Queues -/

namespace WorkQueue

open Docket

variable {q : WorkQueue} {around : Surroundings} {rest : List Task}

/-- A task taken from a queue is a line taken by a desk. -/
theorem take?_eq_take {task : Task} (hp : q.phase = .running) (ht : q.tasks = task :: rest)
    (hs : ∀ ticket, task ≠ .shutdown ticket) (opened : Register) (n : Nat) :
    q.take? around =
      some (match Desk.take ⟨q.worker, false, opened⟩ id n (.task around task) with
        | .ok (d, effects) => ({ q with worker := d.worker, tasks := rest }, effects)
        | .error fault => (q.fallen fault, [])) := by
  have hturn : Line.turn? opened (.task around task) = some (.task around task) := by
    cases task with
    | shutdown ticket => exact absurd rfl (hs ticket)
    | _ => rfl
  have hnext : q.turn? around = some (.task around task) := by
    unfold turn?
    rw [if_neg (by simp [hp]), ht]
    cases task with
    | shutdown ticket => exact absurd rfl (hs ticket)
    | _ => rfl
  simp only [take?_eq, hnext, Option.map_some, Desk.take, hturn, Bool.false_eq_true, if_false,
    id_eq]
  cases q.worker.turn (.task around task) with
  | error fault => rfl
  | ok s => simp [after, Turn.isEnd, hp, ht]

/-- What is left of a queue when the work ends is worked through as a docket, and then whoever asked
    for the end is answered. -/
theorem take?_eq_work {ticket : Option Ticket} (hp : q.phase = .running)
    (ht : q.tasks = .shutdown ticket :: rest) (opened : Register) (n : Nat) :
    ∃ p pages, workFrom (fun _ => id) n ⟨q.worker, false, opened⟩
        (.task around (.shutdown ticket) :: rest.map (.task around)) = .ok (p :: pages) ∧
      q.take? around = some
        ({ q with worker := (pages.getLast?.getD p).after.worker, tasks := [],
                  phase := .stopped },
          (p :: pages).flatMap (·.effects) ++ ticket.toList.map (.reply · .stopped)) := by
  obtain ⟨pages, hpages, heffects, hworker⟩ :=
    workFrom_drain around rest (q.worker.countTask.stop [] none).1 opened (n + 1)
  have hstop : ∀ w : Worker, w.stop [] none = w.cancelEach w.requests.keys := by
    intro w
    simp [Worker.stop, Worker.andThen, Worker.drain]
  refine ⟨⟨⟨q.worker, false, opened⟩, (q.worker.countTask.stop [] none).2,
    ⟨(q.worker.countTask.stop [] none).1, true, opened⟩⟩, pages, ?_, ?_⟩
  · simp only [workFrom, Desk.take, Bool.false_eq_true, if_false, Line.turn?, id_eq, Worker.turn,
      Turn.isEnd, Line.enter, Line.request?, Task.request?, hpages]
  · rw [hstop] at heffects hworker
    simp only [take?, hp, ht, ne_eq, not_true, if_false, stop, Worker.stop, Worker.andThen,
      heffects, hworker, List.flatMap_cons]
    cases pages.getLast? <;> simp [Worker.drain]

end WorkQueue

end ContextBroker
