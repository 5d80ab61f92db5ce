import ContextBroker.Proofs.Docket.Table
import ContextBroker.Proofs.Docket.Twins

set_option autoImplicit false

/-! # Two desks side by side

A docket is worked through twice, once as it stands and once with some lines blanked out. What of
the first desk is in a view then also shows on the second, and nothing else does (`View.Mirrors`).
The generations of two twins belong together because they come from the same line, so the timeout of a
line meets both of them or none.

A line that is on both dockets keeps this up (`View.Mirrors.both`), and so does one that is blanked
out on the second, if what it is about is not in view (`View.Mirrors.left`). -/

namespace ContextBroker

open Docket

/-! ## Registers -/

theorem Docket.Line.eq_of_request? {line : Line} {t : Token} {q : Requester}
    (h : line.request? = some (t, q)) :
    ∃ around e timeout, line = .task around (.getContext t q e timeout) := by
  cases line with
  | task around task =>
    cases task with
    | getContext u q' e timeout =>
      obtain ⟨rfl, rfl⟩ := Prod.mk.inj (Option.some.inj h)
      exact ⟨around, e, timeout, rfl⟩
    | _ => simp [request?, Task.request?] at h
  | _ => simp [request?] at h

namespace Desk

/-- The register tells the request of each earlier line by a generation of its own. -/
structure Numbered (d : Desk) (n : Nat) : Prop where
  below (m : Nat) (t : Token) (g : Nat) : d.opened m = some (t, g) →
    m < n ∧ g ≤ d.worker.generation
  apart (m m' : Nat) (t t' : Token) (g : Nat) : d.opened m = some (t, g) →
    d.opened m' = some (t', g) → m = m'

variable {d d' : Desk} {n : Nat} {line : Line} {effects : List Effect}

/-- A line that opens a request gives out a generation. -/
theorem generation_of_request? {opened : Register} {x : Round} (hx : x.Sound)
    (hl : line.turn? opened = some x.turn) {t : Token} {q : Requester}
    (hr : line.request? = some (t, q)) : x.after.generation = x.before.generation + 1 := by
  have hg : x.after.generation = _ := hx.leaves.generation
  obtain ⟨around, e, timeout, rfl⟩ := Line.eq_of_request? hr
  rw [hg, ← Option.some.inj hl]
  rfl

theorem Numbered.takes (h : d.Numbered n) (ht : d.Takes n line d' effects) :
    d'.Numbered (n + 1) := by
  cases ht with
  | rejected tokens he =>
    have hgeneration : (line.reject { d.worker with tokens }).1.generation =
        d.worker.generation := by
      cases line with
      | task around task => exact (Worker.drains_reject _ task).generation
      | _ => rfl
    refine ⟨fun m t g hm => ?_, h.apart⟩
    obtain ⟨hlt, hle⟩ := h.below m t g hm
    rw [hgeneration]
    exact ⟨by omega, hle⟩
  | skipped tokens he hl =>
    refine ⟨fun m t g hm => ?_, h.apart⟩
    obtain ⟨hlt, hle⟩ := h.below m t g hm
    exact ⟨by omega, hle⟩
  | round tokens he turn hl w effects hx =>
    have hgrows : d.worker.generation ≤ w.generation := by
      have hg : w.generation = d.worker.generation + _ := hx.leaves.generation
      omega
    cases hr : line.request? with
    | none =>
      have henter : line.enter n w.generation d.opened = d.opened := by rw [Line.enter, hr]
      rw [henter]
      refine ⟨fun m t g hm => ?_, h.apart⟩
      obtain ⟨hlt, hle⟩ := h.below m t g hm
      exact ⟨by omega, Nat.le_trans hle hgrows⟩
    | some x =>
      have hnew : w.generation = d.worker.generation + 1 := generation_of_request? hx hl hr
      have henter : ∀ m, line.enter n w.generation d.opened m =
          if m = n then some (x.1, w.generation) else d.opened m := by
        intro m
        rw [Line.enter, hr]
      -- The new generation is greater than all that are in the register.
      have hfresh : ∀ m t, d.opened m ≠ some (t, w.generation) := by
        intro m t hm
        have := (h.below m t _ hm).2
        omega
      refine ⟨fun m t g hm => ?_, fun m m' t t' g hm hm' => ?_⟩
      · simp only [henter] at hm
        split at hm
        · obtain ⟨-, rfl⟩ := Prod.mk.inj (Option.some.inj hm)
          exact ⟨by omega, Nat.le_refl _⟩
        · obtain ⟨hlt, hle⟩ := h.below m t g hm
          exact ⟨by omega, Nat.le_trans hle hgrows⟩
      · simp only [henter] at hm hm'
        split at hm
        · obtain ⟨-, rfl⟩ := Prod.mk.inj (Option.some.inj hm)
          split at hm'
          · omega
          · exact absurd hm' (hfresh _ _)
        · split at hm'
          · obtain ⟨-, rfl⟩ := Prod.mk.inj (Option.some.inj hm')
            exact absurd hm (hfresh _ _)
          · exact h.apart m m' t t' g hm hm'

/-- The line concerns the request with the token `t` for the endpoint `e`: it is open, or opened
    there. -/
def Concerns (d : Desk) (line : Line) (t : Token) (e : String) : Prop :=
  (∃ r, d.worker.requests.get? t = some r ∧ r.endpoint = e) ∨
    ∃ around requester timeout, line = .task around (.getContext t requester e timeout)

/-- A line that was taken has no request with the token of one that is open. -/
theorem Orderly.closed (h : d.Orderly) (ht : d.Takes n line d' effects) {t : Token}
    {q : Requester} (hr : line.request? = some (t, q)) : d.worker.requests.get? t = none := by
  cases ht with
  | rejected tokens he => exact h.ended t he
  | skipped tokens he hl => simp [Line.request?_eq_none hl] at hr
  | round tokens he turn hl w effects hx =>
    refine hx.distinct.apart t ?_
    simp [Turn.tokens, Line.requests_turn? hl, hr]

/-- What turning a line down delivers depends on its request only. -/
theorem deliveries_reject (line : Line) (w : Worker) (t : Token) :
    deliveries t (line.reject w).2 =
      (line.request?.toList.filter (·.1 = t)).map fun x => (x.2, .failure .cancelled) := by
  cases line with
  | task around task => exact (Worker.drains_reject w task).delivers t
  | _ => rfl

/-- A line delivers nothing to requests that it does not concern. -/
theorem Takes.deliveries_eq_nil (ht : d.Takes n line d' effects) {t : Token}
    (hnot : ∀ e, ¬ d.Concerns line t e) : deliveries t effects = [] := by
  have hno : ∀ x, line.request? = some x → x.1 ≠ t := by
    rintro x hr rfl
    obtain ⟨around, e, timeout, rfl⟩ := Line.eq_of_request? hr
    exact hnot e (.inr ⟨around, _, timeout, rfl⟩)
  cases ht with
  | rejected tokens he =>
    rw [deliveries_reject]
    cases hr : line.request? with
    | none => rfl
    | some x => simp [hno x hr]
  | skipped tokens he hl => rfl
  | round tokens he turn hl w effects hx =>
    have hclosed : d.worker.requests.get? t = none := by
      rw [Option.eq_none_iff_forall_ne_some]
      exact fun r hr => hnot r.endpoint (.inl ⟨r, hr, rfl⟩)
    have harrival : turn.arrival? { d.worker with tokens } t = none := by
      rw [Turn.arrival?_eq_none, Turn.tokens, Line.requests_turn? hl]
      cases hr : line.request? with
      | none => simp
      | some x => simpa using fun h : t = x.1 => hno x hr h.symm
    have hdel := hx.rules.delivers t
    simpa [Turn.ruling, hclosed, harrival] using hdel

end Desk

namespace Docket

variable {line : Line} {n : Nat} {opened opened' : Register} {t : Token}

/-- The generations were given out on the same line to requests with the token `t`. -/
def Linked (opened opened' : Register) (t : Token) (g g' : Nat) : Prop :=
  ∃ m, opened m = some (t, g) ∧ opened' m = some (t, g')

theorem Line.enter_of_ne (g : Nat) {m : Nat} (h : m ≠ n) : line.enter n g opened m = opened m := by
  cases hr : line.request? <;> simp [enter, hr, h]

theorem Line.enter_self (g : Nat) {q : Requester} (h : line.request? = some (t, q)) :
    line.enter n g opened n = some (t, g) := by
  simp [enter, h]

end Docket

/-! ## Turns -/

/-- The turn for a line is its task, the timeout of the request that was opened on the line that it
    names, or the end of the work. -/
theorem Docket.Line.turn?_cases {line : Line} {opened : Register} {turn : Turn}
    (h : line.turn? opened = some turn) :
    (∃ around task, line = .task around task ∧ turn = .task around task ∧
      ∀ opened', line.turn? opened' = some turn) ∨
    (∃ around m t g, line = .elapsed around m ∧ opened m = some (t, g) ∧
      turn = .task around (.timeout t g)) ∨
    (turn.isEnd = true ∧ line.request? = none ∧ ∀ opened', line.turn? opened' = some turn) := by
  cases line with
  | blank => simp [turn?] at h
  | deserted =>
    obtain rfl := Option.some.inj h
    exact .inr (.inr ⟨rfl, rfl, fun _ => rfl⟩)
  | elapsed around m =>
    obtain ⟨⟨t, g⟩, hm, rfl⟩ := Option.map_eq_some_iff.1 h
    exact .inr (.inl ⟨around, m, t, g, rfl, hm, rfl⟩)
  | task around task =>
    cases task with
    | shutdown ticket =>
      obtain rfl := Option.some.inj h
      exact .inr (.inr ⟨rfl, rfl, fun _ => rfl⟩)
    | _ =>
      obtain rfl := Option.some.inj h
      exact .inl ⟨around, _, rfl, rfl, fun _ => rfl⟩

/-- What a task resolves is on the endpoint that it is about. -/
theorem Task.endpoint?_of_resolution? {task : Task} {t : Token} {accepted : Bool} {i : Identity}
    {available : Bool} (h : task.resolution? t accepted = some (i, available)) :
    task.request? = none ∧ task.endpoint? = some i.endpoint := by
  cases task with
  | respond j sample u =>
    simp only [resolution?, Option.ite_none_right_eq_some, Option.some.injEq, Prod.mk.injEq] at h
    exact ⟨rfl, congrArg (fun i : Identity => some i.endpoint) h.2.1⟩
  | unavailable j u unreachable =>
    cases unreachable with
    | true => simp [resolution?] at h
    | false =>
      simp only [resolution?, Option.ite_none_right_eq_some, Option.some.injEq,
        Prod.mk.injEq] at h
      exact ⟨rfl, congrArg (fun i : Identity => some i.endpoint) h.2.1⟩
  | pushState j sample ticket =>
    simp only [resolution?, Option.ite_none_right_eq_some, Option.some.injEq, Prod.mk.injEq] at h
    exact ⟨rfl, congrArg (fun i : Identity => some i.endpoint) h.2.1⟩
  | setState j payload policy token ticket =>
    simp only [resolution?, Option.ite_none_right_eq_some, Option.some.injEq, Prod.mk.injEq] at h
    exact ⟨rfl, congrArg (fun i : Identity => some i.endpoint) h.2.1⟩
  | unregister j ticket =>
    simp only [resolution?, Option.ite_none_right_eq_some, Option.some.injEq, Prod.mk.injEq] at h
    exact ⟨rfl, congrArg (fun i : Identity => some i.endpoint) h.2.1⟩
  | _ => simp [resolution?] at h

/-- Only a timeout looks at the generation of a request. -/
theorem Task.failure?_congr {task : Task} (h : ∀ u g, task ≠ .timeout u g) (t : Token)
    (g g' : Nat) : task.failure? t g = task.failure? t g' := by
  cases task with
  | timeout u g₀ => exact absurd rfl (h u g₀)
  | unavailable i u unreachable => cases unreachable <;> rfl
  | _ => rfl

theorem Worker.endpoint_admitted {w : Worker} {retrievable : Provider → Bool} {q : Requester}
    {e : String} {r : Request} (h : w.admitted retrievable q e = .stays r) : r.endpoint = e := by
  simp only [admitted] at h
  split at h
  · cases h
  · cases h
    rfl

/-- A turn that neither makes a request fail nor resolves what it awaits leaves it as it is. -/
theorem Turn.verdict_eq_stays {turn : Turn} {accepted : Bool} {s : Store} {t : Token} {r : Request}
    (hfailure : turn.failure? t r.generation = none)
    (hresolution : ∀ i available, turn.resolution? t accepted = some (i, available) →
      ¬ r.awaits i = true) : turn.verdict accepted s t r = .stays r := by
  unfold verdict
  rw [hfailure]
  cases h : turn.resolution? t accepted with
  | none => rfl
  | some a => exact if_neg (hresolution a.1 a.2 h)

namespace View

/-! ## What is expected of lines -/

/-- The line is in view on the desk `d`. -/
structure Admits (v : View) (d : Desk) (line : Line) : Prop where
  endpoint (around : Surroundings) (task : Task) (e : String) : line = .task around task →
    task.endpoint? = some e → v.endpoint e
  request (around : Surroundings) (t : Token) (q : Requester) (e : String) (timeout : Nat) :
    line = .task around (.getContext t q e timeout) → v.request t e
  /-- A push that answers one request answers one in view. -/
  answer (around : Surroundings) (i : Identity) (payload : String) (policy : RefreshPolicy)
    (t : Token) (ticket : Ticket) (r : Request) :
    line = .task around (.setState i payload policy (some t) ticket) →
    d.worker.requests.get? t = some r → v.request t r.endpoint
  /-- A timeout is told by its line. -/
  untimed (around : Surroundings) (t : Token) (g : Nat) : line ≠ .task around (.timeout t g)

/-- The line can be left out unnoticed beside the desk `d`, if the register of the other desk is
    `opened`. -/
structure Skips (v : View) (d : Desk) (opened : Register) (line : Line) : Prop where
  /-- What is polled shows nowhere in view. -/
  request (around : Surroundings) (t : Token) (q : Requester) (e : String) (timeout : Nat) :
    line = .task around (.getContext t q e timeout) →
    ¬ v.request t e ∧ (¬ v.endpoint e ∨ v.blurred e)
  /-- Anything else is about an endpoint that is not in view. -/
  endpoint (around : Surroundings) (task : Task) (e : String) : line = .task around task →
    task.request? = none → task.endpoint? = some e → ¬ v.endpoint e
  /-- Word that an endpoint is unreachable reaches no request in view. -/
  unreachable (around : Surroundings) (i : Identity) (t : Token) (r : Request) :
    line = .task around (.unavailable i t true) → d.worker.requests.get? t = some r →
    ¬ v.request t r.endpoint
  elapsed (around : Surroundings) (m : Nat) : line = .elapsed around m → opened m = none
  untimed (around : Surroundings) (t : Token) (g : Nat) : line ≠ .task around (.timeout t g)
  goesOn (turn : Turn) : line.turn? d.opened = some turn → turn.isEnd = false

/-! ## Desks -/

/-- What is in view on the desk `d` before line `n` shows on the desk `d'`, and nothing else. -/
structure Mirrors (v : View) (n : Nat) (d d' : Desk) : Prop where
  orderly : d.Orderly
  numbered : d.Numbered n
  numbered' : d'.Numbered n
  ended : d'.ended = d.ended
  lines (m : Nat) (t : Token) (g' : Nat) : d'.opened m = some (t, g') →
    ∃ g, d.opened m = some (t, g)
  shows : v.Shows (Linked d.opened d'.opened) d.worker d'.worker

/-- What is delivered in view is the same on both sides, and on the second there is nothing else. -/
structure Reflects (v : View) (d : Desk) (line : Line) (effects effects' : List Effect) : Prop where
  delivers (t : Token) (e : String) : d.Concerns line t e → v.request t e →
    deliveries t effects' = deliveries t effects
  silent (t : Token) : (∀ e, d.Concerns line t e → ¬ v.request t e) → deliveries t effects' = []

variable {v : View} {n : Nat} {d d' d₁ d₁' : Desk} {line : Line} {effects effects' : List Effect}

/-- The stores and the tables alone matter. -/
theorem Shows.congr {linked : Token → Nat → Nat → Prop} {w w' w₁ w₁' : Worker}
    (h : v.Shows linked w w') (hs : w₁.store = w.store) (hr : w₁.requests = w.requests)
    (hs' : w₁'.store = w'.store) (hr' : w₁'.requests = w'.requests) : v.Shows linked w₁ w₁' := by
  refine ⟨?_, ?_, ?_⟩
  · rw [hs, hs']
    exact h.store
  · rw [hr, hr']
    exact h.shown
  · rw [hr, hr']
    exact h.nothing

/-! ## A line on the first side -/

section

variable {tokens : TokenAllocator} {turn : Turn} {w : Worker}

/-- A line that can be left out touches no request in view. -/
theorem Mirrors.quiet (h : v.Mirrors n d d') (hl : line.turn? d.opened = some turn)
    (hskips : v.Skips d d'.opened line) {t : Token} {r : Request}
    (hr : d.worker.requests.get? t = some r) (hv : v.request t r.endpoint) (accepted : Bool)
    (s : Store) : turn.verdict accepted s t r = .stays r := by
  rcases Line.turn?_cases hl with
    ⟨around, task, hline, rfl, -⟩ | ⟨around, m, u, g, hline, hm, rfl⟩ | ⟨hend, -⟩
  · refine Turn.verdict_eq_stays ?_ fun i available hi ha => ?_
    · cases task with
      | timeout u g => exact absurd hline (hskips.untimed around u g)
      | unavailable i u unreachable =>
        cases unreachable with
        | false => rfl
        | true =>
          refine if_neg fun hu => ?_
          subst hu
          exact hskips.unreachable around i u r hline hr hv
      | _ => rfl
    · -- What is awaited in view is on an endpoint in view.
      obtain ⟨hno, he⟩ := Task.endpoint?_of_resolution? hi
      refine hskips.endpoint around task _ hline hno he ?_
      rw [(h.orderly.table.bound t r i hr ha).1]
      exact v.sees t _ hv
  · refine Turn.verdict_eq_stays (if_neg ?_) fun i available hi => by
      simp [Turn.resolution?, Task.resolution?] at hi
    rintro ⟨rfl, rfl⟩
    -- The request was opened on that line, which then has an entry in both registers.
    obtain ⟨r', -, -, m', hm', hm''⟩ := h.shows.shown _ r hr hv
    obtain rfl := h.numbered.apart _ _ _ _ _ hm hm'
    simp [hskips.elapsed around _ hline] at hm''
  · rw [hskips.goesOn turn hl] at hend
    cases hend

/-- A round for a line that can be left out goes unnoticed on the other side. -/
theorem Mirrors.round_left (h : v.Mirrors n d d') (hl : line.turn? d.opened = some turn)
    (hx : Round.Sound ⟨{ d.worker with tokens }, turn, w, effects⟩)
    (hskips : v.Skips d d'.opened line) :
    v.Shows (Linked d.opened d'.opened) w d'.worker := by
  refine View.Shows.left hx (h.shows.congr rfl rfl rfl rfl)
    (fun t r hr hv => h.quiet hl hskips hr hv _ _) (fun t q r ha hv => ?_) ?_
  · rcases Turn.arrival?_cases ha with ⟨around, e, timeout, hturn, hd⟩ | ⟨hend, -⟩
    · have hturn : turn = _ := hturn
      rw [hturn] at hl
      rw [Worker.endpoint_admitted hd.symm] at hv
      exact (hskips.request around t q e timeout (Line.eq_of_turn? hl)).1 hv
    · rw [hskips.goesOn turn hl] at hend
      cases hend
  · have hs : w.store = turn.write _ d.worker.store := hx.leaves.store
    show v.Agrees w.store d'.worker.store
    rw [hs]
    rcases Line.turn?_cases hl with ⟨around, task, hline, rfl, -⟩ | ⟨around, m, u, g, -, -, rfl⟩ |
      ⟨hend, -⟩
    · cases hr : task.request? with
      | none => exact h.shows.store.write_left (fun e he => hskips.endpoint _ _ e hline hr he) _ _
      | some x =>
        cases task with
        | getContext t q e timeout =>
          rcases (hskips.request around t q e timeout hline).2 with he | hb
          · refine h.shows.store.write_left (fun e' he' => ?_) _ _
            obtain rfl := Option.some.inj he'
            exact he
          · exact h.shows.store.scatter_left hb _
        | _ => simp [Task.request?] at hr
    · exact h.shows.store
    · rw [hskips.goesOn turn hl] at hend
      cases hend

/-- What was linked stays linked when the line is entered on the first side. -/
theorem Mirrors.linked_enter_left (h : v.Mirrors n d d') (line : Line) (g₁ : Nat) {t : Token}
    {g g' : Nat} (hl : Linked d.opened d'.opened t g g') :
    Linked (line.enter n g₁ d.opened) d'.opened t g g' := by
  obtain ⟨m, hm, hm'⟩ := hl
  have hne : m ≠ n := Nat.ne_of_lt (h.numbered.below m t g hm).1
  exact ⟨m, (Line.enter_of_ne _ hne).trans hm, hm'⟩

/-- What was linked stays linked when the line is entered on both sides. -/
theorem Mirrors.linked_enter (h : v.Mirrors n d d') (g₁ g₁' : Nat) {t : Token} {g g' : Nat}
    (hl : Linked d.opened d'.opened t g g') :
    Linked (line.enter n g₁ d.opened) (line.enter n g₁' d'.opened) t g g' := by
  obtain ⟨m, hm, hm'⟩ := h.linked_enter_left line g₁ hl
  have hne : m ≠ n := Nat.ne_of_lt (h.numbered'.below m t g' hm').1
  exact ⟨m, hm, (Line.enter_of_ne _ hne).trans hm'⟩

end

/-- **A line that is blanked out on the second side**, where what it is about is not in view. -/
theorem Mirrors.left (h : v.Mirrors n d d') (ht : d.Takes n line d₁ effects)
    (hskips : v.Skips d d'.opened line) (others' : TokenAllocator → TokenAllocator) :
    ∃ d₁', d'.take others' n .blank = .ok (d₁', []) ∧ v.Mirrors (n + 1) d₁ d₁' ∧
      v.Reflects d line effects [] := by
  have htake : d'.take others' n .blank =
      .ok ({ d' with worker.tokens := others' d'.worker.tokens }, []) := by
    unfold Desk.take
    split <;> rfl
  refine ⟨_, htake, ⟨h.orderly.takes ht, h.numbered.takes ht, h.numbered'.takes (Desk.takes htake),
    ?_, ?_, ?_⟩, ?_, fun _ _ => rfl⟩
  · cases ht with
    | rejected tokens he => exact h.ended
    | skipped tokens he hl => exact h.ended
    | round tokens he turn hl w effects hx =>
      rw [hskips.goesOn turn hl, ← he]
      exact h.ended
  · intro m t g' hm
    obtain ⟨g, hg⟩ := h.lines m t g' hm
    have hne : m ≠ n := Nat.ne_of_lt (h.numbered'.below m t g' hm).1
    cases ht with
    | rejected tokens he => exact ⟨g, hg⟩
    | skipped tokens he hl => exact ⟨g, hg⟩
    | round tokens he turn hl w effects hx => exact ⟨g, (Line.enter_of_ne _ hne).trans hg⟩
  · cases ht with
    | rejected tokens he =>
      refine h.shows.congr ?_ (Line.requests_reject line _) rfl rfl
      exact Line.store_reject line _
    | skipped tokens he hl => exact h.shows.congr rfl rfl rfl rfl
    | round tokens he turn hl w effects hx =>
      exact ((h.round_left hl hx hskips).mono fun t g g' hl => h.linked_enter_left _ _ hl).congr
        rfl rfl rfl rfl
  · rintro t e (⟨r, hr, rfl⟩ | ⟨around, q, timeout, rfl⟩) hv
    · cases ht with
      | rejected tokens he => simp [h.orderly.ended t he] at hr
      | skipped tokens he hl => rfl
      | round tokens he turn hl w effects hx =>
        have hdel := (hx.settled (t := t) hr).2
        rw [Round.verdict, h.quiet hl hskips hr hv] at hdel
        exact hdel.symm
    · exact absurd hv (hskips.request around t q e timeout rfl).1

/-! ## A line on both sides -/

section

variable {tokens tokens' : TokenAllocator} {turn turn' : Turn} {w w' : Worker}

/-- Two rounds for one task. -/
theorem Mirrors.rounds_task (h : v.Mirrors n d d') (hline : v.Admits d line)
    {around : Surroundings} {task : Task} (htask : line = .task around task)
    (hx : Round.Sound ⟨{ d.worker with tokens }, .task around task, w, effects⟩)
    (hx' : Round.Sound
      ⟨{ d'.worker with tokens := tokens' }, .task around task, w', effects'⟩) :
    v.Agrees w.store w'.store ∧
    (∀ t, v.RulesAlike
      (Linked (line.enter n w.generation d.opened) (line.enter n w'.generation d'.opened)) t
      (Round.ruling ⟨{ d.worker with tokens }, .task around task, w, effects⟩ t)
      (Round.ruling ⟨{ d'.worker with tokens := tokens' }, .task around task, w', effects'⟩ t)) ∧
    ((task.isChange = true ∨ ∃ e ticket, task = .read e ticket ∧ ¬ v.blurred e) →
      replied effects' = replied effects) := by
  have hshows : v.Shows (Linked d.opened d'.opened) { d.worker with tokens }
      { d'.worker with tokens := tokens' } := h.shows.congr rfl rfl rfl rfl
  have hendpoint : ∀ e, task.endpoint? = some e → v.endpoint e := fun e he =>
    hline.endpoint around task e htask he
  have hresult : task.result { d.worker with tokens } =
      task.result { d'.worker with tokens := tokens' } :=
    hshows.result hendpoint fun i payload policy t ticket r ht hr =>
      hline.answer around i payload policy t ticket r (by rw [htask, ht]) hr
  have haccepted : accepted effects = accepted effects' := by
    rw [Worker.accepted_turn hx.turn, Worker.accepted_turn hx'.turn, hresult]
  have hs : w.store = task.write around _ d.worker.store := hx.leaves.store
  have hs' : w'.store = task.write around _ d'.worker.store := hx'.leaves.store
  have hstore : v.Agrees w.store w'.store := by
    rw [hs, hs', ← haccepted]
    exact h.shows.store.write hendpoint around _
  refine ⟨hstore, hshows.rulesAlike (fun t g g' => h.linked_enter _ _) hstore rfl hx
    (fun t r r' _ _ _ => Task.failure?_congr ?_ t _ _) (fun t => ?_) (fun t => ?_), fun hcall => ?_⟩
  · intro u g hu
    exact hline.untimed around u g (by rw [htask, hu])
  · show task.resolution? t (accepted effects) = task.resolution? t (accepted effects')
    rw [haccepted]
  · cases task with
    | getContext u q e timeout =>
      by_cases hu : u = t
      · subst hu
        have hg : w.generation = d.worker.generation + 1 := hx.leaves.generation
        have hg' : w'.generation = d'.worker.generation + 1 := hx'.leaves.generation
        have hr : line.request? = some (u, q) := by rw [htask]; rfl
        simp only [Turn.arrival?, if_true]
        refine .both q (hshows.admitted (hendpoint e rfl) _ _ ?_) fun r hd => ?_
        · refine ⟨n, ?_, ?_⟩
          · rw [Line.enter_self _ hr, hg]
          · rw [Line.enter_self _ hr, hg']
        · rw [Worker.endpoint_admitted hd]
          exact hline.request around u q e timeout htask
      · simp only [Turn.arrival?, hu, if_false]
        exact .left (by simp)
    | _ => exact .left (by simp [Turn.arrival?])
  · rw [Worker.replied_turn hx.turn, Worker.replied_turn hx'.turn]
    rcases hcall with hchange | ⟨e, ticket, rfl, hsharp⟩
    · cases task with
      | register i provider kind ticket => rfl
      | unregister i ticket =>
        exact congrArg (fun result => [Effect.reply ticket (.done result)]) hresult.symm
      | setState i payload policy token ticket =>
        exact congrArg (fun result => [Effect.reply ticket (.done result)]) hresult.symm
      | pushState i sample ticket =>
        exact congrArg (fun result => [Effect.reply ticket (.done result)]) hresult.symm
      | _ => simp [Task.isChange] at hchange
    · have hbindings := h.shows.store.bindings (hendpoint e rfl) hsharp
      simp only [Task.replies, Worker.countTask, Store.read, Store.gather, hbindings]

/-- Two rounds for one line. -/
theorem Mirrors.rounds (h : v.Mirrors n d d') (hline : v.Admits d line)
    (hl : line.turn? d.opened = some turn) (hl' : line.turn? d'.opened = some turn')
    (hx : Round.Sound ⟨{ d.worker with tokens }, turn, w, effects⟩)
    (hx' : Round.Sound ⟨{ d'.worker with tokens := tokens' }, turn', w', effects'⟩) :
    v.Agrees w.store w'.store ∧
    (∀ t, v.RulesAlike
      (Linked (line.enter n w.generation d.opened) (line.enter n w'.generation d'.opened)) t
      (Round.ruling ⟨{ d.worker with tokens }, turn, w, effects⟩ t)
      (Round.ruling ⟨{ d'.worker with tokens := tokens' }, turn', w', effects'⟩ t)) ∧
    (∀ around task, line = .task around task → (task.isChange = true ∨
      ∃ e ticket, task = .read e ticket ∧ ¬ v.blurred e) → replied effects' = replied effects) := by
  have hshows : v.Shows (Linked d.opened d'.opened) { d.worker with tokens }
      { d'.worker with tokens := tokens' } := h.shows.congr rfl rfl rfl rfl
  rcases Line.turn?_cases hl with ⟨around, task, htask, rfl, hsame⟩ |
    ⟨around, m, u, g, helapsed, hm, rfl⟩ | ⟨hend, hno, hsame⟩
  · obtain rfl := Option.some.inj ((hsame d'.opened).symm.trans hl')
    obtain ⟨hstore, hrules, hreplies⟩ := h.rounds_task hline htask hx hx'
    refine ⟨hstore, hrules, fun around' task' htask' => ?_⟩
    obtain ⟨-, rfl⟩ := Line.task.inj (htask.symm.trans htask')
    exact hreplies
  · obtain ⟨u', g', hm', rfl⟩ : ∃ u' g', d'.opened m = some (u', g') ∧
        turn' = .task around (.timeout u' g') := by
      rw [helapsed] at hl'
      obtain ⟨⟨u', g'⟩, hm', rfl⟩ := Option.map_eq_some_iff.1 hl'
      exact ⟨u', g', hm', rfl⟩
    obtain ⟨g₁, hg₁⟩ := h.lines m u' g' hm'
    obtain ⟨rfl, -⟩ := Prod.mk.inj (Option.some.inj (hm.symm.trans hg₁))
    have hs : w.store = d.worker.store := hx.leaves.store
    have hs' : w'.store = d'.worker.store := hx'.leaves.store
    have hstore : v.Agrees w.store w'.store := by
      rw [hs, hs']
      exact h.shows.store
    refine ⟨hstore, hshows.rulesAlike (fun t g g' => h.linked_enter _ _) hstore rfl hx
      (fun t r r' hr hv hlink => ?_) (fun t => rfl) (fun t => .left (by simp [Turn.arrival?])),
      fun around' task htask => ?_⟩
    · -- The line that elapsed is the one that the twins come from, or it concerns neither.
      obtain ⟨k, hk, hk'⟩ := hlink
      have hiff : (u = t ∧ g = r.generation) ↔ (u = t ∧ g' = r'.generation) := by
        refine and_congr_right fun _ => ⟨?_, ?_⟩
        · rintro rfl
          obtain rfl := h.numbered.apart _ _ _ _ _ hm hk
          exact (Prod.mk.inj (Option.some.inj (hm'.symm.trans hk'))).2
        · rintro rfl
          obtain rfl := h.numbered'.apart _ _ _ _ _ hm' hk'
          exact (Prod.mk.inj (Option.some.inj (hm.symm.trans hk))).2
      simp only [Turn.failure?, Task.failure?, hiff]
    · rw [helapsed] at htask
      cases htask
  · obtain rfl := Option.some.inj ((hsame d'.opened).symm.trans hl')
    have harrival : ∀ w t, turn.arrival? w t = none := by
      intro w t
      rw [Turn.arrival?_eq_none, Turn.tokens, Line.requests_turn? hl, hno]
      simp
    have hs : w.store = turn.write _ d.worker.store := hx.leaves.store
    have hs' : w'.store = turn.write _ d'.worker.store := hx'.leaves.store
    have hstore : v.Agrees w.store w'.store := by
      rw [hs, hs']
      cases turn with
      | task around task => cases hend
      | shutdown ticket rest => exact h.shows.store
      | deserted => exact h.shows.store
    refine ⟨hstore, hshows.rulesAlike (fun t g g' => h.linked_enter _ _) hstore rfl hx
      (fun t r r' _ _ _ => ?_) (fun t => ?_) (fun t => ?_), fun around task htask hcall => ?_⟩
    · cases turn with
      | task around task => cases hend
      | shutdown ticket rest => rfl
      | deserted => rfl
    · cases turn with
      | task around task => cases hend
      | shutdown ticket rest => rfl
      | deserted => rfl
    · simp only [harrival]
      exact .left (by simp)
    · -- A call does not end the work.
      subst htask
      rcases hcall with hchange | ⟨e, ticket, rfl, -⟩
      · cases task with
        | shutdown ticket => cases hchange
        | _ =>
          obtain rfl := Option.some.inj hl
          cases hend
      · obtain rfl := Option.some.inj hl
        cases hend

/-- Replies to changes and reads that are turned down are the same on both sides. -/
theorem replied_reject {around : Surroundings} {task : Task}
    (hcall : task.isChange = true ∨ ∃ e ticket, task = .read e ticket) (w w' : Worker) :
    replied ((Line.task around task).reject w').2 =
      replied ((Line.task around task).reject w).2 := by
  rcases hcall with hchange | ⟨e, ticket, rfl⟩
  · cases task with
    | register | unregister | setState | pushState => rfl
    | _ => cases hchange
  · rfl

end

/-- The timeout of a line that has no request on the second side may be left out there. -/
theorem skips_elapsed {around : Surroundings} {m : Nat} (hm : d'.opened m = none) :
    v.Skips d d'.opened (.elapsed around m) where
  request _ _ _ _ _ h := by cases h
  endpoint _ _ _ h := by cases h
  unreachable _ _ _ _ h := by cases h
  elapsed _ _ h := by
    cases h
    exact hm
  untimed _ _ _ h := by cases h
  goesOn turn h := by
    obtain ⟨x, -, rfl⟩ := Option.map_eq_some_iff.1 h
    rfl

/-- What taking one line on both sides leads to. -/
structure Follows (v : View) (d d₁ d₁' : Desk) (line : Line) (effects effects' : List Effect) :
    Prop where
  ended : d₁'.ended = d₁.ended
  lines (m : Nat) (t : Token) (g' : Nat) : d₁'.opened m = some (t, g') →
    ∃ g, d₁.opened m = some (t, g)
  shows : v.Shows (Linked d₁.opened d₁'.opened) d₁.worker d₁'.worker
  delivers (t : Token) (e : String) : d.Concerns line t e → v.request t e →
    deliveries t effects' = deliveries t effects
  replies (around : Surroundings) (task : Task) : line = .task around task →
    (task.isChange = true ∨ ∃ e ticket, task = .read e ticket ∧ ¬ v.blurred e) →
    replied effects' = replied effects

/-- A line that is a round on both sides. -/
theorem Mirrors.follows_rounds (h : v.Mirrors n d d') (hline : v.Admits d line)
    {tokens tokens' : TokenAllocator} {turn turn' : Turn} {w w' : Worker}
    (hl : line.turn? d.opened = some turn) (hl' : line.turn? d'.opened = some turn')
    (hx : Round.Sound ⟨{ d.worker with tokens }, turn, w, effects⟩)
    (hx' : Round.Sound ⟨{ d'.worker with tokens := tokens' }, turn', w', effects'⟩) :
    v.Follows d ⟨w, turn.isEnd, line.enter n w.generation d.opened⟩
      ⟨w', turn'.isEnd, line.enter n w'.generation d'.opened⟩ line effects effects' := by
  obtain ⟨hstore, hrules, hreplies⟩ := h.rounds hline hl hl' hx hx'
  refine ⟨?_, fun m t g' hm => ?_, View.Shows.both hx hx' hrules hstore, fun t e hc hv => ?_,
    hreplies⟩
  · rcases Line.turn?_cases hl with ⟨around, task, -, rfl, hsame⟩ | ⟨around, m, u, g, rfl, -, rfl⟩ |
      ⟨-, -, hsame⟩
    · rw [Option.some.inj ((hsame d'.opened).symm.trans hl')]
    · obtain ⟨x, -, rfl⟩ := Option.map_eq_some_iff.1 hl'
      rfl
    · rw [Option.some.inj ((hsame d'.opened).symm.trans hl')]
  · cases hr : line.request? with
    | none =>
      simp only [Line.enter, hr] at hm ⊢
      exact h.lines m t g' hm
    | some x =>
      by_cases hmn : m = n
      · subst hmn
        have hm := (Line.enter_self _ hr).symm.trans hm
        obtain ⟨rfl, -⟩ := Prod.mk.inj (Option.some.inj hm)
        exact ⟨w.generation, Line.enter_self _ hr⟩
      · simp only [Line.enter_of_ne _ hmn] at hm ⊢
        exact h.lines m t g' hm
  · rcases (hrules t).deliveries hx hx' with heq | ⟨hnone, -⟩
    · exact heq
    · -- A request in view is ruled on, on the second side too.
      rcases hc with ⟨r, hr, rfl⟩ | ⟨around, q, timeout, rfl⟩
      · obtain ⟨r', hr', -⟩ := h.shows.shown t r hr hv
        simp [Round.ruling, Turn.ruling, hr'] at hnone
      · obtain rfl := Option.some.inj hl'
        have hr' : d'.worker.requests.get? t = none := hx'.distinct.apart t (by
          simp [Turn.tokens, Turn.requests, requested, Task.request?])
        simp [Round.ruling, Turn.ruling, hr', Turn.arrival?] at hnone

theorem Mirrors.follows (h : v.Mirrors n d d') (hline : v.Admits d line)
    (ht : d.Takes n line d₁ effects) (ht' : d'.Takes n line d₁' effects') :
    v.Follows d d₁ d₁' line effects effects' := by
  have hended := h.ended
  cases ht with
  | rejected tokens he =>
    cases ht' with
    | rejected tokens' he' =>
      refine ⟨h.ended, h.lines, h.shows.congr (Line.store_reject ..) (Line.requests_reject ..)
        (Line.store_reject ..) (Line.requests_reject ..), fun t e _ _ => ?_,
        fun around task htask hcall => ?_⟩
      · rw [Desk.deliveries_reject, Desk.deliveries_reject]
      · subst htask
        exact replied_reject (hcall.imp_right fun ⟨e, ticket, hr, _⟩ => ⟨e, ticket, hr⟩) _ _
    | skipped tokens' he' hl' => simp [he, he'] at hended
    | round tokens' he' turn' hl' w' effects' hx' => simp [he, he'] at hended
  | skipped tokens he hl =>
    cases ht' with
    | rejected tokens' he' => simp [he, he'] at hended
    | skipped tokens' he' hl' =>
      exact ⟨h.ended, h.lines, h.shows.congr rfl rfl rfl rfl, fun _ _ _ _ => rfl,
        fun _ _ _ _ => rfl⟩
    | round tokens' he' turn' hl' w' effects' hx' =>
      -- What was opened on the second side was opened on the first.
      rcases Line.turn?_cases hl' with ⟨-, -, -, -, hsame⟩ | ⟨around, m, u, g', rfl, hm', -⟩ |
        ⟨-, -, hsame⟩
      · cases hl.symm.trans (hsame _)
      · obtain ⟨g, hm⟩ := h.lines m u g' hm'
        simp [Line.turn?, hm] at hl
      · cases hl.symm.trans (hsame _)
  | round tokens he turn hl w effects hx =>
    cases ht' with
    | rejected tokens' he' => simp [he, he'] at hended
    | round tokens' he' turn' hl' w' effects' hx' => exact h.follows_rounds hline hl hl' hx hx'
    | skipped tokens' he' hl' =>
      -- Only the timeout of a line that is blank on the second side is skipped there.
      rcases Line.turn?_cases hl with ⟨-, -, -, -, hsame⟩ | ⟨around, m, u, g, rfl, hm, rfl⟩ |
        ⟨-, -, hsame⟩
      · cases hl'.symm.trans (hsame _)
      · have hskips : v.Skips d d'.opened (.elapsed around m) :=
          skips_elapsed (Option.map_eq_none_iff.1 hl')
        refine ⟨h.ended.trans he, h.lines, (h.round_left hl hx hskips).congr rfl rfl rfl rfl,
          fun t e hc hv => ?_, fun around' task htask => by cases htask⟩
        rcases hc with ⟨r, hr, rfl⟩ | ⟨around', q, timeout, htask⟩
        · have hdel := (hx.settled (t := t) hr).2
          rw [Round.verdict, h.quiet hl hskips hr hv] at hdel
          exact hdel.symm
        · cases htask
      · cases hl'.symm.trans (hsame _)

/-- **A line on both sides**, where what it is about is in view. -/
theorem Mirrors.both (h : v.Mirrors n d d') (ht : d.Takes n line d₁ effects)
    (hline : v.Admits d line) (others' : TokenAllocator → TokenAllocator) :
    ∃ d₁' effects', d'.take others' n line = .ok (d₁', effects') ∧ v.Mirrors (n + 1) d₁ d₁' ∧
      v.Reflects d line effects effects' ∧
      ∀ around task, line = .task around task →
        (task.isChange = true ∨ ∃ e ticket, task = .read e ticket ∧ ¬ v.blurred e) →
        replied effects' = replied effects := by
  have hclosed : ∀ t q, line.request? = some (t, q) → d'.worker.requests.get? t = none := by
    intro t q hr
    exact h.shows.nothing t (by simp [h.orderly.closed ht hr])
  obtain ⟨d₁', effects', htake⟩ := d'.take_ok others' n line hclosed
  have ht' := Desk.takes htake
  have hf := h.follows hline ht ht'
  refine ⟨d₁', effects', htake, ⟨h.orderly.takes ht, h.numbered.takes ht, h.numbered'.takes ht',
    hf.ended, hf.lines, hf.shows⟩, ⟨hf.delivers, fun t hnot => ht'.deliveries_eq_nil ?_⟩,
    hf.replies⟩
  rintro e (⟨r', hr', -⟩ | ⟨around, q, timeout, htask⟩)
  · rw [h.shows.nothing t fun r hr => hnot r.endpoint (.inl ⟨r, hr, rfl⟩)] at hr'
    cases hr'
  · exact hnot e (.inr ⟨around, q, timeout, htask⟩) (hline.request around t q e timeout htask)

/-! ## Two dockets -/

/-- Before the first line there is nothing to tell two desks apart. -/
theorem Mirrors.start (v : View) : v.Mirrors 0 {} {} where
  orderly := ⟨.start _, fun _ _ => rfl⟩
  numbered := ⟨fun _ _ _ h => by simp at h, fun _ _ _ _ _ h => by simp at h⟩
  numbered' := ⟨fun _ _ _ h => by simp at h, fun _ _ _ _ _ h => by simp at h⟩
  ended := rfl
  lines _ _ _ h := by simp at h
  shows := ⟨.refl v _, fun _ _ h => by simp at h, fun _ _ => rfl⟩

/-- The register tells of no lines but those of the docket that have a request. -/
def Registers (docket : Docket) (opened : Register) : Prop :=
  ∀ m x, opened m = some x → ∃ line, docket[m]? = some line ∧ line.request? ≠ none

/-- A line of a docket stays, or it is blanked out. -/
inductive Treats (v : View) (docket' : Docket) (d : Desk) : Line → Line → Prop
  | kept {line : Line} (h : v.Admits d line) : Treats v docket' d line line
  | blanked {line : Line} (h : ∀ opened, Registers docket' opened → v.Skips d opened line) :
      Treats v docket' d line .blank

theorem registers_takes {docket : Docket} (h : Registers docket d.opened)
    (ht : d.Takes n line d₁ effects) (hline : docket[n]? = some line) :
    Registers docket d₁.opened := by
  cases ht with
  | rejected tokens he => exact h
  | skipped tokens he hl => exact h
  | round tokens he turn hl w effects hx =>
    intro m x hm
    cases hr : line.request? with
    | none =>
      simp only [Line.enter, hr] at hm
      exact h m x hm
    | some y =>
      by_cases hmn : m = n
      · subst hmn
        exact ⟨line, hline, by simp [hr]⟩
      · simp only [Line.enter_of_ne _ hmn] at hm
        exact h m x hm

/-- **Two dockets side by side**, of which the second has blanks for lines that are not in view. If
    the first can be worked through, so can the second. Line by line, the same is delivered in view,
    a change or a read that stays is answered the same, and the stores agree. -/
theorem beside (v : View) {others : Nat → TokenAllocator → TokenAllocator} {docket : Docket}
    {pages : List Page} (h : work others docket = .ok pages) (docket' : Docket)
    (hlength : docket'.length = docket.length)
    (htreats : ∀ (m : Nat) (p : Page) (line line' : Line), pages[m]? = some p →
      docket[m]? = some line → docket'[m]? = some line' →
      v.Treats docket' p.before line line')
    (others' : Nat → TokenAllocator → TokenAllocator) :
    ∃ pages', work others' docket' = .ok pages' ∧ pages'.length = pages.length ∧
      ∀ (m : Nat) (p p' : Page) (line : Line), pages[m]? = some p → pages'[m]? = some p' →
        docket[m]? = some line →
        v.Reflects p.before line p.effects p'.effects ∧
        v.Agrees p.after.worker.store p'.after.worker.store ∧
        (docket'[m]? = some line → ∀ around task, line = .task around task →
          (task.isChange = true ∨ ∃ e ticket, task = .read e ticket ∧ ¬ v.blurred e) →
          replied p'.effects = replied p.effects) := by
  have hbeside := workFrom_beside
    (R := fun m d d' => v.Mirrors m d d' ∧ Registers docket' d'.opened)
    (Q := fun m (p p' : Page) => ∀ line, docket[m]? = some line →
      v.Reflects p.before line p.effects p'.effects ∧
      v.Agrees p.after.worker.store p'.after.worker.store ∧
      (docket'[m]? = some line → ∀ around task, line = .task around task →
        (task.isChange = true ∨ ∃ e ticket, task = .read e ticket ∧ ¬ v.blurred e) →
        replied p'.effects = replied p.effects))
    h docket' hlength others' ⟨.start v, fun _ _ h => by simp at h⟩ ?_
  · obtain ⟨pages', hpages', hall⟩ := hbeside
    refine ⟨pages', hpages', ?_, fun m p p' line hp hp' => ?_⟩
    · rw [workFrom_length hpages', workFrom_length h, hlength]
    · have hm := hall m p p' hp hp'
      rw [Nat.zero_add] at hm
      exact hm line
  · intro m p line line' d' hp hline hline' htake ⟨hmirrors, hregisters⟩
    rw [Nat.zero_add] at htake hmirrors ⊢
    have ht := Desk.takes htake
    have htreat := htreats m p line line' hp hline hline'
    cases htreat with
    | kept hadmits =>
      obtain ⟨d'', effects', htake', hmirrors', hreflects, hreplies⟩ :=
        hmirrors.both ht hadmits (others' m)
      refine ⟨d'', effects', htake', ⟨hmirrors', ?_⟩, fun line₁ hline₁ => ?_⟩
      · exact registers_takes hregisters (Desk.takes htake') hline'
      · obtain rfl := Option.some.inj (hline.symm.trans hline₁)
        exact ⟨hreflects, hmirrors'.shows.store, fun _ => hreplies⟩
    | blanked hskips =>
      obtain ⟨d'', htake', hmirrors', hreflects⟩ :=
        hmirrors.left ht (hskips _ hregisters) (others' m)
      refine ⟨d'', [], htake', ⟨hmirrors', ?_⟩, fun line₁ hline₁ => ?_⟩
      · exact registers_takes hregisters (Desk.takes htake') hline'
      · obtain rfl := Option.some.inj (hline.symm.trans hline₁)
        refine ⟨hreflects, hmirrors'.shows.store, fun hsame around task htask => ?_⟩
        -- A line that was blank already is no task.
        obtain rfl := Option.some.inj (hline'.symm.trans hsame)
        cases htask

end View

end ContextBroker
