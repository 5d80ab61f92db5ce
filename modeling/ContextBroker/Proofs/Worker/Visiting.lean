import ContextBroker.Proofs.Worker.Answering
import ContextBroker.Proofs.Worker.Counting

set_option autoImplicit false

/-! # Visiting the open requests in any order

A write, an unregistration and the end of the work go through open requests one after the other, in
an order that means nothing. What is done to one of them is a judgement that looks at the store and
at this request alone (`Worker.judge`), and what is carried out on two requests can be carried out
in either order (`Worker.judge_comm`). So every order leaves the same worker behind and asks for the
same effects, rearranged (`Worker.each_judge_perm`); this holds of one turn
(`Worker.visited_in_any_order`) and of all the turns that follow (`Worker.Roams.turns_eq`). -/

namespace ContextBroker

/-- Outcomes can be counted in either order. -/
theorem Counters.delivered_comm (c : Counters) (o p : Outcome) :
    (c.delivered o).delivered p = (c.delivered p).delivered o := by
  rcases o with ⟨_, _⟩ | (_ | _ | _) <;> rcases p with ⟨_, _⟩ | (_ | _ | _) <;> rfl

namespace Worker

/-! ## Effects in another order -/

/-- The steps leave the same worker behind, and ask for the same effects. Those that come with the
    end of a request may come in another order, all others come in the same. -/
structure Rearranges (s s' : Step) : Prop where
  worker : s.1 = s'.1
  effects : s.2.Perm s'.2
  others : (s.2.filter fun e => !e.isClosing) = s'.2.filter fun e => !e.isClosing

namespace Rearranges

variable {s s' s'' : Step}

theorem refl (s : Step) : Rearranges s s := ⟨rfl, .refl _, rfl⟩

/-- Where every effect comes with the end of a request, all of them may come in another order. -/
theorem of_closing (hworker : s.1 = s'.1) (heffects : s.2.Perm s'.2)
    (hclosing : ∀ e ∈ s.2, e.isClosing = true) : Rearranges s s' := by
  have hquiet : ∀ es : List Effect, (∀ e ∈ es, e.isClosing = true) →
      (es.filter fun e => !e.isClosing) = [] := by
    intro es hes
    rw [List.filter_eq_nil_iff]
    intro e he
    simp [hes e he]
  refine ⟨hworker, heffects, ?_⟩
  rw [hquiet _ hclosing, hquiet _ fun e he => hclosing e (heffects.mem_iff.2 he)]

theorem trans (h : Rearranges s s') (h' : Rearranges s' s'') : Rearranges s s'' :=
  ⟨h.worker.trans h'.worker, h.effects.trans h'.effects, h.others.trans h'.others⟩

theorem andThen (h : Rearranges s s') {next next' : Worker → Step}
    (hnext : ∀ w, Rearranges (next w) (next' w)) :
    Rearranges (Worker.andThen s next) (Worker.andThen s' next') := by
  obtain ⟨hworker, heffects, hothers⟩ := h
  have hnext := hnext s.1
  refine ⟨?_, ?_, ?_⟩
  · rw [Worker.andThen, Worker.andThen, ← hworker]
    exact hnext.worker
  · rw [Worker.andThen, Worker.andThen, ← hworker]
    exact heffects.append hnext.effects
  · rw [Worker.andThen, Worker.andThen, ← hworker, List.filter_append, List.filter_append, hothers,
      hnext.others]

/-- A reply comes after whatever was rearranged. -/
theorem replyTo (h : Rearranges s s') (w : Worker) (ticket : Ticket) :
    Rearranges (w.replyTo ticket (.ok s)) (w.replyTo ticket (.ok s')) := by
  let reply : Worker → Step := fun w => (w, [.reply ticket (.done (.ok ()))])
  show Rearranges (Worker.andThen s reply) (Worker.andThen s' reply)
  exact h.andThen fun _ => .refl _

end Rearranges

theorem andThen_assoc (s : Step) (f g : Worker → Step) :
    andThen (andThen s f) g = andThen s fun w => andThen (f w) g := by
  simp only [andThen, List.append_assoc]

theorem each_cons (w : Worker) (t : Token) (ts : List Token) (step : Worker → Token → Step) :
    w.each (t :: ts) step = andThen (step w t) (·.each ts step) := by
  induction ts using List.reverseRecOn with
  | nil => simp [each, andThen]
  | append_singleton ts u ih =>
    rw [← List.cons_append, each_append_singleton, ih, andThen_assoc]
    simp only [each_append_singleton]

/-! ## Judging one request -/

/-- Carries out a verdict on the open request `r` with the token `t`. -/
def carryOut (w : Worker) (t : Token) (r : Request) : Verdict → Step
  | .stays r' => ({ w with requests := w.requests.insert t r' }, [])
  | .ends o =>
    ({ w with
        requests := w.requests.erase t
        tokens := w.tokens.release t
        counters := w.counters.delivered o },
      r.timer.toList.map .cancelTimer ++ [.deliver r.requester t o])

/-- Carries out on the request with the token `t`, if it is open, what `d` has to say of it while
    the store is as it is. -/
def judge (d : Store → Request → Verdict) (w : Worker) (t : Token) : Step :=
  match w.requests.get? t with
  | none => (w, [])
  | some r => w.carryOut t r (d w.store r)

section

variable {w : Worker} {t u : Token} {r q : Request} {d : Store → Request → Verdict}

theorem judge_of_none (hr : w.requests.get? t = none) : judge d w t = (w, []) := by
  rw [judge, hr]

theorem judge_of_some (hr : w.requests.get? t = some r) :
    judge d w t = w.carryOut t r (d w.store r) := by
  rw [judge, hr]

@[simp] theorem store_carryOut (w : Worker) (t : Token) (r : Request) (v : Verdict) :
    (w.carryOut t r v).1.store = w.store := by
  cases v <;> rfl

/-- What is carried out on one request leaves the others as they are. -/
theorem get?_carryOut_of_ne (h : u ≠ t) (r : Request) (v : Verdict) :
    (w.carryOut t r v).1.requests.get? u = w.requests.get? u := by
  cases v with
  | stays r' => exact SortedMap.get?_insert_of_ne _ _ h
  | ends o => exact SortedMap.get?_erase_of_ne _ h

/-- What is asked for depends on the request and its verdict alone. -/
theorem effects_carryOut (w w' : Worker) (t : Token) (r : Request) (v : Verdict) :
    (w.carryOut t r v).2 = (w'.carryOut t r v).2 := by
  cases v <;> rfl

theorem isClosing_carryOut (w : Worker) (t : Token) (r : Request) (v : Verdict) :
    ∀ e ∈ (w.carryOut t r v).2, e.isClosing = true := by
  intro e he
  cases v with
  | stays r' => cases he
  | ends o =>
    rcases List.mem_append.1 he with he | he
    · obtain ⟨id, -, rfl⟩ := List.mem_map.1 he
      rfl
    · obtain rfl := List.mem_singleton.1 he
      rfl

theorem isClosing_judge (d : Store → Request → Verdict) (w : Worker) (t : Token) :
    ∀ e ∈ (judge d w t).2, e.isClosing = true := by
  cases hr : w.requests.get? t with
  | none =>
    rw [judge_of_none hr]
    simp
  | some r =>
    rw [judge_of_some hr]
    exact isClosing_carryOut _ _ _ _

theorem get?_judge_of_ne (h : u ≠ t) : (judge d w t).1.requests.get? u = w.requests.get? u := by
  cases hr : w.requests.get? t with
  | none => rw [judge_of_none hr]
  | some r => rw [judge_of_some hr, get?_carryOut_of_ne h]

/-- Verdicts on two requests can be carried out in either order. -/
theorem carryOut_comm (w : Worker) (h : t ≠ u) (r q : Request) (v v' : Verdict) :
    ((w.carryOut t r v).1.carryOut u q v').1 = ((w.carryOut u q v').1.carryOut t r v).1 := by
  cases v with
  | stays r' =>
    cases v' with
    | stays q' => simp only [carryOut, w.requests.insert_comm h]
    | ends p => simp only [carryOut, w.requests.erase_insert_of_ne h]
  | ends o =>
    cases v' with
    | stays q' => simp only [carryOut, w.requests.erase_insert_of_ne h.symm]
    | ends p =>
      have hrelease : (w.tokens.release t).release u = (w.tokens.release u).release t :=
        congrArg (TokenAllocator.mk w.tokens.last) (w.tokens.live.erase_comm t u)
      simp only [carryOut, w.requests.erase_comm t u, hrelease, w.counters.delivered_comm o p]

/-- **Two requests can be judged in either order.** -/
theorem judge_comm (d : Store → Request → Verdict) (w : Worker) (t u : Token) :
    Rearranges (andThen (judge d w t) (judge d · u)) (andThen (judge d w u) (judge d · t)) := by
  by_cases h : t = u
  · rw [h]
    exact .refl _
  have ht' : (judge d w u).1.requests.get? t = w.requests.get? t := get?_judge_of_ne h
  have hu' : (judge d w t).1.requests.get? u = w.requests.get? u := get?_judge_of_ne (Ne.symm h)
  cases ht : w.requests.get? t with
  | none =>
    rw [ht] at ht'
    simp only [andThen, judge_of_none ht, judge_of_none ht', List.nil_append, List.append_nil]
    exact .refl _
  | some r =>
    rw [ht] at ht'
    cases hu : w.requests.get? u with
    | none =>
      rw [hu] at hu'
      simp only [andThen, judge_of_none hu, judge_of_none hu', List.nil_append, List.append_nil]
      exact .refl _
    | some q =>
      rw [hu] at hu'
      refine .of_closing ?_ ?_ fun e he => ?_
      · simp only [andThen, judge_of_some hu', judge_of_some ht']
        simp only [judge_of_some ht, judge_of_some hu, store_carryOut]
        exact w.carryOut_comm h r q _ _
      · simp only [andThen, judge_of_some hu', judge_of_some ht']
        simp only [judge_of_some ht, judge_of_some hu, store_carryOut]
        rw [effects_carryOut _ w u, effects_carryOut (w.carryOut u q _).1 w t]
        exact List.perm_append_comm
      · rcases List.mem_append.1 he with he | he
        · exact isClosing_judge d _ _ e he
        · exact isClosing_judge d _ _ e he

/-- Any number of requests can be judged in any order. -/
theorem each_judge_perm (d : Store → Request → Verdict) {ts us : List Token} (h : ts.Perm us)
    (w : Worker) : Rearranges (w.each ts (judge d)) (w.each us (judge d)) := by
  induction h generalizing w with
  | nil => exact .refl _
  | cons t _ ih =>
    rw [each_cons, each_cons]
    exact (Rearranges.refl _).andThen ih
  | swap t u ts =>
    simp only [each_cons, ← andThen_assoc]
    exact (judge_comm d w u t).andThen fun _ => .refl _
  | trans _ _ ih ih' => exact (ih w).trans (ih' w)

end

/-! ## What is judged -/

section

variable {w : Worker} {t : Token}

/-- Resolving an identity for a request is a judgement. -/
theorem answer_eq_judge (w : Worker) (i : Identity) (available : Bool) (t : Token) :
    w.answer i available t = judge (fun store r => r.answered store i available) w t := by
  cases hr : w.requests.get? t with
  | none => rw [judge_of_none hr, answer, hr]
  | some r =>
    rw [judge_of_some hr, answer, hr, Request.answered]
    by_cases hi : r.awaits i = true
    · simp only [hi, if_true]
      by_cases hdone : (r.resolve i available).isComplete = true
      · simp only [hdone, if_true]
        rw [succeed_eq (r := r.resolve i available) (SortedMap.get?_insert_self ..)]
        simp only [carryOut, SortedMap.erase_insert, Counters.delivered,
          Request.requester_resolve, Request.timer_resolve]
      · simp only [hdone, Bool.false_eq_true, if_false]
        rfl
    · simp only [hi, Bool.false_eq_true, if_false, carryOut]
      rw [SortedMap.insert_eq_self hr]

/-- Cancelling a request is a judgement. -/
theorem cancel_eq_judge (w : Worker) (t : Token) :
    w.fail t .cancelled = judge (fun _ _ => .ends (.failure .cancelled)) w t := by
  cases hr : w.requests.get? t with
  | none => rw [judge_of_none hr, fail, hr]
  | some r =>
    rw [judge_of_some hr, fail_eq hr]
    rfl

/-- In which order an identity is resolved for requests plays no part. -/
theorem answerEach_perm (w : Worker) (i : Identity) (available : Bool) {ts us : List Token}
    (h : ts.Perm us) :
    Rearranges (w.answerEach ts i available) (w.answerEach us i available) := by
  simp only [answerEach, answer_eq_judge]
  exact each_judge_perm _ h w

/-- In which order requests are cancelled plays no part. -/
theorem cancelEach_perm (w : Worker) {ts us : List Token} (h : ts.Perm us) :
    Rearranges (w.cancelEach ts) (w.cancelEach us) := by
  simp only [cancelEach, cancel_eq_judge]
  exact each_judge_perm _ h w

end

/-! ## Turns in a given order -/

/-- Resolves `i` for the requests with the given tokens, in this order, once the store has taken a
    change. -/
def resolveIn (w : Worker) (order : List Token) (i : Identity) (available : Bool) :
    Except CallError Store → Except CallError Step
  | .error e => .error e
  | .ok store => .ok ({ w with store }.answerEach order i available)

/-- Handles a task, and goes through open requests in the given order where the task asks for it. -/
def handleIn (w : Worker) (order : List Token) (around : Surroundings) :
    Task → Except Fault Step
  | .unregister i ticket =>
    .ok (w.replyTo ticket (w.resolveIn order i false ((w.store.unregister i).map (·.1))))
  | .setState i payload policy none ticket =>
    .ok (w.replyTo ticket
      (w.resolveIn order i true (w.store.pushUnder i payload policy around.now)))
  | .pushState i sample ticket =>
    .ok (w.replyTo ticket (w.resolveIn order i true (w.store.push i sample)))
  | task => w.handle around task

/-- Ends the work; the requests with the given tokens are cancelled in this order. -/
def stopIn (w : Worker) (order : List Token) (queue : List Task) (ticket : Option Ticket) : Step :=
  andThen (andThen (w.cancelEach order) (drain · queue)) fun w =>
    (w, ticket.toList.map (.reply · .stopped))

/-- Takes a turn, and goes through open requests in the given order where the turn asks for it. -/
def turnIn (w : Worker) (order : List Token) : Turn → Except Fault Step
  | .task around task => w.countTask.handleIn order around task
  | .shutdown ticket rest => .ok (w.countTask.stopIn order rest ticket)
  | .deserted => .ok (w.stopIn order [] none)

end Worker

/-- The open requests that a turn goes through, in the order of the table, if it goes through any:
    those that await what it unbinds or writes for no request in particular, or all of them when the
    work ends. -/
def Turn.visits? (w : Worker) : Turn → Option (List Token)
  | .task _ (.unregister i _) | .task _ (.pushState i _ _)
  | .task _ (.setState i _ _ none _) => some (w.awaiting i)
  | .task .. => none
  | .shutdown .. | .deserted => some w.requests.keys

namespace Worker

section

variable {w : Worker} {turn : Turn} {visits order : List Token}

theorem unregister_eq (w : Worker) (i : Identity) :
    w.unregister i =
      w.resolveIn (w.awaiting i) i false ((w.store.unregister i).map (·.1)) := by
  unfold unregister
  cases w.store.unregister i with
  | error e => rfl
  | ok x => rfl

theorem pushState_eq (w : Worker) (i : Identity) (sample : Sample) :
    w.pushState i sample = w.resolveIn (w.awaiting i) i true (w.store.push i sample) := by
  unfold pushState
  cases w.store.push i sample with
  | error e => rfl
  | ok store => rfl

theorem setState_eq (w : Worker) (now : Timestamp) (i : Identity) (payload : String)
    (policy : RefreshPolicy) :
    w.setState now i payload policy none =
      w.resolveIn (w.awaiting i) i true (w.store.pushUnder i payload policy now) := by
  unfold setState Store.contains
  cases hb : w.store.get? i with
  | none =>
    -- Without a binding the store turns the push down for the same reason.
    rw [Store.pushUnder, hb]
    rfl
  | some b =>
    simp only [Option.isSome_some, Bool.not_true, Bool.false_eq_true, if_false, Option.filter_none]
    cases w.store.pushUnder i payload policy now with
    | error e => rfl
    | ok store => rfl

/-- The worker goes through open requests in the order of the table. -/
theorem turnIn_visits (h : turn.visits? w = some visits) : w.turnIn visits turn = w.turn turn := by
  cases turn with
  | deserted | shutdown =>
    obtain rfl := Option.some.inj h
    rfl
  | task around task =>
    cases task with
    | unregister i ticket =>
      obtain rfl := Option.some.inj h
      rw [Worker.turn, handle, unregister_eq]
      rfl
    | pushState i sample ticket =>
      obtain rfl := Option.some.inj h
      rw [Worker.turn, handle, pushState_eq]
      rfl
    | setState i payload policy token ticket =>
      cases token with
      | some t => cases h
      | none =>
        obtain rfl := Option.some.inj h
        rw [Worker.turn, handle, setState_eq]
        rfl
    | _ => cases h

/-- A turn that goes through no open requests is what it is. -/
theorem turnIn_of_visits_none (h : turn.visits? w = none) (order : List Token) :
    w.turnIn order turn = w.turn turn := by
  cases turn with
  | deserted | shutdown => cases h
  | task around task =>
    cases task with
    | unregister | pushState => cases h
    | setState i payload policy token ticket =>
      cases token with
      | none => cases h
      | some t => rfl
    | _ => rfl

variable {ts us : List Token}

theorem resolveIn_perm (w : Worker) (h : ts.Perm us) (i : Identity) (available : Bool)
    (r : Except CallError Store) (ticket : Ticket) :
    Rearranges (w.replyTo ticket (w.resolveIn ts i available r))
      (w.replyTo ticket (w.resolveIn us i available r)) := by
  cases r with
  | error e => exact .refl _
  | ok store => exact (answerEach_perm { w with store } i available h).replyTo w ticket

theorem stopIn_perm (w : Worker) (h : ts.Perm us) (queue : List Task) (ticket : Option Ticket) :
    Rearranges (w.stopIn ts queue ticket) (w.stopIn us queue ticket) :=
  ((cancelEach_perm w h).andThen fun _ => .refl _).andThen fun _ => .refl _

/-- A turn that goes through open requests comes to the same in every order. -/
theorem turnIn_perm (hvisits : turn.visits? w = some visits) (h : ts.Perm us) :
    ∃ s s', w.turnIn ts turn = .ok s ∧ w.turnIn us turn = .ok s' ∧ Rearranges s s' := by
  cases turn with
  | deserted => exact ⟨_, _, rfl, rfl, stopIn_perm w h [] none⟩
  | shutdown ticket rest => exact ⟨_, _, rfl, rfl, stopIn_perm w.countTask h rest ticket⟩
  | task around task =>
    cases task with
    | unregister i ticket =>
      exact ⟨_, _, rfl, rfl, resolveIn_perm w.countTask h i false _ ticket⟩
    | pushState i sample ticket =>
      exact ⟨_, _, rfl, rfl, resolveIn_perm w.countTask h i true _ ticket⟩
    | setState i payload policy token ticket =>
      cases token with
      | some t => cases hvisits
      | none => exact ⟨_, _, rfl, rfl, resolveIn_perm w.countTask h i true _ ticket⟩
    | _ => cases hvisits

/-- **The order of visits is invisible.** An unregistration, a push and a write for no request in
    particular, and the end of the work, may go through the open requests that they concern in any
    order: the worker is left the same, in its store, its table, its live tokens and its counters,
    the same timers are cancelled, the same outcomes are delivered under the same tokens, each as
    often, and whatever else is asked for comes in the same order. -/
theorem visited_in_any_order (hvisits : turn.visits? w = some visits)
    (horder : order.Perm visits) :
    ∃ s s', w.turnIn order turn = .ok s ∧ w.turn turn = .ok s' ∧
      s.1 = s'.1 ∧
      (∀ id, .cancelTimer id ∈ s.2 ↔ .cancelTimer id ∈ s'.2) ∧
      (s.2.filter (·.isDelivery)).Perm (s'.2.filter (·.isDelivery)) ∧
      (s.2.filter fun e => !e.isClosing) = s'.2.filter fun e => !e.isClosing := by
  obtain ⟨s, s', hs, hs', hworker, heffects, hothers⟩ := turnIn_perm hvisits horder
  refine ⟨s, s', hs, ?_, hworker, ?_, heffects.filter _, hothers⟩
  · rw [← turnIn_visits hvisits, hs']
  · intro id
    exact heffects.mem_iff

end

/-- A push for which two open requests wait, visited in the order in which they did not come. -/
theorem visited_in_reverse :
    let lamp : Identity := ⟨"lamp", "power", none, "default"⟩
    let around : Surroundings := ⟨default, fun _ => true⟩
    let w := ((History.start {} 0).run [.call 0 (.register lamp 7 .pull),
      .call 1 (.getContext 3 "" 50), .call 2 (.getContext 4 "" 50),
      .work around, .work around, .work around]).broker.queue.worker
    let turn : Turn := .task around (.pushState lamp ⟨"on", default, 0⟩ 9)
    turn.visits? w = some [1, 2] ∧ [2, 1].Perm ([1, 2] : List Token) ∧
      ∃ s s', w.turnIn [2, 1] turn = .ok s ∧ w.turn turn = .ok s' ∧
        s.1 = s'.1 ∧
        (∀ id, .cancelTimer id ∈ s.2 ↔ .cancelTimer id ∈ s'.2) ∧
        (s.2.filter (·.isDelivery)).Perm (s'.2.filter (·.isDelivery)) ∧
        (s.2.filter fun e => !e.isClosing) = s'.2.filter fun e => !e.isClosing := by
  intro lamp around w turn
  have hvisits : turn.visits? w = some [1, 2] := by decide +kernel
  exact ⟨hvisits, .swap .., visited_in_any_order hvisits (.swap ..)⟩

/-! ## Turn after turn -/

/-- The worker can take the turns, one after the other, to become the second one, if it goes through
    open requests in some order or other in each of them. -/
inductive Roams : Worker → List Turn → Worker → List (List Effect) → Prop
  | stop (w : Worker) : Roams w [] w []
  | turn {w w' : Worker} {turn : Turn} {order : List Token} {s : Step} {rest : List Turn}
      {more : List (List Effect)}
      (horder : ∀ visits, turn.visits? w = some visits → order.Perm visits)
      (hturn : w.turnIn order turn = .ok s) (hrest : Roams s.1 rest w' more) :
      Roams w (turn :: rest) w' (s.2 :: more)

/-- **No order of visits is ever told from another.** Whatever the orders in which the worker goes
    through open requests, turn after turn, it becomes what it does in the order of the table, and
    each turn asks for the same, rearranged. -/
theorem Roams.turns_eq {w w' : Worker} {turns : List Turn} {effects : List (List Effect)}
    (h : w.Roams turns w' effects) :
    ∃ effects', w.turns turns = .ok (w', effects') ∧ List.Forall₂ List.Perm effects effects' := by
  induction h with
  | stop w => exact ⟨[], rfl, .nil⟩
  | @turn w w' turn order s rest more horder hturn hrest ih =>
    obtain ⟨effects', hturns, hall⟩ := ih
    have hown : ∃ es, w.turn turn = .ok (s.1, es) ∧ s.2.Perm es := by
      cases hvisits : turn.visits? w with
      | none =>
        rw [turnIn_of_visits_none hvisits] at hturn
        exact ⟨s.2, hturn, .refl _⟩
      | some visits =>
        obtain ⟨s₁, s', hs₁, hs', hworker, heffects, -⟩ := turnIn_perm hvisits (horder _ hvisits)
        obtain rfl := Except.ok.inj (hturn.symm.trans hs₁)
        rw [turnIn_visits hvisits] at hs'
        exact ⟨s'.2, by rw [hs', hworker], heffects⟩
    obtain ⟨es, hes, hperm⟩ := hown
    refine ⟨es :: effects', ?_, .cons hperm hall⟩
    simp only [Worker.turns, hes, hturns]

end Worker

end ContextBroker
