import ContextBroker.Proofs.Worker.Replying
import Mathlib.Logic.Basic

set_option autoImplicit false

/-! # Changes that are turned down

A change is turned down before anything is written: because nothing is bound to its identity,
because no open request has its token, or because the binding bars its policy, looked at in this
order. `Worker.refuses_exactly` says which of these the answer is, and that a change which is turned
down leaves nothing behind but the count of its task. -/

namespace ContextBroker

/-- No push under `policy` is accepted: the binding is polled, or the push would take it into or out
    of the policy `never`. -/
def Kind.Bars (k : Kind) (policy : RefreshPolicy) : Prop :=
  k = .pull ∨ ∃ current, k = .push current ∧ Xor (current = .never) (policy = .never)

theorem Kind.bars_iff {k : Kind} {policy : RefreshPolicy} :
    k.Bars policy ↔ k.allows policy = false := by
  cases k with
  | pull => simp [Bars, allows, policy?]
  | push current =>
    cases current <;> cases policy <;> simp [Bars, allows, policy?, RefreshPolicy.allows, Xor]

namespace Worker

variable {w : Worker} {around : Surroundings} {task : Task} {i : Identity} {ticket : Ticket}
  {r : Except CallError Unit} {e : CallError}

/-! ## Answers to changes -/

/-- The worker takes the task, and its one reply is that the task came to `r`. -/
def Answers (w : Worker) (around : Surroundings) (task : Task) (ticket : Ticket)
    (r : Except CallError Unit) : Prop :=
  ∃ s, w.turn (.task around task) = .ok s ∧ replied s.2 = [.reply ticket (.done r)]

theorem turn_change (w : Worker) (around : Surroundings) (hc : task.isChange = true) :
    ∃ s, w.turn (.task around task) = .ok s := by
  cases task with
  | register | unregister | setState | pushState => exact ⟨_, rfl⟩
  | _ => simp [Task.isChange] at hc

theorem replies_change (hc : task.isChange = true) (ht : task.ticket? = some ticket) :
    task.replies w = [.reply ticket (.done (task.result w))] := by
  cases task with
  | register | unregister | setState | pushState =>
    obtain rfl := Option.some.inj ht
    rfl
  | _ => simp [Task.isChange] at hc

/-- What was counted before plays no part in what a task comes to. -/
theorem result_countTask (w : Worker) (task : Task) : task.result w.countTask = task.result w := by
  cases task <;> rfl

/-- A change is answered with what it comes to, and with nothing else. -/
theorem answers_iff_result (hc : task.isChange = true) (ht : task.ticket? = some ticket) :
    w.Answers around task ticket r ↔ task.result w = r := by
  obtain ⟨s, hs⟩ := turn_change w around hc
  have hreplied : replied s.2 = [.reply ticket (.done (task.result w))] := by
    rw [replied_turn hs, replies_change hc ht, result_countTask]
  constructor
  · rintro ⟨s', hs', hr⟩
    obtain rfl := Except.ok.inj (hs.symm.trans hs')
    rw [hreplied] at hr
    simpa using hr
  · rintro rfl
    exact ⟨s, hs, hreplied⟩

/-- Only a change is answered with what it came to. -/
theorem Answers.isChange (h : w.Answers around task ticket r) :
    task.isChange = true ∧ task.ticket? = some ticket := by
  obtain ⟨s, hs, hr⟩ := h
  rw [replied_turn hs] at hr
  cases task with
  | register | unregister | setState | pushState =>
    refine ⟨rfl, congrArg some ?_⟩
    simp only [Task.replies, List.cons.injEq, Effect.reply.injEq] at hr
    exact hr.1.1
  | shutdown t => cases t <;> simp [Task.replies] at hr
  | _ => simp [Task.replies] at hr

/-! ## What is turned down -/

/-- Unbinding an identity and writing a sample take nothing but that the identity is bound. -/
theorem result_of_bound (w : Worker)
    (h : task = .unregister i ticket ∨ ∃ sample, task = .pushState i sample ticket) :
    (task.result w = .error (.unbound i) ↔ w.store.get? i = none) ∧
      (task.result w = .ok () ↔ w.store.get? i ≠ none) := by
  have hresult :
      task.result w = if w.store.contains i then .ok () else .error (.unbound i) := by
    rcases h with rfl | ⟨sample, rfl⟩ <;> rfl
  rw [hresult, Store.contains]
  cases w.store.get? i <;> simp

/-- A push under a policy is looked at in three ways, of which the first that speaks against it is
    the answer. -/
theorem result_setState (w : Worker) (i : Identity) (payload : String) (policy : RefreshPolicy)
    (token : Option Token) (ticket : Ticket) :
    let result := (Task.setState i payload policy token ticket).result w
    (result = .error (.unbound i) ↔ w.store.get? i = none) ∧
    (∀ t, result = .error (.staleToken t) ↔
      w.store.get? i ≠ none ∧ token = some t ∧ w.requests.get? t = none) ∧
    (∀ current requested, result = .error (.policyChange i current requested) ↔
      ∃ b, w.store.get? i = some b ∧ (∀ t, token = some t → w.requests.get? t ≠ none) ∧
        b.kind.Bars policy ∧ b.kind.text = current ∧ policy = requested) ∧
    (result = .ok () ↔
      ∃ b, w.store.get? i = some b ∧ (∀ t, token = some t → w.requests.get? t ≠ none) ∧
        ¬ b.kind.Bars policy) := by
  simp only [Task.result, Kind.bars_iff]
  cases w.store.get? i with
  | none => simp
  | some b =>
    -- The token is looked at before the policy.
    cases hs : token.filter fun t => !w.requests.contains t with
    | some t =>
      obtain ⟨rfl, hclosed⟩ : token = some t ∧ w.requests.get? t = none := by
        simpa [Option.filter_eq_some_iff, SortedMap.contains_eq_isSome] using hs
      simp [hclosed]
    | none =>
      have hopen (t : Token) (ht : token = some t) : ¬ w.requests.get? t = none := by
        intro hclosed
        simp [ht, SortedMap.contains_eq_isSome, hclosed] at hs
      have hstale (t : Token) : ¬ (token = some t ∧ w.requests.get? t = none) :=
        fun h => hopen t h.1 h.2
      cases ha : b.kind.allows policy <;> simpa [ha, hstale] using hopen

/-- A call that comes to an error gets no further than its reply. -/
theorem replyTo_of_error {x : Except CallError Step} (hx : x.map (fun _ => ()) = .error e) :
    w.replyTo ticket x = (w, [.reply ticket (.done (.error e))]) := by
  cases x with
  | error e' =>
    obtain rfl := Except.error.inj hx
    rfl
  | ok s => simp [Except.map] at hx

/-- A change that is turned down is only counted, and answered. -/
theorem turn_of_refused (h : w.Answers around task ticket (.error e)) :
    w.turn (.task around task) = .ok (w.countTask, [.reply ticket (.done (.error e))]) := by
  obtain ⟨hc, ht⟩ := h.isChange
  have hresult : task.result w.countTask = .error e := by
    rw [result_countTask, (answers_iff_result hc ht).1 h]
  cases task with
  | register => cases hresult
  | unregister i ticket' =>
    obtain rfl := Option.some.inj ht
    have hmap := (map_unregister _ i ticket').trans hresult
    exact congrArg Except.ok (replyTo_of_error hmap)
  | setState i payload policy token ticket' =>
    obtain rfl := Option.some.inj ht
    have hmap := (map_setState _ around.now i payload policy token ticket').trans hresult
    exact congrArg Except.ok (replyTo_of_error hmap)
  | pushState i sample ticket' =>
    obtain rfl := Option.some.inj ht
    have hmap := (map_pushState _ i sample ticket').trans hresult
    exact congrArg Except.ok (replyTo_of_error hmap)
  | _ => simp [Task.isChange] at hc

/-- **Why changes are turned down, and what is left of them.** Binding an identity is always done.
    Unbinding one and writing a sample for it are turned down when nothing is bound to it. A push
    under a policy is turned down when nothing is bound, or else when it is given a token that no
    open request has, or else when the binding bars the policy. Whatever is turned down leaves the
    worker as it was but for the count of its task, and asks for nothing but the reply. -/
theorem refuses_exactly (w : Worker) (around : Surroundings) (i : Identity) (ticket : Ticket) :
    (∀ provider kind r,
      w.Answers around (.register i provider kind ticket) ticket r ↔ r = .ok ()) ∧
    (∀ task, (task = .unregister i ticket ∨ ∃ sample, task = .pushState i sample ticket) →
      (w.Answers around task ticket (.error (.unbound i)) ↔ w.store.get? i = none) ∧
      (w.Answers around task ticket (.ok ()) ↔ w.store.get? i ≠ none)) ∧
    (∀ payload policy token,
      let answer := w.Answers around (.setState i payload policy token ticket) ticket
      (answer (.error (.unbound i)) ↔ w.store.get? i = none) ∧
      (∀ t, answer (.error (.staleToken t)) ↔
        w.store.get? i ≠ none ∧ token = some t ∧ w.requests.get? t = none) ∧
      (∀ current requested, answer (.error (.policyChange i current requested)) ↔
        ∃ b, w.store.get? i = some b ∧ (∀ t, token = some t → w.requests.get? t ≠ none) ∧
          b.kind.Bars policy ∧ b.kind.text = current ∧ policy = requested) ∧
      (answer (.ok ()) ↔
        ∃ b, w.store.get? i = some b ∧ (∀ t, token = some t → w.requests.get? t ≠ none) ∧
          ¬ b.kind.Bars policy)) ∧
    (∀ task e, w.Answers around task ticket (.error e) →
      w.turn (.task around task) =
        .ok ({ w with counters.tasks := w.counters.tasks + 1 },
          [.reply ticket (.done (.error e))])) := by
  refine ⟨?_, ?_, ?_, ?_⟩
  · intro provider kind r
    rw [answers_iff_result rfl rfl]
    exact eq_comm
  · intro task htask
    have hc : task.isChange = true ∧ task.ticket? = some ticket := by
      rcases htask with rfl | ⟨sample, rfl⟩ <;> exact ⟨rfl, rfl⟩
    simp only [answers_iff_result hc.1 hc.2]
    exact result_of_bound w htask
  · intro payload policy token answer
    have hanswer : ∀ r, answer r ↔ (Task.setState i payload policy token ticket).result w = r :=
      fun r => answers_iff_result rfl rfl
    simp only [hanswer]
    exact result_setState w i payload policy token ticket
  · intro task e h
    exact turn_of_refused h

end Worker

end ContextBroker
