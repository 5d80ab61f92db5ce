import ContextBroker.Proofs.History.Decisions
import ContextBroker.Proofs.Worker.Draining

set_option autoImplicit false

/-! # Shutting a broker down

Whoever shuts a broker down has every later call turned down at its check, before it posts anything
(`History.shuttingDown_run`), and puts a task into the queue that ends the work. What is left of the
queue by then, posted earlier or by calls that had passed their check, is turned down by the worker
(`Worker.stop_endsWork`). -/

namespace ContextBroker

/-- Whether a call comes to something that can be an error. -/
def Call.canFail : Call → Bool
  | respond .. | unavailable .. | shutdown => false
  | _ => true

theorem Call.refusal_eq (c : Call) :
    c.refusal = if c.canFail then .refused .shuttingDown else .done := by
  cases c <;> rfl

/-! ## Calls from then on -/

namespace Broker

variable {b : Broker}

theorem begin_of_shuttingDown (hs : b.shuttingDown = true) (ticket : Ticket) (c : Call) :
    b.begin ticket c = (b, .error c.refusal) := by
  rw [begin, if_pos hs]

theorem call_of_shuttingDown (hs : b.shuttingDown = true) (ticket : Ticket) (c : Call) :
    b.call ticket c = (b, c.refusal) := by
  rw [call_eq, begin_of_shuttingDown hs]

theorem shuttingDown_giveUp (b : Broker) (u : Underway) :
    (b.giveUp u).1.shuttingDown = b.shuttingDown := by
  unfold giveUp
  simp only
  split <;> rfl

theorem shuttingDown_finish (b : Broker) (u : Underway) :
    (b.finish u).1.shuttingDown = b.shuttingDown := by
  unfold finish
  split
  · rfl
  · exact b.shuttingDown_giveUp u

end Broker

namespace History

variable {h : History}

/-- The call that shuts the broker down does so in its first part. -/
theorem shuttingDown_begin (h : History) (ticket : Ticket) :
    (h.begin ticket .shutdown).broker.shuttingDown = true := by
  unfold begin Broker.begin
  by_cases hs : h.broker.shuttingDown = true
  · rw [if_pos hs]
    exact hs
  · rw [if_neg hs]
    rfl

theorem shuttingDown_settle (hs : h.broker.shuttingDown = true) (n : Nat)
    {last : Underway → Broker × Response}
    (hlast : ∀ u, (last u).1.shuttingDown = h.broker.shuttingDown) :
    (h.settle n last).broker.shuttingDown = true := by
  unfold settle
  split
  · exact hs
  · exact (hlast _).trans hs

/-- No move takes it back. -/
theorem shuttingDown_apply (hs : h.broker.shuttingDown = true) (m : Move) :
    (h.apply m).broker.shuttingDown = true := by
  have hguard : ∀ {p : Prop} [Decidable p] {h' : History}, h'.broker.shuttingDown = true →
      (if p then h' else h).broker.shuttingDown = true := by
    intro p _ h' hs'
    split
    · exact hs'
    · exact hs
  cases m with
  | call ticket c =>
    refine hguard ?_
    rw [Broker.call_of_shuttingDown hs]
    exact hs
  | begin ticket c =>
    refine hguard ?_
    rw [begin, Broker.begin_of_shuttingDown hs]
    exact hs
  | finish n => exact shuttingDown_settle hs n h.broker.shuttingDown_finish
  | giveUp n => exact hguard (shuttingDown_settle hs n h.broker.shuttingDown_giveUp)
  | share | drop | addObserver | removeObserver => exact hguard hs
  | work around =>
    rw [apply, work]
    split
    · rename_i hw
      obtain ⟨x, -, hx⟩ := Option.map_eq_some_iff.1 hw
      rw [← (Prod.mk.inj hx).1]
      exact hs
    · exact hs
  | elapse timer =>
    rw [apply, elapse]
    split <;> exact hs

theorem shuttingDown_run (hs : h.broker.shuttingDown = true) (moves : List Move) :
    (h.run moves).broker.shuttingDown = true := by
  induction moves generalizing h with
  | nil => exact hs
  | cons m moves ih => exact ih (shuttingDown_apply hs m)

/-! ## The end of the work -/

/-- **Shutting down.** Whatever is queued behind the task that ends the work, the worker cancels the
    open requests with their timers and turns the queue down (`Worker.EndsWork`): requests are
    cancelled, calls are answered, and tasks that nobody hears of are as good as not there. From the
    call on that shuts the broker down, every other call is turned down and changes nothing. -/
theorem shutdown_drains (config : Config) (last : Token) (moves : List Move) :
    let h := (start config last).run moves
    let w := h.broker.queue.worker
    (∀ (around : Surroundings) (ticket : Option Ticket) (rest : List Task) (senders : Nat),
      let queue (rest : List Task) : WorkQueue :=
        { worker := w, tasks := .shutdown ticket :: rest, senders }
      (∃ w' effects, (queue rest).take? around =
          some ({ worker := w', tasks := [], senders, phase := .stopped }, effects) ∧
        w.countTask.EndsWork rest ticket (w', effects) ∧
        ∀ t r, w.requests.get? t = some r → ∃ id, r.timer = some id ∧ .cancelTimer id ∈ effects) ∧
      ∀ before after task, rest = before ++ task :: after → task.isSilent = true →
        (queue rest).take? around = (queue (before ++ after)).take? around) ∧
    ∀ ticket later,
      let b := ((h.begin ticket .shutdown).run later).broker
      ∀ ticket' c,
        let response := if c.canFail then .refused .shuttingDown else .done
        b.begin ticket' c = (b, .error response) ∧ b.call ticket' c = (b, response) := by
  intro h w
  refine ⟨?_, ?_⟩
  · intro around ticket rest senders queue
    have htake : ∀ rest, (queue rest).take? around =
        some ({ queue rest with
          worker := (w.countTask.stop rest ticket).1, tasks := [], phase := .stopped },
          (w.countTask.stop rest ticket).2) := fun rest => rfl
    have hends := w.countTask.stop_endsWork rest ticket
    refine ⟨⟨_, _, htake rest, hends, fun t r hr => ?_⟩, ?_⟩
    · obtain ⟨id, hid, -⟩ := (run_rounds config last moves).orderly.timed t r hr
      exact ⟨id, hid, (hends.cancels id).2 ⟨t, r, hr, hid⟩⟩
    · rintro before after task rfl hsilent
      rw [htake, htake, w.countTask.stop_silent hsilent]
  · intro ticket later b ticket' c response
    have hs : b.shuttingDown = true := shuttingDown_run (h.shuttingDown_begin ticket) later
    have hresponse : c.refusal = response := c.refusal_eq
    rw [← hresponse]
    exact ⟨b.begin_of_shuttingDown hs ticket' c, b.call_of_shuttingDown hs ticket' c⟩

end History

end ContextBroker
