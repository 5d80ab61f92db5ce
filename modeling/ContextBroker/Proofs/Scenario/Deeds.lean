import ContextBroker.Proofs.Scenario.Timeouts
import Mathlib.Logic.Relation

set_option autoImplicit false

/-! # What parties do in a scenario

Whatever a step of a script does comes down to a few deeds (`Scenario.Deed`): somebody who holds the
broker calls it, or begins or ceases to hold it; somebody comes to stand in line; a script comes on
the agenda. Steps, and most frames, are deeds one after the other (`Scenario.Deeds`). What else
happens in a scenario are the turns of the worker, timeouts that elapse, and the calls to providers
and observers. -/

namespace ContextBroker

namespace Scenario

/-- What a party can do at once. -/
inductive Deed (s : Scenario) : Scenario → Prop
  /-- Parties and callers come and go. -/
  | around {s' : Scenario} (hbroker : s'.broker = s.broker) (htimer : s'.timer = s.timer)
      (hmanual : s'.manual = s.manual) (hlog : s'.log = s.log) (hagenda : s'.agenda = s.agenda)
      (hline : s'.line = s.line) : Deed s s'
  | share (hpos : 0 < s.broker.queue.senders) : Deed s { s with broker := s.broker.share }
  | drop : Deed s { s with broker := s.broker.drop }
  | addObserver (hpos : 0 < s.broker.queue.senders) (o : Observer) :
      Deed s { s with broker.hub := s.broker.hub.add o }
  | removeObserver (hpos : 0 < s.broker.queue.senders) (o : Observer) :
      Deed s { s with broker.hub := s.broker.hub.remove o }
  /-- A call that tells nobody. -/
  | call (hpos : 0 < s.broker.queue.senders) (ticket : Ticket) (c : Call)
      (hquiet : ∀ notice observers, (s.broker.call ticket c).2 ≠ .announced notice observers) :
      Deed s { s with broker := (s.broker.call ticket c).1 }
  /-- A report, of which observers are to be told before anything else is done. -/
  | report (hpos : 0 < s.broker.queue.senders) (ticket : Ticket) (c : Call) (notice : Notice)
      (observers : List Observer)
      (hcall : (s.broker.call ticket c).2 = .announced notice observers) :
      Deed s { s with
        broker := (s.broker.call ticket c).1
        agenda := observers.map (.tell · notice) ++ .letGo :: s.agenda }
  /-- The worker is called into line. -/
  | work : Deed s (s.spawn .work)
  | leave : Deed s s.leave
  | putOff (duration : Nat) (step : Step) (scene : Scene) :
      Deed s (s.spawn (.wait duration (.resume step scene)))
  /-- A script is begun. -/
  | perform (steps : List Step) (scene : Scene) :
      Deed s { s with agenda := steps.map (.perform · scene) ++ s.agenda }
  | note (e : Effect) : Deed s (s.note (.did e))

/-- One deed after the other. -/
abbrev Deeds : Scenario → Scenario → Prop := Relation.ReflTransGen Deed

namespace Deeds

open Relation.ReflTransGen (single head)

variable {s : Scenario}

theorem wake (s : Scenario) : Deeds s s.wake := by
  unfold Scenario.wake
  split
  · exact .refl
  · exact single .work

theorem hold (hpos : 0 < s.broker.queue.senders) : Deeds s s.hold := single (.share hpos)

theorem letGo (s : Scenario) : Deeds s s.letGo := head .drop (wake _)

theorem await (hpos : 0 < s.broker.queue.senders) (ticket : Ticket) : Deeds s (s.await ticket) :=
  head (.share hpos) (single (.around rfl rfl rfl rfl rfl rfl))

theorem remain (hpos : 0 < s.broker.queue.senders) : Deeds s s.remain :=
  head (.share hpos) (single (.around rfl rfl rfl rfl rfl rfl))

/-- A party is called back and begins its script. -/
theorem callBack (s : Scenario) (parties : SortedMap Nat Party) (k : Nat) (scene : Scene) :
    Deeds s { s with agenda := (Scenario.callBack parties k scene).2 ++ s.agenda } := by
  unfold Scenario.callBack
  split
  · exact .refl
  · exact single (.perform _ scene)

/-! ## Steps -/

theorem call (hpos : 0 < s.broker.queue.senders) (c : Call) : Deeds s (s.call c).1 := by
  obtain ⟨tokens, more, hq⟩ := s.broker.queue_call s.tickets c
  have hpos' : 0 < (s.broker.call s.tickets c).1.queue.senders := by rw [hq]; exact hpos
  simp only [Scenario.call]
  split
  · rename_i notice observers hcall
    let reported : Scenario := { s with
      broker := (s.broker.call s.tickets c).1
      agenda := observers.map (.tell · notice) ++ .letGo :: s.agenda }
    have hreport : Deeds s reported := single (.report hpos s.tickets c notice observers hcall)
    refine hreport.trans (head (.share hpos') (head ?_ (wake _)))
    exact .around rfl rfl rfl rfl rfl rfl
  · rename_i hquiet
    refine head (.call hpos s.tickets c hquiet) (head ?_ (wake _))
    exact .around rfl rfl rfl rfl rfl rfl

theorem bringIn (s : Scenario) (step : Step) : Deeds s (s.bringIn step) := by
  unfold Scenario.bringIn
  split <;> exact single (.around rfl rfl rfl rfl rfl rfl)

theorem setRetrievable (s : Scenario) (provider : Provider) (retrievable : Bool) :
    Deeds s (s.setRetrievable provider retrievable) := by
  unfold Scenario.setRetrievable
  split <;> exact single (.around rfl rfl rfl rfl rfl rfl)

theorem actWith (hpos : 0 < s.broker.queue.senders) (step : Step) (scene : Scene) :
    Deeds s (s.actWith step scene).1 := by
  have hin : 0 < (s.bringIn step).broker.queue.senders := by rw [broker_bringIn]; exact hpos
  unfold Scenario.actWith
  split
  · rw [← s.broker_bringIn step]
    exact (bringIn s step).tail (.addObserver hin _)
  · rw [← s.broker_bringIn step]
    exact (bringIn s step).tail (.removeObserver hin _)
  · exact .refl
  · exact head (.share hpos) (single (.around rfl rfl rfl rfl rfl rfl))
  · refine head .drop (head ?_ (wake _))
    exact .around rfl rfl rfl rfl rfl rfl
  · split
    · exact (bringIn s step).trans (call hin _)
    · exact .refl

/-- A step is deeds, as long as no timeout waits to be fired. -/
theorem act (hmanual : s.manual = {}) (hpos : ∀ handle, s.holds handle = true →
    0 < s.broker.queue.senders) (step : Step) (scene : Scene) : Deeds s (s.act step scene).1 := by
  unfold Scenario.act
  split
  · rename_i id _
    have hnone : s.manual.fire? id = none := by rw [hmanual]; rfl
    simp only [Scenario.fire, hnone]
    exact .refl
  · exact (bringIn s step).trans (setRetrievable _ _ _)
  · split
    · exact actWith (hpos _ ‹_›) step scene
    · exact .refl

/-! ## Frames -/

variable {due : Opening → Nat → Prop} {now n : Nat}

theorem performFrame (h : Sound due now n s) (hmanual : s.manual = {}) (step : Step)
    (scene : Scene) : Deeds s (s.runFrame (.perform step scene)) := by
  have hact : Deeds s (s.act step scene).1 := act hmanual (fun _ => h.senders_pos) step scene
  obtain ⟨-, hpos⟩ := h.act step scene
  simp only [Scenario.runFrame]
  split
  · exact single (.putOff _ step scene)
  · split
    · exact (hact.trans (hold (hpos ‹_›))).tail .leave
    · exact hact

theorem resumeFrame (h : Sound due now n s) (hmanual : s.manual = {}) (step : Step)
    (scene : Scene) : Deeds s (s.runFrame (.resume step scene)) := by
  have hact : Deeds s (s.act step scene).1 := act hmanual (fun _ => h.senders_pos) step scene
  obtain ⟨-, hpos⟩ := h.act step scene
  simp only [Scenario.runFrame]
  split
  · rename_i ticket he
    exact hact.trans (await (hpos (by rw [he]; rfl)) ticket)
  · exact hact

theorem deliverFrame (s : Scenario) (requester : Requester) (token : Token) (outcome : Outcome) :
    Deeds s (s.runFrame (.deliver requester token outcome)) := by
  refine ((callBack s s.requesters requester { token }).tail ?_).tail (.note _)
  exact .around rfl rfl rfl rfl rfl rfl

/-- What somebody outside does. -/
theorem applyStep (h : Sound due now n s) (hmanual : s.manual = {}) (step : Step) :
    Deeds s (s.apply (.step step)) := by
  have hact : Deeds s (s.act step {}).1 := act hmanual (fun _ => h.senders_pos) step {}
  simp only [Scenario.apply]
  split
  · exact hact.trans (remain ((h.act step {}).2 ‹_›))
  · exact hact

end Deeds

end Scenario

end ContextBroker
