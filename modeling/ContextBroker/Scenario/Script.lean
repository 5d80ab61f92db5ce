import ContextBroker.Broker

set_option autoImplicit false

/-! # Scripts

What scripted parties do with a broker. A `Step` is one thing done with it. Whoever a step brings in
(a provider, a requester or an observer) has a script of its own: steps to do, one after the other,
whenever it is called back. -/

namespace ContextBroker

namespace Scenario

/-- A token that a step uses. -/
inductive TokenName
  | named (token : Token)
  /-- The token of the callback in which the step is done. -/
  | own
  deriving DecidableEq, Inhabited

/-- The callback in which a step is done: whom it is about, and the token it came with. -/
structure Scene where
  identity : Identity := ⟨"", "", none, ""⟩
  token : Token := Token.noRequest
  deriving DecidableEq, Inhabited

/-- The identity meant by a step that may leave it to the scene. -/
def Scene.whom (scene : Scene) (identity : Option Identity) : Identity :=
  identity.getD scene.identity

/-- The token meant by a name. -/
def Scene.tokenOf (scene : Scene) : TokenName → Token
  | .named t => t
  | .own => scene.token

/-- What a step does. An identity that is left out is that of the scene. -/
inductive Action
  /-- Binds a provider; what it reports of itself counts when it is new. -/
  | register (identity : Option Identity) (provider : Provider) (kind : Kind) (retrievable : Bool)
  | unregister (identity : Option Identity)
  | setState (identity : Option Identity) (payload : String) (policy : RefreshPolicy)
      (token : Option TokenName)
  | pushState (identity : Option Identity) (sample : Sample)
  | report (identity : Option Identity) (sample : Sample) (cause : Cause)
  | getContext (endpoint : String) (timeout : Nat)
  | getDefaultContext
  | respond (identity : Option Identity) (sample : Sample) (token : TokenName)
  | unavailable (identity : Option Identity) (token : TokenName) (unreachable : Bool)
  | read (endpoint : String)
  | metrics
  | shutdown
  | addObserver (observer : Observer)
  | removeObserver (observer : Observer)
  | info
  /-- Makes a further handle. -/
  | share
  | drop
  /-- Changes what a provider reports of itself. -/
  | setRetrievable (provider : Provider) (retrievable : Bool)
  /-- Lets a timeout elapse that is kept until then. -/
  | fire (timer : TimerId)
  deriving DecidableEq, Inhabited

namespace Action

/-- The call that an action makes. -/
def call? (scene : Scene) (requester : Requester) : Action → Option Call
  | .register i provider kind _ => some (.register (scene.whom i) provider kind)
  | .unregister i => some (.unregister (scene.whom i))
  | .setState i payload policy token =>
    some (.setState (scene.whom i) payload policy (token.map scene.tokenOf))
  | .pushState i sample => some (.pushState (scene.whom i) sample)
  | .report i sample cause => some (.report (scene.whom i) sample cause)
  | .getContext endpoint timeout => some (.getContext requester endpoint timeout)
  | .getDefaultContext => some (.getDefaultContext requester)
  | .respond i sample token => some (.respond (scene.whom i) sample (scene.tokenOf token))
  | .unavailable i token unreachable =>
    some (.unavailable (scene.whom i) (scene.tokenOf token) unreachable)
  | .read endpoint => some (.read endpoint)
  | .metrics => some .metrics
  | .shutdown => some .shutdown
  | _ => none

/-- Adds a provider that is asked for its state. -/
def addProvider (identity : Option Identity) (provider : Provider) (retrievable : Bool) : Action :=
  .register identity provider .pull retrievable

/-- Sets the provider that pushes, or takes it away. -/
def setProvider (identity : Option Identity) (provider : Option Provider) (retrievable : Bool) :
    Action :=
  match provider with
  | some provider => .register identity provider (.push .always) retrievable
  | none => .unregister identity

@[simp] theorem call?_addProvider (scene : Scene) (requester : Requester) (i : Option Identity)
    (provider : Provider) (retrievable : Bool) :
    (addProvider i provider retrievable).call? scene requester =
      some (Call.addProvider (scene.whom i) provider) := rfl

@[simp] theorem call?_setProvider (scene : Scene) (requester : Requester) (i : Option Identity)
    (provider : Option Provider) (retrievable : Bool) :
    (setProvider i provider retrievable).call? scene requester =
      some (Call.setProvider (scene.whom i) provider) := by
  cases provider <;> rfl

end Action

/-- One thing done with a broker. -/
structure Step where
  /-- The handle it is done with. -/
  handle : Nat := 0
  /-- How much later it is done, in milliseconds. -/
  delay : Option Nat := none
  action : Action
  /-- What the party that the step brings in does when it is called back. -/
  script : List Step := []
  /-- The number of times it does. -/
  times : Nat := 1

namespace Step

mutual

/-- A bound on what a step can set off. -/
def weight : Step → Nat
  | ⟨_, _, _, script, times⟩ =>
    17 + times * (1 + weights script)

/-- A bound on what steps can set off, one after the other. -/
def weights : List Step → Nat
  | [] => 0
  | step :: steps => step.weight + weights steps

end

theorem weight_eq (step : Step) :
    step.weight = 17 + step.times * (1 + weights step.script) := by
  cases step
  rw [weight]

end Step

/-- Whoever is called back. -/
structure Party where
  /-- What a provider reports of itself. -/
  retrievable : Bool := true
  script : List Step := []
  /-- The number of callbacks in which it does its script. -/
  left : Nat := 0

namespace Party

/-- A bound on what a party can set off. -/
def weight (p : Party) : Nat := p.left * (1 + Step.weights p.script)

/-- What the party does when it is called back now, and the party after that. -/
def called (p : Party) : List Step × Party :=
  match p.left with
  | 0 => ([], p)
  | left + 1 => (p.script, { p with left })

/-- A party whose script is not empty gets lighter with each callback in which it does it. -/
theorem weight_called (p : Party) :
    Step.weights p.called.1 + p.called.2.weight ≤ p.weight ∧
      (p.called.1 ≠ [] → Step.weights p.called.1 + p.called.2.weight < p.weight) := by
  obtain ⟨_, _, left⟩ := p
  cases left with
  | zero => simp [called, Step.weights]
  | succ n =>
    simp only [called, weight, Nat.succ_mul]
    constructor <;> intros <;> omega

end Party

end Scenario

end ContextBroker
