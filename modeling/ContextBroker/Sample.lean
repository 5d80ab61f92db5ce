import ContextBroker.Identity
import ContextBroker.Timestamp

set_option autoImplicit false

/-! # Samples and contexts

A `Sample` is a capability's state as its provider reported it. A `Context` lists the samples of
one endpoint by identity. -/

namespace ContextBroker

/-- A reported state. The payload belongs to the provider and is never looked into. -/
structure Sample where
  payload : String
  time : Timestamp
  /-- How far off the time may be, in milliseconds. -/
  uncertainty : UInt32 := 0
  deriving DecidableEq, Inhabited

/-- The samples of an endpoint, in identity order. -/
abbrev Context := List (Identity × Sample)

/-- Why a state changed. -/
inductive Cause
  | appInteraction
  | physicalInteraction
  | periodicPoll
  | ruleTrigger
  | voiceInteraction
  | alexaInteraction
  deriving DecidableEq, Inhabited

namespace Cause

/-- Every cause, in the order of their declaration. -/
def all : List Cause :=
  [appInteraction, physicalInteraction, periodicPoll, ruleTrigger, voiceInteraction,
   alexaInteraction]

/-- The written name. -/
def text : Cause → String
  | appInteraction => "app-interaction"
  | physicalInteraction => "physical-interaction"
  | periodicPoll => "periodic-poll"
  | ruleTrigger => "rule-trigger"
  | voiceInteraction => "voice-interaction"
  | alexaInteraction => "alexa-interaction"

end Cause

end ContextBroker
