set_option autoImplicit false

/-! # Settings

What a broker is set up with. -/

namespace ContextBroker

/-- A broker's settings. -/
structure Config where
  /-- The endpoint that is meant where none is named. -/
  endpoint : String := "default"
  /-- How long a request waits where no timeout is named, in milliseconds. -/
  timeout : UInt64 := 2000
  deriving DecidableEq, Inhabited

end ContextBroker
