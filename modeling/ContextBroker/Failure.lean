import ContextBroker.Binding
import ContextBroker.Token

set_option autoImplicit false

/-! # Failures

A `CallError` is returned to whoever called; a `RequestError` is delivered to the requester of a
context in place of the context. -/

namespace ContextBroker

/-- Why a call was turned down. -/
inductive CallError
  /-- Nothing is bound to the identity. -/
  | unbound (identity : Identity)
  /-- A push under policy `requested` met a binding of the kind named `current`. -/
  | policyChange (identity : Identity) (current : String) (requested : RefreshPolicy)
  /-- No open request has the token. -/
  | staleToken (token : Token)
  /-- No more work is accepted. -/
  | shuttingDown
  deriving DecidableEq, Inhabited

/-- What a caller is told. -/
def CallError.message : CallError → String
  | unbound i => "Capability not registered: " ++ i.text
  | policyChange i current requested =>
    "Refresh policy of " ++ i.text ++ " cannot change from " ++ current ++ " to " ++ requested.text
  | staleToken t => "State request token " ++ toString t.toNat ++ " is not in flight"
  | shuttingDown => "Context manager is shutting down"

/-- Why a request ended without a context. -/
inductive RequestError
  | timeout
  | endpointUnreachable
  | cancelled
  deriving DecidableEq, Inhabited

/-- What a requester is told. -/
def RequestError.message : RequestError → String
  | timeout => "Context request timed out"
  | endpointUnreachable => "Endpoint unreachable"
  | cancelled => "Context request cancelled"

end ContextBroker
