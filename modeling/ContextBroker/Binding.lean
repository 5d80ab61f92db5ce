import ContextBroker.Sample

set_option autoImplicit false

/-! # Bindings

A `Binding` ties a capability to its provider and caches the last sample. Its `Kind` says how the
state arrives: a *pull* binding is polled for every request, a *push* binding is written by its
provider under a `RefreshPolicy` that decides whether the cached sample takes part in a context. -/

namespace ContextBroker

/-! ## Kinds -/

/-- How a pushed state takes part in contexts. -/
inductive RefreshPolicy
  /-- The cached sample is part of every context, and is never polled for. -/
  | always
  /-- Polled for; part of a context only when refreshed for it. -/
  | sometimes
  /-- Never part of a context. -/
  | never
  deriving DecidableEq, Inhabited

namespace RefreshPolicy

/-- Every policy, in the order of their declaration. -/
def all : List RefreshPolicy := [always, sometimes, never]

/-- The written name. -/
def text : RefreshPolicy → String
  | always => "always"
  | sometimes => "sometimes"
  | never => "never"

/-- A push may switch between `always` and `sometimes`, but neither to nor from `never`. -/
def allows (current requested : RefreshPolicy) : Bool :=
  current = requested || (current ≠ never && requested ≠ never)

end RefreshPolicy

/-- How a capability delivers its state. -/
inductive Kind
  /-- The provider pushes under a policy. -/
  | push (policy : RefreshPolicy)
  /-- The provider is asked for every request. -/
  | pull
  deriving DecidableEq, Inhabited

namespace Kind

/-- The policy of a push binding. -/
def policy? : Kind → Option RefreshPolicy
  | push p => some p
  | pull => none

/-- The written name: that of the policy, or `pull`. -/
def text : Kind → String
  | push p => p.text
  | pull => "pull"

/-- Whether a push under `requested` is accepted; a polled binding accepts none. -/
def allows (k : Kind) (requested : RefreshPolicy) : Bool :=
  k.policy?.any (·.allows requested)

end Kind

/-! ## Bindings -/

/-- A provider of states, by its number. -/
abbrev Provider := Nat

/-- A capability's provider and the last sample it reported. -/
structure Binding where
  provider : Provider
  kind : Kind
  state : Option Sample := none
  /-- Written since the last poll that asked for it. -/
  fresh : Bool := false
  deriving DecidableEq, Inhabited

namespace Binding

/-- Whether a request polls the provider: always for a push binding refreshed sometimes, and for a
    pull binding when the provider says that its state can be retrieved. -/
def needsPoll (retrievable : Provider → Bool) (b : Binding) : Bool :=
  match b.kind with
  | .pull => retrievable b.provider
  | .push p => p = .sometimes

/-- The sample that takes part in a context; `refreshed` says whether the binding was refreshed for
    that context, which only the policy `sometimes` asks. -/
def reported (refreshed : Bool) (b : Binding) : Option Sample :=
  match b.kind with
  | .pull | .push .always => b.state
  | .push .sometimes => if refreshed then b.state else none
  | .push .never => none

/-- The binding after a sample was written. -/
def write (s : Sample) (b : Binding) : Binding := { b with state := some s, fresh := true }

/-- The binding after a push under policy `p` at `now`. An empty payload clears the sample. -/
def writeUnder (p : RefreshPolicy) (payload : String) (now : Timestamp) (b : Binding) : Binding :=
  let b := { b with kind := .push p }
  if payload.isEmpty then { b with state := none, fresh := false }
  else b.write { payload, time := now }

/-- The binding after a poll: a push binding refreshed sometimes is stale until written again. -/
def polled (b : Binding) : Binding :=
  if b.kind = .push .sometimes then { b with fresh := false } else b

end Binding

end ContextBroker
