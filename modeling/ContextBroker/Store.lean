import ContextBroker.Failure
import ContextBroker.Tally

set_option autoImplicit false

/-! # The state store

A `Store` holds the bindings of every endpoint, one map per endpoint, and no empty map. Reading an
endpoint touches no other one. -/

namespace ContextBroker

/-- Bindings by identity. -/
abbrev Bindings := SortedMap Identity Binding

/-- A capability to poll, and the provider to ask. -/
structure PollTarget where
  identity : Identity
  provider : Provider
  deriving DecidableEq, Inhabited

/-- The bindings, endpoint by endpoint. -/
structure Store where
  endpoints : SortedMap String Bindings := ∅
  deriving DecidableEq, Inhabited

namespace Store

/-- The bindings on one endpoint. -/
def bindings (s : Store) (endpoint : String) : Bindings :=
  (s.endpoints.get? endpoint).getD ∅

/-- The binding of `i`. -/
def get? (s : Store) (i : Identity) : Option Binding := (s.bindings i.endpoint).get? i

/-- Whether `i` is bound. -/
def contains (s : Store) (i : Identity) : Bool := (s.get? i).isSome

/-- The number of bindings. -/
def size (s : Store) : Nat := tally SortedMap.size s.endpoints.values

/-- Whether nothing is bound. -/
def isEmpty (s : Store) : Bool := s.endpoints.isEmpty

/-! ## Writing -/

/-- Puts `b` at `i`. -/
def put (s : Store) (i : Identity) (b : Binding) : Store :=
  ⟨s.endpoints.insert i.endpoint ((s.bindings i.endpoint).insert i b)⟩

/-- Binds `i` to a provider. The cached sample outlives a binding of the same kind only. Also tells
    whether a binding was replaced. -/
def register (s : Store) (i : Identity) (provider : Provider) (kind : Kind) : Store × Bool :=
  match s.get? i with
  | some old =>
    let kept := if old.kind = kind then { old with provider } else { provider, kind }
    (s.put i kept, true)
  | none => (s.put i { provider, kind }, false)

/-- Unbinds `i`, and returns what was bound. -/
def unregister (s : Store) (i : Identity) : Except CallError (Store × Binding) :=
  match s.get? i with
  | none => .error (.unbound i)
  | some old =>
    let rest := (s.bindings i.endpoint).erase i
    let endpoints :=
      if rest.isEmpty then s.endpoints.erase i.endpoint else s.endpoints.insert i.endpoint rest
    .ok (⟨endpoints⟩, old)

/-- Writes a sample, whatever the kind. -/
def push (s : Store) (i : Identity) (sample : Sample) : Except CallError Store :=
  match s.get? i with
  | none => .error (.unbound i)
  | some b => .ok (s.put i (b.write sample))

/-- Writes a payload under a refresh policy that the binding allows. -/
def pushUnder (s : Store) (i : Identity) (payload : String) (policy : RefreshPolicy)
    (now : Timestamp) : Except CallError Store :=
  match s.get? i with
  | none => .error (.unbound i)
  | some b =>
    if b.kind.allows policy then .ok (s.put i (b.writeUnder policy payload now))
    else .error (.policyChange i b.kind.text policy)

/-! ## Reading an endpoint -/

/-- The samples that `report` gives for the bindings of an endpoint, in identity order. -/
def gather (s : Store) (endpoint : String) (report : Identity → Binding → Option Sample) :
    Context :=
  (s.bindings endpoint).toList.filterMap fun (i, b) => (report i b).map fun sample => (i, sample)

/-- The cached context of an endpoint: a binding refreshed sometimes is part of it while fresh. -/
def read (s : Store) (endpoint : String) : Context :=
  s.gather endpoint fun _ b => b.reported b.fresh

/-- The context of one request: what was refreshed for it counts as refreshed, and what was found
    unavailable is left out. -/
def aggregate (s : Store) (endpoint : String) (refreshed unavailable : SortedSet Identity) :
    Context :=
  s.gather endpoint fun i b =>
    if i ∈ unavailable then none else b.reported (refreshed.contains i)

/-- The capabilities to poll for a request, in identity order, and the store with those of them
    that are refreshed sometimes marked stale. -/
def scatter (s : Store) (retrievable : Provider → Bool) (endpoint : String) :
    Store × List PollTarget :=
  match s.endpoints.get? endpoint with
  | none => (s, [])
  | some bs =>
    let targets := bs.filter fun _ b => b.needsPoll retrievable
    (⟨s.endpoints.insert endpoint (bs.mapValues fun _ b => b.polled)⟩,
      targets.toList.map fun (i, b) => ⟨i, b.provider⟩)

end Store

end ContextBroker
