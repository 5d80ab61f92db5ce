import ContextBroker.Sorted.Set

set_option autoImplicit false

/-! # Capability identities

An `Identity` names one capability on one endpoint. Identities are ordered by namespace, name,
instance (none first) and endpoint, and written `ns.name[instance]@endpoint`. -/

namespace ContextBroker

/-- One capability on one endpoint. An empty endpoint stands for the default endpoint, and is
    filled in (`Identity.resolve`) before the identity is used as a key. -/
structure Identity where
  ns : String
  name : String
  /-- Tells several capabilities of one name apart; an empty instance is still an instance. -/
  inst : Option String := none
  endpoint : String := ""
  deriving DecidableEq, Hashable, Inhabited

namespace Identity

/-! ## Order -/

/-- By namespace, then name, then instance with none first, then endpoint. -/
instance : Ord Identity where
  compare := compareLex (compareOn ns)
    (compareLex (compareOn name) (compareLex (compareOn inst) (compareOn endpoint)))

instance : Std.TransOrd Identity :=
  inferInstanceAs <| Std.TransCmp (compareLex _ _)

instance : Std.LawfulEqOrd Identity where
  eq_of_compare {a b} h := by
    obtain ⟨h₁, h⟩ : compareOn ns a b = .eq ∧ _ := compareLex_eq_eq.1 h
    obtain ⟨h₂, h⟩ : compareOn name a b = .eq ∧ _ := compareLex_eq_eq.1 h
    obtain ⟨h₃, h₄⟩ : compareOn inst a b = .eq ∧ _ := compareLex_eq_eq.1 h
    cases a
    cases b
    have h₁ := Std.LawfulEqOrd.eq_of_compare h₁
    have h₂ := Std.LawfulEqOrd.eq_of_compare h₂
    have h₃ := Std.LawfulEqOrd.eq_of_compare h₃
    have h₄ := Std.LawfulEqOrd.eq_of_compare h₄
    simp_all

/-! ## Endpoints -/

/-- Whether the identity leaves its endpoint to the default. -/
def usesDefaultEndpoint (i : Identity) : Bool := i.endpoint.isEmpty

/-- The endpoint `e` stands for: itself, or `fallback` when it is empty. -/
def resolveEndpoint (fallback e : String) : String := if e.isEmpty then fallback else e

/-- The identity on the endpoint it stands for. -/
def resolve (fallback : String) (i : Identity) : Identity :=
  { i with endpoint := resolveEndpoint fallback i.endpoint }

@[simp] theorem resolve_ns (d : String) (i : Identity) : (i.resolve d).ns = i.ns := rfl

@[simp] theorem resolve_endpoint (d : String) (i : Identity) :
    (i.resolve d).endpoint = resolveEndpoint d i.endpoint := rfl

/-! ## Text -/

/-- The written form: `ns.name`, `[instance]` when there is one, `@endpoint` when it is not empty. -/
def text (i : Identity) : String :=
  let inst := match i.inst with
    | some s => "[" ++ s ++ "]"
    | none => ""
  let endpoint := if i.endpoint.isEmpty then "" else "@" ++ i.endpoint
  i.ns ++ "." ++ i.name ++ inst ++ endpoint

end Identity

end ContextBroker
