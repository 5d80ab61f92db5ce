import ContextBroker.Sorted.Set

set_option autoImplicit false

/-! # Request tokens

A `Token` ties a request to its answers. Tokens are 32-bit words; zero is tied to no request and is
never handed out. A `TokenAllocator` hands out the free token that comes next after the one it
handed out last, going round from the largest token to 1. -/

namespace ContextBroker

/-- Ties a request to its answers. -/
abbrev Token := UInt32

namespace Token

/-- The token that is tied to no request. -/
def noRequest : Token := 0

/-- The largest token. -/
def largest : Token := 4294967295

/-- The token after `t`; 1 comes after the largest. -/
def next (t : Token) : Token := if t = largest then 1 else t + 1

end Token

/-- Which tokens are in flight, and which was handed out last. -/
structure TokenAllocator where
  last : Token := Token.noRequest
  live : SortedSet Token := ∅
  deriving DecidableEq, Inhabited

namespace TokenAllocator

/-- The first token not in `live` among the `n` tokens that come after `t`. -/
def firstFree (live : SortedSet Token) : Nat → Token → Option Token
  | 0, _ => none
  | n + 1, t => if t.next ∈ live then firstFree live n t.next else some t.next

/-- How many tokens can be in flight: every one but zero. -/
def capacity : Nat := 4294967295

/-- Hands out the next free token; `none` when every token is in flight. -/
def allocate? (a : TokenAllocator) : Option (Token × TokenAllocator) :=
  (firstFree a.live capacity a.last).map fun t => (t, ⟨t, a.live.insert t⟩)

/-- Whether `t` is in flight. -/
def isLive (a : TokenAllocator) (t : Token) : Bool := a.live.contains t

/-- Takes `t` out of flight. -/
def release (a : TokenAllocator) (t : Token) : TokenAllocator := { a with live := a.live.erase t }

end TokenAllocator

end ContextBroker
