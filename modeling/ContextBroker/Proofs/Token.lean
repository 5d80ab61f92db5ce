import ContextBroker.Token

set_option autoImplicit false

/-! # Handing out tokens

The allocator goes through the tokens after the last one in their cyclic order, which leaves zero
out, and hands out the first that is not in flight. -/

namespace ContextBroker

theorem Token.next_ne_noRequest (t : Token) : t.next ≠ noRequest := by
  unfold next noRequest
  split
  · decide
  · rename_i h
    intro h0
    refine h (UInt32.toNat_inj.1 ?_)
    have hn := congrArg UInt32.toNat h0
    have := t.toNat_lt
    simp only [UInt32.toNat_add, UInt32.toNat_one, UInt32.toNat_zero] at hn
    show t.toNat = 4294967295
    omega

namespace TokenAllocator

/-- What is found among the tokens after `t` is free, and never zero. -/
theorem firstFree_spec {live : SortedSet Token} {u : Token} :
    ∀ {n : Nat} {t : Token}, firstFree live n t = some u → ¬ u ∈ live ∧ u ≠ Token.noRequest
  | 0, t, h => by simp [firstFree] at h
  | n + 1, t, h => by
    unfold firstFree at h
    split at h
    · exact firstFree_spec h
    · rename_i hfree
      obtain rfl := Option.some.inj h
      exact ⟨hfree, t.next_ne_noRequest⟩

/-- A token that is handed out was free and is not zero, and is the only one to become live. -/
theorem allocate?_spec {a a' : TokenAllocator} {t : Token} (h : a.allocate? = some (t, a')) :
    ¬ t ∈ a.live ∧ t ≠ Token.noRequest ∧ a' = ⟨t, a.live.insert t⟩ := by
  obtain ⟨u, hu, he⟩ := Option.map_eq_some_iff.1 h
  obtain ⟨rfl, rfl⟩ := Prod.mk.inj he
  exact ⟨(firstFree_spec hu).1, (firstFree_spec hu).2, rfl⟩

end TokenAllocator

end ContextBroker
