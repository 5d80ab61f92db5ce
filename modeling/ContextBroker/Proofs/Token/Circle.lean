import ContextBroker.Proofs.Token
import Mathlib.Data.List.Iterate
import Mathlib.Data.List.Nodup
import Mathlib.Data.Set.Basic
import Mathlib.Order.Bounds.Defs

set_option autoImplicit false

/-! # The circle of tokens

The tokens other than zero stand on a circle, on which 1 comes after the largest. `Token.gap t u`
counts those that lie between `t` and `u` on the way round, so that `u` is reached from `t` by
`gap t u + 1` steps and by no other number of steps that is not larger than the circle
(`Token.iterate_next_gap`, `Token.gap_iterate_next`). The allocator takes up to one whole turn after
the last token, on which it meets every token once (`Token.count_turn`), and so it hands out the
free token with the smallest gap (`TokenAllocator.allocate?_eq_some`). Below and above the last
token the smaller gap belongs to the smaller token (`Token.gap_lt_gap`). -/

namespace ContextBroker

namespace Token

open TokenAllocator (capacity)

/-- How many tokens lie between `t` and `u` on the way round. From zero the way is that from the
    largest token. -/
def gap (t u : Token) : Nat := (u.toNat + (capacity - 1) - t.toNat) % capacity

/-- All tokens that are met on one turn after `t`, in order. -/
def turn (t : Token) : List Token := List.iterate next t.next capacity

/-! ## Steps and gaps -/

theorem toNat_next (t : Token) : t.next.toNat = t.toNat % capacity + 1 := by
  have hlt := t.toNat_lt
  unfold next
  split
  · rename_i h
    rw [h]
    rfl
  · rename_i h
    have hne : t.toNat ≠ 4294967295 := fun h' => h (UInt32.toNat_inj.1 h')
    simp only [UInt32.toNat_add, UInt32.toNat_one, capacity]
    omega

theorem toNat_iterate_next (t : Token) (n : Nat) :
    (next^[n] t.next).toNat = (t.toNat + n) % capacity + 1 := by
  induction n with
  | zero => exact toNat_next t
  | succ n ih =>
    rw [Function.iterate_succ_apply', toNat_next, ih]
    simp only [capacity]
    omega

theorem toNat_pos {t : Token} (h : t ≠ noRequest) : 0 < t.toNat := by
  refine Nat.pos_of_ne_zero fun h0 => h (UInt32.toNat_inj.1 ?_)
  rw [h0]
  rfl

theorem iterate_next_ne_noRequest (t : Token) (n : Nat) : next^[n] t.next ≠ noRequest := by
  intro h
  have hn := congrArg UInt32.toNat h
  rw [toNat_iterate_next] at hn
  exact Nat.succ_ne_zero _ hn

theorem gap_lt (t u : Token) : t.gap u < capacity := Nat.mod_lt _ (by decide)

/-- The gap tells how to get from one token to another. -/
theorem iterate_next_gap (t : Token) {u : Token} (hu : u ≠ noRequest) :
    next^[t.gap u] t.next = u := by
  have hpos := toNat_pos hu
  have ht := t.toNat_lt
  have hlt := u.toNat_lt
  refine UInt32.toNat_inj.1 ?_
  rw [toNat_iterate_next]
  simp only [gap, capacity]
  omega

/-- There is no shorter way. -/
theorem gap_iterate_next (t : Token) {n : Nat} (hn : n < capacity) :
    t.gap (next^[n] t.next) = n := by
  have ht := t.toNat_lt
  simp only [gap, toNat_iterate_next]
  simp only [capacity] at hn ⊢
  omega

/-- On one turn every token is met once, and zero is not met. -/
theorem count_turn (t u : Token) : t.turn.count u = if u = noRequest then 0 else 1 := by
  have hturn : t.turn = (List.range capacity).map fun n => next^[n] t.next :=
    (List.range_map_iterate capacity next t.next).symm
  have hnodup : t.turn.Nodup := by
    rw [hturn]
    refine List.Nodup.map_on (fun m hm n hn h => ?_) List.nodup_range
    rw [← t.gap_iterate_next (List.mem_range.1 hm), h, t.gap_iterate_next (List.mem_range.1 hn)]
  split
  · rename_i hu
    rw [List.count_eq_zero, turn, List.mem_iterate]
    rintro ⟨n, -, h⟩
    exact iterate_next_ne_noRequest t n (h.symm.trans hu)
  · rename_i hu
    refine List.count_eq_one_of_mem hnodup (List.mem_iterate.2 ⟨t.gap u, t.gap_lt u, ?_⟩)
    exact (t.iterate_next_gap hu).symm

/-- Seen from `t`, the tokens above it come first and then those up to it, both from the smallest
    on. -/
theorem gap_lt_gap (t : Token) {u v : Token} (hu : u ≠ noRequest) (hv : v ≠ noRequest) :
    t.gap u < t.gap v ↔ (t < u ∧ (v ≤ t ∨ u < v)) ∨ (u ≤ t ∧ v ≤ t ∧ u < v) := by
  have hu' := toNat_pos hu
  have hv' := toNat_pos hv
  have := t.toNat_lt
  have := u.toNat_lt
  have := v.toNat_lt
  simp only [UInt32.lt_iff_toNat_lt, UInt32.le_iff_toNat_le, gap, capacity]
  omega

end Token

namespace TokenAllocator

variable {a a' : TokenAllocator} {t : Token}

/-! ## The search -/

/-- The search goes along the circle. -/
theorem firstFree_eq_find? (live : SortedSet Token) (n : Nat) (t : Token) :
    firstFree live n t = (List.iterate Token.next t.next n).find? fun u => !live.contains u := by
  induction n generalizing t with
  | zero => rfl
  | succ n ih =>
    rw [firstFree, List.iterate, List.find?_cons, ih]
    by_cases h : t.next ∈ live
    · rw [if_pos h, SortedSet.contains_iff_mem.2 h]
      rfl
    · rw [if_neg h, Bool.eq_false_iff.2 fun hc => h (SortedSet.contains_iff_mem.1 hc)]
      rfl

theorem allocate?_eq_find? (a : TokenAllocator) :
    a.allocate? = (a.last.turn.find? fun u => !a.live.contains u).map
      fun t => ⟨t, t, a.live.insert t⟩ := by
  rw [allocate?, firstFree_eq_find?]
  rfl

/-- **What is handed out** is the free token with the smallest gap to the last one. -/
theorem allocate?_eq_some :
    a.allocate? = some (t, a') ↔
      ¬ t ∈ a.live ∧ t ≠ Token.noRequest ∧
      (∀ u, u ≠ Token.noRequest → a.last.gap u < a.last.gap t → u ∈ a.live) ∧
      a' = ⟨t, a.live.insert t⟩ := by
  have hfree : ∀ u, (!a.live.contains u) = true ↔ ¬ u ∈ a.live := fun u => by
    rw [Bool.not_eq_true', ← Bool.not_eq_true, SortedSet.contains_iff_mem]
  simp only [allocate?_eq_find?, Option.map_eq_some_iff, List.find?_eq_some_iff_getElem, hfree,
    Token.turn, List.length_iterate, List.getElem_iterate, Bool.not_not, SortedSet.contains_iff_mem]
  constructor
  · rintro ⟨u, ⟨hu, n, hn, rfl, hlive⟩, he⟩
    obtain ⟨rfl, rfl⟩ := Prod.mk.inj he
    refine ⟨hu, Token.iterate_next_ne_noRequest _ n, fun v hv hlt => ?_, rfl⟩
    rw [Token.gap_iterate_next _ hn] at hlt
    rw [← a.last.iterate_next_gap hv]
    exact hlive _ hlt
  · rintro ⟨ht, hne, hlive, rfl⟩
    refine ⟨t, ⟨ht, a.last.gap t, a.last.gap_lt t, a.last.iterate_next_gap hne, fun n hn => ?_⟩,
      rfl⟩
    refine hlive _ (Token.iterate_next_ne_noRequest _ n) ?_
    rwa [Token.gap_iterate_next _ (Nat.lt_trans hn (a.last.gap_lt t))]

/-- Nothing is handed out only when every token but zero is live. -/
theorem allocate?_eq_none : a.allocate? = none ↔ ∀ u, u ≠ Token.noRequest → u ∈ a.live := by
  simp only [allocate?_eq_find?, Option.map_eq_none_iff, List.find?_eq_none, Bool.not_eq_true,
    Bool.not_eq_false', SortedSet.contains_iff_mem]
  refine forall_congr' fun u => imp_congr_left ?_
  rw [← List.one_le_count_iff, a.last.count_turn u]
  split <;> simp_all

/-! ## Below and above the last token -/

/-- The free tokens that are greater than the last one. -/
def ahead (a : TokenAllocator) : Set Token := {u | a.last < u ∧ ¬ u ∈ a.live}

/-- The free tokens. -/
def free (a : TokenAllocator) : Set Token := {u | u ≠ Token.noRequest ∧ ¬ u ∈ a.live}

theorem ahead_subset_free (a : TokenAllocator) : a.ahead ⊆ a.free := by
  rintro u ⟨hlt, hlive⟩
  refine ⟨?_, hlive⟩
  rintro rfl
  exact UInt32.not_lt.2 (UInt32.le_iff_toNat_le.2 (Nat.zero_le _)) hlt

/-- The free token with the smallest gap is the smallest of those greater than the last one, and if
    there are none the smallest of all. -/
theorem least_gap_iff (ht : t ∈ a.free) :
    (∀ u, u ≠ Token.noRequest → a.last.gap u < a.last.gap t → u ∈ a.live) ↔
      (a.ahead.Nonempty → IsLeast a.ahead t) ∧ (a.ahead = ∅ → IsLeast a.free t) := by
  constructor
  · intro h
    -- A free token is no nearer than `t`.
    have hfar : ∀ {u}, u ∈ a.free → ¬ a.last.gap u < a.last.gap t :=
      fun hu hlt => hu.2 (h _ hu.1 hlt)
    refine ⟨fun ⟨u, hu⟩ => ⟨⟨?_, ht.2⟩, fun v hv => ?_⟩, fun hnone => ⟨ht, fun v hv => ?_⟩⟩
    · by_contra hle
      have hfree := a.ahead_subset_free hu
      refine hfar hfree ((a.last.gap_lt_gap hfree.1 ht.1).2 (.inl ⟨hu.1, .inl ?_⟩))
      exact UInt32.not_lt.1 hle
    · by_contra hlt
      have hfree := a.ahead_subset_free hv
      refine hfar hfree ((a.last.gap_lt_gap hfree.1 ht.1).2 (.inl ⟨hv.1, .inr ?_⟩))
      exact UInt32.not_le.1 hlt
    · have hbelow : ∀ {u}, u ∈ a.free → u ≤ a.last := fun {u} hu => by
        by_contra hlt
        have hmem : u ∈ a.ahead := ⟨UInt32.not_le.1 hlt, hu.2⟩
        rw [hnone] at hmem
        exact hmem
      by_contra hlt
      refine hfar hv ((a.last.gap_lt_gap hv.1 ht.1).2 (.inr ⟨hbelow hv, hbelow ht, ?_⟩))
      exact UInt32.not_le.1 hlt
  · rintro ⟨hahead, hfree⟩ u hu hlt
    by_contra hlive
    rcases (a.last.gap_lt_gap hu ht.1).1 hlt with ⟨hau, htu⟩ | ⟨hua, hta, hut⟩
    · obtain ⟨⟨hat, -⟩, hle⟩ := hahead ⟨u, hau, hlive⟩
      rcases htu with hta | hut
      · exact UInt32.not_lt.2 hta hat
      · exact UInt32.not_lt.2 (hle ⟨hau, hlive⟩) hut
    · rcases Set.eq_empty_or_nonempty a.ahead with hnone | hsome
      · exact UInt32.not_lt.2 ((hfree hnone).2 ⟨hu, hlive⟩) hut
      · exact UInt32.not_lt.2 hta (hahead hsome).1.1

/-- An allocator is known by its last token and by which tokens are live. -/
theorem eq_inserted_iff :
    a' = ⟨t, a.live.insert t⟩ ↔ a'.last = t ∧ ∀ u, u ∈ a'.live ↔ u = t ∨ u ∈ a.live := by
  constructor
  · rintro rfl
    exact ⟨rfl, fun u => SortedSet.mem_insert⟩
  · rintro ⟨rfl, hlive⟩
    have h : a'.live = a.live.insert a'.last :=
      SortedSet.ext fun u => (hlive u).trans SortedSet.mem_insert.symm
    rw [← h]

/-- **Handing out tokens.** What is handed out is the smallest free token greater than the last one,
    and if there is none the smallest free token of all; so it is never zero and never live. It
    becomes the last one and live, and no other token changes. Nothing is handed out only when every
    token but zero is live: the search takes one turn of the circle, on which it meets each of them
    once. -/
theorem hands_out_next_free (a : TokenAllocator) :
    (∀ t a', a.allocate? = some (t, a') ↔
      (a.ahead.Nonempty → IsLeast a.ahead t) ∧ (a.ahead = ∅ → IsLeast a.free t) ∧
      a'.last = t ∧ ∀ u, u ∈ a'.live ↔ u = t ∨ u ∈ a.live) ∧
    (∀ t a', a.allocate? = some (t, a') → t ≠ Token.noRequest ∧ ¬ t ∈ a.live) ∧
    (a.allocate? = none ↔ ∀ u, u ≠ Token.noRequest → u ∈ a.live) ∧
    a.allocate?.map (·.1) = a.last.turn.find? (fun u => !a.live.contains u) ∧
    ∀ u, a.last.turn.count u = if u = Token.noRequest then 0 else 1 := by
  refine ⟨fun t a' => ?_, fun t a' h => ?_, a.allocate?_eq_none, ?_, a.last.count_turn⟩
  · rw [allocate?_eq_some, eq_inserted_iff]
    constructor
    · rintro ⟨hlive, hne, hgap, hstate⟩
      obtain ⟨hahead, hfree⟩ := (least_gap_iff ⟨hne, hlive⟩).1 hgap
      exact ⟨hahead, hfree, hstate⟩
    · rintro ⟨hahead, hfree, hstate⟩
      have ht : t ∈ a.free := by
        rcases Set.eq_empty_or_nonempty a.ahead with hnone | hsome
        · exact (hfree hnone).1
        · exact a.ahead_subset_free (hahead hsome).1
      exact ⟨ht.2, ht.1, (least_gap_iff ht).2 ⟨hahead, hfree⟩, hstate⟩
  · obtain ⟨hlive, hne, -⟩ := allocate?_eq_some.1 h
    exact ⟨hne, hlive⟩
  · rw [allocate?_eq_find?, Option.map_map]
    exact Option.map_id'

end TokenAllocator

end ContextBroker
