import ContextBroker.Proofs.Token.Circle

set_option autoImplicit false

/-! # When a token comes again

Tokens are handed out and released in any order. Releasing a token leaves the last one where it is,
and handing one out moves it forward on the circle, past live tokens only. `travel` counts the steps
that it takes. Every token within these steps is met: it is handed out, or live when the search
comes by (`TokenAllocator.meets_of_gap_lt_travel`). From a token to the same token it is a number of
whole turns, so in between every other token is met (`TokenAllocator.comes_again_after_turn`). -/

namespace ContextBroker

/-- What lies beyond `v` is nearer from there, by the way to `v`. -/
theorem Token.gap_beyond {t u v : Token} (hu : u ≠ noRequest) (hv : v ≠ noRequest)
    (h : t.gap v < t.gap u) : v.gap u + t.gap v + 1 = t.gap u := by
  have hu' := toNat_pos hu
  have hv' := toNat_pos hv
  have := t.toNat_lt
  have := u.toNat_lt
  have := v.toNat_lt
  simp only [gap, TokenAllocator.capacity] at h ⊢
  omega

namespace TokenAllocator

/-- What is done with an allocator. -/
inductive Use
  /-- A token is handed out, unless every one is in flight. -/
  | allocate
  /-- A token is taken out of flight, if it is in flight. -/
  | release (token : Token)
  deriving DecidableEq

/-- The token that is handed out next. -/
def next? (a : TokenAllocator) : Option Token := a.allocate?.map (·.1)

/-- The allocator after it was used. When there is no token to hand out it stays as it is. -/
def use (a : TokenAllocator) : Use → TokenAllocator
  | .allocate => (a.allocate?.map (·.2)).getD a
  | .release t => a.release t

/-- The allocator after it was used several times. -/
def run (a : TokenAllocator) (uses : List Use) : TokenAllocator := uses.foldl use a

/-- How many steps on the circle the last token moves forward. -/
def travel (a : TokenAllocator) : List Use → Nat
  | [] => 0
  | .release t :: uses => (a.release t).travel uses
  | .allocate :: uses =>
    (a.next?.map fun t => a.last.gap t + 1).getD 0 + (a.use .allocate).travel uses

variable {a : TokenAllocator} {t u : Token}

/-! ## One use -/

theorem next?_eq_some :
    a.next? = some t ↔ ¬ t ∈ a.live ∧ t ≠ Token.noRequest ∧
      ∀ u, u ≠ Token.noRequest → a.last.gap u < a.last.gap t → u ∈ a.live := by
  unfold next?
  simp only [Option.map_eq_some_iff, Prod.exists, exists_and_right, exists_eq_right,
    allocate?_eq_some]
  constructor
  · rintro ⟨a', hlive, hne, hgap, -⟩
    exact ⟨hlive, hne, hgap⟩
  · rintro ⟨hlive, hne, hgap⟩
    exact ⟨_, hlive, hne, hgap, rfl⟩

theorem use_allocate (h : a.next? = some t) : a.use .allocate = ⟨t, a.live.insert t⟩ := by
  obtain ⟨hlive, hne, hgap⟩ := next?_eq_some.1 h
  rw [use, allocate?_eq_some.2 ⟨hlive, hne, hgap, rfl⟩]
  rfl

theorem use_allocate_of_none (h : a.next? = none) : a.use .allocate = a := by
  rw [use, Option.map_eq_none_iff.1 h]
  rfl

theorem travel_allocate (h : a.next? = some t) (uses : List Use) :
    a.travel (.allocate :: uses) = a.last.gap t + 1 + (a.use .allocate).travel uses := by
  rw [travel, h]
  rfl

theorem travel_allocate_of_none (h : a.next? = none) (uses : List Use) :
    a.travel (.allocate :: uses) = a.travel uses := by
  rw [travel, h, use_allocate_of_none h]
  exact Nat.zero_add _

/-! ## Several uses -/

theorem run_cons (a : TokenAllocator) (x : Use) (uses : List Use) :
    a.run (x :: uses) = (a.use x).run uses := rfl

theorem run_singleton (a : TokenAllocator) (x : Use) : a.run [x] = a.use x := rfl

theorem run_append (a : TokenAllocator) (l m : List Use) : a.run (l ++ m) = (a.run l).run m :=
  List.foldl_append

theorem travel_append (a : TokenAllocator) (l m : List Use) :
    a.travel (l ++ m) = a.travel l + (a.run l).travel m := by
  induction l generalizing a with
  | nil => exact (Nat.zero_add _).symm
  | cons x l ih =>
    cases x with
    | release t => exact ih (a.release t)
    | allocate =>
      rw [List.cons_append, travel, travel, ih, Nat.add_assoc]
      rfl

/-- Where the last token is on the circle is told by how far it has travelled. -/
theorem last_run_mod (a : TokenAllocator) (uses : List Use) :
    (a.run uses).last.toNat % capacity = (a.last.toNat + a.travel uses) % capacity := by
  induction uses generalizing a with
  | nil => rfl
  | cons x uses ih =>
    cases x with
    | release t => exact ih (a.release t)
    | allocate =>
      cases hn : a.next? with
      | none =>
        rw [travel_allocate_of_none hn, run_cons, use_allocate_of_none hn, ih a]
      | some t =>
        have hstep : t.toNat = (a.last.toNat + a.last.gap t) % capacity + 1 := by
          rw [← Token.toNat_iterate_next, Token.iterate_next_gap _ (next?_eq_some.1 hn).2.1]
        rw [travel_allocate hn, run_cons, ih, use_allocate hn]
        simp only [hstep, capacity]
        omega

/-- **A token within the way is met**: it is handed out, or live when the search comes by. -/
theorem meets_of_gap_lt_travel (hu : u ≠ Token.noRequest) {uses : List Use}
    (h : a.last.gap u < a.travel uses) :
    ∃ earlier, earlier ++ [.allocate] <+: uses ∧
      ((a.run earlier).next? = some u ∨ u ∈ (a.run earlier).live) := by
  induction uses generalizing a with
  | nil => exact absurd h (Nat.not_lt_zero _)
  | cons x uses ih =>
    -- What is met later on is met.
    have hlater : (a.use x).last.gap u < (a.use x).travel uses →
        ∃ earlier, earlier ++ [.allocate] <+: x :: uses ∧
          ((a.run earlier).next? = some u ∨ u ∈ (a.run earlier).live) := by
      intro hlt
      obtain ⟨earlier, hpre, hmet⟩ := ih hlt
      exact ⟨x :: earlier, (List.prefix_cons_inj x).2 hpre, hmet⟩
    cases x with
    | release t => exact hlater h
    | allocate =>
      cases hn : a.next? with
      | none =>
        rw [travel_allocate_of_none hn] at h
        refine hlater ?_
        rwa [use_allocate_of_none hn]
      | some v =>
        obtain ⟨-, hv, hgap⟩ := next?_eq_some.1 hn
        have hhere : [Use.allocate] <+: .allocate :: uses := ⟨uses, rfl⟩
        rcases Nat.lt_trichotomy (a.last.gap u) (a.last.gap v) with hlt | heq | hgt
        · exact ⟨[], hhere, .inr (hgap u hu hlt)⟩
        · refine ⟨[], hhere, .inl ?_⟩
          rw [← a.last.iterate_next_gap hu, heq, a.last.iterate_next_gap hv]
          exact hn
        · have hbeyond := Token.gap_beyond hu hv hgt
          rw [travel_allocate hn] at h
          refine hlater ?_
          have hlast : (a.use .allocate).last = v := by rw [use_allocate hn]
          rw [hlast]
          omega

/-- **When a token comes again.** Between two times that a token is handed out every other token but
    zero is handed out, or is live when the search passes it by: the last token has gone round the
    whole circle at least once. -/
theorem comes_again_after_turn (a : TokenAllocator) (before between : List Use) (t : Token)
    (hfirst : (a.run before).next? = some t)
    (hagain : (a.run (before ++ .allocate :: between)).next? = some t) :
    let b := a.run (before ++ [.allocate])
    (∀ u, u ≠ Token.noRequest → u ≠ t →
      (∃ earlier, earlier ++ [.allocate] <+: between ∧ (b.run earlier).next? = some u) ∨
      ∃ earlier, earlier ++ [.allocate] <+: between ++ [.allocate] ∧
        u ∈ (b.run earlier).live) ∧
    capacity ≤ b.travel (between ++ [.allocate]) := by
  intro b
  have hb : b.last = t := by
    show (a.run (before ++ [.allocate])).last = t
    rw [run_append, run_singleton, use_allocate hfirst]
  have hbetween : (b.run between).next? = some t := by
    rw [← run_append, List.append_assoc]
    exact hagain
  have hend : (b.run (between ++ [.allocate])).last = t := by
    rw [run_append, run_singleton, use_allocate hbetween]
  have htravel : b.travel (between ++ [.allocate]) =
      b.travel between + ((b.run between).last.gap t + 1) := by
    rw [travel_append, travel_allocate hbetween]
    rfl
  -- Having come back to `t`, the last token has made whole turns, and more than none.
  have hturn : capacity ≤ b.travel (between ++ [.allocate]) := by
    have hmod := b.last_run_mod (between ++ [.allocate])
    rw [hend, hb] at hmod
    have hpos : 0 < b.travel (between ++ [.allocate]) := by omega
    generalize b.travel (between ++ [.allocate]) = steps at hmod hpos
    simp only [capacity] at hmod ⊢
    omega
  refine ⟨fun u hu hut => ?_, hturn⟩
  obtain ⟨earlier, hpre, hmet⟩ :=
    meets_of_gap_lt_travel hu (Nat.lt_of_lt_of_le (b.last.gap_lt u) hturn)
  rcases hmet with hout | hlive
  · refine .inl ⟨earlier, ?_, hout⟩
    rcases List.prefix_concat_iff.1 hpre with heq | hpre
    · -- What is handed out in the end is `t` itself.
      obtain ⟨rfl, -⟩ := List.append_inj' heq rfl
      rw [hbetween] at hout
      exact absurd (Option.some.inj hout).symm hut
    · exact hpre
  · exact .inr ⟨earlier, hpre, hlive⟩

/-- When all tokens but two are live, one of the two comes again after the other. -/
theorem comes_again_after_turn_of_two :
    let a : TokenAllocator :=
      ⟨Token.noRequest, ((SortedSet.ofList Token.noRequest.turn).erase 7).erase 9⟩
    let between : List Use := [.release 7, .allocate]
    let b := a.run [.allocate]
    (a.run []).next? = some 7 ∧ (a.run (.allocate :: between)).next? = some 7 ∧
    (∀ u, u ≠ Token.noRequest → u ≠ 7 →
      (∃ earlier, earlier ++ [.allocate] <+: between ∧ (b.run earlier).next? = some u) ∨
      ∃ earlier, earlier ++ [.allocate] <+: between ++ [.allocate] ∧
        u ∈ (b.run earlier).live) ∧
    capacity ≤ b.travel (between ++ [.allocate]) := by
  intro a between b
  have hlive : ∀ u, u ∈ a.live ↔ u ≠ 9 ∧ u ≠ 7 ∧ u ≠ Token.noRequest := by
    intro u
    rw [SortedSet.mem_erase, SortedSet.mem_erase, SortedSet.mem_ofList, ← List.one_le_count_iff,
      Token.count_turn]
    split <;> simp_all
  have hseven : a.next? = some 7 := by
    refine next?_eq_some.2 ⟨by simp [hlive], by decide, fun u hu hlt => (hlive u).2 ⟨?_, ?_, hu⟩⟩
    · rintro rfl
      exact absurd hlt (by decide)
    · rintro rfl
      exact absurd hlt (by decide)
  have hreleased : a.run [.allocate, .release 7] = ⟨7, (a.live.insert 7).erase 7⟩ := by
    rw [run_cons, run_singleton, use_allocate hseven]
    rfl
  have hnine : (a.run [.allocate, .release 7]).next? = some 9 := by
    rw [hreleased]
    refine next?_eq_some.2 ⟨by simp [hlive], by decide, fun u hu hlt => ?_⟩
    have h7 : u ≠ 7 := by
      rintro rfl
      exact absurd hlt (by decide)
    have h9 : u ≠ 9 := by
      rintro rfl
      exact absurd hlt (Nat.lt_irrefl _)
    exact SortedSet.mem_erase.2 ⟨h7, SortedSet.mem_insert.2 (.inr ((hlive u).2 ⟨h9, h7, hu⟩))⟩
  have hagain : (a.run (.allocate :: between)).next? = some 7 := by
    rw [show Use.allocate :: between = [.allocate, .release 7] ++ [.allocate] from rfl, run_append,
      run_singleton, use_allocate hnine, hreleased]
    refine next?_eq_some.2 ⟨by simp, by decide, fun u hu hlt => ?_⟩
    have h7 : u ≠ 7 := by
      rintro rfl
      exact absurd hlt (Nat.lt_irrefl _)
    refine SortedSet.mem_insert.2 (Decidable.or_iff_not_imp_left.2 fun h9 => ?_)
    exact SortedSet.mem_erase.2 ⟨h7, SortedSet.mem_insert.2 (.inr ((hlive u).2 ⟨h9, h7, hu⟩))⟩
  exact ⟨hseven, hagain, comes_again_after_turn a [] between 7 hseven hagain⟩

end TokenAllocator

end ContextBroker
