import ContextBroker.Proofs.Log
import ContextBroker.Proofs.Worker.Leaving

set_option autoImplicit false

/-! # Runs of the worker

A `Round` is a turn that the worker took. Between its rounds the worker changes in one thing only:
those who post requests take tokens from its allocator and give them back. -/

namespace ContextBroker

/-- A turn that the worker took, with the worker before and after it. -/
structure Round where
  before : Worker
  turn : Turn
  after : Worker
  effects : List Effect

/-- The worker took the round's turn, and no request in it had the token of another. -/
structure Round.Sound (x : Round) : Prop where
  turn : x.before.turn x.turn = .ok (x.after, x.effects)
  distinct : x.turn.Distinct x.before

theorem Round.Sound.rules {x : Round} (h : x.Sound) : x.turn.Rules x.before (x.after, x.effects) :=
  Worker.rules_turn h.turn h.distinct

theorem Round.Sound.leaves {x : Round} (h : x.Sound) :
    x.turn.Leaves x.before (x.after, x.effects) :=
  Worker.leaves_turn h.turn

/-- No request with the token of an open one is taken. -/
theorem Round.Sound.not_mem_tokens {x : Round} (h : x.Sound) {t : Token} {r : Request}
    (hr : x.before.requests.get? t = some r) : ¬ t ∈ x.turn.tokens := by
  intro ht
  rw [h.distinct.apart t ht] at hr
  cases hr

namespace Worker

/-- A new worker can take the rounds, one after the other, to become `w`. -/
inductive Run : Worker → List Round → Prop
  | start (tokens : TokenAllocator) : Run { tokens } []
  | tokens {w : Worker} {rounds : List Round} (h : Run w rounds) (tokens : TokenAllocator) :
      Run { w with tokens } rounds
  | round {x : Round} {rounds : List Round} (h : Run x.before rounds) (hx : x.Sound) :
      Run x.after (rounds ++ [x])

/-- The workers differ at most in their allocators. -/
def Alike (w w' : Worker) : Prop := ∃ tokens, w = { w' with tokens }

namespace Run

variable {w : Worker} {x : Round} {rounds earlier later : List Round}

/-- After a round a worker is what the round left behind. -/
theorem alike_after (h : Run w (rounds ++ [x])) : w.Alike x.after := by
  generalize hr : rounds ++ [x] = all at h
  induction h with
  | start tokens => simp at hr
  | tokens h tokens ih =>
    obtain ⟨tokens', rfl⟩ := ih hr
    exact ⟨tokens, rfl⟩
  | @round y l h hy =>
    obtain ⟨-, hxy⟩ := List.append_inj' hr rfl
    obtain rfl : x = y := by simpa using hxy
    exact ⟨x.after.tokens, rfl⟩

/-- Each round starts from what those before it made of the worker. -/
theorem split (h : Run w (earlier ++ x :: later)) : Run x.before earlier ∧ x.Sound := by
  generalize hr : earlier ++ x :: later = all at h
  induction h generalizing later with
  | start tokens => simp at hr
  | tokens h tokens ih => exact ih hr
  | @round y l h hy ih =>
    rcases append_cons_eq_concat hr with ⟨-, rfl, rfl⟩ | ⟨later, -, hl⟩
    · exact ⟨h, hy⟩
    · exact ih hl.symm

theorem sound (h : Run w rounds) (hx : x ∈ rounds) : x.Sound := by
  obtain ⟨earlier, later, rfl⟩ := List.append_of_mem hx
  exact h.split.2

/-- What holds once a round is over, and is kept by every round after it, holds from then on. -/
theorem since {P : List Round → Worker → Prop}
    (halike : ∀ l w w', w.Alike w' → P l w' → P l w)
    (hstart : P [] x.after)
    (hround : ∀ l y, Run y.before (earlier ++ x :: l) → y.Sound → P l y.before →
      P (l ++ [y]) y.after)
    (h : Run w (earlier ++ x :: later)) : P later w := by
  induction later using List.reverseRecOn generalizing w with
  | nil => exact halike _ _ _ h.alike_after hstart
  | append_singleton l y ih =>
    have heq : earlier ++ x :: (l ++ [y]) = (earlier ++ x :: l) ++ [y] := by simp
    rw [heq] at h
    obtain ⟨hy, hsound⟩ := h.split
    exact halike _ _ _ h.alike_after (hround l y hy hsound (ih hy))

/-! ## Timers -/

/-- A round that sets a timer opens the request that it is set for, under a new generation. -/
theorem setTimer_spec (hx : x.Sound) {id delay : Nat} {t : Token} {generation : Nat}
    (he : .setTimer id delay t generation ∈ x.effects) :
    generation = x.before.generation + 1 ∧ x.after.generation = generation := by
  have hleaves := hx.leaves
  have he : Effect.setTimer id delay t generation ∈ x.turn.asks x.before := by
    rw [← hleaves.asked]
    exact List.mem_filter.2 ⟨he, rfl⟩
  have hg := hleaves.generation
  unfold Turn.asks at he
  split at he
  · rename_i hturn
    split at he
    · simp at he
    · simp only [List.mem_cons, Effect.setTimer.injEq, reduceCtorEq, List.not_mem_nil, or_self,
        or_false] at he
      rw [hturn] at hg
      exact ⟨he.2.2.2, hg.trans he.2.2.2.symm⟩
  · simp at he

theorem generation_le (h : Run w (earlier ++ x :: later)) :
    x.after.generation ≤ w.generation := by
  refine since (P := fun _ w => x.after.generation ≤ w.generation) ?_ (Nat.le_refl _) ?_ h
  · rintro l w w' ⟨tokens, rfl⟩ hle
    exact hle
  · intro l y _ hy hle
    have := hy.leaves.generation
    simp only at this
    omega

/-- No two rounds set timers for one generation. -/
theorem setTimer_unique (h : Run w (earlier ++ x :: later)) {id delay : Nat} {t : Token}
    {generation : Nat} (he : .setTimer id delay t generation ∈ x.effects) {y : Round}
    (hy : y ∈ earlier ++ later) (id' delay' : Nat) (u : Token) :
    ¬ .setTimer id' delay' u generation ∈ y.effects := by
  intro he'
  obtain ⟨hrun, hx⟩ := h.split
  obtain ⟨hg, hg'⟩ := setTimer_spec hx he
  obtain ⟨hu, hu'⟩ := setTimer_spec (h.sound (by
    rcases List.mem_append.1 hy with hy | hy
    · exact List.mem_append_left _ hy
    · exact List.mem_append_right _ (List.mem_cons_of_mem _ hy))) he'
  -- Generations only grow: before the round they were smaller, and later ones are greater.
  rcases List.mem_append.1 hy with hy | hy
  · obtain ⟨l, m, rfl⟩ := List.append_of_mem hy
    have := hrun.generation_le
    omega
  · obtain ⟨l, m, rfl⟩ := List.append_of_mem hy
    have heq : earlier ++ x :: (l ++ y :: m) = (earlier ++ x :: l) ++ y :: m := by simp
    rw [heq] at h
    have := h.split.1.generation_le
    omega

end Run

end Worker

end ContextBroker
