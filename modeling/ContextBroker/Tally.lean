set_option autoImplicit false

/-! # Adding up a list

`tally f l` is the sum of `f` over the members of `l`. -/

namespace ContextBroker

/-- The sum of `f` over the members of a list. -/
def tally {α : Type} (f : α → Nat) : List α → Nat
  | [] => 0
  | a :: l => f a + tally f l

variable {α β : Type}

@[simp] theorem tally_nil (f : α → Nat) : tally f [] = 0 := rfl

@[simp] theorem tally_cons (f : α → Nat) (a : α) (l : List α) :
    tally f (a :: l) = f a + tally f l := rfl

@[simp] theorem tally_append (f : α → Nat) (l m : List α) :
    tally f (l ++ m) = tally f l + tally f m := by
  induction l with
  | nil => simp
  | cons a l ih => simp only [List.cons_append, tally_cons, ih]; omega

@[simp] theorem tally_map (f : β → Nat) (g : α → β) (l : List α) :
    tally f (l.map g) = tally (fun a => f (g a)) l := by
  induction l with
  | nil => rfl
  | cons a l ih => simp only [List.map_cons, tally_cons, ih]

/-- One for each member makes the length. -/
theorem tally_one (l : List α) : tally (fun _ => 1) l = l.length := by
  induction l with
  | nil => rfl
  | cons a l ih => simp only [tally_cons, ih, List.length_cons]; omega

/-- What weighs nothing adds nothing. -/
theorem tally_eq_zero {f : α → Nat} (h : ∀ a, f a = 0) (l : List α) : tally f l = 0 := by
  induction l with
  | nil => rfl
  | cons a l ih => simp only [tally_cons, ih, h]

end ContextBroker
