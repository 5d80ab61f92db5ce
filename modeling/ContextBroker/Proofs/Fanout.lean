import ContextBroker.Observer.Fanout
import ContextBroker.Proofs.Log
import Mathlib.Data.List.Nodup

set_option autoImplicit false

/-! # What the trace of a hub tells

The trace of a `Fanout` tells which observers are `Registered`, and on which line each of them
`Joined`. `Listed` says how the hub keeps to that. An announcement is `Delivered` when it ends before
anything that began earlier goes on, and when meanwhile it has told those, in order, who were
registered as it began. A `Segment` of a trace is what is done in one go: whatever begins in it is
delivered in it. -/

namespace ContextBroker

namespace Fanout

/-- The announcement to which an act belongs. -/
def Act.call? : Act → Option Nat
  | began call _ | told call _ _ | ended call => some call
  | asked _ _ | answered _ _ _ | added _ | removed _ => none

/-- Who is told, and of what. -/
def Act.told? : Act → Option (Observer × Notice)
  | told _ o n => some (o, n)
  | _ => none

/-- Who was told, and of what. -/
def Entry.told? : Entry → Option (Observer × Notice)
  | told o n => some (o, n)
  | reacted _ _ _ => none

variable {trace before after marks : List Mark} {hub : Hub} {m : Mark} {o : Observer} {n : Notice}
  {call : Nat}

/-- If no line has the key `k`, none is left of those that have it. -/
theorem filter_act_eq_nil (key : Act → Option Nat) {k : Nat} (h : ∀ m ∈ marks, key m.act ≠ some k) :
    (marks.map Mark.act).filter (key · = some k) = [] := by
  refine List.filter_eq_nil_iff.2 fun act hact => ?_
  obtain ⟨m, hm, rfl⟩ := List.mem_map.1 hact
  simpa using h m hm

/-! ## Who is registered -/

/-- The observer was added, and not removed since. -/
def Registered (trace : List Mark) (o : Observer) : Prop :=
  Standing (fun m : Mark => m.act = .added o) (fun m => m.act = .removed o) trace

/-- The observer was added on this line while it was not registered, and not removed since. -/
def Joined (trace : List Mark) (o : Observer) (line : Nat) : Prop :=
  ∃ before m after, trace = before ++ m :: after ∧ before.length = line ∧ m.act = .added o ∧
    ¬ Registered before o ∧ ∀ m' ∈ after, m'.act ≠ .removed o

/-- The hub lists those who are registered, in the order in which they joined. -/
structure Listed (trace : List Mark) (hub : Hub) : Prop where
  nodup : hub.observers.Nodup
  registered (o : Observer) : o ∈ hub.observers ↔ Registered trace o
  ordered : hub.observers.Pairwise fun a b => ∃ i j, Joined trace a i ∧ Joined trace b j ∧ i < j

theorem registered_concat : Registered (trace ++ [m]) o ↔
    m.act = .added o ∨ (Registered trace o ∧ m.act ≠ .removed o) := standing_concat

theorem Joined.lt_length {line : Nat} (h : Joined trace o line) : line < trace.length := by
  obtain ⟨before, m, after, rfl, rfl, -⟩ := h
  simp

theorem Joined.concat {line : Nat} (h : Joined trace o line) (hm : m.act ≠ .removed o) :
    Joined (trace ++ [m]) o line := by
  obtain ⟨before, m', after, rfl, hline, hadded, hbefore, hafter⟩ := h
  refine ⟨before, m', after ++ [m], by simp, hline, hadded, hbefore, fun x hx => ?_⟩
  rcases List.mem_append.1 hx with hx | hx
  · exact hafter x hx
  · rwa [List.mem_singleton.1 hx]

theorem joined_length (hm : m.act = .added o) (ho : ¬ Registered trace o) :
    Joined (trace ++ [m]) o trace.length :=
  ⟨trace, m, [], rfl, rfl, hm, ho, by simp⟩

theorem Registered.joined (h : Registered trace o) : ∃ line, Joined trace o line := by
  induction trace using List.reverseRecOn with
  | nil => exact absurd h not_standing_nil
  | append_singleton trace m ih =>
    by_cases hbefore : Registered trace o
    · obtain ⟨line, hline⟩ := ih hbefore
      refine ⟨line, hline.concat ?_⟩
      rcases registered_concat.1 h with hadded | ⟨-, hne⟩
      · simp [hadded]
      · exact hne
    · rcases registered_concat.1 h with hadded | ⟨hreg, -⟩
      · exact ⟨_, joined_length hadded hbefore⟩
      · exact absurd hreg hbefore

namespace Listed

theorem start : Listed [] {} :=
  ⟨List.nodup_nil, fun _ => iff_of_false List.not_mem_nil not_standing_nil, .nil⟩

/-- Whoever stays keeps its place. -/
theorem pairwise_concat (h : Listed trace hub) {os : List Observer} (hos : os.Sublist hub.observers)
    (hstay : ∀ o ∈ os, m.act ≠ .removed o) :
    os.Pairwise fun a b => ∃ i j, Joined (trace ++ [m]) a i ∧ Joined (trace ++ [m]) b j ∧ i < j := by
  refine (h.ordered.sublist hos).imp_of_mem fun {a b} ha hb hab => ?_
  obtain ⟨i, j, hi, hj, hij⟩ := hab
  exact ⟨i, j, hi.concat (hstay a ha), hj.concat (hstay b hb), hij⟩

theorem keep (h : Listed trace hub) (hadded : ∀ o, m.act ≠ .added o)
    (hremoved : ∀ o, m.act ≠ .removed o) : Listed (trace ++ [m]) hub where
  nodup := h.nodup
  registered o := by
    rw [h.registered, registered_concat]
    simp [hadded, hremoved]
  ordered := h.pairwise_concat (List.Sublist.refl _) fun o _ => hremoved o

theorem add (h : Listed trace hub) (hm : m.act = .added o) : Listed (trace ++ [m]) (hub.add o) := by
  have hstay : ∀ o' ∈ hub.observers, m.act ≠ .removed o' := by simp [hm]
  have hpair := h.pairwise_concat (List.Sublist.refl _) hstay
  have hreg (o' : Observer) : Registered (trace ++ [m]) o' ↔ o' = o ∨ o' ∈ hub.observers := by
    rw [registered_concat, h.registered, hm]
    simp [eq_comm]
  unfold Hub.add
  by_cases ho : o ∈ hub.observers
  · rw [if_pos (show hub.contains o = true from List.contains_iff_mem.2 ho)]
    refine ⟨h.nodup, fun o' => ?_, hpair⟩
    rw [hreg, or_iff_right_of_imp]
    rintro rfl
    exact ho
  · rw [if_neg (by simpa [Hub.contains] using ho)]
    refine ⟨List.Nodup.append h.nodup (List.nodup_singleton o) (by simpa using ho), fun o' => ?_, ?_⟩
    · rw [hreg, List.mem_append, List.mem_singleton, or_comm]
    · refine List.pairwise_append.2 ⟨hpair, List.pairwise_singleton _ _, fun a ha b hb => ?_⟩
      obtain rfl := List.mem_singleton.1 hb
      obtain ⟨i, hi⟩ := ((h.registered a).1 ha).joined
      exact ⟨i, trace.length, hi.concat (hstay a ha), joined_length hm (ho ∘ (h.registered b).2),
        hi.lt_length⟩

theorem remove (h : Listed trace hub) (hm : m.act = .removed o) :
    Listed (trace ++ [m]) (hub.remove o) where
  nodup := h.nodup.filter _
  registered o' := by
    have hne : Act.removed o ≠ .removed o' ↔ o' ≠ o := by simp [eq_comm]
    rw [registered_concat, ← h.registered, hm, hne]
    simp [Hub.remove]
  ordered := by
    refine h.pairwise_concat List.filter_sublist fun o' ho' => ?_
    have hne : o' ≠ o := by simpa using (List.mem_filter.1 ho').2
    simpa [hm] using hne.symm

end Listed

/-! ## What is done in one go -/

/-- Between the lines `before` and the lines `after` the announcement `call` of `n` began, when the
    hub was `hub`. It has told each of the hub's observers, in order, and nobody else; until it ended
    nothing happened in those that began before it; and nothing happened in it before or since. -/
def Delivered (call : Nat) (n : Notice) (hub : Hub) (before after : List Mark) : Prop :=
  ∃ inside m rest, after = inside ++ m :: rest ∧ m.act = .ended call ∧
    (inside.map Mark.act).filter (·.call? = some call) = hub.observers.map (Act.told call · n) ∧
    (∀ m' ∈ inside, ∀ other, m'.act.call? = some other → call ≤ other) ∧
    ∀ m' ∈ before ++ rest, m'.act.call? ≠ some call

theorem Delivered.extend {first last : List Mark} (h : Delivered call n hub before after)
    (hfirst : ∀ m ∈ first, m.act.call? ≠ some call) (hlast : ∀ m ∈ last, m.act.call? ≠ some call) :
    Delivered call n hub (first ++ before) (after ++ last) := by
  obtain ⟨inside, m, rest, rfl, hended, htold, hinside, houtside⟩ := h
  refine ⟨inside, m, rest ++ last, by simp, hended, htold, hinside, fun m' hm' => ?_⟩
  simp only [List.mem_append] at hm' houtside
  rcases hm' with (hm' | hm') | hm' | hm'
  · exact hfirst m' hm'
  · exact houtside m' (.inl hm')
  · exact houtside m' (.inr hm')
  · exact hlast m' hm'

/-- Lines that were written in one go: the announcements between `lo` and `hi`, from beginning to
    end, and tellings of the announcement `own`, which began before. -/
structure Segment (own : Option Nat) (lo hi : Nat) (marks : List Mark) : Prop where
  le : lo ≤ hi
  outer (call : Nat) : own = some call → call ≤ lo
  numbered (m : Mark) : m ∈ marks → ∀ call, m.act.call? = some call →
    (own = some call ∧ ∃ o n, m.act = .told call o n) ∨ (lo < call ∧ call ≤ hi)
  begun (before : List Mark) (m : Mark) (after : List Mark) (call : Nat) (o : Observer)
    (n : Notice) : marks = before ++ m :: after → m.act = .told call o n →
      own = some call ∨ ∃ m' ∈ before, m'.act = .began call n
  delivered (before : List Mark) (m : Mark) (after : List Mark) (call : Nat) (n : Notice) :
    marks = before ++ m :: after → m.act = .began call n → Delivered call n m.hub before after

namespace Segment

variable {own : Option Nat} {lo mid hi : Nat} {xs ys : List Mark}

theorem nil (h : ∀ call, own = some call → call ≤ lo) : Segment own lo lo [] where
  le := Nat.le_refl lo
  outer := h
  numbered m hm := by simp at hm
  begun before m after call o n hmarks := by simp at hmarks
  delivered before m after call n hmarks := by simp at hmarks

/-- A line that belongs to no announcement, or is a telling of the outer one. -/
theorem singleton (h : ∀ call, own = some call → call ≤ lo)
    (hm : ∀ call, m.act.call? = some call → own = some call ∧ ∃ o n, m.act = .told call o n) :
    Segment own lo lo [m] where
  le := Nat.le_refl lo
  outer := h
  numbered m' hm' call hcall := by
    obtain rfl := List.mem_singleton.1 hm'
    exact .inl (hm call hcall)
  begun before m' after call o n hmarks htold := by
    obtain rfl : m' = m := List.mem_singleton.1 (hmarks ▸ by simp)
    exact .inl (hm call (by rw [htold]; rfl)).1
  delivered before m' after call n hmarks hbegan := by
    obtain rfl : m' = m := List.mem_singleton.1 (hmarks ▸ by simp)
    obtain ⟨-, o, n', htold⟩ := hm call (by rw [hbegan]; rfl)
    rw [hbegan] at htold
    cases htold

/-- An announcement that begins in a part is not one of the outer announcement's tellings. -/
theorem began_range (h : Segment own lo hi marks) (hm : m ∈ marks) (hbegan : m.act = .began call n) :
    lo < call ∧ call ≤ hi := by
  refine (h.numbered m hm call (by rw [hbegan]; rfl)).resolve_left ?_
  rintro ⟨-, o, n', htold⟩
  rw [hbegan] at htold
  cases htold

/-- Nothing of an announcement with a number outside of a segment's is in that segment. -/
theorem call?_ne (h : Segment own lo hi marks) (hm : m ∈ marks) (hown : own ≠ some call)
    (hrange : ¬ (lo < call ∧ call ≤ hi)) : m.act.call? ≠ some call := fun hcall =>
  (h.numbered m hm call hcall).elim (fun hout => hown hout.1) hrange

/-- Nothing is done in the announcements that began before. -/
theorem filter_eq_nil (h : Segment none lo hi marks) (hcall : call ≤ lo) :
    (marks.map Mark.act).filter (·.call? = some call) = [] :=
  filter_act_eq_nil Act.call? fun _ hm => h.call?_ne hm (by simp) (by omega)

theorem append (hx : Segment own lo mid xs) (hy : Segment own mid hi ys) :
    Segment own lo hi (xs ++ ys) := by
  have hlo := hx.le
  have hhi := hy.le
  refine ⟨Nat.le_trans hlo hhi, hx.outer, fun m hm call hcall => ?_, ?_, ?_⟩
  · rcases List.mem_append.1 hm with hm | hm
    · exact (hx.numbered m hm call hcall).imp_right (by omega)
    · exact (hy.numbered m hm call hcall).imp_right (by omega)
  · intro before m after call o n hmarks htold
    rcases append_cons_eq_append hmarks.symm with ⟨before, rfl, hys⟩ | ⟨after, rfl, hxs⟩
    · refine (hy.begun before m after call o n hys htold).imp_right ?_
      rintro ⟨m', hm', hbegan⟩
      exact ⟨m', List.mem_append_right _ hm', hbegan⟩
    · exact hx.begun before m after call o n hxs htold
  · intro before m after call n hmarks hbegan
    rcases append_cons_eq_append hmarks.symm with ⟨before, rfl, hys⟩ | ⟨after, rfl, hxs⟩
    · have hrange := hy.began_range (by simp [hys]) hbegan
      have hown : own ≠ some call := fun h => absurd (hy.outer call h) (by omega)
      rw [← List.append_nil after]
      exact (hy.delivered before m after call n hys hbegan).extend
        (fun m' hm' => hx.call?_ne hm' hown (by omega)) (by simp)
    · have hrange := hx.began_range (by simp [hxs]) hbegan
      have hown : own ≠ some call := fun h => absurd (hx.outer call h) (by omega)
      rw [← List.nil_append before]
      exact (hx.delivered before m after call n hxs hbegan).extend (by simp)
        fun m' hm' => hy.call?_ne hm' hown (by omega)

/-- What is done in one go may be done in the middle of an announcement that began before. -/
theorem within (h : Segment none lo hi xs) (hcall : call ≤ lo) : Segment (some call) lo hi xs where
  le := h.le
  outer c hc := Option.some.inj hc ▸ hcall
  numbered m hm c hc := .inr ((h.numbered m hm c hc).resolve_left (by simp))
  begun before m after c o n hmarks htold :=
    .inr ((h.begun before m after c o n hmarks htold).resolve_left (by simp))
  delivered := h.delivered

/-- An announcement that tells everybody is done in one go. -/
theorem announce {began ended : Mark} (h : Segment (some (lo + 1)) (lo + 1) hi xs)
    (hbegan : began.act = .began (lo + 1) n) (hended : ended.act = .ended (lo + 1))
    (htold : (xs.map Mark.act).filter (·.call? = some (lo + 1)) =
      began.hub.observers.map (Act.told (lo + 1) · n)) :
    Segment none lo hi (began :: xs ++ [ended]) := by
  have hhi := h.le
  have htelling {m : Mark} {call o n'} (hm : m ∈ xs) (hm' : m.act = .told call o n')
      (hcall : lo + 1 = call) : n' = n := by
    have hmem : m.act ∈ (xs.map Mark.act).filter (·.call? = some (lo + 1)) := by
      simpa [hm', hcall, Act.call?] using ⟨m, hm, hm'⟩
    rw [htold, hm'] at hmem
    obtain ⟨o', -, ho'⟩ := List.mem_map.1 hmem
    exact (Act.told.inj ho').2.2.symm
  refine ⟨by omega, by simp, fun m hm call hcall => .inr ?_, ?_, ?_⟩
  · simp only [List.mem_append, List.mem_cons, List.not_mem_nil, or_false] at hm
    rcases hm with (rfl | hm) | rfl
    · obtain rfl : lo + 1 = call := by simpa [hbegan, Act.call?] using hcall
      omega
    · rcases h.numbered m hm call hcall with ⟨hown, -⟩ | hrange
      · obtain rfl := Option.some.inj hown
        omega
      · omega
    · obtain rfl : lo + 1 = call := by simpa [hended, Act.call?] using hcall
      omega
  · intro before m after call o n' hmarks hm
    refine .inr ?_
    rcases append_cons_eq_between hmarks.symm with ⟨-, rfl, -⟩ | rfl | ⟨before, after, rfl, -, rfl⟩
    · simp [hbegan] at hm
    · simp [hended] at hm
    · rcases h.begun before m after call o n' rfl hm with hown | ⟨m', hm', hm''⟩
      · obtain rfl := Option.some.inj hown
        obtain rfl := htelling (by simp) hm rfl
        exact ⟨began, List.mem_cons_self, hbegan⟩
      · exact ⟨m', List.mem_cons_of_mem _ hm', hm''⟩
  · intro before m after call n' hmarks hm
    rcases append_cons_eq_between hmarks.symm with
      ⟨rfl, rfl, rfl⟩ | rfl | ⟨before, after, rfl, rfl, rfl⟩
    · obtain ⟨rfl, rfl⟩ : lo + 1 = call ∧ n = n' := by simpa [hbegan] using hm
      refine ⟨xs, ended, [], rfl, hended, htold, fun m' hm' other hother => ?_, by simp⟩
      rcases h.numbered m' hm' other hother with ⟨hown, -⟩ | hrange
      · exact Nat.le_of_eq (Option.some.inj hown)
      · omega
    · simp [hended] at hm
    · have hrange := h.began_range (by simp) hm
      show Delivered call n' m.hub ([began] ++ before) (after ++ [ended])
      refine (h.delivered before m after call n' rfl hm).extend ?_ ?_
      · simp [hbegan, Act.call?]
        omega
      · simp [hended, Act.call?]
        omega

end Segment

end Fanout

end ContextBroker
