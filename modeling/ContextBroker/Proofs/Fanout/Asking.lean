import ContextBroker.Proofs.Fanout

set_option autoImplicit false

/-! # What is asked for is done

Whatever is asked of a hub is a line of its trace, and so is the answer, and what lies between the
two is what was done about it (`Did`). In lines that are `Answered` nothing is left undone, and
nothing is done that was not asked for. In lines that are `Heeded` an observer asks, in answer to a
telling, for what it plans, one thing after the other, before the announcement goes on. In lines that
are `Granted` the announcements that are asked for begin, in this order, until none is left. -/

namespace ContextBroker

/-- What is announced. -/
def Reaction.notice? : Reaction → Option Notice
  | announce n => some n
  | _ => none

namespace Fanout

/-- The telling in answer to which something is asked for; zero for whoever holds the hub. -/
def Asker.telling : Asker → Nat
  | holder => 0
  | told telling _ => telling

namespace Act

/-- The telling in answer to which something was asked for. -/
def telling? : Act → Option Nat
  | asked a _ | answered a _ _ => some a.telling
  | _ => none

/-- What is done first about this reaction. -/
def reaction? : Act → Option Reaction
  | added o => some (.add o)
  | removed o => some (.remove o)
  | began _ n => some (.announce n)
  | _ => none

/-- The announcement that is asked for. -/
def wanted? : Act → Option Notice
  | asked _ r => r.notice?
  | _ => none

/-- The announcement that begins. -/
def begun? : Act → Option Notice
  | began _ n => some n
  | _ => none

end Act

variable {marks xs ys : List Mark} {m : Mark} {a : Asker} {r : Reaction} {o : Observer} {n : Notice}
  {result : Reaction.Result} {pending : Option Reaction} {call : Nat}

/-! ## What is done about a reaction -/

/-- What is done about a reaction that is asked for when the hub is `hub`, and what comes of it. -/
inductive Did (hub : Hub) : Reaction → List Mark → Reaction.Result → Prop
  | add (o : Observer) : Did hub (.add o) [⟨.added o, hub.add o⟩] (.added (hub.add o).size)
  | remove (o : Observer) :
    Did hub (.remove o) [⟨.removed o, hub.remove o⟩] (.removed (hub.contains o))
  | count : Did hub .count [] (.counted hub.size)
  | announce (n : Notice) (call : Nat) (inside : List Mark) (last : Hub) :
    Did hub (.announce n) (⟨.began call n, hub⟩ :: inside ++ [⟨.ended call, last⟩]) .announced
  /-- No announcement is left to run. -/
  | refuse (n : Notice) : Did hub (.announce n) [] .spent

/-- Whatever is asked for in these lines is done next and then answered, and nothing is done but what
    was just asked for. On the line before them `pending` was. -/
structure Answered (pending : Option Reaction) (marks : List Mark) : Prop where
  done (before : List Mark) (m : Mark) (after : List Mark) (a : Asker) (r : Reaction) :
    marks = before ++ m :: after → m.act = .asked a r → ∃ doing m' rest result,
      after = doing ++ m' :: rest ∧ Did m.hub r doing result ∧ m'.act = .answered a r result
  wanted (before : List Mark) (m : Mark) (after : List Mark) (r : Reaction) :
    marks = before ++ m :: after → m.act.reaction? = some r →
      (before = [] ∧ pending = some r) ∨
        ∃ front m' a, before = front ++ [m'] ∧ m'.act = .asked a r

namespace Answered

theorem nil : Answered pending [] where
  done before m after a r hmarks := by simp at hmarks
  wanted before m after r hmarks := by simp at hmarks

/-- A line on which nothing is asked for, and nothing is done but what is pending. -/
theorem singleton (hasked : ∀ a r, m.act ≠ .asked a r)
    (hdone : ∀ r, m.act.reaction? = some r → pending = some r) : Answered pending [m] where
  done before m' after a r hmarks hm := by
    obtain rfl : m' = m := List.mem_singleton.1 (hmarks ▸ by simp)
    exact absurd hm (hasked a r)
  wanted before m' after r hmarks hm := by
    rcases append_cons_eq_concat (l := []) hmarks.symm with ⟨-, rfl, rfl⟩ | ⟨after, -, hnil⟩
    · exact .inl ⟨rfl, hdone r hm⟩
    · simp at hnil

theorem append (hx : Answered pending xs) (hy : Answered none ys) : Answered pending (xs ++ ys) where
  done before m after a r hmarks hm := by
    rcases append_cons_eq_append hmarks.symm with ⟨before, rfl, hys⟩ | ⟨after, rfl, hxs⟩
    · exact hy.done before m after a r hys hm
    · obtain ⟨doing, m', rest, result, rfl, hdid, hanswer⟩ := hx.done before m after a r hxs hm
      exact ⟨doing, m', rest ++ ys, result, by simp, hdid, hanswer⟩
  wanted before m after r hmarks hm := by
    rcases append_cons_eq_append hmarks.symm with ⟨before, rfl, hys⟩ | ⟨after, rfl, hxs⟩
    · rcases hy.wanted before m after r hys hm with ⟨-, hnone⟩ | ⟨front, m', a, rfl, hasked⟩
      · cases hnone
      · exact .inr ⟨xs ++ front, m', a, by simp, hasked⟩
    · exact hx.wanted before m after r hxs hm

/-- What is pending is asked for, done and answered. -/
theorem ask (h : Answered (some r) marks) {asked answered : Mark} (hasked : asked.act = .asked a r)
    (hdid : Did asked.hub r marks result) (hanswered : answered.act = .answered a r result) :
    Answered none (asked :: marks ++ [answered]) where
  done before m after a' r' hmarks hm := by
    rcases append_cons_eq_between hmarks.symm with
      ⟨rfl, rfl, rfl⟩ | rfl | ⟨before, after, rfl, rfl, rfl⟩
    · obtain ⟨rfl, rfl⟩ := Act.asked.inj (hasked.symm.trans hm)
      exact ⟨marks, answered, [], result, rfl, hdid, hanswered⟩
    · simp [hanswered] at hm
    · obtain ⟨doing, m', rest, result', rfl, hdid', hanswer⟩ := h.done before m after a' r' rfl hm
      exact ⟨doing, m', rest ++ [answered], result', by simp, hdid', hanswer⟩
  wanted before m after r' hmarks hm := by
    refine .inr ?_
    rcases append_cons_eq_between hmarks.symm with ⟨-, rfl, -⟩ | rfl | ⟨before, after, rfl, -, rfl⟩
    · simp [hasked, Act.reaction?] at hm
    · simp [hanswered, Act.reaction?] at hm
    · rcases h.wanted before m after r' rfl hm with ⟨rfl, hr⟩ | ⟨front, m', a', rfl, hasked'⟩
      · exact ⟨[], asked, a, rfl, Option.some.inj hr ▸ hasked⟩
      · exact ⟨asked :: front, m', a', rfl, hasked'⟩

end Answered

/-! ## What observers do when they are told -/

/-- One reaction after the other is asked for and answered. -/
def dialogue (a : Asker) (reactions : List Reaction) (results : List Reaction.Result) : List Act :=
  (reactions.zip results).flatMap fun p => [.asked a p.1, .answered a p.1 p.2]

theorem answered_mem_dialogue {reactions : List Reaction} {results : List Reaction.Result}
    (hlength : results.length = reactions.length) (hresult : result ∈ results) :
    ∃ r, .answered a r result ∈ dialogue a reactions results := by
  rw [← List.map_snd_zip (Nat.le_of_eq hlength)] at hresult
  obtain ⟨p, hp, rfl⟩ := List.mem_map.1 hresult
  exact ⟨p.1, List.mem_flatMap.2 ⟨p, hp, by simp⟩⟩

/-- The number of tellings. -/
def tellings (marks : List Mark) : Nat := (marks.filterMap (·.act.told?)).length

@[simp] theorem tellings_append (xs ys : List Mark) :
    tellings (xs ++ ys) = tellings xs + tellings ys := by simp [tellings]

@[simp] theorem tellings_cons (m : Mark) (marks : List Mark) :
    tellings (m :: marks) = tellings [m] + tellings marks := tellings_append [m] marks

/-- The observer was told between these lines, by the announcement `call`. It asks then for all that
    it plans, before the announcement goes on, and for nothing at any other time. -/
def Heeds (plan : Plan) (telling call : Nat) (o : Observer) (before after : List Mark) : Prop :=
  ∃ inside rest results, after = inside ++ rest ∧ results.length = (plan telling o).length ∧
    (inside.map Mark.act).filter (·.telling? = some telling) =
      dialogue (.told telling o) (plan telling o) results ∧
    (∀ m ∈ inside, m.act.call? ≠ some call) ∧
    ∀ m ∈ before ++ rest, m.act.telling? ≠ some telling

theorem Heeds.extend {plan : Plan} {telling : Nat} {before after first last : List Mark}
    (h : Heeds plan telling call o before after)
    (hfirst : ∀ m ∈ first, m.act.telling? ≠ some telling)
    (hlast : ∀ m ∈ last, m.act.telling? ≠ some telling) :
    Heeds plan telling call o (first ++ before) (after ++ last) := by
  obtain ⟨inside, rest, results, rfl, hlength, hasks, hinside, houtside⟩ := h
  refine ⟨inside, rest ++ last, results, by simp, hlength, hasks, hinside, fun m hm => ?_⟩
  simp only [List.mem_append] at hm houtside
  rcases hm with (hm | hm) | hm | hm
  · exact hfirst m hm
  · exact houtside m (.inl hm)
  · exact houtside m (.inr hm)
  · exact hlast m hm

/-- The tellings in these lines have the numbers from `lo` on and are heeded; besides, there are
    answers to the telling `own`, which was made before. -/
structure Heeded (plan : Plan) (own : Option Nat) (lo hi : Nat) (marks : List Mark) : Prop where
  count : hi = lo + tellings marks
  outer (telling : Nat) : own = some telling → telling ≤ lo
  numbered (m : Mark) : m ∈ marks → ∀ telling, m.act.telling? = some telling →
    own = some telling ∨ (lo < telling ∧ telling ≤ hi)
  heeds (before : List Mark) (m : Mark) (after : List Mark) (call : Nat) (o : Observer)
    (n : Notice) : marks = before ++ m :: after → m.act = .told call o n →
      Heeds plan (lo + tellings before + 1) call o before after

namespace Heeded

variable {plan : Plan} {own : Option Nat} {lo mid hi telling : Nat}

theorem nil (h : ∀ telling, own = some telling → telling ≤ lo) : Heeded plan own lo lo [] where
  count := rfl
  outer := h
  numbered m hm := by simp at hm
  heeds before m after call o n hmarks := by simp at hmarks

/-- A line on which nobody is told. -/
theorem singleton (h : ∀ telling, own = some telling → telling ≤ lo)
    (htelling : ∀ telling, m.act.telling? = some telling → own = some telling)
    (htold : m.act.told? = none) : Heeded plan own lo lo [m] where
  count := by simp [tellings, htold]
  outer := h
  numbered m' hm' telling ht := by
    obtain rfl := List.mem_singleton.1 hm'
    exact .inl (htelling telling ht)
  heeds before m' after call o n hmarks hm := by
    obtain rfl : m' = m := List.mem_singleton.1 (hmarks ▸ by simp)
    simp [hm, Act.told?] at htold

/-- There are no answers to a telling with a number outside of theirs. -/
theorem telling?_ne (h : Heeded plan own lo hi marks) (hm : m ∈ marks) (hown : own ≠ some telling)
    (hrange : ¬ (lo < telling ∧ telling ≤ hi)) : m.act.telling? ≠ some telling := fun ht =>
  (h.numbered m hm telling ht).elim hown hrange

/-- There are no answers to the tellings that were made before. -/
theorem filter_eq_nil (h : Heeded plan none lo hi marks) (htelling : telling ≤ lo) :
    (marks.map Mark.act).filter (·.telling? = some telling) = [] :=
  filter_act_eq_nil Act.telling? fun _ hm => h.telling?_ne hm (by simp) (by omega)

theorem append (hx : Heeded plan own lo mid xs) (hy : Heeded plan own mid hi ys) :
    Heeded plan own lo hi (xs ++ ys) := by
  have hmid := hx.count
  have hhi := hy.count
  refine ⟨by rw [hhi, hmid, tellings_append, Nat.add_assoc], hx.outer, fun m hm t ht => ?_, ?_⟩
  · rcases List.mem_append.1 hm with hm | hm
    · exact (hx.numbered m hm t ht).imp_right (by omega)
    · exact (hy.numbered m hm t ht).imp_right (by omega)
  · intro before m after call o n hmarks hm
    rcases append_cons_eq_append hmarks.symm with ⟨before, rfl, hys⟩ | ⟨after, rfl, hxs⟩
    · have hown : own ≠ some (mid + tellings before + 1) := fun h =>
        absurd (hy.outer _ h) (by omega)
      rw [tellings_append, ← Nat.add_assoc, ← hmid, ← List.append_nil after]
      exact (hy.heeds before m after call o n hys hm).extend
        (fun m' hm' => hx.telling?_ne hm' hown (by omega)) (by simp)
    · have hown : own ≠ some (lo + tellings before + 1) := fun h =>
        absurd (hx.outer _ h) (by omega)
      have htold : tellings [m] = 1 := by simp [tellings, hm, Act.told?]
      have hle : lo + tellings before + 1 ≤ mid := by
        rw [hmid, hxs, tellings_append, tellings_cons, htold]
        omega
      rw [← List.nil_append before]
      exact (hx.heeds before m after call o n hxs hm).extend (by simp)
        fun m' hm' => hy.telling?_ne hm' hown (by omega)

/-- What is done may be done in answer to a telling that was made before. -/
theorem within (h : Heeded plan none lo hi xs) (htelling : telling ≤ lo) :
    Heeded plan (some telling) lo hi xs where
  count := h.count
  outer t ht := Option.some.inj ht ▸ htelling
  numbered m hm t ht := .inr ((h.numbered m hm t ht).resolve_left (by simp))
  heeds := h.heeds

/-- A telling, with all that is done in answer to it. -/
theorem tell {told : Mark} (h : Heeded plan (some (lo + 1)) (lo + 1) hi xs)
    (htold : told.act = .told call o n) {results : List Reaction.Result}
    (hlength : results.length = (plan (lo + 1) o).length)
    (hasks : (xs.map Mark.act).filter (·.telling? = some (lo + 1)) =
      dialogue (.told (lo + 1) o) (plan (lo + 1) o) results)
    (hinside : ∀ m ∈ xs, m.act.call? ≠ some call) : Heeded plan none lo hi (told :: xs) := by
  have hone : tellings [told] = 1 := by simp [tellings, htold, Act.told?]
  have hnone (t : Nat) : told.act.telling? ≠ some t := by simp [htold, Act.telling?]
  have hhi := h.count
  refine ⟨by rw [hhi, tellings_cons, hone, Nat.add_assoc], by simp, fun m hm t ht => .inr ?_, ?_⟩
  · rcases List.mem_cons.1 hm with rfl | hm
    · exact absurd ht (hnone t)
    · rcases h.numbered m hm t ht with hown | hrange
      · obtain rfl := Option.some.inj hown
        omega
      · omega
  · intro before m after call' o' n' hmarks hm
    rcases List.cons_eq_append_iff.1 hmarks with ⟨rfl, hcons⟩ | ⟨before, rfl, hxs⟩
    · obtain ⟨rfl, rfl⟩ := List.cons.inj hcons
      obtain ⟨rfl, rfl, rfl⟩ := Act.told.inj (htold.symm.trans hm)
      exact ⟨after, [], results, by simp, hlength, hasks, hinside, by simp⟩
    · have hnumber : lo + tellings (told :: before) + 1 = lo + 1 + tellings before + 1 := by
        rw [tellings_cons, hone]
        omega
      rw [hnumber, ← List.append_nil after]
      show Heeds plan _ call' o' ([told] ++ before) (after ++ [])
      exact (h.heeds before m after call' o' n' hxs hm).extend (by simpa using hnone _) (by simp)

end Heeded

/-! ## Which announcements begin -/

/-- The announcements in these lines are those that are asked for, in the same order, from when
    `pending` was asked for until none is left. -/
structure Granted (pending : Option Reaction) (lo hi left : Nat) (marks : List Mark) : Prop where
  count : hi = lo + (marks.filterMap (·.act.begun?)).length
  order : ∃ refused, (pending.bind Reaction.notice?).toList ++ marks.filterMap (·.act.wanted?) =
    marks.filterMap (·.act.begun?) ++ refused ∧ (refused ≠ [] → left = 0)

namespace Granted

variable {lo mid hi left left' : Nat}

theorem nil (hpending : ∀ n, pending = some (.announce n) → left = 0) :
    Granted pending lo lo left [] := by
  refine ⟨rfl, (pending.bind Reaction.notice?).toList, by simp, fun hne => ?_⟩
  cases hr : pending with
  | none => simp [hr] at hne
  | some r =>
    cases r with
    | announce n => exact hpending n hr
    | add o | remove o | count => simp [hr, Reaction.notice?] at hne

/-- A line on which no announcement is asked for, and none begins. -/
theorem singleton (hwanted : m.act.wanted? = none) (hbegun : m.act.begun? = none)
    (hpending : ∀ n, pending = some (.announce n) → left = 0) : Granted pending lo lo left [m] := by
  have hnil : Granted pending lo lo left [] := nil hpending
  obtain ⟨refused, hmarks, hrefused⟩ := hnil.order
  exact ⟨by simp [hbegun], refused, by simpa [hwanted, hbegun] using hmarks, hrefused⟩

/-- What is pending begins. -/
theorem began (hm : m.act = .began call n) : Granted (some (.announce n)) lo (lo + 1) left [m] :=
  ⟨by simp [hm, Act.begun?], [], by simp [hm, Act.begun?, Act.wanted?, Reaction.notice?], by simp⟩

theorem append (hx : Granted pending lo mid left xs) (hy : Granted none mid hi left' ys)
    (hleft : hi + left' = mid + left) : Granted pending lo hi left' (xs ++ ys) := by
  obtain ⟨hmid, refused, hxs, hrefused⟩ := hx
  obtain ⟨hhi, refused', hys, hrefused'⟩ := hy
  refine ⟨by simp only [hhi, hmid, List.filterMap_append, List.length_append]; omega, ?_⟩
  by_cases hnil : refused = []
  · refine ⟨refused', ?_, hrefused'⟩
    simp only [hnil, List.append_nil] at hxs
    simp only [Option.bind_none, Option.toList_none, List.nil_append] at hys
    rw [List.filterMap_append, List.filterMap_append, ← List.append_assoc, hxs, hys,
      List.append_assoc]
  · -- Once none is left none begins.
    have hnone := hrefused hnil
    have hbegun : ys.filterMap (·.act.begun?) = [] := List.length_eq_zero_iff.1 (by omega)
    refine ⟨refused ++ ys.filterMap (·.act.wanted?), ?_, fun _ => by omega⟩
    rw [List.filterMap_append, List.filterMap_append, ← List.append_assoc, hxs, hbegun,
      List.append_nil, List.append_assoc]

/-- What is pending is asked for. -/
theorem ask (h : Granted (some r) lo hi left marks) (hm : m.act = .asked a r) :
    Granted none lo hi left (m :: marks) := by
  obtain ⟨hcount, refused, hmarks, hrefused⟩ := h
  have hbegun : (m :: marks).filterMap (·.act.begun?) = marks.filterMap (·.act.begun?) := by
    simp [hm, Act.begun?]
  have hwanted : (m :: marks).filterMap (·.act.wanted?) =
      r.notice?.toList ++ marks.filterMap (·.act.wanted?) := by
    rw [← List.singleton_append, List.filterMap_append]
    cases hn : r.notice? <;> simp [hm, Act.wanted?, hn]
  refine ⟨by rw [hbegun, hcount], refused, ?_, hrefused⟩
  rw [hbegun, hwanted]
  exact hmarks

end Granted

end Fanout

end ContextBroker
