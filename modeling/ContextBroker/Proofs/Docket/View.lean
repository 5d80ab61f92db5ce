import ContextBroker.Proofs.Store
import ContextBroker.Proofs.Worker.Leaving

set_option autoImplicit false

/-! # Views of a store

A `View` says what of a worker is looked at: some of its endpoints and some of its requests. Two
stores agree in a view (`View.Agrees`) when they have the same bindings on the endpoints in view,
but for one thing: where the view is blurred, a binding that is refreshed sometimes may be fresh in
one and stale in the other. No context of a request and no poll depends on that, since neither looks
at anything but the outline of a binding (`Binding.outline`). Writing the same to both stores keeps
them in agreement, and so does writing to one of them where the other is not looked at. -/

namespace ContextBroker

/-- What of a worker is looked at. -/
structure View where
  endpoint : String → Prop
  /-- The requests in view, by token and endpoint. -/
  request : Token → String → Prop
  /-- Where it is not looked whether what is refreshed sometimes is fresh. -/
  blurred : String → Prop
  sees (t : Token) (e : String) : request t e → endpoint e

/-! ## Bindings -/

namespace Binding

/-- All of a binding but whether it is fresh. -/
def outline (b : Binding) : Binding := { b with fresh := false }

/-- The bindings are the same, but that one may be fresh and the other not, if the view is blurred
    and they are refreshed sometimes. -/
structure Alike (blurred : Prop) (b b' : Binding) : Prop where
  outline : b.outline = b'.outline
  fresh : b.fresh = b'.fresh ∨ blurred ∧ b.kind = .push .sometimes

namespace Alike

variable {blurred : Prop} {b b' : Binding}

theorem refl (b : Binding) : Alike blurred b b := ⟨rfl, .inl rfl⟩

theorem provider (h : Alike blurred b b') : b.provider = b'.provider := by
  have hf := congrArg Binding.provider h.outline
  exact hf

theorem kind (h : Alike blurred b b') : b.kind = b'.kind := by
  have hf := congrArg Binding.kind h.outline
  exact hf

theorem state (h : Alike blurred b b') : b.state = b'.state := by
  have hf := congrArg Binding.state h.outline
  exact hf

theorem eq (h : Alike blurred b b') (hsharp : ¬ blurred) : b = b' := by
  have hfresh : b.fresh = b'.fresh := h.fresh.resolve_right fun hb => hsharp hb.1
  have hprovider := h.provider
  have hkind := h.kind
  have hstate := h.state
  cases b
  cases b'
  simp_all

theorem write (h : Alike blurred b b') (sample : Sample) :
    Alike blurred (b.write sample) (b'.write sample) := by
  refine ⟨?_, .inl rfl⟩
  simp only [Binding.write, Binding.outline, h.provider, h.kind]

theorem writeUnder (h : Alike blurred b b') (policy : RefreshPolicy) (payload : String)
    (now : Timestamp) :
    Alike blurred (b.writeUnder policy payload now) (b'.writeUnder policy payload now) := by
  unfold Binding.writeUnder
  simp only
  split
  · refine ⟨?_, .inl rfl⟩
    simp only [Binding.outline, h.provider]
  · refine ⟨?_, .inl rfl⟩
    simp only [Binding.write, Binding.outline, h.provider]

theorem polled (h : Alike blurred b b') : Alike blurred b.polled b'.polled := by
  unfold Binding.polled
  rw [← h.kind]
  split
  · refine ⟨?_, .inl rfl⟩
    simp only [Binding.outline, h.provider, h.kind, h.state]
  · exact h

/-- Polling one of the two shows only where the view is not blurred. -/
theorem polled_left (h : Alike blurred b b') (hblurred : blurred) :
    Alike blurred b.polled b' := by
  unfold Binding.polled
  split
  · rename_i hk
    exact ⟨h.outline, .inr ⟨hblurred, hk⟩⟩
  · exact h

end Alike

end Binding

namespace Store

/-- The outlines of the bindings on one endpoint. -/
def outline (s : Store) (endpoint : String) : Bindings :=
  (s.bindings endpoint).mapValues fun _ b => b.outline

/-- The context of a request can be told from the outlines of the bindings. -/
theorem aggregate_congr {s s' : Store} {endpoint : String}
    (h : s.outline endpoint = s'.outline endpoint) (refreshed unavailable : SortedSet Identity) :
    s.aggregate endpoint refreshed unavailable = s'.aggregate endpoint refreshed unavailable := by
  have houtline : ∀ s : Store, s.aggregate endpoint refreshed unavailable =
      (s.outline endpoint).toList.filterMap fun x =>
        (if x.1 ∈ unavailable then none else x.2.reported (refreshed.contains x.1)).map
          fun sample => (x.1, sample) := by
    intro s
    simp only [outline, SortedMap.mapValues, List.filterMap_map]
    rfl
  rw [houtline, houtline, h]

/-- What is polled can be told from the outlines of the bindings. -/
theorem targets_congr {s s' : Store} {endpoint : String}
    (h : s.outline endpoint = s'.outline endpoint) (retrievable : Provider → Bool) :
    (s.scatter retrievable endpoint).2 = (s'.scatter retrievable endpoint).2 := by
  have houtline : ∀ s : Store, (s.scatter retrievable endpoint).2 =
      ((s.outline endpoint).toList.filter fun x => x.2.needsPoll retrievable).map
        fun x => ⟨x.1, x.2.provider⟩ := by
    intro s
    simp only [scatter, outline, bindings]
    cases s.endpoints.get? endpoint with
    | none => rfl
    | some bs =>
      simp only [SortedMap.filter, SortedMap.mapValues, Option.getD_some, List.filter_map,
        List.map_map]
      rfl
  rw [houtline, houtline, h]

end Store

/-! ## Tasks -/

/-- The endpoint that a task is about. -/
def Task.endpoint? : Task → Option String
  | register i .. | unregister i _ | setState i .. | pushState i .. | report i _ | respond i ..
  | unavailable i .. => some i.endpoint
  | getContext _ _ endpoint _ | read endpoint _ => some endpoint
  | timeout .. | metrics _ | shutdown _ => none

/-- A task leaves all endpoints alone but the one that it is about. -/
theorem Task.bindings_write {task : Task} {e : String} (h : task.endpoint? ≠ some e)
    {around : Surroundings} {accepted : Bool} {s : Store} :
    (task.write around accepted s).bindings e = s.bindings e := by
  have hne : ∀ {i : Identity}, some i.endpoint ≠ some e → e ≠ i.endpoint := fun hi he =>
    hi (congrArg some he.symm)
  cases task with
  | register i provider kind ticket =>
    simp only [write, Store.register_eq]
    exact (Store.bindings_put ..).trans (if_neg (hne h))
  | unregister i ticket => exact (Store.bindings_unregistered ..).trans (if_neg (hne h))
  | setState i payload policy token ticket =>
    cases accepted with
    | false => rfl
    | true =>
      simp only [write, if_true, Store.pushUnder]
      cases s.get? i with
      | none => rfl
      | some b =>
        by_cases ha : b.kind.allows policy = true
        · simp only [ha, if_true]
          exact (Store.bindings_put ..).trans (if_neg (hne h))
        · simp only [ha, Bool.false_eq_true, if_false]
          rfl
  | pushState i sample ticket => exact Store.bindings_pushed s sample (hne h)
  | report i sample => exact Store.bindings_pushed s sample (hne h)
  | respond i sample t => exact Store.bindings_pushed s sample (hne h)
  | getContext t requester endpoint timeout =>
    exact (Store.bindings_scatter ..).trans (if_neg fun he => h (congrArg some he.symm))
  | _ => rfl

/-! ## Stores -/

namespace View

/-- The stores have the same bindings on the endpoints in view, as far as the view is not
    blurred. -/
def Agrees (v : View) (s s' : Store) : Prop :=
  ∀ e, v.endpoint e → ∀ i,
    Option.Rel (Binding.Alike (v.blurred e)) ((s.bindings e).get? i) ((s'.bindings e).get? i)

namespace Agrees

variable {v : View} {s s' : Store} {i : Identity} {b b' : Binding} {e : String}

theorem refl (v : View) (s : Store) : v.Agrees s s := by
  intro e _ i
  cases (s.bindings e).get? i with
  | none => exact .none
  | some b => exact .some (.refl b)

/-- In view an identity is bound in both stores or in none. -/
theorem cases (h : v.Agrees s s') (he : v.endpoint e) (i : Identity) :
    ((s.bindings e).get? i = none ∧ (s'.bindings e).get? i = none) ∨
      ∃ b b', (s.bindings e).get? i = some b ∧ (s'.bindings e).get? i = some b' ∧
        Binding.Alike (v.blurred e) b b' := by
  have hrel := h e he i
  generalize (s.bindings e).get? i = o, (s'.bindings e).get? i = o' at hrel
  cases hrel with
  | none => exact .inl ⟨rfl, rfl⟩
  | some hb => exact .inr ⟨_, _, rfl, rfl, hb⟩

theorem get?_cases (h : v.Agrees s s') (hi : v.endpoint i.endpoint) :
    (s.get? i = none ∧ s'.get? i = none) ∨ ∃ b b', s.get? i = some b ∧ s'.get? i = some b' ∧
      Binding.Alike (v.blurred i.endpoint) b b' :=
  h.cases hi i

theorem contains (h : v.Agrees s s') (hi : v.endpoint i.endpoint) :
    s.contains i = s'.contains i := by
  unfold Store.contains
  rcases h.get?_cases hi with ⟨hs, hs'⟩ | ⟨b, b', hs, hs', -⟩
  · rw [hs, hs']
  · rw [hs, hs']
    rfl

theorem outline (h : v.Agrees s s') (he : v.endpoint e) : s.outline e = s'.outline e := by
  refine SortedMap.ext_get? fun i => ?_
  rw [Store.outline, Store.outline, SortedMap.get?_mapValues, SortedMap.get?_mapValues]
  rcases h.cases he i with ⟨hs, hs'⟩ | ⟨b, b', hs, hs', hb⟩
  · rw [hs, hs']
  · rw [hs, hs']
    exact congrArg some hb.outline

/-- Where the view is sharp the bindings are the same. -/
theorem bindings (h : v.Agrees s s') (he : v.endpoint e) (hsharp : ¬ v.blurred e) :
    s.bindings e = s'.bindings e := by
  refine SortedMap.ext_get? fun i => ?_
  rcases h.cases he i with ⟨hs, hs'⟩ | ⟨b, b', hs, hs', hb⟩
  · rw [hs, hs']
  · rw [hs, hs', hb.eq hsharp]

/-! ## Writing to both -/

theorem put (h : v.Agrees s s') (hb : Binding.Alike (v.blurred i.endpoint) b b') :
    v.Agrees (s.put i b) (s'.put i b') := by
  intro e he j
  rw [Store.bindings_put, Store.bindings_put]
  by_cases hi : e = i.endpoint
  · subst hi
    rw [if_pos rfl, if_pos rfl, SortedMap.get?_insert, SortedMap.get?_insert]
    by_cases hj : j = i
    · rw [if_pos hj, if_pos hj]
      exact .some hb
    · rw [if_neg hj, if_neg hj]
      exact h _ he j
  · rw [if_neg hi, if_neg hi]
    exact h e he j

theorem registered (h : v.Agrees s s') (hi : v.endpoint i.endpoint) (provider : Provider)
    (kind : Kind) : Binding.Alike (v.blurred i.endpoint) (s.registered i provider kind)
      (s'.registered i provider kind) := by
  unfold Store.registered
  rcases h.get?_cases hi with ⟨hs, hs'⟩ | ⟨b, b', hs, hs', hb⟩
  · rw [hs, hs']
    exact .refl _
  · rw [hs, hs']
    simp only [← hb.kind]
    split
    · refine ⟨?_, hb.fresh⟩
      simp only [Binding.outline, hb.kind, hb.state]
    · exact .refl _

theorem push (h : v.Agrees s s') (hi : v.endpoint i.endpoint) (sample : Sample) :
    v.Agrees ((s.push i sample).toOption.getD s) ((s'.push i sample).toOption.getD s') := by
  rw [Store.push_eq, Store.push_eq]
  rcases h.get?_cases hi with ⟨hs, hs'⟩ | ⟨b, b', hs, hs', hb⟩
  · rw [hs, hs']
    exact h
  · rw [hs, hs']
    exact h.put (hb.write sample)

theorem pushUnder (h : v.Agrees s s') (hi : v.endpoint i.endpoint) (payload : String)
    (policy : RefreshPolicy) (now : Timestamp) :
    v.Agrees ((s.pushUnder i payload policy now).toOption.getD s)
      ((s'.pushUnder i payload policy now).toOption.getD s') := by
  unfold Store.pushUnder
  rcases h.get?_cases hi with ⟨hs, hs'⟩ | ⟨b, b', hs, hs', hb⟩
  · rw [hs, hs']
    exact h
  · simp only [hs, hs', ← hb.kind]
    by_cases ha : b.kind.allows policy = true
    · rw [if_pos ha, if_pos ha]
      exact h.put (hb.writeUnder policy payload now)
    · rw [if_neg ha, if_neg ha]
      exact h

theorem scatter (h : v.Agrees s s') (retrievable : Provider → Bool) (endpoint : String) :
    v.Agrees (s.scatter retrievable endpoint).1 (s'.scatter retrievable endpoint).1 := by
  intro e he i
  rw [Store.bindings_scatter, Store.bindings_scatter]
  by_cases hen : e = endpoint
  · subst hen
    rw [if_pos rfl, if_pos rfl, SortedMap.get?_mapValues, SortedMap.get?_mapValues]
    rcases h.cases he i with ⟨hs, hs'⟩ | ⟨b, b', hs, hs', hb⟩
    · rw [hs, hs']
      exact .none
    · rw [hs, hs']
      exact .some hb.polled
  · rw [if_neg hen, if_neg hen]
    exact h e he i

theorem unregister (h : v.Agrees s s') (i : Identity) :
    v.Agrees (((s.unregister i).toOption.map (·.1)).getD s)
      (((s'.unregister i).toOption.map (·.1)).getD s') := by
  intro e he j
  rw [Store.bindings_unregistered, Store.bindings_unregistered]
  by_cases hi : e = i.endpoint
  · subst hi
    rw [if_pos rfl, if_pos rfl, SortedMap.get?_erase, SortedMap.get?_erase]
    by_cases hj : j = i
    · rw [if_pos hj, if_pos hj]
      exact .none
    · rw [if_neg hj, if_neg hj]
      exact h _ he j
  · rw [if_neg hi, if_neg hi]
    exact h e he j

/-- The same task writes the same to both. -/
theorem write (h : v.Agrees s s') {task : Task}
    (htask : ∀ e, task.endpoint? = some e → v.endpoint e) (around : Surroundings)
    (accepted : Bool) :
    v.Agrees (task.write around accepted s) (task.write around accepted s') := by
  cases task with
  | register i provider kind ticket =>
    simp only [Task.write, Store.register_eq]
    exact h.put (h.registered (htask _ rfl) provider kind)
  | unregister i ticket => exact h.unregister i
  | setState i payload policy token ticket =>
    cases accepted with
    | true => exact h.pushUnder (htask _ rfl) payload policy around.now
    | false => exact h
  | pushState i sample ticket => exact h.push (htask _ rfl) sample
  | report i sample => exact h.push (htask _ rfl) sample
  | respond i sample t => exact h.push (htask _ rfl) sample
  | getContext t requester endpoint timeout => exact h.scatter around.retrievable endpoint
  | _ => exact h

/-- A task about what is not in view may be written to one of the stores only. -/
theorem write_left (h : v.Agrees s s') {task : Task}
    (htask : ∀ e, task.endpoint? = some e → ¬ v.endpoint e) (around : Surroundings)
    (accepted : Bool) : v.Agrees (task.write around accepted s) s' := by
  intro e he i
  rw [Task.bindings_write fun ht => htask e ht he]
  exact h e he i

/-- Polling for a request shows only where the view is not blurred. -/
theorem scatter_left (h : v.Agrees s s') (hblurred : v.blurred e) (retrievable : Provider → Bool) :
    v.Agrees (s.scatter retrievable e).1 s' := by
  intro e' he i
  rw [Store.bindings_scatter]
  by_cases hen : e' = e
  · subst hen
    rw [if_pos rfl, SortedMap.get?_mapValues]
    rcases h.cases he i with ⟨hs, hs'⟩ | ⟨b, b', hs, hs', hb⟩
    · rw [hs, hs']
      exact .none
    · rw [hs, hs']
      exact .some (hb.polled_left hblurred)
  · rw [if_neg hen]
    exact h e' he i

end Agrees

end View

end ContextBroker
