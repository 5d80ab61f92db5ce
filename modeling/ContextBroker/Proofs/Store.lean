import ContextBroker.Store

set_option autoImplicit false

/-! # Looking up in the store

Every operation on the store is told by what it does to look-up, one identity at a time. Listing an
endpoint gives the identities on that endpoint and no others, because each is filed under its own
(`Store.Filed`). -/

namespace ContextBroker

/-- What takes part in a context is a cached sample: not of what is never refreshed, and of what is
    refreshed sometimes only if it was. -/
theorem Binding.reported_eq_some {b : Binding} {refreshed : Bool} {sample : Sample} :
    b.reported refreshed = some sample ↔ b.state = some sample ∧ b.kind ≠ .push .never ∧
      (b.kind = .push .sometimes → refreshed = true) := by
  unfold reported
  cases hk : b.kind with
  | pull => simp
  | push policy =>
    cases policy with
    | always => simp
    | never => simp
    | sometimes => simp [and_comm]

namespace Store

/-- Every identity is filed under its own endpoint. -/
def Filed (s : Store) : Prop :=
  ∀ endpoint i b, (s.bindings endpoint).get? i = some b → i.endpoint = endpoint

variable {s : Store} {i j : Identity} {b : Binding}

/-! ## Look-up after each operation -/

theorem bindings_put (s : Store) (i : Identity) (b : Binding) (endpoint : String) :
    (s.put i b).bindings endpoint =
      if endpoint = i.endpoint then (s.bindings i.endpoint).insert i b
      else s.bindings endpoint := by
  simp only [put, bindings, SortedMap.get?_insert]
  split <;> rfl

@[simp] theorem get?_put (s : Store) (i : Identity) (b : Binding) (j : Identity) :
    (s.put i b).get? j = if j = i then some b else s.get? j := by
  unfold get?
  rw [bindings_put]
  by_cases he : j.endpoint = i.endpoint
  · rw [if_pos he, SortedMap.get?_insert, he]
  · have hj : j ≠ i := fun h => he (h ▸ rfl)
    rw [if_neg he, if_neg hj]

theorem Filed.put (h : s.Filed) (i : Identity) (b : Binding) : (s.put i b).Filed := by
  intro endpoint j c hj
  rw [bindings_put] at hj
  split at hj
  · rename_i he
    rw [SortedMap.get?_insert] at hj
    split at hj
    · rename_i hji
      rw [hji, he]
    · rw [he]
      exact h _ _ _ hj
  · exact h _ _ _ hj

/-- What registering binds: the old binding with the new provider if the kind is the same. -/
def registered (s : Store) (i : Identity) (provider : Provider) (kind : Kind) : Binding :=
  match s.get? i with
  | some old => if old.kind = kind then { old with provider } else { provider, kind }
  | none => { provider, kind }

theorem register_eq (s : Store) (i : Identity) (provider : Provider) (kind : Kind) :
    (s.register i provider kind).1 = s.put i (s.registered i provider kind) := by
  unfold register registered
  cases s.get? i <;> rfl

theorem bindings_unregister {s' : Store} (h : s.unregister i = .ok (s', b)) (endpoint : String) :
    s'.bindings endpoint =
      if endpoint = i.endpoint then (s.bindings i.endpoint).erase i else s.bindings endpoint := by
  unfold unregister at h
  split at h
  · simp at h
  · obtain ⟨rfl, -⟩ := Prod.mk.inj (Except.ok.inj h)
    by_cases hempty : ((s.bindings i.endpoint).erase i).isEmpty = true
    · rw [if_pos hempty]
      unfold bindings at hempty ⊢
      rw [SortedMap.get?_erase]
      split
      · refine SortedMap.ext_get? fun j => ?_
        rw [SortedMap.get?, SortedMap.get?, List.isEmpty_iff.1 hempty]
        rfl
      · rfl
    · rw [if_neg hempty]
      unfold bindings
      rw [SortedMap.get?_insert]
      split <;> rfl

theorem get?_unregister {s' : Store} (h : s.unregister i = .ok (s', b)) (j : Identity) :
    s'.get? j = if j = i then none else s.get? j := by
  unfold get?
  rw [bindings_unregister h]
  by_cases he : j.endpoint = i.endpoint
  · rw [if_pos he, SortedMap.get?_erase, he]
  · have hj : j ≠ i := fun h => he (h ▸ rfl)
    rw [if_neg he, if_neg hj]

theorem unregister_isOk (s : Store) (i : Identity) : (s.unregister i).isOk = (s.get? i).isSome := by
  unfold unregister
  cases s.get? i <;> rfl

theorem bindings_unregistered (s : Store) (i : Identity) (e : String) :
    (((s.unregister i).toOption.map (·.1)).getD s).bindings e =
      if e = i.endpoint then (s.bindings i.endpoint).erase i else s.bindings e := by
  cases hu : s.unregister i with
  | ok x => exact bindings_unregister (b := x.2) hu e
  | error error =>
    -- What is not bound need not be erased.
    have hnone : s.get? i = none := by
      have hok := s.unregister_isOk i
      rw [hu] at hok
      exact Option.isNone_iff_eq_none.1 (by simpa [Except.isOk, Except.toBool] using hok.symm)
    show s.bindings e = _
    split
    · rename_i he
      subst he
      refine SortedMap.ext_get? fun j => ?_
      rw [SortedMap.get?_erase]
      split
      · rename_i hj
        rw [hj]
        exact hnone
      · rfl
    · rfl

theorem push_eq (s : Store) (i : Identity) (sample : Sample) :
    (s.push i sample).toOption = (s.get? i).map fun b => s.put i (b.write sample) := by
  unfold push
  cases s.get? i <;> rfl

theorem bindings_pushed (s : Store) (sample : Sample) {e : String} (he : e ≠ i.endpoint) :
    ((s.push i sample).toOption.getD s).bindings e = s.bindings e := by
  rw [push_eq]
  cases s.get? i with
  | none => rfl
  | some b => exact (bindings_put ..).trans (if_neg he)

theorem bindings_scatter (s : Store) (retrievable : Provider → Bool) (endpoint e : String) :
    (s.scatter retrievable endpoint).1.bindings e =
      if e = endpoint then (s.bindings endpoint).mapValues fun _ b => b.polled
      else s.bindings e := by
  unfold scatter
  cases hb : s.endpoints.get? endpoint with
  | none =>
    by_cases he : e = endpoint
    · simp only [bindings, he, hb, if_true]
      rfl
    · simp only [he, if_false]
  | some bs =>
    simp only [bindings, hb, SortedMap.get?_insert]
    split <;> rfl

theorem get?_scatter (s : Store) (retrievable : Provider → Bool) (endpoint : String)
    (i : Identity) :
    (s.scatter retrievable endpoint).1.get? i =
      (s.get? i).map fun b => if i.endpoint = endpoint then b.polled else b := by
  unfold get?
  rw [bindings_scatter]
  by_cases he : i.endpoint = endpoint
  · simp only [he, if_true, SortedMap.get?_mapValues]
  · simp only [he, if_false, Option.map_id']

theorem Filed.scatter (h : s.Filed) (retrievable : Provider → Bool) (endpoint : String) :
    (s.scatter retrievable endpoint).1.Filed := by
  intro e i b hi
  rw [bindings_scatter] at hi
  split at hi
  · rename_i he
    rw [SortedMap.get?_mapValues, Option.map_eq_some_iff] at hi
    obtain ⟨c, hc, -⟩ := hi
    rw [he]
    exact h _ _ _ hc
  · exact h _ _ _ hi

theorem Filed.unregister (h : s.Filed) {s' : Store} (hu : s.unregister i = .ok (s', b)) :
    s'.Filed := by
  intro e j c hj
  rw [bindings_unregister hu] at hj
  split at hj
  · rename_i he
    rw [SortedMap.get?_erase] at hj
    split at hj
    · simp at hj
    · rw [he]
      exact h _ _ _ hj
  · exact h _ _ _ hj

/-! ## Listing an endpoint -/

theorem get?_bindings (h : s.Filed) {endpoint : String} :
    (s.bindings endpoint).get? i = some b ↔ i.endpoint = endpoint ∧ s.get? i = some b := by
  constructor
  · intro hi
    obtain rfl := h _ _ _ hi
    exact ⟨rfl, hi⟩
  · rintro ⟨rfl, hi⟩
    exact hi

/-- The polled capabilities are those bound on the endpoint that need a poll. -/
theorem mem_scatter (h : s.Filed) {retrievable : Provider → Bool} {endpoint : String} :
    i ∈ (s.scatter retrievable endpoint).2.map (·.identity) ↔
      i.endpoint = endpoint ∧ ∃ b, s.get? i = some b ∧ b.needsPoll retrievable = true := by
  have hb : i ∈ (s.scatter retrievable endpoint).2.map (·.identity) ↔
      ∃ b, (s.bindings endpoint).get? i = some b ∧ b.needsPoll retrievable = true := by
    unfold scatter bindings
    cases s.endpoints.get? endpoint with
    | none => simp
    | some bs =>
      simp only [List.map_map, List.mem_map, Prod.exists, Function.comp_apply, Option.getD_some]
      constructor
      · rintro ⟨j, b, hm, rfl⟩
        rw [SortedMap.mem_toList, SortedMap.get?_filter, Option.filter_eq_some_iff] at hm
        exact ⟨b, hm⟩
      · rintro ⟨b, hb⟩
        refine ⟨i, b, ?_, rfl⟩
        rw [SortedMap.mem_toList, SortedMap.get?_filter, Option.filter_eq_some_iff]
        exact hb
  rw [hb]
  simp only [get?_bindings h]
  constructor
  · rintro ⟨b, ⟨he, hi⟩, hp⟩
    exact ⟨he, b, hi, hp⟩
  · rintro ⟨he, b, hi, hp⟩
    exact ⟨b, ⟨he, hi⟩, hp⟩

theorem mem_gather (h : s.Filed) {endpoint : String} {report : Identity → Binding → Option Sample}
    {sample : Sample} :
    (i, sample) ∈ s.gather endpoint report ↔
      i.endpoint = endpoint ∧ ∃ b, s.get? i = some b ∧ report i b = some sample := by
  unfold gather
  simp only [List.mem_filterMap, Prod.exists, Option.map_eq_some_iff, Prod.mk.injEq]
  constructor
  · rintro ⟨j, b, hm, x, hx, rfl, rfl⟩
    rw [SortedMap.mem_toList, get?_bindings h] at hm
    exact ⟨hm.1, b, hm.2, hx⟩
  · rintro ⟨he, b, hb, hx⟩
    refine ⟨i, b, ?_, sample, hx, rfl, rfl⟩
    rw [SortedMap.mem_toList, get?_bindings h]
    exact ⟨he, hb⟩

/-- What is gathered is listed in strictly increasing order. -/
theorem increasing_gather (s : Store) (endpoint : String)
    (report : Identity → Binding → Option Sample) :
    ((s.gather endpoint report).map (·.1)).Pairwise fun i j => compare i j = .lt := by
  unfold gather
  rw [List.pairwise_map, List.pairwise_filterMap]
  refine (s.bindings endpoint).increasing.imp fun {x y} hxy u hu v hv => ?_
  simp only [Option.map_eq_some_iff] at hu hv
  obtain ⟨-, -, rfl⟩ := hu
  obtain ⟨-, -, rfl⟩ := hv
  exact hxy

/-- The cached context of an endpoint lists what is bound on it and has a cached sample: not what is
    never refreshed, and what is refreshed sometimes only while it is fresh. -/
theorem mem_read (h : s.Filed) {endpoint : String} {sample : Sample} :
    (i, sample) ∈ s.read endpoint ↔
      i.endpoint = endpoint ∧ ∃ b, s.get? i = some b ∧ b.state = some sample ∧
        b.kind ≠ .push .never ∧ (b.kind = .push .sometimes → b.fresh = true) := by
  unfold read
  rw [mem_gather h]
  simp only [Binding.reported_eq_some]

/-- The context of a request lists what is bound on its endpoint and has a cached sample: not what
    was found unavailable, not what is never refreshed, and what is refreshed sometimes only if it
    was refreshed for the request. -/
theorem mem_aggregate (h : s.Filed) {endpoint : String} {refreshed unavailable : SortedSet Identity}
    {sample : Sample} :
    (i, sample) ∈ s.aggregate endpoint refreshed unavailable ↔
      i.endpoint = endpoint ∧ ∃ b, s.get? i = some b ∧ b.state = some sample ∧
        b.kind ≠ .push .never ∧ ¬ i ∈ unavailable ∧
        (b.kind = .push .sometimes → i ∈ refreshed) := by
  unfold aggregate
  rw [mem_gather h]
  refine and_congr_right fun _ => exists_congr fun b => and_congr_right fun _ => ?_
  by_cases hu : i ∈ unavailable
  · simp [hu]
  · simp [hu, Binding.reported_eq_some, SortedSet.contains_iff_mem]

end Store

end ContextBroker
