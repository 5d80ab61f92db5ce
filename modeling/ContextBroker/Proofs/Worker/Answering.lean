import ContextBroker.Proofs.History.Decisions
import ContextBroker.Proofs.Worker.Table

set_option autoImplicit false

/-! # Answers in any order

The polls of a request are answered in no order that anyone could know, each with a sample or
without one. An answer writes one binding and takes one identity from what the request awaits, so
two answers for different identities commute (`Store.cached_comm`), and the request is complete with
the last of them and not before (`Worker.turns_answers`). Whatever the order, the worker ends up the
same and delivers the same context (`Worker.Run.answered_in_any_order`). -/

namespace ContextBroker

/-- The task that answers the poll of `i` for the request with the token `t`, with a sample or
    without one. -/
def Task.answer (t : Token) (i : Identity) : Option Sample → Task
  | some sample => .respond i sample t
  | none => .unavailable i t false

/-- Takes turns, one after the other, and lists what each of them asked for. -/
def Worker.turns (w : Worker) : List Turn → Except Fault (Worker × List (List Effect))
  | [] => .ok (w, [])
  | turn :: rest =>
    match w.turn turn with
    | .error fault => .error fault
    | .ok (w', effects) =>
      match w'.turns rest with
      | .error fault => .error fault
      | .ok (w'', more) => .ok (w'', effects :: more)

/-! ## What answers write -/

/-- The binding once an answer is cached. -/
def Binding.cached (b : Binding) : Option Sample → Binding
  | some sample => b.write sample
  | none => b

namespace Store

/-- The store once an answer for `i` is cached. -/
def cached (s : Store) (i : Identity) : Option Sample → Store
  | some sample => (s.push i sample).toOption.getD s
  | none => s

variable {s : Store} {i j : Identity}

theorem cached_eq (s : Store) (i : Identity) (sample : Sample) :
    s.cached i (some sample) = ((s.get? i).map fun b => s.put i (b.write sample)).getD s := by
  rw [cached, push_eq]

theorem get?_cached (s : Store) (i : Identity) (a : Option Sample) (j : Identity) :
    (s.cached i a).get? j = (s.get? j).map fun b => if j = i then b.cached a else b := by
  cases a with
  | none => simp [cached, Binding.cached]
  | some sample =>
    rw [cached_eq]
    by_cases hj : j = i
    · subst hj
      cases hb : s.get? j <;> simp [Binding.cached, hb]
    · cases hb : s.get? i <;> simp [hj]

theorem put_comm (s : Store) (h : i ≠ j) (b c : Binding) :
    (s.put i b).put j c = (s.put j c).put i b := by
  refine congrArg Store.mk (SortedMap.ext_get? fun e => ?_)
  show ((s.put i b).endpoints.insert j.endpoint (((s.put i b).bindings j.endpoint).insert j c)).get?
      e =
    ((s.put j c).endpoints.insert i.endpoint (((s.put j c).bindings i.endpoint).insert i b)).get? e
  rw [bindings_put, bindings_put]
  simp only [put, SortedMap.get?_insert]
  by_cases he : i.endpoint = j.endpoint
  · simp only [he, if_true, SortedMap.insert_comm _ h b c]
    split <;> rfl
  · have he' : j.endpoint ≠ i.endpoint := fun h => he h.symm
    by_cases hj : e = j.endpoint
    · simp [hj, he']
    · simp [hj, he]

/-- Answers for different identities can be cached in either order. -/
theorem cached_comm (s : Store) (h : i ≠ j) (a c : Option Sample) :
    (s.cached i a).cached j c = (s.cached j c).cached i a := by
  cases a with
  | none => rfl
  | some u =>
    cases c with
    | none => rfl
    | some v =>
      simp only [cached_eq (s.cached _ _), get?_cached, if_neg h, if_neg h.symm, Option.map_id']
      simp only [cached_eq]
      cases hi : s.get? i with
      | none => cases s.get? j <;> rfl
      | some b =>
        cases hj : s.get? j with
        | none => rfl
        | some c => exact s.put_comm h _ _

/-- The store once the chosen answers for `is` are cached. -/
def cacheAll (s : Store) (choice : Identity → Option Sample) (is : List Identity) : Store :=
  is.foldl (fun s i => s.cached i (choice i)) s

theorem get?_cacheAll (s : Store) (choice : Identity → Option Sample) (is : List Identity)
    (j : Identity) :
    (s.cacheAll choice is).get? j =
      (s.get? j).map fun b => if j ∈ is then b.cached (choice j) else b := by
  have hidem : ∀ (b : Binding) (a : Option Sample), (b.cached a).cached a = b.cached a :=
    fun b a => by cases a <;> rfl
  induction is generalizing s with
  | nil => simp [cacheAll]
  | cons i is ih =>
    refine (ih (s.cached i (choice i))).trans ?_
    rw [get?_cached, Option.map_map]
    refine congrArg (fun f => (s.get? j).map f) (funext fun b => ?_)
    by_cases hj : j = i
    · subst hj
      by_cases hm : j ∈ is <;> simp [hm, hidem]
    · simp [hj]

/-- In which order answers are cached plays no part. -/
theorem cacheAll_perm (s : Store) (choice : Identity → Option Sample) {is js : List Identity}
    (h : is.Perm js) : s.cacheAll choice is = s.cacheAll choice js := by
  refine h.foldl_eq' (fun i _ j _ s => ?_) s
  by_cases hij : i = j
  · rw [hij]
  · exact s.cached_comm hij _ _

end Store

/-! ## What answers resolve -/

namespace Request

/-- The request once the chosen answers for `is` have come. -/
def resolveAll (r : Request) (choice : Identity → Option Sample) (is : List Identity) : Request :=
  is.foldl (fun r i => r.resolve i (choice i).isSome) r

variable {r : Request} {choice : Identity → Option Sample} {i : Identity}

theorem mem_refreshed_resolveAll (is : List Identity) :
    i ∈ (r.resolveAll choice is).refreshed ↔
      i ∈ r.refreshed ∨ i ∈ is ∧ (choice i).isSome = true := by
  induction is generalizing r with
  | nil => simp [resolveAll]
  | cons j is ih =>
    refine (ih (r := r.resolve j (choice j).isSome)).trans ?_
    rw [refreshed_resolve]
    by_cases hj : (choice j).isSome = true
    · by_cases hij : i = j
      · simp [hij, hj]
      · simp [hij, hj]
    · by_cases hij : i = j
      · simp [hij, hj]
      · simp [hij, hj]

theorem mem_unavailable_resolveAll (is : List Identity) :
    i ∈ (r.resolveAll choice is).unavailable ↔
      i ∈ r.unavailable ∨ i ∈ is ∧ choice i = none := by
  induction is generalizing r with
  | nil => simp [resolveAll]
  | cons j is ih =>
    refine (ih (r := r.resolve j (choice j).isSome)).trans ?_
    rw [unavailable_resolve]
    cases hj : choice j with
    | some sample =>
      by_cases hij : i = j
      · simp [hij, hj]
      · simp [hij]
    | none =>
      by_cases hij : i = j
      · simp [hij, hj]
      · simp [hij]

/-- What is awaited once an answer came is all that was awaited but its identity. -/
theorem awaited_perm_resolve {is : List Identity} (available : Bool)
    (h : (i :: is).Perm r.awaited.toList) : is.Perm (r.resolve i available).awaited.toList := by
  have hnodup : (i :: is).Nodup := h.nodup_iff.2 r.awaited.nodup_toList
  obtain ⟨hi, his⟩ := List.nodup_cons.1 hnodup
  refine (List.perm_ext_iff_of_nodup his (SortedSet.nodup_toList _)).2 fun j => ?_
  rw [SortedSet.mem_toList, awaited_resolve, SortedSet.mem_erase, ← SortedSet.mem_toList,
    ← h.mem_iff, List.mem_cons]
  constructor
  · intro hj
    exact ⟨fun he => hi (he ▸ hj), .inr hj⟩
  · rintro ⟨hne, rfl | hj⟩
    · exact absurd rfl hne
    · exact hj

end Request

/-! ## Answer by answer -/

namespace Worker

variable {w : Worker} {t : Token} {r : Request} {i : Identity}

/-- An answer that a request awaits is cached and taken down for the request. -/
theorem turn_answer (hr : w.requests.get? t = some r) (hi : r.awaits i = true)
    (around : Surroundings) (a : Option Sample) :
    w.turn (.task around (.answer t i a)) =
      .ok (
        let w' := { w with
          store := w.store.cached i a
          requests := w.requests.insert t (r.resolve i a.isSome)
          counters.tasks := w.counters.tasks + 1 }
        if (r.resolve i a.isSome).isComplete then w'.succeed t else (w', [])) := by
  cases a with
  | none =>
    simp [turn, Task.answer, handle, countTask, unavailable, SortedMap.contains_eq_isSome, hr,
      Worker.answer, hi, Store.cached]
  | some sample =>
    have hstore := store_cache w.countTask i sample
    have hcache := cache_eq w.countTask i sample
    simp only [turn, Task.answer, handle, respond]
    rw [hcache, hstore]
    simp [countTask, SortedMap.contains_eq_isSome, hr, Worker.answer, hi, Store.cached]

/-- The answer after which nothing is awaited closes the request with the context. -/
theorem turn_last_answer (hr : w.requests.get? t = some r) (hi : r.awaits i = true)
    (around : Surroundings) {a : Option Sample} (hdone : (r.resolve i a.isSome).isComplete = true) :
    w.turn (.task around (.answer t i a)) =
      let store := w.store.cached i a
      let r' := r.resolve i a.isSome
      .ok ({ w with
          store
          requests := w.requests.erase t
          tokens := w.tokens.release t
          counters.completed := w.counters.completed + 1
          counters.tasks := w.counters.tasks + 1 },
        r.timer.toList.map .cancelTimer ++ [.deliver r.requester t
          (.context r.endpoint (store.aggregate r.endpoint r'.refreshed r'.unavailable))]) := by
  rw [turn_answer hr hi]
  simp only [hdone, if_true]
  rw [succeed_eq (r := r.resolve i a.isSome) (SortedMap.get?_insert_self ..)]
  simp only [SortedMap.erase_insert, Request.requester_resolve, Request.endpoint_resolve,
    Request.timer_resolve]

/-- **The last answer closes the request**, and those before it deliver nothing. -/
theorem turns_answers (choice : Identity → Option Sample) (x : Surroundings × Identity)
    (rest : List (Surroundings × Identity)) (hr : w.requests.get? t = some r)
    (hall : ((x :: rest).map (·.2)).Perm r.awaited.toList) :
    w.turns ((x :: rest).map fun y => .task y.1 (.answer t y.2 (choice y.2))) =
      let store := w.store.cacheAll choice ((x :: rest).map (·.2))
      let r' := r.resolveAll choice ((x :: rest).map (·.2))
      .ok ({ w with
          store
          requests := w.requests.erase t
          tokens := w.tokens.release t
          counters.completed := w.counters.completed + 1
          counters.tasks := w.counters.tasks + (rest.length + 1) },
        List.replicate rest.length [] ++ [r.timer.toList.map .cancelTimer ++ [.deliver r.requester t
          (.context r.endpoint (store.aggregate r.endpoint r'.refreshed r'.unavailable))]]) := by
  obtain ⟨around, i⟩ := x
  have hi : r.awaits i = true :=
    SortedSet.contains_iff_mem.2 (SortedSet.mem_toList.1 (hall.mem_iff.1 (by simp)))
  have hleft := Request.awaited_perm_resolve (choice i).isSome hall
  induction rest generalizing w r around i with
  | nil =>
    -- Nothing else is awaited, so the request is complete.
    have hdone : (r.resolve i (choice i).isSome).isComplete = true := by
      rw [Request.isComplete, SortedSet.isEmpty_iff]
      intro j hj
      simpa using hleft.mem_iff.2 (SortedSet.mem_toList.2 hj)
    rw [List.map_cons, List.map_nil, turns, turn_last_answer hr hi around hdone]
    rfl
  | cons y rest ih =>
    obtain ⟨around', j⟩ := y
    -- What comes next is still awaited, so the request goes on.
    have hj : (r.resolve i (choice i).isSome).awaits j = true :=
      SortedSet.contains_iff_mem.2 (SortedSet.mem_toList.1 (hleft.mem_iff.1 (by simp)))
    have hopen : (r.resolve i (choice i).isSome).isComplete = false := by
      rw [Request.isComplete, ← Bool.not_eq_true, SortedSet.isEmpty_iff]
      exact fun h => h j (SortedSet.contains_iff_mem.1 hj)
    have ih := ih (w := { w with
      store := w.store.cached i (choice i)
      requests := w.requests.insert t (r.resolve i (choice i).isSome)
      counters.tasks := w.counters.tasks + 1 }) (SortedMap.get?_insert_self ..) around' j hleft hj
      (Request.awaited_perm_resolve _ hleft)
    rw [List.map_cons, turns, turn_answer hr hi]
    simp only [hopen, Bool.false_eq_true, if_false, ih, SortedMap.erase_insert,
      Request.requester_resolve, Request.endpoint_resolve, Request.timer_resolve]
    have hcount : w.counters.tasks + 1 + (rest.length + 1) =
        w.counters.tasks + (rest.length + 1 + 1) := by omega
    rw [hcount]
    rfl

/-- **The order of answers plays no part.** Whatever is chosen as the answers to what an open request
    awaits, and in whatever order they are taken, all of them but the last ask for nothing, and the
    last one delivers a context that is the same for every order; the worker that is left behind is
    the same, too. -/
theorem Run.answered_in_any_order {rounds : List Round} (h : w.Run rounds)
    (hr : w.requests.get? t = some r) (choice : Identity → Option Sample) :
    ∃ store refreshed unavailable id, r.timer = some id ∧ r.awaited.toList ≠ [] ∧
      (∀ i, store.get? i =
        (w.store.get? i).map fun b => if i ∈ r.awaited then b.cached (choice i) else b) ∧
      (∀ i, i ∈ refreshed ↔ i ∈ r.refreshed ∨ i ∈ r.awaited ∧ (choice i).isSome = true) ∧
      (∀ i, i ∈ unavailable ↔ i ∈ r.unavailable ∨ i ∈ r.awaited ∧ choice i = none) ∧
      ∀ order : List (Surroundings × Identity), (order.map (·.2)).Perm r.awaited.toList →
        w.turns (order.map fun x => .task x.1 (.answer t x.2 (choice x.2))) =
          .ok ({ w with
              store
              requests := w.requests.erase t
              tokens := w.tokens.release t
              counters.completed := w.counters.completed + 1
              counters.tasks := w.counters.tasks + r.awaited.toList.length },
            List.replicate (r.awaited.toList.length - 1) [] ++
              [[.cancelTimer id, .deliver r.requester t
                (.context r.endpoint (store.aggregate r.endpoint refreshed unavailable))]]) := by
  obtain ⟨id, hid, -⟩ := h.orderly.timed t r hr
  obtain ⟨i, hi⟩ := h.orderly.waits t r hr
  have hwaits : r.awaited.toList ≠ [] :=
    List.ne_nil_of_mem (SortedSet.mem_toList.2 (SortedSet.contains_iff_mem.1 hi))
  refine ⟨w.store.cacheAll choice r.awaited.toList,
    (r.resolveAll choice r.awaited.toList).refreshed,
    (r.resolveAll choice r.awaited.toList).unavailable, id, hid, hwaits, ?_, ?_, ?_, ?_⟩
  · intro i
    simp only [Store.get?_cacheAll, SortedSet.mem_toList]
  · intro i
    rw [Request.mem_refreshed_resolveAll, SortedSet.mem_toList]
  · intro i
    rw [Request.mem_unavailable_resolveAll, SortedSet.mem_toList]
  · intro order horder
    cases order with
    | nil => exact absurd horder.nil_eq.symm hwaits
    | cons x rest =>
      have hrefreshed : (r.resolveAll choice ((x :: rest).map (·.2))).refreshed =
          (r.resolveAll choice r.awaited.toList).refreshed := SortedSet.ext fun i => by
        rw [Request.mem_refreshed_resolveAll, Request.mem_refreshed_resolveAll, horder.mem_iff]
      have hunavailable : (r.resolveAll choice ((x :: rest).map (·.2))).unavailable =
          (r.resolveAll choice r.awaited.toList).unavailable := SortedSet.ext fun i => by
        rw [Request.mem_unavailable_resolveAll, Request.mem_unavailable_resolveAll, horder.mem_iff]
      have hlength : r.awaited.toList.length = rest.length + 1 := by
        rw [← horder.length_eq, List.length_map, List.length_cons]
      rw [turns_answers choice x rest hr horder, hlength, Nat.add_sub_cancel, hid]
      simp only [w.store.cacheAll_perm choice horder, hrefreshed, hunavailable]
      rfl

/-- Two polls, one answered with a sample and one without, answered in both orders. -/
theorem Run.answered_in_both_orders :
    let lamp : Identity := ⟨"lamp", "power", none, "default"⟩
    let light : Identity := ⟨"light", "power", none, "default"⟩
    let sample : Sample := ⟨"on", default, 0⟩
    let around : Surroundings := ⟨default, fun _ => true⟩
    let w := ((History.start {} 0).run [.call 0 (.register lamp 7 .pull),
      .call 1 (.register light 8 .pull), .call 2 (.getContext 3 "" 50),
      .work around, .work around, .work around]).broker.queue.worker
    ∃ w' context, w.turns [.task around (.respond lamp sample 1),
        .task around (.unavailable light 1 false)] =
          .ok (w', [[], [.cancelTimer 1, .deliver 3 1 (.context "default" context)]]) ∧
      w.turns [.task around (.unavailable light 1 false),
        .task around (.respond lamp sample 1)] =
          .ok (w', [[], [.cancelTimer 1, .deliver 3 1 (.context "default" context)]]) := by
  intro lamp light sample around w
  let choice : Identity → Option Sample := fun i => if i = lamp then some sample else none
  have hopen : (w.requests.get? 1).map (fun r =>
      (r.timer, r.requester, r.endpoint, r.awaited.toList)) =
      some (some 1, 3, "default", [lamp, light]) := by decide +kernel
  obtain ⟨r, hr, hfields⟩ := Option.map_eq_some_iff.1 hopen
  simp only [Prod.mk.injEq] at hfields
  obtain ⟨htimer, hrequester, hendpoint, hawaited⟩ := hfields
  obtain ⟨store, refreshed, unavailable, id, hid, -, -, -, -, hany⟩ :=
    Run.answered_in_any_order (History.run_rounds {} 0 [.call 0 (.register lamp 7 .pull),
      .call 1 (.register light 8 .pull), .call 2 (.getContext 3 "" 50),
      .work around, .work around, .work around]) hr choice
  obtain rfl : 1 = id := Option.some.inj (htimer.symm.trans hid)
  rw [hawaited, hrequester, hendpoint] at hany
  exact ⟨_, _, hany [(around, lamp), (around, light)] (.refl _),
    hany [(around, light), (around, lamp)] (.swap ..)⟩

end Worker

end ContextBroker
