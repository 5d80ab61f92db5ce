import ContextBroker.Proofs.Worker.Gathering

set_option autoImplicit false

/-! # The endpoints that a worker knows

A worker knows endpoints by what is bound on them and by what its open requests await. It learns of
one only when an identity is registered on it: answers and failures take from what is awaited
(`Round.awaits_progress`), and a request awaits, and polls, nothing but what is bound
(`Worker.Within.turn`). -/

namespace ContextBroker

variable {P : String → Prop}

/-! ## What is bound -/

namespace Store

/-- All that is bound is on endpoints in `P`. -/
def Within (P : String → Prop) (s : Store) : Prop :=
  ∀ endpoint i b, (s.bindings endpoint).get? i = some b → P i.endpoint

namespace Within

variable {s : Store} {i : Identity}

theorem of_get? (h : s.Within P) {b : Binding} (hb : s.get? i = some b) : P i.endpoint :=
  h i.endpoint i b hb

theorem put (h : s.Within P) (hi : P i.endpoint) (b : Binding) : (s.put i b).Within P := by
  intro endpoint j c hj
  rw [bindings_put] at hj
  split at hj
  · rw [SortedMap.get?_insert] at hj
    split at hj
    · rename_i hji
      rwa [hji]
    · exact h _ _ _ hj
  · exact h _ _ _ hj

theorem pushed (h : s.Within P) (i : Identity) (sample : Sample) :
    ((s.push i sample).toOption.getD s).Within P := by
  rw [push_eq]
  cases hb : s.get? i with
  | none => exact h
  | some b => exact h.put (h.of_get? hb) _

theorem pushedUnder (h : s.Within P) (i : Identity) (payload : String) (policy : RefreshPolicy)
    (now : Timestamp) : ((s.pushUnder i payload policy now).toOption.getD s).Within P := by
  unfold pushUnder
  cases hb : s.get? i with
  | none => exact h
  | some b =>
    simp only
    split
    · exact h.put (h.of_get? hb) _
    · exact h

theorem unregistered (h : s.Within P) (i : Identity) :
    (((s.unregister i).toOption.map (·.1)).getD s).Within P := by
  intro endpoint j c hj
  rw [bindings_unregistered] at hj
  split at hj
  · rw [SortedMap.get?_erase] at hj
    split at hj
    · cases hj
    · exact h _ _ _ hj
  · exact h _ _ _ hj

theorem scatter (h : s.Within P) (retrievable : Provider → Bool) (endpoint : String) :
    (s.scatter retrievable endpoint).1.Within P ∧
      ∀ target ∈ (s.scatter retrievable endpoint).2, P target.identity.endpoint := by
  refine ⟨fun e j c hj => ?_, fun target htarget => ?_⟩
  · rw [bindings_scatter] at hj
    split at hj
    · rw [SortedMap.get?_mapValues, Option.map_eq_some_iff] at hj
      obtain ⟨b, hb, -⟩ := hj
      exact h _ _ _ hb
    · exact h _ _ _ hj
  · unfold Store.scatter at htarget
    cases hb : s.endpoints.get? endpoint with
    | none => simp [hb] at htarget
    | some bs =>
      simp only [hb, List.mem_map, Prod.exists] at htarget
      obtain ⟨i, b, hm, rfl⟩ := htarget
      rw [SortedMap.mem_toList, SortedMap.get?_filter, Option.filter_eq_some_iff] at hm
      refine h endpoint i b ?_
      rw [bindings, hb]
      exact hm.1

/-- Only registering binds anything new. -/
theorem write (h : s.Within P) {turn : Turn} (hregister : ∀ around i provider kind ticket,
    turn = .task around (.register i provider kind ticket) → P i.endpoint) (accepted : Bool) :
    (turn.write accepted s).Within P := by
  cases turn with
  | shutdown => exact h
  | deserted => exact h
  | task around task =>
    cases task with
    | register i provider kind ticket =>
      simp only [Turn.write, Task.write, register_eq]
      exact h.put (hregister around i provider kind ticket rfl) _
    | unregister i ticket => exact h.unregistered i
    | setState i payload policy token ticket =>
      simp only [Turn.write, Task.write]
      split
      · exact h.pushedUnder i payload policy around.now
      · exact h
    | pushState i sample ticket => exact h.pushed i sample
    | report i sample => exact h.pushed i sample
    | respond i sample t => exact h.pushed i sample
    | getContext t requester endpoint timeout => exact (h.scatter around.retrievable endpoint).1
    | _ => exact h

end Within

end Store

namespace Worker

/-! ## What is awaited -/

/-- No request that is handled has the token of an open one. -/
theorem sound_task {w : Worker} {around : Surroundings} {task : Task} {s : Step}
    (h : w.turn (.task around task) = .ok s) : Round.Sound ⟨w, .task around task, s.1, s.2⟩ := by
  refine ⟨h, ?_⟩
  cases task with
  | getContext t requester endpoint timeout =>
    have ht : w.countTask.requests.contains t ≠ true := by
      intro ht
      simp [turn, handle, ht] at h
    refine ⟨List.pairwise_singleton _ t, fun u hu => ?_⟩
    obtain rfl := List.mem_singleton.1 hu
    show w.countTask.requests.get? u = none
    simpa [SortedMap.contains_eq_isSome] using ht
  | _ => exact ⟨List.nodup_nil, fun u hu => absurd hu List.not_mem_nil⟩

/-- When the work ends no request stays open. -/
theorem requests_stop (w : Worker) (queue : List Task) (ticket : Option Ticket) (t : Token) :
    (w.stop queue ticket).1.requests.get? t = none := by
  have hdrains := drains_drain (w.cancelEach w.requests.keys).1 queue
  show ((w.cancelEach w.requests.keys).1.drain queue).1.requests.get? t = none
  rw [hdrains.requests, (settles_cancelEach w).requests]
  cases w.requests.get? t <;> rfl

/-- All that the worker knows of is on endpoints in `P`. -/
structure Within (P : String → Prop) (w : Worker) : Prop where
  store : w.store.Within P
  awaited (t : Token) (r : Request) (i : Identity) :
    w.requests.get? t = some r → r.awaits i = true → P i.endpoint

/-- A worker learns of an endpoint only by registering an identity on it. -/
theorem Within.turn {w : Worker} {turn : Turn} {s : Step} (h : w.Within P)
    (hregister : ∀ around i provider kind ticket,
      turn = .task around (.register i provider kind ticket) → P i.endpoint)
    (hs : w.turn turn = .ok s) :
    s.1.Within P ∧ ∀ t targets, .poll t targets ∈ s.2 →
      ∀ target ∈ targets, P target.identity.endpoint := by
  have hleaves := leaves_turn hs
  refine ⟨⟨?_, fun t r' i hr' hi => ?_⟩, fun t targets hpoll target htarget => ?_⟩
  · rw [hleaves.store]
    exact h.store.write hregister _
  · cases turn with
    | shutdown ticket rest =>
      obtain rfl := Except.ok.inj hs
      rw [requests_stop] at hr'
      cases hr'
    | deserted =>
      obtain rfl := Except.ok.inj hs
      rw [requests_stop] at hr'
      cases hr'
    | task around task =>
      rcases (sound_task hs).open_after hr' with ⟨r, hr, rfl, -⟩ | ⟨-, around', _, -, -, hopened⟩
      · exact h.awaited t r i hr ((Round.awaits_progress hr).1 hi).1
      · rw [hopened] at hi
        obtain ⟨target, htarget, rfl⟩ :=
          List.mem_map.1 (SortedSet.mem_ofList.1 (SortedSet.contains_iff_mem.1 hi))
        exact (h.store.scatter around'.retrievable _).2 target htarget
  · have hasked : Effect.poll t targets ∈ turn.asks w := by
      rw [← hleaves.asked]
      exact List.mem_filter.2 ⟨hpoll, rfl⟩
    unfold Turn.asks at hasked
    split at hasked
    · rename_i around u _ endpoint timeout
      split at hasked
      · simp at hasked
      · simp only [List.mem_cons, reduceCtorEq, Effect.poll.injEq, List.not_mem_nil, or_false,
          false_or] at hasked
        obtain ⟨-, rfl⟩ := hasked
        exact (h.store.scatter around.retrievable endpoint).2 target htarget
    · simp at hasked

end Worker

end ContextBroker
