import ContextBroker.Proofs.Worker.Gathering

set_option autoImplicit false

/-! # The table of open requests

Between two rounds the table of open requests is in order (`Worker.Orderly`): a request in it waits
for something and has a timer, what it waits for is bound on its endpoint, and no other request has
its generation or its timer. A round keeps this, because it does to a request in the table one of
only three things: it opens the request, resolves one identity for it, or closes it
(`Round.Sound.open_after`). What was polled for a request is accounted for once and only once
(`Request.Accounts`), as awaited, refreshed or unavailable. -/

namespace ContextBroker

/-! ## What was polled for a request -/

/-- What was polled is awaited, refreshed or unavailable, and never two of these. -/
structure Request.Accounts (r : Request) (polled : List Identity) : Prop where
  awaited_refreshed (i : Identity) : i ∈ r.awaited → ¬ i ∈ r.refreshed
  awaited_unavailable (i : Identity) : i ∈ r.awaited → ¬ i ∈ r.unavailable
  refreshed_unavailable (i : Identity) : i ∈ r.refreshed → ¬ i ∈ r.unavailable
  polled (i : Identity) : i ∈ r.awaited ∨ i ∈ r.refreshed ∨ i ∈ r.unavailable ↔ i ∈ polled

namespace Request.Accounts

variable {r : Request} {polled : List Identity} {i : Identity}

/-- What is resolved is no longer awaited, and nothing else moves. -/
theorem resolve (h : r.Accounts polled) (hi : i ∈ r.awaited) (available : Bool) :
    (r.resolve i available).Accounts polled := by
  have hrefreshed := h.awaited_refreshed i hi
  have hunavailable := h.awaited_unavailable i hi
  have hmem : ∀ j, j ∈ (r.resolve i available).awaited ↔ j ≠ i ∧ j ∈ r.awaited := fun j => by
    rw [Request.awaited_resolve, SortedSet.mem_erase]
  have hrefresh : ∀ j, j ∈ (r.resolve i available).refreshed ↔
      (available = true ∧ j = i) ∨ j ∈ r.refreshed := fun j => by
    rw [Request.refreshed_resolve]
    cases available <;> simp
  have hmiss : ∀ j, j ∈ (r.resolve i available).unavailable ↔
      (available = false ∧ j = i) ∨ j ∈ r.unavailable := fun j => by
    rw [Request.unavailable_resolve]
    cases available <;> simp
  refine ⟨fun j hj => ?_, fun j hj => ?_, fun j hj => ?_, fun j => ?_⟩
  · rw [hmem] at hj
    rw [hrefresh]
    rintro (⟨-, rfl⟩ | hj')
    · exact hj.1 rfl
    · exact h.awaited_refreshed j hj.2 hj'
  · rw [hmem] at hj
    rw [hmiss]
    rintro (⟨-, rfl⟩ | hj')
    · exact hj.1 rfl
    · exact h.awaited_unavailable j hj.2 hj'
  · rw [hrefresh] at hj
    rw [hmiss]
    rcases hj with ⟨ha, rfl⟩ | hj
    · rintro (⟨ha', -⟩ | hj')
      · simp [ha] at ha'
      · exact hunavailable hj'
    · rintro (⟨-, rfl⟩ | hj')
      · exact hrefreshed hj
      · exact h.refreshed_unavailable j hj hj'
  · rw [hmem, hrefresh, hmiss, ← h.polled]
    by_cases hj : j = i
    · subst hj
      cases available <;> simp [hi]
    · simp [hj]

theorem progress {x : Round} {t : Token} (h : r.Accounts polled) :
    (x.progress t r).Accounts polled := by
  unfold Round.progress
  split
  · split
    · rename_i i available _ hi
      exact h.resolve (SortedSet.contains_iff_mem.1 hi) available
    · exact h
  · exact h

/-- A request that was just opened awaits all that was polled for it. -/
theorem opened (requester : Requester) (endpoint : String) (timer : Option TimerId)
    (generation : Nat) (polled : List Identity) :
    Accounts { requester, endpoint, awaited := .ofList polled, timer, generation } polled where
  awaited_refreshed _ _ := SortedSet.not_mem_empty _
  awaited_unavailable _ _ := SortedSet.not_mem_empty _
  refreshed_unavailable _ h := absurd h (SortedSet.not_mem_empty _)
  polled i := by simp [SortedSet.mem_ofList]

end Request.Accounts

/-! ## What a round does to the table -/

namespace Round

variable {x : Round} {t : Token} {r : Request}

theorem generation_progress (x : Round) (t : Token) (r : Request) :
    (x.progress t r).generation = r.generation := by
  unfold progress
  split
  · split
    · exact Request.generation_resolve r _ _
    · rfl
  · rfl

theorem timer_progress (x : Round) (t : Token) (r : Request) :
    (x.progress t r).timer = r.timer := by
  unfold progress
  split
  · split
    · exact Request.timer_resolve r _ _
    · rfl
  · rfl

/-- A request that a round does not decide goes on waiting. -/
theorem waits_progress (hr : ∃ i, r.awaits i = true) (h : ∀ o, ¬ x.Decides t r o) :
    ∃ i, (x.progress t r).awaits i = true := by
  unfold progress
  cases ha : x.turn.resolution? t (accepted x.effects) with
  | none => exact hr
  | some a =>
    obtain ⟨i, available⟩ := a
    simp only
    split
    · rename_i hi
      by_contra hnone
      have hlast : (r.resolve i available).isComplete = true := by
        rw [Request.isComplete, SortedSet.isEmpty_iff]
        exact fun j hj => hnone ⟨j, SortedSet.contains_iff_mem.2 hj⟩
      exact h _ (.answered i available ha hi (isComplete_resolve.1 hlast))
    · exact hr

end Round

/-! ## Order in the table -/

/-- The table is in order. -/
structure Worker.Orderly (w : Worker) : Prop where
  filed : w.store.Filed
  /-- An open request waits for something. -/
  waits (t : Token) (r : Request) : w.requests.get? t = some r → ∃ i, r.awaits i = true
  timed (t : Token) (r : Request) : w.requests.get? t = some r →
    ∃ id, r.timer = some id ∧ id ≤ w.timers
  numbered (t : Token) (r : Request) : w.requests.get? t = some r → r.generation ≤ w.generation
  /-- What is awaited is bound, on the endpoint of the request. -/
  bound (t : Token) (r : Request) (i : Identity) : w.requests.get? t = some r →
    r.awaits i = true → i.endpoint = r.endpoint ∧ (w.store.get? i).isSome = true
  /-- A request is told from all others by its generation, and by its timer. -/
  apart (t u : Token) (r s : Request) : w.requests.get? t = some r →
    w.requests.get? u = some s → r.generation = s.generation ∨ r.timer = s.timer → t = u

namespace Worker.Orderly

theorem start (tokens : TokenAllocator) : Orderly { tokens } where
  filed := by
    intro endpoint i b hi
    simp [Store.bindings] at hi
  waits t r hr := by simp at hr
  timed t r hr := by simp at hr
  numbered t r hr := by simp at hr
  bound t r i hr := by simp at hr
  apart t u r s hr := by simp at hr

/-- The allocator plays no part. -/
theorem tokens {w : Worker} (h : w.Orderly) (tokens : TokenAllocator) :
    Orderly { w with tokens } :=
  ⟨h.filed, h.waits, h.timed, h.numbered, h.bound, h.apart⟩

theorem reject {w : Worker} (h : w.Orderly) (task : Task) : (w.reject task).1.Orderly := by
  obtain ⟨-, -, -, -, hrequests, hstore, hgeneration, htimers⟩ := drains_reject w task
  refine ⟨?_, ?_, ?_, ?_, ?_, ?_⟩
  · rw [hstore]
    exact h.filed
  · rw [hrequests]
    exact h.waits
  · rw [hrequests, htimers]
    exact h.timed
  · rw [hrequests, hgeneration]
    exact h.numbered
  · rw [hrequests, hstore]
    exact h.bound
  · rw [hrequests]
    exact h.apart

variable {x : Round} {t u : Token} {r s : Request}

/-- A new request is numbered after all that were open before. -/
theorem lt_opened (h : x.before.Orderly) (hr : x.before.requests.get? t = some r)
    (hs : s.generation = x.before.generation + 1) (ht : s.timer = some (x.before.timers + 1)) :
    ¬ ((x.progress t r).generation = s.generation ∨ (x.progress t r).timer = s.timer) := by
  obtain ⟨id, hid, hle⟩ := h.timed t r hr
  have := h.numbered t r hr
  rw [x.generation_progress, x.timer_progress, hs, ht, hid]
  rintro (he | he)
  · omega
  · obtain rfl : id = x.before.timers + 1 := Option.some.inj he
    exact Nat.not_succ_le_self _ hle

/-- A round keeps the table in order. -/
theorem round (h : x.before.Orderly) (hx : x.Sound) : x.after.Orderly := by
  have hgeneration : x.before.generation ≤ x.after.generation := by
    have : x.after.generation = _ := hx.leaves.generation
    omega
  have htimers : x.before.timers ≤ x.after.timers := by
    have : x.after.timers = _ := hx.leaves.timers
    omega
  -- Opening a request takes the next generation and the next timer.
  have hopens : ∀ {t r' around timeout}, x.after.requests.get? t = some r' →
      x.turn = .task around (.getContext t r'.requester r'.endpoint timeout) →
      (x.before.store.scatter around.retrievable r'.endpoint).2 ≠ [] →
      x.after.generation = x.before.generation + 1 ∧ x.after.timers = x.before.timers + 1 := by
    intro t r' around timeout _ hturn hp
    have hg := hx.leaves.generation
    have ht := hx.leaves.timers
    have hasks : (x.turn.asks x.before).isEmpty = false := by
      rw [hturn, Turn.asks]
      cases hs : (x.before.store.scatter around.retrievable r'.endpoint).2 with
      | nil => exact absurd hs hp
      | cons => rfl
    rw [hasks] at ht
    rw [hturn] at hg
    exact ⟨hg, ht⟩
  refine ⟨hx.filed_after h.filed, fun t r' hr => ?_, fun t r' hr => ?_, fun t r' hr => ?_,
    fun t r' i hr hi => ?_, fun t u r' s' hr hs he => ?_⟩
  · rcases hx.open_after hr with ⟨r, hb, rfl, hnot⟩ | ⟨-, around, timeout, -, hp, he⟩
    · exact Round.waits_progress (h.waits t r hb) hnot
    · rw [he]
      obtain ⟨target, rest, hp⟩ := List.exists_cons_of_ne_nil hp
      exact ⟨target.identity, SortedSet.contains_iff_mem.2 (SortedSet.mem_ofList.2 (by simp [hp]))⟩
  · rcases hx.open_after hr with ⟨r, hb, rfl, -⟩ | ⟨-, around, timeout, hturn, hp, he⟩
    · obtain ⟨id, hid, hle⟩ := h.timed t r hb
      exact ⟨id, (x.timer_progress t r).trans hid, Nat.le_trans hle htimers⟩
    · rw [(hopens hr hturn hp).2, he]
      exact ⟨_, rfl, Nat.le_refl _⟩
  · rcases hx.open_after hr with ⟨r, hb, rfl, -⟩ | ⟨-, around, timeout, hturn, hp, he⟩
    · rw [x.generation_progress]
      exact Nat.le_trans (h.numbered t r hb) hgeneration
    · have hg := (hopens hr hturn hp).1
      rw [he]
      exact Nat.le_of_eq hg.symm
  · rcases hx.open_after hr with ⟨r, hb, rfl, -⟩ | ⟨-, around, timeout, hturn, hp, he⟩
    · rw [Round.awaits_progress hb] at hi
      obtain ⟨hon, hbound⟩ := h.bound t r i hb hi.1
      refine ⟨hon.trans (x.endpoint_progress t r).symm, ?_⟩
      rcases hx.bound_after hbound with hb' | ⟨around, ticket, hturn, hacc⟩
      · exact hb'
      · -- Unregistering `i` resolves it, so it would not be awaited any more.
        refine absurd ((Round.resolves_iff hb).2 ⟨?_, hi.1⟩) (hi.2 false)
        simp [hturn, Turn.resolution?, Task.resolution?, hacc]
    · rw [he] at hi
      obtain ⟨hon, b, hb, -⟩ := (Store.mem_scatter h.filed).1
        (SortedSet.mem_ofList.1 (SortedSet.contains_iff_mem.1 hi))
      refine ⟨hon, ?_⟩
      have hs := hx.leaves.store
      simp only at hs
      rw [hs, hturn]
      simp only [Turn.write, Task.write, Store.get?_scatter, hb, Option.map_some,
        Option.isSome_some]
  · rcases hx.open_after hr with ⟨r, hb, rfl, -⟩ | ⟨-, around, timeout, hturn, -, hr'⟩
    · rcases hx.open_after hs with ⟨s, hb', rfl, -⟩ | ⟨-, around, timeout, hturn, -, hs'⟩
      · rw [x.generation_progress, x.generation_progress, x.timer_progress, x.timer_progress] at he
        exact h.apart t u r s hb hb' he
      · exact absurd he (h.lt_opened hb (by rw [hs']) (by rw [hs']))
    · rcases hx.open_after hs with ⟨s, hb', rfl, -⟩ | ⟨-, around', timeout', hturn', -, -⟩
      · refine absurd ?_ (h.lt_opened (s := r') hb' (by rw [hr']) (by rw [hr']))
        exact he.imp Eq.symm Eq.symm
      · -- A round opens one request at most.
        rw [hturn, Turn.task.injEq, Task.getContext.injEq] at hturn'
        exact hturn'.2.1

end Worker.Orderly

/-- Between its rounds a worker has its table in order. -/
theorem Worker.Run.orderly {w : Worker} {rounds : List Round} (h : w.Run rounds) :
    w.Orderly := by
  induction h with
  | start tokens => exact .start tokens
  | tokens _ tokens ih => exact ih.tokens tokens
  | round _ hx ih => exact ih.round hx

end ContextBroker
