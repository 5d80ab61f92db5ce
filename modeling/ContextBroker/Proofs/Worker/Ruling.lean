import ContextBroker.Proofs.Worker.Turn

set_option autoImplicit false

/-! # Turns keep to their rulings

Every turn that the worker takes does to requests and tokens what `Turn.ruling` says
(`Worker.rules_turn`). Handling a task settles the open requests once the store is written, or opens
one request more; ending the work settles all open requests and then turns down those that were
still in the queue. -/

namespace ContextBroker

namespace Worker

/-! ## Tasks that are no requests -/

/-- The reply of a task, if it has one, comes after what it does to requests. -/
def Replies (es : List Effect) : Prop := ∀ e ∈ es, ∃ ticket reply, e = .reply ticket reply

theorem replies_map (tickets : List Ticket) (reply : Reply) :
    Replies (tickets.map (.reply · reply)) := by
  intro e he
  obtain ⟨ticket, -, rfl⟩ := List.mem_map.1 he
  exact ⟨ticket, reply, rfl⟩

theorem replies_singleton (ticket : Ticket) (reply : Reply) : Replies [.reply ticket reply] :=
  replies_map [ticket] reply

theorem deliveries_replies {t : Token} {es : List Effect} (h : Replies es) :
    deliveries t es = [] :=
  deliveries_eq_nil fun e he => by
    obtain ⟨ticket, reply, rfl⟩ := h e he
    rfl

theorem asked_replies {es : List Effect} (h : Replies es) : asked es = [] := by
  refine List.filter_eq_nil_iff.2 fun e he => ?_
  obtain ⟨ticket, reply, rfl⟩ := h e he
  simp [Effect.isAsking]

theorem Settles.not_accepted {w : Worker} {s : Step} {d : Token → Request → Verdict}
    (h : Settles w s d) : accepted s.2 = false := by
  rw [accepted, List.any_eq_false]
  intro e he hacc
  have hc := h.closing e he
  cases e <;> simp [Effect.isClosing, Effect.isAcceptance] at hc hacc

/-- A step that settles all requests by the verdicts of a turn without arrivals follows the turn's
    rulings; replies that come after it change nothing. -/
theorem Settles.rules {turn : Turn} {w : Worker} {s : Step} (w₀ : Worker) (es replies : List Effect)
    (h : Settles w₀ (s.1, es) (turn.verdict (accepted s.2) s.1.store))
    (hw : w₀.requests = w.requests) (ht : w₀.tokens = w.tokens) (hs : s.2 = es ++ replies)
    (hr : Replies replies) (hno : ∀ t, turn.arrival? w t = none) : turn.Rules w s where
  requests t := by
    have := h.requests t
    simp only at this
    rw [this, Turn.ruling, hw]
    cases w.requests.get? t with
    | none => simp [hno]
    | some r => rfl
  delivers t := by
    have := h.delivers t
    simp only at this
    rw [hs, deliveries_append, deliveries_replies hr, List.append_nil, this, Turn.ruling, hw]
    cases w.requests.get? t with
    | none => simp [hno]
    | some r => simp [hs]
  live t := by
    have := h.live t
    simp only at this
    rw [this, Turn.ruling, hw, ht]
    cases w.requests.get? t with
    | none => simp [hno]
    | some r => simp
  last := by
    have := h.last
    simp only at this
    rw [this, ht]

theorem mem_awaiting {w : Worker} {i : Identity} {t : Token} :
    t ∈ w.awaiting i ↔ ∃ r, w.requests.get? t = some r ∧ r.awaits i = true := by
  rw [awaiting, SortedMap.mem_keys, SortedMap.get?_filter, Option.isSome_iff_exists]
  simp only [Option.filter_eq_some_iff]

/-- Resolving an identity for all requests that await it resolves it for all requests. -/
theorem settles_answerEach (w : Worker) (i : Identity) (available : Bool) :
    Settles w (w.answerEach (w.awaiting i) i available)
      fun _ r => r.answered w.store i available := by
  have hnodup : (w.awaiting i).Nodup := SortedMap.nodup_keys _
  refine (Settles.each (d := fun r => r.answered w.store i available) (fun w' t hw' => ?_)
    hnodup).congr fun t r hr => ?_
  · rw [← hw']
    exact settles_answer w' i available t
  · by_cases ha : r.awaits i = true
    · rw [if_pos (mem_awaiting.2 ⟨r, hr, ha⟩)]
    · rw [if_neg fun hm => ?_, Request.answered, if_neg ha]
      obtain ⟨r', hr', ha'⟩ := mem_awaiting.1 hm
      obtain rfl : r = r' := Option.some.inj (hr.symm.trans hr')
      exact ha ha'

/-- What a successful push resolves: its identity for the one request named, or for all. -/
theorem settles_satisfy (w : Worker) (i : Identity) (token : Option Token) :
    Settles w (w.satisfy i token) fun t r =>
      if token = none ∨ token = some t then r.answered w.store i true else .stays r := by
  cases token with
  | none => exact (settles_answerEach w i true).congr fun t r _ => by simp
  | some u =>
    refine (settles_answer w i true u).congr fun t r _ => ?_
    by_cases hu : t = u
    · simp [onlyAt, hu]
    · have hu' : u ≠ t := fun h => hu h.symm
      simp [onlyAt, hu, hu']

/-- Caching a sample changes nothing but the store. -/
theorem cache_eq (w : Worker) (i : Identity) (sample : Sample) :
    w.cache i sample = { w with store := (w.cache i sample).store } := by
  unfold cache
  split <;> rfl

section

variable {w : Worker} {turn : Turn} {s : Step}

/-- A turn without replies that settles all requests by its own verdicts. -/
theorem Settles.rules_quiet (h : Settles { w with store := s.1.store } s
    (turn.verdict false s.1.store)) (hno : ∀ t, turn.arrival? w t = none) : turn.Rules w s := by
  refine Settles.rules { w with store := s.1.store } s.2 [] ?_ rfl rfl
    (by simp) (by simp [Replies]) hno
  rw [h.not_accepted]
  exact h

/-- A call that may be turned down: it then does nothing, and otherwise settles all requests by the
    verdicts of its turn. -/
theorem rules_replyTo (w : Worker) (ticket : Ticket) {r : Except CallError Step}
    (hno : ∀ t, turn.arrival? w t = none)
    (herror : ∀ store t x, turn.verdict false store t x = .stays x)
    (hok : ∀ s, r = .ok s →
      Settles { w with store := s.1.store } s (turn.verdict true s.1.store)) :
    turn.Rules w (w.replyTo ticket r) := by
  cases r with
  | error e =>
    -- Nothing was done, and the reply says so: the verdict is that on a call turned down.
    refine Settles.rules _ [] _ ((Settles.nothing w).congr fun t x _ => ?_) rfl rfl rfl
      (replies_singleton _ _) hno
    simp [replyTo, accepted, Effect.isAcceptance, herror]
  | ok s =>
    refine Settles.rules _ s.2 _ ((hok s rfl).congr fun t x _ => ?_) rfl rfl rfl
      (replies_singleton _ _) hno
    simp [replyTo, accepted, Effect.isAcceptance]

/-- A task that only replies does nothing to requests. -/
theorem rules_reply (hw : s.1 = { w with store := s.1.store }) (hs : Replies s.2)
    (hno : ∀ t, turn.arrival? w t = none)
    (hstays : ∀ acc store t x, turn.verdict acc store t x = .stays x) : turn.Rules w s := by
  refine Settles.rules s.1 [] _ ((Settles.nothing s.1).congr fun t x _ => ?_) ?_ ?_
    rfl hs hno
  · exact (hstays ..).symm
  · rw [hw]
  · rw [hw]

end

/-! ## Handling a task -/

theorem settles_unregister {w : Worker} {i : Identity} {s : Step} (h : w.unregister i = .ok s) :
    Settles { w with store := s.1.store } s fun _ r => r.answered s.1.store i false := by
  unfold unregister at h
  split at h
  · simp at h
  · rename_i store _ _
    obtain rfl := Except.ok.inj h
    have hs : Settles { w with store } (answerEach { w with store } (w.awaiting i) i false)
        fun _ r => r.answered store i false := settles_answerEach { w with store } i false
    rw [hs.store]
    exact hs

theorem settles_setState {w : Worker} {now : Timestamp} {i : Identity} {payload : String}
    {policy : RefreshPolicy} {token : Option Token} {s : Step}
    (h : w.setState now i payload policy token = .ok s) :
    Settles { w with store := s.1.store } s fun t r =>
      if token = none ∨ token = some t then r.answered s.1.store i true else .stays r := by
  unfold setState at h
  split at h
  · simp at h
  · split at h
    · simp at h
    · split at h
      · simp at h
      · rename_i store _
        obtain rfl := Except.ok.inj h
        have hs := settles_satisfy { w with store } i token
        rw [hs.store]
        exact hs

theorem settles_pushState {w : Worker} {i : Identity} {sample : Sample} {s : Step}
    (h : w.pushState i sample = .ok s) :
    Settles { w with store := s.1.store } s fun _ r => r.answered s.1.store i true := by
  unfold pushState at h
  split at h
  · simp at h
  · rename_i store _
    obtain rfl := Except.ok.inj h
    have hs := settles_satisfy { w with store } i none
    rw [hs.store]
    exact hs.congr fun t r _ => by simp

theorem settles_respond (w : Worker) (i : Identity) (sample : Sample) (t : Token) :
    Settles { w with store := (w.respond i sample t).1.store } (w.respond i sample t)
      (onlyAt t fun r => r.answered (w.respond i sample t).1.store i true) := by
  simp only [respond]
  rw [cache_eq]
  split
  · have hs := settles_answer { w with store := (w.cache i sample).store } i true t
    rw [hs.store]
    exact hs
  · rename_i hc
    refine ((Settles.nothing (countStale _)).recount w.counters).congr fun u x hx => ?_
    have hut : u ≠ t := by
      rintro rfl
      exact hc (by rw [SortedMap.contains_eq_isSome, Option.isSome_iff_exists]; exact ⟨x, hx⟩)
    simp [onlyAt, hut]

theorem settles_unavailable (w : Worker) (i : Identity) (t : Token) (unreachable : Bool) :
    Settles { w with store := (w.unavailable i t unreachable).1.store }
      (w.unavailable i t unreachable)
      (onlyAt t fun r => if unreachable then .ends (.failure .endpointUnreachable)
        else r.answered (w.unavailable i t unreachable).1.store i false) := by
  unfold unavailable
  split
  · rename_i hc
    refine ((Settles.nothing w.countStale).recount w.counters).congr fun u x hx => ?_
    have hut : u ≠ t := by
      rintro rfl
      rw [Bool.not_eq_true', SortedMap.contains_eq_isSome, Option.isSome_eq_false_iff,
        Option.isNone_iff_eq_none] at hc
      exact absurd (hc.symm.trans hx) (by simp)
    simp [onlyAt, hut]
  · split
    · have hs := settles_fail w t .endpointUnreachable
      rw [hs.store]
      exact hs
    · have hs := settles_answer w i false t
      rw [hs.store]
      exact hs

theorem settles_timeOut (w : Worker) (t : Token) (generation : Nat) :
    Settles { w with store := (w.timeOut t generation).1.store } (w.timeOut t generation)
      (onlyAt t fun r => if r.generation = generation then .ends (.failure .timeout)
        else .stays r) := by
  unfold timeOut
  cases hr : w.requests.get? t with
  | none =>
    refine (Settles.nothing w).congr fun u x hx => ?_
    have hut : u ≠ t := fun h => by simp [h, hr] at hx
    simp [onlyAt, hut]
  | some r =>
    by_cases hg : r.generation = generation
    · have hs := settles_fail
        { w with counters := { w.counters with timeouts := w.counters.timeouts + 1 } } t .timeout
      simp only [hg, if_true]
      rw [hs.store]
      refine (hs.recount w.counters).congr_at hr ?_ fun u x hu => ?_
      · simp [onlyAt, hg]
      · simp [onlyAt, hu]
    · simp only [hg, if_false]
      refine (Settles.nothing w).congr_at hr ?_ fun u x hu => ?_
      · simp [onlyAt, hg]
      · simp [onlyAt, hu]

/-- Handling a task that is no request follows the rulings of the turn. -/
theorem rules_handle {w : Worker} {around : Surroundings} {task : Task} {s : Step}
    (h : w.handle around task = .ok s) (hno : task.request? = none) :
    (Turn.task around task).Rules w s := by
  have harrival : ∀ t, (Turn.task around task).arrival? w t = none := by
    intro t
    cases task <;> simp [Task.request?] at hno <;> rfl
  cases task with
  | getContext => simp [Task.request?] at hno
  | register i provider kind ticket =>
    obtain rfl := Except.ok.inj h
    exact rules_reply rfl (replies_singleton _ _) harrival fun _ _ _ _ => rfl
  | read endpoint ticket =>
    obtain rfl := Except.ok.inj h
    exact rules_reply rfl (replies_singleton _ _) harrival fun _ _ _ _ => rfl
  | metrics ticket =>
    obtain rfl := Except.ok.inj h
    exact rules_reply rfl (replies_singleton _ _) harrival fun _ _ _ _ => rfl
  | shutdown ticket =>
    obtain rfl := Except.ok.inj h
    exact rules_reply rfl (replies_map _ _) harrival fun _ _ _ _ => rfl
  | report i sample =>
    obtain rfl := Except.ok.inj h
    exact rules_reply (cache_eq w i sample) (by simp [Replies]) harrival fun _ _ _ _ => rfl
  | unregister i ticket =>
    obtain rfl := Except.ok.inj h
    refine rules_replyTo w ticket harrival (fun _ _ _ => rfl) fun s hs => ?_
    exact (settles_unregister hs).congr fun t r _ => rfl
  | setState i payload policy token ticket =>
    obtain rfl := Except.ok.inj h
    refine rules_replyTo w ticket harrival (fun store t x => ?_) fun s hs => ?_
    · simp [Turn.verdict, Turn.failure?, Turn.resolution?, Task.failure?, Task.resolution?]
    · refine (settles_setState hs).congr fun t r _ => ?_
      simp only [Turn.verdict, Turn.failure?, Turn.resolution?, Task.failure?, Task.resolution?,
        true_and]
      split <;> rfl
  | pushState i sample ticket =>
    obtain rfl := Except.ok.inj h
    refine rules_replyTo w ticket harrival (fun _ _ _ => rfl) fun s hs => ?_
    exact (settles_pushState hs).congr fun t r _ => rfl
  | respond i sample u =>
    obtain rfl := Except.ok.inj h
    refine ((settles_respond w i sample u).congr fun t r _ => ?_).rules_quiet harrival
    by_cases ht : t = u
    · simp [ht, onlyAt, Turn.verdict, Turn.failure?, Turn.resolution?, Task.failure?,
        Task.resolution?]
    · have hu : u ≠ t := fun h => ht h.symm
      simp [ht, hu, onlyAt, Turn.verdict, Turn.failure?, Turn.resolution?, Task.failure?,
        Task.resolution?]
  | unavailable i u unreachable =>
    obtain rfl := Except.ok.inj h
    refine ((settles_unavailable w i u unreachable).congr fun t r _ => ?_).rules_quiet harrival
    by_cases ht : t = u
    · cases unreachable <;> simp [ht, onlyAt, Turn.verdict, Turn.failure?, Turn.resolution?,
        Task.failure?, Task.resolution?]
    · have hu : u ≠ t := fun h => ht h.symm
      cases unreachable <;> simp [ht, hu, onlyAt, Turn.verdict, Turn.failure?, Turn.resolution?,
        Task.failure?, Task.resolution?]
  | timeout u generation =>
    obtain rfl := Except.ok.inj h
    refine ((settles_timeOut w u generation).congr fun t r _ => ?_).rules_quiet harrival
    by_cases ht : t = u
    · subst ht
      simp only [onlyAt, Turn.verdict, Turn.failure?, Turn.resolution?, Task.failure?,
        Task.resolution?, true_and, if_true]
      by_cases hg : r.generation = generation
      · simp [hg]
      · have hg' : generation ≠ r.generation := fun h => hg h.symm
        simp [hg, hg']
    · have hu : u ≠ t := fun h => ht h.symm
      simp [ht, hu, onlyAt, Turn.verdict, Turn.failure?, Turn.resolution?, Task.failure?,
        Task.resolution?]

/-! ## Opening a request -/

/-- A request under a token of its own leaves all others alone. -/
theorem rules_getContext {w : Worker} {around : Surroundings} {t : Token} (requester : Requester)
    (endpoint : String) (timeout : Nat) (ht : w.requests.get? t = none) :
    (Turn.task around (.getContext t requester endpoint timeout)).Rules w
      (w.getContext around.retrievable t requester endpoint timeout) := by
  have hruling : ∀ s u, (Turn.task around (.getContext t requester endpoint timeout)).ruling w s u =
      if u = t then some (requester, w.admitted around.retrievable requester endpoint)
      else (w.requests.get? u).map fun r => (r.requester, .stays r) := by
    intro s u
    by_cases hu : u = t
    · simp [Turn.ruling, Turn.arrival?, hu, ht]
    · have hu' : t ≠ u := fun h => hu h.symm
      cases h : w.requests.get? u <;> simp [Turn.ruling, Turn.arrival?, h, hu, hu', Turn.verdict,
        Turn.failure?, Turn.resolution?, Task.failure?, Task.resolution?]
  simp only [getContext]
  split
  · rename_i hc
    -- Nothing is polled: the request is closed as soon as it is in the table.
    have hs := settles_succeed (w := { w with
      store := (w.store.scatter around.retrievable endpoint).1
      generation := w.generation + 1
      requests := w.requests.insert t {
        requester, endpoint, generation := w.generation + 1
        awaited := .ofList ((w.store.scatter around.retrievable endpoint).2.map (·.identity)) } })
      (SortedMap.get?_insert_self ..)
    have hadm : w.admitted around.retrievable requester endpoint = .ends (.context endpoint
        ((w.store.scatter around.retrievable endpoint).1.aggregate endpoint ∅ ∅)) := by
      simp only [admitted, hc, if_true]
    refine ⟨?_, ?_, ?_, hs.last⟩
    · intro u
      rw [hs.requests, hruling, hadm]
      by_cases hu : u = t
      · simp [hu, onlyAt]
      · cases h : w.requests.get? u <;> simp [hu, onlyAt, SortedMap.get?_insert_of_ne, h]
    · intro u
      rw [hs.delivers, hruling, hadm]
      by_cases hu : u = t
      · simp [hu, onlyAt]
      · cases h : w.requests.get? u <;> simp [hu, onlyAt, SortedMap.get?_insert_of_ne, h]
    · intro u
      rw [hs.live, hruling, hadm]
      by_cases hu : u = t
      · simp [hu, onlyAt]
      · cases h : w.requests.get? u <;> simp [hu, onlyAt, SortedMap.get?_insert_of_ne, h]
  · rename_i hc
    refine ⟨?_, ?_, ?_, rfl⟩
    · intro u
      rw [hruling, SortedMap.get?_insert]
      by_cases hu : u = t
      · simp [hu, admitted, hc]
      · cases h : w.requests.get? u <;> simp [hu]
    · intro u
      rw [hruling]
      by_cases hu : u = t
      · simp [hu, admitted, hc, deliveries, Effect.delivery?]
      · cases h : w.requests.get? u <;> simp [hu, deliveries, Effect.delivery?]
    · intro u
      rw [hruling]
      by_cases hu : u = t
      · simp [hu, admitted, hc]
      · cases h : w.requests.get? u <;> simp [hu]

/-! ## The end of the work -/

theorem settles_cancelEach (w : Worker) :
    Settles w (w.cancelEach w.requests.keys) fun _ _ => .ends (.failure .cancelled) := by
  refine (Settles.each (fun w' t _ => settles_fail w' t .cancelled) w.requests.nodup_keys).congr
    fun t r hr => ?_
  rw [if_pos (SortedMap.mem_keys.2 (by simp [hr]))]

theorem drain_append_singleton (w : Worker) (queue : List Task) (task : Task) :
    w.drain (queue ++ [task]) = andThen (w.drain queue) (reject · task) := by
  simp [drain]

/-- Turning down what is left of the queue cancels the requests in it, and changes neither the table
    of open requests nor the store. -/
structure Drains (w : Worker) (s : Step) (rest : List (Token × Requester)) : Prop where
  delivers (t : Token) :
    deliveries t s.2 =
      (rest.filter (·.1 = t)).map fun x => (x.2, .failure .cancelled)
  live (t : Token) : t ∈ s.1.tokens.live ↔ t ∈ w.tokens.live ∧ t ∉ rest.map (·.1)
  asked : asked s.2 = []
  last : s.1.tokens.last = w.tokens.last
  requests : s.1.requests = w.requests
  store : s.1.store = w.store
  generation : s.1.generation = w.generation
  timers : s.1.timers = w.timers

theorem drains_reject (w : Worker) (task : Task) :
    Drains w (w.reject task) task.request?.toList := by
  cases task with
  | getContext t requester endpoint timeout =>
    refine ⟨?_, ?_, rfl, rfl, rfl, rfl, rfl, rfl⟩
    · intro u
      by_cases hu : t = u <;>
        simp [reject, deliveries, Effect.delivery?, Task.request?, hu]
    · intro u
      simp [reject, TokenAllocator.release, Task.request?, and_comm]
  | shutdown ticket =>
    have hreply : Replies (w.reject (.shutdown ticket)).2 := replies_map _ _
    refine ⟨?_, ?_, asked_replies hreply, rfl, rfl, rfl, rfl, rfl⟩
    · intro u
      rw [deliveries_replies hreply]
      rfl
    · intro u
      simp [reject, Task.request?]
  | _ =>
    exact ⟨fun u => rfl, fun u => by simp [reject, Task.request?], rfl, rfl, rfl, rfl, rfl, rfl⟩

theorem drains_drain (w : Worker) (queue : List Task) :
    Drains w (w.drain queue) (requested queue) := by
  induction queue using List.reverseRecOn with
  | nil => exact ⟨fun _ => rfl, fun _ => by simp [drain], rfl, rfl, rfl, rfl, rfl, rfl⟩
  | append_singleton queue task ih =>
    have h := drains_reject (w.drain queue).1 task
    rw [drain_append_singleton, requested_append, requested_cons, requested_nil, List.append_nil]
    refine ⟨?_, ?_, ?_, h.last.trans ih.last, h.requests.trans ih.requests, h.store.trans ih.store,
      h.generation.trans ih.generation, h.timers.trans ih.timers⟩
    · intro t
      simp only [andThen, deliveries_append, ih.delivers, h.delivers, List.filter_append,
        List.map_append]
    · intro t
      simp only [andThen, h.live, ih.live, List.map_append, List.mem_append, not_or, and_assoc]
    · simp only [andThen, asked_append, h.asked, ih.asked, List.append_nil]

/-- Among entries with different keys those with one key are the one that look-up finds. -/
theorem filter_eq_lookup {l : List (Token × Requester)} (hl : (l.map (·.1)).Nodup) (t : Token) :
    l.filter (·.1 = t) = ((l.lookup t).map fun q => (t, q)).toList := by
  induction l with
  | nil => rfl
  | cons x l ih =>
    obtain ⟨u, q⟩ := x
    obtain ⟨hu, hl⟩ := List.nodup_cons.1 hl
    by_cases h : t = u
    · subst h
      have hnil : l.filter (·.1 = t) = [] := by
        refine List.filter_eq_nil_iff.2 fun x hx he => hu ?_
        exact List.mem_map.2 ⟨x, hx, by simpa using he⟩
      simp [hnil]
    · have h' : u ≠ t := fun e => h e.symm
      have hb : (t == u) = false := by simpa using h
      simp only [List.lookup_cons, hb, List.filter_cons, h', decide_false, Bool.false_eq_true,
        if_false]
      exact ih hl

theorem lookup_isSome {l : List (Token × Requester)} {t : Token} :
    (l.lookup t).isSome ↔ t ∈ l.map (·.1) := by
  induction l with
  | nil => simp
  | cons x l ih =>
    obtain ⟨u, q⟩ := x
    by_cases h : t = u
    · subst h
      simp
    · have hb : (t == u) = false := by simpa using h
      simp only [List.lookup_cons, hb, ih, List.map_cons, List.mem_cons, h, false_or]

/-- Ending the work cancels the open requests and those in the queue, each once. -/
theorem rules_stop {turn : Turn} {w : Worker} {rest : List Task} (ticket : Option Ticket)
    (hnodup : ((requested rest).map (·.1)).Nodup)
    (hapart : ∀ t ∈ (requested rest).map (·.1), w.requests.get? t = none)
    (hfails : ∀ t generation, turn.failure? t generation = some .cancelled)
    (harrives : ∀ t, turn.arrival? w t =
      ((requested rest).lookup t).map fun q => (q, .ends (.failure .cancelled))) :
    turn.Rules w (w.stop rest ticket) := by
  have hc := settles_cancelEach w
  have hd := drains_drain (w.cancelEach w.requests.keys).1 rest
  have hreply := replies_map ticket.toList .stopped
  have hopen : ∀ s t r, w.requests.get? t = some r →
      turn.ruling w s t = some (r.requester, .ends (.failure .cancelled)) := by
    intro s t r h
    simp [Turn.ruling, h, Turn.verdict, hfails]
  have hfresh : ∀ s t, w.requests.get? t = none → turn.ruling w s t =
      ((requested rest).lookup t).map fun q => (q, .ends (.failure .cancelled)) := by
    intro s t h
    simp [Turn.ruling, h, harrives]
  -- A token is open or in the queue, never both: the two sources of cancellations do not meet.
  have hlookup : ∀ t r, w.requests.get? t = some r → (requested rest).lookup t = none := by
    intro t r hr
    rw [← Option.not_isSome_iff_eq_none, lookup_isSome]
    intro hm
    simp [hapart t hm] at hr
  refine ⟨?_, ?_, ?_, hd.last.trans hc.last⟩
  · intro t
    simp only [stop, andThen, hd.requests, hc.requests]
    cases h : w.requests.get? t with
    | none =>
      rw [hfresh _ t h]
      cases (requested rest).lookup t <;> simp
    | some r => simp [hopen _ t r h]
  · intro t
    simp only [stop, andThen, deliveries_append, deliveries_replies hreply, List.append_nil,
      hd.delivers, hc.delivers, filter_eq_lookup hnodup]
    cases h : w.requests.get? t with
    | none =>
      rw [hfresh _ t h]
      cases (requested rest).lookup t <;> simp
    | some r => simp [hopen _ t r h, hlookup t r h]
  · intro t
    simp only [stop, andThen, hd.live, hc.live, ← lookup_isSome]
    cases h : w.requests.get? t with
    | none =>
      rw [hfresh _ t h]
      cases (requested rest).lookup t <;> simp
    | some r => simp [hopen _ t r h]

/-! ## All turns -/

/-- What was counted before plays no part. -/
theorem ruling_countTask (turn : Turn) (w : Worker) (s : Step) (t : Token) :
    turn.ruling w.countTask s t = turn.ruling w s t := by
  have harrival : turn.arrival? w.countTask t = turn.arrival? w t := by
    cases turn with
    | task around task => cases task <;> rfl
    | shutdown => rfl
    | deserted => rfl
  unfold Turn.ruling
  rw [harrival]
  rfl

theorem rules_of_countTask {turn : Turn} {w : Worker} {s : Step} (h : turn.Rules w.countTask s) :
    turn.Rules w s := by
  obtain ⟨h₁, h₂, h₃, h₄⟩ := h
  simp only [ruling_countTask] at h₁ h₂ h₃
  exact ⟨h₁, h₂, h₃, h₄⟩

/-- **What a turn does to requests.** Every open request and every one that arrives meets the
    verdict that the turn has for it; its outcome is delivered and its token set free exactly when
    the verdict ends it, and no other request is touched. -/
theorem rules_turn {w : Worker} {turn : Turn} {s : Step} (h : w.turn turn = .ok s)
    (hd : turn.Distinct w) : turn.Rules w s := by
  cases turn with
  | shutdown ticket rest =>
    obtain rfl := Except.ok.inj h
    exact rules_of_countTask
      (rules_stop ticket hd.nodup hd.apart (fun _ _ => rfl) fun _ => rfl)
  | deserted =>
    obtain rfl := Except.ok.inj h
    exact rules_stop none (by simp) (by simp) (fun _ _ => rfl) fun _ => rfl
  | task around task =>
    cases hr : task.request? with
    | none => exact rules_of_countTask (rules_handle h hr)
    | some x =>
      cases task with
      | getContext t requester endpoint timeout =>
        have ht : w.countTask.requests.get? t = none :=
          hd.apart t (by simp [Turn.tokens, Turn.requests, requested, Task.request?])
        have hc : w.countTask.requests.contains t = false := by
          rw [SortedMap.contains_eq_isSome, ht]
          rfl
        simp only [turn, handle, hc, Bool.false_eq_true, if_false] at h
        obtain rfl := Except.ok.inj h
        exact rules_of_countTask (rules_getContext requester endpoint timeout ht)
      | _ => simp [Task.request?] at hr

end Worker

end ContextBroker
