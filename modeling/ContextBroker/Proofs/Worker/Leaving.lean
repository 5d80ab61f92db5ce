import ContextBroker.Proofs.Worker.Ruling

set_option autoImplicit false

/-! # What a turn leaves behind

Besides what it does to requests (`Worker.rules_turn`), a turn writes to the store, and when it
opens a request that waits for answers it sets a timer and polls providers. `Worker.leaves_turn`
says that this depends on the turn and on the store alone, and not on the open requests. -/

namespace ContextBroker

/-- The store that a task leaves behind. Of the tasks that may be turned down, only one that was
    accepted writes anything. -/
def Task.write (around : Surroundings) (accepted : Bool) (store : Store) : Task → Store
  | .register i provider kind _ => (store.register i provider kind).1
  | .unregister i _ => ((store.unregister i).toOption.map (·.1)).getD store
  | .setState i payload policy _ _ =>
    if accepted then (store.pushUnder i payload policy around.now).toOption.getD store else store
  | .pushState i sample _ | .report i sample | .respond i sample _ =>
    (store.push i sample).toOption.getD store
  | .getContext _ _ endpoint _ => (store.scatter around.retrievable endpoint).1
  | .unavailable .. | .timeout .. | .read .. | .metrics _ | .shutdown _ => store

namespace Turn

/-- The store that a turn leaves behind. -/
def write (turn : Turn) (accepted : Bool) (store : Store) : Store :=
  match turn with
  | task around x => x.write around accepted store
  | shutdown .. | deserted => store

/-- Whether the turn opens a request. -/
def opens : Turn → Bool
  | task _ (.getContext ..) => true
  | _ => false

/-- What the turn asks for: only a request with something to poll asks for anything. -/
def asks (turn : Turn) (w : Worker) : List Effect :=
  match turn with
  | task around (.getContext t _ endpoint timeout) =>
    match (w.store.scatter around.retrievable endpoint).2 with
    | [] => []
    | targets => [.setTimer (w.timers + 1) timeout t (w.generation + 1), .poll t targets]
  | _ => []

/-- What the step `s` of the worker `w` does besides settling requests. -/
structure Leaves (turn : Turn) (w : Worker) (s : Worker.Step) : Prop where
  store : s.1.store = turn.write (accepted s.2) w.store
  asked : asked s.2 = turn.asks w
  generation : s.1.generation = w.generation + if turn.opens then 1 else 0
  timers : s.1.timers = w.timers + if (turn.asks w).isEmpty then 0 else 1

end Turn

theorem isEmpty_ofList {α : Type} [Ord α] [Std.TransOrd α] [Std.LawfulEqOrd α] (l : List α) :
    (SortedSet.ofList l).isEmpty = l.isEmpty := by
  rw [Bool.eq_iff_iff, SortedSet.isEmpty_iff, List.isEmpty_iff, List.eq_nil_iff_forall_not_mem]
  simp only [SortedSet.mem_ofList]

namespace Worker

theorem Settles.asked {w : Worker} {s : Step} {d : Token → Request → Verdict}
    (h : Settles w s d) : asked s.2 = [] := by
  refine List.filter_eq_nil_iff.2 fun e he ha => ?_
  have hc := h.closing e he
  cases e <;> simp [Effect.isClosing, Effect.isAsking] at hc ha

theorem accepted_replyTo (w : Worker) (ticket : Ticket) (r : Except CallError Step) :
    accepted (w.replyTo ticket r).2 = r.isOk := by
  cases r with
  | ok s => simp [replyTo, accepted, Effect.isAcceptance, Except.isOk, Except.toBool]
  | error e => simp [replyTo, accepted, Effect.isAcceptance, Except.isOk, Except.toBool]

section

variable {w : Worker} {turn : Turn} {s : Step}

/-- A turn that asks for nothing, and settles all requests once it has written to the store. -/
theorem Settles.leaves {d : Token → Request → Verdict}
    (h : Settles { w with store := s.1.store } s d) (hasks : turn.asks w = [])
    (hopens : turn.opens = false)
    (hstore : s.1.store = turn.write (accepted s.2) w.store) : turn.Leaves w s where
  store := hstore
  asked := by rw [hasks, h.asked]
  generation := by
    rw [hopens, h.generation]
    rfl
  timers := by
    rw [hasks, h.timers]
    rfl

/-- A call that may be turned down writes only when it is not. -/
theorem leaves_replyTo (w : Worker) (ticket : Ticket) {r : Except CallError Step}
    {d : Step → Token → Request → Verdict} (hasks : turn.asks w = []) (hopens : turn.opens = false)
    (hok : ∀ s, r = .ok s → Settles { w with store := s.1.store } s (d s))
    (hwrite : ∀ s, r = .ok s → s.1.store = turn.write true w.store)
    (hkeep : ∀ e, r = .error e → turn.write false w.store = w.store) :
    turn.Leaves w (w.replyTo ticket r) := by
  have hreply : ∀ reply, asked [.reply ticket reply] = [] := fun _ => rfl
  have hacc := accepted_replyTo w ticket r
  cases r with
  | error e =>
    refine ⟨?_, by rw [hasks]; rfl, by rw [hopens]; rfl, by rw [hasks]; rfl⟩
    rw [hacc]
    exact (hkeep e rfl).symm
  | ok s =>
    have hs := hok s rfl
    refine ⟨?_, ?_, ?_, ?_⟩
    · rw [hacc]
      exact hwrite s rfl
    · simp only [replyTo, asked_append, hs.asked, hreply, hasks, List.append_nil]
    · rw [hopens]
      exact hs.generation
    · rw [hasks]
      exact hs.timers

/-- A task that only replies leaves everything as it was, but for the store. -/
theorem leaves_reply (hw : s.1 = { w with store := s.1.store }) (hs : Replies s.2)
    (hasks : turn.asks w = []) (hopens : turn.opens = false)
    (hstore : s.1.store = turn.write (accepted s.2) w.store) : turn.Leaves w s := by
  refine ⟨hstore, by rw [hasks, asked_replies hs], ?_, ?_⟩
  · rw [hw, hopens]
    rfl
  · rw [hw, hasks]
    rfl

end

theorem store_cache (w : Worker) (i : Identity) (sample : Sample) :
    (w.cache i sample).store = (w.store.push i sample).toOption.getD w.store := by
  unfold cache
  cases w.store.push i sample <;> rfl

theorem store_respond (w : Worker) (i : Identity) (sample : Sample) (t : Token) :
    (w.respond i sample t).1.store = (w.store.push i sample).toOption.getD w.store := by
  rw [← store_cache]
  simp only [respond]
  split
  · exact (settles_answer _ i true t).store
  · rfl

theorem store_unavailable (w : Worker) (i : Identity) (t : Token) (unreachable : Bool) :
    (w.unavailable i t unreachable).1.store = w.store := by
  unfold unavailable
  split
  · rfl
  · split
    · exact (settles_fail w t .endpointUnreachable).store
    · exact (settles_answer w i false t).store

theorem store_timeOut (w : Worker) (t : Token) (generation : Nat) :
    (w.timeOut t generation).1.store = w.store := by
  unfold timeOut
  cases w.requests.get? t with
  | none => rfl
  | some r =>
    by_cases hg : r.generation = generation
    · simp only [hg, if_true]
      exact (settles_fail _ t .timeout).store
    · simp only [hg, if_false]

theorem store_unregister {w : Worker} {i : Identity} {s : Step} (h : w.unregister i = .ok s) :
    s.1.store = ((w.store.unregister i).toOption.map (·.1)).getD w.store := by
  unfold unregister at h
  cases hu : w.store.unregister i with
  | error e => simp [hu] at h
  | ok x =>
    simp only [hu, Except.ok.injEq] at h
    rw [← h]
    exact (settles_answerEach { w with store := x.1 } i false).store

theorem store_pushState {w : Worker} {i : Identity} {sample : Sample} {s : Step}
    (h : w.pushState i sample = .ok s) :
    s.1.store = (w.store.push i sample).toOption.getD w.store := by
  unfold pushState at h
  cases hp : w.store.push i sample with
  | error e => simp [hp] at h
  | ok store =>
    simp only [hp, Except.ok.injEq] at h
    rw [← h]
    exact (settles_satisfy { w with store } i none).store

theorem store_setState {w : Worker} {now : Timestamp} {i : Identity} {payload : String}
    {policy : RefreshPolicy} {token : Option Token} {s : Step}
    (h : w.setState now i payload policy token = .ok s) :
    s.1.store = (w.store.pushUnder i payload policy now).toOption.getD w.store := by
  unfold setState at h
  split at h
  · simp at h
  · split at h
    · simp at h
    · cases hp : w.store.pushUnder i payload policy now with
      | error e => simp [hp] at h
      | ok store =>
        simp only [hp, Except.ok.injEq] at h
        rw [← h]
        exact (settles_satisfy { w with store } i token).store

/-- A call that was turned down for its own sake would not have written either. -/
theorem write_of_pushState_error {w : Worker} {i : Identity} {sample : Sample} {e : CallError}
    (h : w.pushState i sample = .error e) :
    (w.store.push i sample).toOption.getD w.store = w.store := by
  unfold pushState at h
  cases hp : w.store.push i sample with
  | error e => rfl
  | ok store => simp [hp] at h

theorem write_of_unregister_error {w : Worker} {i : Identity} {e : CallError}
    (h : w.unregister i = .error e) :
    ((w.store.unregister i).toOption.map (·.1)).getD w.store = w.store := by
  unfold unregister at h
  cases hu : w.store.unregister i with
  | error e => rfl
  | ok x => simp [hu] at h

/-! ## Tasks -/

theorem leaves_handle {w : Worker} {around : Surroundings} {task : Task} {s : Step}
    (h : w.handle around task = .ok s) (hno : task.request? = none) :
    (Turn.task around task).Leaves w s := by
  cases task with
  | getContext => simp [Task.request?] at hno
  | register i provider kind ticket =>
    obtain rfl := Except.ok.inj h
    exact leaves_reply rfl (replies_singleton _ _) rfl rfl rfl
  | read endpoint ticket =>
    obtain rfl := Except.ok.inj h
    exact leaves_reply rfl (replies_singleton _ _) rfl rfl rfl
  | metrics ticket =>
    obtain rfl := Except.ok.inj h
    exact leaves_reply rfl (replies_singleton _ _) rfl rfl rfl
  | shutdown ticket =>
    obtain rfl := Except.ok.inj h
    exact leaves_reply rfl (replies_map _ _) rfl rfl rfl
  | report i sample =>
    obtain rfl := Except.ok.inj h
    exact leaves_reply (cache_eq w i sample) (by simp [Replies]) rfl rfl (store_cache w i sample)
  | unregister i ticket =>
    obtain rfl := Except.ok.inj h
    exact leaves_replyTo w ticket rfl rfl (fun s hs => settles_unregister hs)
      (fun s hs => store_unregister hs) fun e he => write_of_unregister_error he
  | setState i payload policy token ticket =>
    obtain rfl := Except.ok.inj h
    exact leaves_replyTo w ticket rfl rfl (fun s hs => settles_setState hs)
      (fun s hs => store_setState hs) fun e he => rfl
  | pushState i sample ticket =>
    obtain rfl := Except.ok.inj h
    exact leaves_replyTo w ticket rfl rfl (fun s hs => settles_pushState hs)
      (fun s hs => store_pushState hs) fun e he => write_of_pushState_error he
  | respond i sample t =>
    obtain rfl := Except.ok.inj h
    exact (settles_respond w i sample t).leaves rfl rfl (store_respond w i sample t)
  | unavailable i t unreachable =>
    obtain rfl := Except.ok.inj h
    exact (settles_unavailable w i t unreachable).leaves rfl rfl
      (store_unavailable w i t unreachable)
  | timeout t generation =>
    obtain rfl := Except.ok.inj h
    exact (settles_timeOut w t generation).leaves rfl rfl (store_timeOut w t generation)

theorem leaves_getContext (w : Worker) (around : Surroundings) (t : Token) (requester : Requester)
    (endpoint : String) (timeout : Nat) :
    (Turn.task around (.getContext t requester endpoint timeout)).Leaves w
      (w.getContext around.retrievable t requester endpoint timeout) := by
  simp only [getContext, Request.isComplete, isEmpty_ofList, List.isEmpty_map]
  cases hp : (w.store.scatter around.retrievable endpoint).2 with
  | nil =>
    -- The request is closed as soon as it is in the table, and asks for nothing.
    have hs := settles_succeed (w := { w with
      store := (w.store.scatter around.retrievable endpoint).1
      generation := w.generation + 1
      requests := w.requests.insert t {
        requester, endpoint, generation := w.generation + 1
        awaited := .ofList (([] : List PollTarget).map (·.identity)) } })
      (SortedMap.get?_insert_self ..)
    simp only [List.isEmpty_nil, if_true]
    refine ⟨hs.store, ?_, hs.generation, ?_⟩
    · rw [hs.asked, Turn.asks, hp]
    · rw [hs.timers, Turn.asks, hp]
      rfl
  | cons target targets =>
    simp only [List.isEmpty_cons, Bool.false_eq_true, if_false]
    refine ⟨rfl, ?_, rfl, ?_⟩
    · rw [Turn.asks, hp]
      rfl
    · rw [Turn.asks, hp]
      rfl

theorem leaves_stop {turn : Turn} (w : Worker) (rest : List Task) (ticket : Option Ticket)
    (hasks : turn.asks w = []) (hopens : turn.opens = false)
    (hwrite : ∀ accepted, turn.write accepted w.store = w.store) :
    turn.Leaves w (w.stop rest ticket) := by
  have hc := settles_cancelEach w
  have hd := drains_drain (w.cancelEach w.requests.keys).1 rest
  have hreply := replies_map ticket.toList .stopped
  refine ⟨?_, ?_, ?_, ?_⟩
  · rw [hwrite]
    exact hd.store.trans hc.store
  · simp only [stop, andThen, asked_append, asked_replies hreply, hc.asked, hd.asked, hasks,
      List.append_nil]
  · rw [hopens]
    exact hd.generation.trans hc.generation
  · rw [hasks]
    exact hd.timers.trans hc.timers

/-- **What a turn leaves behind**, besides what it does to requests. -/
theorem leaves_turn {w : Worker} {turn : Turn} {s : Step} (h : w.turn turn = .ok s) :
    turn.Leaves w s := by
  have hcount : ∀ {s}, turn.Leaves w.countTask s → turn.Leaves w s := by
    intro s h
    have hasks : turn.asks w.countTask = turn.asks w := by
      cases turn with
      | task around task => cases task <;> rfl
      | shutdown => rfl
      | deserted => rfl
    obtain ⟨h₁, h₂, h₃, h₄⟩ := h
    rw [hasks] at h₂ h₄
    exact ⟨h₁, h₂, h₃, h₄⟩
  cases turn with
  | shutdown ticket rest =>
    obtain rfl := Except.ok.inj h
    exact hcount (leaves_stop _ rest ticket rfl rfl fun _ => rfl)
  | deserted =>
    obtain rfl := Except.ok.inj h
    exact leaves_stop _ [] none rfl rfl fun _ => rfl
  | task around task =>
    cases hr : task.request? with
    | none => exact hcount (leaves_handle h hr)
    | some x =>
      cases task with
      | getContext t requester endpoint timeout =>
        simp only [turn, handle] at h
        split at h
        · simp at h
        · obtain rfl := Except.ok.inj h
          exact hcount (leaves_getContext _ around t requester endpoint timeout)
      | _ => simp [Task.request?] at hr

end Worker

end ContextBroker
