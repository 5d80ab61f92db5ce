import ContextBroker.Proofs.Worker.Table
import ContextBroker.Worker.Load

set_option autoImplicit false

/-! # Timers that a round sets and cancels

A request keeps its timer for as long as it is open, and the timer is cancelled in the round that
closes the request, whatever closes it (`Round.Sound.cancels_iff`). A round that opens a request
sets the timer that it gives the request (`Round.Sound.sets_iff`), and no round does both. -/

namespace ContextBroker

namespace Worker

/-- The step `s` of the worker `w` cancels the timers of the requests that it closes, and no
    others. It opens no request and gives none another timer. -/
structure Disarms (w : Worker) (s : Step) : Prop where
  open_before (t : Token) (r' : Request) : s.1.requests.get? t = some r' →
    ∃ r, w.requests.get? t = some r ∧ r.timer = r'.timer
  cancels (id : TimerId) : .cancelTimer id ∈ s.2 ↔
    ∃ t r, w.requests.get? t = some r ∧ r.timer = some id ∧ s.1.requests.get? t = none

namespace Disarms

variable {w : Worker} {s : Step}

/-- A step that leaves the open requests alone. -/
theorem of_requests (hr : s.1.requests = w.requests) (hs : ∀ id, ¬ .cancelTimer id ∈ s.2) :
    Disarms w s where
  open_before t r' h := ⟨r', hr ▸ h, rfl⟩
  cancels id := by
    refine ⟨fun h => absurd h (hs id), ?_⟩
    rintro ⟨t, r, ho, -, hc⟩
    rw [hr, ho] at hc
    cases hc

theorem not_cancels {es : List Effect} (h : Replies es) (id : TimerId) :
    ¬ .cancelTimer id ∈ es := by
  intro hid
  obtain ⟨ticket, reply, he⟩ := h _ hid
  cases he

/-- A step that only replies. -/
theorem of_replies (hr : s.1.requests = w.requests) (hs : Replies s.2) : Disarms w s :=
  of_requests hr (not_cancels hs)

theorem nothing (w : Worker) : Disarms w (w, []) :=
  of_requests rfl fun _ => List.not_mem_nil

/-- Only the open requests matter. -/
theorem of_before {w₀ : Worker} (h : Disarms w₀ s) (hw : w₀.requests = w.requests) :
    Disarms w s := by
  obtain ⟨ho, hc⟩ := h
  rw [hw] at ho hc
  exact ⟨ho, hc⟩

/-- What one step leaves open the next one may close. -/
theorem andThen (h : Disarms w s) (next : Worker → Step) (h' : Disarms s.1 (next s.1)) :
    Disarms w (Worker.andThen s next) where
  open_before t r'' hr'' := by
    obtain ⟨r', hr', hid'⟩ := h'.open_before t r'' hr''
    obtain ⟨r, hr, hid⟩ := h.open_before t r' hr'
    exact ⟨r, hr, hid.trans hid'⟩
  cancels id := by
    have hmem : .cancelTimer id ∈ (Worker.andThen s next).2 ↔
        .cancelTimer id ∈ s.2 ∨ .cancelTimer id ∈ (next s.1).2 := List.mem_append
    rw [hmem, h.cancels, h'.cancels]
    constructor
    · rintro (⟨t, r, hr, hid, hnone⟩ | ⟨t, r', hr', hid, hnone⟩)
      · refine ⟨t, r, hr, hid, ?_⟩
        -- What is closed stays closed.
        by_contra hopen
        obtain ⟨r'', hr''⟩ := Option.ne_none_iff_exists'.1 hopen
        obtain ⟨r', hr', -⟩ := h'.open_before t r'' hr''
        rw [hnone] at hr'
        cases hr'
      · obtain ⟨r, hr, hid'⟩ := h.open_before t r' hr'
        exact ⟨t, r, hr, hid'.trans hid, hnone⟩
    · rintro ⟨t, r, hr, hid, hnone⟩
      cases hm : s.1.requests.get? t with
      | none => exact .inl ⟨t, r, hr, hid, hm⟩
      | some r' =>
        obtain ⟨r₀, hr₀, hid'⟩ := h.open_before t r' hm
        obtain rfl : r = r₀ := Option.some.inj (hr.symm.trans hr₀)
        exact .inr ⟨t, r', hm, hid'.symm.trans hid, hnone⟩

theorem foldl {α : Type} {step : Worker → α → Step} (hstep : ∀ w a, Disarms w (step w a))
    (as : List α) (h : Disarms w s) :
    Disarms w (as.foldl (fun s a => Worker.andThen s (step · a)) s) := by
  induction as generalizing s with
  | nil => exact h
  | cons a as ih => exact ih (h.andThen _ (hstep _ a))

end Disarms

/-! ## Steps that settle requests -/

/-- Closing a request cancels its timer. -/
theorem disarms_close {w : Worker} {t : Token} {r : Request} (hr : w.requests.get? t = some r) :
    Disarms w (w.close t r) where
  open_before u r' h := by
    simp only [close, SortedMap.get?_erase] at h
    split at h
    · cases h
    · exact ⟨r', h, rfl⟩
  cancels id := by
    simp only [close, List.mem_map, Effect.cancelTimer.injEq, exists_eq_right, Option.mem_toList,
      SortedMap.get?_erase]
    constructor
    · intro hid
      exact ⟨t, r, hr, hid, by simp⟩
    · rintro ⟨u, r', hr', hid, hnone⟩
      by_cases hu : u = t
      · subst hu
        obtain rfl : r = r' := Option.some.inj (hr.symm.trans hr')
        exact hid
      · rw [if_neg hu, hr'] at hnone
        cases hnone

section

variable (w : Worker) (t : Token)

theorem disarms_fail (error : RequestError) : Disarms w (w.fail t error) := by
  unfold fail
  split
  · exact .nothing w
  · rename_i r hr
    exact (disarms_close hr).andThen _ (.of_requests rfl (by simp))

theorem disarms_succeed : Disarms w (w.succeed t) := by
  unfold succeed
  split
  · exact .nothing w
  · rename_i r hr
    exact (disarms_close hr).andThen _ (.of_requests rfl (by simp))

/-- Replacing a request by one with the same timer. -/
theorem disarms_insert {w : Worker} {t : Token} {r : Request} (r' : Request)
    (hr : w.requests.get? t = some r) (ht : r'.timer = r.timer) :
    Disarms w ({ w with requests := w.requests.insert t r' }, []) where
  open_before u x hx := by
    simp only [SortedMap.get?_insert] at hx
    split at hx
    · rename_i hu
      obtain rfl := Option.some.inj hx
      exact ⟨r, hu ▸ hr, ht.symm⟩
    · exact ⟨x, hx, rfl⟩
  cancels id := by
    simp only [List.not_mem_nil, false_iff, SortedMap.get?_insert]
    rintro ⟨u, x, hx, -, hnone⟩
    split at hnone
    · cases hnone
    · rw [hx] at hnone
      cases hnone

theorem disarms_answer (i : Identity) (available : Bool) : Disarms w (w.answer i available t) := by
  unfold answer
  split
  · exact .nothing w
  · rename_i r hr
    split
    · have hi := disarms_insert (r.resolve i available) hr (r.timer_resolve i available)
      simp only
      split
      · exact hi.andThen (fun w => w.succeed t) (disarms_succeed _ t)
      · exact hi
    · exact .nothing w

theorem disarms_answerEach (tokens : List Token) (i : Identity) (available : Bool) :
    Disarms w (w.answerEach tokens i available) :=
  .foldl (fun w t => disarms_answer w t i available) tokens (.nothing w)

theorem disarms_satisfy (i : Identity) (token : Option Token) :
    Disarms w (w.satisfy i token) := by
  unfold satisfy
  split
  · exact disarms_answer w _ i true
  · exact disarms_answerEach w _ i true

end

/-! ## Turns -/

theorem disarms_replyTo (w : Worker) (ticket : Ticket) {r : Except CallError Step}
    (h : ∀ s, r = .ok s → Disarms w s) : Disarms w (w.replyTo ticket r) := by
  have hreply : ∀ (w : Worker) result, Disarms w (w, [.reply ticket (.done result)]) :=
    fun w result => .of_replies rfl (replies_singleton ticket _)
  cases r with
  | ok s =>
    exact (h s rfl).andThen (fun w => (w, [.reply ticket (.done (.ok ()))])) (hreply s.1 (.ok ()))
  | error e => exact hreply w (.error e)

theorem disarms_handle {w : Worker} {around : Surroundings} {task : Task} {s : Step}
    (h : w.handle around task = .ok s) (hno : task.request? = none) : Disarms w s := by
  cases task with
  | getContext => simp [Task.request?] at hno
  | register i provider kind ticket =>
    obtain rfl := Except.ok.inj h
    exact .of_replies rfl (replies_singleton ticket _)
  | read endpoint ticket =>
    obtain rfl := Except.ok.inj h
    exact .of_replies rfl (replies_singleton ticket _)
  | metrics ticket =>
    obtain rfl := Except.ok.inj h
    exact .of_replies rfl (replies_singleton ticket _)
  | shutdown ticket =>
    obtain rfl := Except.ok.inj h
    exact .of_replies rfl (replies_map ticket.toList _)
  | report i sample =>
    obtain rfl := Except.ok.inj h
    exact .of_requests (requests_cache w i sample) (by simp)
  | unregister i ticket =>
    obtain rfl := Except.ok.inj h
    refine disarms_replyTo w ticket fun s hs => ?_
    unfold unregister at hs
    split at hs
    · cases hs
    · obtain rfl := Except.ok.inj hs
      exact (disarms_answerEach _ _ i false).of_before rfl
  | setState i payload policy token ticket =>
    obtain rfl := Except.ok.inj h
    refine disarms_replyTo w ticket fun s hs => ?_
    unfold setState at hs
    split at hs
    · cases hs
    · split at hs
      · cases hs
      · split at hs
        · cases hs
        · obtain rfl := Except.ok.inj hs
          exact (disarms_satisfy _ i token).of_before rfl
  | pushState i sample ticket =>
    obtain rfl := Except.ok.inj h
    refine disarms_replyTo w ticket fun s hs => ?_
    unfold pushState at hs
    split at hs
    · cases hs
    · obtain rfl := Except.ok.inj hs
      exact (disarms_satisfy _ i none).of_before rfl
  | respond i sample t =>
    obtain rfl := Except.ok.inj h
    simp only [respond]
    split
    · exact (disarms_answer _ t i true).of_before (requests_cache w i sample)
    · exact .of_requests (requests_cache w i sample) (by simp)
  | unavailable i t unreachable =>
    obtain rfl := Except.ok.inj h
    unfold unavailable
    split
    · exact .of_requests rfl (by simp)
    · split
      · exact disarms_fail w t _
      · exact disarms_answer w t i false
  | timeout t generation =>
    obtain rfl := Except.ok.inj h
    unfold timeOut
    split
    · exact .nothing w
    · split
      · exact (disarms_fail _ t .timeout).of_before rfl
      · exact .nothing w

theorem disarms_reject (w : Worker) (task : Task) : Disarms w (w.reject task) := by
  cases task with
  | shutdown ticket => exact .of_replies rfl (replies_map ticket.toList _)
  | _ => exact .of_requests rfl (by simp [reject])

/-- The end of the work closes all requests, and cancels their timers. -/
theorem disarms_stop (w : Worker) (rest : List Task) (ticket : Option Ticket) :
    Disarms w (w.stop rest ticket) := by
  have hc : Disarms w (w.cancelEach w.requests.keys) :=
    .foldl (fun w t => disarms_fail w t .cancelled) _ (.nothing w)
  have hd : Disarms (w.cancelEach w.requests.keys).1
      ((w.cancelEach w.requests.keys).1.drain rest) :=
    .foldl disarms_reject rest (.nothing _)
  exact (hc.andThen (drain · rest) hd).andThen _
    (.of_replies rfl (replies_map ticket.toList _))

/-- A new request closes no other, and has no timer yet if it is closed at once. -/
theorem cancels_getContext {w : Worker} {t : Token} (ht : w.requests.get? t = none)
    (retrievable : Provider → Bool) (requester : Requester) (endpoint : String) (timeout : Nat)
    (id : TimerId) :
    .cancelTimer id ∈ (w.getContext retrievable t requester endpoint timeout).2 ↔
      ∃ u r, w.requests.get? u = some r ∧ r.timer = some id ∧
        (w.getContext retrievable t requester endpoint timeout).1.requests.get? u = none := by
  have apart : ∀ {u r}, w.requests.get? u = some r → u ≠ t := by
    rintro u r hr rfl
    rw [ht] at hr
    cases hr
  simp only [getContext]
  split
  · rw [(disarms_succeed _ t).cancels]
    simp only [SortedMap.get?_insert]
    constructor
    · rintro ⟨u, r, hr, hid, hnone⟩
      split at hr
      · obtain rfl := Option.some.inj hr
        cases hid
      · exact ⟨u, r, hr, hid, hnone⟩
    · rintro ⟨u, r, hr, hid, hnone⟩
      exact ⟨u, r, by rw [if_neg (apart hr), hr], hid, hnone⟩
  · simp only [List.mem_cons, reduceCtorEq, List.not_mem_nil, or_self, false_iff,
      SortedMap.get?_insert]
    rintro ⟨u, r, hr, -, hnone⟩
    rw [if_neg (apart hr), hr] at hnone
    cases hnone

end Worker

/-! ## Rounds -/

namespace Round.Sound

variable {x : Round}

/-- A round sets a timer when it opens a request that waits for answers. -/
theorem sets_iff (hx : x.Sound) {id delay : Nat} {t : Token} {generation : Nat} :
    .setTimer id delay t generation ∈ x.effects ↔
      ∃ around requester endpoint,
        x.turn = .task around (.getContext t requester endpoint delay) ∧
        (x.before.store.scatter around.retrievable endpoint).2 ≠ [] ∧
        id = x.before.timers + 1 ∧ generation = x.before.generation + 1 := by
  have hasked : Effect.setTimer id delay t generation ∈ x.effects ↔
      Effect.setTimer id delay t generation ∈ x.turn.asks x.before := by
    rw [← hx.leaves.asked]
    simp [asked, Effect.isAsking]
  rw [hasked]
  cases hturn : x.turn with
  | shutdown | deserted => simp [Turn.asks]
  | task around task =>
    cases task with
    | getContext u requester endpoint timeout =>
      simp only [Turn.asks, Turn.task.injEq, Task.getContext.injEq]
      cases hp : (x.before.store.scatter around.retrievable endpoint).2 with
      | nil =>
        simp only [List.not_mem_nil, false_iff]
        rintro ⟨_, _, _, ⟨rfl, -, -, rfl, -⟩, hne, -⟩
        exact hne hp
      | cons target targets =>
        simp only [List.mem_cons, Effect.setTimer.injEq, reduceCtorEq, List.not_mem_nil, or_self,
          or_false]
        constructor
        · rintro ⟨rfl, rfl, rfl, rfl⟩
          exact ⟨around, requester, endpoint, ⟨rfl, rfl, rfl, rfl, rfl⟩, by simp [hp], rfl, rfl⟩
        · rintro ⟨_, _, _, ⟨rfl, rfl, rfl, rfl, rfl⟩, -, rfl, rfl⟩
          exact ⟨rfl, rfl, rfl, rfl⟩
    | _ => simp [Turn.asks]

/-- A round cancels the timers of the requests that it closes, and no others. -/
theorem cancels_iff (hx : x.Sound) {id : TimerId} :
    .cancelTimer id ∈ x.effects ↔
      ∃ t r, x.before.requests.get? t = some r ∧ r.timer = some id ∧
        x.after.requests.get? t = none := by
  have hturn := hx.turn
  cases ht : x.turn with
  | shutdown ticket rest =>
    rw [ht] at hturn
    have hs := (Worker.disarms_stop x.before.countTask rest ticket).of_before (w := x.before) rfl
    rw [Except.ok.inj hturn] at hs
    exact hs.cancels id
  | deserted =>
    rw [ht] at hturn
    have hs := Worker.disarms_stop x.before [] none
    rw [Except.ok.inj hturn] at hs
    exact hs.cancels id
  | task around task =>
    rw [ht] at hturn
    cases hr : task.request? with
    | none => exact ((Worker.disarms_handle hturn hr).of_before (w := x.before) rfl).cancels id
    | some y =>
      cases task with
      | getContext t requester endpoint timeout =>
        have hnone : x.before.countTask.requests.get? t = none :=
          hx.distinct.apart t (by simp [ht, Turn.tokens, Turn.requests, requested, Task.request?])
        simp only [Worker.turn, Worker.handle] at hturn
        split at hturn
        · cases hturn
        · have hc :=
            Worker.cancels_getContext hnone around.retrievable requester endpoint timeout id
          rw [Except.ok.inj hturn] at hc
          exact hc
      | _ => simp [Task.request?] at hr

end Round.Sound

end ContextBroker
