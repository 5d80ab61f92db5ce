import ContextBroker.Worker
import Mathlib.Data.List.Induction

set_option autoImplicit false

/-! # What becomes of open requests

Whatever the worker does to its open requests, it does to each of them on its own: a request stays
open, perhaps with one answer more, or it ends with an outcome that is delivered at once. A
`Verdict` says which, and `Worker.Settles` says of a whole step that it carries out one verdict for
each open request and does nothing else. One such step after another settles each request twice
(`Settles.andThen`), and a step for each of several tokens settles the requests with these tokens
(`Settles.each`), so the order in which they come plays no part. -/

namespace ContextBroker

/-! ## Deliveries -/

/-- What an effect delivers with the token `t`. -/
def Effect.delivery? (t : Token) : Effect → Option (Requester × Outcome)
  | .deliver requester u outcome => if u = t then some (requester, outcome) else none
  | _ => none

/-- What effects deliver with the token `t`, in order. -/
def deliveries (t : Token) (effects : List Effect) : List (Requester × Outcome) :=
  effects.filterMap (·.delivery? t)

@[simp] theorem deliveries_nil (t : Token) : deliveries t [] = [] := rfl

@[simp] theorem deliveries_append (t : Token) (es fs : List Effect) :
    deliveries t (es ++ fs) = deliveries t es ++ deliveries t fs := List.filterMap_append

theorem deliveries_cons (t : Token) (e : Effect) (es : List Effect) :
    deliveries t (e :: es) = (e.delivery? t).toList ++ deliveries t es := by
  cases h : e.delivery? t <;> simp [deliveries, h]

/-- Effects that deliver nothing. -/
theorem deliveries_eq_nil {t : Token} {es : List Effect} (h : ∀ e ∈ es, e.delivery? t = none) :
    deliveries t es = [] := List.filterMap_eq_nil_iff.2 h

/-- Whether an effect tells a caller that its call was done. -/
def Effect.isAcceptance : Effect → Bool
  | .reply _ (.done (.ok _)) => true
  | _ => false

/-- Whether an effect is one of those that come with the end of a request. -/
def Effect.isClosing : Effect → Bool
  | .deliver .. | .cancelTimer _ => true
  | _ => false

/-- Whether an effect asks for something to come back. -/
def Effect.isAsking : Effect → Bool
  | .setTimer .. | .poll .. => true
  | _ => false

/-- What effects ask for, in order. -/
def asked (effects : List Effect) : List Effect := effects.filter (·.isAsking)

@[simp] theorem asked_append (es fs : List Effect) : asked (es ++ fs) = asked es ++ asked fs :=
  List.filter_append ..

/-! ## Verdicts -/

/-- What becomes of an open request. -/
inductive Verdict
  | stays (request : Request)
  | ends (outcome : Outcome)

namespace Verdict

/-- The request, if it is still open. -/
def request? : Verdict → Option Request
  | stays r => some r
  | ends _ => none

/-- The outcome, if there is one. -/
def outcome? : Verdict → Option Outcome
  | stays _ => none
  | ends o => some o

/-- A further verdict on a request that is still open. -/
def andThen (v : Verdict) (next : Request → Verdict) : Verdict :=
  match v with
  | stays r => next r
  | ends o => ends o

@[simp] theorem request?_stays (r : Request) : (stays r).request? = some r := rfl

@[simp] theorem request?_ends (o : Outcome) : (ends o).request? = none := rfl

@[simp] theorem outcome?_stays (r : Request) : (stays r).outcome? = none := rfl

@[simp] theorem outcome?_ends (o : Outcome) : (ends o).outcome? = some o := rfl

@[simp] theorem andThen_stays (r : Request) (next : Request → Verdict) :
    (stays r).andThen next = next r := rfl

@[simp] theorem andThen_ends (o : Outcome) (next : Request → Verdict) :
    (ends o).andThen next = ends o := rfl

/-- What the verdict has delivered to a requester. -/
def delivered (v : Verdict) (requester : Requester) : List (Requester × Outcome) :=
  (v.outcome?.map fun o => (requester, o)).toList

@[simp] theorem delivered_stays (r : Request) (q : Requester) : (stays r).delivered q = [] := rfl

@[simp] theorem delivered_ends (o : Outcome) (q : Requester) :
    (ends o).delivered q = [(q, o)] := rfl

/-- A verdict of the worker never changes whose request it is, nor which one. -/
def Keeps (v : Verdict) (r : Request) : Prop :=
  ∀ r', v = stays r' →
    r'.requester = r.requester ∧ r'.endpoint = r.endpoint ∧ r'.generation = r.generation

theorem keeps_ends (o : Outcome) (r : Request) : (ends o).Keeps r := by
  intro r' h
  cases h

theorem keeps_stays (r : Request) : (stays r).Keeps r := by
  intro r' h
  cases h
  exact ⟨rfl, rfl, rfl⟩

end Verdict

open Verdict in
/-- The verdict on a request for which `i` is answered, with a state or without one, while `store`
    holds the states. -/
def Request.answered (r : Request) (store : Store) (i : Identity) (available : Bool) : Verdict :=
  if r.awaits i then
    let r := r.resolve i available
    if r.isComplete then
      .ends (.context r.endpoint (store.aggregate r.endpoint r.refreshed r.unavailable))
    else .stays r
  else .stays r

namespace Request

@[simp] theorem requester_resolve (r : Request) (i : Identity) (available : Bool) :
    (r.resolve i available).requester = r.requester := by
  unfold resolve
  split <;> rfl

@[simp] theorem endpoint_resolve (r : Request) (i : Identity) (available : Bool) :
    (r.resolve i available).endpoint = r.endpoint := by
  unfold resolve
  split <;> rfl

@[simp] theorem generation_resolve (r : Request) (i : Identity) (available : Bool) :
    (r.resolve i available).generation = r.generation := by
  unfold resolve
  split <;> rfl

@[simp] theorem timer_resolve (r : Request) (i : Identity) (available : Bool) :
    (r.resolve i available).timer = r.timer := by
  unfold resolve
  split <;> rfl

@[simp] theorem awaited_resolve (r : Request) (i : Identity) (available : Bool) :
    (r.resolve i available).awaited = r.awaited.erase i := by
  unfold resolve
  split <;> rfl

theorem refreshed_resolve (r : Request) (i : Identity) (available : Bool) :
    (r.resolve i available).refreshed =
      if available then r.refreshed.insert i else r.refreshed := by
  unfold resolve
  split <;> rfl

theorem unavailable_resolve (r : Request) (i : Identity) (available : Bool) :
    (r.resolve i available).unavailable =
      if available then r.unavailable else r.unavailable.insert i := by
  unfold resolve
  split <;> rfl

theorem keeps_answered (r : Request) (store : Store) (i : Identity) (available : Bool) :
    (r.answered store i available).Keeps r := by
  unfold answered
  split
  · simp only
    split
    · exact Verdict.keeps_ends _ _
    · intro r' h
      cases h
      simp
  · exact Verdict.keeps_stays r

end Request

/-! ## Settling -/

namespace Worker

/-- The step `s` carries out the verdict `d` on each open request of `w`, and leaves all else as it
    is but for what was counted. -/
structure Settles (w : Worker) (s : Step) (d : Token → Request → Verdict) : Prop where
  requests (t : Token) :
    s.1.requests.get? t = (w.requests.get? t).bind fun r => (d t r).request?
  delivers (t : Token) :
    deliveries t s.2 = ((w.requests.get? t).map fun r => (d t r).delivered r.requester).getD []
  live (t : Token) :
    t ∈ s.1.tokens.live ↔
      t ∈ w.tokens.live ∧ ∀ r, w.requests.get? t = some r → (d t r).outcome? = none
  keeps (t : Token) (r : Request) : w.requests.get? t = some r → (d t r).Keeps r
  store : s.1.store = w.store
  generation : s.1.generation = w.generation
  timers : s.1.timers = w.timers
  last : s.1.tokens.last = w.tokens.last
  closing : ∀ e ∈ s.2, e.isClosing = true

/-- A verdict on the request with the token `t` only. -/
def onlyAt (t : Token) (d : Request → Verdict) (u : Token) (r : Request) : Verdict :=
  if u = t then d r else .stays r

namespace Settles

variable {w : Worker} {s : Step} {d d' : Token → Request → Verdict}

/-- Only the verdicts on open requests matter. -/
theorem congr (h : Settles w s d)
    (hd : ∀ t r, w.requests.get? t = some r → d t r = d' t r) : Settles w s d' := by
  refine { h with requests := fun t => ?_, delivers := fun t => ?_, live := fun t => ?_,
                  keeps := fun t r hr => hd t r hr ▸ h.keeps t r hr }
  · rw [h.requests]
    cases hr : w.requests.get? t with
    | none => rfl
    | some r => simp [hd t r hr]
  · rw [h.delivers]
    cases hr : w.requests.get? t with
    | none => rfl
    | some r => simp [hd t r hr]
  · rw [h.live]
    refine and_congr_right fun _ => forall_congr' fun r => imp_congr_right fun hr => ?_
    rw [hd t r hr]

/-- Doing nothing keeps every request. -/
theorem nothing (w : Worker) : Settles w (w, []) fun _ r => .stays r where
  requests t := by simp
  delivers t := by cases h : w.requests.get? t <;> simp
  live t := by simp
  keeps _ r _ := Verdict.keeps_stays r
  store := rfl
  generation := rfl
  timers := rfl
  last := rfl
  closing e he := by simp at he

/-- What was counted before plays no part. -/
theorem recount (h : Settles w s d) (counters : Counters) : Settles { w with counters } s d :=
  ⟨h.requests, h.delivers, h.live, h.keeps, h.store, h.generation, h.timers, h.last, h.closing⟩

/-- One step after another passes two verdicts, one after the other. -/
theorem andThen {next : Worker → Step} (h : Settles w s d) (h' : Settles s.1 (next s.1) d') :
    Settles w (Worker.andThen s next) fun t r => (d t r).andThen (d' t) where
  requests t := by
    simp only [Worker.andThen, h'.requests, h.requests]
    cases w.requests.get? t with
    | none => rfl
    | some r => simp only [Option.bind_some]; cases d t r <;> simp
  delivers t := by
    simp only [Worker.andThen, deliveries_append, h'.delivers, h.delivers, h.requests]
    cases hr : w.requests.get? t with
    | none => rfl
    | some r =>
      cases hd : d t r with
      | ends o => simp [hd]
      | stays r' => simp [hd, (h.keeps t r hr r' hd).1]
  live t := by
    simp only [Worker.andThen, h'.live, h.live, h.requests, and_assoc]
    refine and_congr_right fun _ => ?_
    cases hr : w.requests.get? t with
    | none => simp
    | some r => cases hd : d t r <;> simp [hd]
  keeps t r hr r'' hd := by
    cases hd' : d t r with
    | ends o => simp [hd'] at hd
    | stays r' =>
      rw [hd', Verdict.andThen_stays] at hd
      have hr' : s.1.requests.get? t = some r' := by simp [h.requests, hr, hd']
      obtain ⟨h₁, h₂, h₃⟩ := h.keeps t r hr r' hd'
      obtain ⟨h₁', h₂', h₃'⟩ := h'.keeps t r' hr' r'' hd
      exact ⟨h₁'.trans h₁, h₂'.trans h₂, h₃'.trans h₃⟩
  store := h'.store.trans h.store
  generation := h'.generation.trans h.generation
  timers := h'.timers.trans h.timers
  last := h'.last.trans h.last
  closing e he := by
    rcases List.mem_append.1 he with he | he
    · exact h.closing e he
    · exact h'.closing e he

end Settles

/-! ## Closing and answering -/

section

variable {w : Worker} {t : Token} {r : Request}

theorem succeed_eq (hr : w.requests.get? t = some r) :
    w.succeed t = ({ w with
        requests := w.requests.erase t
        tokens := w.tokens.release t
        counters.completed := w.counters.completed + 1 },
      r.timer.toList.map .cancelTimer ++ [.deliver r.requester t
        (.context r.endpoint (w.store.aggregate r.endpoint r.refreshed r.unavailable))]) := by
  simp only [succeed, hr]
  rfl

theorem fail_eq (hr : w.requests.get? t = some r) (error : RequestError) :
    w.fail t error = ({ w with
        requests := w.requests.erase t
        tokens := w.tokens.release t
        counters.failed := w.counters.failed + 1 },
      r.timer.toList.map .cancelTimer ++ [.deliver r.requester t (.failure error)]) := by
  simp only [fail, hr]
  rfl

/-- Closing a request, counting its outcome and delivering it ends this request and no other. -/
theorem settles_close (hr : w.requests.get? t = some r) (o : Outcome)
    (count : Worker → Counters) :
    Settles w
      (andThen (w.close t r) fun w =>
        ({ w with counters := count w }, [.deliver r.requester t o]))
      (onlyAt t fun _ => .ends o) where
  requests u := by
    simp only [andThen, close, SortedMap.get?_erase, onlyAt]
    by_cases hu : u = t
    · simp [hu, hr]
    · cases h : w.requests.get? u <;> simp [hu]
  delivers u := by
    have hc : deliveries u (r.timer.toList.map Effect.cancelTimer) = [] :=
      deliveries_eq_nil fun e he => by
        obtain ⟨id, -, rfl⟩ := List.mem_map.1 he
        rfl
    simp only [andThen, close, deliveries_append, hc, deliveries_cons, Effect.delivery?, onlyAt]
    by_cases hu : u = t
    · simp [hu, hr]
    · have hu' : t ≠ u := fun h => hu h.symm
      cases h : w.requests.get? u <;> simp [hu, hu']
  live u := by
    simp only [andThen, close, TokenAllocator.release, SortedSet.mem_erase, onlyAt]
    by_cases hu : u = t
    · simp [hu, hr]
    · simp [hu]
  keeps u r' _ := by
    unfold onlyAt
    split
    · exact Verdict.keeps_ends _ _
    · exact Verdict.keeps_stays r'
  store := rfl
  generation := rfl
  timers := rfl
  last := rfl
  closing e he := by
    simp only [andThen, close, List.mem_append, List.mem_map, List.mem_singleton] at he
    rcases he with ⟨id, -, rfl⟩ | rfl <;> rfl

theorem settles_fail (w : Worker) (t : Token) (error : RequestError) :
    Settles w (w.fail t error) (onlyAt t fun _ => .ends (.failure error)) := by
  unfold fail
  cases hr : w.requests.get? t with
  | none =>
    refine (Settles.nothing w).congr fun u r hu => ?_
    have hut : u ≠ t := fun h => by simp [h, hr] at hu
    simp [onlyAt, hut]
  | some r => exact settles_close hr _ fun w => { w.counters with failed := w.counters.failed + 1 }

/-- A request that succeeds ends with the context of its endpoint. -/
theorem settles_succeed (hr : w.requests.get? t = some r) :
    Settles w (w.succeed t) (onlyAt t fun _ =>
      .ends (.context r.endpoint (w.store.aggregate r.endpoint r.refreshed r.unavailable))) := by
  simp only [succeed, hr]
  exact settles_close hr _ fun w => { w.counters with completed := w.counters.completed + 1 }

/-- A request may be replaced by another state of itself before its verdict is carried out. -/
theorem Settles.of_insert {r' : Request} {s : Step} {d : Token → Request → Verdict}
    (hr : w.requests.get? t = some r) (hk : (Verdict.stays r').Keeps r)
    (h : Settles { w with requests := w.requests.insert t r' } s d) :
    Settles w s fun u r => if u = t then d u r' else d u r := by
  have hq : r'.requester = r.requester := (hk r' rfl).1
  refine { h with requests := fun u => ?_, delivers := fun u => ?_, live := fun u => ?_,
                  keeps := fun u x hx => ?_ }
  · rw [h.requests]
    by_cases hu : u = t
    · simp [hu, hr]
    · simp [hu, SortedMap.get?_insert_of_ne]
  · rw [h.delivers]
    by_cases hu : u = t
    · simp [hu, hr, hq]
    · simp [hu, SortedMap.get?_insert_of_ne]
  · rw [h.live]
    by_cases hu : u = t
    · simp [hu, hr]
    · simp [hu, SortedMap.get?_insert_of_ne]
  · by_cases hu : u = t
    · subst hu
      obtain rfl : r = x := Option.some.inj (hr.symm.trans hx)
      intro r'' hd
      simp only [if_true] at hd
      obtain ⟨h₁, h₂, h₃⟩ := h.keeps u r' (by simp) r'' hd
      obtain ⟨h₁', h₂', h₃'⟩ := hk r' rfl
      exact ⟨h₁.trans h₁', h₂.trans h₂', h₃.trans h₃'⟩
    · have := h.keeps u x (by simpa [hu, SortedMap.get?_insert_of_ne] using hx)
      simpa [hu] using this

/-- When the request with the token `t` is known, only the verdict on it matters there. -/
theorem Settles.congr_at {s : Step} {d d' : Token → Request → Verdict} (h : Settles w s d)
    (hr : w.requests.get? t = some r) (ht : d t r = d' t r)
    (hne : ∀ u x, u ≠ t → d u x = d' u x) : Settles w s d' := by
  refine h.congr fun u x hx => ?_
  by_cases hu : u = t
  · subst hu
    obtain rfl : r = x := Option.some.inj (hr.symm.trans hx)
    exact ht
  · exact hne u x hu

theorem settles_answer (w : Worker) (i : Identity) (available : Bool) (t : Token) :
    Settles w (w.answer i available t)
      (onlyAt t fun r => r.answered w.store i available) := by
  unfold answer
  cases hr : w.requests.get? t with
  | none =>
    refine (Settles.nothing w).congr fun u r hu => ?_
    have hut : u ≠ t := fun h => by simp [h, hr] at hu
    simp [onlyAt, hut]
  | some r =>
    have hne : ∀ u x, u ≠ t →
        onlyAt t (fun r => r.answered w.store i available) u x = .stays x := by
      intro u x hu
      simp [onlyAt, hu]
    by_cases ha : r.awaits i = true
    · -- The request is first put back with its answer, and closed from there if that was the last.
      have hk : (Verdict.stays (r.resolve i available)).Keeps r := by
        intro r' h
        cases h
        simp
      simp only [ha, if_true]
      by_cases hc : (r.resolve i available).isComplete = true
      · have hs := settles_succeed
          (w := { w with requests := w.requests.insert t (r.resolve i available) })
          (SortedMap.get?_insert_self ..)
        simp only [hc, if_true]
        refine (hs.of_insert hr hk).congr_at hr ?_ fun u x hu => ?_
        · simp [onlyAt, Request.answered, ha, hc]
        · simp [onlyAt, hu]
      · simp only [hc, Bool.false_eq_true, if_false]
        refine ((Settles.nothing _).of_insert hr hk).congr_at hr ?_ fun u x hu => ?_
        · simp [onlyAt, Request.answered, ha, hc]
        · simp [hu, hne u x hu]
    · simp only [ha, Bool.false_eq_true, if_false]
      refine (Settles.nothing w).congr_at hr ?_ fun u x hu => (hne u x hu).symm
      simp [onlyAt, Request.answered, ha]

end

/-! ## One step for each of several tokens -/

theorem each_append_singleton (w : Worker) (ts : List Token) (t : Token)
    (step : Worker → Token → Step) :
    w.each (ts ++ [t]) step = andThen (w.each ts step) (step · t) := by
  simp [each]

/-- Steps that each settle the request with one token settle together the requests with all of
    them. Every step leaves the store alone, so the verdicts do not depend on the order. -/
theorem Settles.each {w : Worker} {step : Worker → Token → Step} {d : Request → Verdict}
    (hstep : ∀ w' t, w'.store = w.store → Settles w' (step w' t) (onlyAt t d))
    {ts : List Token} (hts : ts.Nodup) :
    Settles w (w.each ts step) fun t r => if t ∈ ts then d r else .stays r := by
  -- From the left: what was settled so far, then the step for one token more.
  induction ts using List.reverseRecOn with
  | nil =>
    refine (Settles.nothing w).congr fun t r _ => ?_
    simp
  | append_singleton ts t ih =>
    obtain ⟨hts, -, hdis⟩ := List.nodup_append.1 hts
    have hnot : t ∉ ts := fun h => hdis t h t (by simp) rfl
    rw [each_append_singleton]
    refine ((ih hts).andThen (hstep _ t (ih hts).store)).congr fun u r _ => ?_
    by_cases hu : u = t
    · subst hu
      simp [hnot, onlyAt]
    · by_cases hm : u ∈ ts
      · simp only [hm, if_true, List.mem_append, true_or]
        cases d r <;> simp [onlyAt, hu]
      · simp [hm, onlyAt, hu]

end Worker

end ContextBroker
