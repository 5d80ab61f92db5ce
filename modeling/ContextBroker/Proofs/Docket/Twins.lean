import ContextBroker.Proofs.Docket.View
import ContextBroker.Proofs.WorkQueue.InFlight
import ContextBroker.Proofs.Worker.Deciding
import ContextBroker.Proofs.Worker.Replying

set_option autoImplicit false

/-! # Two workers side by side

Of two workers the first may know more than what a view looks at, and the second knows just that
(`View.Shows`): their stores agree in the view, and the second table holds a twin of each request in
view and nothing else. Twins may differ in timer and generation, since the second worker may have
given out fewer of these; which generations belong together is said by a relation `linked`.

Rounds on both sides keep this up if they mean the same (`View.Shows.both`,
`View.Shows.rulesAlike`), and so does a round on the first side only that does nothing to requests
in view (`View.Shows.left`). -/

namespace ContextBroker

/-! ## Twins -/

/-- The requests are the same but for timer and generation. -/
structure Request.Twin (r r' : Request) : Prop where
  requester : r.requester = r'.requester
  endpoint : r.endpoint = r'.endpoint
  awaited : r.awaited = r'.awaited
  refreshed : r.refreshed = r'.refreshed
  unavailable : r.unavailable = r'.unavailable

/-- The same becomes of two requests, with generations that belong together. -/
inductive Verdict.Twin (linked : Nat → Nat → Prop) : Verdict → Verdict → Prop
  | stays {r r' : Request} (h : r.Twin r') (hl : linked r.generation r'.generation) :
      Twin linked (stays r) (stays r')
  | ends (o : Outcome) : Twin linked (ends o) (ends o)

section

variable {linked : Nat → Nat → Prop} {r r' : Request} {s s' : Store}

theorem Request.Twin.resolve (h : r.Twin r') (i : Identity) (available : Bool) :
    (r.resolve i available).Twin (r'.resolve i available) where
  requester := by rw [requester_resolve, requester_resolve, h.requester]
  endpoint := by rw [endpoint_resolve, endpoint_resolve, h.endpoint]
  awaited := by rw [awaited_resolve, awaited_resolve, h.awaited]
  refreshed := by rw [refreshed_resolve, refreshed_resolve, h.refreshed]
  unavailable := by rw [unavailable_resolve, unavailable_resolve, h.unavailable]

theorem Request.Twin.answered (h : r.Twin r') (hl : linked r.generation r'.generation)
    (hs : s.outline r.endpoint = s'.outline r.endpoint) (i : Identity) (available : Bool) :
    (r.answered s i available).Twin linked (r'.answered s' i available) := by
  have hawaits : r.awaits i = r'.awaits i := by rw [Request.awaits, h.awaited]; rfl
  have hr := h.resolve i available
  have hlast : (r.resolve i available).isComplete = (r'.resolve i available).isComplete := by
    rw [Request.isComplete, hr.awaited]
    rfl
  simp only [Request.answered, ← hawaits, ← hlast]
  split
  · split
    · rw [← hr.endpoint, ← hr.refreshed, ← hr.unavailable, endpoint_resolve,
        Store.aggregate_congr hs]
      exact .ends _
    · exact .stays hr (by rwa [generation_resolve, generation_resolve])
  · exact .stays h hl

/-- Turns that mean the same for two twins have the same verdict on them. -/
theorem Turn.verdict_twin {turn turn' : Turn} {accepted accepted' : Bool} {t : Token}
    (h : r.Twin r') (hl : linked r.generation r'.generation)
    (hs : s.outline r.endpoint = s'.outline r.endpoint)
    (hfailure : turn.failure? t r.generation = turn'.failure? t r'.generation)
    (hresolution : turn.resolution? t accepted = turn'.resolution? t accepted') :
    (turn.verdict accepted s t r).Twin linked (turn'.verdict accepted' s' t r') := by
  unfold verdict
  rw [← hfailure, ← hresolution]
  split
  · exact .ends _
  · split
    · exact h.answered hl hs _ _
    · exact .stays h hl

end

/-! ## Tables side by side -/

namespace View

/-- What is in view on the first worker shows on the second, and nothing else does. -/
structure Shows (v : View) (linked : Token → Nat → Nat → Prop) (w w' : Worker) : Prop where
  store : v.Agrees w.store w'.store
  shown (t : Token) (r : Request) : w.requests.get? t = some r → v.request t r.endpoint →
    ∃ r', w'.requests.get? t = some r' ∧ r.Twin r' ∧ linked t r.generation r'.generation
  nothing (t : Token) : (∀ r, w.requests.get? t = some r → ¬ v.request t r.endpoint) →
    w'.requests.get? t = none

/-- What rounds on both sides do with one token: the same to twins in view, or on the second side
    nothing at all. -/
inductive RulesAlike (v : View) (linked : Token → Nat → Nat → Prop) (t : Token) :
    Option (Requester × Verdict) → Option (Requester × Verdict) → Prop
  | both (q : Requester) {d d' : Verdict} (h : d.Twin (linked t) d')
      (hv : ∀ r, d = .stays r → v.request t r.endpoint) :
      RulesAlike v linked t (some (q, d)) (some (q, d'))
  | left {ruling : Option (Requester × Verdict)}
      (hv : ∀ q r, ruling = some (q, .stays r) → ¬ v.request t r.endpoint) :
      RulesAlike v linked t ruling none

end View

/-- What the round does with the request with the token `t`. -/
def Round.ruling (x : Round) (t : Token) : Option (Requester × Verdict) :=
  x.turn.ruling x.before (x.after, x.effects) t

namespace View

variable {v : View} {linked linked' : Token → Nat → Nat → Prop} {w w' : Worker} {x x' : Round}
  {t : Token}

theorem Shows.mono (h : v.Shows linked w w')
    (hl : ∀ t g g', linked t g g' → linked' t g g') : v.Shows linked' w w' where
  store := h.store
  shown t r hr hv := by
    obtain ⟨r', hr', htwin, hlink⟩ := h.shown t r hr hv
    exact ⟨r', hr', htwin, hl _ _ _ hlink⟩
  nothing := h.nothing

/-- What is delivered in view is delivered on both sides, and on the second nothing else. -/
theorem RulesAlike.deliveries (hx : x.Sound) (hx' : x'.Sound)
    (h : v.RulesAlike linked t (x.ruling t) (x'.ruling t)) :
    deliveries t x'.effects = deliveries t x.effects ∨
      (x'.ruling t = none ∧ deliveries t x'.effects = []) := by
  have hdel := hx.rules.delivers t
  have hdel' := hx'.rules.delivers t
  change ContextBroker.deliveries t x.effects = ((x.ruling t).map _).getD [] at hdel
  change ContextBroker.deliveries t x'.effects = ((x'.ruling t).map _).getD [] at hdel'
  generalize x.ruling t = ρ, x'.ruling t = ρ' at h hdel hdel'
  cases h with
  | left hv => exact .inr ⟨rfl, hdel'⟩
  | both q h hv =>
    refine .inl ?_
    rw [hdel, hdel']
    cases h <;> rfl

/-- Rounds that rule alike on all tokens lead from tables side by side to tables side by side. -/
theorem Shows.both (hx : x.Sound) (hx' : x'.Sound)
    (h : ∀ t, v.RulesAlike linked t (x.ruling t) (x'.ruling t))
    (hs : v.Agrees x.after.store x'.after.store) : v.Shows linked x.after x'.after where
  store := hs
  shown t r hr hv := by
    have hreq : x.after.requests.get? t = (x.ruling t).bind _ := hx.rules.requests t
    have hreq' : x'.after.requests.get? t = (x'.ruling t).bind _ := hx'.rules.requests t
    rw [hr] at hreq
    have ht := h t
    generalize x.ruling t = ρ, x'.ruling t = ρ' at ht hreq hreq'
    cases ht with
    | left hleft =>
      obtain ⟨⟨q, d⟩, rfl, hd⟩ := Option.bind_eq_some_iff.1 hreq.symm
      cases d with
      | ends o => cases hd
      | stays r' =>
        obtain rfl := Option.some.inj hd
        exact absurd hv (hleft q _ rfl)
    | both q htwin _ =>
      cases htwin with
      | ends o => cases hreq
      | stays htwin hl =>
        obtain rfl := Option.some.inj hreq
        exact ⟨_, hreq', htwin, hl⟩
  nothing t hnot := by
    have hreq : x.after.requests.get? t = (x.ruling t).bind _ := hx.rules.requests t
    have hreq' : x'.after.requests.get? t = (x'.ruling t).bind _ := hx'.rules.requests t
    have ht := h t
    generalize x.ruling t = ρ, x'.ruling t = ρ' at ht hreq hreq'
    cases ht with
    | left hleft => exact hreq'
    | both q htwin hv =>
      cases htwin with
      | ends o => exact hreq'
      | stays htwin hl => exact absurd (hv _ rfl) (hnot _ hreq)

/-- A round on the first side only, which does nothing to requests in view. -/
theorem Shows.left (hx : x.Sound) (h : v.Shows linked x.before w')
    (hquiet : ∀ t r, x.before.requests.get? t = some r → v.request t r.endpoint →
      x.verdict t r = .stays r)
    (harrival : ∀ t q r, x.turn.arrival? x.before t = some (q, .stays r) →
      ¬ v.request t r.endpoint)
    (hs : v.Agrees x.after.store w'.store) : v.Shows linked x.after w' where
  store := hs
  shown t r hr hv := by
    cases hb : x.before.requests.get? t with
    | some r₀ =>
      have hset := (hx.settled hb).1
      rw [hr] at hset
      cases hd : x.verdict t r₀ with
      | ends o => simp [hd] at hset
      | stays r₁ =>
        have hkeeps := x.turn.keeps_verdict _ _ _ _ r₁ hd
        rw [hd] at hset
        obtain rfl := Option.some.inj hset
        rw [hkeeps.2.1] at hv
        rw [hquiet t r₀ hb hv] at hd
        obtain rfl := Verdict.stays.inj hd
        exact h.shown t r₀ hb hv
    | none =>
      have hreq := hx.rules.requests t
      simp only [Turn.ruling, hb, hr] at hreq
      obtain ⟨⟨q, d⟩, ha, hd⟩ := Option.bind_eq_some_iff.1 hreq.symm
      cases d with
      | ends o => cases hd
      | stays r' =>
        obtain rfl := Option.some.inj hd
        exact absurd hv (harrival t q _ ha)
  nothing t hnot := by
    refine h.nothing t fun r hb hv => ?_
    have hset := (hx.settled hb).1
    rw [hquiet t r hb hv] at hset
    exact hnot r hset hv

/-! ## Rounds on both sides -/

/-- A change in view comes to the same on both sides. -/
theorem Shows.result (h : v.Shows linked w w') {task : Task}
    (hendpoint : ∀ e, task.endpoint? = some e → v.endpoint e)
    (hanswer : ∀ i payload policy t ticket r, task = .setState i payload policy (some t) ticket →
      w.requests.get? t = some r → v.request t r.endpoint) :
    task.result w = task.result w' := by
  have hopen : ∀ {i payload policy t ticket}, task = .setState i payload policy (some t) ticket →
      w.requests.contains t = w'.requests.contains t := by
    intro i payload policy t ticket htask
    rw [SortedMap.contains_eq_isSome, SortedMap.contains_eq_isSome]
    cases hr : w.requests.get? t with
    | none => rw [h.nothing t (by simp [hr])]
    | some r =>
      obtain ⟨r', hr', -⟩ := h.shown t r hr (hanswer _ _ _ _ _ r htask hr)
      rw [hr']
      rfl
  cases task with
  | unregister i ticket => simp only [Task.result, h.store.contains (hendpoint _ rfl)]
  | pushState i sample ticket => simp only [Task.result, h.store.contains (hendpoint _ rfl)]
  | setState i payload policy token ticket =>
    have htoken : (token.filter fun t => !w.requests.contains t) =
        token.filter fun t => !w'.requests.contains t := by
      cases token with
      | none => rfl
      | some t => simp only [Option.filter_some, hopen rfl]
    simp only [Task.result, htoken]
    rcases h.store.get?_cases (hendpoint _ rfl) with ⟨hs, hs'⟩ | ⟨b, b', hs, hs', hb⟩
    · rw [hs, hs']
    · simp only [hs, hs', hb.kind]
  | _ => rfl

/-- The same becomes of a new request on both sides. -/
theorem Shows.admitted (h : v.Shows linked w w') {e : String} (he : v.endpoint e)
    (retrievable : Provider → Bool) (requester : Requester) {linked : Nat → Nat → Prop}
    (hl : linked (w.generation + 1) (w'.generation + 1)) :
    (w.admitted retrievable requester e).Twin linked (w'.admitted retrievable requester e) := by
  have htargets := Store.targets_congr (h.store.outline he) retrievable
  have hafter := (h.store.scatter retrievable e).outline he
  simp only [Worker.admitted, Request.isComplete, ← htargets, Store.aggregate_congr hafter]
  by_cases hp : (SortedSet.ofList
      ((w.store.scatter retrievable e).2.map (·.identity))).isEmpty = true
  · rw [if_pos hp, if_pos hp]
    exact .ends _
  · rw [if_neg hp, if_neg hp]
    exact .stays ⟨rfl, rfl, rfl, rfl, rfl⟩ hl

/-- Turns that mean the same on both sides rule alike. -/
theorem Shows.rulesAlike (h : v.Shows linked x.before x'.before)
    (hl : ∀ t g g', linked t g g' → linked' t g g')
    (hs : v.Agrees x.after.store x'.after.store) (htokens : x'.turn.tokens = x.turn.tokens)
    (hx : x.Sound)
    (hfailure : ∀ (t : Token) (r r' : Request), x.before.requests.get? t = some r →
      v.request t r.endpoint → linked t r.generation r'.generation →
      x.turn.failure? t r.generation = x'.turn.failure? t r'.generation)
    (hresolution : ∀ t, x.turn.resolution? t (accepted x.effects) =
      x'.turn.resolution? t (accepted x'.effects))
    (harrival : ∀ t, v.RulesAlike linked' t (x.turn.arrival? x.before t)
      (x'.turn.arrival? x'.before t)) (t : Token) :
    v.RulesAlike linked' t (x.ruling t) (x'.ruling t) := by
  unfold Round.ruling Turn.ruling
  cases hr : x.before.requests.get? t with
  | none =>
    rw [h.nothing t (by simp [hr])]
    exact harrival t
  | some r =>
    by_cases hv : v.request t r.endpoint
    · obtain ⟨r', hr', htwin, hlink⟩ := h.shown t r hr hv
      rw [hr']
      simp only [← htwin.requester]
      refine .both _ (Turn.verdict_twin htwin (hl _ _ _ hlink) (hs.outline (v.sees t _ hv))
        (hfailure t r r' hr hv hlink) (hresolution t)) fun r₁ hd => ?_
      rw [(x.turn.keeps_verdict _ _ _ _ r₁ hd).2.1]
      exact hv
    · have hnone : x'.turn.arrival? x'.before t = none := by
        rw [Turn.arrival?_eq_none, htokens]
        exact hx.not_mem_tokens hr
      rw [h.nothing t fun r₁ hr₁ => by rw [hr] at hr₁; obtain rfl := Option.some.inj hr₁; exact hv,
        hnone]
      refine .left fun q r₁ hd => ?_
      obtain ⟨-, hd⟩ := Prod.mk.inj (Option.some.inj hd)
      rw [(x.turn.keeps_verdict _ _ _ _ r₁ hd).2.1]
      exact hv

end View

end ContextBroker
