import ContextBroker.Proofs.Docket.Mirror

set_option autoImplicit false

/-! # Endpoints are isolated

All endpoints share one worker, with one table of requests, one space of tokens and one count of
generations. Still nothing that is about one endpoint is seen on another: a docket on which all
other endpoints are blanked out comes to the same for the one that is left
(`Docket.endpoint_isolated`). Only two things could carry over, and both need a token that does not
belong where it is used: a push on the endpoint that names a request for another one, and word from
another endpoint that a request for this one cannot be served. -/

namespace ContextBroker

namespace Docket

/-- The endpoint that a line is about. The timeout of a request is about what the request is
    about. -/
def Line.endpoint? (docket : Docket) : Line → Option String
  | task _ x => x.endpoint?
  | elapsed _ m =>
    match docket[m]? with
    | some (task _ (.getContext _ _ e _)) => some e
    | _ => none
  | deserted | blank => none

/-- The docket with every line blanked out that is about another endpoint than `e`. -/
def within (docket : Docket) (e : String) : Docket :=
  docket.map fun line => if (line.endpoint? docket).all (· = e) then line else .blank

end Docket

open Docket

/-- Everything on the endpoint `e`. -/
def View.on (e : String) : View where
  endpoint e' := e' = e
  request _ e' := e' = e
  blurred _ := False
  sees _ _ h := h

namespace View

variable {e : String} {docket : Docket} {d : Desk} {line : Line}

/-- A line about the endpoint, or about none, is in view. -/
theorem on_admits (hline : (line.endpoint? docket).all (· = e) = true)
    (hset : ∀ around i payload policy t ticket r,
      line = .task around (.setState i payload policy (some t) ticket) → i.endpoint = e →
      d.worker.requests.get? t = some r → r.endpoint = e)
    (huntimed : ∀ around t g, line ≠ .task around (.timeout t g)) : (on e).Admits d line where
  endpoint around task e' htask he' := by
    subst htask
    have he : e' = e := by simpa [Line.endpoint?, he'] using hline
    exact he
  request around t q e' timeout htask := by
    subst htask
    have he : e' = e := by simpa [Line.endpoint?, Task.endpoint?] using hline
    exact he
  answer around i payload policy t ticket r htask hr := by
    refine hset around i payload policy t ticket r htask ?_ hr
    subst htask
    simpa [Line.endpoint?, Task.endpoint?] using hline
  untimed := huntimed

/-- A line about another endpoint can be left out. -/
theorem on_skips (hline : (line.endpoint? docket).all (· = e) = false)
    (hunreachable : ∀ around i t r, line = .task around (.unavailable i t true) →
      d.worker.requests.get? t = some r → r.endpoint = e → i.endpoint = e)
    (huntimed : ∀ around t g, line ≠ .task around (.timeout t g)) {opened : Register}
    (hopened : Registers (docket.within e) opened) : (on e).Skips d opened line where
  request around t q e' timeout htask := by
    subst htask
    have he : e' ≠ e := by simpa [Line.endpoint?, Task.endpoint?] using hline
    exact ⟨he, .inl he⟩
  endpoint around task e' htask _ he' := by
    subst htask
    have he : e' ≠ e := by simpa [Line.endpoint?, he'] using hline
    exact he
  unreachable around i t r htask hr hv := by
    have he := hunreachable around i t r htask hr hv
    subst htask
    simp [Line.endpoint?, Task.endpoint?, he] at hline
  elapsed around m helapsed := by
    subst helapsed
    cases hm : opened m with
    | none => rfl
    | some x =>
      -- The line that it names is about another endpoint, and so it was blanked out as well.
      obtain ⟨line', hline', hrequest⟩ := hopened m x hm
      rw [within, List.getElem?_map] at hline'
      simp only [Line.endpoint?] at hline
      split at hline
      · rename_i around' t q e' timeout hget
        rw [hget] at hline'
        simp only [Line.endpoint?, Task.endpoint?, Option.map_some, hline, Bool.false_eq_true,
          if_false, Option.some.injEq] at hline'
        subst hline'
        exact absurd rfl hrequest
      · simp at hline
  untimed := huntimed
  goesOn turn hl := by
    cases line with
    | task around task =>
      cases task with
      | shutdown ticket => simp [Line.endpoint?, Task.endpoint?] at hline
      | _ =>
        obtain rfl := Option.some.inj hl
        rfl
    | elapsed around m =>
      obtain ⟨x, -, rfl⟩ := Option.map_eq_some_iff.1 hl
      rfl
    | deserted => simp [Line.endpoint?] at hline
    | blank => simp [Line.turn?] at hl

end View

namespace Docket

/-- **Endpoints are isolated.** Take a docket on which timeouts are told by their lines. Suppose
    that no push on the endpoint `e` names the token of a request that is open for another endpoint,
    and that no word that an endpoint is unreachable comes from another endpoint with the token of a
    request that is open for `e`. With all lines about other endpoints blanked out, whatever is done
    to the allocator between the lines, the docket can be worked through as well. Line by line, what
    is bound on `e` is the same, fresh or stale, requests for `e` are delivered the same and others
    nothing, and whoever changes something or reads is answered the same. -/
theorem endpoint_isolated {others : Nat → TokenAllocator → TokenAllocator} {docket : Docket}
    {pages : List Page} (h : work others docket = .ok pages) (e : String)
    (hset : ∀ (m : Nat) (p : Page) around i payload policy t ticket r, pages[m]? = some p →
      docket[m]? = some (Line.task around (.setState i payload policy (some t) ticket)) →
      i.endpoint = e → p.before.worker.requests.get? t = some r → r.endpoint = e)
    (hunreachable : ∀ (m : Nat) (p : Page) around i t r, pages[m]? = some p →
      docket[m]? = some (Line.task around (.unavailable i t true)) →
      p.before.worker.requests.get? t = some r → r.endpoint = e → i.endpoint = e)
    (huntimed : ∀ (m : Nat) around t g, docket[m]? ≠ some (Line.task around (.timeout t g)))
    (others' : Nat → TokenAllocator → TokenAllocator) :
    ∃ pages', work others' (docket.within e) = .ok pages' ∧ pages'.length = pages.length ∧
      ∀ (m : Nat) (p p' : Page) (line : Line), pages[m]? = some p → pages'[m]? = some p' →
        docket[m]? = some line →
        p'.after.worker.store.bindings e = p.after.worker.store.bindings e ∧
        (∀ t, p.before.Concerns line t e → deliveries t p'.effects = deliveries t p.effects) ∧
        (∀ t, ¬ p.before.Concerns line t e → deliveries t p'.effects = []) ∧
        ∀ around task, line = .task around task → (docket.within e)[m]? = some line →
          (task.isChange = true ∨ ∃ e ticket, task = .read e ticket) →
          replied p'.effects = replied p.effects := by
  have hbeside := (View.on e).beside h (docket.within e) (by simp [within]) ?_ others'
  · obtain ⟨pages', hpages', hlength, hall⟩ := hbeside
    refine ⟨pages', hpages', hlength, fun m p p' line hp hp' hline => ?_⟩
    obtain ⟨hreflects, hstore, hreplies⟩ := hall m p p' line hp hp' hline
    refine ⟨(hstore.bindings rfl not_false).symm, fun t hc => hreflects.delivers t e hc rfl,
      fun t hnot => hreflects.silent t ?_, fun around task htask hsame hcall => ?_⟩
    · rintro e' hc rfl
      exact hnot hc
    · refine hreplies hsame around task htask (hcall.imp_right ?_)
      rintro ⟨e', ticket, hr⟩
      exact ⟨e', ticket, hr, not_false⟩
  · intro m p line line' hp hline hline'
    rw [within, List.getElem?_map, hline, Option.map_some, Option.some.injEq] at hline'
    subst hline'
    by_cases he : (line.endpoint? docket).all (· = e) = true
    · rw [if_pos he]
      refine .kept (View.on_admits he ?_ ?_)
      · rintro around i payload policy t ticket r rfl
        exact hset m p around i payload policy t ticket r hp hline
      · rintro around t g rfl
        exact huntimed m around t g hline
    · rw [if_neg he]
      refine .blanked fun opened => View.on_skips (by simpa using he) ?_ ?_
      · rintro around i t r rfl
        exact hunreachable m p around i t r hp hline
      · rintro around t g rfl
        exact huntimed m around t g hline

/-- A request at home is answered by a push that names it, while one at the office times out. With
    the office blanked out the answer is the same. -/
theorem endpoint_isolated_home :
    let around : Surroundings := ⟨default, fun _ => true⟩
    let light : Identity := ⟨"light", "power", none, "home"⟩
    let lamp : Identity := ⟨"light", "power", none, "office"⟩
    let docket : Docket := [.task around (.register light 7 (.push .sometimes) 0),
      .task around (.register lamp 8 (.push .sometimes) 1),
      .task around (.getContext 1 3 "home" 50), .task around (.getContext 2 4 "office" 50),
      .task around (.setState light "on" .sometimes (some 1) 2), .elapsed around 3]
    ∃ pages pages' p p', work (fun _ => id) docket = .ok pages ∧
      work (fun _ => id) (docket.within "home") = .ok pages' ∧ pages[4]? = some p ∧
      pages'[4]? = some p' ∧ (deliveries 1 p.effects).length = 1 ∧
      deliveries 1 p'.effects = deliveries 1 p.effects ∧
      p'.after.worker.store.bindings "home" = p.after.worker.store.bindings "home" := by
  intro around light lamp docket
  have hrun : ((work (fun _ => id) docket).toOption.bind fun pages => pages[4]?.bind fun p =>
      (p.before.worker.requests.get? 1).map fun r =>
        (r.endpoint, (deliveries 1 p.effects).length)) = some ("home", 1) := by decide +kernel
  simp only [Option.bind_eq_some_iff, Option.map_eq_some_iff, Prod.mk.injEq] at hrun
  obtain ⟨pages, hpages, p, hp, r, hr, hend, hone⟩ := hrun
  have hwork := work_of_toOption hpages
  have hset : ∀ (m : Nat) (p : Page) around i payload policy t ticket r, pages[m]? = some p →
      docket[m]? = some (Line.task around (.setState i payload policy (some t) ticket)) →
      i.endpoint = "home" → p.before.worker.requests.get? t = some r → r.endpoint = "home" := by
    intro m p' around i payload policy t ticket r' hp' hm _ hr'
    rcases m with _ | _ | _ | _ | _ | _ | m <;> simp [docket] at hm
    obtain rfl := Option.some.inj (hp.symm.trans hp')
    obtain ⟨-, -, -, -, rfl, -⟩ := hm
    obtain rfl := Option.some.inj (hr.symm.trans hr')
    exact hend
  have hunreachable : ∀ (m : Nat) (p : Page) around i t r, pages[m]? = some p →
      docket[m]? = some (Line.task around (.unavailable i t true)) →
      p.before.worker.requests.get? t = some r → r.endpoint = "home" → i.endpoint = "home" := by
    intro m p around i t r _ hm
    simpa [docket] using List.mem_of_getElem? hm
  have huntimed : ∀ (m : Nat) around t g,
      docket[m]? ≠ some (Line.task around (.timeout t g)) := by
    intro m around t g hm
    simpa [docket] using List.mem_of_getElem? hm
  obtain ⟨pages', hwork', hlength, hall⟩ :=
    endpoint_isolated hwork "home" hset hunreachable huntimed (fun _ => id)
  obtain ⟨hlt, -⟩ := List.getElem?_eq_some_iff.1 hp
  have hp' := List.getElem?_eq_getElem (hlength.symm ▸ hlt)
  obtain ⟨hbindings, hdelivers, -, -⟩ := hall 4 p _ _ hp hp' rfl
  exact ⟨pages, pages', p, _, hwork, hwork', hp, hp', hone, hdelivers 1 (.inl ⟨r, hr, hend⟩),
    hbindings⟩

end Docket

end ContextBroker
