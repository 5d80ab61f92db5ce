import ContextBroker.Proofs.Docket.Mirror

set_option autoImplicit false

/-! # Requests do not interfere

What a request does to the worker is never seen by another request, nor by those who register
capabilities and push states: a docket on which the request is blanked out comes to the same for all
of them (`Docket.without_request`). The request does leave traces. It takes a generation and a
timer, it is counted, and it leaves what it polled stale; but a generation only tells requests
apart, and what takes part in the context of a request is never asked whether it is fresh. -/

namespace ContextBroker

open Docket

/-- Everything but the request with the token `u` for the endpoint `e`, and but for what that
    request leaves stale. -/
def View.without (u : Token) (e : String) : View where
  endpoint _ := True
  request t _ := t ≠ u
  blurred e' := e' = e
  sees _ _ _ := trivial

namespace View

variable {v : View} {u : Token} {e : String}

/-- A line is in view that neither is a request with the token `u` nor names it in a push. -/
theorem without_admits {d : Desk} {line : Line}
    (hget : ∀ around q e timeout, line ≠ .task around (.getContext u q e timeout))
    (hset : ∀ around i payload policy ticket,
      line ≠ .task around (.setState i payload policy (some u) ticket))
    (huntimed : ∀ around t g, line ≠ .task around (.timeout t g)) :
    (without u e).Admits d line where
  endpoint _ _ _ _ _ := trivial
  request around t q e timeout hline := by
    rintro rfl
    exact hget around q e timeout hline
  answer around i payload policy t ticket r hline _ := by
    rintro rfl
    exact hset around i payload policy ticket hline
  untimed := huntimed

/-- The request itself can be left out. -/
theorem without_skips (d : Desk) (opened : Register) (around : Surroundings) (q : Requester)
    (timeout : Nat) :
    (without u e).Skips d opened (.task around (.getContext u q e timeout)) where
  request around' t q' e' timeout' hline := by
    obtain ⟨-, hline⟩ := Line.task.inj hline
    obtain ⟨rfl, -, rfl, -⟩ := Task.getContext.inj hline
    exact ⟨fun h => h rfl, .inr rfl⟩
  endpoint around' task e' hline hno := by
    obtain ⟨-, rfl⟩ := Line.task.inj hline
    cases hno
  unreachable around' i t r hline := by
    obtain ⟨-, hline⟩ := Line.task.inj hline
    cases hline
  elapsed around' m hline := by cases hline
  untimed around' t g hline := by
    obtain ⟨-, hline⟩ := Line.task.inj hline
    cases hline
  goesOn turn hl := by
    obtain rfl := Option.some.inj hl
    rfl

end View

namespace Docket

/-- **Requests do not interfere.** Take a docket on which line `n` is a request with the token `u`,
    the only one with it, on which no push names this token and timeouts are told by their lines.
    With line `n` blanked out, whatever is done to the allocator between the lines, the docket can
    be worked through as well. Line by line, what is delivered with other tokens is the same, every
    change gets the same reply, and the same is bound, with the same kinds and states; only what is
    refreshed sometimes on the endpoint of the request may be fresh in one run and stale in the
    other. -/
theorem without_request {others : Nat → TokenAllocator → TokenAllocator} {docket : Docket}
    {pages : List Page} (h : work others docket = .ok pages) {n : Nat} {around : Surroundings}
    {u : Token} {q : Requester} {e : String} {timeout : Nat}
    (hget : docket[n]? = some (Line.task around (.getContext u q e timeout)))
    (honly : ∀ (m : Nat) around q e timeout,
      docket[m]? = some (Line.task around (.getContext u q e timeout)) → m = n)
    (hset : ∀ (m : Nat) around i payload policy ticket,
      docket[m]? ≠ some (Line.task around (.setState i payload policy (some u) ticket)))
    (huntimed : ∀ (m : Nat) around t g, docket[m]? ≠ some (Line.task around (.timeout t g)))
    (others' : Nat → TokenAllocator → TokenAllocator) :
    ∃ pages', work others' (docket.set n .blank) = .ok pages' ∧ pages'.length = pages.length ∧
      ∀ (m : Nat) (p p' : Page), pages[m]? = some p → pages'[m]? = some p' →
        (∀ t, t ≠ u → deliveries t p'.effects = deliveries t p.effects) ∧
        (∀ around task, docket[m]? = some (Line.task around task) → task.isChange = true →
          replied p'.effects = replied p.effects) ∧
        ∀ i, Option.Rel (fun (b b' : Binding) => b.provider = b'.provider ∧ b.kind = b'.kind ∧
            b.state = b'.state ∧
            (b.fresh = b'.fresh ∨ i.endpoint = e ∧ b.kind = .push .sometimes))
          (p.after.worker.store.get? i) (p'.after.worker.store.get? i) := by
  have hbeside := (View.without u e).beside h (docket.set n .blank) (by simp) ?_ others'
  · obtain ⟨pages', hpages', hlength, hall⟩ := hbeside
    refine ⟨pages', hpages', hlength, fun m p p' hp hp' => ?_⟩
    obtain ⟨line, hline, htake⟩ := work_take h hp
    obtain ⟨hreflects, hstore, hreplies⟩ := hall m p p' line hp hp' hline
    refine ⟨fun t ht => ?_, fun around task htask hchange => ?_, fun i => ?_⟩
    · by_cases hc : ∃ e, p.before.Concerns line t e
      · obtain ⟨e, hc⟩ := hc
        exact hreflects.delivers t e hc ht
      · have hnot : ∀ e, ¬ p.before.Concerns line t e := fun e h => hc ⟨e, h⟩
        rw [(Desk.takes htake).deliveries_eq_nil hnot,
          hreflects.silent t fun e h => absurd h (hnot e)]
    · obtain rfl := Option.some.inj (hline.symm.trans htask)
      refine hreplies ?_ around task rfl (.inl hchange)
      rw [List.getElem?_set_ne, hline]
      -- The request is no change.
      rintro rfl
      obtain ⟨-, rfl⟩ := Line.task.inj (Option.some.inj (hline.symm.trans hget))
      cases hchange
    · rcases hstore.get?_cases (i := i) trivial with ⟨hs, hs'⟩ | ⟨b, b', hs, hs', hb⟩
      · rw [hs, hs']
        exact .none
      · rw [hs, hs']
        exact .some ⟨hb.provider, hb.kind, hb.state, hb.fresh⟩
  · intro m p line line' hp hline hline'
    by_cases hm : n = m
    · subst hm
      obtain rfl := Option.some.inj (hget.symm.trans hline)
      obtain ⟨hlt, -⟩ := List.getElem?_eq_some_iff.1 hget
      rw [List.getElem?_set_self hlt] at hline'
      obtain rfl := Option.some.inj hline'
      exact .blanked fun opened _ => View.without_skips _ opened around q timeout
    · rw [List.getElem?_set_ne hm, hline] at hline'
      obtain rfl := Option.some.inj hline'
      refine .kept (View.without_admits ?_ ?_ ?_)
      · rintro around' q' e' timeout' rfl
        exact hm (honly m around' q' e' timeout' hline).symm
      · rintro around' i payload policy ticket rfl
        exact hset m around' i payload policy ticket hline
      · rintro around' t g rfl
        exact huntimed m around' t g hline

/-- Of two requests that poll the same capability one is answered and the other one times out.
    Without the second the first is answered just the same. -/
theorem without_request_timed_out :
    let around : Surroundings := ⟨default, fun _ => true⟩
    let light : Identity := ⟨"light", "power", none, "home"⟩
    let docket : Docket := [.task around (.register light 7 (.push .sometimes) 0),
      .task around (.getContext 1 3 "home" 50), .task around (.getContext 2 4 "home" 50),
      .task around (.respond light default 2), .elapsed around 1]
    ∃ pages pages' p p', work (fun _ => id) docket = .ok pages ∧
      work (fun _ => id) (docket.set 1 .blank) = .ok pages' ∧ pages[3]? = some p ∧
      pages'[3]? = some p' ∧ (deliveries 2 p.effects).length = 1 ∧
      deliveries 2 p'.effects = deliveries 2 p.effects := by
  intro around light docket
  have hrun : ((work (fun _ => id) docket).toOption.bind fun pages => pages[3]?.map fun p =>
      (deliveries 2 p.effects).length) = some 1 := by decide +kernel
  simp only [Option.bind_eq_some_iff, Option.map_eq_some_iff] at hrun
  obtain ⟨pages, hpages, p, hp, hone⟩ := hrun
  have hwork : work (fun _ => id) docket = .ok pages := work_of_toOption hpages
  have honly : ∀ (m : Nat) around q e timeout,
      docket[m]? = some (Line.task around (.getContext 1 q e timeout)) → m = 1 := by
    intro m around q e timeout hm
    rcases m with _ | _ | _ | _ | _ | m <;> simp [docket] at hm ⊢
  have hset : ∀ (m : Nat) around i payload policy ticket,
      docket[m]? ≠ some (Line.task around (.setState i payload policy (some 1) ticket)) := by
    intro m around i payload policy ticket hm
    simpa [docket] using List.mem_of_getElem? hm
  have huntimed : ∀ (m : Nat) around t g,
      docket[m]? ≠ some (Line.task around (.timeout t g)) := by
    intro m around t g hm
    simpa [docket] using List.mem_of_getElem? hm
  obtain ⟨pages', hwork', hlength, hall⟩ :=
    without_request hwork (n := 1) rfl honly hset huntimed (fun _ => id)
  obtain ⟨hlt, -⟩ := List.getElem?_eq_some_iff.1 hp
  have hp' := List.getElem?_eq_getElem (hlength.symm ▸ hlt)
  exact ⟨pages, pages', p, _, hwork, hwork', hp, hp', hone, (hall 3 p _ hp hp').1 2 (by decide)⟩

end Docket

end ContextBroker
