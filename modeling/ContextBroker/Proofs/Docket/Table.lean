import ContextBroker.Proofs.Docket
import ContextBroker.Proofs.Worker.Table

set_option autoImplicit false

/-! # Open requests along a docket

Whatever the lines of a docket say, the table of open requests is in order before and after every
line (`Desk.Orderly`), and each open request can be traced back to the line that it came from
(`Docket.open_request`). -/

namespace ContextBroker

open Docket

namespace Desk

/-- The worker's table is in order, and empty once the work has ended. -/
structure Orderly (d : Desk) : Prop where
  table : d.worker.Orderly
  ended (t : Token) : d.ended = true → d.worker.requests.get? t = none

variable {d d' : Desk} {n : Nat} {line : Line} {effects : List Effect}

/-- Every line keeps the table in order. -/
theorem Orderly.takes (h : d.Orderly) (ht : d.Takes n line d' effects) : d'.Orderly := by
  cases ht with
  | rejected tokens he =>
    cases line with
    | task around task =>
      refine ⟨(h.table.tokens tokens).reject task, fun t _ => ?_⟩
      rw [Line.reject, (Worker.drains_reject _ task).requests]
      exact h.ended t he
    | _ => exact ⟨h.table.tokens tokens, fun t _ => h.ended t he⟩
  | skipped tokens he hl => exact ⟨h.table.tokens tokens, fun t ht => h.ended t ht⟩
  | round tokens he turn hl w effects hx =>
    refine ⟨(h.table.tokens tokens).round hx, fun t ht => ?_⟩
    exact (hx.rules.requests t).trans (Turn.request?_of_isEnd ht _ _ t)

end Desk

namespace Docket

namespace Line

variable {line : Line} {opened : Register}

/-- A line on which there is nothing to do has no request. -/
theorem request?_eq_none (h : line.turn? opened = none) : line.request? = none := by
  cases line with
  | task around task => cases task <;> simp [turn?] at h
  | _ => rfl

theorem eq_of_turn? {around : Surroundings} {t : Token} {requester : Requester}
    {endpoint : String} {timeout : Nat}
    (h : line.turn? opened = some (.task around (.getContext t requester endpoint timeout))) :
    line = .task around (.getContext t requester endpoint timeout) := by
  cases line with
  | task around' task =>
    cases task with
    | shutdown ticket => simp [turn?] at h
    | _ =>
      obtain ⟨rfl, he⟩ := Turn.task.inj (Option.some.inj h)
      exact congrArg (task _) he
  | elapsed around' m =>
    obtain ⟨x, -, hx⟩ := Option.map_eq_some_iff.1 h
    simp at hx
  | deserted => simp [turn?] at h
  | blank => simp [turn?] at h

end Line

/-- Turning a line down leaves the open requests as they are. -/
theorem Line.requests_reject (line : Line) (w : Worker) :
    (line.reject w).1.requests = w.requests := by
  cases line with
  | task around task => exact (Worker.drains_reject w task).requests
  | _ => rfl

theorem Line.store_reject (line : Line) (w : Worker) : (line.reject w).1.store = w.store := by
  cases line with
  | task around task => exact (Worker.drains_reject w task).store
  | _ => rfl

variable {others : Nat → TokenAllocator → TokenAllocator} {docket : Docket} {pages : List Page}

/-- The open request `r` with the token `t` comes from the last line before line `n` with this
    token, and what was polled there is accounted for. -/
def Traced (docket : Docket) (pages : List Page) (n : Nat) (t : Token) (r : Request) : Prop :=
  ∃ m page around timeout, m < n ∧ pages[m]? = some page ∧
    docket[m]? = some (.task around (.getContext t r.requester r.endpoint timeout)) ∧
    (∀ k line requester, m < k → k < n → docket[k]? = some line →
      line.request? ≠ some (t, requester)) ∧
    r.generation = page.before.worker.generation + 1 ∧
    r.Accounts ((page.before.worker.store.scatter around.retrievable r.endpoint).2.map
      (·.identity))

/-- One more line after which the request is still open. -/
theorem Traced.progress {n : Nat} {t : Token} {r : Request} {line : Line}
    (h : Traced docket pages n t r) (hline : docket[n]? = some line)
    (hno : ∀ requester, line.request? ≠ some (t, requester)) (x : Round) :
    Traced docket pages (n + 1) t (x.progress t r) := by
  obtain ⟨m, page, around, timeout, hm, hpage, hopen, hlast, hgeneration, haccounts⟩ := h
  refine ⟨m, page, around, timeout, by omega, hpage, ?_, fun k line' requester hk hn hk' => ?_, ?_,
    ?_⟩
  · rw [x.requester_progress, x.endpoint_progress]
    exact hopen
  · rcases Nat.lt_succ_iff_lt_or_eq.1 hn with hn | rfl
    · exact hlast k line' requester hk hn hk'
    · obtain rfl := Option.some.inj (hline.symm.trans hk')
      exact hno requester
  · rw [x.generation_progress]
    exact hgeneration
  · rw [x.endpoint_progress]
    exact haccounts.progress

/-- Every line keeps each open request traced. -/
theorem traced_takes {n : Nat} {d d' : Desk} {effects : List Effect} {line : Line}
    (hpage : pages[n]? = some ⟨d, effects, d'⟩) (hline : docket[n]? = some line)
    (ht : d.Takes n line d' effects) (ho : d.Orderly)
    (h : ∀ t r, d.worker.requests.get? t = some r → Traced docket pages n t r)
    {t : Token} {r : Request} (hr : d'.worker.requests.get? t = some r) :
    Traced docket pages (n + 1) t r := by
  cases ht with
  | rejected tokens he =>
    rw [Line.requests_reject] at hr
    simp [ho.ended t he] at hr
  | skipped tokens he hl =>
    obtain ⟨m, page, around, timeout, hm, hpage, hopen, hlast, htraced⟩ := h t r hr
    refine ⟨m, page, around, timeout, by omega, hpage, hopen, fun k line' q hk hn hk' => ?_,
      htraced⟩
    rcases Nat.lt_succ_iff_lt_or_eq.1 hn with hn | rfl
    · exact hlast k line' q hk hn hk'
    · obtain rfl := Option.some.inj (hline.symm.trans hk')
      simp [Line.request?_eq_none hl]
  | round tokens he turn hl w effects hx =>
    rcases hx.open_after hr with ⟨r, hb, rfl, -⟩ | ⟨-, around, timeout, hturn, -, hr'⟩
    · -- The line has no request with the token of one that is open already.
      refine (h t r hb).progress hline (fun q hq => hx.not_mem_tokens hb ?_) _
      simp [Turn.tokens, Line.requests_turn? hl, hq]
    · have hturn : turn = _ := hturn
      rw [hturn] at hl
      refine ⟨n, _, around, timeout, by omega, hpage, ?_, fun k line' q hk hn => by omega, ?_, ?_⟩
      · rw [hline, Line.eq_of_turn? hl]
      · rw [hr']
      · rw [hr']
        exact .opened ..

/-- **What is true of an open request between any two lines.** It waits for something and has a
    timer. What was polled for it when it was opened, on the last line with its token, is now
    awaited, refreshed or unavailable, and never two of these. What it awaits is on its endpoint and
    bound. Its generation was given out, and to no other open request. -/
theorem open_request (h : work others docket = .ok pages) {n : Nat} {p : Page}
    (hp : pages[n]? = some p) {t : Token} {r : Request}
    (hr : p.after.worker.requests.get? t = some r) :
    (∃ i, i ∈ r.awaited) ∧ r.timer.isSome = true ∧ Traced docket pages (n + 1) t r ∧
    (∀ i, i ∈ r.awaited →
      i.endpoint = r.endpoint ∧ (p.after.worker.store.get? i).isSome = true) ∧
    r.generation ≤ p.after.worker.generation ∧
    ∀ u s, p.after.worker.requests.get? u = some s → s.generation = r.generation → u = t := by
  obtain ⟨-, ho, htraced⟩ := work_induct (P := fun n d => d.Orderly ∧
      ∀ t r, d.worker.requests.get? t = some r → Traced docket pages n t r) h
    ⟨⟨.start _, fun t _ => rfl⟩, fun t r hr => by simp at hr⟩
    (fun n p line hpage hline htake ⟨ho, htraced⟩ =>
      ⟨ho.takes (Desk.takes htake),
        fun t r => traced_takes hpage hline (Desk.takes htake) ho htraced⟩) hp
  obtain ⟨i, hi⟩ := ho.table.waits t r hr
  obtain ⟨id, hid, -⟩ := ho.table.timed t r hr
  exact ⟨⟨i, SortedSet.contains_iff_mem.1 hi⟩, by rw [hid]; rfl, htraced t r hr,
    fun i hi => ho.table.bound t r i hr (SortedSet.contains_iff_mem.2 hi),
    ho.table.numbered t r hr, fun u s hs he => ho.table.apart u t s r hs hr (.inl he)⟩

/-- A request that polled two capabilities, of which one has answered, waits for the other. -/
theorem open_request_half_answered :
    let around : Surroundings := ⟨default, fun _ => true⟩
    let light : Identity := ⟨"light", "power", none, "home"⟩
    let door : Identity := ⟨"door", "locked", none, "home"⟩
    let docket : Docket := [.task around (.register light 7 .pull 0),
      .task around (.register door 8 (.push .sometimes) 1),
      .task around (.getContext 1 3 "home" 50), .task around (.respond light default 1)]
    ∃ pages p r, work (fun _ => id) docket = .ok pages ∧ pages[3]? = some p ∧
      p.after.worker.requests.get? 1 = some r ∧ r.refreshed.toList = [light] ∧
      r.awaited.toList = [door] ∧ (p.after.worker.store.get? door).isSome = true ∧
      Traced docket pages 4 1 r := by
  intro around light door docket
  have hrun : ((work (fun _ => id) docket).toOption.bind fun pages => pages[3]?.bind fun p =>
      (p.after.worker.requests.get? 1).map fun r => (r.refreshed.toList, r.awaited.toList)) =
        some ([light], [door]) := by decide +kernel
  simp only [Option.bind_eq_some_iff, Option.map_eq_some_iff, Prod.mk.injEq] at hrun
  obtain ⟨pages, hpages, p, hp, r, hr, hrefreshed, hawaited⟩ := hrun
  have hwork := work_of_toOption hpages
  obtain ⟨-, -, htraced, hbound, -, -⟩ := open_request hwork hp hr
  have hdoor : door ∈ r.awaited := SortedSet.mem_toList.1 (by simp [hawaited])
  exact ⟨pages, p, r, hwork, hp, hr, hrefreshed, hawaited, (hbound door hdoor).2, htraced⟩

end Docket

end ContextBroker
