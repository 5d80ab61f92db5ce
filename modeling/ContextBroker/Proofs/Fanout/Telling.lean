import ContextBroker.Proofs.Fanout.Asking

set_option autoImplicit false

/-! # Announcements tell each observer once

An observer that is told reacts before anybody else is told: it adds and removes observers and
announces further changes, whose observers react in turn. Whatever they do, the lines that a reaction
adds to the trace are done in one go (`Trail`), by induction on how deep announcements are nested,
and inside that on the observers that are told and on the reactions of each. So every announcement
that is asked for tells those, in order and once each, who were registered as it began, and the
announcements that observers make meanwhile are over before it goes on (`tells_each_once`). -/

namespace ContextBroker

namespace Fanout

variable {f f' f'' : Fanout} {call depth : Nat} {marks marks' : List Mark} {doing : Doing}
  {plan : Plan} {r : Reaction}

/-- Does `reactions` one after the other, and tells what came of each. -/
def reactAll (plan : Plan) : Fanout → List Reaction → Fanout × List Reaction.Result
  | f, [] => (f, [])
  | f, r :: reactions =>
    let next := f.react plan r
    let rest := reactAll plan next.1 reactions
    (rest.1, next.2 :: rest.2)

/-! ## What every line keeps -/

/-- A fanout whose hub and whose log keep to the trace. -/
structure Sound (f : Fanout) : Prop where
  listed : Listed f.trace f.hub
  kept (before : List Mark) (m : Mark) (after : List Mark) : f.trace = before ++ m :: after →
    Listed (before ++ [m]) m.hub
  logged : f.log = f.trace.filterMap (·.act.entry?)
  /-- No announcement was refused as long as one was left. -/
  unspent (m : Mark) : m ∈ f.trace → ∀ a r, m.act = .answered a r .spent → f.left = 0

namespace Sound

theorem start (left : Nat) : Sound { left } where
  listed := Listed.start
  kept before m after hmarks := by simp at hmarks
  logged := rfl
  unspent m hm := by simp at hm

/-- One line more in the trace. -/
theorem next (h : Sound f) {act : Act} (htrace : f'.trace = f.trace ++ [⟨act, f'.hub⟩])
    (hlog : f'.log = f.log ++ act.entry?.toList)
    (hlisted : Listed (f.trace ++ [⟨act, f'.hub⟩]) f'.hub) (hleft : f.left = 0 → f'.left = 0)
    (hspent : ∀ a r, act = .answered a r .spent → f'.left = 0) : Sound f' where
  listed := htrace ▸ hlisted
  kept before m after hmarks := by
    rw [htrace] at hmarks
    rcases append_cons_eq_concat hmarks.symm with ⟨-, rfl, rfl⟩ | ⟨after, -, hmarks⟩
    · exact hlisted
    · exact h.kept before m after hmarks
  logged := by
    rw [hlog, htrace, List.filterMap_append, h.logged]
    cases hentry : act.entry? <;> simp [hentry]
  unspent m hm a r hact := by
    rw [htrace] at hm
    rcases List.mem_append.1 hm with hm | hm
    · exact hleft (h.unspent m hm a r hact)
    · obtain rfl := List.mem_singleton.1 hm
      exact hspent a r hact

/-- The log and the trace tell the same of who was told what. -/
theorem heard (h : Sound f) :
    f.log.filterMap Entry.told? = f.trace.filterMap (·.act.told?) := by
  rw [h.logged, List.filterMap_filterMap]
  refine List.filterMap_congr fun m _ => ?_
  cases m.act with
  | answered a r result => cases a <;> rfl
  | _ => rfl

theorem spent_notMem_log (h : Sound f) (hleft : f.left ≠ 0) (o : Observer) (r : Reaction) :
    .reacted o r .spent ∉ f.log := by
  rw [h.logged]
  intro hmem
  obtain ⟨m, hm, hentry⟩ := List.mem_filterMap.1 hmem
  cases hact : m.act with
  | answered a r' result =>
    cases a with
    | holder => simp [hact, Act.entry?] at hentry
    | told telling o' =>
      obtain ⟨rfl, rfl, rfl⟩ : o' = o ∧ r' = r ∧ result = .spent := by
        simpa [hact, Act.entry?] using hentry
      exact hleft (h.unspent m hm _ _ hact)
  | _ => simp [hact, Act.entry?] at hentry

end Sound

/-- What began before and is not over: the announcement that tells, the telling that is answered, and
    the reaction that was just asked for. -/
structure Frame where
  call : Option Nat := none
  telling : Option Nat := none
  pending : Option Reaction := none

/-- From `f` it goes on to `f'` in one go, adding `marks` to the trace. -/
structure Trail (plan : Plan) (frame : Frame) (f : Fanout) (marks : List Mark) (f' : Fanout) :
    Prop where
  trace : f'.trace = f.trace ++ marks
  segment : Segment frame.call f.calls f'.calls marks
  heeded : Heeded plan frame.telling f.told f'.told marks
  answered : Answered frame.pending marks
  granted : Granted frame.pending f.calls f'.calls f'.left marks
  balance : f'.calls + f'.left = f.calls + f.left
  sound : Sound f → Sound f'

namespace Trail

variable {frame : Frame}

/-- Nothing is done. -/
theorem stay (f : Fanout) (hcall : ∀ call, frame.call = some call → call ≤ f.calls)
    (htelling : ∀ telling, frame.telling = some telling → telling ≤ f.told)
    (hpending : ∀ n, frame.pending = some (.announce n) → f.left = 0) : Trail plan frame f [] f :=
  ⟨(List.append_nil _).symm, .nil hcall, .nil htelling, .nil, .nil hpending, rfl, id⟩

theorem trans (h : Trail plan frame f marks f')
    (h' : Trail plan { frame with pending := none } f' marks' f'') :
    Trail plan frame f (marks ++ marks') f'' where
  trace := by rw [h'.trace, h.trace, List.append_assoc]
  segment := h.segment.append h'.segment
  heeded := h.heeded.append h'.heeded
  answered := h.answered.append h'.answered
  granted := h.granted.append h'.granted h'.balance
  balance := h'.balance.trans h.balance
  sound := h'.sound ∘ h.sound

theorem left_le (h : Trail plan frame f marks f') : f'.left ≤ f.left := by
  have hcalls := h.segment.le
  have hbalance := h.balance
  omega

theorem told_le (h : Trail plan frame f marks f') : f.told ≤ f'.told := by
  rw [h.heeded.count]
  exact Nat.le_add_right _ _

/-- The observers change. -/
theorem change (f : Fanout) (hub : Hub) {act : Act} (hact : act.reaction? = some r)
    (hr : r.notice? = none)
    (hlisted : Listed f.trace f.hub → Listed (f.trace ++ [⟨act, hub⟩]) hub) :
    Trail plan { pending := some r } f [⟨act, hub⟩] ({ f with hub }.mark act) := by
  have hquiet : act.call? = none ∧ act.telling? = none ∧ act.told? = none ∧ act.wanted? = none ∧
      act.begun? = none ∧ (∀ a r, act ≠ .asked a r) ∧ ∀ a r, act ≠ .answered a r .spent := by
    cases act with
    | added o | removed o => exact ⟨rfl, rfl, rfl, rfl, rfl, by simp, by simp⟩
    | began call n =>
      obtain rfl := Option.some.inj hact
      cases hr
    | _ => cases hact
  obtain ⟨hcall, htelling, htold, hwanted, hbegun, hasked, hspent⟩ := hquiet
  refine ⟨rfl, .singleton (by simp) (by simp [hcall]),
    .singleton (by simp) (by simp [htelling]) htold, .singleton hasked (by simp [hact]),
    .singleton hwanted hbegun ?_, rfl, fun h => ?_⟩
  · intro n hn
    obtain rfl := Option.some.inj hn
    cases hr
  · exact h.next rfl rfl (hlisted h.listed) id fun a r h => absurd h (hspent a r)

/-- What is asked for is done and answered. -/
theorem ask {a : Asker} {result : Reaction.Result}
    (h : Trail plan { pending := some r } (f.mark (.asked a r)) marks f')
    (ha : a.telling ≤ f.told) (hdid : Did f.hub r marks result)
    (hspent : result = .spent → f'.left = 0) :
    Trail plan { telling := some a.telling } f
      (⟨.asked a r, f.hub⟩ :: marks ++ [⟨.answered a r result, f'.hub⟩])
      (f'.mark (.answered a r result)) where
  trace := by
    show f'.trace ++ _ = _
    rw [h.trace]
    simp [mark]
  segment := (Segment.singleton (by simp) (by simp [Act.call?])).append
    (h.segment.append (.singleton (by simp) (by simp [Act.call?])))
  heeded := by
    have htold : f.told ≤ f'.told := h.told_le
    refine (Heeded.singleton ?_ (by simp [Act.telling?]) rfl).append
      ((h.heeded.within ha).append (.singleton ?_ (by simp [Act.telling?]) rfl))
    · simpa using ha
    · simpa using Nat.le_trans ha htold
  answered := h.answered.ask rfl hdid rfl
  granted := (h.granted.ask rfl).append (.singleton rfl rfl (by simp)) rfl
  balance := h.balance
  sound hf := by
    have hasked : Sound (f.mark (.asked a r)) :=
      hf.next rfl rfl (hf.listed.keep (by simp) (by simp)) id (by simp)
    have hdone := h.sound hasked
    refine hdone.next rfl rfl (hdone.listed.keep (by simp) (by simp)) id fun a' r' hact => ?_
    exact hspent (Act.answered.inj hact).2.2

end Trail

/-! ## What is done in one go -/

/-- Whatever is done, it is done in one go, and no announcement is refused as long as one is left. -/
def Doing.Whole (plan : Plan) (depth : Nat) (doing : Doing) : Prop :=
  ∀ f r, f.left ≤ depth → ∃ marks, Trail plan { pending := some r } f marks (doing f r).1 ∧
    Did f.hub r marks (doing f r).2 ∧ ((doing f r).2 = .spent → (doing f r).1.left = 0)

theorem trail_ask (hdoing : doing.Whole plan depth) (a : Asker) (r : Reaction)
    (hleft : f.left ≤ depth) (ha : a.telling ≤ f.told) :
    ∃ marks, Trail plan { telling := some a.telling } f marks (ask doing a f r).1 ∧
      (marks.map Mark.act).filter (·.telling? = some a.telling) =
        dialogue a [r] [(ask doing a f r).2] := by
  obtain ⟨marks, htrail, hdid, hspent⟩ := hdoing (f.mark (.asked a r)) r hleft
  refine ⟨_, htrail.ask ha hdid hspent, ?_⟩
  rw [List.map_append, List.map_cons, List.filter_append, List.filter_cons,
    htrail.heeded.filter_eq_nil ha]
  simp [Act.telling?, dialogue, ask]

theorem trail_perform (hdoing : doing.Whole plan depth) (a : Asker) (hleft : f.left ≤ depth)
    (ha : a.telling ≤ f.told) (reactions : List Reaction) :
    ∃ marks results,
      Trail plan { telling := some a.telling } f marks (perform doing a f reactions) ∧
      results.length = reactions.length ∧
      (marks.map Mark.act).filter (·.telling? = some a.telling) = dialogue a reactions results := by
  induction reactions generalizing f with
  | nil => exact ⟨[], [], .stay f (by simp) (by simpa using ha) (by simp), rfl, rfl⟩
  | cons r reactions ih =>
    obtain ⟨marks, hr, hmarks⟩ := trail_ask hdoing a r hleft ha
    obtain ⟨marks', results, hrest, hlength, hmarks'⟩ :=
      ih (Nat.le_trans hr.left_le hleft) (Nat.le_trans ha hr.told_le)
    refine ⟨marks ++ marks', (ask doing a f r).2 :: results, hr.trans hrest, by simp [hlength], ?_⟩
    rw [List.map_append, List.filter_append, hmarks, hmarks']
    rfl

theorem trail_tell (hdoing : doing.Whole plan depth) (n : Notice) (o : Observer)
    (hleft : f.left ≤ depth) (hcall : call ≤ f.calls) :
    ∃ marks, Trail plan { call := some call } f marks (tell doing plan call n f o) ∧
      (marks.map Mark.act).filter (·.call? = some call) = [.told call o n] := by
  let told := { f with told := f.told + 1 }.mark (.told call o n)
  obtain ⟨marks, results, hreact, hlength, hmarks⟩ := trail_perform (f := told) hdoing
    (.told (f.told + 1) o) hleft (Nat.le_refl _) (plan (f.told + 1) o)
  have hquiet (m : Mark) (hm : m ∈ marks) : m.act.call? ≠ some call :=
    hreact.segment.call?_ne hm (by simp) fun h => absurd h.1 (Nat.not_lt_of_le hcall)
  refine ⟨⟨.told call o n, f.hub⟩ :: marks, ⟨?_, ?_, ?_, ?_, ?_, hreact.balance, fun h => ?_⟩, ?_⟩
  · rw [tell, hreact.trace]
    simp [told, mark]
  · exact (Segment.singleton (by simpa using hcall) (by simp [Act.call?])).append
      (hreact.segment.within hcall)
  · exact hreact.heeded.tell rfl hlength hmarks hquiet
  · exact (Answered.singleton (by simp) (by simp [Act.reaction?])).append hreact.answered
  · exact (Granted.singleton rfl rfl (by simp)).append hreact.granted hreact.balance
  · exact hreact.sound (h.next rfl rfl (h.listed.keep (by simp) (by simp)) id (by simp))
  · rw [List.map_cons, List.filter_cons, hreact.segment.filter_eq_nil hcall]
    simp [Act.call?]

theorem trail_foldl_tell (hdoing : doing.Whole plan depth) (n : Notice) (hleft : f.left ≤ depth)
    (hcall : call ≤ f.calls) (os : List Observer) :
    ∃ marks, Trail plan { call := some call } f marks (os.foldl (tell doing plan call n) f) ∧
      (marks.map Mark.act).filter (·.call? = some call) = os.map (Act.told call · n) := by
  induction os generalizing f with
  | nil => exact ⟨[], .stay f (by simpa using hcall) (by simp) (by simp), rfl⟩
  | cons o os ih =>
    obtain ⟨marks, htold, hmarks⟩ := trail_tell hdoing n o hleft hcall
    obtain ⟨marks', hrest, hmarks'⟩ := ih (Nat.le_trans htold.left_le hleft)
      (Nat.le_trans hcall htold.segment.le)
    refine ⟨marks ++ marks', htold.trans hrest, ?_⟩
    rw [List.map_append, List.filter_append, hmarks, hmarks']
    rfl

/-- An announcement is over when all who were registered as it began have been told. -/
theorem trail_announce (hdoing : doing.Whole plan depth) (n : Notice) (hne : f.left ≠ 0)
    (hleft : f.left ≤ depth + 1) :
    ∃ marks, Trail plan { pending := some (.announce n) } f marks (announce doing plan f n) ∧
      Did f.hub (.announce n) marks .announced := by
  let began := { f with left := f.left - 1, calls := f.calls + 1 }.mark (.began (f.calls + 1) n)
  have hbegan (h : Sound f) : Sound began :=
    h.next rfl rfl (h.listed.keep (by simp) (by simp)) (fun hnone => absurd hnone hne) (by simp)
  have hleft' : began.left ≤ depth := Nat.sub_le_of_le_add hleft
  obtain ⟨marks, htold, hmarks⟩ :=
    trail_foldl_tell hdoing n hleft' (Nat.le_refl (f.calls + 1)) f.hub.observers
  have hannounce : announce doing plan f n =
      (f.hub.observers.foldl (tell doing plan (f.calls + 1) n) began).mark (.ended (f.calls + 1)) := rfl
  rw [hannounce]
  generalize f.hub.observers.foldl (tell doing plan (f.calls + 1) n) began = last at htold
  have hbalance : last.calls + last.left = f.calls + 1 + (f.left - 1) := htold.balance
  refine ⟨⟨.began (f.calls + 1) n, f.hub⟩ :: marks ++ [⟨.ended (f.calls + 1), last.hub⟩],
    ⟨?_, htold.segment.announce rfl rfl hmarks, ?_, ?_, ?_, ?_, fun h => ?_⟩, .announce ..⟩
  · show last.trace ++ _ = _
    rw [htold.trace]
    simp [began, mark]
  · exact (Heeded.singleton (by simp) (by simp [Act.telling?]) rfl).append
      (htold.heeded.append (.singleton (by simp) (by simp [Act.telling?]) rfl))
  · exact (Answered.singleton (by simp) (by simp [Act.reaction?])).append
      (htold.answered.append (.singleton (by simp) (by simp [Act.reaction?])))
  · exact (Granted.began rfl).append
      (htold.granted.append (.singleton rfl rfl (by simp)) rfl) hbalance
  · show last.calls + last.left = f.calls + f.left
    omega
  · have hlast := htold.sound (hbegan h)
    exact hlast.next rfl rfl (hlast.listed.keep (by simp) (by simp)) id (by simp)

/-- What is no announcement is done at once, however deep it is nested. -/
theorem whole_of_notice?_eq_none (f : Fanout) (depth : Nat) (hr : r.notice? = none) :
    ∃ marks, Trail plan { pending := some r } f marks (reactWithin plan depth f r).1 ∧
      Did f.hub r marks (reactWithin plan depth f r).2 ∧
      ((reactWithin plan depth f r).2 = .spent → (reactWithin plan depth f r).1.left = 0) := by
  cases r with
  | add o =>
    rw [reactWithin]
    exact ⟨_, .change f _ rfl rfl fun h => h.add rfl, .add o, by simp⟩
  | remove o =>
    rw [reactWithin]
    exact ⟨_, .change f _ rfl rfl fun h => h.remove rfl, .remove o, by simp⟩
  | count =>
    rw [reactWithin]
    exact ⟨_, .stay f (by simp) (by simp) (by simp), .count, by simp⟩
  | announce n => cases hr

/-- No announcement is nested deeper than there are announcements left. -/
theorem whole_reactWithin (plan : Plan) (depth : Nat) :
    (reactWithin plan depth).Whole plan depth := by
  induction depth with
  | zero =>
    intro f r hleft
    cases r with
    | add o | remove o | count => exact whole_of_notice?_eq_none f 0 rfl
    | announce n =>
      have hnone : f.left = 0 := Nat.le_zero.1 hleft
      exact ⟨[], .stay f (by simp) (by simp) fun _ _ => hnone, .refuse n, fun _ => hnone⟩
  | succ depth ih =>
    intro f r hleft
    cases r with
    | add o | remove o | count => exact whole_of_notice?_eq_none f (depth + 1) rfl
    | announce n =>
      rw [reactWithin]
      split
      · rename_i hnone
        exact ⟨[], .stay f (by simp) (by simp) fun _ _ => hnone, .refuse n, fun _ => hnone⟩
      · rename_i hne
        obtain ⟨marks, htrail, hdid⟩ := trail_announce ih n hne hleft
        exact ⟨marks, htrail, hdid, by simp⟩

theorem trail_reactAll (plan : Plan) (f : Fanout) (reactions : List Reaction) :
    ∃ marks, Trail plan { telling := some 0 } f marks (reactAll plan f reactions).1 ∧
      (reactAll plan f reactions).2.length = reactions.length ∧
      (marks.map Mark.act).filter (·.telling? = some 0) =
        dialogue .holder reactions (reactAll plan f reactions).2 := by
  induction reactions generalizing f with
  | nil => exact ⟨[], .stay f (by simp) (by simp) (by simp), rfl, rfl⟩
  | cons r reactions ih =>
    obtain ⟨marks, hr, hmarks⟩ :=
      trail_ask (whole_reactWithin plan f.left) .holder r (Nat.le_refl _) (Nat.zero_le _)
    obtain ⟨marks', hrest, hlength, hmarks'⟩ := ih (f.react plan r).1
    refine ⟨marks ++ marks', hr.trans hrest, by simp [reactAll, hlength], ?_⟩
    rw [List.map_append, List.filter_append, hmarks']
    exact congrArg (· ++ _) hmarks

/-- **Announcements tell each observer once.** Whatever observers do while they are told, from an
    empty hub and for any reactions:

    * each announcement is delivered, and nobody is told of anything but by an announcement; the log
      has these tellings in this order;
    * after every line the hub lists those who are registered, in the order in which they joined;
    * no announcement is refused as long as one is left;
    * the reactions are asked for one after the other, and so is in answer to each telling what the
      observer plans, before the announcement goes on; nothing else is asked for;
    * whatever is asked for is done at once, before it is answered, and nothing is done but what was
      just asked for;
    * the announcements that are asked for, whoever asks, begin in this order until none is left. -/
theorem tells_each_once (plan : Plan) (left : Nat) (reactions : List Reaction) :
    let (f, results) := reactAll plan { left } reactions
    (∀ before m after call n, f.trace = before ++ m :: after → m.act = .began call n →
      Delivered call n m.hub before after) ∧
    (∀ before m after call o n, f.trace = before ++ m :: after → m.act = .told call o n →
      ∃ m' ∈ before, m'.act = .began call n) ∧
    f.log.filterMap Entry.told? = f.trace.filterMap (·.act.told?) ∧
    (∀ before m after, f.trace = before ++ m :: after → Listed (before ++ [m]) m.hub) ∧
    Listed f.trace f.hub ∧ f.calls + f.left = left ∧
    (f.left ≠ 0 → .spent ∉ results ∧ ∀ o r, .reacted o r .spent ∉ f.log) ∧
    results.length = reactions.length ∧
    (f.trace.map Mark.act).filter (·.telling? = some 0) = dialogue .holder reactions results ∧
    (∀ before m after call o n, f.trace = before ++ m :: after → m.act = .told call o n →
      Heeds plan (tellings before + 1) call o before after) ∧
    (∀ m ∈ f.trace, ∀ telling, m.act.telling? = some telling → telling ≤ tellings f.trace) ∧
    (∀ before m after a r, f.trace = before ++ m :: after → m.act = .asked a r →
      ∃ doing m' rest result, after = doing ++ m' :: rest ∧ Did m.hub r doing result ∧
        m'.act = .answered a r result) ∧
    (∀ before m after r, f.trace = before ++ m :: after → m.act.reaction? = some r →
      ∃ front m' a, before = front ++ [m'] ∧ m'.act = .asked a r) ∧
    (∃ refused, f.trace.filterMap (·.act.wanted?) = f.trace.filterMap (·.act.begun?) ++ refused ∧
      (refused ≠ [] → f.left = 0)) ∧
    (f.trace.filterMap (·.act.begun?)).length = f.calls := by
  obtain ⟨marks, htrail, hlength, hmarks⟩ := trail_reactAll plan { left } reactions
  have hsound := htrail.sound (Sound.start left)
  obtain rfl : (reactAll plan { left } reactions).1.trace = marks := htrail.trace
  refine ⟨htrail.segment.delivered, ?_, hsound.heard, hsound.kept, hsound.listed, ?_, ?_, hlength,
    hmarks, ?_, ?_, htrail.answered.done, ?_, htrail.granted.order, ?_⟩
  · intro before m after call o n hmarks htold
    exact (htrail.segment.begun before m after call o n hmarks htold).resolve_left (by simp)
  · rw [htrail.balance, Nat.zero_add]
  · refine fun hleft => ⟨fun hspent => ?_, hsound.spent_notMem_log hleft⟩
    obtain ⟨r, hr⟩ := answered_mem_dialogue hlength hspent
    rw [← hmarks] at hr
    obtain ⟨m, hm, hact⟩ := List.mem_map.1 (List.mem_of_mem_filter hr)
    exact hleft (hsound.unspent m hm _ r hact)
  · intro before m after call o n hmarks htold
    have hheeds := htrail.heeded.heeds before m after call o n hmarks htold
    rwa [Nat.zero_add] at hheeds
  · intro m hm telling htelling
    have hcount := htrail.heeded.count.trans (Nat.zero_add _)
    rcases htrail.heeded.numbered m hm telling htelling with hown | hrange
    · obtain rfl := Option.some.inj hown
      exact Nat.zero_le _
    · omega
  · intro before m after r hmarks hm
    exact (htrail.answered.wanted before m after r hmarks hm).resolve_left (by simp)
  · rw [htrail.granted.count, Nat.zero_add]

/-- The first observer, told of `n`, removes the second, announces `n'` and adds a third. -/
example (n n' : Notice) :
    let plan : Plan := fun k _ => if k = 1 then [.remove 2, .announce n', .add 3] else []
    (reactAll plan { left := 2 } [.add 1, .add 2, .announce n]).1.log =
      [.told 1 n, .reacted 1 (.remove 2) (.removed true), .told 1 n',
        .reacted 1 (.announce n') .announced, .reacted 1 (.add 3) (.added 2), .told 2 n] := by
  cbv

end Fanout

end ContextBroker
