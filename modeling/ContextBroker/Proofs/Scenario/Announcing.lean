import ContextBroker.Proofs.Scenario.Hearing

set_option autoImplicit false

/-! # What observers do in a scenario

An `Announcing` leaves it open when observers are told and what they do. A scenario tells the next
observer when the script of the one before is done, with all that came of it. So what a scenario does
is one of the things that can happen among announcements (`Scenario.exists_announcing`): the broker
is the same, and observers are told of the same in the same order.

The announcements follow the scenario turn by turn. What a frame does is done amid the announcement
to which it belongs (`Scenario.Hears.turn_cons`), and what an observer does when it is told is done
amid the one that it is told of (`Scenario.Hears.turn_tell`). So what is known of that
(`Announcing.report_comes_first`) is known of the scripts of observers. -/

namespace ContextBroker

namespace Scenario

namespace Hears

variable {a : Announcing} {f : Marked} {todo : List Marked} {s s' : Scenario}
  {due : Opening → Nat → Prop} {now n : Nat}

/-- A frame is taken from the agenda that tells nobody. -/
theorem consume (h : Hears a (f :: todo) s) (hf : f.frame.telling? = none) :
    Hears a todo { s with agenda := todo.map (·.frame) } where
  mirrors := h.mirrors.keep h.mirrors.broker h.mirrors.underway rfl rfl
    fun _ => mem_countdowns_tail h.agenda
  manual := h.manual
  tellings := h.tellings
  agenda := rfl
  toTell n b hn := by
    have htoTell := h.toTell n b hn
    have hnone : f.tells? n = none := by simp [Marked.tells?, hf]
    rwa [List.filterMap_cons_none hnone] at htoTell
  announced g hg := h.announced g (List.mem_cons_of_mem _ hg)
  amid g hg := h.amid g (List.mem_cons_of_mem _ hg)
  told := h.told
  hushed := ⟨h.hushed.ready, h.hushed.asleep⟩

/-- A timeout elapses whose countdown is over. -/
theorem elapse (h : Hears a (f :: todo) s) {id : TimerId} {t : Token} {generation : Nat}
    (hf : f.frame = .elapse id t generation) :
    Amid f.amid a todo
      ({ s with agenda := todo.map Marked.frame }.runFrame (.elapse id t generation)) := by
  have hnone : f.frame.telling? = none := by rw [hf]; rfl
  have hamid := h.amid f List.mem_cons_self hnone
  have hrest := h.consume hnone
  simp only [runFrame, Timer.elapse?]
  by_cases harmed : s.timer.isArmed id = true
  · simp only [harmed, if_true]
    obtain ⟨hlog, hm⟩ := h.mirrors.elapse (h.agenda.trans (by rw [List.map_cons, hf])) harmed
    have hannounced : (a.history.apply (.elapse id)).announced = a.history.announced := by
      rw [History.announced, hlog, History.announced]
    let elapsed : Scenario := { s with
      agenda := todo.map (·.frame), timer := s.timer.cancel id
      broker := s.broker.elapse t generation }
    have hm : Mirrors (a.go f.amid (.elapse id)).history elapsed := hm
    have helapsed : Amid f.amid a todo elapsed := by
      refine ⟨[.elapse id], [], ?_, by simp⟩
      rw [List.map_singleton, Announcing.run_go hamid]
      exact hrest.keep hm (Announcing.announcements_go hannounced) rfl rfl rfl [] rfl (by simp)
        ⟨h.hushed.ready, h.hushed.asleep⟩
    exact helapsed.bind hamid fun h hamid => h.deeds hamid (.wake _)
  · simp only [harmed]
    exact ⟨[], [], hrest, by simp⟩

/-- **A frame is done amid the announcement to which it belongs.** -/
theorem turn_cons (h : Hears a (f :: todo) s) (hs : Sound due now n s)
    (hf : f.frame.telling? = none) (ht : s.turn? = some s') : Amid f.amid a todo s' := by
  have hamid := h.amid f List.mem_cons_self hf
  have hrest := h.consume hf
  have hagenda : s.agenda = f.frame :: todo.map (·.frame) := h.agenda
  unfold turn? at ht
  rw [hagenda] at ht
  obtain rfl := Option.some.inj ht
  cases hframe : f.frame with
  | tell observer notice =>
    rw [hframe] at hf
    cases hf
  | elapse id token generation => exact h.elapse hframe
  | perform step scene =>
    have hs := hs.consume hagenda fun _ => by rw [hframe]; rfl
    exact hrest.deeds hamid (.performFrame hs h.manual step scene)
  | resume step scene =>
    have hs := hs.consume hagenda fun _ => by rw [hframe]; rfl
    exact hrest.deeds hamid (.resumeFrame hs h.manual step scene)
  | deliver requester token outcome => exact hrest.deeds hamid (.deliverFrame _ _ _ _)
  | letGo => exact hrest.deeds hamid (.letGo _)
  | pull target token =>
    have hcalled := Deeds.callBack { s with agenda := todo.map (·.frame) } s.providers
      target.provider ⟨target.identity, token⟩
    have hcalled := hrest.deeds hamid (hcalled.tail (.around rfl rfl rfl rfl rfl rfl))
    refine hcalled.bind hamid fun h hamid => ?_
    refine h.stay hamid rfl rfl rfl ?_ [] rfl (by simp) (fun _ => id)
      ⟨h.hushed.ready, h.hushed.asleep⟩
    exact List.filterMap_append.trans (List.append_nil _)

/-- An observer who stands on the agenda is the next of those who were not told yet. -/
theorem next (h : Hears a (f :: todo) s) {n : Nat} (hamid : f.amid = some n) {b : Announcement}
    (hb : a.announcements[n]? = some b) {o : Observer} {notice : Notice}
    (hf : f.frame = .tell o notice) :
    notice = b.notice ∧ ∃ rest, b.observers.drop (a.heard n).length = o :: rest ∧
      todo.filterMap (·.tells? n) = rest.map (·, b.notice) := by
  have htoTell := h.toTell n b hb
  rw [List.filterMap_cons_some (by rw [Marked.tells?, if_pos hamid, hf, Frame.telling?])] at htoTell
  obtain ⟨o', rest, hdrop, ho, hrest⟩ := List.map_eq_cons_iff.1 htoTell.symm
  obtain ⟨rfl, rfl⟩ := Prod.mk.inj ho
  exact ⟨rfl, rest, hdrop, hrest.symm⟩

/-- An observer is told. -/
theorem tell (h : Hears a (f :: todo) s) {n : Nat} (hamid : f.amid = some n) {b : Announcement}
    (hb : a.announcements[n]? = some b) {o : Observer} {notice : Notice}
    (hf : f.frame = .tell o notice) :
    (a.tell n).hasTold n = true ∧
      Hears (a.tell n) todo ({ s with agenda := todo.map Marked.frame }.note (.told o notice)) := by
  obtain ⟨rfl, rest, hdrop, hrest⟩ := h.next hamid hb hf
  have hnext : b.observers[(a.heard n).length]? = some o := by
    rw [← List.head?_drop, hdrop, List.head?_cons]
  have htell : a.tell n = { a with told := a.told ++ [⟨n, o⟩] } := by
    simp [Announcing.tell, hb, hnext]
  have hasTold : ∀ k, (a.tell n).hasTold k = (a.hasTold k || decide (n = k)) := by
    simp [htell, Announcing.hasTold]
  have hheard : ∀ k, (a.tell n).heard k = a.heard k ++ if n = k then [o] else [] := by
    intro k
    rw [htell]
    by_cases hk : n = k <;> simp [Announcing.heard, hk]
  refine ⟨by simp [hasTold], ?_⟩
  exact
    { mirrors := by
        rw [htell]
        exact h.mirrors.keep h.mirrors.broker h.mirrors.underway rfl rfl
          fun _ => mem_countdowns_tail h.agenda
      manual := h.manual
      tellings := by
        have hlog : Scenario.tellings ({ s with agenda := todo.map Marked.frame }.note
            (.told o b.notice)) = s.tellings ++ [(o, b.notice)] := List.filterMap_append
        rw [hlog, ← h.tellings, htell, Announcing.tellings, List.filterMap_append,
          Announcing.tellings]
        simp [hb]
      agenda := rfl
      toTell := by
        intro k c hk
        rw [htell] at hk
        rw [hheard]
        by_cases hkn : n = k
        · subst hkn
          obtain rfl : b = c := Option.some.inj (hb.symm.trans hk)
          rw [if_pos rfl, List.length_append, List.length_singleton, ← List.tail_drop, hdrop]
          exact hrest
        · have hnone : f.tells? k = none := by simp [Marked.tells?, hamid, hkn]
          have htoTell := h.toTell k c hk
          rw [List.filterMap_cons_none hnone] at htoTell
          rw [if_neg hkn, List.append_nil]
          exact htoTell
      announced := by
        rw [htell]
        exact fun g hg => h.announced g (List.mem_cons_of_mem _ hg)
      amid := by
        intro g hg hnone
        have hg := h.amid g (List.mem_cons_of_mem _ hg) hnone
        cases hk : g.amid with
        | none => rfl
        | some k =>
          rw [hk, Option.all_some] at hg
          simp [hasTold, hg]
      told := by
        intro x hx
        rw [htell] at hx ⊢
        rcases List.mem_append.1 hx with hx | hx
        · exact h.told x hx
        · rw [List.mem_singleton.1 hx]
          exact (List.getElem?_eq_some_iff.1 hb).1
      hushed := ⟨h.hushed.ready, h.hushed.asleep⟩ }

/-- **An observer is told, and what it does is done amid the announcement.** -/
theorem turn_tell (h : Hears a (f :: todo) s) {o : Observer} {notice : Notice}
    (hf : f.frame = .tell o notice) (ht : s.turn? = some s') :
    ∃ n, f.amid = some n ∧ Amid (some n) (a.tell n) todo s' := by
  obtain ⟨n, hn, hamid⟩ := h.announced f List.mem_cons_self (by simp [hf, Frame.telling?])
  obtain ⟨htold, hears⟩ := h.tell hamid (List.getElem?_eq_getElem hn) hf
  unfold turn? at ht
  rw [h.agenda, List.map_cons, hf] at ht
  obtain rfl := Option.some.inj ht
  have hcalled := Deeds.callBack ({ s with agenda := todo.map Marked.frame }.note (.told o notice))
    s.observers o { identity := notice.identity }
  exact ⟨n, hamid, hears.deeds htold (hcalled.tail (.around rfl rfl rfl rfl rfl rfl))⟩

/-- Nothing is on the agenda, and frames that tell nobody come on it. -/
theorem rearrange (h : Hears a [] s) {agenda : List Frame} {line : Timeline Job}
    (hp : ({ s with agenda, line } : Scenario).frames.Perm s.frames)
    (htell : ∀ f ∈ agenda, f.telling? = none)
    (hhushed : ({ s with agenda, line } : Scenario).Hushed) :
    Amid none a [] { s with agenda, line } := by
  refine h.stay rfl rfl rfl rfl rfl (agenda.map (⟨·, none⟩)) ?_ ?_
    (fun c => (hp.filterMap _).mem_iff.1) hhushed
  · simp [h.agenda, Function.comp_def]
  · intro f hf
    obtain ⟨frame, hframe, rfl⟩ := List.mem_map.1 hf
    exact ⟨htell frame hframe, rfl⟩

end Hears

/-- What is put in line when effects are fulfilled tells nobody. -/
structure Heeded (s s' : Scenario) : Prop where
  manual : s'.manual = s.manual
  tellings : s'.tellings = s.tellings
  agenda : s'.agenda = s.agenda
  hushed : s.Hushed → s'.Hushed

namespace Heeded

variable {s s' s'' : Scenario}

theorem trans (h : Heeded s s') (h' : Heeded s' s'') : Heeded s s'' where
  manual := h'.manual.trans h.manual
  tellings := h'.tellings.trans h.tellings
  agenda := h'.agenda.trans h.agenda
  hushed hs := h'.hushed (h.hushed hs)

theorem of_eq (hmanual : s'.manual = s.manual) (htellings : s'.tellings = s.tellings)
    (hagenda : s'.agenda = s.agenda) (hline : s'.line = s.line) : Heeded s s' where
  manual := hmanual
  tellings := htellings
  agenda := hagenda
  hushed hs := ⟨by rw [hline]; exact hs.ready, by rw [hline]; exact hs.asleep⟩

theorem spawn (s : Scenario) {job : Job} (hjob : job.Hushed) : Heeded s (s.spawn job) where
  manual := rfl
  tellings := rfl
  agenda := rfl
  hushed hs := hs.spawn hjob

theorem fulfil (h : s.timing = .clock) (e : Effect) : Heeded s (s.fulfil e) := by
  have hnote : (s.note (.did e)).tellings = s.tellings :=
    List.filterMap_append.trans (List.append_nil _)
  cases e with
  | reply ticket r =>
    simp only [Scenario.fulfil, answered]
    split
    · refine trans (of_eq ?_ ?_ ?_ ?_) (spawn _ (by simp [Job.Hushed, Job.frames, Frame.telling?]))
      all_goals first | exact hnote | rfl
    · exact of_eq rfl hnote rfl rfl
  | poll token targets =>
    exact spawn s (by simp [Job.Hushed, Job.frames, Frame.telling?])
  | deliver requester token outcome =>
    exact spawn s (by simp [Job.Hushed, Job.frames, Frame.telling?])
  | setTimer id delay token generation =>
    simp only [Scenario.fulfil, note, h]
    refine trans (of_eq ?_ ?_ ?_ ?_) (spawn _ (by simp [Job.Hushed, Job.frames, Frame.telling?]))
    all_goals first | exact hnote | rfl
  | cancelTimer id =>
    simp only [Scenario.fulfil, note, h]
    exact of_eq rfl hnote rfl rfl

theorem foldl (h : s.timing = .clock) (es : List Effect) : Heeded s (es.foldl Scenario.fulfil s) := by
  induction es generalizing s with
  | nil => exact of_eq rfl rfl rfl rfl
  | cons e es ih => exact (fulfil h e).trans (ih ((fulfilled_fulfil h e).timing.trans h))

end Heeded

namespace Hears

variable {a : Announcing} {todo : List Marked} {s s' : Scenario} {due : Opening → Nat → Prop}
  {now n : Nat}

/-- The worker takes what is next. -/
theorem work (h : Hears a [] s) (hs : Sound due now n s) {b : Broker} {effects : List Effect}
    (hw : s.broker.work? s.around = some (b, effects)) :
    Amid none a [] (effects.foldl fulfil { s with broker := b }) := by
  obtain ⟨x, -, hlog, hm⟩ := h.mirrors.work hs hw
  have hheeded : Heeded { s with broker := b } (effects.foldl fulfil { s with broker := b }) :=
    Heeded.foldl (s := { s with broker := b }) hs.timing effects
  have hannounced : (a.history.apply (.work s.around)).announced = a.history.announced := by
    rw [History.announced, hlog, List.filterMap_append]
    exact List.append_nil _
  have hm : Mirrors (a.go none (.work s.around)).history _ := hm
  refine ⟨[.work s.around], [], ?_, by simp⟩
  rw [List.map_singleton, Announcing.run_go rfl]
  exact h.keep hm (Announcing.announcements_go hannounced) rfl hheeded.manual hheeded.tellings []
    hheeded.agenda (by simp) (hheeded.hushed ⟨h.hushed.ready, h.hushed.asleep⟩)

/-- **What is done while nothing is on the agenda is done amid no announcement.** -/
theorem turn_nil (h : Hears a [] s) (hs : Sound due now n s) (ht : s.turn? = some s') :
    Amid none a [] s' := by
  have hagenda : s.agenda = [] := h.agenda
  unfold turn? at ht
  split at ht
  · rename_i frame rest hcons
    rw [hagenda] at hcons
    cases hcons
  · split at ht
    · split at ht
      · cases ht
      · rename_i waiting hw
        obtain rfl := Option.some.inj ht
        have hleft : Deeds s { s with waiting } := .single (.around rfl rfl rfl rfl rfl rfl)
        exact h.deeds rfl (hleft.trans (Deeds.letGo _))
    · rename_i ready hready
      split at ht
      · rename_i b effects hw
        obtain rfl := Option.some.inj ht
        exact h.work hs hw
      · obtain rfl := Option.some.inj ht
        exact h.rearrange (.of_eq (frames_unworked hready)) (by simp [hagenda])
          (h.hushed.shorten hready _)
    · rename_i agenda ready hready
      obtain rfl := Option.some.inj ht
      refine h.rearrange (.of_eq (frames_act hagenda hready)) ?_ (h.hushed.shorten hready _)
      exact (h.hushed.ready _ (by rw [hready]; exact List.mem_cons_self)).act
    · rename_i duration frame ready hready
      have hframe := (h.hushed.ready _ (by rw [hready]; exact List.mem_cons_self)).wait
      split at ht
      · rename_i hd
        subst hd
        obtain rfl := Option.some.inj ht
        exact h.rearrange (.of_eq (frames_over hagenda hready)) (by simpa using hframe)
          (h.hushed.shorten hready _)
      · obtain rfl := Option.some.inj ht
        refine h.rearrange (frames_sleep hagenda hready) (by simp [hagenda]) ?_
        refine ⟨(h.hushed.shorten hready []).ready, fun q hq => ?_⟩
        have hmem := (Timeline.insertSleeper_perm _ _ _).mem_iff.1 hq
        rcases List.mem_cons.1 hmem with rfl | hq
        · simpa [Job.Hushed, Job.frames] using hframe
        · exact h.hushed.asleep q hq

/-- A turn is a run among announcements. -/
theorem turn (h : Hears a todo s) (hs : Sound due now n s) (ht : s.turn? = some s') :
    ∃ moves todo', Hears (a.run moves) todo' s' := by
  cases todo with
  | nil => exact (h.turn_nil hs ht).exists_hears
  | cons f todo =>
    cases hf : f.frame with
    | tell o notice =>
      obtain ⟨n, -, htold⟩ := h.turn_tell hf ht
      obtain ⟨moves, todo', hears⟩ := htold.exists_hears
      exact ⟨.tell n :: moves, todo', hears⟩
    | _ => exact (h.turn_cons hs (by rw [hf]; rfl) ht).exists_hears

/-- Time goes by while nothing can be done. -/
theorem advance (h : Hears a [] s) (hs : Sound due now n s) (hrest : s.turn? = none)
    {moment : Nat} (hm : ∀ d, s.line.nextDeadline? = some d → moment ≤ d) :
    Amid none a [] { s with line := s.line.advance moment } := by
  refine h.rearrange (.of_eq (frames_advance hs.ahead hrest hm)) ?_ ⟨?_, ?_⟩
  · simp [show s.agenda = [] from h.agenda]
  · intro job hjob
    rcases List.mem_append.1 hjob with hjob | hjob
    · exact h.hushed.ready job hjob
    · obtain ⟨q, hq, rfl⟩ := List.mem_map.1 hjob
      exact h.hushed.asleep q ((List.takeWhile_sublist _).subset hq)
  · intro q hq
    exact h.hushed.asleep q ((List.dropWhile_sublist _).subset hq)

/-- Every move of a scenario is a run among announcements. -/
theorem apply (h : Hears a todo s) (hs : Sound due now n s) (m : Move) :
    ∃ moves todo', Hears (a.run moves) todo' (s.apply m) := by
  have hdeeds : ∀ {s'}, Deeds s s' → ∃ moves todo', Hears (a.run moves) todo' s' := by
    intro s' hd
    have hamid : Amid none a todo s' := h.deeds rfl hd
    exact hamid.exists_hears
  cases m with
  | step step => exact hdeeds (.applyStep hs h.manual step)
  | amid step scene => exact hdeeds (.performFrame hs h.manual step scene)
  | turn =>
    simp only [Scenario.apply]
    cases ht : s.turn? with
    | none => exact ⟨[], todo, h⟩
    | some s' => exact h.turn hs ht
  | wait moment =>
    simp only [Scenario.apply]
    split
    · rename_i hguard
      obtain ⟨hrest, -, hm⟩ := hguard
      have hrest := Option.isNone_iff_eq_none.1 hrest
      obtain rfl : todo = [] :=
        List.map_eq_nil_iff.1 (h.agenda.symm.trans (turn?_eq_none.1 hrest).1)
      have hadvance := h.advance hs hrest fun d hd => by simpa [hd] using hm
      exact hadvance.exists_hears
    · exact ⟨[], todo, h⟩

theorem start (config : Config) (last : Token) (today : Timestamp) :
    Hears (.start config last) [] (.start config last today) where
  mirrors := .start config last today
  manual := rfl
  tellings := rfl
  agenda := rfl
  toTell n b hn := by simp [Announcing.start] at hn
  announced f hf := absurd hf List.not_mem_nil
  amid f hf := absurd hf List.not_mem_nil
  told x hx := absurd hx List.not_mem_nil
  hushed := ⟨fun _ hmem => absurd hmem List.not_mem_nil, fun _ hmem => absurd hmem List.not_mem_nil⟩

end Hears

/-- **Observers are told of what was announced.** Whatever is done in a scenario can be done among
    announcements, so that the broker is the same, observers were told of the same in the same
    order, and those who are still to be told stand on the agenda. -/
theorem exists_announcing (config : Config) (last : Token) (today : Timestamp)
    (moves : List Move) :
    ∃ moves' todo, Hears ((Announcing.start config last).run moves') todo
      ((start config last today).run moves) := by
  induction moves using List.reverseRecOn with
  | nil => exact ⟨[], [], .start config last today⟩
  | append_singleton moves m ih =>
    obtain ⟨moves', todo, h⟩ := ih
    obtain ⟨more, todo', h⟩ := h.apply (sound_run config last today moves).1 m
    rw [run_append]
    exact ⟨moves' ++ more, todo', by rw [Announcing.run_append]; exact h⟩

end Scenario

end ContextBroker
