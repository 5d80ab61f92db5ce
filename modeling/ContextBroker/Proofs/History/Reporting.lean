import ContextBroker.Proofs.History.Announcing
import ContextBroker.Proofs.Worker.Kinds

set_option autoImplicit false

/-! # What a report does

A report writes to the cache and tells observers, and that is all (`Announcing.Reports`,
`Round.Sound.report`). The write comes before anything that the observers cause
(`Announcing.report_comes_first`): it has its place in the queue by the time that anybody is told. So
a context that is asked for from within an announcement is gathered after the write, and lists
nothing older for the identity (`Worker.Run.lastWrite_from`). -/

namespace ContextBroker

/-! ## What was written since -/

theorem lastWrite_append (i : Identity) (l m : List Round) :
    lastWrite i (l ++ m) = (lastWrite i m).or (lastWrite i l) := by
  rw [lastWrite, List.filterMap_append, List.getLast?_append, lastWrite, lastWrite]

/-- The round of a report writes its sample, if the identity is bound. -/
theorem Round.write?_report {x : Round} {around : Surroundings} {i : Identity} {sample : Sample}
    (hturn : x.turn = .task around (.report i sample))
    (hbound : (x.before.store.get? i).isSome = true) : x.write? i = some sample := by
  simp [write?, overwrite?, hturn, Turn.overwrite?, hbound]

/-- What was taken first was taken by a new worker. -/
theorem Worker.Run.of_prefix {w : Worker} {l rounds : List Round} (h : Run w rounds)
    (hl : l <+: rounds) : ∃ w', Worker.Run w' l := by
  obtain ⟨m, rfl⟩ := hl
  cases m with
  | nil => exact ⟨w, by simpa using h⟩
  | cons x m => exact ⟨x.before, h.split.1⟩

/-- What is cached after a round that wrote a sample was written by this round or since then. -/
theorem Worker.Run.lastWrite_from {w : Worker} {earlier later : List Round} {x : Round}
    (h : Run w (earlier ++ x :: later)) {i : Identity} {sample written : Sample}
    (hx : x.write? i = some written) (hi : w.store.state? i = some sample) :
    lastWrite i (x :: later) = some sample := by
  have hlast := h.lastWrite_eq hi
  rw [lastWrite_append] at hlast
  have hsome : ∃ s, lastWrite i (x :: later) = some s := by
    rw [← List.singleton_append, lastWrite_append]
    cases hl : lastWrite i later with
    | some s => exact ⟨s, rfl⟩
    | none => exact ⟨written, by simp [lastWrite, hx]⟩
  obtain ⟨s, hs⟩ := hsome
  rw [hs] at hlast ⊢
  exact hlast

/-- `rounds` end with a round in which the task of the `k`-th round yields `context`: it is read, or
    it is what is delivered for the request that was opened. -/
inductive Yields (k : Nat) (context : Context) (rounds : List Round) : Prop
  | read (earlier : List Round) (x : Round) (around : Surroundings) (endpoint : String)
      (ticket : Ticket) (hrounds : rounds = earlier ++ [x]) (hk : earlier.length = k)
      (hturn : x.turn = .task around (.read endpoint ticket))
      (hreply : .reply ticket (.context (.ok context)) ∈ x.effects)
  | requested (earlier since : List Round) (opening x : Round) (around : Surroundings) (t : Token)
      (requester : Requester) (endpoint : String) (timeout : Nat)
      (hrounds : rounds = earlier ++ opening :: since) (hk : earlier.length = k)
      (hturn : opening.turn = .task around (.getContext t requester endpoint timeout))
      (hlast : (opening :: since).getLast? = some x) (hsince : ∀ y ∈ since, ¬ t ∈ y.turn.tokens)
      (hdelivered : (requester, .context endpoint context) ∈ deliveries t x.effects)

/-- What a task yields is cached in the end. -/
theorem Yields.state? {k : Nat} {context : Context} {rounds : List Round}
    (h : Yields k context rounds) {w : Worker} (hrun : w.Run rounds) {i : Identity}
    {sample : Sample} (hi : (i, sample) ∈ context) :
    k < rounds.length ∧ w.store.state? i = some sample := by
  cases h with
  | read earlier x around endpoint ticket hrounds hk hturn hreply =>
    subst hrounds
    refine ⟨by simp [hk], ?_⟩
    obtain ⟨tokens, rfl⟩ := hrun.alike_after
    obtain ⟨hbefore, hx⟩ := hrun.split
    obtain ⟨around', endpoint', hturn', rfl⟩ := hx.replied_context hreply
    obtain ⟨-, b, hb, hs, -⟩ := (Store.mem_read hbefore.filed).1 hi
    -- Reading leaves the store as it is.
    have hstore := hx.leaves.store
    simp only [hturn, Turn.write, Task.write] at hstore
    show x.after.store.state? i = _
    rw [hstore, Store.state?, hb]
    exact hs
  | requested earlier since opening x around t requester endpoint timeout hrounds hk hturn hlast
      hsince hdelivered =>
    subst hrounds
    refine ⟨by simp [hk], ?_⟩
    obtain ⟨init, hinit⟩ : ∃ init, opening :: since = init ++ [x] :=
      ⟨_, (List.dropLast_append_getLast? x hlast).symm⟩
    rw [hinit, ← List.append_assoc] at hrun
    obtain ⟨tokens, rfl⟩ := hrun.alike_after
    obtain ⟨hbefore, hx⟩ := hrun.split
    obtain ⟨-, -, -, -, -, -, r, -, -, -, -, -, -, rfl⟩ := hbefore.gathered hx hdelivered
    obtain ⟨-, b, hb, hs, -⟩ := (Store.mem_aggregate (hbefore.round hx).filed).1 hi
    show x.after.store.state? i = _
    rw [Store.state?, hb]
    exact hs

namespace Announcing

variable {s : Announcing}

/-! ## What a report does -/

/-- What a report does when it is made amid `amid`: nothing yet; or it comes back because the broker
    shuts down; or its task is posted and it is announced. -/
inductive Reports (s : Announcing) (i : Identity) (sample : Sample) (cause : Cause)
    (amid : Option Nat) : Announcing → Prop
  | pending (underway : List Underway) :
      Reports s i sample cause amid { s with history.underway := underway }
  | refused (underway : List Underway) :
      Reports s i sample cause amid { s with
        history.underway := underway
        history.log := s.history.log ++
          [.responded (.report i sample cause) (.refused .shuttingDown)] }
  | announced (underway : List Underway) (notice : Notice) (observers : List Observer)
      (hnotice : notice = ⟨s.history.broker.resolve i, sample, cause⟩)
      (hobservers : observers = s.history.broker.hub.observers) :
      Reports s i sample cause amid { s with
        history.underway := underway
        history.broker.queue.tasks := s.history.broker.queue.tasks ++
          [.report notice.identity notice.sample]
        history.log := s.history.log ++
          [.responded (.report i sample cause) (.announced notice observers)]
        posts := s.posts ++ [⟨.report notice.identity notice.sample, amid⟩]
        announcements := s.announcements ++ [⟨notice, observers, amid, s.posts.length⟩] }

end Announcing

namespace History

/-- The call that a move makes, begins or goes on with. -/
def Move.call? (h : History) : Move → Option Call
  | .call _ c | .begin _ c => some c
  | .finish n | .giveUp n => h.underway[n]?.map (·.call)
  | _ => none

/-- A report that is underway comes back: its task is posted, or the queue is closed. -/
theorem settle_report {h : History} {n : Nat} {u : Underway} (hn : h.underway[n]? = some u)
    {i : Identity} {sample : Sample} {cause : Cause} (hu : u.call = .report i sample cause) :
    ∃ underway,
      h.settle n h.broker.finish = { h with
        underway
        log := h.log ++ [.responded (.report i sample cause) (.refused .shuttingDown)] } ∨
      h.settle n h.broker.finish = { h with
        underway
        broker.queue.tasks := h.broker.queue.tasks ++ [.report (h.broker.resolve i) sample]
        log := h.log ++ [.responded (.report i sample cause)
          (.announced ⟨h.broker.resolve i, sample, cause⟩ h.broker.hub.observers)] } := by
  refine ⟨h.underway.eraseIdx n, ?_⟩
  have htask : h.broker.task u = .report (h.broker.resolve i) sample := by rw [Broker.task, hu]
  simp only [settle, hn, respond, Broker.finish, htask, WorkQueue.post?, hu]
  cases h.broker.queue.isOpen with
  | true =>
    have haccepted : h.broker.accepted u =
        .announced ⟨h.broker.resolve i, sample, cause⟩ h.broker.hub.observers := by
      rw [Broker.accepted, hu]
    refine .inr ?_
    rw [haccepted]
    rfl
  | false =>
    have hgiveUp : h.broker.giveUp u = (h.broker, .refused .shuttingDown) := by
      rw [Broker.giveUp, hu]
      rfl
    refine .inl ?_
    simp only [Bool.false_eq_true, if_false, hgiveUp]

/-- What a report does to the history. -/
theorem apply_report {h : History} {m : Move} {i : Identity} {sample : Sample} {cause : Cause}
    (hc : m.call? h = some (.report i sample cause)) :
    ∃ underway, h.apply m = { h with underway } ∨
      h.apply m = { h with
        underway
        log := h.log ++ [.responded (.report i sample cause) (.refused .shuttingDown)] } ∨
      h.apply m = { h with
        underway
        broker.queue.tasks := h.broker.queue.tasks ++ [.report (h.broker.resolve i) sample]
        log := h.log ++ [.responded (.report i sample cause)
          (.announced ⟨h.broker.resolve i, sample, cause⟩ h.broker.hub.observers)] } := by
  -- The first part of a report turns it down or leaves it underway.
  have hbegin : ∀ ticket, h.begin ticket (.report i sample cause) = { h with
        log := h.log ++ [.responded (.report i sample cause) (.refused .shuttingDown)] } ∨
      h.begin ticket (.report i sample cause) = { h with
        underway := h.underway ++ [{ ticket, call := .report i sample cause }] } := by
    intro ticket
    unfold begin
    cases hs : h.broker.shuttingDown with
    | true =>
      refine .inl ?_
      simp only [Broker.begin, hs, if_true]
      rfl
    | false =>
      refine .inr ?_
      rw [Broker.begin_other hs ticket rfl (by simp)]
  cases m with
  | call ticket c =>
    obtain rfl := Option.some.inj hc
    simp only [apply]
    split
    · rw [respond_call]
      rcases hbegin ticket with hrefused | hunderway
      · rw [hrefused, settle]
        simp only [List.getElem?_eq_none (Nat.le_refl _)]
        exact ⟨h.underway, .inr (.inl rfl)⟩
      · rw [hunderway]
        obtain ⟨underway, hsettle⟩ := settle_report (h := { h with underway := h.underway ++ [_] })
          List.getElem?_concat_length (u := { ticket, call := .report i sample cause }) rfl
        exact ⟨underway, .inr hsettle⟩
    · exact ⟨h.underway, .inl rfl⟩
  | begin ticket c =>
    obtain rfl := Option.some.inj hc
    simp only [apply]
    split
    · rcases hbegin ticket with hrefused | hunderway
      · exact ⟨h.underway, .inr (.inl hrefused)⟩
      · exact ⟨_, .inl hunderway⟩
    · exact ⟨h.underway, .inl rfl⟩
  | finish n =>
    obtain ⟨u, hn, hu⟩ := Option.map_eq_some_iff.1 hc
    obtain ⟨underway, hsettle⟩ := settle_report hn hu
    exact ⟨underway, .inr hsettle⟩
  | giveUp n =>
    obtain ⟨u, hn, hu⟩ := Option.map_eq_some_iff.1 hc
    -- Only requests are given up.
    refine ⟨h.underway, .inl ?_⟩
    simp [apply, hn, hu, Call.requester?]
  | _ => cases hc

end History

namespace Announcing

variable {s : Announcing}

/-- A report that comes back as announced was posted before anybody is told of it; one that is
    turned down posts nothing and is not announced. -/
theorem reports_go {m : History.Move} {i : Identity} {sample : Sample} {cause : Cause}
    (hc : m.call? s.history = some (.report i sample cause)) (amid : Option Nat) :
    s.Reports i sample cause amid (s.go amid m) := by
  obtain ⟨underway, hpending | hrefused | hannounced⟩ := History.apply_report hc
  · have hgo : s.go amid m = { s with history.underway := underway } := by
      simp [go, hpending, History.announced]
    rw [hgo]
    exact .pending underway
  · have hgo : s.go amid m = { s with
        history.underway := underway
        history.log := s.history.log ++
          [.responded (.report i sample cause) (.refused .shuttingDown)] } := by
      simp [go, hrefused, History.announced, History.Event.announcement?]
    rw [hgo]
    exact .refused underway
  · have hposts : (s.go amid m).posts =
        s.posts ++ [⟨.report (s.history.broker.resolve i) sample, amid⟩] := by
      simp [go, hannounced]
    have hannouncements : (s.go amid m).announcements = s.announcements ++
        [⟨⟨s.history.broker.resolve i, sample, cause⟩, s.history.broker.hub.observers, amid,
          s.posts.length⟩] := by
      simp [go, hannounced, History.announced, History.Event.announcement?]
    have hgo : s.go amid m =
        ⟨s.history.apply m, (s.go amid m).posts, (s.go amid m).announcements, s.told⟩ := rfl
    rw [hgo, hposts, hannouncements, hannounced]
    exact .announced underway ⟨s.history.broker.resolve i, sample, cause⟩ _ rfl rfl

end Announcing

/-- The round of a report writes to the store, and does nothing else. -/
theorem Round.Sound.report {x : Round} (hx : x.Sound) {around : Surroundings} {i : Identity}
    {sample : Sample} (hturn : x.turn = .task around (.report i sample)) :
    x.effects = [] ∧ x.after = { x.before.countTask with
      store := (x.before.store.push i sample).toOption.getD x.before.store } := by
  have h := hx.turn
  rw [hturn] at h
  obtain ⟨hafter, heffects⟩ := Prod.mk.inj (Except.ok.inj h)
  refine ⟨heffects.symm, ?_⟩
  rw [← hafter, Worker.cache_eq, Worker.store_cache]
  rfl

namespace Announcing

variable {s : Announcing}

/-- The worker takes what was posted, in order. -/
theorem Ordered.taken (h : s.Ordered) (hc : s.history.Closing) (ht : s.history.Tracked)
    {earlier later : List Round} {x : Round} (hrounds : s.history.rounds = earlier ++ x :: later) :
    (∃ around p, x.turn = .task around p.task ∧ s.posts[earlier.length]? = some p) ∨
      (x.turn.isEnd = true ∧ later = [] ∧
        x.turn.taken = (s.posts.drop earlier.length).map (·.task)) := by
  rcases History.taken_at hc ht hrounds with ⟨around, task, hturn, htask⟩ | ⟨hend, hlater, htaken⟩
  · rw [← h.posted, List.getElem?_map, Option.map_eq_some_iff] at htask
    obtain ⟨p, hp, rfl⟩ := htask
    exact .inl ⟨around, p, hturn, hp⟩
  · rw [← h.posted, ← List.map_drop] at htaken
    exact .inr ⟨hend, hlater, htaken⟩

/-- When the worker has come to what an announcement causes, it has taken the report. -/
theorem Ordered.exists_report (h : s.Ordered) (hc : s.history.Closing) (ht : s.history.Tracked)
    {n k : Nat} (hcauses : s.Causes n k) {a : Announcement} (ha : s.announcements[n]? = some a)
    (hk : k < s.history.rounds.length) :
    ∃ earlier y later around, s.history.rounds = earlier ++ y :: later ∧ earlier.length = a.place ∧
      y.turn = .task around (.report a.notice.identity a.notice.sample) := by
  have hlt := h.place_lt hcauses ha
  obtain ⟨earlier, later, hrounds, hlength⟩ : ∃ earlier later,
      s.history.rounds = earlier ++ later ∧ earlier.length = a.place :=
    ⟨s.history.rounds.take a.place, s.history.rounds.drop a.place,
      (List.take_append_drop ..).symm, by simp; omega⟩
  have hrest := congrArg List.length hrounds
  rw [List.length_append] at hrest
  obtain ⟨y, z, later, rfl⟩ : ∃ y z rest, later = y :: z :: rest := by
    match later with
    | [] | [_] => simp at hrest; omega
    | y :: z :: rest => exact ⟨y, z, rest, rfl⟩
  rcases h.taken hc ht hrounds with ⟨around, p, hturn, hp⟩ | ⟨-, hnil, -⟩
  · rw [hlength, h.place n a ha] at hp
    obtain rfl := Option.some.inj hp
    exact ⟨earlier, y, z :: later, around, hrounds, hlength, hturn⟩
  · cases hnil

/-- **A report comes before what its observers cause.** The worker takes the tasks in the order in
    which they were posted, until it ends its work; then it takes all that are left. A report that
    was accepted is announced, and its task was posted before anybody is told of it. So whatever is
    posted amid the announcement, however deep announcements are nested, is taken later than the
    report, and if the identity was bound then, whatever a read or a request among these yields for
    it was written in the round of the report or since.

    A report that is turned down posts nothing and is not announced, and only what was announced is
    told. Neither the call nor its round changes a request, a token, a timer or a delivery. -/
theorem report_comes_first (config : Config) (last : Token) (moves : List Move) :
    let s := (start config last).run moves
    let rounds := s.history.rounds
    (∀ earlier x later, rounds = earlier ++ x :: later →
      (∃ around p, x.turn = .task around p.task ∧ s.posts[earlier.length]? = some p) ∨
        (x.turn.isEnd = true ∧ later = [] ∧
          x.turn.taken = (s.posts.drop earlier.length).map (·.task))) ∧
    s.announcements.map (fun a => (a.notice, a.observers)) = s.history.announced ∧
    (∀ x ∈ s.told, x.announcement < s.announcements.length) ∧
    (∀ n a, s.announcements[n]? = some a →
      s.posts[a.place]? = some ⟨.report a.notice.identity a.notice.sample, a.amid⟩ ∧
      s.heard n <+: a.observers ∧
      ∀ k, s.Causes n k → a.place < k ∧ (k < rounds.length →
        ∃ y around, rounds[a.place]? = some y ∧
          y.turn = .task around (.report a.notice.identity a.notice.sample) ∧
          ((y.before.store.get? a.notice.identity).isSome = true →
            ∀ upto context sample, upto <+: rounds → Yields k context upto →
              (a.notice.identity, sample) ∈ context →
              lastWrite a.notice.identity (upto.drop a.place) = some sample))) ∧
    (∀ amid m i sample cause, m.call? s.history = some (.report i sample cause) →
      s.Reports i sample cause amid (s.go amid m)) ∧
    ∀ x ∈ rounds, ∀ around i sample, x.turn = .task around (.report i sample) →
      x.effects = [] ∧ x.after = { x.before.countTask with
        store := (x.before.store.push i sample).toOption.getD x.before.store } := by
  intro s rounds
  obtain ⟨moves', hhistory⟩ := exists_history_run config last moves
  have hs : s.Ordered := ordered_run config last moves
  have ht : s.history.Tracked := by
    rw [hhistory]
    exact History.tracked_run config last moves'
  have hc : s.history.Closing := by
    rw [hhistory]
    exact History.closing_run config last moves'
  have hrun : s.history.broker.queue.worker.Run rounds := History.run_rounds_of_eq hhistory
  refine ⟨fun _ _ _ hrounds => hs.taken hc ht hrounds, hs.announced, hs.told, ?_,
    fun amid _ _ _ _ hcall => reports_go hcall amid, ?_⟩
  · intro n a ha
    refine ⟨hs.place n a ha, hs.heard n a ha, ?_⟩
    intro k hcauses
    have hlt := hs.place_lt hcauses ha
    refine ⟨hlt, ?_⟩
    intro hk
    obtain ⟨earlier, y, later, around, hrounds, hlength, hturn⟩ :=
      hs.exists_report hc ht hcauses ha hk
    refine ⟨y, around, by simp [rounds, hrounds, ← hlength], hturn, ?_⟩
    intro hbound upto context sample hupto hyields hsample
    -- The rounds up to the yield are those before the report, its own and some of those after it.
    obtain ⟨w, hw⟩ := hrun.of_prefix hupto
    obtain ⟨hlen, hstate⟩ := hyields.state? hw hsample
    obtain ⟨rest, hrest⟩ := hupto
    rcases append_cons_eq_append (hrounds.symm.trans hrest.symm) with ⟨m, rfl, -⟩ | ⟨since, -, rfl⟩
    · rw [List.length_append] at hlength
      omega
    · rw [← hlength, List.drop_left]
      exact hw.lastWrite_from (Round.write?_report hturn hbound) hstate
  · intro x hx around i sample hturn
    exact (hrun.sound hx).report hturn

/-- An observer answers a report with one of its own, and an observer of that reads the context. -/
def nested (i : Identity) (first second : Sample) : List Move :=
  let around : Surroundings := ⟨default, fun _ => true⟩
  [.go none (.addObserver 7), .go none (.call 0 (.register i 3 (.push .always))),
    .go none (.call 1 (.report i first .appInteraction)), .tell 0,
    .go (some 0) (.call 2 (.report i second .ruleTrigger)), .tell 1,
    .go (some 1) (.call 3 (.read i.endpoint)),
    .go none (.work around), .go none (.work around), .go none (.work around),
    .go none (.work around)]

/-- The context that is read was written since the first report, though the sample is not its
    own. -/
theorem report_comes_first_nested :
    let light : Identity := ⟨"light", "power", none, "kitchen"⟩
    let s := (start {} 0).run (nested light ⟨"on", default, 0⟩ ⟨"off", default, 0⟩)
    s.Causes 0 3 ∧ Yields 3 [(light, ⟨"off", default, 0⟩)] s.history.rounds ∧
      lastWrite light (s.history.rounds.drop 1) = some ⟨"off", default, 0⟩ := by
  intro light s
  obtain ⟨htaken, -, -, hannounced, -⟩ :=
    report_comes_first {} 0 (nested light ⟨"on", default, 0⟩ ⟨"off", default, 0⟩)
  have hplaces : s.announcements.map (fun a => (a.notice.identity, a.amid, a.place)) =
      [(light, none, 1), (light, some 0, 2)] := by decide +kernel
  have hpost : s.posts[3]? = some ⟨.read "kitchen" 3, some 1⟩ := by decide +kernel
  have hrounds : s.history.rounds.map (fun x =>
      (x.turn.isEnd, (x.before.store.get? light).isSome, x.before.store.read "kitchen")) =
      [(false, false, []), (false, true, []), (false, true, [(light, ⟨"on", default, 0⟩)]),
        (false, true, [(light, ⟨"off", default, 0⟩)])] := by decide +kernel
  simp only [List.map_eq_cons_iff, List.map_eq_nil_iff, Prod.mk.injEq] at hplaces hrounds
  obtain ⟨a, _, ha, ⟨hi, -, hplace⟩, b, _, rfl, ⟨-, hb, -⟩, rfl⟩ := hplaces
  obtain ⟨x₀, _, hrounds, -, x₁, _, rfl, ⟨-, hbound, -⟩, x₂, _, rfl, -, x, _, rfl,
    ⟨hend, -, hread⟩, rfl⟩ := hrounds
  have hfirst : s.announcements[0]? = some a := by simp [ha]
  have hsecond : s.announcements[1]? = some b := by simp [ha]
  have hcauses : s.Causes 0 3 := ⟨_, 1, hpost, rfl, .nested .self hsecond hb⟩
  obtain ⟨around, hturn⟩ : ∃ around, x.turn = .task around (.read "kitchen" 3) := by
    rcases htaken [x₀, x₁, x₂] x [] hrounds with ⟨around, p, hturn, hp⟩ | ⟨hends, -⟩
    · obtain rfl := Option.some.inj (hpost.symm.trans hp)
      exact ⟨around, hturn⟩
    · rw [hend] at hends
      cases hends
  have hx : x.Sound := by
    obtain ⟨moves, hhistory⟩ := exists_history_run {} 0 (nested light _ _)
    exact (History.run_rounds_of_eq hhistory).sound (by rw [hrounds]; simp)
  have hmem : Effect.reply 3 (.context (.ok [(light, ⟨"off", default, 0⟩)])) ∈ x.effects := by
    have hreplied := Worker.replied_turn (hturn ▸ hx.turn)
    have hmem : Effect.reply 3 (.context (.ok (x.before.store.read "kitchen"))) ∈
        replied x.effects := by
      rw [hreplied]
      exact List.mem_singleton_self _
    rw [← hread]
    exact (List.mem_filter.1 hmem).1
  have hyields : Yields 3 [(light, ⟨"off", default, 0⟩)] s.history.rounds :=
    .read [x₀, x₁, x₂] x around "kitchen" 3 hrounds rfl hturn hmem
  have htaken : 3 < s.history.rounds.length := by simp [hrounds]
  obtain ⟨-, -, hcaused⟩ := hannounced 0 a hfirst
  obtain ⟨y, -, hy, -, hwritten⟩ := (hcaused 3 hcauses).2 htaken
  rw [hrounds, hplace] at hy
  obtain rfl : x₁ = y := Option.some.inj hy
  rw [hi, hplace] at hwritten
  exact ⟨hcauses, hyields, hwritten hbound _ _ _ List.prefix_rfl hyields (List.mem_singleton_self _)⟩

end Announcing

end ContextBroker
