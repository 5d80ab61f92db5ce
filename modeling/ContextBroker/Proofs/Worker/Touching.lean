import ContextBroker.Proofs.History.Decisions
import ContextBroker.Proofs.Worker.Disarming
import ContextBroker.Proofs.Worker.Refusing

set_option autoImplicit false

/-! # Which requests a change touches

A push, a write and an unregistration each concern one identity, and the open requests that await
it: one of them when a write is given a token, and otherwise all of them (`Task.touch?`). Such a
change resolves its identity for the requests that it concerns, ends those that awaited nothing else
and leaves all others as they are (`Worker.Touches`). The store is written before any request is
looked at, so every context that is delivered on the way shows what the change made of its identity
(`Worker.Run.touches`). -/

namespace ContextBroker

/-- An identity that a change concerns. -/
structure Touch where
  identity : Identity
  /-- Whether the identity counts as refreshed for requests that await it, or as unavailable. -/
  available : Bool
  /-- The only request that is meant, if there is one. -/
  only : Option Token
  deriving DecidableEq

/-- The change concerns the open request `r` with the token `t`. -/
def Touch.Concerns (x : Touch) (t : Token) (r : Request) : Prop :=
  (x.only = none ∨ x.only = some t) ∧ r.awaits x.identity = true

/-- The request once the identity is refreshed for it, or unavailable, and no longer awaited. -/
def Touch.move (x : Touch) (r : Request) : Request :=
  { r with
    awaited := r.awaited.erase x.identity
    refreshed := if x.available then r.refreshed.insert x.identity else r.refreshed
    unavailable := if x.available then r.unavailable else r.unavailable.insert x.identity }

theorem Touch.move_eq (x : Touch) (r : Request) : x.move r = r.resolve x.identity x.available := by
  obtain ⟨i, available, only⟩ := x
  cases available with
  | false => rfl
  | true => rfl

/-- The request awaits nothing but `i`. -/
def Request.AwaitsOnly (r : Request) (i : Identity) : Prop := ∀ j, r.awaits j = true → j = i

namespace Task

/-- What a change touches. -/
def touch? : Task → Option Touch
  | pushState i _ _ => some ⟨i, true, none⟩
  | setState i _ _ token _ => some ⟨i, true, token⟩
  | unregister i _ => some ⟨i, false, none⟩
  | _ => none

/-- What a change makes of the binding that it touches. -/
def rebound (around : Surroundings) (b : Binding) : Task → Option Binding
  | pushState _ sample _ => some (b.write sample)
  | setState _ payload policy _ _ => some (b.writeUnder policy payload around.now)
  | unregister .. => none
  | _ => some b

/-- What contexts show, once the change is done, of the identity that it touches, if that was bound
    as `b`. -/
def shown? (around : Surroundings) (b : Binding) : Task → Option Sample
  | pushState _ sample _ => if b.kind = .push .never then none else some sample
  | setState _ payload policy _ _ =>
    if payload.isEmpty ∨ policy = .never then none else some { payload, time := around.now }
  | _ => none

end Task

namespace Worker

/-- The step `s` resolves the touched identity for the open requests of `w` that it concerns, and
    does nothing to the others. -/
structure Touches (w : Worker) (x : Touch) (s : Step) : Prop where
  /-- A request that awaits more than this identity goes on. -/
  goes_on (t : Token) (r : Request) : w.requests.get? t = some r → x.Concerns t r →
    ¬ r.AwaitsOnly x.identity →
    s.1.requests.get? t = some (x.move r) ∧ deliveries t s.2 = []
  /-- A request that awaits nothing else ends with the context of its endpoint. -/
  succeeds (t : Token) (r : Request) : w.requests.get? t = some r → x.Concerns t r →
    r.AwaitsOnly x.identity →
    s.1.requests.get? t = none ∧
      deliveries t s.2 = [(r.requester, .context r.endpoint
        (s.1.store.aggregate r.endpoint (x.move r).refreshed (x.move r).unavailable))]
  /-- Whatever else is open stays as it is, and nothing is delivered for it. -/
  others (t : Token) : (¬ ∃ r, w.requests.get? t = some r ∧ x.Concerns t r) →
    s.1.requests.get? t = w.requests.get? t ∧ deliveries t s.2 = []
  /-- The tokens of the requests that end are free again. -/
  live (t : Token) : t ∈ s.1.tokens.live ↔
    t ∈ w.tokens.live ∧ ¬ ∃ r, w.requests.get? t = some r ∧ x.Concerns t r ∧
      r.AwaitsOnly x.identity
  /-- Their timers are cancelled, and no others. -/
  cancels (id : TimerId) : .cancelTimer id ∈ s.2 ↔
    ∃ t r, w.requests.get? t = some r ∧ x.Concerns t r ∧ r.AwaitsOnly x.identity ∧
      r.timer = some id

end Worker

/-! ## What a change means for one request -/

section

variable {task : Task} {x : Touch} {t : Token} {r : Request}

theorem Task.isChange_of_touch (hx : task.touch? = some x) : task.isChange = true := by
  cases task with
  | unregister | setState | pushState => rfl
  | _ => cases hx

/-- A change that was accepted answers its identity for the request it is meant for, if it is meant
    for one only, and for every request otherwise. -/
theorem Task.resolution?_of_touch (hx : task.touch? = some x) (t : Token) :
    task.resolution? t true =
      if x.only = none ∨ x.only = some t then some (x.identity, x.available) else none := by
  cases task with
  | unregister | setState | pushState =>
    obtain rfl := Option.some.inj hx
    simp [resolution?]
  | _ => cases hx

theorem Task.failure?_of_touch (hx : task.touch? = some x) (t : Token) (generation : Nat) :
    task.failure? t generation = none := by
  cases task with
  | unregister | setState | pushState => rfl
  | _ => cases hx

/-- What counts as unavailable is unbound. -/
theorem Task.rebound_of_unavailable (hx : task.touch? = some x) (ha : x.available = false)
    (around : Surroundings) (b : Binding) : task.rebound around b = none := by
  cases task with
  | unregister => rfl
  | setState | pushState =>
    obtain rfl := Option.some.inj hx
    cases ha
  | _ => cases hx

/-- What the change leaves of the binding shows in contexts, unless it is never refreshed. -/
theorem Task.shown?_of_touch (hx : task.touch? = some x) (around : Surroundings) (b : Binding)
    (sample : Sample) : task.shown? around b = some sample ↔
      ∃ b', task.rebound around b = some b' ∧ b'.state = some sample ∧ b'.kind ≠ .push .never := by
  cases task with
  | unregister => simp [shown?, rebound]
  | pushState i sample' ticket =>
    simp only [shown?, rebound, Binding.write, Option.some.injEq, exists_eq_left']
    by_cases hk : b.kind = .push .never <;> simp [hk]
  | setState i payload policy token ticket =>
    simp only [shown?, rebound, Binding.writeUnder, Binding.write, Option.some.injEq,
      exists_eq_left']
    by_cases hp : payload.isEmpty = true <;> by_cases hn : policy = .never <;> simp [hp, hn]
  | _ => cases hx

/-- What is answered for a request that awaits nothing else ends it. -/
theorem Request.answered_of_awaitsOnly {i : Identity} (hi : r.awaits i = true)
    (hlast : r.AwaitsOnly i) (store : Store) (available : Bool) :
    r.answered store i available = .ends (.context r.endpoint (store.aggregate r.endpoint
      (r.resolve i available).refreshed (r.resolve i available).unavailable)) := by
  simp only [answered, hi, if_true, Round.isComplete_resolve.2 hlast, endpoint_resolve]

/-- What is answered for a request that awaits more leaves it open. -/
theorem Request.answered_of_not_awaitsOnly {i : Identity} (hi : r.awaits i = true)
    (hmore : ¬ r.AwaitsOnly i) (store : Store) (available : Bool) :
    r.answered store i available = .stays (r.resolve i available) := by
  rw [answered, if_pos hi]
  exact if_neg fun hc => hmore (Round.isComplete_resolve.1 hc)

/-- The verdict of an accepted change on a request is the answer to its identity, if it concerns the
    request, and to leave it alone otherwise. -/
theorem Turn.verdict_of_touch (hx : task.touch? = some x) (around : Surroundings) (store : Store)
    (t : Token) (r : Request) :
    (x.Concerns t r → (Turn.task around task).verdict true store t r =
      r.answered store x.identity x.available) ∧
    (¬ x.Concerns t r → (Turn.task around task).verdict true store t r = .stays r) := by
  simp only [verdict, failure?, resolution?, Task.failure?_of_touch hx,
    Task.resolution?_of_touch hx, Touch.Concerns]
  by_cases honly : x.only = none ∨ x.only = some t
  · simp only [honly, if_true, true_and]
    refine ⟨fun _ => trivial, fun hi => ?_⟩
    rw [Request.answered, if_neg hi]
  · simp only [honly, if_false, false_and]
    exact ⟨False.elim, fun _ => trivial⟩

end

/-! ## What a change writes -/

/-- A change that is done finds its identity bound, and changes this binding alone. -/
theorem Store.get?_write_of_touch {w : Worker} {task : Task} {x : Touch}
    (hx : task.touch? = some x) (hok : task.result w = .ok ()) (around : Surroundings) :
    ∃ b, w.store.get? x.identity = some b ∧ ∀ j, (task.write around true w.store).get? j =
      if j = x.identity then task.rebound around b else w.store.get? j := by
  cases task with
  | pushState i sample ticket =>
    obtain rfl := Option.some.inj hx
    obtain ⟨b, hb⟩ := Option.ne_none_iff_exists'.1
      ((Worker.result_of_bound w (.inr ⟨sample, rfl⟩)).2.1 hok)
    refine ⟨b, hb, fun j => ?_⟩
    simp only [Task.write, push_eq, hb, Option.map_some, Option.getD_some, get?_put, Task.rebound]
  | unregister i ticket =>
    obtain rfl := Option.some.inj hx
    obtain ⟨b, hb⟩ := Option.ne_none_iff_exists'.1
      ((Worker.result_of_bound w (.inl rfl)).2.1 hok)
    refine ⟨b, hb, fun j => ?_⟩
    cases hu : w.store.unregister i with
    | error e =>
      have hbound := w.store.unregister_isOk i
      rw [hu, hb] at hbound
      cases hbound
    | ok y =>
      simp only [Task.write, hu, Except.toOption, Option.map_some, Option.getD_some,
        get?_unregister (b := y.2) hu, Task.rebound]
  | setState i payload policy token ticket =>
    obtain rfl := Option.some.inj hx
    obtain ⟨-, -, -, hdone⟩ := Worker.result_setState w i payload policy token ticket
    obtain ⟨b, hb, -, hallows⟩ := hdone.1 hok
    rw [Kind.bars_iff, Bool.not_eq_false] at hallows
    refine ⟨b, hb, fun j => ?_⟩
    simp only [Task.write, if_true, pushUnder, hb, hallows, Except.toOption, Option.getD_some,
      get?_put, Task.rebound]
  | _ => cases hx

/-! ## What a change does to the open requests -/

/-- A token is given back when something is delivered with it, and only then. -/
theorem Turn.Rules.live_iff {turn : Turn} {w : Worker} {s : Worker.Step} (h : turn.Rules w s)
    (t : Token) : t ∈ s.1.tokens.live ↔ t ∈ w.tokens.live ∧ deliveries t s.2 = [] := by
  rw [h.live, h.delivers]
  refine and_congr_right fun _ => ?_
  cases turn.ruling w s t with
  | none => simp
  | some v =>
    obtain ⟨requester, verdict⟩ := v
    cases verdict <;> simp

namespace Worker

section

variable {w : Worker} {around : Surroundings} {task : Task} {x : Touch} {s : Step}

/-- A change brings no request with it. -/
theorem sound_of_touch (hx : task.touch? = some x) (hs : w.turn (.task around task) = .ok s) :
    Round.Sound ⟨w, .task around task, s.1, s.2⟩ := by
  have hnone : (Turn.task around task).tokens = [] := by
    cases task with
    | getContext => cases hx
    | _ => rfl
  refine ⟨hs, ?_, ?_⟩
  · rw [hnone]
    exact .nil
  · intro t ht
    rw [hnone] at ht
    cases ht

/-- What a change leaves alone stays as it is. -/
theorem spared_by_touch (hx : task.touch? = some x) (hs : w.turn (.task around task) = .ok s)
    (hacc : accepted s.2 = true) {t : Token}
    (hc : ¬ ∃ r, w.requests.get? t = some r ∧ x.Concerns t r) :
    s.1.requests.get? t = w.requests.get? t ∧ deliveries t s.2 = [] := by
  have hsound := sound_of_touch hx hs
  cases hr : w.requests.get? t with
  | some r =>
    have hset := hsound.settled hr
    have hspared : ¬ x.Concerns t r := fun h => hc ⟨r, hr, h⟩
    rwa [Round.verdict, hacc, (Turn.verdict_of_touch hx around s.1.store t r).2 hspared] at hset
  | none =>
    have hruling : (Turn.task around task).ruling w s t = none := by
      rw [Turn.ruling, hr]
      cases task with
      | getContext => cases hx
      | _ => rfl
    have hreq := hsound.rules.requests t
    have hdel := hsound.rules.delivers t
    simp only [hruling] at hreq hdel
    exact ⟨hreq, hdel⟩

/-- An accepted change looks at each open request on its own. -/
theorem touches_turn (hx : task.touch? = some x) (hok : task.result w = .ok ())
    (hs : w.turn (.task around task) = .ok s) : w.Touches x s := by
  have hsound := sound_of_touch hx hs
  have hacc : accepted s.2 = true := by
    rw [accepted_turn hs, Task.isChange_of_touch hx, hok]
    rfl
  have hconcerned : ∀ t r, w.requests.get? t = some r → x.Concerns t r →
      s.1.requests.get? t = (r.answered s.1.store x.identity x.available).request? ∧
      deliveries t s.2 = (r.answered s.1.store x.identity x.available).delivered r.requester := by
    intro t r hr hc
    have hset := hsound.settled hr
    rwa [Round.verdict, hacc, (Turn.verdict_of_touch hx around s.1.store t r).1 hc] at hset
  have hgoes : ∀ t r, w.requests.get? t = some r → x.Concerns t r → ¬ r.AwaitsOnly x.identity →
      s.1.requests.get? t = some (x.move r) ∧ deliveries t s.2 = [] := by
    intro t r hr hc hmore
    have hset := hconcerned t r hr hc
    rwa [Request.answered_of_not_awaitsOnly hc.2 hmore, ← x.move_eq] at hset
  have hends : ∀ t r, w.requests.get? t = some r → x.Concerns t r → r.AwaitsOnly x.identity →
      s.1.requests.get? t = none ∧
        deliveries t s.2 = [(r.requester, .context r.endpoint
          (s.1.store.aggregate r.endpoint (x.move r).refreshed (x.move r).unavailable))] := by
    intro t r hr hc hlast
    have hset := hconcerned t r hr hc
    rwa [Request.answered_of_awaitsOnly hc.2 hlast, ← x.move_eq] at hset
  -- An open request is closed, and something delivered for it, just if it awaited nothing else.
  have hclosed : ∀ t r, w.requests.get? t = some r →
      (s.1.requests.get? t = none ↔ x.Concerns t r ∧ r.AwaitsOnly x.identity) ∧
      (deliveries t s.2 = [] ↔ ¬ (x.Concerns t r ∧ r.AwaitsOnly x.identity)) := by
    intro t r hr
    by_cases hc : x.Concerns t r
    · by_cases hlast : r.AwaitsOnly x.identity
      · obtain ⟨hreq, hdel⟩ := hends t r hr hc hlast
        simp [hreq, hdel, hc, hlast]
      · obtain ⟨hreq, hdel⟩ := hgoes t r hr hc hlast
        simp [hreq, hdel, hlast]
    · obtain ⟨hreq, hdel⟩ := spared_by_touch hx hs hacc (t := t) (by simp [hr, hc])
      simp [hreq, hdel, hr, hc]
  refine ⟨hgoes, hends, fun t hc => spared_by_touch hx hs hacc hc, fun t => ?_, fun id => ?_⟩
  · rw [hsound.rules.live_iff]
    refine and_congr_right fun _ => ?_
    cases hr : w.requests.get? t with
    | none =>
      obtain ⟨-, hdel⟩ := spared_by_touch hx hs hacc (t := t) (by simp [hr])
      simp [hdel]
    | some r => simp [(hclosed t r hr).2]
  · rw [hsound.cancels_iff]
    constructor
    · rintro ⟨t, r, hr, hid, hnone⟩
      obtain ⟨hc, hlast⟩ := (hclosed t r hr).1.1 hnone
      exact ⟨t, r, hr, hc, hlast, hid⟩
    · rintro ⟨t, r, hr, hc, hlast, hid⟩
      exact ⟨t, r, hr, hid, (hclosed t r hr).1.2 ⟨hc, hlast⟩⟩

/-- No request that an accepted change concerns awaits its identity any more. -/
theorem Touches.not_awaits (h : w.Touches x s) {t : Token} {r : Request}
    (hr : s.1.requests.get? t = some r) (honly : x.only = none ∨ x.only = some t) :
    r.awaits x.identity = false := by
  rw [← Bool.not_eq_true]
  intro hi
  cases hr₀ : w.requests.get? t with
  | none =>
    obtain ⟨hsame, -⟩ := h.others t (by simp [hr₀])
    rw [hr, hr₀] at hsame
    cases hsame
  | some r₀ =>
    by_cases hc : x.Concerns t r₀
    · by_cases hlast : r₀.AwaitsOnly x.identity
      · rw [(h.succeeds t r₀ hr₀ hc hlast).1] at hr
        cases hr
      · rw [(h.goes_on t r₀ hr₀ hc hlast).1] at hr
        obtain rfl := Option.some.inj hr
        rw [Request.awaits, Touch.move, SortedSet.contains_iff_mem, SortedSet.mem_erase] at hi
        exact hi.1 rfl
    · obtain ⟨hsame, -⟩ := h.others t (by simp [hr₀, hc])
      rw [hr, hr₀] at hsame
      obtain rfl := Option.some.inj hsame
      exact hc ⟨honly, hi⟩

/-- Every outcome that comes with a change is the context of a request that it ends. -/
theorem Touches.of_delivered (h : w.Touches x s) {t : Token} {requester : Requester}
    {outcome : Outcome} (hd : (requester, outcome) ∈ deliveries t s.2) :
    ∃ r, w.requests.get? t = some r ∧ x.Concerns t r ∧ outcome = .context r.endpoint
      (s.1.store.aggregate r.endpoint (x.move r).refreshed (x.move r).unavailable) := by
  by_cases hm : ∃ r, w.requests.get? t = some r ∧ x.Concerns t r
  · obtain ⟨r, hr, hc⟩ := hm
    by_cases hlast : r.AwaitsOnly x.identity
    · rw [(h.succeeds t r hr hc hlast).2, List.mem_singleton] at hd
      exact ⟨r, hr, hc, (Prod.mk.inj hd).2⟩
    · rw [(h.goes_on t r hr hc hlast).2] at hd
      cases hd
  · rw [(h.others t hm).2] at hd
    cases hd

end

namespace Run

variable {w : Worker} {rounds : List Round} {t : Token} {r : Request}

/-- What was polled for an open request is awaited, refreshed or unavailable, and never two of
    these. -/
theorem accounts (h : w.Run rounds) (hr : w.requests.get? t = some r) :
    ∃ polled, r.Accounts polled := by
  induction h generalizing r with
  | start tokens => simp at hr
  | tokens h tokens ih => exact ih hr
  | round h hx ih =>
    rcases hx.open_after hr with ⟨r', hr', rfl, -⟩ | ⟨-, around, timeout, -, -, he⟩
    · obtain ⟨polled, hp⟩ := ih hr'
      exact ⟨polled, hp.progress⟩
    · rw [he]
      exact ⟨_, .opened ..⟩

/-- **Which requests a change touches.** A push, a write and an unregistration that are done change
    one binding, and resolve its identity for the open requests that await it: for one request if a
    write is given its token, and for all of them otherwise. A request that awaits more goes on, one
    that awaits nothing else ends with its context in the same step, and every other request is left
    as it is. Afterwards no request that was meant awaits the identity. Every context that is
    delivered shows what the change made of the identity: what was written, or nothing where it was
    cleared or unbound. A write with the reserved token is one without a token. -/
theorem touches (h : w.Run rounds) {around : Surroundings} {task : Task} {ticket : Ticket}
    {x : Touch} (hx : task.touch? = some x) (hok : w.Answers around task ticket (.ok ())) :
    ∃ s b, w.turn (.task around task) = .ok s ∧ w.store.get? x.identity = some b ∧
      (∀ j, s.1.store.get? j =
        if j = x.identity then task.rebound around b else w.store.get? j) ∧
      w.Touches x s ∧
      (∀ t r, s.1.requests.get? t = some r → x.only = none ∨ x.only = some t →
        r.awaits x.identity = false) ∧
      (∀ t requester endpoint context sample,
        (requester, .context endpoint context) ∈ deliveries t s.2 →
        ((x.identity, sample) ∈ context ↔ task.shown? around b = some sample)) ∧
      ∀ (broker : Broker) i payload policy token, token = none ∨ token = some Token.noRequest →
        broker.call ticket (.setState i payload policy token) =
          broker.submit (.setState (broker.resolve i) payload policy none ticket) .awaited := by
  obtain ⟨hchange, hticket⟩ := hok.isChange
  have hresult : task.result w = .ok () := (answers_iff_result hchange hticket).1 hok
  obtain ⟨s, hs, -⟩ := hok
  obtain ⟨b, hb, hwrite⟩ := Store.get?_write_of_touch hx hresult around
  have hsound := sound_of_touch hx hs
  have htouches := touches_turn hx hresult hs
  have hstore : ∀ j, s.1.store.get? j =
      if j = x.identity then task.rebound around b else w.store.get? j := by
    intro j
    have hleaves := hsound.leaves.store
    have hacc : accepted s.2 = true := by
      rw [accepted_turn hs, hchange, hresult]
      rfl
    rw [← hwrite j]
    simp only [hacc] at hleaves
    rw [hleaves]
    rfl
  refine ⟨s, b, hs, hb, hstore, htouches, fun t r hr honly => htouches.not_awaits hr honly, ?_, ?_⟩
  · intro t requester endpoint context sample hd
    obtain ⟨r, hr, hc, ho⟩ := htouches.of_delivered hd
    obtain ⟨rfl, rfl⟩ := Outcome.context.inj ho
    have hfiled : s.1.store.Filed := hsound.filed_after h.filed
    obtain ⟨hon, -⟩ := h.orderly.bound t r x.identity hr hc.2
    obtain ⟨polled, haccounts⟩ := h.accounts hr
    have hnot : ¬ x.identity ∈ r.unavailable :=
      haccounts.awaited_unavailable _ (SortedSet.contains_iff_mem.1 hc.2)
    rw [Store.mem_aggregate hfiled, hstore, if_pos rfl, Task.shown?_of_touch hx]
    cases ha : x.available with
    | false => simp [Task.rebound_of_unavailable hx ha]
    | true => simp [hon, Touch.move, ha, hnot]
  · intro broker i payload policy token htoken
    rcases htoken with rfl | rfl
    · rfl
    · rfl

/-- A write without a token that ends one request and leaves the other waiting for what it polled
    besides. -/
theorem touches_two_requests :
    let lamp : Identity := ⟨"lamp", "power", none, "default"⟩
    let light : Identity := ⟨"light", "power", none, "default"⟩
    let sample : Sample := ⟨"on", default, 0⟩
    let around : Surroundings := ⟨default, fun _ => true⟩
    let w := ((History.start {} 0).run [.call 0 (.register lamp 7 (.push .sometimes)),
      .call 1 (.register light 8 .pull), .call 2 (.getContext 3 "" 50),
      .call 3 (.getContext 4 "" 50), .call 4 (.respond light sample 1), .work around, .work around,
      .work around, .work around, .work around]).broker.queue.worker
    let task : Task := .setState lamp "on" .sometimes none 9
    task.touch? = some ⟨lamp, true, none⟩ ∧ w.Answers around task 9 (.ok ()) ∧
      ∃ s context r, w.turn (.task around task) = .ok s ∧ s.1.requests.get? 1 = none ∧
        deliveries 1 s.2 = [(3, .context "default" context)] ∧ (lamp, sample) ∈ context ∧
        s.1.requests.get? 2 = some r ∧ (∀ i, r.awaits i = true ↔ i = light) ∧
        deliveries 2 s.2 = [] := by
  intro lamp light sample around w task
  have hfields : (w.requests.get? 1).map (fun r => (r.requester, r.endpoint, r.awaited.toList)) =
      some (3, "default", [lamp]) ∧
    (w.requests.get? 2).map (fun r => (r.awaited.toList)) = some [lamp, light] := by decide +kernel
  obtain ⟨r₁, hr₁, hfields₁⟩ := Option.map_eq_some_iff.1 hfields.1
  obtain ⟨r₂, hr₂, hawaited₂⟩ := Option.map_eq_some_iff.1 hfields.2
  simp only [Prod.mk.injEq] at hfields₁
  obtain ⟨hrequester, hendpoint, hawaited₁⟩ := hfields₁
  have hok : w.Answers around task 9 (.ok ()) :=
    (answers_iff_result rfl rfl).2 (by decide +kernel)
  have hrun : w.Run _ := History.run_rounds {} 0 _
  obtain ⟨s, b, hs, hb, -, htouches, -, hshown, -⟩ := touches hrun (x := ⟨lamp, true, none⟩) rfl hok
  have hawaits : ∀ r : Request, ∀ i, r.awaits i = true ↔ i ∈ r.awaited.toList := by
    intro r i
    rw [Request.awaits, SortedSet.contains_iff_mem, SortedSet.mem_toList]
  have hlast : r₁.AwaitsOnly lamp := by
    intro i hi
    simpa [hawaited₁] using (hawaits r₁ i).1 hi
  have hmore : ¬ r₂.AwaitsOnly lamp := by
    intro honly
    have hlight : light = lamp := honly light ((hawaits r₂ light).2 (by simp [hawaited₂]))
    exact absurd hlight (by decide)
  have hc₁ : Touch.Concerns ⟨lamp, true, none⟩ 1 r₁ :=
    ⟨.inl rfl, (hawaits r₁ lamp).2 (by simp [hawaited₁])⟩
  have hc₂ : Touch.Concerns ⟨lamp, true, none⟩ 2 r₂ :=
    ⟨.inl rfl, (hawaits r₂ lamp).2 (by simp [hawaited₂])⟩
  obtain ⟨hnone, hdelivered⟩ := htouches.succeeds 1 r₁ hr₁ hc₁ hlast
  obtain ⟨hopen, hquiet⟩ := htouches.goes_on 2 r₂ hr₂ hc₂ hmore
  rw [hrequester, hendpoint] at hdelivered
  refine ⟨rfl, hok, s, _, _, hs, hnone, hdelivered, ?_, hopen, fun i => ?_, hquiet⟩
  · refine (hshown 1 3 "default" _ sample ?_).2 rfl
    rw [hdelivered]
    exact List.mem_singleton.2 rfl
  · rw [Request.awaits, Touch.move, SortedSet.contains_iff_mem, SortedSet.mem_erase,
      ← SortedSet.mem_toList, hawaited₂]
    constructor
    · rintro ⟨hne, hi⟩
      simpa [hne] using hi
    · rintro rfl
      exact ⟨by decide, by simp⟩

end Run

end Worker

end ContextBroker
