import ContextBroker.Proofs.History.Decisions
import ContextBroker.Proofs.Store.Flat
import ContextBroker.Proofs.Worker.Counting
import ContextBroker.Proofs.Worker.Writing

set_option autoImplicit false

/-! # Who is polled, and when

A round that opens a request asks for a poll of what its endpoint needs polled. The poll goes
through its targets in its own time, one provider after the other, and anything can come between two
of its calls: the worker takes turns, providers are replaced or unbound, they call back, other polls
go on. A `Polling` is a history with the calls that were made and those that are left to make.

Whatever comes between, the calls that were made for a round are the first of the targets that the
round found, and those that are left are the others (`Polling.Faithful`). Each is made when its
round is over, so the request is in the table by then, and an answer to it comes too late only if
the request was decided since (`Worker.Run.decided_of_late`).

Nothing is lost by leaving the time of the calls open: whenever a scenario makes its calls, what it
does is one such run (`Scenario.exists_polling`). -/

namespace ContextBroker

/-! ## What a round asks for -/

/-- A call that asks a provider for a state, for the request with the token. -/
structure Pull where
  token : Token
  target : PollTarget
  deriving DecidableEq

/-- The calls that an effect asks for, in order. -/
def Effect.pulls : Effect → List Pull
  | .poll token targets => targets.map (⟨token, ·⟩)
  | _ => []

/-- Only what asks for something to come back asks for calls. -/
theorem flatMap_pulls_asked (es : List Effect) :
    (asked es).flatMap (·.pulls) = es.flatMap (·.pulls) := by
  induction es with
  | nil => rfl
  | cons e es ih =>
    rw [List.flatMap_cons, ← ih]
    cases e <;> rfl

/-- Whether the turn takes an answer to a poll, with the token `t`. -/
def Turn.isAnswer (t : Token) : Turn → Bool
  | .task _ (.respond _ _ u) | .task _ (.unavailable _ u _) => u = t
  | _ => false

namespace Round

/-- The calls that a round asks for, in order. -/
def pulls (x : Round) : List Pull := x.effects.flatMap (·.pulls)

variable {x : Round} {t : Token}

theorem Sound.pulls_eq (hx : x.Sound) : x.pulls = (x.turn.asks x.before).flatMap (·.pulls) := by
  rw [pulls, ← flatMap_pulls_asked]
  exact congrArg (List.flatMap (·.pulls)) hx.leaves.asked

/-- A round that opens a request asks for a poll of what its endpoint needs polled. -/
theorem Sound.pulls_getContext (hx : x.Sound) {around : Surroundings} {requester : Requester}
    {endpoint : String} {timeout : Nat}
    (hturn : x.turn = .task around (.getContext t requester endpoint timeout)) :
    x.pulls = (x.before.store.scatter around.retrievable endpoint).2.map (⟨t, ·⟩) := by
  rw [hx.pulls_eq, hturn]
  simp only [Turn.asks]
  cases (x.before.store.scatter around.retrievable endpoint).2 with
  | nil => rfl
  | cons target targets => simp [Effect.pulls]

/-- Nothing but a request asks for a poll. -/
theorem Sound.pulls_of_opens (hx : x.Sound) (h : x.turn.opens = false) : x.pulls = [] := by
  rw [hx.pulls_eq]
  cases hturn : x.turn with
  | shutdown => rfl
  | deserted => rfl
  | task around task =>
    cases task with
    | getContext => simp [hturn, Turn.opens] at h
    | _ => rfl

/-- An answer is counted as stale only if no request is open with its token. -/
theorem Sound.closed_of_stale (hx : x.Sound) (ht : x.turn.isAnswer t = true)
    (hstale : x.after.counters.stale ≠ x.before.counters.stale) :
    x.before.requests.get? t = none := by
  have hcount := (Worker.counts_turn hx.turn).stale
  cases hr : x.before.requests.get? t with
  | none => rfl
  | some r =>
    -- A request is open with the token, so the turn counts nothing as stale.
    refine absurd ?_ hstale
    cases hturn : x.turn with
    | shutdown => simp [hturn, Turn.isAnswer] at ht
    | deserted => simp [hturn, Turn.isAnswer] at ht
    | task around task =>
      have hlate : x.turn.isLate x.before = false := by
        cases task <;> simp [hturn, Turn.isAnswer] at ht <;>
          simp [hturn, ht, Turn.isLate, Task.isLate, SortedMap.contains_eq_isSome, hr]
      rw [hlate, hturn] at hcount
      exact hcount

end Round

/-! ## Late answers -/

/-- Of rounds that do not leave a request undecided, some round is the first to decide it. -/
theorem exists_decides_of_not_undecided {t : Token} {r : Request} {rounds : List Round}
    (h : ¬ Undecided t r rounds) :
    ∃ before x after outcome, rounds = before ++ x :: after ∧ Undecided t r before ∧
      x.Decides t (follow t r before) outcome := by
  induction rounds using List.reverseRecOn with
  | nil => exact absurd (fun l x m he => by simp at he) h
  | append_singleton rounds x ih =>
    by_cases hu : Undecided t r rounds
    · have hx : ∃ o, x.Decides t (follow t r rounds) o := by
        by_contra hno
        exact h (undecided_concat.2 ⟨hu, fun o hd => hno ⟨o, hd⟩⟩)
      obtain ⟨o, hd⟩ := hx
      exact ⟨rounds, x, [], o, rfl, hu, hd⟩
    · obtain ⟨before, y, after, o, rfl, hu, hd⟩ := ih hu
      exact ⟨before, y, after ++ [x], o, by simp, hu, hd⟩

/-- **Late answers.** An answer to the poll of a request is counted as stale only if some round
    since the request was opened has decided it, and told its requester so. -/
theorem Worker.Run.decided_of_late {w : Worker} {earlier before after : List Round}
    {opening y : Round} {t : Token} {r : Request}
    (h : Run w (earlier ++ opening :: (before ++ y :: after)))
    (hr : opening.after.requests.get? t = some r) (hy : y.turn.isAnswer t = true)
    (hstale : y.after.counters.stale ≠ y.before.counters.stale) :
    ∃ l x m outcome, before = l ++ x :: m ∧ x.Decides t (follow t r l) outcome ∧
      deliveries t x.effects = [(r.requester, outcome)] := by
  have hsplit : earlier ++ opening :: (before ++ y :: after) =
      earlier ++ opening :: before ++ y :: after := by simp
  rw [hsplit] at h
  obtain ⟨hrun, hsound⟩ := h.split
  have hclosed := hsound.closed_of_stale hy hstale
  have hdecided : ¬ Undecided t r before := by
    intro hu
    have hopen := (hrun.undecided hr hu).1
    rw [hclosed] at hopen
    cases hopen
  obtain ⟨l, x, m, o, rfl, hu, hd⟩ := exists_decides_of_not_undecided hdecided
  have hsplit : earlier ++ opening :: (l ++ x :: m) = earlier ++ opening :: l ++ x :: m := by simp
  rw [hsplit] at hrun
  exact ⟨l, x, m, o, rfl, hd, (hrun.decided hr hu hd).2⟩

/-! ## Rounds are never forgotten -/

namespace History

theorem rounds_settle (h : History) (n : Nat) (last : Underway → Broker × Response) :
    (h.settle n last).rounds = h.rounds := by
  unfold settle
  cases h.underway[n]? with
  | none => rfl
  | some u => exact rounds_respond { h with underway := h.underway.eraseIdx n } u.call (last u)

/-- A move adds rounds to those that were taken before. -/
theorem rounds_isPrefix_apply (h : History) (m : Move) : h.rounds <+: (h.apply m).rounds := by
  have hsame : ∀ {h' : History}, h'.rounds = h.rounds → h.rounds <+: h'.rounds := by
    intro h' he
    exact he ▸ List.prefix_rfl
  have hguard : ∀ {p : Prop} [Decidable p] {h' : History},
      h'.rounds = h.rounds → h.rounds <+: (if p then h' else h).rounds := by
    intro p _ h' he
    split
    · exact hsame he
    · exact hsame rfl
  cases m with
  | call ticket c => exact hguard (rounds_respond h c _)
  | begin ticket c =>
    refine hguard ?_
    unfold begin
    split
    · exact rounds_respond h c _
    · rfl
  | finish n => exact hsame (rounds_settle h n _)
  | giveUp n => exact hguard (rounds_settle h n _)
  | share => exact hguard rfl
  | drop => exact hguard rfl
  | addObserver o => exact hguard rfl
  | removeObserver o => exact hguard rfl
  | work around =>
    show h.rounds <+: (h.work around).rounds
    unfold work
    split
    · show h.rounds <+: List.filterMap _ (h.log ++ [_])
      rw [List.filterMap_append]
      exact List.prefix_append _ _
    · exact hsame rfl
  | elapse timer =>
    refine hsame ?_
    show (h.elapse timer).rounds = h.rounds
    unfold elapse
    split <;> rfl

end History

/-! ## Polls on their way -/

/-- A call that was made. -/
structure Pulled where
  pull : Pull
  /-- The round that asked for it, counted from zero. -/
  round : Nat
  /-- How many rounds the worker had taken by then. -/
  moment : Nat

/-- A history with its polls. -/
structure Polling where
  history : History
  /-- For every round the calls that are left to make, in order. -/
  left : List (List Pull) := []
  pulled : List Pulled := []

namespace Polling

/-- How polls and what is around them can go on. -/
inductive Move
  /-- Anything that does not belong to a poll, be it from within a call of one. -/
  | go (move : History.Move)
  /-- The poll of the `n`-th round makes its next call. -/
  | pull (n : Nat)

/-- A new broker, whose allocator handed out `last`. -/
def start (config : Config) (last : Token) : Polling := { history := .start config last }

/-- Makes a move of the history. What a round asks for is left to do. -/
def go (p : Polling) (m : History.Move) : Polling :=
  let history := p.history.apply m
  let taken := history.rounds.drop p.history.rounds.length
  { p with history, left := p.left ++ taken.map (·.pulls) }

/-- Makes the next call of the poll of the `n`-th round, if one is left. -/
def pull (p : Polling) (n : Nat) : Polling :=
  match p.left[n]? with
  | some (next :: rest) =>
    { p with left := p.left.set n rest
             pulled := p.pulled ++ [⟨next, n, p.history.rounds.length⟩] }
  | _ => p

def apply (p : Polling) : Move → Polling
  | .go m => p.go m
  | .pull n => p.pull n

/-- Makes moves, one after the other. -/
def run (p : Polling) (moves : List Move) : Polling := moves.foldl apply p

/-- The calls that were made for the `n`-th round, in order. -/
def madeFor (p : Polling) (n : Nat) : List Pull :=
  (p.pulled.filter (·.round = n)).map (·.pull)

/-- The calls that are left to make for the `n`-th round, in order. -/
def leftFor (p : Polling) (n : Nat) : List Pull := p.left[n]?.getD []

/-- The calls that were made for a round and those that are left are what the round asked for, and
    none was made before the round was over. -/
structure Faithful (p : Polling) : Prop where
  length : p.left.length = p.history.rounds.length
  pulls (n : Nat) (x : Round) : p.history.rounds[n]? = some x →
    p.madeFor n ++ p.leftFor n = x.pulls
  moment (a : Pulled) : a ∈ p.pulled → a.round < a.moment ∧ a.moment ≤ p.history.rounds.length

variable {p : Polling}

/-- A poll makes its next call, unless it has none left. -/
theorem pull_cases (p : Polling) (n : Nat) :
    p.pull n = p ∨ ∃ next rest, p.left[n]? = some (next :: rest) ∧
      p.pull n = { p with left := p.left.set n rest
                          pulled := p.pulled ++ [⟨next, n, p.history.rounds.length⟩] } := by
  unfold pull
  split
  · rename_i next rest h
    exact .inr ⟨next, rest, h, rfl⟩
  · exact .inl rfl

namespace Faithful

theorem start (config : Config) (last : Token) : (start config last).Faithful where
  length := rfl
  pulls n x hx := by simp [Polling.start, History.start, History.rounds] at hx
  moment a ha := absurd ha List.not_mem_nil

/-- Nothing was called yet for a round that is still to come. -/
theorem madeFor_eq_nil (h : p.Faithful) {n : Nat} (hn : p.history.rounds.length ≤ n) :
    p.madeFor n = [] := by
  rw [madeFor, List.map_eq_nil_iff, List.filter_eq_nil_iff]
  intro a ha
  have hmoment := h.moment a ha
  simp only [decide_eq_true_eq]
  omega

/-- Whatever happens between two calls takes nothing from what is left. -/
theorem go (h : p.Faithful) (m : History.Move) : (p.go m).Faithful := by
  obtain ⟨taken, hrounds⟩ := p.history.rounds_isPrefix_apply m
  have hleft : (p.go m).left = p.left ++ taken.map (·.pulls) := by
    simp only [Polling.go, ← hrounds, List.drop_left]
  refine ⟨?_, ?_, ?_⟩
  · show (p.go m).left.length = (p.history.apply m).rounds.length
    rw [hleft, ← hrounds, List.length_append, List.length_append, List.length_map, h.length]
  · intro n x hx
    show p.madeFor n ++ (p.go m).left[n]?.getD [] = x.pulls
    have hx : (p.history.apply m).rounds[n]? = some x := hx
    rw [← hrounds] at hx
    rw [hleft]
    rcases Nat.lt_or_ge n p.history.rounds.length with hn | hn
    · rw [List.getElem?_append_left hn] at hx
      rw [List.getElem?_append_left (h.length ▸ hn)]
      exact h.pulls n x hx
    · rw [List.getElem?_append_right hn] at hx
      rw [List.getElem?_append_right (h.length ▸ hn), h.length, List.getElem?_map, hx,
        h.madeFor_eq_nil hn]
      rfl
  · intro a ha
    obtain ⟨hround, hmoment⟩ := h.moment a ha
    refine ⟨hround, Nat.le_trans hmoment ?_⟩
    show _ ≤ (p.history.apply m).rounds.length
    rw [← hrounds, List.length_append]
    exact Nat.le_add_right ..

/-- A call moves from those that are left to those that were made. -/
theorem pull (h : p.Faithful) (n : Nat) : (p.pull n).Faithful := by
  rcases p.pull_cases n with hp | ⟨next, rest, hn, hp⟩
  · rw [hp]
    exact h
  · rw [hp]
    obtain ⟨hlt, -⟩ := List.getElem?_eq_some_iff.1 hn
    refine ⟨?_, ?_, ?_⟩
    · rw [List.length_set, h.length]
    · intro k x hx
      rw [← h.pulls k x hx]
      by_cases hk : n = k
      · subst hk
        simp only [madeFor, leftFor, hn, List.getElem?_set_self hlt, List.filter_append,
          List.map_append, List.append_assoc]
        simp
      · simp [madeFor, leftFor, hk, List.getElem?_set_ne]
    · intro a ha
      rcases List.mem_append.1 ha with ha | ha
      · exact h.moment a ha
      · obtain rfl := List.mem_singleton.1 ha
        exact ⟨h.length ▸ hlt, Nat.le_refl _⟩

end Faithful

theorem faithful_run (config : Config) (last : Token) (moves : List Move) :
    ((start config last).run moves).Faithful := by
  induction moves using List.reverseRecOn with
  | nil => exact .start config last
  | append_singleton moves m ih =>
    rw [run, List.foldl_append]
    cases m with
    | go m => exact ih.go m
    | pull n => exact ih.pull n

/-- The move of the history that a move is. -/
def Move.history? : Move → Option History.Move
  | go m => some m
  | pull _ => none

theorem history_pull (p : Polling) (n : Nat) : (p.pull n).history = p.history := by
  rcases p.pull_cases n with hp | ⟨next, rest, -, hp⟩ <;> rw [hp]

/-- Without the calls of the polls there is a history left. -/
theorem history_run (p : Polling) (moves : List Move) :
    (p.run moves).history = p.history.run (moves.filterMap (·.history?)) := by
  induction moves generalizing p with
  | nil => rfl
  | cons m moves ih =>
    show ((p.apply m).run moves).history = _
    rw [ih]
    cases m with
    | go m => rfl
    | pull n => exact congrArg (History.run · _) (p.history_pull n)

/-- The first call that is left is the next one of some poll. -/
theorem exists_pull {next : Pull} {rest : List Pull} (h : p.left.flatten = next :: rest) :
    ∃ n, (p.pull n).left.flatten = rest ∧
      (p.pull n).pulled = p.pulled ++ [⟨next, n, p.history.rounds.length⟩] := by
  obtain ⟨done, calls, others, hleft, hdone, hrest⟩ := List.flatten_eq_cons_iff.1 h
  refine ⟨done.length, ?_⟩
  have hp : p.pull done.length = { p with
      left := done ++ calls :: others
      pulled := p.pulled ++ [⟨next, done.length, p.history.rounds.length⟩] } := by
    simp [pull, hleft]
  rw [hp]
  refine ⟨?_, rfl⟩
  rw [List.flatten_append, List.flatten_eq_nil_iff.2 hdone, hrest]
  rfl

/-- The polls can always make what is left of their calls, whatever else goes on or does not. -/
theorem exists_run_pulls (p : Polling) :
    ∃ ns : List Nat, (p.run (ns.map .pull)).history = p.history ∧
      ∀ n, (p.run (ns.map .pull)).leftFor n = [] := by
  induction hleft : p.left.flatten generalizing p with
  | nil =>
    refine ⟨[], rfl, fun n => ?_⟩
    show p.left[n]?.getD [] = []
    cases hn : p.left[n]? with
    | none => rfl
    | some calls => exact List.flatten_eq_nil_iff.1 hleft calls (List.mem_of_getElem? hn)
  | cons next rest ih =>
    obtain ⟨n, hrest, -⟩ := exists_pull hleft
    obtain ⟨ns, hhistory, hdone⟩ := ih (p.pull n) hrest
    exact ⟨n :: ns, hhistory.trans (p.history_pull n), hdone⟩

/-- **Polls match scatter sets.** Only a round that opens a request asks for calls: one for every
    capability on the endpoint that is refreshed sometimes, or is polled and has a provider that
    says its state can be retrieved, in increasing order, on the provider that was bound when the
    round was taken and with the token of the request. What is called for the round is this, from
    the first call on, whatever comes between; and what is left of it can always be called.

    If there is anything to call, the round leaves the request in the table, and it awaits exactly
    what is called. Every call is made when its round is over. So an answer that is given from
    within a call is taken in a later round, and is counted as stale only if a round between the two
    decided the request. -/
theorem pulls_match_scatter (config : Config) (last : Token) (moves : List Move) :
    let p := (start config last).run moves
    (∀ a ∈ p.pulled, a.round < a.moment ∧ a.moment ≤ p.history.rounds.length) ∧
    (∃ ns : List Nat, (p.run (ns.map .pull)).history = p.history ∧
      ∀ n, (p.run (ns.map .pull)).leftFor n = []) ∧
    ∀ earlier x later, p.history.rounds = earlier ++ x :: later →
      let calls := p.madeFor earlier.length ++ p.leftFor earlier.length
      (x.turn.opens = false → calls = []) ∧
      ∀ around t requester endpoint timeout,
        x.turn = .task around (.getContext t requester endpoint timeout) →
        ∃ targets : List PollTarget, calls = targets.map (⟨t, ·⟩) ∧
          (∀ i provider, ⟨i, provider⟩ ∈ targets ↔
            i.endpoint = endpoint ∧ ∃ b, x.before.store.get? i = some b ∧ b.provider = provider ∧
              (b.kind = .push .sometimes ∨ b.kind = .pull ∧ around.retrievable provider = true)) ∧
          (targets.map (·.identity)).Pairwise (fun i j => compare i j = .lt) ∧
          (targets ≠ [] → ∃ r, x.after.requests.get? t = some r ∧
            (∀ i, r.awaits i = true ↔ i ∈ targets.map (·.identity)) ∧
            ∀ before y after, later = before ++ y :: after → y.turn.isAnswer t = true →
              y.after.counters.stale ≠ y.before.counters.stale →
              ∃ l z m outcome, before = l ++ z :: m ∧ z.Decides t (follow t r l) outcome ∧
                deliveries t z.effects = [(requester, outcome)]) := by
  intro p
  have hp : p.Faithful := faithful_run config last moves
  refine ⟨hp.moment, p.exists_run_pulls, ?_⟩
  intro earlier x later hrounds calls
  have hrun := History.run_rounds_of_eq (history_run (start config last) moves)
  rw [hrounds] at hrun
  obtain ⟨hbefore, hx⟩ := hrun.split
  have hcalls : calls = x.pulls := hp.pulls earlier.length x (by simp [hrounds])
  rw [hcalls]
  refine ⟨hx.pulls_of_opens, ?_⟩
  intro around t requester endpoint timeout hturn
  refine ⟨_, hx.pulls_getContext hturn, ?_, Store.increasing_targets .., ?_⟩
  · intro i provider
    rw [← Store.mem_targets hbefore.filed, List.mem_map]
    constructor
    · intro hi
      exact ⟨_, hi, rfl⟩
    · rintro ⟨target, hi, he⟩
      obtain ⟨rfl, rfl⟩ := Prod.mk.inj he
      exact hi
  · intro hne
    obtain ⟨hopen, -, -⟩ := hx.opened hturn hne
    refine ⟨_, hopen, fun i => SortedSet.mem_ofList, ?_⟩
    rintro before y after rfl hy hstale
    exact hrun.decided_of_late hopen hy hstale

/-- Two sensors are to be polled. The request has timed out when the second one is asked, which
    answers at once. -/
def answeredLate : List Move :=
  let around : Surroundings := ⟨default, fun _ => true⟩
  [.go (.call 0 (.register ⟨"light", "power", none, ""⟩ 7 .pull)),
    .go (.call 1 (.register ⟨"door", "open", none, ""⟩ 8 .pull)),
    .go (.call 2 (.getContext 3 "" 50)), .go (.work around), .go (.work around), .go (.work around),
    .pull 2, .go (.elapse 1), .go (.work around),
    .pull 2, .go (.call 3 (.respond ⟨"light", "power", none, ""⟩ default 1)), .go (.work around)]

/-- The second sensor is asked when the request has timed out, so its answer comes too late. -/
theorem pulls_match_scatter_late :
    let p := (start {} 0).run answeredLate
    p.pulled.map (fun a => (a.pull.target.provider, a.moment)) = [(8, 3), (7, 4)] ∧
    p.history.broker.queue.worker.counters.stale = 1 ∧
    ∃ z ∈ p.history.rounds, ∃ outcome, deliveries 1 z.effects = [(3, outcome)] := by
  intro p
  have hproviders : p.pulled.map (fun a => (a.pull.target.provider, a.moment)) = [(8, 3), (7, 4)] :=
    by decide +kernel
  have hturns : p.history.rounds.map (fun x => (x.turn.opens, x.turn.requests, x.turn.isAnswer 1,
      x.before.counters.stale, x.after.counters.stale)) =
      [(false, [], false, 0, 0), (false, [], false, 0, 0), (true, [(1, 3)], false, 0, 0),
        (false, [], false, 0, 0), (false, [], true, 0, 1)] := by decide +kernel
  simp only [List.map_eq_cons_iff, List.map_eq_nil_iff, Prod.mk.injEq] at hturns
  obtain ⟨x₀, _, hrounds, -, x₁, _, rfl, -, x, _, rfl, ⟨hopens, hrequests, -⟩, z, _, rfl, -, y, _,
    rfl, ⟨-, -, hanswer, hbefore, hafter⟩, rfl⟩ := hturns
  obtain ⟨around, t, requester, endpoint, timeout, hturn⟩ : ∃ around t requester endpoint timeout,
      x.turn = .task around (.getContext t requester endpoint timeout) := by
    unfold Turn.opens at hopens
    split at hopens
    · exact ⟨_, _, _, _, _, by assumption⟩
    · cases hopens
  rw [hturn] at hrequests
  obtain ⟨rfl, rfl⟩ := Prod.mk.inj (List.cons.inj hrequests).1
  obtain ⟨-, -, hround⟩ := pulls_match_scatter {} 0 answeredLate
  obtain ⟨targets, hcalls, -, -, hopen⟩ :=
    (hround [x₀, x₁] x [z, y] hrounds).2 around 1 3 endpoint timeout hturn
  have hne : targets ≠ [] := by
    rintro rfl
    have hmade : p.madeFor 2 = [] := (List.append_eq_nil_iff.1 hcalls).1
    have hlength : (p.madeFor 2).length = 2 := by decide +kernel
    rw [hmade] at hlength
    cases hlength
  obtain ⟨r, -, -, hlate⟩ := hopen hne
  obtain ⟨l, z', m, outcome, hz, -, hdelivered⟩ :=
    hlate [z] y [] rfl hanswer (by simp [hbefore, hafter])
  have hmem : z' ∈ [z] := by
    rw [hz]
    exact List.mem_append_right _ List.mem_cons_self
  obtain rfl := List.mem_singleton.1 hmem
  exact ⟨hproviders, by decide +kernel, z', by simp [hrounds], outcome, hdelivered⟩

end Polling

end ContextBroker
