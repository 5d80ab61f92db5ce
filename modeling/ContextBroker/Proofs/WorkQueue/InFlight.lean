import ContextBroker.Proofs.Token
import ContextBroker.Proofs.WorkQueue.Taking
import ContextBroker.Proofs.Worker.Ruling

set_option autoImplicit false

/-! # Requests in flight

A request is in flight from the moment it is numbered until its outcome is delivered. On the way it
is first numbered and not posted yet, then it waits in the queue, then it is open. The invariant
`WorkQueue.Tracked` says that the allocator knows exactly the tokens of the requests in flight and
that no two of these share one. Every operation on the queue keeps it; so the worker never meets a
request whose token is open, and whose request it was is still known when an outcome is delivered
(`WorkQueue.owed?`). -/

namespace ContextBroker

/-! ## Arrivals -/

namespace Turn

/-- A turn's arrivals are the requests that it takes from the queue. -/
theorem requester_arrival? (turn : Turn) (w : Worker) (t : Token) :
    (turn.arrival? w t).map (·.1) = turn.requests.lookup t := by
  cases turn with
  | deserted => rfl
  | shutdown ticket rest =>
    simp only [arrival?, requests, Option.map_map]
    cases (requested rest).lookup t <;> rfl
  | task around x =>
    cases x with
    | getContext u requester endpoint timeout =>
      by_cases hu : u = t
      · simp [arrival?, requests, requested, Task.request?, hu]
      · have hb : (t == u) = false := by simpa using fun h : t = u => hu h.symm
        simp [arrival?, requests, requested, Task.request?, hu, List.lookup_cons, hb]
    | _ => rfl

theorem arrival?_eq_none {turn : Turn} {w : Worker} {t : Token} :
    turn.arrival? w t = none ↔ ¬ t ∈ turn.tokens := by
  rw [tokens, ← Worker.lookup_isSome, ← requester_arrival? turn w t, Option.isSome_map]
  cases turn.arrival? w t <;> simp

/-- A request that stays open once it has arrived belongs to whoever it came from. -/
theorem requester_of_arrival? {turn : Turn} {w : Worker} {t : Token} {requester : Requester}
    {r : Request} (h : turn.arrival? w t = some (requester, .stays r)) :
    r.requester = requester := by
  rcases arrival?_cases h with ⟨around, endpoint, timeout, -, hv⟩ | ⟨-, hv⟩
  · unfold Worker.admitted at hv
    simp only at hv
    split at hv
    · cases hv
    · cases hv
      rfl
  · cases hv

/-- Once the work has ended no request is open. -/
theorem request?_of_isEnd {turn : Turn} (he : turn.isEnd = true) (w : Worker) (s : Worker.Step)
    (t : Token) : (turn.ruling w s t).bind (·.2.request?) = none := by
  cases turn with
  | task around x => simp [isEnd] at he
  | shutdown ticket rest =>
    unfold ruling
    cases w.requests.get? t with
    | some r => rfl
    | none => cases h : (requested rest).lookup t <;> simp [arrival?, h]
  | deserted =>
    unfold ruling
    cases w.requests.get? t <;> rfl

end Turn

/-- A turn whose requests have tokens of their own breaks no rule. -/
theorem Worker.turn_ok {w : Worker} {turn : Turn} (hd : turn.Distinct w) :
    ∃ s, w.turn turn = .ok s := by
  cases turn with
  | shutdown ticket rest => exact ⟨_, rfl⟩
  | deserted => exact ⟨_, rfl⟩
  | task around x =>
    cases x with
    | getContext t requester endpoint timeout =>
      have ht : w.countTask.requests.get? t = none :=
        hd.apart t (by simp [Turn.tokens, Turn.requests, requested, Task.request?])
      have hc : w.countTask.requests.contains t = false := by
        rw [SortedMap.contains_eq_isSome, ht]
        rfl
      simp [turn, handle, hc]
    | _ => exact ⟨_, rfl⟩

namespace WorkQueue

/-! ## The invariant -/

/-- The allocator of `q` tracks the requests in flight, of which those in `numbered` are still to be
    posted. -/
structure Tracked (q : WorkQueue) (numbered : List (Token × Requester)) : Prop where
  nodup : ((requested q.tasks ++ numbered).map (·.1)).Nodup
  apart (t : Token) :
    t ∈ (requested q.tasks ++ numbered).map (·.1) → q.worker.requests.get? t = none
  live (t : Token) :
    t ∈ q.worker.tokens.live ↔
      (q.worker.requests.get? t).isSome ∨ t ∈ (requested q.tasks ++ numbered).map (·.1)
  nonzero : ¬ Token.noRequest ∈ q.worker.tokens.live
  sound (fault : Fault) : q.phase ≠ .broken fault
  ended : q.phase ≠ .running → q.tasks = [] ∧ ∀ t, q.worker.requests.get? t = none

namespace Tracked

variable {q q' : WorkQueue} {numbered : List (Token × Requester)}

/-- A request that is numbered gets a token that none in flight has. -/
theorem number (h : Tracked q numbered) {t : Token} {tokens : TokenAllocator}
    (ha : q.worker.tokens.allocate? = some (t, tokens)) (requester : Requester) :
    Tracked { q with worker.tokens := tokens } (numbered ++ [(t, requester)]) := by
  obtain ⟨hfree, hzero, rfl⟩ := TokenAllocator.allocate?_spec ha
  rw [h.live, not_or, Option.not_isSome_iff_eq_none] at hfree
  obtain ⟨hclosed, hnew⟩ := hfree
  refine ⟨?_, ?_, ?_, ?_, h.sound, h.ended⟩
  · rw [← List.append_assoc, List.map_append, List.nodup_append]
    refine ⟨h.nodup, by simp, fun u hu v hv huv => hnew ?_⟩
    obtain rfl : v = t := by simpa using hv
    exact huv ▸ hu
  · intro u hu
    rw [← List.append_assoc, List.map_append, List.mem_append] at hu
    rcases hu with hu | hu
    · exact h.apart u hu
    · obtain rfl : u = t := by simpa using hu
      exact hclosed
  · intro u
    rw [SortedSet.mem_insert, h.live, ← List.append_assoc]
    simp only [List.map_append, List.mem_append, List.map_cons, List.map_nil, List.mem_singleton]
    rw [or_comm, or_assoc]
  · rw [SortedSet.mem_insert, not_or]
    exact ⟨hzero.symm, h.nonzero⟩

/-- It does not matter in which order requests were numbered. -/
theorem perm (h : Tracked q numbered) {numbered' : List (Token × Requester)}
    (hp : numbered.Perm numbered') : Tracked q numbered' := by
  have hp : ((requested q.tasks ++ numbered).map (·.1)).Perm
      ((requested q.tasks ++ numbered').map (·.1)) := (hp.append_left _).map _
  refine ⟨hp.nodup_iff.1 h.nodup, fun t ht => h.apart t (hp.mem_iff.2 ht), fun t => ?_, h.nonzero,
    h.sound, h.ended⟩
  rw [h.live, hp.mem_iff]

/-- A request that is given up before it is posted is in flight no more. -/
theorem release {t : Token} {requester : Requester} (h : Tracked q ((t, requester) :: numbered)) :
    Tracked { q with worker.tokens := q.worker.tokens.release t } numbered := by
  have hp : ((requested q.tasks ++ (t, requester) :: numbered).map (·.1)).Perm
      (t :: (requested q.tasks ++ numbered).map (·.1)) := List.perm_middle.map _
  have hn := hp.nodup_iff.1 h.nodup
  obtain ⟨hnot, hn⟩ := List.nodup_cons.1 hn
  refine ⟨hn, fun u hu => h.apart u (hp.mem_iff.2 (List.mem_cons_of_mem _ hu)), ?_, ?_, h.sound,
    h.ended⟩
  · intro u
    rw [TokenAllocator.release, SortedSet.mem_erase, h.live, hp.mem_iff, List.mem_cons]
    constructor
    · rintro ⟨hu, ho | rfl | hm⟩
      · exact .inl ho
      · exact absurd rfl hu
      · exact .inr hm
    · rintro (ho | hm)
      · refine ⟨?_, .inl ho⟩
        rintro rfl
        simp [h.apart u (hp.mem_iff.2 (List.mem_cons_self ..))] at ho
      · exact ⟨fun hu => hnot (hu ▸ hm), .inr (.inr hm)⟩
  · intro hz
    exact h.nonzero (SortedSet.mem_erase.1 hz).2

/-- Posting a task moves its request, if it is one, into the queue. -/
theorem post {task : Task} (h : Tracked q (task.request?.toList ++ numbered))
    (hq : q.post? task = some q') : Tracked q' numbered := by
  unfold post? at hq
  split at hq
  · rename_i hopen
    obtain rfl := Option.some.inj hq
    have hr : requested (q.tasks ++ [task]) ++ numbered =
        requested q.tasks ++ (task.request?.toList ++ numbered) := by
      simp [requested_cons]
    refine ⟨?_, ?_, ?_, h.nonzero, h.sound, ?_⟩
    · rw [hr]
      exact h.nodup
    · rw [hr]
      exact h.apart
    · rw [hr]
      exact h.live
    · intro hp
      simp [isOpen] at hopen
      exact absurd hopen.1 hp
  · simp at hq

/-- Who could post plays no part. -/
theorem senders (h : Tracked q numbered) (n : Nat) : Tracked { q with senders := n } numbered :=
  ⟨h.nodup, h.apart, h.live, h.nonzero, h.sound, h.ended⟩

/-- A turn of the worker breaks no rule, does to requests what it has for them, and keeps the
    tokens in order. -/
theorem turn (h : Tracked q numbered) {around : Surroundings} {turn : Turn}
    (ht : q.turn? around = some turn) :
    ∃ s, q.worker.turn turn = .ok s ∧ turn.Distinct q.worker ∧ turn.Rules q.worker s ∧
      Tracked (q.after turn s.1) numbered := by
  have hq : ∀ w, requested q.tasks ++ numbered =
      turn.requests ++ (requested (q.after turn w).tasks ++ numbered) := by
    intro w
    rw [requested_of_turn? ht w, List.append_assoc]
  have hd : turn.Distinct q.worker := by
    have hn := h.nodup
    have ha := h.apart
    rw [hq q.worker, List.map_append] at hn ha
    exact ⟨(List.nodup_append.1 hn).1, fun t ht => ha t (List.mem_append_left _ ht)⟩
  obtain ⟨s, hs⟩ := Worker.turn_ok hd
  have hr := Worker.rules_turn hs hd
  obtain ⟨hn, ha, hl, hz, hphase, -⟩ := h
  rw [hq s.1, List.map_append] at hn ha hl
  obtain ⟨-, hn, hdis⟩ := List.nodup_append.1 hn
  refine ⟨s, hs, hd, hr, hn, ?_, ?_, fun hz' => hz ((hr.live _).1 hz').1, ?_, ?_⟩
  · intro t hm
    -- What is still waiting neither was open before nor arrived with the turn.
    have hnot : ¬ t ∈ turn.tokens := fun h => hdis t h t hm rfl
    show s.1.requests.get? t = none
    rw [hr.requests, Turn.ruling, ha t (List.mem_append_right _ hm), Turn.arrival?_eq_none.2 hnot]
    rfl
  · intro t
    show t ∈ s.1.tokens.live ↔ (s.1.requests.get? t).isSome ∨ _
    rw [hr.live, hl, hr.requests, List.mem_append]
    cases ho : q.worker.requests.get? t with
    | some r =>
      -- A token that is open is neither taken nor left waiting, so the verdict alone counts.
      have hm : ¬ t ∈ (requested (q.after turn s.1).tasks ++ numbered).map (·.1) := by
        intro hm
        simp [ha t (List.mem_append_right _ hm)] at ho
      have hrul : turn.ruling q.worker s t =
          some (r.requester, turn.verdict (accepted s.2) s.1.store t r) := by
        rw [Turn.ruling, ho]
      simp only [hrul, Option.isSome_some, true_or, true_and, Option.some.injEq, forall_eq',
        Option.bind_some, hm, or_false]
      cases turn.verdict (accepted s.2) s.1.store t r <;> simp
    | none =>
      have hrul : turn.ruling q.worker s t = turn.arrival? q.worker t := by rw [Turn.ruling, ho]
      rw [hrul]
      -- The turn takes the request with this token, and then leaves none waiting, or none at all.
      by_cases hm : t ∈ turn.tokens
      · have hm' : ¬ t ∈ (requested (q.after turn s.1).tasks ++ numbered).map (·.1) :=
          fun h => hdis t hm t h rfl
        obtain ⟨v, hv⟩ : ∃ v, turn.arrival? q.worker t = some v := by
          rw [← Option.ne_none_iff_exists', Ne, Turn.arrival?_eq_none, not_not]
          exact hm
        have hmt : t ∈ turn.requests.map (·.1) := hm
        simp only [hv, hmt, or_true, true_and, Option.some.injEq, forall_eq',
          Option.bind_some, hm', or_false]
        cases v.2 <;> simp
      · have hmt : ¬ t ∈ turn.requests.map (·.1) := hm
        simp [Turn.arrival?_eq_none.2 hm, hmt]
  · intro fault hf
    have : (q.after turn s.1).phase = .running ∨ (q.after turn s.1).phase = .stopped := by
      unfold after
      cases turn.isEnd <;> simp
    rw [hf] at this
    simp at this
  · intro hp
    have he : turn.isEnd = true := by
      by_contra he
      simp [after, he] at hp
    refine ⟨by simp [after, he], fun t => ?_⟩
    show s.1.requests.get? t = none
    rw [hr.requests, Turn.request?_of_isEnd he]

end Tracked

/-! ## Who waits for an outcome -/

/-- Whose request has the token `t`, if one is open or waits in the queue. -/
def owed? (q : WorkQueue) (t : Token) : Option Requester :=
  match q.worker.requests.get? t with
  | some r => some r.requester
  | none => (requested q.tasks).lookup t

variable {q q' : WorkQueue} {numbered : List (Token × Requester)}

/-- A request that is not posted yet is owed nothing. -/
theorem owed?_of_numbered (h : Tracked q numbered) {t : Token} (ht : t ∈ numbered.map (·.1)) :
    q.owed? t = none := by
  have hn := h.nodup
  have ha := h.apart t
  rw [List.map_append] at hn ha
  rw [owed?, ha (List.mem_append_right _ ht), ← Option.not_isSome_iff_eq_none,
    Worker.lookup_isSome]
  intro hm
  exact (List.nodup_append.1 hn).2.2 t hm t ht rfl

/-- A request is owed an outcome as soon as it is posted; others are owed what they were. -/
theorem owed?_post {task : Task} (hq : q.post? task = some q') (t : Token) :
    q'.owed? t = (q.owed? t).or (task.request?.toList.lookup t) := by
  unfold post? at hq
  split at hq
  · obtain rfl := Option.some.inj hq
    unfold owed?
    cases q.worker.requests.get? t with
    | some r => rfl
    | none => simp [requested_cons, List.lookup_append]
  · simp at hq

/-- In a turn of the worker a request goes on being owed its outcome, or the outcome is delivered to
    whom it is owed. -/
theorem owed?_turn (h : Tracked q numbered) {around : Surroundings} {turn : Turn}
    {s : Worker.Step} (ht : q.turn? around = some turn) (hr : turn.Rules q.worker s) (t : Token) :
    (deliveries t s.2 = [] ∧ (q.after turn s.1).owed? t = q.owed? t) ∨
      ∃ requester outcome, q.owed? t = some requester ∧
        deliveries t s.2 = [(requester, outcome)] ∧ (q.after turn s.1).owed? t = none := by
  have hn := h.nodup
  have ha := h.apart t
  rw [requested_of_turn? ht s.1, List.append_assoc, List.map_append] at hn ha
  rw [List.map_append] at ha
  have hafter : ∀ r, s.1.requests.get? t = some r →
      (q.after turn s.1).owed? t = some r.requester := by
    intro r hr
    simp [owed?, after, hr]
  have hqueued : s.1.requests.get? t = none →
      (q.after turn s.1).owed? t = (requested (q.after turn s.1).tasks).lookup t := by
    intro hr
    simp [owed?, after, hr]
  have hreq := hr.requests t
  have hdel := hr.delivers t
  unfold Turn.ruling at hreq hdel
  cases ho : q.worker.requests.get? t with
  | some r =>
    -- Once an open request has ended no other one waits under its token.
    have howed : q.owed? t = some r.requester := by simp [owed?, ho]
    simp only [ho, Option.bind_some, Option.map_some, Option.getD_some] at hreq hdel
    cases hv : turn.verdict (accepted s.2) s.1.store t r with
    | stays r' =>
      rw [hv] at hreq hdel
      refine .inl ⟨hdel, ?_⟩
      rw [hafter r' hreq, howed, (turn.keeps_verdict _ _ _ _ r' hv).1]
    | ends o =>
      rw [hv] at hreq hdel
      refine .inr ⟨r.requester, o, howed, hdel, ?_⟩
      rw [hqueued hreq, ← Option.not_isSome_iff_eq_none, Worker.lookup_isSome]
      intro hm
      simp [ha (List.mem_append_right _ (List.mem_append_left _ hm))] at ho
  | none =>
    have hlook : q.owed? t =
        (turn.requests.lookup t).or ((requested (q.after turn s.1).tasks).lookup t) := by
      simp only [owed?, ho]
      rw [requested_of_turn? ht s.1, List.lookup_append]
    simp only [ho] at hreq hdel
    cases hv : turn.arrival? q.worker t with
    | none =>
      -- The request is still in the queue, if there is one.
      rw [hv] at hreq hdel
      refine .inl ⟨hdel, ?_⟩
      rw [hqueued hreq, hlook, ← Turn.requester_arrival? turn q.worker t, hv]
      rfl
    | some v =>
      obtain ⟨requester, v⟩ := v
      have howed : q.owed? t = some requester := by
        rw [hlook, ← Turn.requester_arrival? turn q.worker t, hv]
        rfl
      simp only [hv, Option.bind_some, Option.map_some, Option.getD_some] at hreq hdel
      cases v with
      | stays r' =>
        refine .inl ⟨hdel, ?_⟩
        rw [hafter r' hreq, howed, Turn.requester_of_arrival? hv]
      | ends o =>
        refine .inr ⟨requester, o, howed, hdel, ?_⟩
        have hm : t ∈ turn.tokens := by
          by_contra hm
          simp [Turn.arrival?_eq_none.2 hm] at hv
        rw [hqueued hreq, ← Option.not_isSome_iff_eq_none, Worker.lookup_isSome]
        intro hm'
        refine (List.nodup_append.1 hn).2.2 t hm t ?_ rfl
        rw [List.map_append]
        exact List.mem_append_left _ hm'

end WorkQueue

end ContextBroker
