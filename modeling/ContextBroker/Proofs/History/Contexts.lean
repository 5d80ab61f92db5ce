import ContextBroker.Proofs.History.Decisions
import ContextBroker.Proofs.Worker.Gathering

set_option autoImplicit false

/-! # The contexts that are delivered

What a delivered context lists, and how recent its samples are, told by the rounds of the history
alone. -/

namespace ContextBroker

namespace History

/-- **The content of a delivered context.** A context is delivered for the latest request under its
    token. It lists, in strictly increasing order, what is bound on the endpoint in the end and has
    a cached sample: nothing of a binding that is never refreshed, nothing that was resolved as
    unavailable for the request, and of bindings refreshed sometimes only what was resolved with a
    state. Every sample is the one written last for its identity; what was polled was written after
    the request was opened. -/
theorem delivered_context (config : Config) (last : Token) (moves : List Move)
    (before after : List Round) (x : Round) (t : Token) (requester : Requester) (endpoint : String)
    (context : Context)
    (hrounds : ((start config last).run moves).rounds = before ++ x :: after)
    (hdelivered : (requester, .context endpoint context) ∈ deliveries t x.effects) :
    ∃ earlier opening since around timeout, before ++ [x] = earlier ++ opening :: since ∧
      opening.turn = .task around (.getContext t requester endpoint timeout) ∧
      (∀ y ∈ since, ¬ t ∈ y.turn.tokens) ∧
      ((context.map (·.1)).Pairwise fun i j => compare i j = .lt) ∧
      (∀ i sample, (i, sample) ∈ context ↔ i.endpoint = endpoint ∧
        ∃ b, x.after.store.get? i = some b ∧ b.state = some sample ∧ b.kind ≠ .push .never ∧
          (¬ ∃ y ∈ since, y.Resolves t i false) ∧
          (b.kind = .push .sometimes → ∃ y ∈ since, y.Resolves t i true)) ∧
      (∀ i sample, (i, sample) ∈ context → lastWrite i (before ++ [x]) = some sample) ∧
      ∀ i sample, (i, sample) ∈ context →
        i ∈ (opening.before.store.scatter around.retrievable endpoint).2.map (·.identity) →
        lastWrite i since = some sample := by
  have hrun := run_rounds config last moves
  simp only [hrounds] at hrun
  obtain ⟨hbefore, hx⟩ := hrun.split
  have hafter := hbefore.round hx
  obtain ⟨earlier, opening, since, around, timeout, r₀, r, heq, hturn, hno, hpolled, hg, hdone,
    rfl⟩ := hbefore.gathered hx hdelivered
  have hmem : ∀ i sample, (i, sample) ∈ x.after.store.aggregate endpoint r.refreshed r.unavailable ↔
      _ := fun i sample => Store.mem_aggregate hafter.filed
  refine ⟨earlier, opening, since, around, timeout, heq, hturn, hno, Store.increasing_gather _ _ _,
    ?_, ?_, ?_⟩
  · intro i sample
    rw [hmem, hg.unavailable, hg.refreshed]
  · intro i sample hm
    obtain ⟨-, b, hb, hs, -⟩ := (hmem i sample).1 hm
    exact hafter.lastWrite_eq (by rw [Store.state?, hb]; exact hs)
  · intro i sample hm hi
    obtain ⟨-, b, hb, hs, -, hu, -⟩ := (hmem i sample).1 hm
    exact hg.fresh i sample ((hpolled i).2 hi) (hdone i) hu (by rw [Store.state?, hb]; exact hs)

/-- A request that is answered is delivered the answer. -/
theorem delivered_context_answered :
    let light : Identity := ⟨"light", "power", none, "default"⟩
    let sample : Sample := ⟨"on", default, 0⟩
    let around : Surroundings := ⟨default, fun _ => true⟩
    let h := (start {} 0).run [.call 0 (.register light 7 .pull), .call 1 (.getContext 3 "" 50),
      .work around, .work around, .call 2 (.respond light sample 1), .work around]
    ∃ before x after, h.rounds = before ++ x :: after ∧
      (3, .context "default" [(light, sample)]) ∈ deliveries 1 x.effects ∧
      lastWrite light (before ++ [x]) = some sample := by
  intro light sample around h
  have hall : h.rounds.map (fun r => deliveries 1 r.effects) =
      [[], [], [(3, .context "default" [(light, sample)])]] := by decide +kernel
  obtain ⟨x, y, z, hrounds⟩ : ∃ x y z, h.rounds = [x, y, z] :=
    List.length_eq_three.1 ((List.length_map _).symm.trans (congrArg List.length hall))
  rw [hrounds] at hall
  simp only [List.map_cons, List.map_nil, List.cons.injEq, and_true] at hall
  have hd : (3, .context "default" [(light, sample)]) ∈ deliveries 1 z.effects := by
    rw [hall.2.2]
    exact List.mem_singleton_self _
  obtain ⟨-, -, -, -, -, -, -, -, -, -, hlast, -⟩ :=
    delivered_context {} 0 _ [x, y] [] z 1 3 "default" _ hrounds hd
  exact ⟨[x, y], z, [], hrounds, hd, hlast light sample (List.mem_singleton_self _)⟩

end History

end ContextBroker
