import ContextBroker.Proofs.Worker.Leaving

set_option autoImplicit false

/-! # What a task is answered

Most tasks are answered with a reply. It is told by the task, the store, and which tokens are open
(`Task.replies`); what else is in the table of open requests plays no part. Whether a change is
turned down is told by the same (`Task.result`). -/

namespace ContextBroker

/-- Whether an effect is a reply. -/
def Effect.isReply : Effect → Bool
  | .reply .. => true
  | _ => false

/-- The replies among effects, in order. -/
def replied (effects : List Effect) : List Effect := effects.filter (·.isReply)

@[simp] theorem replied_append (es fs : List Effect) :
    replied (es ++ fs) = replied es ++ replied fs := List.filter_append ..

/-- Only a reply can tell a caller that its call was done. -/
theorem accepted_replied (es : List Effect) : accepted (replied es) = accepted es := by
  unfold accepted replied
  rw [List.any_filter]
  refine congrArg (List.any es) (funext fun e => ?_)
  cases e <;> simp [Effect.isReply, Effect.isAcceptance]

namespace Task

/-- Whether the task is a call that changes something unless it is turned down. -/
def isChange : Task → Bool
  | register .. | unregister .. | setState .. | pushState .. => true
  | _ => false

/-- What a change comes to: it is done, or turned down for a reason. -/
def result (w : Worker) : Task → Except CallError Unit
  | unregister i _ | pushState i _ _ => if w.store.contains i then .ok () else .error (.unbound i)
  | setState i _ policy token _ =>
    match w.store.get? i with
    | none => .error (.unbound i)
    | some b =>
      match token.filter fun t => !w.requests.contains t with
      | some t => .error (.staleToken t)
      | none =>
        if b.kind.allows policy then .ok () else .error (.policyChange i b.kind.text policy)
  | _ => .ok ()

/-- What a task is answered. -/
def replies (w : Worker) (task : Task) : List Effect :=
  match task with
  | register _ _ _ ticket | unregister _ ticket | setState _ _ _ _ ticket
  | pushState _ _ ticket => [.reply ticket (.done (task.result w))]
  | read endpoint ticket => [.reply ticket (.context (.ok (w.store.read endpoint)))]
  | metrics ticket => [.reply ticket (.metrics w.metrics)]
  | shutdown ticket => ticket.toList.map (.reply · .stopped)
  | report .. | getContext .. | respond .. | unavailable .. | timeout .. => []

end Task

namespace Worker

variable {w : Worker} {s : Step}

theorem replied_replies {es : List Effect} (h : Replies es) : replied es = es := by
  refine List.filter_eq_self.2 fun e he => ?_
  obtain ⟨ticket, reply, rfl⟩ := h e he
  rfl

theorem Settles.replied {d : Token → Request → Verdict} (h : Settles w s d) :
    replied s.2 = [] := by
  refine List.filter_eq_nil_iff.2 fun e he hr => ?_
  have hc := h.closing e he
  cases e <;> simp [Effect.isClosing, Effect.isReply] at hc hr

/-- A change is answered with what it comes to. -/
theorem replied_replyTo (w : Worker) (ticket : Ticket) {r : Except CallError Step}
    {d : Step → Token → Request → Verdict}
    (hok : ∀ s, r = .ok s → Settles { w with store := s.1.store } s (d s)) :
    ContextBroker.replied (w.replyTo ticket r).2 =
      [.reply ticket (.done (r.map fun _ => ()))] := by
  cases r with
  | error e => rfl
  | ok s =>
    simp only [replyTo, replied_append, (hok s rfl).replied]
    rfl

/-! ## What changes come to -/

theorem map_unregister (w : Worker) (i : Identity) (ticket : Ticket) :
    (w.unregister i).map (fun _ => ()) = (Task.unregister i ticket).result w := by
  unfold unregister Store.unregister
  rcases hb : w.store.get? i with _ | b <;> simp [Task.result, Store.contains, hb, Except.map]

theorem map_pushState (w : Worker) (i : Identity) (sample : Sample) (ticket : Ticket) :
    (w.pushState i sample).map (fun _ => ()) = (Task.pushState i sample ticket).result w := by
  unfold pushState Store.push
  rcases hb : w.store.get? i with _ | b <;> simp [Task.result, Store.contains, hb, Except.map]

theorem map_setState (w : Worker) (now : Timestamp) (i : Identity) (payload : String)
    (policy : RefreshPolicy) (token : Option Token) (ticket : Ticket) :
    (w.setState now i payload policy token).map (fun _ => ()) =
      (Task.setState i payload policy token ticket).result w := by
  unfold setState Store.pushUnder
  rcases hb : w.store.get? i with _ | b
  · simp [Task.result, Store.contains, hb, Except.map]
  · rcases hs : token.filter fun t => !w.requests.contains t with _ | t
    · by_cases ha : b.kind.allows policy = true <;>
        simp [Task.result, Store.contains, hb, hs, Except.map, ha]
    · simp [Task.result, Store.contains, hb, hs, Except.map]

/-! ## Tasks -/

/-- **What a task is answered** depends on the store and on which tokens are open only. -/
theorem replied_handle {around : Surroundings} {task : Task} (h : w.handle around task = .ok s) :
    ContextBroker.replied s.2 = task.replies w := by
  cases task with
  | register i provider kind ticket =>
    obtain rfl := Except.ok.inj h
    rfl
  | read endpoint ticket =>
    obtain rfl := Except.ok.inj h
    rfl
  | metrics ticket =>
    obtain rfl := Except.ok.inj h
    rfl
  | shutdown ticket =>
    obtain rfl := Except.ok.inj h
    exact replied_replies (replies_map _ _)
  | report i sample =>
    obtain rfl := Except.ok.inj h
    rfl
  | unregister i ticket =>
    obtain rfl := Except.ok.inj h
    rw [replied_replyTo w ticket fun s hs => settles_unregister hs, map_unregister w i ticket]
    rfl
  | setState i payload policy token ticket =>
    obtain rfl := Except.ok.inj h
    rw [replied_replyTo w ticket fun s hs => settles_setState hs, map_setState _ _ _ _ _ _ ticket]
    rfl
  | pushState i sample ticket =>
    obtain rfl := Except.ok.inj h
    rw [replied_replyTo w ticket fun s hs => settles_pushState hs, map_pushState _ _ _ ticket]
    rfl
  | respond i sample t =>
    obtain rfl := Except.ok.inj h
    exact (settles_respond w i sample t).replied
  | unavailable i t unreachable =>
    obtain rfl := Except.ok.inj h
    exact (settles_unavailable w i t unreachable).replied
  | timeout t generation =>
    obtain rfl := Except.ok.inj h
    exact (settles_timeOut w t generation).replied
  | getContext t requester endpoint timeout =>
    simp only [handle] at h
    split at h
    · cases h
    · obtain rfl := Except.ok.inj h
      simp only [getContext]
      split
      · exact (settles_succeed (SortedMap.get?_insert_self ..)).replied
      · rfl

theorem replied_turn {around : Surroundings} {task : Task}
    (h : w.turn (.task around task) = .ok s) :
    ContextBroker.replied s.2 = task.replies w.countTask :=
  replied_handle h

/-- A change is accepted when it is not turned down, and no other task is. -/
theorem accepted_turn {around : Surroundings} {task : Task}
    (h : w.turn (.task around task) = .ok s) :
    accepted s.2 = (task.isChange && (task.result w).isOk) := by
  rw [← accepted_replied, replied_turn h]
  have hresult : ∀ (ticket : Ticket) (r : Except CallError Unit),
      accepted [.reply ticket (.done r)] = r.isOk := fun ticket r => by
    cases r <;> rfl
  cases task with
  | shutdown ticket => cases ticket <;> rfl
  | unregister i ticket => exact hresult ..
  | setState i payload policy token ticket => exact hresult ..
  | pushState i sample ticket => exact hresult ..
  | _ => rfl

end Worker

end ContextBroker
