import MarketRelay.Proofs.Relay.Steps

/-!
# Traffic

A step pushes on the queue of a session what `Session.pushed` tells and nothing else.  So long as
nothing is evicted, the client is handed over, or has coming, all that its queue took.

* `newFrames_after`: the queue takes, in a step, the message that is pushed, if it is open.
* `frames_after_sublist`, `frames_after`: what is handed over in a step, followed by what waits
  after it, is what waited before it and was pushed in it, in this order: some of it in any case,
  and all of it if the step evicts nothing.
* `taken_append_frames_sublist`, `taken_append_frames`: the same of runs.

A queue starts with its session, so runs begin with steps in which there is none and nothing is
queued (`queue_step_of_none`).
-/
namespace MarketRelay

/-! ## One step, one session -/

namespace Session

theorem queue_leaveFor (s : Session) (reason : Option CloseReason) :
    (s.leaveFor reason).queue = s.queue ∨ (s.leaveFor reason).queue = s.queue.close := by
  cases reason with
  | none => exact Or.inl rfl
  | some reason =>
      simp only [leaveFor, leave, markClosed]
      split
      · split
        · exact Or.inl rfl
        · exact Or.inr rfl
      · exact Or.inl rfl

/-- The three things that a step can do to the queue of a session, before it closes the queue or
not: to drain it, to leave it alone, and to push a message. -/
theorem queue_after_cases {r : Relay} {st : Step} {s : Session} {P : OutboundQueue → Prop}
    (closed : ∀ q, P q → P q.close)
    (drained : st = .drain s.id → s.pushed r st = none → P s.queue.drain)
    (alone : st ≠ .drain s.id → s.pushed r st = none → P s.queue)
    (sent : ∀ m, st ≠ .drain s.id → s.pushed r st = some m → P (s.queue.push m.encode)) :
    P (s.after r st).queue := by
  have hopen : P ((s.updated r st).pushMessage (s.pushed r st)).queue := by
    by_cases hdrain : st = .drain s.id
    · subst hdrain
      rw [updated_drain]
      exact drained rfl rfl
    · have hqueue : (s.updated r st).queue = s.queue := (sameWay_updated hdrain).queue
      cases hpushed : s.pushed r st with
      | none =>
          rw [pushMessage, hqueue]
          exact alone hdrain hpushed
      | some m =>
          rw [pushMessage, push, hqueue]
          exact sent m hdrain hpushed
  rcases queue_leaveFor ((s.updated r st).pushMessage (s.pushed r st)) (s.ending r st)
    with hsame | hclosed
  · rw [after, hsame]
    exact hopen
  · rw [after, hclosed]
    exact closed _ hopen

def handed (s : Session) (st : Step) : List (List UInt8) :=
  if st = .drain s.id then s.queue.frames else []

theorem newFrames_after (r : Relay) (st : Step) (s : Session) :
    OutboundQueue.newFrames s.queue (s.after r st).queue =
      if s.queue.isClosed then [] else ((s.pushed r st).map Message.encode).toList := by
  refine queue_after_cases (P := fun q => OutboundQueue.newFrames s.queue q = _) ?_ ?_ ?_ ?_
  · intro q hq
    exact hq
  · intro _ hpushed
    rw [hpushed, OutboundQueue.newFrames_drain]
    simp
  · intro _ hpushed
    rw [hpushed, OutboundQueue.newFrames_of_frames_eq rfl rfl]
    simp
  · intro m _ hpushed
    rw [hpushed, OutboundQueue.newFrames_push]
    rfl

theorem dropped_le_after (r : Relay) (st : Step) (s : Session) :
    s.queue.dropped ≤ (s.after r st).queue.dropped := by
  refine queue_after_cases (P := fun q => s.queue.dropped ≤ q.dropped) ?_ ?_ ?_ ?_
  · intro q hq
    exact hq
  · intro _ _
    exact Nat.le_refl _
  · intro _ _
    exact Nat.le_refl _
  · intro m _ _
    exact s.queue.dropped_le_push m.encode

theorem frames_after (r : Relay) (st : Step) (s : Session) :
    (s.after r st).queue.dropped = s.queue.dropped →
      s.handed st ++ (s.after r st).queue.frames =
        s.queue.frames ++ OutboundQueue.newFrames s.queue (s.after r st).queue := by
  refine queue_after_cases (P := fun q => q.dropped = s.queue.dropped →
    s.handed st ++ q.frames = s.queue.frames ++ OutboundQueue.newFrames s.queue q) ?_ ?_ ?_ ?_
  · intro q hq
    exact hq
  · intro hdrain _ _
    rw [handed, if_pos hdrain, OutboundQueue.newFrames_drain]
    rfl
  · intro hdrain _ _
    rw [handed, if_neg hdrain, OutboundQueue.newFrames_of_frames_eq rfl rfl, List.append_nil]
    rfl
  · intro m hdrain _ hdropped
    rw [handed, if_neg hdrain]
    exact OutboundQueue.frames_push hdropped

theorem frames_after_sublist (r : Relay) (st : Step) (s : Session) :
    (s.handed st ++ (s.after r st).queue.frames).Sublist
      (s.queue.frames ++ OutboundQueue.newFrames s.queue (s.after r st).queue) := by
  refine queue_after_cases (P := fun q => (s.handed st ++ q.frames).Sublist
    (s.queue.frames ++ OutboundQueue.newFrames s.queue q)) ?_ ?_ ?_ ?_
  · intro q hq
    exact hq
  · intro hdrain _
    rw [handed, if_pos hdrain]
    exact (List.Sublist.refl s.queue.frames).append (List.nil_sublist _)
  · intro hdrain _
    rw [handed, if_neg hdrain]
    exact List.sublist_append_left s.queue.frames _
  · intro m hdrain _
    rw [handed, if_neg hdrain]
    exact s.queue.frames_push_sublist m.encode

end Session

/-! ## Runs -/

namespace Relay

variable {r : Relay} {id : SessionId}

theorem queue_of_some {s : Session} (hs : r.session? id = some s) : r.queue id = s.queue := by
  rw [queue, hs]
  rfl

theorem queue_of_none (hs : r.session? id = none) : r.queue id = .empty 0 := by
  rw [queue, hs]
  rfl

theorem handedOver_of_some {s : Session} (hs : r.session? id = some s) (st : Step) :
    r.handedOver id st = s.handed st := by
  have hid := Registry.id_of_session? hs
  cases st with
  | drain id' =>
      by_cases heq : id' = id
      · subst heq
        simp [handedOver, Session.handed, drain, hs, hid]
      · rw [handedOver, if_neg heq, Session.handed, if_neg]
        intro h
        exact heq ((Step.drain.inj h).trans hid)
  | _ => rfl

theorem handedOver_of_none (hs : r.session? id = none) (st : Step) :
    r.handedOver id st = [] := by
  cases st with
  | drain id' =>
      by_cases heq : id' = id
      · subst heq
        simp [handedOver, drain, hs]
      · rw [handedOver, if_neg heq]
  | _ => rfl

theorem queue_step_of_none (h : r.registry.Numbered) (hs : r.session? id = none) (st : Step) :
    ((r.step st).queue id).frames = [] ∧ ((r.step st).queue id).dropped = 0 := by
  cases hs' : (r.step st).session? id with
  | none =>
      rw [queue_of_none hs']
      exact ⟨rfl, rfl⟩
  | some s =>
      obtain ⟨peer, now, -, rfl⟩ := session?_step_of_none h hs hs'
      rw [queue_of_some hs']
      exact ⟨rfl, rfl⟩

theorem newFrames_step_of_none (h : r.registry.Numbered) (hs : r.session? id = none)
    (st : Step) : OutboundQueue.newFrames (r.queue id) ((r.step st).queue id) = [] := by
  rw [OutboundQueue.newFrames, (queue_step_of_none h hs st).1]
  exact List.drop_nil

theorem newFrames_step_of_some (h : r.registry.Numbered) {s : Session}
    (hs : r.session? id = some s) (st : Step) :
    OutboundQueue.newFrames (r.queue id) ((r.step st).queue id) =
      if s.queue.isClosed then [] else ((s.pushed r st).map Message.encode).toList := by
  rw [queue_of_some hs, queue_of_some (session?_step_of_some h hs st), Session.newFrames_after]

theorem dropped_le_step (h : r.registry.Numbered) (id : SessionId) (st : Step) :
    (r.queue id).dropped ≤ ((r.step st).queue id).dropped := by
  cases hs : r.session? id with
  | none =>
      rw [queue_of_none hs]
      exact Nat.zero_le _
  | some s =>
      rw [queue_of_some hs, queue_of_some (session?_step_of_some h hs st)]
      exact s.dropped_le_after r st

theorem dropped_le_run (h : r.registry.Numbered) (id : SessionId) (steps : List Step) :
    (r.queue id).dropped ≤ ((r.run steps).queue id).dropped := by
  induction steps generalizing r with
  | nil => exact Nat.le_refl _
  | cons st steps ih => exact Nat.le_trans (dropped_le_step h id st) (ih (numbered_step h st))

theorem frames_step (h : r.registry.Numbered) {st : Step}
    (hdropped : ((r.step st).queue id).dropped = (r.queue id).dropped) :
    r.handedOver id st ++ ((r.step st).queue id).frames =
      (r.queue id).frames ++ OutboundQueue.newFrames (r.queue id) ((r.step st).queue id) := by
  cases hs : r.session? id with
  | none =>
      rw [handedOver_of_none hs, (queue_step_of_none h hs st).1, newFrames_step_of_none h hs,
        queue_of_none hs]
      rfl
  | some s =>
      rw [queue_of_some hs, queue_of_some (session?_step_of_some h hs st)] at hdropped ⊢
      rw [handedOver_of_some hs]
      exact s.frames_after r st hdropped

theorem frames_step_sublist (h : r.registry.Numbered) (id : SessionId) (st : Step) :
    (r.handedOver id st ++ ((r.step st).queue id).frames).Sublist
      ((r.queue id).frames ++
        OutboundQueue.newFrames (r.queue id) ((r.step st).queue id)) := by
  cases hs : r.session? id with
  | none =>
      rw [handedOver_of_none hs, (queue_step_of_none h hs st).1]
      exact List.nil_sublist _
  | some s =>
      rw [handedOver_of_some hs, queue_of_some hs,
        queue_of_some (session?_step_of_some h hs st)]
      exact s.frames_after_sublist r st

theorem taken_append_frames_sublist (h : r.registry.Numbered) (id : SessionId)
    (steps : List Step) :
    (taken id r steps ++ ((r.run steps).queue id).frames).Sublist
      ((r.queue id).frames ++ accepted id r steps) := by
  induction steps generalizing r with
  | nil =>
      rw [taken, accepted, List.append_nil]
      exact List.Sublist.refl _
  | cons st steps ih =>
      have hrest := (ih (numbered_step h st)).append_left (r.handedOver id st)
      have hstep := (frames_step_sublist h id st).append_right (accepted id (r.step st) steps)
      rw [taken, accepted, run_cons, List.append_assoc, ← List.append_assoc (r.queue id).frames]
      rw [← List.append_assoc (r.handedOver id st) ((r.step st).queue id).frames] at hrest
      exact hrest.trans hstep

theorem received_sublist_accepted (c : Config) (id : SessionId) (steps : List Step) :
    ((Relay.ofConfig c).received id steps).Sublist (accepted id (Relay.ofConfig c) steps) :=
  taken_append_frames_sublist (Registry.numbered_empty c.maxClients) id steps

/-- While nothing is evicted, the client is handed over, or has coming, what waited for it and what
its queue took since. -/
theorem taken_append_frames (h : r.registry.Numbered) {steps : List Step}
    (hdropped : ((r.run steps).queue id).dropped = (r.queue id).dropped) :
    taken id r steps ++ ((r.run steps).queue id).frames =
      (r.queue id).frames ++ accepted id r steps := by
  induction steps generalizing r with
  | nil =>
      rw [taken, accepted, List.append_nil]
      rfl
  | cons st steps ih =>
      have hstep := dropped_le_step h id st
      have hrest := dropped_le_run (numbered_step h st) id steps
      rw [run_cons] at hdropped ⊢
      rw [taken, accepted, List.append_assoc, ih (numbered_step h st) (by omega),
        ← List.append_assoc, frames_step h (by omega), List.append_assoc]

theorem received_append (h : r.registry.Numbered) (before : List Step) {after : List Step}
    (hdropped : ((r.run (before ++ after)).queue id).dropped =
      ((r.run before).queue id).dropped) :
    r.received id (before ++ after) =
      r.received id before ++ accepted id (r.run before) after := by
  rw [run_append] at hdropped
  rw [received, taken_append, run_append, List.append_assoc,
    taken_append_frames (numbered_run h before) hdropped, received, List.append_assoc]

end Relay
end MarketRelay
