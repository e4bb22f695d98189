import MarketRelay.Proofs.Relay.Turns

/-!
# Ends are final

A session that left the list is still known to its reader and its writer, and messages of its client
that were handled before may have left something to do.  Whatever these do, and whatever else
happens in whatever order, the end stands: its token stays cancelled, its queue keeps what waits,
takes no more frames and is only drained, its reason stays, and neither the list nor the numbers nor
what observers are told go back to it.

* `session?_turn_of_ended`: the turn that ends a session closes its queue behind all that waits,
  and behind at most one message that the turn pushes first.
* `session?_turn_of_gone`, `session?_run_of_gone`: of a session that left nothing becomes in later
  turns, but that what waits for it is handed over.  The run lemma is an induction on the turns with
  the step lemma as its step; that the session is settled, and so closed, is carried along by what
  observers were told of it (`chronicled_turn`).
* `goneForGood`: the two together, with what the other parts of the relay see of the session.  They
  see nothing: events go out as if it had never been (`publishReport_without`), and looks for signs
  of life report on listed sessions only (`contains_of_mem_timedOut`).
-/
namespace MarketRelay

/-! ## Sessions that left -/

namespace Session

variable {required : Bool} {s t : Session}

theorem pushMessage_leaveFor_of_gone (hlisted : t.isListed = false)
    (hclosed : t.queue.isClosed = true) (sent : Option Message) (reason : Option CloseReason) :
    (t.pushMessage sent).leaveFor reason = t := by
  have hpushed : t.pushMessage sent = t := by
    cases sent with
    | none => rfl
    | some m => rw [pushMessage, push, OutboundQueue.push_of_isClosed hclosed]
  rw [hpushed, leaveFor_of_not_isListed hlisted]

theorem Settled.isClosed_of_gone (h : s.Settled required) (hlisted : s.isListed = false) :
    s.isClosed = true := by
  rw [h.isClosed, hlisted]
  rfl

theorem Settled.isCancelled_of_gone (h : s.Settled required) (hlisted : s.isListed = false) :
    s.isCancelled = true :=
  h.token.trans (h.isClosed_of_gone hlisted)

theorem queue_leave (hlisted : s.isListed = true) (hopen : s.closeReason = none)
    (reason : CloseReason) : (s.leave reason).queue = s.queue.close := by
  rw [leave, if_pos hlisted, markClosed, isClosed, hopen]
  rfl

theorem queue_pushMessage (h : t.queue = s.queue) (m : Option Message) :
    (t.pushMessage m).queue = (s.pushMessage m).queue := by
  cases m with
  | none => exact h
  | some m => exact congrArg (OutboundQueue.push · m.encode) h

/-- `t` is `s` after it was sent a last message and left the list. -/
structure EndsWith (last : Message) (reason : CloseReason) (s t : Session) : Prop where
  client : s.SameClient t
  closeReason : t.closeReason = some reason
  isListed : t.isListed = false
  /-- The message is there once more than before, behind all else that waits. -/
  frames : t.queue.frames =
    (if s.queue.isFull then s.queue.frames.drop 1 else s.queue.frames) ++ [last.encode]
  dropped : t.queue.dropped = s.queue.dropped + s.queue.isFull.toNat
  isClosed : t.queue.isClosed = true

theorem Settled.endsWith (h : s.Settled required) (hlisted : s.isListed = true) (last : Message)
    (reason : CloseReason) : s.EndsWith last reason ((s.push last.encode).leave reason) := by
  let pushed := s.push last.encode
  have hnone : s.closeReason = none := h.closeReason_of_listed hlisted
  have hopen : s.queue.isClosed = false := h.queue_isOpen hlisted
  have hqueue : (pushed.leave reason).queue = (s.queue.push last.encode).close :=
    queue_leave (s := pushed) hlisted hnone reason
  constructor
  case client =>
    exact (sameClient_pushMessage s (some last)).trans (pushed.sameClient_leave reason)
  case closeReason =>
    have hleft := closeReason_leave (s := pushed) hlisted reason
    change (pushed.leave reason).closeReason = some (s.closeReason.getD reason) at hleft
    rw [hleft, hnone, Option.getD_none]
  case isListed => exact pushed.isListed_leave reason
  case frames =>
    rw [hqueue]
    exact OutboundQueue.frames_push_of_isOpen hopen _
  case dropped =>
    rw [hqueue, ← OutboundQueue.evicts_of_isOpen hopen]
    exact s.queue.dropped_push last.encode
  case isClosed =>
    rw [hqueue]
    rfl

/-- The story of a session that ended does not go on. -/
theorem eq_nil_of_story_append {later : List SessionEvent}
    (h : t.story required = s.story required ++ later) (hclosed : s.isClosed = true) :
    later = [] := by
  obtain ⟨reason, hreason⟩ := Option.isSome_iff_exists.mp hclosed
  simp only [story, hreason] at h
  generalize (if required then s.username else none) = name at h
  generalize (if required then t.username else none) = name' at h
  generalize t.closeReason = reason' at h
  cases name <;> cases name' <;> cases reason' <;> simp_all

end Session

def SweepReport.timedOut (report : SweepReport) : List SessionId :=
  report.heartbeatTimeouts ++ report.logonTimeouts

namespace Relay

variable {r : Relay} {id : SessionId}

/-- The relay as if a session had never been. -/
def without (r : Relay) (id : SessionId) : Relay :=
  { r with registry := { r.registry with sessions := r.registry.sessions.filter (·.id != id) } }

theorem publishReport_without (h : r.registry.contains id = false) (symbol : SymbolId) :
    (r.without id).publishReport symbol = r.publishReport symbol := by
  have htargets : (r.without id).registry.sessions.filter (reaches symbol) =
      r.registry.sessions.filter (reaches symbol) := by
    rw [without, List.filter_filter]
    refine List.filter_congr fun s hs => ?_
    cases hreaches : reaches symbol s with
    | false => rfl
    | true =>
        have hlisted : s.isListed = true := (Bool.and_eq_true_iff.mp hreaches).1
        have hid : s.id ≠ id := by
          rintro rfl
          rw [Registry.contains_iff.mpr ⟨s, hs, hlisted, rfl⟩] at h
          cases h
        simpa using hid
  rw [publishReport, htargets]
  rfl

theorem id_of_enlist {peer : SocketAddress} {now : Instant} {r' : Relay}
    (h : r.enlist peer now = .ok (id, r')) : id = r.registry.nextId :=
  (exists_eq_of_enlist h).2.1

theorem mem_timedOut_sweepSession {l : Liveness} {now : Instant} {clock : Int64}
    {acc : Relay × SweepReport} {s : Session}
    (h : id ∈ (sweepSession l now clock acc s).2.timedOut) :
    id ∈ acc.2.timedOut ∨ id = s.id := by
  unfold SweepReport.timedOut at h ⊢
  unfold sweepSession at h
  cases hauth : s.auth with
  | authenticated =>
      simp only [hauth] at h
      split at h
      · split at h
        · simp only [List.mem_append, List.mem_singleton] at h ⊢
          tauto
        · exact Or.inl h
      · split at h
        · split at h <;> exact Or.inl h
        · exact Or.inl h
  | unauthenticated =>
      simp only [hauth] at h
      split at h
      · split at h
        · simp only [List.mem_append, List.mem_singleton] at h ⊢
          tauto
        · exact Or.inl h
      · exact Or.inl h
  | rejected =>
      simp only [hauth] at h
      exact Or.inl h

theorem contains_of_mem_timedOut {l : Liveness} {now : Instant} {clock : Int64}
    (h : id ∈ (r.sweep l now clock).2.timedOut) : r.registry.contains id = true := by
  have hfold : ∀ (targets : List Session) (acc : Relay × SweepReport),
      id ∈ (targets.foldl (sweepSession l now clock) acc).2.timedOut →
        id ∈ acc.2.timedOut ∨ ∃ t ∈ targets, id = t.id := by
    intro targets
    induction targets with
    | nil => exact fun _ h => Or.inl h
    | cons t rest ih =>
        intro acc h
        rcases ih _ h with h | ⟨u, hu, hid⟩
        · rcases mem_timedOut_sweepSession h with h | hid
          · exact Or.inl h
          · exact Or.inr ⟨t, List.mem_cons_self, hid⟩
        · exact Or.inr ⟨u, List.mem_cons_of_mem t hu, hid⟩
  rcases hfold _ _ h with h | ⟨t, ht, rfl⟩
  · cases h
  · exact Registry.mem_ids_listed_iff.mp (List.mem_map_of_mem ht)

end Relay

/-! ## What comes after an end -/

namespace Interleaved

variable {c : Config} {id : SessionId}

/-- The frames that a turn hands over to the client of a session. -/
def handedOver (i : Interleaved) (id : SessionId) : Turn → List (List UInt8)
  | .step st => i.relay.handedOver id st
  | _ => []

def taken (id : SessionId) : Interleaved → List Turn → List (List UInt8)
  | _, [] => []
  | i, tn :: turns => i.handedOver id tn ++ taken id (i.turn tn) turns

def accepted (id : SessionId) : Interleaved → List Turn → List (List UInt8)
  | _, [] => []
  | i, tn :: turns =>
    OutboundQueue.newFrames (i.relay.queue id) ((i.turn tn).relay.queue id) ++
      accepted id (i.turn tn) turns

theorem append_of_cons {α : Type} {f : Interleaved → Turn → List α}
    {g : Interleaved → List Turn → List α} (hnil : ∀ i, g i [] = [])
    (hcons : ∀ i tn turns, g i (tn :: turns) = f i tn ++ g (i.turn tn) turns) (i : Interleaved)
    (before after : List Turn) : g i (before ++ after) = g i before ++ g (i.run before) after := by
  induction before generalizing i with
  | nil => rw [hnil]; rfl
  | cons tn before ih => rw [List.cons_append, hcons, hcons, ih, List.append_assoc, run_cons]

theorem accepted_append (id : SessionId) (i : Interleaved) (before after : List Turn) :
    accepted id i (before ++ after) = accepted id i before ++ accepted id (i.run before) after :=
  append_of_cons (fun _ => rfl) (fun _ _ _ => rfl) i before after

theorem taken_append (id : SessionId) (i : Interleaved) (before after : List Turn) :
    taken id i (before ++ after) = taken id i before ++ taken id (i.run before) after :=
  append_of_cons (fun _ => rfl) (fun _ _ _ => rfl) i before after

/-- A turn that ends a session closes its queue behind all that waits, and behind at most one
message that the turn pushes first. -/
theorem session?_turn_of_ended {turns : List Turn} {s : Session}
    (hs : ((ofConfig c).run turns).relay.session? id = some s) (hlisted : s.isListed = true)
    {tn : Turn} (hgone : (((ofConfig c).run turns).turn tn).relay.registry.contains id = false) :
    ∃ t last reason, (((ofConfig c).run turns).turn tn).relay.session? id = some t ∧
      t.isListed = false ∧ t.closeReason = some reason ∧
      t.queue = (s.pushMessage last).queue.close ∧
      (∀ m, last = some m → ((ofConfig c).run turns).Sends id tn m) ∧
      ∀ reason', tn = .step (.close id reason') → last = none ∧ reason' = reason := by
  have hsettled := (chronicled_ofConfig c turns).settled_of_session? hs
  have hopen : s.closeReason = none := by
    rw [← Option.not_isSome_iff_eq_none, ← Session.isClosed, hsettled.isClosed, hlisted]
    exact Bool.false_ne_true
  obtain ⟨t, last, reason?, hs', ht, hsends, hending⟩ := session?_turn_of_some hs tn
  have htlisted : t.isListed = true := by
    split at ht
    · exact ht ▸ hlisted
    · exact ht.isListed.trans hlisted
  cases reason? with
  | none =>
      rw [turn_run, Relay.contains_eq (chronicled_ofConfig c _).numbered, ← turn_run, hs',
        Option.any_some, Session.leaveFor, Session.isListed_pushMessage, htlisted] at hgone
      cases hgone
  | some reason =>
      -- a drain ends nothing
      have hdrain : tn ≠ .step (.drain id) := by
        intro h
        cases hending _ h
      rw [if_neg hdrain] at ht
      have hlast : (t.pushMessage last).isListed = true :=
        (t.isListed_pushMessage last).trans htlisted
      have hlastOpen : (t.pushMessage last).closeReason = none := by
        rw [Session.closeReason_pushMessage, ht.closeReason, hopen]
      refine ⟨_, last, reason, hs', Session.isListed_leave _ reason, ?_, ?_, hsends, ?_⟩
      · rw [Session.leaveFor, Session.closeReason_leave hlast, hlastOpen, Option.getD_none]
      · rw [Session.leaveFor, Session.queue_leave hlast hlastOpen,
          Session.queue_pushMessage ht.queue]
      · rintro reason' rfl
        have hreason := hending _ rfl
        rw [Session.ending, if_pos (Registry.id_of_session? hs)] at hreason
        have hlast : last = none :=
          Option.eq_none_iff_forall_not_mem.mpr fun m hm => not_sends_close (hsends m hm)
        exact ⟨hlast, (Option.some.inj hreason).symm⟩

theorem session?_turn_of_gone {turns : List Turn} {s : Session}
    (hs : ((ofConfig c).run turns).relay.session? id = some s) (hlisted : s.isListed = false)
    (tn : Turn) :
    ∃ t, (((ofConfig c).run turns).turn tn).relay.session? id = some t ∧
      t.isListed = false ∧ t.closeReason = s.closeReason ∧
      t.queue = if tn = .step (.drain id) then s.queue.drain else s.queue := by
  have hsettled := (chronicled_ofConfig c turns).settled_of_session? hs
  have hclosed : s.queue.isClosed = true := hsettled.queue.trans (hsettled.isClosed_of_gone hlisted)
  obtain ⟨t, sent, reason, hs', ht, -⟩ := session?_turn_of_some hs tn
  by_cases hdrain : tn = .step (.drain id)
  · rw [if_pos hdrain] at ht ⊢
    subst ht
    rw [Session.pushMessage_leaveFor_of_gone (t := s.drain) hlisted hclosed] at hs'
    exact ⟨s.drain, hs', hlisted, rfl, rfl⟩
  · rw [if_neg hdrain] at ht ⊢
    rw [Session.pushMessage_leaveFor_of_gone (ht.isListed.trans hlisted)
      (ht.queue ▸ hclosed)] at hs'
    exact ⟨t, hs', ht.isListed.trans hlisted, ht.closeReason, ht.queue⟩

theorem handedOver_of_some {i : Interleaved} {s : Session} (hs : i.relay.session? id = some s)
    (tn : Turn) :
    i.handedOver id tn = if tn = .step (.drain id) then s.queue.frames else [] := by
  cases tn with
  | step st =>
      rw [handedOver, Relay.handedOver_of_some hs, Session.handed, Registry.id_of_session? hs]
      simp only [Turn.step.injEq]
  | _ => rfl

/-- In turns nothing becomes of a session that left but that what waits for it is handed over. -/
theorem session?_run_of_gone {before : List Turn} {s : Session}
    (hs : ((ofConfig c).run before).relay.session? id = some s) (hlisted : s.isListed = false)
    (after : List Turn) :
    ∃ t, (((ofConfig c).run before).run after).relay.session? id = some t ∧
      t.isListed = false ∧ t.closeReason = s.closeReason ∧
      accepted id ((ofConfig c).run before) after = [] ∧
      taken id ((ofConfig c).run before) after ++ t.queue.frames = s.queue.frames ∧
      (.step (.drain id) ∈ after → t.queue.frames = []) := by
  induction after generalizing before s with
  | nil => exact ⟨s, hs, hlisted, rfl, rfl, rfl, nofun⟩
  | cons tn after ih =>
      obtain ⟨u, hu, hulisted, hureason, huqueue⟩ := session?_turn_of_gone hs hlisted tn
      rw [turn_run] at hu
      obtain ⟨t, ht, htlisted, htreason, haccepted, htaken, hdrained⟩ := ih hu hulisted
      have hnew : OutboundQueue.newFrames s.queue u.queue = [] := by
        rw [huqueue]
        split
        · exact OutboundQueue.newFrames_drain s.queue
        · exact OutboundQueue.newFrames_of_frames_eq rfl rfl
      have hhanded : ((ofConfig c).run before).handedOver id tn ++ u.queue.frames =
          s.queue.frames := by
        rw [handedOver_of_some hs, huqueue]
        split
        · exact List.append_nil _
        · rfl
      rw [run_cons, turn_run]
      refine ⟨t, ht, htlisted, htreason.trans hureason, ?_, ?_, ?_⟩
      · rw [accepted, turn_run, haccepted, Relay.queue_of_some hs, Relay.queue_of_some hu, hnew]
        rfl
      · rw [taken, turn_run, List.append_assoc, htaken, hhanded]
      · intro hmem
        rcases List.mem_cons.mp hmem with heq | hmem
        · -- the drain left nothing that could still wait
          rw [huqueue, if_pos heq.symm] at htaken
          exact (List.append_eq_nil_iff.mp htaken).2
        · exact hdrained hmem

/-- What there is of a session that a turn ended is as the turn left it, whatever turns follow. -/
structure GoneForGood (id : SessionId) (i : Interleaved) (tn : Turn) (after : List Turn) :
    Prop where
  /-- Its queue is closed behind all that waited, and behind at most one message that the same turn
  pushed first. -/
  ending : ∃ s last, i.relay.session? id = some s ∧
    (i.turn tn).relay.queue id = (s.pushMessage last).queue.close ∧
    (∀ m, last = some m → i.Sends id tn m) ∧
    ∀ reason, tn = .step (.close id reason) → last = none
  /-- It has a reason, the one that was given if it was just closed, and this stays. -/
  reason : ∃ s t reason, (i.turn tn).relay.session? id = some s ∧
    ((i.turn tn).run after).relay.session? id = some t ∧
    s.closeReason = some reason ∧ t.closeReason = some reason ∧
    ∀ reason', tn = .step (.close id reason') → reason' = reason
  /-- The queue takes nothing, and what waits in it is handed over or still waits. -/
  queue : (((i.turn tn).run after).relay.queue id).isClosed = true ∧
    accepted id (i.turn tn) after = [] ∧
    taken id (i.turn tn) after ++ (((i.turn tn).run after).relay.queue id).frames =
      ((i.turn tn).relay.queue id).frames ∧
    (.step (.drain id) ∈ after → (((i.turn tn).run after).relay.queue id).frames = [])
  /-- Its token is cancelled, and stays cancelled. -/
  token : ∃ s t, (i.turn tn).relay.session? id = some s ∧
    ((i.turn tn).run after).relay.session? id = some t ∧
    s.isCancelled = true ∧ t.isCancelled = true
  unlisted : ((i.turn tn).run after).relay.registry.contains id = false
  /-- Whoever closes it again is told that there was nothing to close. -/
  close : ∀ reason, (((i.turn tn).run after).relay.registry.close id reason).2 = false
  /-- Its number is not given again. -/
  enlist : ∀ peer now id' r', ((i.turn tn).run after).relay.enlist peer now = .ok (id', r') →
    id' ≠ id
  /-- Observers are not told of it again. -/
  events : ∃ later, ((i.turn tn).run after).relay.registry.events =
    (i.turn tn).relay.registry.events ++ later ∧ ∀ e ∈ later, e.session ≠ id
  /-- The report on an event does not count it. -/
  publish : ∀ symbol, ((i.turn tn).run after).relay.publishReport symbol =
    (((i.turn tn).run after).relay.without id).publishReport symbol
  /-- The report on a look for signs of life does not list it. -/
  sweep : ∀ l now clock,
    id ∉ (((i.turn tn).run after).relay.sweep l now clock).2.heartbeatTimeouts ∧
    id ∉ (((i.turn tn).run after).relay.sweep l now clock).2.logonTimeouts

/-- **Ends are final.**  A session that was listed before a turn and is not after it is gone for
good, whatever is done from then on, also by those who held on to it. -/
theorem goneForGood (c : Config) (before : List Turn) (tn : Turn) (after : List Turn)
    (id : SessionId) (hlisted : ((ofConfig c).run before).relay.registry.contains id = true)
    (hgone : (((ofConfig c).run before).turn tn).relay.registry.contains id = false) :
    GoneForGood id ((ofConfig c).run before) tn after := by
  obtain ⟨u, hu, hulisted⟩ :
      ∃ s, ((ofConfig c).run before).relay.session? id = some s ∧ s.isListed = true := by
    rw [Relay.contains_eq (chronicled_ofConfig c before).numbered] at hlisted
    exact (Option.any_eq_true _ _).mp hlisted
  obtain ⟨s, last, reason, hs, hunlisted, hreason, hqueue, hsends, hdirect⟩ :=
    session?_turn_of_ended hu hulisted hgone
  -- `s` is the session as the turn left it, `t` the session in the end
  have hi := chronicled_ofConfig c (before ++ [tn])
  have hj := chronicled_run_run c (before ++ [tn]) after
  rw [← turn_run] at hi hj
  obtain ⟨t, ht, htlisted, htreason, haccepted, htaken, hdrained⟩ :=
    session?_run_of_gone (turn_run _ before tn ▸ hs) hunlisted after
  rw [← turn_run] at ht haccepted htaken
  have hclosed := (hi.settled_of_session? hs).isClosed_of_gone hunlisted
  have htsettled := hj.settled_of_session? ht
  have htcontains :
      ((((ofConfig c).run before).turn tn).run after).relay.registry.contains id = false := by
    rw [Relay.contains_eq hj.numbered, ht, Option.any_some]
    exact htlisted
  constructor
  case ending =>
    rw [Relay.queue_of_some hs]
    exact ⟨u, last, hu, hqueue, hsends, fun reason' h => (hdirect reason' h).1⟩
  case reason =>
    exact ⟨s, t, reason, hs, ht, hreason, htreason.trans hreason,
      fun reason' h => (hdirect reason' h).2⟩
  case queue =>
    rw [Relay.queue_of_some hs, Relay.queue_of_some ht]
    exact ⟨htsettled.queue.trans (htsettled.isClosed_of_gone htlisted), haccepted, htaken, hdrained⟩
  case token =>
    exact ⟨s, t, hs, ht, (hi.settled_of_session? hs).isCancelled_of_gone hunlisted,
      htsettled.isCancelled_of_gone htlisted⟩
  case unlisted => exact htcontains
  case close => exact fun reason => (Registry.snd_close _ id reason).trans htcontains
  case enlist =>
    intro peer now id' r' henlist
    have hid := Relay.id_of_enlist henlist
    have hmem := (Registry.session?_eq_some_iff hj.numbered).mp ht
    have hlt := hj.numbered.id_lt_nextId hmem.1
    rw [hmem.2] at hlt
    exact hid ▸ Nat.ne_of_gt hlt
  case events =>
    obtain ⟨later, hlater⟩ := hj.past
    refine ⟨later, hlater.symm, ?_⟩
    have hstory := hj.story_of_session? ht
    rw [← hlater, List.filter_append, hi.story_of_session? hs] at hstory
    have hnothing := Session.eq_nil_of_story_append hstory.symm hclosed
    exact fun e he hid => List.filter_eq_nil_iff.mp hnothing e he (beq_iff_eq.mpr hid)
  case publish => exact fun symbol => (Relay.publishReport_without htcontains symbol).symm
  case sweep =>
    intro l now clock
    have hnot : id ∉
        (((((ofConfig c).run before).turn tn).run after).relay.sweep l now clock).2.timedOut :=
      fun hmem => Bool.false_ne_true (htcontains.symm.trans (Relay.contains_of_mem_timedOut hmem))
    exact ⟨fun h => hnot (List.mem_append_left _ h), fun h => hnot (List.mem_append_right _ h)⟩

/-- A client hangs up when a snapshot that it asked for has been taken and not yet been sent. -/
theorem goneForGood_hung_up :
    let before := [.step (.enlist (.v4 127 0 0 1 50000) 0),
      .step (.message 1 (.marketDataRequest ⟨.subscribe, 0, "BTC-USD", ""⟩) 5 6),
      .handle 1 (.marketDataRequest ⟨.snapshot, 0, "BTC-USD", ""⟩) 7]
    let hangUp := .step (.close 1 .clientDisconnected)
    let after := [.apply 0 8, .step (.publish ⟨1, .trade ⟨⟨1⟩, ⟨2⟩, .sell, 7⟩⟩ 0),
      .step (.close 1 .serverShutdown), .step (.drain 1), .step (.enlist (.v4 127 0 0 1 50001) 9)]
    ((ofConfig {}).run before).relay.registry.contains 1 = true ∧
      (((ofConfig {}).run before).turn hangUp).relay.registry.contains 1 = false ∧
      GoneForGood 1 ((ofConfig {}).run before) hangUp after := by
  intro before hangUp after
  have hlisted : ((ofConfig {}).run before).relay.registry.contains 1 = true := by decide +kernel
  have hgone : (((ofConfig {}).run before).turn hangUp).relay.registry.contains 1 = false := by
    decide +kernel
  exact ⟨hlisted, hgone, goneForGood {} before hangUp after 1 hlisted hgone⟩

end Interleaved
end MarketRelay
