import MarketRelay.Proofs.Metrics.Counter
import MarketRelay.Proofs.Relay.Invariant
import Mathlib.Algebra.GroupWithZero.Nat

/-!
# What a step counts

What a step counts can be told session by session: that a frame was queued and that another one was
evicted for it, that a heartbeat was sent, that the session left the list for a reason that is
counted.  `Session.tally` tells it from the session as the step finds it.

* `grows_step`: the counters of the relay grow by what the tallies of all sessions list, and by the
  event if one is published.  For this it matters that operations one after another on several
  sessions each meet the session as it was before the first of them, which `foldl_induction` and
  its like from `Sessions` say; so one lemma for each operation is enough.
* `grows_message`: for messages of clients the tally has to be put together from two stages, what is
  changed at once and what is left to do.  The second stage meets the session as the first one left
  it (`grows_apply_of_only`), and what it counts is that a frame is pushed, if one is, and that the
  session ends, if it does (`effectsTally_eq`).
* `count_tally`: the counters of frames depend only on what is pushed on the queues.
* `count_tally_add`: so what one of them misses of each queue it misses of all together.  This is
  how the modules on evicted and on queued frames get from one session to the whole relay.
-/
namespace MarketRelay

open Metrics (Grows)

/-! ## Tallies -/

/-- What is counted of a frame that is pushed on a queue, if the queue takes it. -/
def OutboundQueue.tally (q : OutboundQueue) : List Counter :=
  match q.outcome with
  | .queued => [.messagesEnqueued]
  | .droppedOldest => [.messagesEnqueued, .messagesDropped]
  | .closed => []

/-- What is counted of an acknowledgement that is pushed on a queue, taken or not. -/
def OutboundQueue.acknowledgementTally (q : OutboundQueue) : List Counter :=
  .messagesEnqueued :: if q.evicts then [.messagesDropped] else []

namespace Session

def closeTally (reason : CloseReason) (s : Session) : List Counter :=
  if s.isListed then (Relay.blameCounter? reason).toList else []

/-- What is counted of a message of the client. -/
def messageTally (r : Relay) (m : Message) (s : Session) : List Counter :=
  (if (s.acknowledged r m).isSome then s.queue.acknowledgementTally
    else if (s.reply r m).isSome then s.queue.tally else []) ++
    (s.endingBy r m).elim [] s.closeTally

/-- What is counted of a look at the session for signs of life. -/
def sweepTally (l : Liveness) (now : Instant) (s : Session) : List Counter :=
  match s.silence l now with
  | some .heartbeatTimeout => [.heartbeatTimeouts]
  | some .logonTimeout => [.logonTimeouts]
  | _ =>
    if s.isOwed l now then
      s.queue.tally ++ if s.queue.outcome.isAccepted then [.heartbeatsSent] else []
    else []

/-- What a step counts of the session. -/
def tally (r : Relay) (st : Step) (s : Session) : List Counter :=
  match st with
  | .message id m _ _ => if s.id = id then s.messageTally r m else []
  | .publish e _ => if Relay.reaches e.symbolId s then s.queue.tally else []
  | .sweep l now _ => if s.isListed then s.sweepTally l now else []
  | .close id reason => if s.id = id then s.closeTally reason else []
  | _ => []

end Session

namespace Relay

/-- What a step counts. -/
def tally (r : Relay) (st : Step) : List Counter :=
  (match st with
    | .publish _ _ => [.eventsPublished]
    | _ => []) ++ r.registry.sessions.flatMap (Session.tally r st)

variable {r : Relay} {id : SessionId} {s : Session}

/-! ## Single changes -/

theorem grows_enqueue (r : Relay) (id : SessionId) (m : Message) :
    Grows ((r.session? id).elim [] (·.queue.tally)) r.metrics (r.enqueue id m).metrics := by
  unfold enqueue
  cases r.session? id with
  | none => exact .refl r.metrics
  | some s =>
      simp only [Option.elim_some, OutboundQueue.tally]
      cases s.queue.outcome with
      | queued => exact r.metrics.grows_recordEnqueue false
      | droppedOldest => exact r.metrics.grows_recordEnqueue true
      | closed => exact .refl r.metrics

theorem grows_subscribe (hs : r.session? id = some s) (symbol : SymbolId) :
    Grows s.queue.acknowledgementTally r.metrics (r.subscribe id symbol).1.metrics := by
  unfold subscribe
  rw [hs]
  exact r.metrics.grows_recordEnqueue s.queue.evicts

theorem grows_close (h : r.registry.Numbered) (id : SessionId) (reason : CloseReason) :
    Grows ((r.session? id).elim [] (·.closeTally reason)) r.metrics
      (r.close id reason).1.metrics := by
  have hcontains := contains_eq h id
  unfold close
  cases hblame : blameCounter? reason with
  | none =>
      have hnone : (r.session? id).elim [] (·.closeTally reason) = [] := by
        cases r.session? id with
        | none => rfl
        | some s => simp [Session.closeTally, hblame]
      rw [hnone]
      exact .refl r.metrics
  | some c =>
      simp only [Registry.snd_close, hcontains]
      cases r.session? id with
      | none => exact .refl r.metrics
      | some s =>
          simp only [Option.elim_some, Option.any_some, Session.closeTally, hblame]
          split
          · exact r.metrics.grows_incr c
          · exact .refl r.metrics

end Relay

/-! ## Messages of clients -/

namespace Session

def effectTally (s : Session) : Effect → List Counter
  | .send _ _ => s.queue.tally
  | .authenticate _ _ => []
  | .close _ reason => s.closeTally reason

def effectsTally (now : Instant) : Session → List Effect → List Counter
  | _, [] => []
  | s, e :: rest => s.effectTally e ++ effectsTally now (s.undergo now e) rest

theorem effectsTally_eq (now : Instant) (s : Session) (id : SessionId) (granted : Option String)
    (sent : Option Message) (reason : Option CloseReason) :
    s.effectsTally now ((granted.map (Effect.authenticate id)).toList ++
        (sent.map (Effect.send id)).toList ++ (reason.map (Effect.close id)).toList) =
      (if sent.isSome then s.queue.tally else []) ++ reason.elim [] s.closeTally := by
  have hend : ∀ t : Session, t.isListed = s.isListed →
      t.effectsTally now (reason.map (Effect.close id)).toList =
        reason.elim [] s.closeTally := by
    intro t ht
    cases reason with
    | none => rfl
    | some reason => simp [effectsTally, effectTally, closeTally, ht]
  have hsend : ∀ t : Session, s.SameWay t →
      t.effectsTally now ((sent.map (Effect.send id)).toList ++
          (reason.map (Effect.close id)).toList) =
        (if sent.isSome then s.queue.tally else []) ++ reason.elim [] s.closeTally := by
    intro t ht
    cases sent with
    | none => exact hend t ht.isListed
    | some m =>
        have hpushed := hend (t.push m.encode) ht.isListed
        simp only [Option.map_some, Option.toList_some, List.singleton_append, effectsTally,
          effectTally, undergo, hpushed, ht.queue, Option.isSome_some, if_true]
  cases granted with
  | none => exact hsend s (.refl s)
  | some username =>
      exact hsend _ (s.sameWay_authenticate_of_listed username now)

end Session

namespace Relay

variable {r : Relay} {id : SessionId} {s : Session}

theorem grows_applyOne (h : r.registry.Numbered) (hs : r.session? id = some s) (now : Instant)
    {e : Effect} (he : e.session = id) :
    Grows (s.effectTally e) r.metrics (applyOne id now r e).metrics := by
  cases e with
  | send id' m =>
      obtain rfl : id' = id := he
      have hsend := grows_enqueue r id' m
      rw [hs] at hsend
      rw [applyOne, send_own]
      exact hsend
  | authenticate id' username => exact .refl r.metrics
  | close id' reason =>
      obtain rfl : id' = id := he
      have hclose := grows_close h id' reason
      rw [hs] at hclose
      exact hclose

theorem grows_apply (h : r.registry.Numbered) (hs : r.session? id = some s) (now : Instant)
    {effects : List Effect} (hown : ∀ e ∈ effects, e.session = id) :
    Grows (s.effectsTally now effects) r.metrics (r.apply id now effects).1.metrics := by
  rw [apply_eq]
  induction effects generalizing r s with
  | nil => exact .refl r.metrics
  | cons e rest ih =>
      have he : e.session = id := hown e List.mem_cons_self
      have hone := sessions_applyOne_own h now he
      exact (grows_applyOne h hs now he).trans
        (ih (numbered_applyOne h id now e) (session?_of_only hone (fun s => s.id_undergo now e) hs)
          fun e' he' => hown e' (List.mem_cons_of_mem e he'))

/-- What is left to do for a session meets it as the handling of the message left it. -/
theorem grows_apply_of_only {r' : Relay} {f : Session → Session} (h : r.registry.Numbered)
    (hs : r.session? id = some s)
    (hsessions : r'.registry.sessions = r.registry.sessions.map (Session.only id f))
    (hnext : r'.registry.nextId = r.registry.nextId) (hf : ∀ t, (f t).id = t.id) (now : Instant)
    {effects : List Effect} (hown : ∀ e ∈ effects, e.session = id) :
    Grows ((f s).effectsTally now effects) r'.metrics (r'.apply id now effects).1.metrics :=
  grows_apply (h.map hsessions hnext (Session.id_only hf)) (session?_of_only hsessions hf hs) now
    hown

theorem grows_message (h : r.registry.Numbered) (id : SessionId) (m : Message)
    (handledAt appliedAt : Instant) :
    Grows ((r.session? id).elim [] (·.messageTally r m)) r.metrics
      (r.step (.message id m handledAt appliedAt)).metrics := by
  simp only [step, handle]
  cases hs : r.session? id with
  | none => exact .refl r.metrics
  | some s =>
      obtain rfl := Registry.id_of_session? hs
      have hhandled := r.handled_handleMessage s m handledAt
      have heffects := r.effects_handleMessage s m handledAt
      have hown : ∀ e ∈ (r.handleMessage s m handledAt).2, e.session = s.id := by
        intro e he
        have hmem : e ∈ (r.handle s.id m handledAt).2 := by rwa [handle, hs]
        exact session_of_mem_effects hmem
      simp only [Option.elim_some, Session.messageTally]
      generalize (r.handleMessage s m handledAt).1 = r' at hhandled ⊢
      cases hhandled with
      | @subscribed symbol hack =>
          have hrest := grows_apply_of_only h hs (sessions_subscribe r s.id symbol)
            (nextId_of_backdrop (backdrop_subscribe r s.id symbol)) (fun _ => rfl) appliedAt hown
          simp only [heffects, Session.effectsTally_eq, hack] at hrest ⊢
          exact (grows_subscribe hs symbol).trans hrest
      | refused hm hrefused =>
          have hrest := grows_apply_of_only h hs (sessions_modify r s.id (·.reject)) rfl
            (fun _ => rfl) appliedAt hown
          simp only [heffects, Session.effectsTally_eq] at hrest ⊢
          subst hm
          exact hrest
      | @noted f hack hway hlogon =>
          have hrest := grows_apply_of_only h hs (sessions_modify r s.id f) rfl
            (fun t => (hway t).id) appliedAt hown
          have hclose : ∀ reason, (f s).closeTally reason = s.closeTally reason := by
            intro reason
            rw [Session.closeTally, Session.closeTally, (hway s).isListed]
          simp only [heffects, Session.effectsTally_eq, hack, (hway s).queue, hclose] at hrest ⊢
          exact hrest

/-! ## Events, looks for signs of life, farewells -/

theorem perm_tally_publish (symbol : SymbolId) (sessions : List Session) :
    let targets := sessions.filter (reaches symbol)
    (List.replicate (targets.countP (·.queue.outcome.isAccepted)) Counter.messagesEnqueued ++
        List.replicate (targets.countP (·.queue.outcome == .droppedOldest))
          Counter.messagesDropped).Perm
      (sessions.flatMap fun s => if reaches symbol s then s.queue.tally else []) := by
  intro targets
  refine List.perm_iff_count.mpr fun k => ?_
  simp only [targets, List.count_append, List.count_replicate]
  induction sessions with
  | nil => simp
  | cons s rest ih =>
      rw [List.flatMap_cons, List.count_append, ← ih, List.filter_cons]
      cases reaches symbol s with
      | false => simp
      | true =>
          simp only [if_true, List.countP_cons, OutboundQueue.tally]
          cases s.queue.outcome <;> cases k <;> simp [PushOutcome.isAccepted] <;> omega

theorem grows_publish (r : Relay) (e : MarketEvent) (elapsed : Nat) :
    Grows (r.tally (.publish e elapsed)) r.metrics (r.step (.publish e elapsed)).metrics :=
  (r.metrics.grows_recordPublish _ _ elapsed).perm
    ((perm_tally_publish e.symbolId r.registry.sessions).cons .eventsPublished)

theorem grows_sendHeartbeat (hs : r.session? s.id = some s) (now : Instant) (clock : Int64) :
    Grows (s.queue.tally ++ if s.queue.outcome.isAccepted then [.heartbeatsSent] else []) r.metrics
      (r.sendHeartbeat s now clock).1.metrics := by
  have hmarked := session?_of_only (sessions_modify r s.id (·.markHeartbeatSent now))
    (fun _ => rfl) hs
  have hsend := grows_enqueue (r.modify s.id (·.markHeartbeatSent now)) s.id (heartbeatFor s clock)
  rw [hmarked] at hsend
  simp only [sendHeartbeat]
  split
  · exact hsend.trans (Metrics.grows_incr _ .heartbeatsSent)
  · exact hsend.trans (.refl _)

theorem grows_timeOut (hcontains : r.registry.contains id = true) (reason : CloseReason)
    (c : Counter) : Grows [c] r.metrics (r.timeOut id reason c).1.metrics := by
  simp only [timeOut, Registry.snd_close, hcontains, if_true]
  exact r.metrics.grows_incr c

theorem grows_sweepSession (hcontains : r.registry.contains s.id = true)
    (hs : r.session? s.id = some s) (l : Liveness) (now : Instant) (clock : Int64)
    (report : SweepReport) :
    Grows (s.sweepTally l now) r.metrics
      (sweepSession l now clock (r, report) s).1.metrics := by
  unfold sweepSession Session.sweepTally Session.isOwed Session.isAuthenticated Session.silence
  cases s.auth with
  | authenticated =>
      by_cases hsilent : l.interval.double < now.since s.heartbeatReceivedAt
      · simp only [if_pos hsilent]
        exact grows_timeOut hcontains .heartbeatTimeout .heartbeatTimeouts
      · simp only [if_neg hsilent]
        cases s.isHeartbeatDue now l.interval with
        | true =>
            have hsend := grows_sendHeartbeat hs now clock
            cases hsent : r.sendHeartbeat s now clock with
            | mk r' taken =>
                rw [hsent] at hsend
                cases taken with
                | true => exact hsend
                | false => exact hsend
        | false => exact .refl r.metrics
  | unauthenticated =>
      by_cases hlate : l.logonTimeout < now.since s.connectedAt
      · simp only [if_pos hlate]
        exact grows_timeOut hcontains .logonTimeout .logonTimeouts
      · simp only [if_neg hlate]
        exact .refl r.metrics
  | rejected => exact .refl r.metrics

theorem flatMap_listed (r : Registry) (f : Session → List Counter) :
    r.listed.flatMap f = r.sessions.flatMap fun s => if s.isListed then f s else [] := by
  rw [Registry.listed]
  induction r.sessions with
  | nil => rfl
  | cons s rest ih =>
      rw [List.filter_cons, List.flatMap_cons, ← ih]
      split
      · rw [List.flatMap_cons]
      · rw [List.nil_append]

theorem grows_sweep (h : r.registry.Numbered) (l : Liveness) (now : Instant) (clock : Int64) :
    Grows (r.tally (.sweep l now clock)) r.metrics (r.step (.sweep l now clock)).metrics := by
  have hsweep : Grows (r.registry.listed.flatMap (·.sweepTally l now)) r.metrics
      (r.step (.sweep l now clock)).metrics := by
    refine sweep_induction h (P := fun looked acc =>
      Grows (looked.flatMap (·.sweepTally l now)) r.metrics acc.1.metrics) (.refl r.metrics) ?_
    intro looked acc s hgrows hcontains hs
    rw [List.flatMap_append, List.flatMap_singleton]
    exact hgrows.trans (grows_sweepSession hcontains hs l now clock acc.2)
  rw [flatMap_listed] at hsweep
  exact hsweep

theorem metrics_stop (r : Relay) : (r.step .stop).metrics = r.metrics := by
  have hone : ∀ (r : Relay) (id : SessionId), (Server.shutDownSession r id).metrics = r.metrics :=
    fun _ _ => rfl
  exact foldl_keeps metrics hone r (r.registry.listed.map (·.id))

/-! ## Steps -/

theorem flatMap_of_session? (h : r.registry.Numbered) (id : SessionId)
    (f : Session → List Counter) :
    r.registry.sessions.flatMap (fun s => if s.id = id then f s else []) =
      (r.session? id).elim [] f := by
  have hnone : ∀ sessions : List Session, (∀ s ∈ sessions, s.id ≠ id) →
      sessions.flatMap (fun s => if s.id = id then f s else []) = [] := fun sessions hne =>
    List.flatMap_eq_nil_iff.mpr fun s hs => if_neg (hne s hs)
  cases hs : r.session? id with
  | none => exact hnone _ (Registry.session?_eq_none_iff.mp hs)
  | some s =>
      obtain ⟨hmem, rfl⟩ := (Registry.session?_eq_some_iff h).mp hs
      obtain ⟨before, after, hsplit, hne⟩ := Session.exists_split h.nodup hmem
      rw [hsplit, List.flatMap_append, List.flatMap_cons, if_pos rfl,
        hnone before fun t ht => (hne t (List.mem_append_left after ht)).symm,
        hnone after fun t ht => (hne t (List.mem_append_right before ht)).symm]
      exact List.append_nil _

theorem grows_step (h : r.registry.Numbered) (st : Step) :
    Grows (r.tally st) r.metrics (r.step st).metrics := by
  have hnothing : ∀ m : Metrics, m = r.metrics →
      Grows (r.registry.sessions.flatMap fun _ => ([] : List Counter)) r.metrics m := by
    rintro m rfl
    rw [List.flatMap_eq_nil_iff.mpr fun _ _ => rfl]
    exact .refl r.metrics
  cases st with
  | enlist peer now =>
      refine hnothing _ ?_
      simp only [step, enlist]
      cases r.registry.enlist peer now (!r.config.requireAuthentication)
        r.config.outboundQueueCapacity with
      | error e => rfl
      | ok admission => rfl
  | message id m handledAt appliedAt =>
      have hmessage := grows_message h id m handledAt appliedAt
      rw [← flatMap_of_session? h] at hmessage
      exact hmessage
  | publish e elapsed => exact r.grows_publish e elapsed
  | sweep l now clock => exact grows_sweep h l now clock
  | drain id => exact hnothing _ rfl
  | close id reason =>
      have hclose := grows_close h id reason
      rw [← flatMap_of_session? h] at hclose
      exact hclose
  | stop => exact hnothing _ r.metrics_stop

end Relay

/-! ## Counters of frames -/

/-- The counters of frames: of those that were queued and of those that were evicted. -/
def Counter.isOfFrames : Counter → Bool
  | .messagesEnqueued | .messagesDropped => true
  | _ => false

namespace Session

variable {k : Counter}

/-- What is counted of a message that a step pushes on the queue of the session: nothing of a
farewell, and of an acknowledgement, taken or not, as if it were taken. -/
def pushTally (r : Relay) (st : Step) (s : Session) : List Counter :=
  match st with
  | .message _ m _ _ =>
    if (s.acknowledged r m).isSome then s.queue.acknowledgementTally else s.queue.tally
  | .stop => []
  | _ => s.queue.tally

/-- What a step counts of the message that it pushes on the queue of the session, if it does. -/
def frameTally (r : Relay) (st : Step) (s : Session) : List Counter :=
  if (s.pushed r st).isSome then s.pushTally r st else []

theorem count_closeTally (hk : k.isOfFrames = true) (reason : CloseReason) (s : Session) :
    (s.closeTally reason).count k = 0 := by
  unfold closeTally
  split
  · cases reason <;> cases k <;> first | rfl | cases hk
  · rfl

theorem count_messageTally (hk : k.isOfFrames = true) (r : Relay) (m : Message) (s : Session) :
    (s.messageTally r m).count k =
      (if (s.acknowledged r m).isSome then s.queue.acknowledgementTally
        else if (s.reply r m).isSome then s.queue.tally else []).count k := by
  have hend : ((s.endingBy r m).elim [] s.closeTally).count k = 0 := by
    cases s.endingBy r m with
    | none => rfl
    | some reason => exact count_closeTally hk reason s
  rw [messageTally, List.count_append, hend, Nat.add_zero]

theorem count_sweepTally (hk : k.isOfFrames = true) (l : Liveness) (now : Instant) (s : Session) :
    (s.sweepTally l now).count k = (if s.isOwed l now then s.queue.tally else []).count k := by
  have howed : s.isOwed l now = true → s.silence l now = none := by
    intro h
    simp only [isOwed, Bool.and_eq_true, Option.isNone_iff_eq_none] at h
    exact h.1.2
  have hsent : List.count k (if s.queue.outcome.isAccepted then [.heartbeatsSent] else []) = 0 := by
    split
    · cases k <;> first | rfl | cases hk
    · rfl
  cases hisOwed : s.isOwed l now with
  | true =>
      rw [sweepTally, howed hisOwed]
      simp only [hisOwed, if_true, List.count_append, hsent, Nat.add_zero]
  | false =>
      rw [sweepTally, if_neg Bool.false_ne_true]
      split
      · cases k <;> first | rfl | cases hk
      · cases k <;> first | rfl | cases hk
      · simp [hisOwed]

theorem count_tally (hk : k.isOfFrames = true) (r : Relay) (st : Step) (s : Session) :
    (s.tally r st).count k = (s.frameTally r st).count k := by
  cases st with
  | message id m handledAt appliedAt =>
      by_cases hid : s.id = id
      · simp only [tally, frameTally, pushTally, pushed, if_pos hid, count_messageTally hk]
        cases hack : (s.acknowledged r m).isSome with
        | true => simp [isSome_reply_of_acknowledged hack]
        | false => rfl
      · simp [tally, frameTally, pushed, hid]
  | publish e elapsed =>
      cases hreaches : Relay.reaches e.symbolId s <;>
        simp [tally, frameTally, pushTally, pushed, hreaches]
  | sweep l now clock =>
      cases hlisted : s.isListed <;> cases howed : s.isOwed l now <;>
        simp [tally, frameTally, pushTally, pushed, hlisted, howed, count_sweepTally hk]
  | close id reason =>
      simp only [tally, frameTally, pushed]
      split
      · exact count_closeTally hk reason s
      · rfl
  | stop => simp [tally, frameTally, pushTally]
  | _ => rfl

end Session

/-! ## Sums over all sessions -/

namespace Relay

variable {r : Relay}

theorem countP_eq_sum (p : Session → Bool) (sessions : List Session) :
    sessions.countP p = (sessions.map fun s => (p s).toNat).sum := by
  induction sessions with
  | nil => rfl
  | cons s rest ih =>
      rw [List.countP_cons, ih, List.map_cons, List.sum_cons, Nat.add_comm]
      cases p s <;> rfl

/-- What a counter tells of each session by itself it tells of all together, but for the counter of
events, which are not counted by session. -/
theorem count_tally_add {k : Counter} (hk : k ≠ .eventsPublished) {st : Step}
    {missed happened : Session → Nat}
    (h : ∀ s ∈ r.registry.sessions, (s.tally r st).count k + missed s = happened s) :
    (r.tally st).count k + (r.registry.sessions.map missed).sum =
      (r.registry.sessions.map happened).sum := by
  have hsessions : (r.tally st).count k =
      (r.registry.sessions.flatMap (Session.tally r st)).count k := by
    cases st <;> simp [tally, hk.symm]
  rw [hsessions]
  generalize r.registry.sessions = sessions at h ⊢
  induction sessions with
  | nil => rfl
  | cons s rest ih =>
      have hone := h s List.mem_cons_self
      have hrest := ih fun t ht => h t (List.mem_cons_of_mem s ht)
      rw [List.flatMap_cons, List.count_append]
      simp only [List.map_cons, List.sum_cons]
      omega

/-! ## Runs -/

/-- What a run counts. -/
def tallyIn : Relay → List Step → List Counter
  | _, [] => []
  | r, st :: steps => r.tally st ++ tallyIn (r.step st) steps

theorem grows_run (h : r.registry.Numbered) (steps : List Step) :
    Grows (tallyIn r steps) r.metrics (r.run steps).metrics := by
  induction steps generalizing r with
  | nil => exact .refl r.metrics
  | cons st steps ih => exact (grows_step h st).trans (ih (numbered_step h st))

end Relay
end MarketRelay
