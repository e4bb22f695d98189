import MarketRelay.Proofs.Relay.Turns

/-!
# How old snapshots are

A subscription is acknowledged at once, so the snapshot that acknowledges it tells the state of the
market at the time when it is queued.  A snapshot that a client asks for is taken when the message
is handled, but queued only when it is the turn of what the message left to do.  In between other
events of the symbol may be published, and a subscriber gets them before the snapshot, which takes
it back to where the market was (`not_snapshot_current`).

* `snapshot_of_reply`, `snapshot_of_pushed`: a snapshot is that of the relay at the moment when the
  message is handled, or when the step is taken.
* `exists_handled_of_left`, from `Turns`: what is left to do was left by a message that was handled
  at some time; so there was such a moment.
* `exists_sends_of_mem_newFrames`: whatever a queue takes in a turn, the turn sent.
* `snapshot_age`: so this is the only way in which a snapshot is old when it is queued, and what it
  misses are just the events of its symbol from that moment on.
-/
namespace MarketRelay

/-! ## Where snapshots come from -/

theorem Message.eq_of_norm_eq_snapshot {m : Message} {snap : MarketDataSnapshot}
    (h : m.norm = .marketDataSnapshot snap) : m = .marketDataSnapshot snap := by
  cases m with
  | marketDataSnapshot snap' => exact h
  | _ => cases h

/-- The one message whose frame a client reads as a snapshot is that snapshot. -/
theorem Message.eq_of_decode_encode_snapshot {m : Message} {snap : MarketDataSnapshot}
    (h : decode defaultFrameLimit m.encode = .ok (.marketDataSnapshot snap)) :
    m = .marketDataSnapshot snap := by
  rw [decode_encode m.frameSize_le_defaultFrameLimit] at h
  exact eq_of_norm_eq_snapshot (Except.ok.inj h)

namespace Session

variable {r : Relay} {s : Session} {snap : MarketDataSnapshot}

theorem snapshot_of_reply {m : Message} (h : s.reply r m = some (.marketDataSnapshot snap)) :
    ∃ request, m = .marketDataRequest request ∧ snap = r.snapshots.get snap.symbolId ∧
      (s.acknowledged r m = none → request.action = .snapshot) := by
  cases m with
  | logonRequest request =>
      simp only [reply] at h
      split at h <;> cases h
  | marketDataRequest request =>
      refine ⟨request, rfl, ?_⟩
      simp only [reply, requestReply] at h
      cases hauth : s.isAuthenticated with
      | false => simp [hauth] at h
      | true =>
          rw [hauth, if_pos rfl] at h
          cases hsymbol : r.symbols.resolve request.symbolId request.symbol request.exchange with
          | none =>
              rw [hsymbol] at h
              cases h
          | some symbol =>
              rw [hsymbol] at h
              cases haction : request.action with
              | subscribe =>
                  simp only [haction] at h
                  split at h
                  · rename_i hmay
                    obtain rfl := Message.marketDataSnapshot.inj (Option.some.inj h)
                    refine ⟨by rw [SnapshotCache.symbolId_get], fun hack => ?_⟩
                    simp [acknowledged, hauth, haction, hsymbol, hmay] at hack
                  · cases h
              | unsubscribe =>
                  simp only [haction] at h
                  cases h
              | snapshot =>
                  simp only [haction] at h
                  obtain rfl := Message.marketDataSnapshot.inj (Option.some.inj h)
                  exact ⟨by rw [SnapshotCache.symbolId_get], fun _ => rfl⟩
  | _ => cases h

theorem snapshot_of_pushed {st : Step} (h : s.pushed r st = some (.marketDataSnapshot snap)) :
    snap = r.snapshots.get snap.symbolId ∧ st.eventsOf snap.symbolId = [] := by
  cases st with
  | message id m handledAt appliedAt =>
      simp only [pushed] at h
      split at h
      · obtain ⟨request, -, hsnap, -⟩ := snapshot_of_reply h
        exact ⟨hsnap, rfl⟩
      · cases h
  | publish e elapsed =>
      obtain ⟨symbol, o⟩ := e
      simp only [pushed] at h
      split at h
      · cases o <;> cases h
      · cases h
  | sweep l now clock =>
      simp only [pushed] at h
      split at h <;> cases h
  | stop =>
      simp only [pushed] at h
      split at h <;> cases h
  | _ => cases h

end Session

theorem Relay.snapshot_of_mem_effects {r : Relay} {id : SessionId} {m : Message} {now : Instant}
    {snap : MarketDataSnapshot} (h : .send id (.marketDataSnapshot snap) ∈ (r.handle id m now).2) :
    ∃ request, m = .marketDataRequest request ∧ request.action = .snapshot ∧
      snap = r.snapshots.get snap.symbolId := by
  unfold handle at h
  split at h
  · cases h
  · rename_i s hs
    rw [effects_handleMessage] at h
    have hsent : (if (s.acknowledged r m).isSome then none else s.reply r m) =
        some (.marketDataSnapshot snap) := by
      simpa [Registry.id_of_session? hs] using h
    split at hsent
    · cases hsent
    · rename_i hack
      obtain ⟨request, hm, hsnap, haction⟩ := Session.snapshot_of_reply hsent
      exact ⟨request, hm, haction (by simpa using hack), hsnap⟩

/-! ## What a queue takes in a turn -/

theorem Session.mem_newFrames {s t : Session} {sent : Option Message} {reason : Option CloseReason}
    {frame : List UInt8} (ht : t.queue = s.queue ∨ t.queue = s.queue.drain)
    (h : frame ∈ OutboundQueue.newFrames s.queue ((t.pushMessage sent).leaveFor reason).queue) :
    ∃ m, sent = some m ∧ frame = m.encode := by
  have hopen : frame ∈ OutboundQueue.newFrames s.queue (t.pushMessage sent).queue := by
    rcases queue_leaveFor (t.pushMessage sent) reason with hsame | hclosed
    · rwa [hsame] at h
    · rw [hclosed] at h
      exact h
  cases sent with
  | none =>
      rcases ht with hsame | hdrained
      · rw [pushMessage, hsame, OutboundQueue.newFrames_of_frames_eq rfl rfl] at hopen
        cases hopen
      · rw [pushMessage, hdrained, OutboundQueue.newFrames_drain] at hopen
        cases hopen
  | some m =>
      have hpushed : ∀ q : OutboundQueue, frame ∈ OutboundQueue.newFrames q (q.push m.encode) →
          frame = m.encode := by
        intro q hq
        rw [OutboundQueue.newFrames_push] at hq
        split at hq
        · cases hq
        · exact List.mem_singleton.mp hq
      refine ⟨m, rfl, ?_⟩
      rcases ht with hsame | hdrained
      · rw [pushMessage, push, hsame] at hopen
        exact hpushed _ hopen
      · rw [pushMessage, push, hdrained] at hopen
        -- all that is in the queue now was pushed after the drain
        have hfresh := (OutboundQueue.frames_push_sublist s.queue.drain m.encode).subset
          (List.mem_of_mem_drop hopen)
        exact hpushed _ hfresh

namespace Interleaved

variable {c : Config} {id : SessionId}

theorem queue_turn_of_none {turns : List Turn} {tn : Turn} {s : Session}
    (hs : ((ofConfig c).run turns).relay.session? id = none)
    (hs' : (((ofConfig c).run turns).turn tn).relay.session? id = some s) :
    s.queue = .empty c.outboundQueueCapacity := by
  have hnumbered := (chronicled_ofConfig c turns).numbered
  have hnone : ∀ (r : Relay) (f : Session → Session) (id' : SessionId), (∀ s, (f s).id = s.id) →
      r.registry.sessions =
        ((ofConfig c).run turns).relay.registry.sessions.map (Session.only id' f) →
      r.session? id = none := by
    intro r f id' hid hsessions
    rw [Relay.session?_of_map hsessions (Session.id_only hid), hs, Option.map_none]
  cases tn with
  | step st =>
      obtain ⟨peer, now, -, rfl⟩ := Relay.session?_step_of_none hnumbered hs hs'
      rw [config_run]
      rfl
  | handle id' m now =>
      obtain ⟨f, hid, hsessions, -⟩ := exists_handle_only ((ofConfig c).run turns).relay id' m now
      cases (hnone _ f id' hid hsessions).symm.trans hs'
  | apply place now =>
      simp only [turn] at hs'
      split at hs'
      · cases hs.symm.trans hs'
      · rename_i id' effects hleft
        have hown := session_of_left (List.mem_of_getElem? hleft)
        cases (hnone _ _ _ (fun s => Session.id_foldl_undergo now s _)
          (Relay.sessions_apply hnumbered now hown)).symm.trans hs'

theorem newFrames_turn_of_none {turns : List Turn}
    (hs : ((ofConfig c).run turns).relay.session? id = none) (tn : Turn) :
    OutboundQueue.newFrames (((ofConfig c).run turns).relay.queue id)
      ((((ofConfig c).run turns).turn tn).relay.queue id) = [] := by
  rw [Relay.queue_of_none hs]
  cases hs' : (((ofConfig c).run turns).turn tn).relay.session? id with
  | none =>
      rw [Relay.queue_of_none hs']
      rfl
  | some s =>
      rw [Relay.queue_of_some hs', queue_turn_of_none hs hs']
      rfl

/-- What the queue of a session takes in a turn, the turn pushes on it. -/
theorem exists_sends_of_mem_newFrames {turns : List Turn} {tn : Turn} {frame : List UInt8}
    (h : frame ∈ OutboundQueue.newFrames (((ofConfig c).run turns).relay.queue id)
      ((((ofConfig c).run turns).turn tn).relay.queue id)) :
    ∃ m, frame = m.encode ∧ ((ofConfig c).run turns).Sends id tn m := by
  cases hs : ((ofConfig c).run turns).relay.session? id with
  | none =>
      rw [newFrames_turn_of_none hs] at h
      cases h
  | some s =>
      obtain ⟨t, sent, reason, hs', ht, hsends, -⟩ := session?_turn_of_some hs tn
      rw [Relay.queue_of_some hs, Relay.queue_of_some hs'] at h
      have hqueue : t.queue = s.queue ∨ t.queue = s.queue.drain := by
        split at ht
        · exact Or.inr (congrArg Session.queue ht)
        · exact Or.inl ht.queue
      obtain ⟨m, hm, rfl⟩ := Session.mem_newFrames hqueue h
      exact ⟨m, rfl, hsends m hm⟩

/-- **How old a snapshot is when it is queued.**  Whatever a relay goes through, a snapshot that the
queue of a session takes tells the state that its market had at some time, and what it misses are
the events of its symbol that were published from then on.  It misses none unless it is queued as
what a request for a snapshot left to do: then that time is when the request was handled. -/
theorem snapshot_age (c : Config) (turns : List Turn) (tn : Turn) (id : SessionId)
    (frame : List UInt8) (snap : MarketDataSnapshot)
    (hframe : frame ∈ OutboundQueue.newFrames (((ofConfig c).run turns).relay.queue id)
      (((ofConfig c).run (turns ++ [tn])).relay.queue id))
    (hsnap : Message.decode defaultFrameLimit frame = .ok (.marketDataSnapshot snap)) :
    ∃ early late, turns = early ++ late ∧
      snap = ((ofConfig c).run early).relay.snapshots.get snap.symbolId ∧
      ((ofConfig c).run (turns ++ [tn])).relay.snapshots.get snap.symbolId =
        (late.flatMap (Turn.eventsOf snap.symbolId)).foldl (fun s e => s.apply e.occurrence) snap ∧
      (late = [] ∨ ∃ place now request handledAt rest, tn = .apply place now ∧
        late = .handle id (.marketDataRequest request) handledAt :: rest ∧
        request.action = .snapshot) := by
  rw [run_append, run_cons, run_nil] at hframe ⊢
  obtain ⟨m, rfl, hsends⟩ := exists_sends_of_mem_newFrames hframe
  obtain rfl := Message.eq_of_decode_encode_snapshot hsnap
  cases hsends with
  | step hs hpushed =>
      obtain ⟨hcurrent, hevents⟩ := Session.snapshot_of_pushed hpushed
      refine ⟨turns, [], (List.append_nil turns).symm, hcurrent, ?_, Or.inl rfl⟩
      rw [snapshot_turn, Turn.eventsOf, hevents]
      exact hcurrent.symm
  | handle symbol =>
      refine ⟨turns, [], (List.append_nil turns).symm, ?_, ?_, Or.inl rfl⟩
      · rw [SnapshotCache.symbolId_get]
      · rw [snapshot_turn, SnapshotCache.symbolId_get]
        rfl
  | @apply place now effects _ hleft hmem =>
      obtain ⟨early, m, handledAt, rest, rfl, rfl⟩ :=
        exists_handled_of_left (List.mem_of_getElem? hleft)
      obtain ⟨request, rfl, haction, hcurrent⟩ := Relay.snapshot_of_mem_effects hmem
      refine ⟨early, _, rfl, hcurrent, ?_, Or.inr ⟨place, now, request, handledAt, rest, rfl, rfl,
        haction⟩⟩
      rw [snapshot_turn, run_append, snapshot_run, ← hcurrent]
      rfl

/-- A client subscribes and then asks for a snapshot; a trade is published before it is sent. -/
def overtaken : List Turn :=
  [.step (.enlist (.v4 127 0 0 1 50000) 0),
    .step (.message 1 (.marketDataRequest ⟨.subscribe, 0, "BTC-USD", ""⟩) 5 6),
    .handle 1 (.marketDataRequest ⟨.snapshot, 0, "BTC-USD", ""⟩) 7,
    .step (.publish ⟨1, .trade ⟨⟨1⟩, ⟨2⟩, .sell, 7⟩⟩ 0)]

/-- The snapshot that a trade overtook tells the market before the trade. -/
theorem snapshot_age_overtaken :
    let frame := (Message.marketDataSnapshot (.blank 1)).encode
    frame ∈ OutboundQueue.newFrames (((ofConfig {}).run overtaken).relay.queue 1)
        (((ofConfig {}).run (overtaken ++ [.apply 0 8])).relay.queue 1) ∧
      Message.decode defaultFrameLimit frame = .ok (.marketDataSnapshot (.blank 1)) ∧
      ∃ early late, overtaken = early ++ late ∧
        MarketDataSnapshot.blank 1 = ((ofConfig {}).run early).relay.snapshots.get 1 ∧
        ((ofConfig {}).run (overtaken ++ [.apply 0 8])).relay.snapshots.get 1 =
          (late.flatMap (Turn.eventsOf 1)).foldl (fun s e => s.apply e.occurrence) (.blank 1) ∧
        (late = [] ∨ ∃ place now request handledAt rest, Turn.apply 0 8 = .apply place now ∧
          late = .handle 1 (.marketDataRequest request) handledAt :: rest ∧
          request.action = .snapshot) := by
  intro frame
  have hframe : frame ∈ OutboundQueue.newFrames (((ofConfig {}).run overtaken).relay.queue 1)
      (((ofConfig {}).run (overtaken ++ [.apply 0 8])).relay.queue 1) := by
    decide +kernel
  have hsnap : Message.decode defaultFrameLimit frame =
      .ok (.marketDataSnapshot (.blank 1)) :=
    Message.decode_encode (Message.frameSize_le_defaultFrameLimit _)
  exact ⟨hframe, hsnap, snapshot_age {} overtaken (.apply 0 8) 1 frame (.blank 1) hframe hsnap⟩

/-- The client of a subscription is taken back to a market before its last trade: the trade waits
for it, and behind the trade a snapshot that does not know it. -/
theorem not_snapshot_current :
    ¬ ∀ (c : Config) (turns : List Turn) (tn : Turn) (id : SessionId) (snap : MarketDataSnapshot),
      c.validate = .ok () →
      ((ofConfig c).run turns).relay.isSubscriber id snap.symbolId = true →
      (Message.marketDataSnapshot snap).encode ∈
        OutboundQueue.newFrames (((ofConfig c).run turns).relay.queue id)
          (((ofConfig c).run (turns ++ [tn])).relay.queue id) →
      snap = ((ofConfig c).run (turns ++ [tn])).relay.snapshots.get snap.symbolId := by
  intro hcurrent
  have hblank := hcurrent {} overtaken (.apply 0 8) 1 (.blank 1) (by decide +kernel)
    (by decide +kernel) (by decide +kernel)
  revert hblank
  decide +kernel

end Interleaved
end MarketRelay
