import MarketRelay.Proofs.Relay.Heartbeats
import MarketRelay.Proofs.Relay.SnapshotAge
import MarketRelay.Proofs.Server.Balance
import MarketRelay.Server.Status

/-!
# The books of a server

What a server shows of itself adds up after any steps of those who work at it: connections that were
accepted are sessions that are listed or have ended, ends are counted under the reasons that
observers are told, and the heartbeats that are counted are those that queues took.

Admissions and ends are known from `Balanced`.  Heartbeats are not part of it, since the books do
not say who got them: `heartbeatsTaken` counts in the queues what they took between two states, and
`CountsHeartbeats` says that the counter grew by that.  Only looks for signs of life send
heartbeats, so for all other steps it has to be shown that what they push is none, and that nothing
is counted.

`Sound` collects the invariants of a server at work.  `sound_ofConfig` and `Sound.step` are what
every statement about runs of a server starts from; `books_balance` is the one that uses all of
them.
-/
namespace MarketRelay

def CloseReason.isViolation : CloseReason → Bool
  | .protocolViolation _ => true
  | _ => false

/-! ## Heartbeats that queues take -/

theorem heartbeatsOf_eq_nil {frames : List (List UInt8)}
    (h : ∀ frame ∈ frames, ∃ m : Message, frame = m.encode ∧ m.isHeartbeat = false) :
    heartbeatsOf frames = [] := by
  refine List.filter_eq_nil_iff.mpr fun frame hframe => ?_
  obtain ⟨m, rfl, hm⟩ := h frame hframe
  simp [Message.decode_encode m.frameSize_le_defaultFrameLimit, Message.isHeartbeat_norm, hm]

theorem Message.isHeartbeat_of_isAnswer {m : Message} (h : m.isAnswer = true) :
    m.isHeartbeat = false := by
  cases m with
  | heartbeat m => cases h
  | _ => rfl

namespace Session

theorem heartbeatsOf_newFrames_pushMessage {s t : Session} (ht : t.queue = s.queue)
    (sent : Option Message) (hsent : ∀ m, sent = some m → m.isHeartbeat = false)
    (reason : Option CloseReason) :
    heartbeatsOf (OutboundQueue.newFrames s.queue
      ((t.pushMessage sent).leaveFor reason).queue) = [] := by
  refine heartbeatsOf_eq_nil fun frame hframe => ?_
  obtain ⟨m, hm, rfl⟩ := mem_newFrames (Or.inl ht) hframe
  exact ⟨m, rfl, hsent m hm⟩

theorem heartbeatsOf_newFrames_undergo (s : Session) (now : Instant) {e : Effect}
    {id : SessionId} (he : Relay.IsAnswering id e) :
    heartbeatsOf (OutboundQueue.newFrames s.queue (s.undergo now e).queue) = [] := by
  cases e with
  | send id' m =>
      refine heartbeatsOf_newFrames_pushMessage (t := s) rfl (some m) ?_ none
      rintro _ ⟨⟩
      exact Message.isHeartbeat_of_isAnswer (he.sends id' m rfl)
  | authenticate id' username =>
      exact heartbeatsOf_newFrames_pushMessage
        (s.sameWay_authenticate_of_listed username now).queue none nofun none
  | close id' reason =>
      exact heartbeatsOf_newFrames_pushMessage (t := s) rfl none nofun (some reason)

/-- A step counts the heartbeats that the queue of the session takes. -/
theorem count_heartbeatsSent_tally {s : Session}
    (hopen : s.isListed = true → s.queue.isClosed = false) (r : Relay) (st : Step) :
    (s.tally r st).count .heartbeatsSent =
      (heartbeatsOf (OutboundQueue.newFrames s.queue (s.after r st).queue)).length := by
  -- what is counted of a push or of an end is no heartbeat; only a look counts one, for the push
  have hqueue : s.queue.tally.count .heartbeatsSent = 0 := by
    unfold OutboundQueue.tally
    cases s.queue.outcome <;> rfl
  have hack : s.queue.acknowledgementTally.count .heartbeatsSent = 0 := by
    unfold OutboundQueue.acknowledgementTally
    cases s.queue.evicts <;> rfl
  have hend : ∀ reason, (s.closeTally reason).count .heartbeatsSent = 0 := by
    intro reason
    unfold closeTally
    split
    · cases reason <;> rfl
    · rfl
  rw [heartbeatsOf_newFrames hopen, List.length_map]
  cases st with
  | message id m handledAt appliedAt =>
      simp only [tally, owed]
      split
      · rw [messageTally, List.count_append]
        have hsent : (if (s.acknowledged r m).isSome then s.queue.acknowledgementTally
            else if (s.reply r m).isSome then s.queue.tally else []).count
              Counter.heartbeatsSent = 0 := by
          split
          · exact hack
          · split
            · exact hqueue
            · rfl
        rw [hsent, Nat.zero_add]
        cases s.endingBy r m with
        | none => rfl
        | some reason => exact hend reason
      · rfl
  | publish e elapsed =>
      simp only [tally, owed]
      split
      · exact hqueue
      · rfl
  | sweep l now clock =>
      simp only [tally, owed, sweepTally]
      cases hlisted : s.isListed with
      | false => rfl
      | true =>
          have haccepted : s.queue.outcome.isAccepted = true := by
            rw [s.queue.isAccepted_outcome, hopen hlisted]
            rfl
          cases howed : s.isOwed l now with
          | true =>
              have hsilence : s.silence l now = none := by
                simp only [isOwed, Bool.and_eq_true, Option.isNone_iff_eq_none] at howed
                exact howed.1.2
              simp [hsilence, haccepted, hqueue]
          | false =>
              simp only [if_true, Bool.true_and]
              split <;> rfl
  | close id reason =>
      simp only [tally, owed]
      split
      · exact hend reason
      · rfl
  | _ => rfl

end Session

namespace Relay

variable {past : List SessionEvent} {required : Bool} {r r' : Relay} {id : SessionId}

/-- The number of heartbeats that all queues together took between two states. -/
def heartbeatsTaken (r r' : Relay) : Nat :=
  (r'.registry.sessions.map fun s =>
    (heartbeatsOf (OutboundQueue.newFrames (r.queue s.id) s.queue)).length).sum

theorem heartbeatsTaken_of_map (h : r.registry.Numbered) {f : Session → Session}
    (hsessions : r'.registry.sessions = r.registry.sessions.map f) (hf : ∀ s, (f s).id = s.id) :
    heartbeatsTaken r r' = (r.registry.sessions.map fun s =>
      (heartbeatsOf (OutboundQueue.newFrames s.queue (f s).queue)).length).sum := by
  rw [heartbeatsTaken, hsessions, List.map_map]
  refine congrArg List.sum (List.map_congr_left fun s hs => ?_)
  have hfound : r.session? s.id = some s := (Registry.session?_eq_some_iff h).mpr ⟨hs, rfl⟩
  rw [Function.comp, hf, queue_of_some hfound]

theorem heartbeatsTaken_eq_zero (h : r.registry.Numbered) {f : Session → Session}
    (hsessions : r'.registry.sessions = r.registry.sessions.map (Session.only id f))
    (hid : ∀ s, (f s).id = s.id)
    (hf : ∀ s, heartbeatsOf (OutboundQueue.newFrames s.queue (f s).queue) = []) :
    heartbeatsTaken r r' = 0 := by
  rw [heartbeatsTaken_of_map h hsessions (Session.id_only hid), List.sum_eq_zero_iff_forall_eq_nat]
  intro n hn
  obtain ⟨s, -, rfl⟩ := List.mem_map.mp hn
  by_cases hs : s.id = id
  · rw [Session.only_of_eq hs, hf s]
    rfl
  · rw [Session.only_of_ne hs, OutboundQueue.newFrames_of_frames_eq rfl rfl]
    rfl

theorem heartbeatsTaken_self (h : r.registry.Numbered) (hsessions : r'.registry = r.registry) :
    heartbeatsTaken r r' = 0 := by
  have hmap : r'.registry.sessions = r.registry.sessions.map (Session.only 0 fun s => s) := by
    rw [hsessions]
    exact (map_only_of_forall fun _ _ _ => rfl).symm
  refine heartbeatsTaken_eq_zero h hmap (fun _ => rfl) fun s => ?_
  rw [OutboundQueue.newFrames_of_frames_eq rfl rfl]
  rfl

/-- The counter of heartbeats grows by those that queues take, and starts anew beyond its word. -/
def CountsHeartbeats (r r' : Relay) : Prop :=
  r'.metrics.get .heartbeatsSent =
    (r.metrics.get .heartbeatsSent + heartbeatsTaken r r') % UInt64.size

theorem countsHeartbeats_of_none (hcount : r'.metrics.get .heartbeatsSent =
    r.metrics.get .heartbeatsSent) (htaken : heartbeatsTaken r r' = 0) :
    CountsHeartbeats r r' := by
  rw [CountsHeartbeats, hcount, htaken, Nat.add_zero, Metrics.get_mod_size]

theorem countsHeartbeats_step (h : r.registry.Chronicled required past) {st : Step}
    (hnobody : r.admitted st = []) : CountsHeartbeats r (r.step st) := by
  have hsessions := sessions_step h.numbered st
  rw [hnobody, List.append_nil] at hsessions
  have hopen : ∀ s ∈ r.registry.sessions, s.isListed = true → s.queue.isClosed = false :=
    fun s hs hlisted => (h.settled s hs).queue_isOpen hlisted
  have hcount := count_tally_add (k := .heartbeatsSent) nofun (fun s hs =>
    (Nat.add_zero _).trans (Session.count_heartbeatsSent_tally (hopen s hs) r st))
  rw [CountsHeartbeats, grows_step h.numbered st, heartbeatsTaken_of_map h.numbered hsessions
    (fun s => s.id_after r st), ← hcount]
  simp

theorem countsHeartbeats_letIn (h : r.registry.Numbered) {peer : SocketAddress} {now : Instant}
    (henlist : r.enlist peer now = .ok (id, r')) :
    CountsHeartbeats r (r'.count .connectionsAccepted) := by
  obtain ⟨-, -, s, -, hempty, -, rfl⟩ := exists_eq_of_enlist henlist
  have hne : Counter.connectionsAccepted ≠ .heartbeatsSent := nofun
  refine countsHeartbeats_of_none (get_count hne _) ?_
  have hold : heartbeatsTaken r r = 0 := heartbeatsTaken_self h rfl
  have hnew : (heartbeatsOf (OutboundQueue.newFrames (r.queue s.id) s.queue)).length = 0 := by
    have hframes : s.queue.frames = [] := congrArg OutboundQueue.frames hempty
    rw [OutboundQueue.newFrames, hframes, List.drop_nil]
    rfl
  rw [heartbeatsTaken] at hold ⊢
  change (List.map _ (r.registry.sessions ++ [s])).sum = 0
  rw [List.map_append, List.sum_append, hold, List.map_singleton, List.sum_singleton, hnew]

theorem heartbeatsSent_close (r : Relay) (id : SessionId) {reason : CloseReason}
    (h : reason.isTimeout = false) :
    (r.close id reason).1.metrics.get .heartbeatsSent = r.metrics.get .heartbeatsSent := by
  have hother : (reason.counter? == some .heartbeatsSent) = false := by
    cases reason <;> rfl
  rw [get_close h, hother, Bool.and_false]
  exact r.metrics.get_mod_size .heartbeatsSent

theorem countsHeartbeats_works (h : r.registry.Chronicled required past) (hworks : Works r r') :
    CountsHeartbeats r r' := by
  cases hworks with
  | same => exact countsHeartbeats_of_none rfl (heartbeatsTaken_self h.numbered rfl)
  | count k hk =>
      refine countsHeartbeats_of_none (get_count ?_ r) (heartbeatsTaken_self h.numbered rfl)
      rcases hk with rfl | rfl | rfl
      all_goals exact nofun
  | letIn peer now henlist => exact countsHeartbeats_letIn h.numbered henlist
  | handle id m now =>
      obtain ⟨f, hid, hsessions, hf⟩ :=
        Interleaved.exists_handle_only (r.count .framesReceived) id m now
      have hquiet := (quiet_count rfl r).trans (quiet_handle (r.count .framesReceived) id m now)
      refine countsHeartbeats_of_none (hquiet.counts .heartbeatsSent rfl) ?_
      refine heartbeatsTaken_eq_zero h.numbered hsessions hid fun s => ?_
      obtain ⟨t, sent, heq, hway, hsent⟩ := hf s
      rw [heq]
      refine Session.heartbeatsOf_newFrames_pushMessage hway.queue sent ?_ none
      intro m' hm'
      obtain ⟨symbol, rfl⟩ := hsent m' hm'
      rfl
  | apply id now e he =>
      refine countsHeartbeats_of_none ?_ ?_
      · cases e with
        | send id' m => exact (quiet_send r id id' m).counts .heartbeatsSent rfl
        | authenticate id' username =>
            exact (quiet_authenticate r id' username now).counts .heartbeatsSent rfl
        | close id' reason => exact heartbeatsSent_close r id' (he.closes id' reason rfl)
      · exact heartbeatsTaken_eq_zero h.numbered (sessions_applyOne_own h.numbered now he.session)
          (fun s => s.id_undergo now e) fun s => s.heartbeatsOf_newFrames_undergo now he
  | takeLeave id =>
      refine countsHeartbeats_of_none ?_ ?_
      · exact heartbeatsSent_close (r.modify id (·.push Server.farewell.encode)) id rfl
      · refine heartbeatsTaken_eq_zero h.numbered (sessions_shutDownSession h.numbered id)
          (fun s => s.id_shutDown) fun s => ?_
        refine Session.heartbeatsOf_newFrames_pushMessage (t := s) rfl (some Server.farewell) ?_
          (some .serverShutdown)
        rintro _ ⟨⟩
        rfl
  | stop => exact countsHeartbeats_step h rfl
  | drain id => exact countsHeartbeats_step h rfl
  | sweep l now clock => exact countsHeartbeats_step h rfl
  | publish e elapsed => exact countsHeartbeats_step h rfl

end Relay

/-! ## Runs -/

namespace Service

variable {c : Config} {s : Service}

/-- What holds of a server at work at all times. -/
structure Sound (c : Config) (s : Service) : Prop where
  config : s.relay.config = c
  chronicled : s.relay.registry.Chronicled c.requireAuthentication []
  balanced : s.relay.Balanced
  answers : s.Answers

theorem sound_ofConfig (c : Config) : Sound c (ofConfig c) where
  config := rfl
  chronicled := Registry.chronicled_empty c.maxClients
  balanced := Relay.balanced_ofConfig c
  answers := nofun

theorem Sound.step (h : Sound c s) (st : ServerStep) : Sound c (s.step st) := by
  have hworks := works_step h.answers st
  have hchronicled := hworks.chronicled (h.config.symm ▸ h.chronicled)
  exact ⟨hworks.config.trans h.config, h.config ▸ hchronicled, h.balanced.works h.chronicled hworks,
    h.answers.step st⟩

theorem Sound.run (h : Sound c s) (steps : List ServerStep) : Sound c (s.run steps) :=
  Relay.foldl_induction (P := Sound c) (fun _ st h => h.step st) h steps

/-- The number of heartbeats that all queues together took in a run. -/
def heartbeatsTaken : Service → List ServerStep → Nat
  | _, [] => 0
  | s, st :: steps => s.relay.heartbeatsTaken (s.step st).relay + heartbeatsTaken (s.step st) steps

theorem heartbeatsSent_run (h : Sound c s) (steps : List ServerStep) :
    (s.run steps).relay.metrics.get .heartbeatsSent =
      (s.relay.metrics.get .heartbeatsSent + heartbeatsTaken s steps) % UInt64.size := by
  induction steps generalizing s with
  | nil => exact (s.relay.metrics.get_mod_size .heartbeatsSent).symm
  | cons st steps ih =>
      have hone : Relay.CountsHeartbeats s.relay (s.step st).relay :=
        Relay.countsHeartbeats_works h.chronicled (works_step h.answers st)
      rw [run_cons, ih (h.step st), hone, Nat.mod_add_mod, Nat.add_assoc, heartbeatsTaken]

/-- What a server shows of itself adds up. -/
structure BooksBalance (s : Service) (heartbeats : Nat) (now : Instant) : Prop where
  connections : s.relay.metrics.get .connectionsAccepted =
    (s.server.status now).sessions + s.relay.registry.closedTotal
  /-- Observers were told of each end that is counted, and of no other. -/
  ends : s.relay.registry.closedTotal = s.relay.registry.ends.length
  violations : s.relay.metrics.get .protocolViolations =
    s.relay.registry.ends.countP (·.isViolation)
  refusals : s.relay.metrics.get .logonsRejected =
    s.relay.registry.ends.count .authenticationFailed
  heartbeatTimeouts : s.relay.metrics.get .heartbeatTimeouts =
    s.relay.registry.ends.count .heartbeatTimeout
  logonTimeouts : s.relay.metrics.get .logonTimeouts = s.relay.registry.ends.count .logonTimeout
  /-- The heartbeats that are counted are those that queues took. -/
  heartbeats : s.relay.metrics.get .heartbeatsSent = heartbeats
  authenticated_le : (s.server.status now).authenticatedSessions ≤ (s.server.status now).sessions
  sessions_le : (s.server.status now).sessions ≤ (s.server.status now).maxClients

/-- **The books balance.**  After any steps of those who work at a server, unless so many were let
in or so many heartbeats sent that a counter started anew, what the server shows of itself adds
up. -/
theorem books_balance (c : Config) (steps : List ServerStep)
    (hadmitted : ((ofConfig c).run steps).relay.registry.sessions.length < UInt64.size)
    (hheartbeats : heartbeatsTaken (ofConfig c) steps < UInt64.size) (now : Instant) :
    BooksBalance ((ofConfig c).run steps) (heartbeatsTaken (ofConfig c) steps) now := by
  have hsound := (sound_ofConfig c).run steps
  have hcount := heartbeatsSent_run (sound_ofConfig c) steps
  generalize (ofConfig c).run steps = s at hsound hadmitted hcount ⊢
  have hbalanced := hsound.balanced
  -- fewer sessions ended than were let in, so no counter of ends started anew either
  have hends : s.relay.registry.ends.length < UInt64.size := by
    rw [← hbalanced.closedTotal]
    exact Nat.lt_of_le_of_lt (hbalanced.listed ▸ Nat.le_add_left _ _) hadmitted
  have hended : ∀ k, k.isOfEnds = true → ∀ p : CloseReason → Bool,
      (∀ reason : CloseReason, (reason.counter? == some k) = p reason) →
      s.relay.metrics.get k = s.relay.registry.ends.countP p := by
    intro k hk p hp
    rw [hbalanced.ends k hk, funext hp]
    exact Nat.mod_eq_of_lt (Nat.lt_of_le_of_lt List.countP_le_length hends)
  constructor
  case connections =>
    rw [hbalanced.admitted, Nat.mod_eq_of_lt hadmitted]
    exact hbalanced.listed.symm
  case ends => exact hbalanced.closedTotal
  case violations => exact hended .protocolViolations rfl _ fun reason => by cases reason <;> rfl
  case refusals => exact hended .logonsRejected rfl _ fun reason => by cases reason <;> rfl
  case heartbeatTimeouts =>
    exact hended .heartbeatTimeouts rfl _ fun reason => by cases reason <;> rfl
  case logonTimeouts => exact hended .logonTimeouts rfl _ fun reason => by cases reason <;> rfl
  case heartbeats =>
    rw [hcount, show (ofConfig c).relay.metrics.get .heartbeatsSent = 0 from Metrics.get_empty _,
      Nat.zero_add, Nat.mod_eq_of_lt hheartbeats]
  case authenticated_le => exact List.countP_le_length
  case sessions_le => exact hbalanced.size_le

/-- A client takes its leave, but is dropped for its silence before that is dealt with; its reader
comes too late as well. -/
theorem books_balance_too_late :
    let c : Config := { maxClients := 1 }
    let steps : List ServerStep := [.accept (.v4 127 0 0 1 50000) 0,
      .accept (.v4 127 0 0 1 50001) 1, .decode 1 (Message.logoff ⟨"bye", false⟩).encode 2,
      .sweep 90000000000 0, .apply 0 90000000001, .endReader 1 .endOfStream]
    ((ofConfig c).run steps).relay.registry.sessions.length < UInt64.size ∧
      heartbeatsTaken (ofConfig c) steps < UInt64.size ∧
      BooksBalance ((ofConfig c).run steps) (heartbeatsTaken (ofConfig c) steps) 90000000002 ∧
      ((ofConfig c).run steps).relay.registry.ends = [.heartbeatTimeout] ∧
      ((ofConfig c).run steps).relay.metrics.get .connectionsAccepted = 1 := by
  intro c steps
  have hadmitted : ((ofConfig c).run steps).relay.registry.sessions.length < UInt64.size := by
    decide +kernel
  have hheartbeats : heartbeatsTaken (ofConfig c) steps < UInt64.size := by decide +kernel
  have hends : ((ofConfig c).run steps).relay.registry.ends = [.heartbeatTimeout] := by
    decide +kernel
  have hbooks := books_balance c steps hadmitted hheartbeats 90000000002
  refine ⟨hadmitted, hheartbeats, hbooks, hends, ?_⟩
  rw [hbooks.connections, hbooks.ends, hends]
  decide +kernel

end Service
end MarketRelay
