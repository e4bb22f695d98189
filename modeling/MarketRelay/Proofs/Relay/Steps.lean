import MarketRelay.Proofs.Relay.Sessions

/-!
# Steps

A step is `Session.after` on every session that there was, and possibly one more session
(`sessions_step`).  It leaves the settings alone, and the snapshots, too, unless it publishes an
event (`backdrop_step`).  What later modules show of runs rests on these two.

Messages of clients are the long case.  What a message does at once is one of three things,
`Handled`; what it leaves to do is a list of effects that all name its own session
(`session_of_mem_effects`), in the order logon, answer, end (`effects_handleMessage`).  An effect
changes the session that it names and no other (`sessions_applyOne`), so the two stages together
change the one session that sent the message.  They make of it what `Session.after` says
(`sessions_message`).

Sweeps and the leave that is taken of all sessions are folds over the listed sessions.  For a fact
that is kept by the look at one session there is `sweep_induction`.
-/
namespace MarketRelay

/-! ## Messages of clients -/

namespace Session

/-- The session after an effect on it. -/
def undergo (now : Instant) (s : Session) : Effect → Session
  | .send _ m => s.push m.encode
  | .authenticate _ username => if s.isListed then (s.authenticate username now).1 else s
  | .close _ reason => s.leave reason

/-- The session that an effect names, after session `own` was the cause of it: what one session
causes reaches another only while that one is listed. -/
def affected (own : SessionId) (now : Instant) (e : Effect) (s : Session) : Session :=
  if e.session = own ∨ s.isListed = true then s.undergo now e else s

@[simp] theorem id_undergo (now : Instant) (s : Session) (e : Effect) :
    (s.undergo now e).id = s.id := by
  cases e with
  | send id m => rfl
  | authenticate id username => exact (s.sameWay_authenticate_of_listed username now).id
  | close id reason => exact (s.sameClient_leave reason).id

theorem affected_of_own {own : SessionId} {e : Effect} (h : e.session = own) (now : Instant)
    (s : Session) : s.affected own now e = s.undergo now e :=
  if_pos (Or.inl h)

theorem affected_cases {P : Session → Prop} {now : Instant} {e : Effect} {s : Session}
    (same : P s) (undergone : P (s.undergo now e)) (own : SessionId) :
    P (s.affected own now e) := by
  unfold affected
  split
  · exact undergone
  · exact same

theorem id_affected (own : SessionId) (now : Instant) (e : Effect) (s : Session) :
    (s.affected own now e).id = s.id :=
  affected_cases (P := fun t => t.id = s.id) rfl (s.id_undergo now e) own

/-- The session after a message of its client was dealt with. -/
def answered (r : Relay) (m : Message) (handledAt appliedAt : Instant) (s : Session) : Session :=
  ((s.noted r m handledAt appliedAt).pushMessage (s.reply r m)).leaveFor (s.endingBy r m)

end Session

namespace Relay

variable {r : Relay} {id : SessionId}

theorem sessions_send (h : r.registry.Numbered) (own id : SessionId) (now : Instant)
    (m : Message) :
    (r.send own id m).registry.sessions =
      r.registry.sessions.map (Session.only id (·.affected own now (.send id m))) := by
  unfold send
  by_cases hown : own = id
  · rw [if_pos (beq_iff_eq.mpr hown), sessions_enqueue]
    exact map_only_congr fun s _ _ =>
      (s.affected_of_own (e := .send id m) hown.symm now).symm
  · have hne : ¬ (Effect.send id m).session = own := fun heq => hown heq.symm
    rw [if_neg (by simpa using hown)]
    split
    · rename_i hcontains
      obtain ⟨t, ht, hlisted, htid⟩ := Registry.contains_iff.mp hcontains
      rw [sessions_enqueue]
      refine map_only_congr fun s hs hid => ?_
      rw [h.eq_of_id_eq hs ht (hid.trans htid.symm), Session.affected, if_pos (Or.inr hlisted)]
      rfl
    · rename_i hcontains
      symm
      refine map_only_of_forall fun s hs hid => if_neg (not_or.mpr ⟨hne, fun hlisted => ?_⟩)
      exact hcontains (Registry.contains_iff.mpr ⟨s, hs, hlisted, hid⟩)

/-- An effect changes the session that it names, and no other, whoever was the cause of it. -/
theorem sessions_applyOne (h : r.registry.Numbered) (own : SessionId) (now : Instant)
    (e : Effect) :
    (applyOne own now r e).registry.sessions =
      r.registry.sessions.map (Session.only e.session (·.affected own now e)) := by
  cases e with
  | send id m => exact sessions_send h own id now m
  | authenticate id username =>
      refine (sessions_authenticate h id username now).trans (map_only_congr fun s _ _ => ?_)
      cases hlisted : s.isListed <;> simp [Session.affected, Session.undergo, hlisted]
  | close id reason =>
      refine (sessions_close h id reason).trans (map_only_congr fun s _ _ => ?_)
      cases hlisted : s.isListed <;>
        simp [Session.affected, Session.undergo, hlisted, Session.leave_of_not_isListed]

theorem send_own (r : Relay) (id : SessionId) (m : Message) : r.send id id m = r.enqueue id m :=
  if_pos (beq_self_eq_true id)

theorem backdrop_send (r : Relay) (own id : SessionId) (m : Message) :
    (r.send own id m).backdrop = r.backdrop := by
  unfold send
  split
  · exact backdrop_enqueue r id m
  · split
    · exact backdrop_enqueue r id m
    · rfl

theorem backdrop_applyOne (own : SessionId) (now : Instant) (r : Relay) (e : Effect) :
    (applyOne own now r e).backdrop = r.backdrop := by
  cases e with
  | send id m => exact backdrop_send r own id m
  | authenticate id username =>
      have hnext := nextId_authenticate r.registry id username now
      simp only [applyOne, backdrop, hnext]
  | close id reason => exact backdrop_close r id reason

theorem numbered_applyOne (h : r.registry.Numbered) (own : SessionId) (now : Instant)
    (e : Effect) : (applyOne own now r e).registry.Numbered :=
  h.map (sessions_applyOne h own now e) (nextId_of_backdrop (backdrop_applyOne own now r e))
    (Session.id_only (Session.id_affected own now e))

/-- Effects are applied one after another, and the session that caused them is closed if one of them
closes it. -/
theorem apply_eq (r : Relay) (own : SessionId) (now : Instant) (effects : List Effect) :
    r.apply own now effects =
      (effects.foldl (applyOne own now) r, effects.any (·.closes own)) := by
  have hacc : ∀ acc : Relay × Bool,
      effects.foldl (fun acc e => (applyOne own now acc.1 e, acc.2 || e.closes own)) acc =
        (effects.foldl (applyOne own now) acc.1, acc.2 || effects.any (·.closes own)) := by
    induction effects with
    | nil => intro acc; simp
    | cons e rest ih =>
        intro acc
        simp only [List.foldl_cons, ih, List.any_cons, Bool.or_assoc]
  rw [apply, hacc, Bool.false_or]

theorem backdrop_apply (r : Relay) (own : SessionId) (now : Instant) (effects : List Effect) :
    (r.apply own now effects).1.backdrop = r.backdrop := by
  rw [apply_eq]
  exact foldl_keeps backdrop (backdrop_applyOne own now) r effects

theorem sessions_applyOne_own (h : r.registry.Numbered) (now : Instant) {e : Effect}
    (he : e.session = id) :
    (applyOne id now r e).registry.sessions =
      r.registry.sessions.map (Session.only id (·.undergo now e)) := by
  rw [sessions_applyOne h id now e, he]
  exact map_only_congr fun s _ _ => s.affected_of_own he now

theorem sessions_apply (h : r.registry.Numbered) (now : Instant) {effects : List Effect}
    (hown : ∀ e ∈ effects, e.session = id) :
    (r.apply id now effects).1.registry.sessions =
      r.registry.sessions.map (Session.only id fun s => effects.foldl (Session.undergo now) s) := by
  rw [apply_eq]
  induction effects generalizing r with
  | nil =>
      symm
      exact map_only_of_forall fun _ _ _ => rfl
  | cons e rest ih =>
      have hone := sessions_applyOne_own h now (hown e List.mem_cons_self)
      rw [List.foldl_cons,
        ih (numbered_applyOne h id now e) fun e' he' => hown e' (List.mem_cons_of_mem e he'), hone,
        map_only_only fun s => s.id_undergo now e]
      rfl

/-- What a message may make of a relay at once. -/
inductive Handled (r : Relay) (s : Session) (m : Message) : Relay → Prop
  | subscribed {symbol : SymbolId} (h : s.acknowledged r m = some symbol) :
      Handled r s m (r.subscribe s.id symbol).1
  | refused {request : LogonRequest} (hm : m = .logonRequest request)
      (h : (AuthPolicy.ofConfig r.config).accepts request.password = false) :
      Handled r s m (r.modify s.id (·.reject))
  /-- Neither the way to the client changes nor how far it got with its logon. -/
  | noted {f : Session → Session} (h : s.acknowledged r m = none)
      (hway : ∀ t : Session, t.SameWay (f t)) (hlogon : ∀ t : Session, t.SameLogon (f t)) :
      Handled r s m (r.modify s.id f)

theorem Handled.same {m : Message} (h : s.acknowledged r m = none) : Handled r s m r := by
  have hnoted := Handled.noted (f := fun t => t) h (fun t => .refl t) fun t => .refl t
  rw [modify_self] at hnoted
  exact hnoted

theorem handled_handleMessage (r : Relay) (s : Session) (m : Message) (now : Instant) :
    Handled r s m (r.handleMessage s m now).1 := by
  cases m with
  | logonRequest request =>
      simp only [handleMessage, handleLogon]
      split
      · exact .same rfl
      · rename_i hrefused
        exact .refused rfl (Bool.eq_false_iff.mpr hrefused)
  | heartbeat m =>
      exact .noted (f := (·.recordHeartbeat now)) rfl (fun _ => by constructor <;> rfl)
        fun _ => ⟨rfl, rfl⟩
  | marketDataRequest request =>
      simp only [handleMessage, handleMarketData]
      cases hauth : s.isAuthenticated with
      | false => exact .same (by simp [Session.acknowledged, hauth])
      | true =>
          simp only [if_true]
          cases hsymbol : r.symbols.resolve request.symbolId request.symbol request.exchange with
          | none => exact .same (by simp [Session.acknowledged, hsymbol])
          | some symbol =>
              cases haction : request.action with
              | subscribe =>
                  simp only
                  split
                  · rename_i hmay
                    exact .subscribed (by
                      simp [Session.acknowledged, hauth, hsymbol, haction, hmay])
                  · rename_i hmay
                    exact .same (by simp [Session.acknowledged, hsymbol, hmay])
              | unsubscribe =>
                  exact .noted (f := fun t => (t.unsubscribe symbol).1)
                    (by simp [Session.acknowledged, haction]) (fun _ => by constructor <;> rfl)
                    fun _ => ⟨rfl, rfl⟩
              | snapshot => exact .same (by simp [Session.acknowledged, haction])
  | _ => exact .same rfl

theorem handle_cases {P : Relay → Prop} {m : Message} {now : Instant} (same : P r)
    (handled : ∀ s r', r.session? s.id = some s → s.id = id → Handled r s m r' → P r') :
    P (r.handle id m now).1 := by
  unfold handle
  cases hs : r.session? id with
  | none => exact same
  | some s =>
      obtain rfl := Registry.id_of_session? hs
      exact handled s _ hs rfl (r.handled_handleMessage s m now)

theorem backdrop_handle (r : Relay) (id : SessionId) (m : Message) (now : Instant) :
    (r.handle id m now).1.backdrop = r.backdrop := by
  refine handle_cases (P := fun r' => r'.backdrop = r.backdrop) rfl ?_
  intro s r' _ _ hhandled
  cases hhandled with
  | subscribed hack => exact backdrop_subscribe r s.id _
  | refused hm hrefused => rfl
  | noted hack hway hlogon => rfl

theorem numbered_handle (h : r.registry.Numbered) (m : Message) (now : Instant) :
    (r.handle id m now).1.registry.Numbered := by
  refine handle_cases (P := fun r' => r'.registry.Numbered) h ?_
  intro s r' _ _ hhandled
  cases hhandled with
  | subscribed hack =>
      exact h.map (sessions_subscribe r s.id _) (nextId_of_backdrop (backdrop_subscribe r s.id _))
        (Session.id_only fun _ => rfl)
  | refused hm hrefused =>
      exact h.map (sessions_modify r s.id _) rfl (Session.id_only fun _ => rfl)
  | noted hack hway hlogon =>
      exact h.map (sessions_modify r s.id _) rfl (Session.id_only fun t => (hway t).id)

/-- What a message leaves to do: to grant a logon, to answer, unless the answer acknowledges a
subscription, and to end the session. -/
theorem effects_handleMessage (r : Relay) (s : Session) (m : Message) (now : Instant) :
    (r.handleMessage s m now).2 =
      ((Session.granted r m).map (Effect.authenticate s.id)).toList ++
        ((if (s.acknowledged r m).isSome then none else s.reply r m).map
          (Effect.send s.id)).toList ++
        ((s.endingBy r m).map (Effect.close s.id)).toList := by
  cases m with
  | logonRequest request =>
      simp only [handleMessage, handleLogon, Session.granted, Session.acknowledged, Session.reply,
        Session.endingBy]
      split <;> rfl
  | marketDataRequest request =>
      simp only [handleMessage, handleMarketData, Session.granted, Session.acknowledged,
        Session.reply, Session.requestReply, Session.endingBy]
      cases s.isAuthenticated with
      | false => rfl
      | true =>
          cases r.symbols.resolve request.symbolId request.symbol request.exchange with
          | none => simp [refusal]
          | some symbol =>
              cases request.action with
              | subscribe =>
                  by_cases hmay : r.maySubscribe s symbol = true
                  · simp [hmay]
                  · simp [hmay, refusal]
              | unsubscribe => rfl
              | snapshot => rfl
  | _ => rfl

theorem session_of_mem_effects {m : Message} {now : Instant} {e : Effect}
    (h : e ∈ (r.handle id m now).2) : e.session = id := by
  unfold handle at h
  cases hs : r.session? id with
  | none =>
      rw [hs] at h
      cases h
  | some s =>
      simp only [hs, effects_handleMessage, List.mem_append, Option.mem_toList,
        Option.map_eq_some_iff] at h
      obtain rfl := Registry.id_of_session? hs
      rcases h with (⟨username, -, rfl⟩ | ⟨sent, -, rfl⟩) | ⟨reason, -, rfl⟩ <;> rfl

/-- What a message of a session does at once and what it leaves to do make up `answered`. -/
theorem handleMessage_spec {s : Session} (hs : r.session? s.id = some s) (m : Message)
    (handledAt appliedAt : Instant) :
    ∃ f : Session → Session, (∀ t, (f t).id = t.id) ∧
      (r.handleMessage s m handledAt).1.registry.sessions =
        r.registry.sessions.map (Session.only s.id f) ∧
      (r.handleMessage s m handledAt).2.foldl (Session.undergo appliedAt) (f s) =
        s.answered r m handledAt appliedAt := by
  -- only a refused logon, a heartbeat and two kinds of requests change anything at once
  have hsame : r.registry.sessions = r.registry.sessions.map (Session.only s.id fun t => t) := by
    symm
    exact map_only_of_forall fun _ _ _ => rfl
  cases m with
  | logonRequest request =>
      by_cases haccept : (AuthPolicy.ofConfig r.config).accepts request.password = true
      · refine ⟨fun t => t, fun _ => rfl, ?_, ?_⟩
        · simpa only [handleMessage, handleLogon, if_pos haccept] using hsame
        · simp only [handleMessage, handleLogon, Session.answered, Session.noted, Session.reply,
            Session.endingBy, if_pos haccept]
          rfl
      · refine ⟨(·.reject), fun _ => rfl, ?_, ?_⟩
        · simp only [handleMessage, handleLogon, if_neg haccept]
          rfl
        · simp only [handleMessage, handleLogon, Session.answered, Session.noted, Session.reply,
            Session.endingBy, if_neg haccept]
          rfl
  | heartbeat m => exact ⟨(·.recordHeartbeat handledAt), fun _ => rfl, rfl, rfl⟩
  | logoff m => exact ⟨fun t => t, fun _ => rfl, hsame, rfl⟩
  | marketDataRequest request =>
      by_cases hauth : s.isAuthenticated = true
      · simp only [handleMessage, Session.answered, Session.noted, Session.reply,
          Session.endingBy, if_pos hauth]
        unfold handleMarketData Session.requested Session.requestReply
        cases r.symbols.resolve request.symbolId request.symbol request.exchange with
        | none => exact ⟨fun t => t, fun _ => rfl, hsame, rfl⟩
        | some symbol =>
            cases request.action with
            | subscribe =>
                by_cases hmay : r.maySubscribe s symbol = true
                · simp only [if_pos hmay]
                  refine ⟨fun t => (t.subscribe symbol).1.push (r.snapshotMessage symbol).encode,
                    fun _ => rfl, ?_, rfl⟩
                  simp only [subscribe, hs]
                  rfl
                · simp only [if_neg hmay]
                  exact ⟨fun t => t, fun _ => rfl, hsame, rfl⟩
            | unsubscribe =>
                exact ⟨fun t => (t.unsubscribe symbol).1, fun _ => rfl, rfl, rfl⟩
            | snapshot => exact ⟨fun t => t, fun _ => rfl, hsame, rfl⟩
      · simp only [handleMessage, Session.answered, Session.noted, Session.reply,
          Session.endingBy, if_neg hauth]
        exact ⟨fun t => t, fun _ => rfl, hsame, rfl⟩
  | logonResponse m => exact ⟨fun t => t, fun _ => rfl, hsame, rfl⟩
  | marketDataReject m => exact ⟨fun t => t, fun _ => rfl, hsame, rfl⟩
  | marketDataSnapshot m => exact ⟨fun t => t, fun _ => rfl, hsame, rfl⟩
  | marketDataUpdateTrade m => exact ⟨fun t => t, fun _ => rfl, hsame, rfl⟩
  | marketDataUpdateBidAsk m => exact ⟨fun t => t, fun _ => rfl, hsame, rfl⟩

theorem sessions_message (h : r.registry.Numbered) (m : Message)
    (handledAt appliedAt : Instant) :
    (r.step (.message id m handledAt appliedAt)).registry.sessions =
      r.registry.sessions.map (Session.only id (·.answered r m handledAt appliedAt)) := by
  rw [step,
    sessions_apply (numbered_handle h m handledAt) appliedAt fun e => session_of_mem_effects]
  simp only [handle]
  cases hs : r.session? id with
  | none =>
      simp only [List.foldl_nil]
      have hno : ∀ s ∈ r.registry.sessions, s.id ≠ id := Registry.session?_eq_none_iff.mp hs
      exact map_only_congr fun s hs' hid => absurd hid (hno s hs')
  | some s =>
      obtain ⟨hmem, rfl⟩ := (Registry.session?_eq_some_iff h).mp hs
      obtain ⟨f, hf, hsessions, heffects⟩ := handleMessage_spec hs m handledAt appliedAt
      simp only
      rw [hsessions, map_only_only hf]
      refine map_only_congr fun t ht hid => ?_
      rw [h.eq_of_id_eq ht hmem hid]
      exact heffects

end Relay

/-! ## Looks at all listed sessions -/

namespace Session

/-- The session after a look for signs of life that found it as `found`. -/
def swept (l : Liveness) (now : Instant) (clock : Int64) (found s : Session) : Session :=
  ((if found.isOwed l now then s.markHeartbeatSent now else s).pushMessage
    (if found.isOwed l now then some (Relay.heartbeatFor found clock) else none)).leaveFor
      (found.silence l now)

theorem id_swept (l : Liveness) (now : Instant) (clock : Int64) (found s : Session) :
    (swept l now clock found s).id = s.id := by
  rw [swept, (sameClient_leaveFor _ _).id, (sameClient_pushMessage _ _).id]
  split <;> rfl

/-- The session after the server took leave of it. -/
def shutDown (s : Session) : Session := (s.push Server.farewell.encode).leave .serverShutdown

theorem id_shutDown (s : Session) : s.shutDown.id = s.id :=
  (sameClient_leave _ .serverShutdown).id

end Session

namespace Relay

variable {r : Relay} {id : SessionId}

theorem registry_timeOut (r : Relay) (id : SessionId) (reason : CloseReason) (c : Counter) :
    (r.timeOut id reason c).1.registry = (r.registry.close id reason).1 := by
  simp only [timeOut]
  split <;> rfl

theorem sessions_timeOut (h : r.registry.Numbered) (reason : CloseReason) (c : Counter) :
    (r.timeOut id reason c).1.registry.sessions =
      r.registry.sessions.map (Session.only id (·.leave reason)) := by
  rw [registry_timeOut]
  exact sessions_closed h id reason

theorem sessions_sendHeartbeat (s : Session) (now : Instant) (clock : Int64) :
    (r.sendHeartbeat s now clock).1.registry.sessions =
      r.registry.sessions.map
        (Session.only s.id fun t =>
          (t.markHeartbeatSent now).push (heartbeatFor s clock).encode) := by
  have hmark : ∀ t : Session, (t.markHeartbeatSent now).id = t.id := fun _ => rfl
  have hsend := sessions_enqueue (r.modify s.id (·.markHeartbeatSent now)) s.id
    (heartbeatFor s clock)
  rw [sessions_modify, map_only_only hmark] at hsend
  simp only [sendHeartbeat]
  split
  · exact hsend
  · exact hsend

theorem sessions_sweepSession (h : r.registry.Numbered) (l : Liveness) (now : Instant)
    (clock : Int64) (report : SweepReport) (s : Session) :
    (sweepSession l now clock (r, report) s).1.registry.sessions =
      r.registry.sessions.map (Session.only s.id (Session.swept l now clock s)) := by
  have hsame : ∀ f : Session → Session, (∀ t, f t = t) →
      r.registry.sessions = r.registry.sessions.map (Session.only s.id f) := by
    intro f hf
    symm
    exact map_only_of_forall fun t _ _ => hf t
  unfold sweepSession Session.swept Session.isOwed Session.isAuthenticated Session.silence
  cases s.auth with
  | authenticated =>
      by_cases hsilent : l.interval.double < now.since s.heartbeatReceivedAt
      · simp only [if_pos hsilent, Option.isNone_some, Bool.and_false, Bool.false_and]
        exact sessions_timeOut h .heartbeatTimeout .heartbeatTimeouts
      · simp only [if_neg hsilent]
        by_cases hdue : s.isHeartbeatDue now l.interval = true
        · simp only [hdue]
          have hsend := sessions_sendHeartbeat (r := r) s now clock
          cases hsent : r.sendHeartbeat s now clock with
          | mk r' taken =>
              rw [hsent] at hsend
              cases taken with
              | true => exact hsend
              | false => exact hsend
        · simp only [hdue]
          exact hsame _ fun t => rfl
  | unauthenticated =>
      by_cases hlate : l.logonTimeout < now.since s.connectedAt
      · simp only [if_pos hlate]
        exact sessions_timeOut h .logonTimeout .logonTimeouts
      · simp only [if_neg hlate]
        exact hsame _ fun t => rfl
  | rejected => exact hsame _ fun t => rfl

theorem backdrop_timeOut (r : Relay) (id : SessionId) (reason : CloseReason) (c : Counter) :
    (r.timeOut id reason c).1.backdrop = r.backdrop := by
  have hnext := nextId_closed r.registry id reason
  simp only [timeOut, backdrop]
  split <;> simp only [count, hnext]

theorem backdrop_sendHeartbeat (r : Relay) (s : Session) (now : Instant) (clock : Int64) :
    (r.sendHeartbeat s now clock).1.backdrop = r.backdrop := by
  have hsend := backdrop_enqueue (r.modify s.id (·.markHeartbeatSent now)) s.id
    (heartbeatFor s clock)
  simp only [sendHeartbeat]
  split
  · exact hsend
  · exact hsend

theorem backdrop_sweepSession (l : Liveness) (now : Instant) (clock : Int64)
    (acc : Relay × SweepReport) (s : Session) :
    (sweepSession l now clock acc s).1.backdrop = acc.1.backdrop := by
  have hsend := acc.1.backdrop_sendHeartbeat s now clock
  unfold sweepSession
  cases s.auth with
  | authenticated =>
      simp only
      split
      · exact backdrop_timeOut acc.1 s.id _ _
      · split
        · cases hsent : acc.1.sendHeartbeat s now clock with
          | mk r' taken =>
              rw [hsent] at hsend
              cases taken with
              | true => exact hsend
              | false => exact hsend
        · rfl
  | unauthenticated =>
      simp only
      split
      · exact backdrop_timeOut acc.1 s.id _ _
      · rfl
  | rejected => rfl

theorem backdrop_shutDownSession (r : Relay) (id : SessionId) :
    (Server.shutDownSession r id).backdrop = r.backdrop :=
  backdrop_close (r.modify id (·.push Server.farewell.encode)) id .serverShutdown

theorem sessions_sweep (h : r.registry.Numbered) (l : Liveness) (now : Instant) (clock : Int64) :
    (r.step (.sweep l now clock)).registry.sessions =
      r.registry.sessions.map fun s =>
        if s.isListed then Session.swept l now clock s s else s :=
  sessions_foldl Prod.fst (Session.id_swept l now clock)
    (fun (_, report) s h => sessions_sweepSession h l now clock report s)
    (fun acc s => nextId_of_backdrop (backdrop_sweepSession l now clock acc s)) (a := (r, {})) h

/-- What holds before any look, and is kept by a look at one more session, holds once all listed
sessions were looked at.  The looks at others leave a session as it is. -/
theorem sweep_induction (h : r.registry.Numbered) {l : Liveness} {now : Instant} {clock : Int64}
    {P : List Session → Relay × SweepReport → Prop} (hstart : P [] (r, {}))
    (hlook : ∀ looked acc s, P looked acc → acc.1.registry.contains s.id = true →
      acc.1.session? s.id = some s → P (looked ++ [s]) (sweepSession l now clock acc s)) :
    P r.registry.listed (r.sweep l now clock) := by
  have hall : ∀ (targets looked : List Session) (acc : Relay × SweepReport),
      acc.1.registry.Numbered → P looked acc → (targets.map (·.id)).Nodup →
      (∀ t ∈ targets, t.isListed = true ∧ acc.1.session? t.id = some t) →
      P (looked ++ targets) (targets.foldl (sweepSession l now clock) acc) := by
    intro targets
    induction targets with
    | nil =>
        intro looked acc _ hP _ _
        rw [List.append_nil]
        exact hP
    | cons t rest ih =>
        intro looked acc hnumbered hP hnodup hfound
        rw [List.map_cons, List.nodup_cons] at hnodup
        have hone := sessions_sweepSession hnumbered l now clock acc.2 t
        have hids : ∀ u : Session, (u.only t.id (Session.swept l now clock t)).id = u.id :=
          Session.id_only (Session.id_swept l now clock t)
        obtain ⟨hlisted, hsession⟩ := hfound t List.mem_cons_self
        have hcontains : acc.1.registry.contains t.id = true := by
          rw [contains_eq hnumbered, hsession, Option.any_some]
          exact hlisted
        have hnext := hlook looked acc t hP hcontains hsession
        rw [List.append_cons]
        have hkept := nextId_of_backdrop (backdrop_sweepSession l now clock acc t)
        refine ih _ _ (hnumbered.map hone hkept hids) hnext hnodup.2 fun u hu => ?_
        have hne : u.id ≠ t.id := fun hid => hnodup.1 (hid ▸ List.mem_map_of_mem hu)
        obtain ⟨hlisted', hsession'⟩ := hfound u (List.mem_cons_of_mem t hu)
        exact ⟨hlisted',
          (session?_of_only_of_ne hone (Session.id_swept l now clock t) hne).trans hsession'⟩
  refine hall r.registry.listed [] (r, {}) h hstart h.nodup_listed fun t ht => ?_
  obtain ⟨hmem, hlisted⟩ := List.mem_filter.mp ht
  exact ⟨hlisted, (Registry.session?_eq_some_iff h).mpr ⟨hmem, rfl⟩⟩

theorem sessions_shutDownSession (h : r.registry.Numbered) (id : SessionId) :
    (Server.shutDownSession r id).registry.sessions =
      r.registry.sessions.map (Session.only id Session.shutDown) := by
  have hpush : ∀ s : Session, (s.push Server.farewell.encode).id = s.id := fun _ => rfl
  have hmodify := h.map (sessions_modify r id (·.push Server.farewell.encode)) rfl
    (Session.id_only hpush)
  rw [Server.shutDownSession, sessions_close hmodify, sessions_modify, map_only_only hpush]
  rfl

theorem numbered_shutDownSession (h : r.registry.Numbered) (id : SessionId) :
    (Server.shutDownSession r id).registry.Numbered :=
  h.map (sessions_shutDownSession h id) (nextId_of_backdrop (backdrop_shutDownSession r id))
    (Session.id_only Session.id_shutDown)

theorem sessions_stop (h : r.registry.Numbered) :
    (r.step .stop).registry.sessions =
      r.registry.sessions.map fun s => if s.isListed then s.shutDown else s := by
  simp only [step, shutDown, List.foldl_map]
  exact sessions_foldl (fun r => r) (f := fun _ => Session.shutDown)
    (fun _ s => s.id_shutDown) (fun _ t h => sessions_shutDownSession h t.id)
    (fun r t => nextId_of_backdrop (backdrop_shutDownSession r t.id)) h

end Relay

/-! ## Any step -/

namespace Session

theorem after_message (r : Relay) (id : SessionId) (m : Message) (handledAt appliedAt : Instant)
    (s : Session) :
    s.after r (.message id m handledAt appliedAt) =
      s.only id (·.answered r m handledAt appliedAt) := by
  by_cases hid : s.id = id
  · simp only [after, updated, pushed, ending, if_pos hid, only_of_eq hid, answered]
  · simp only [after, updated, pushed, ending, if_neg hid, only_of_ne hid]
    rfl

theorem after_publish (r : Relay) (e : MarketEvent) (elapsed : Nat) (s : Session) :
    s.after r (.publish e elapsed) =
      if Relay.reaches e.symbolId s then s.push e.toMessage.encode else s := by
  simp only [after, updated, pushed, ending]
  split <;> rfl

theorem after_sweep (r : Relay) (l : Liveness) (now : Instant) (clock : Int64) (s : Session) :
    s.after r (.sweep l now clock) = if s.isListed then swept l now clock s s else s := by
  cases hlisted : s.isListed with
  | true => simp [after, updated, pushed, ending, hlisted, swept]
  | false =>
      simp only [after, updated, pushed, ending, hlisted, Bool.false_and, Bool.false_eq_true,
        if_false]
      exact leaveFor_of_not_isListed hlisted (s.silence l now)

theorem after_drain (r : Relay) (id : SessionId) (s : Session) :
    s.after r (.drain id) = s.only id drain := by
  by_cases hid : s.id = id
  · simp only [after, updated, pushed, ending, if_pos hid, only_of_eq hid]
    rfl
  · simp only [after, updated, pushed, ending, if_neg hid, only_of_ne hid]
    rfl

theorem after_close (r : Relay) (id : SessionId) (reason : CloseReason) (s : Session) :
    s.after r (.close id reason) = s.only id (·.leave reason) := by
  by_cases hid : s.id = id
  · simp only [after, updated, pushed, ending, if_pos hid, only_of_eq hid]
    rfl
  · simp only [after, updated, pushed, ending, if_neg hid, only_of_ne hid]
    rfl

theorem after_stop (r : Relay) (s : Session) :
    s.after r .stop = if s.isListed then s.shutDown else s := by
  cases hlisted : s.isListed with
  | true => simp only [after, updated, pushed, ending, hlisted, if_true]; rfl
  | false =>
      simp only [after, updated, pushed, ending, hlisted, Bool.false_eq_true, if_false]
      exact leaveFor_of_not_isListed hlisted (some .serverShutdown)

end Session

namespace Relay

variable {r : Relay} {id : SessionId}

theorem exists_eq_of_enlist {peer : SocketAddress} {now : Instant} {r' : Relay}
    (h : r.enlist peer now = .ok (id, r')) :
    r.registry.size < r.registry.maxClients ∧ id = r.registry.nextId ∧
      ∃ s : Session, s.isListed = true ∧ s.queue = .empty r.config.outboundQueueCapacity ∧
        s.id = id ∧ r' = { r with registry := ({ r.registry with
          sessions := r.registry.sessions ++ [s]
          nextId := r.registry.nextId + 1 } : Registry).tell (.connected s.id peer) } := by
  simp only [enlist, Registry.enlist] at h
  by_cases hfull : r.registry.maxClients ≤ r.registry.size
  · rw [if_pos hfull] at h
    cases h
  · rw [if_neg hfull] at h
    obtain ⟨rfl, rfl⟩ := Prod.mk.inj (Except.ok.inj h)
    exact ⟨Nat.lt_of_not_le hfull, rfl, _, rfl, rfl, rfl, rfl⟩

/-- The sessions that a step admits: at most one. -/
def admitted (r : Relay) : Step → List Session
  | .enlist peer now =>
    if r.registry.maxClients ≤ r.registry.size then []
    else
      [.fresh r.registry.nextId peer now (!r.config.requireAuthentication)
        r.config.outboundQueueCapacity]
  | _ => []

/-- A step is `Session.after` on every session, and possibly one more session. -/
theorem sessions_step (h : r.registry.Numbered) (st : Step) :
    (r.step st).registry.sessions =
      r.registry.sessions.map (Session.after r st) ++ r.admitted st := by
  cases st with
  | enlist peer now =>
      have hsame : r.registry.sessions.map (Session.after r (.enlist peer now)) =
          r.registry.sessions := List.map_id _
      rw [hsame]
      simp only [step, enlist, Registry.enlist, admitted]
      by_cases hfull : r.registry.maxClients ≤ r.registry.size
      · simp only [if_pos hfull, List.append_nil]
      · simp only [if_neg hfull]
        rfl
  | message id m handledAt appliedAt =>
      rw [sessions_message h]
      simp only [admitted, List.append_nil]
      exact List.map_congr_left fun s _ =>
        (Session.after_message r id m handledAt appliedAt s).symm
  | publish e elapsed =>
      simp only [admitted, List.append_nil]
      exact List.map_congr_left fun s _ => (Session.after_publish r e elapsed s).symm
  | sweep l now clock =>
      rw [sessions_sweep h]
      simp only [admitted, List.append_nil]
      exact List.map_congr_left fun s _ => (Session.after_sweep r l now clock s).symm
  | drain id =>
      simp only [admitted, List.append_nil]
      exact List.map_congr_left fun s _ => (Session.after_drain r id s).symm
  | close id reason =>
      rw [step, sessions_close h]
      simp only [admitted, List.append_nil]
      exact List.map_congr_left fun s _ => (Session.after_close r id reason s).symm
  | stop =>
      rw [sessions_stop h]
      simp only [admitted, List.append_nil]
      exact List.map_congr_left fun s _ => (Session.after_stop r s).symm

/-- The snapshots after a step. -/
def snapshotsAfter (r : Relay) : Step → SnapshotCache
  | .publish e _ => r.snapshots.apply e
  | _ => r.snapshots

/-- A step leaves the settings alone, and the snapshots unless it publishes an event; a number is
used up for each session that it admits. -/
theorem backdrop_step (r : Relay) (st : Step) :
    (r.step st).backdrop =
      (r.config, r.snapshotsAfter st, r.registry.nextId + (r.admitted st).length) := by
  cases st with
  | enlist peer now =>
      simp only [step, enlist, Registry.enlist, admitted]
      by_cases hfull : r.registry.maxClients ≤ r.registry.size
      · simp only [if_pos hfull]
        rfl
      · simp only [if_neg hfull]
        rfl
  | message id m handledAt appliedAt =>
      exact (backdrop_apply _ id appliedAt _).trans (backdrop_handle r id m handledAt)
  | publish e elapsed => rfl
  | sweep l now clock =>
      exact foldl_keeps (fun acc : Relay × SweepReport => acc.1.backdrop)
        (backdrop_sweepSession l now clock) (r, {}) r.registry.listed
  | drain id => rfl
  | close id reason => exact backdrop_close r id reason
  | stop => exact foldl_keeps backdrop backdrop_shutDownSession r (r.registry.listed.map (·.id))

@[simp] theorem config_step (r : Relay) (st : Step) : (r.step st).config = r.config :=
  congrArg Prod.fst (backdrop_step r st)

theorem snapshots_step (r : Relay) (st : Step) : (r.step st).snapshots = r.snapshotsAfter st :=
  congrArg (·.2.1) (backdrop_step r st)

theorem nextId_step (r : Relay) (st : Step) :
    (r.step st).registry.nextId = r.registry.nextId + (r.admitted st).length :=
  congrArg (·.2.2) (backdrop_step r st)

theorem numbered_step (h : r.registry.Numbered) (st : Step) : (r.step st).registry.Numbered := by
  have hids : (r.registry.sessions.map (Session.after r st)).map (·.id) =
      r.registry.sessions.map (·.id) := by
    rw [List.map_map]
    exact List.map_congr_left fun s _ => s.id_after r st
  constructor
  · rw [sessions_step h st, List.map_append, hids, h.ids, List.length_append, List.length_map]
    cases st with
    | enlist peer now =>
        simp only [admitted]
        split
        · simp
        · simp [List.range'_concat, Session.fresh, h.nextId, Nat.add_comm]
    | _ => simp [admitted]
  · rw [nextId_step, sessions_step h st, List.length_append, List.length_map, h.nextId,
      Nat.add_right_comm]

theorem session?_step_of_some (h : r.registry.Numbered) {s : Session}
    (hs : r.session? id = some s) (st : Step) :
    (r.step st).session? id = some (s.after r st) := by
  obtain ⟨hmem, rfl⟩ := (Registry.session?_eq_some_iff h).mp hs
  refine (Registry.session?_eq_some_iff (numbered_step h st)).mpr ⟨?_, s.id_after r st⟩
  rw [sessions_step h]
  exact List.mem_append_left _ (List.mem_map_of_mem hmem)

theorem session?_step_of_none (h : r.registry.Numbered) (hs : r.session? id = none)
    {st : Step} {s : Session} (hs' : (r.step st).session? id = some s) :
    ∃ peer now, st = .enlist peer now ∧
      s = .fresh id peer now (!r.config.requireAuthentication)
        r.config.outboundQueueCapacity := by
  obtain ⟨hmem, hid⟩ := (Registry.session?_eq_some_iff (numbered_step h st)).mp hs'
  rw [sessions_step h, List.mem_append] at hmem
  rcases hmem with hold | hnew
  · obtain ⟨t, ht, rfl⟩ := List.mem_map.mp hold
    rw [Session.id_after] at hid
    exact absurd hid (Registry.session?_eq_none_iff.mp hs t ht)
  · cases st with
    | enlist peer now =>
        simp only [admitted] at hnew
        split at hnew
        · cases hnew
        · obtain rfl := List.mem_singleton.mp hnew
          refine ⟨peer, now, rfl, ?_⟩
          rw [← hid]
          rfl
    | _ => cases hnew

@[simp] theorem config_run (r : Relay) (steps : List Step) : (r.run steps).config = r.config := by
  induction steps generalizing r with
  | nil => rfl
  | cons st steps ih => rw [run_cons, ih, config_step]

theorem numbered_run (h : r.registry.Numbered) (steps : List Step) :
    (r.run steps).registry.Numbered :=
  run_induction (P := fun r => r.registry.Numbered) (fun _ st h => numbered_step h st) h steps

end Relay
end MarketRelay
