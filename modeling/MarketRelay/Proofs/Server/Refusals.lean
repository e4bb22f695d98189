import MarketRelay.Proofs.Relay.Departure
import MarketRelay.Proofs.Server.Books

/-!
# Refused logons

A logon that is refused is dealt with in three places: the session is marked, its client is
answered, and the session is closed, in this order.  The answer has to be queued while the queue
still takes frames, and the end has to come, since a look for signs of life passes a rejected
session by.

* `RejectsAndCloses` is what all three do together to a session that is listed: one frame more
  behind all that waits, one end under the reason of a failed logon, and nothing else.
* `answerRefused` is the state between the second and the third of them, after which the session is
  still on the list, so that it is the close that ends it (`rejectsAndCloses_step`).
* `Reachable.auth_ne_rejected`: between whole steps nobody on the list has been refused.  It is an
  invariant because a step that refuses a logon ends the session as well.

`Occurs` takes in the states in which others who work at the server are in the middle of something.
What comes of a refusal holds in those, too; that nobody who was refused is on the list holds
between whole steps only, and `refused_logon_rejects_and_closes` says both.
-/
namespace MarketRelay

/-! ## Sessions on the list -/

namespace Session

theorem auth_authenticate_ne_rejected {s : Session} (h : s.auth ≠ .rejected) (username : String)
    (now : Instant) : (s.authenticate username now).1.auth ≠ .rejected := by
  cases hauth : s.auth with
  | unauthenticated => simp [authenticate, hauth]
  | authenticated => simp [auth_authenticate_of_authenticated hauth]
  | rejected => exact absurd hauth h

theorem auth_after_ne_rejected {r : Relay} {st : Step} {s : Session} (h : s.auth ≠ .rejected)
    (hlisted : (s.after r st).isListed = true) : (s.after r st).auth ≠ .rejected := by
  obtain ⟨hbefore, hending⟩ := isListed_after hlisted
  rw [(s.sameClient_after r st).auth]
  rcases s.sameLogon_updated r st with hsame | ⟨request, handledAt, appliedAt, rfl, hnoted⟩
  · rw [hsame.auth]
    exact h
  · rw [hnoted]
    cases haccepts : (AuthPolicy.ofConfig r.config).accepts request.password with
    | false => simp [ending, endingBy, haccepts] at hending
    | true =>
        simp only [noted, haccepts, hbefore, if_true]
        exact auth_authenticate_ne_rejected h request.username appliedAt

theorem auth_fresh_ne_rejected (id : SessionId) (peer : SocketAddress) (now : Instant)
    (authenticated : Bool) (capacity : Nat) :
    (fresh id peer now authenticated capacity).auth ≠ .rejected := by
  cases authenticated <;> exact nofun

end Session

namespace Relay

variable {c : Config} {r : Relay} {s : Session}

/-- Between whole steps nobody on the list has been refused. -/
theorem Reachable.auth_ne_rejected (h : Reachable c r) :
    ∀ s ∈ r.registry.sessions, s.isListed = true → s.auth ≠ .rejected := by
  induction h with
  | start => exact fun _ hs => absurd hs List.not_mem_nil
  | @step r h st ih =>
      intro s hs hlisted
      rw [sessions_step h.orderly.numbered, List.mem_append] at hs
      rcases hs with hold | hnew
      · obtain ⟨t, ht, rfl⟩ := List.mem_map.mp hold
        exact Session.auth_after_ne_rejected (ih t ht (Session.isListed_after hlisted).1) hlisted
      · cases st with
        | enlist peer now =>
            simp only [admitted] at hnew
            split at hnew
            · cases hnew
            · obtain rfl := List.mem_singleton.mp hnew
              exact Session.auth_fresh_ne_rejected _ _ _ _ _
        | _ => cases hnew
  | count _ k ih => exact ih

/-! ## The refusal of a logon -/

/-- The states that a relay can be in: between whole steps, or while those who work at its server
are in the middle of something. -/
inductive Occurs (c : Config) : Relay → Prop
  | reachable {r : Relay} (h : Reachable c r) : Occurs c r
  | atWork (steps : List ServerStep) : Occurs c ((Service.ofConfig c).run steps).relay

theorem Occurs.config_eq (h : Occurs c r) : r.config = c := by
  cases h with
  | reachable h => exact h.config_eq
  | atWork steps => exact ((Service.sound_ofConfig c).run steps).config

theorem Occurs.chronicled (h : Occurs c r) :
    r.registry.Chronicled c.requireAuthentication [] := by
  cases h with
  | reachable h => exact h.chronicled
  | atWork steps => exact ((Service.sound_ofConfig c).run steps).chronicled

def refusedLogon (r : Relay) : Message := r.logonResponse .rejected "invalid credentials"

/-- `r'` is `r` after a session was refused a logon. -/
structure RejectsAndCloses (r : Relay) (s : Session) (r' : Relay) : Prop where
  /-- The session is marked, is sent the refusal behind all else, and leaves. -/
  session : ∃ t, r'.session? s.id = some t ∧ t.auth = .rejected ∧
    s.reject.EndsWith r.refusedLogon .authenticationFailed t
  unlisted : r'.registry.contains s.id = false
  others : ∀ id, id ≠ s.id → r'.session? id = r.session? id
  closedTotal : r'.registry.closedTotal = r.registry.closedTotal + 1
  events : r'.registry.events =
    r.registry.events ++ [.disconnected s.id .authenticationFailed]
  /-- The refusal, the frame that is queued, and the one that makes room for it are counted, and
  nothing else is. -/
  metrics : Metrics.Grows
    (.logonsRejected :: .messagesEnqueued :: if s.queue.isFull then [.messagesDropped] else [])
    r.metrics r'.metrics

/-- The relay after a session was marked as refused and its client was answered: what is left to do
is to close it. -/
def answerRefused (r : Relay) (id : SessionId) : Relay :=
  (r.modify id Session.reject).enqueue id r.refusedLogon

variable {required : Bool} {past : List SessionEvent} {id : SessionId} {request : LogonRequest}

theorem handle_of_refused (hs : r.session? s.id = some s)
    (hrefused : (AuthPolicy.ofConfig r.config).accepts request.password = false) (now : Instant) :
    r.handle s.id (.logonRequest request) now =
      (r.modify s.id Session.reject,
        [.send s.id r.refusedLogon, .close s.id .authenticationFailed]) := by
  simp [handle, hs, handleMessage, handleLogon, hrefused, refusedLogon]

theorem step_of_refused (hs : r.session? s.id = some s)
    (hrefused : (AuthPolicy.ofConfig r.config).accepts request.password = false)
    (handledAt appliedAt : Instant) :
    r.step (.message s.id (.logonRequest request) handledAt appliedAt) =
      ((r.answerRefused s.id).close s.id .authenticationFailed).1 := by
  rw [step, handle_of_refused hs hrefused]
  simp only [apply_eq, List.foldl_cons, List.foldl_nil, applyOne, send_own]
  rfl

theorem session?_answerRefused (hs : r.session? id = some s) :
    (r.answerRefused id).session? id = some (s.reject.push r.refusedLogon.encode) :=
  session?_of_only (sessions_enqueue _ id r.refusedLogon) (fun _ => rfl)
    (session?_of_only (sessions_modify r id Session.reject) (fun _ => rfl) hs)

theorem session?_answerRefused_of_ne {id' : SessionId} (hne : id' ≠ id) :
    (r.answerRefused id).session? id' = r.session? id' :=
  (session?_of_only_of_ne (sessions_enqueue _ id r.refusedLogon) (fun _ => rfl) hne).trans
    (session?_of_only_of_ne (sessions_modify r id Session.reject) (fun _ => rfl) hne)

theorem chronicled_answerRefused (h : r.registry.Chronicled required past) (id : SessionId) :
    (r.answerRefused id).registry.Chronicled required past :=
  chronicled_enqueue (chronicled_modify (f := Session.reject) h id (fun _ => rfl)
    fun _ ht => ht.told_reject) id r.refusedLogon

theorem quiet_answerRefused (r : Relay) (id : SessionId) : Quiet r (r.answerRefused id) :=
  (quiet_modify (f := Session.reject) r id fun _ => rfl).trans (quiet_enqueue _ id r.refusedLogon)

theorem messageTally_of_refused (hlisted : s.isListed = true) (hopen : s.queue.isClosed = false)
    (hrefused : (AuthPolicy.ofConfig r.config).accepts request.password = false) :
    (s.messageTally r (.logonRequest request)).Perm
      (.logonsRejected :: .messagesEnqueued ::
        if s.queue.isFull then [.messagesDropped] else []) := by
  have hqueue : s.queue.tally =
      .messagesEnqueued :: if s.queue.isFull then [.messagesDropped] else [] := by
    cases hfull : s.queue.isFull <;> simp [OutboundQueue.tally, OutboundQueue.outcome, hopen, hfull]
  have htally : s.messageTally r (.logonRequest request) = s.queue.tally ++ [.logonsRejected] := by
    simp [Session.messageTally, Session.acknowledged, Session.reply, Session.endingBy,
      Session.closeTally, blameCounter?, hrefused, hlisted]
  rw [htally, hqueue]
  exact List.perm_append_comm

/-- A listed session that is refused a logon is turned away: it is still on the list when its client
has been answered, so it is the close that ends it. -/
theorem rejectsAndCloses_step (h : r.registry.Chronicled required past)
    (hs : r.session? s.id = some s)
    (hlisted : s.isListed = true)
    (hrefused : (AuthPolicy.ofConfig r.config).accepts request.password = false)
    (handledAt appliedAt : Instant) :
    r.RejectsAndCloses s (r.step (.message s.id (.logonRequest request) handledAt appliedAt)) := by
  have hsettled := h.settled_of_session? hs
  have hopen : s.queue.isClosed = false := hsettled.queue_isOpen hlisted
  have hends := hsettled.told_reject.settled.endsWith hlisted r.refusedLogon .authenticationFailed
  -- answering has not taken the session off the list, so its close is no empty one
  have hanswered := session?_answerRefused hs
  have hchronicled := chronicled_answerRefused h s.id
  have hcontains : (r.answerRefused s.id).registry.contains s.id = true := by
    rw [contains_eq hchronicled.numbered, hanswered, Option.any_some]
    exact hlisted
  have hgrows := grows_message h.numbered s.id (.logonRequest request) handledAt appliedAt
  rw [hs] at hgrows
  rw [step_of_refused hs hrefused] at hgrows ⊢
  have hsessions := sessions_close hchronicled.numbered s.id .authenticationFailed
  have hids : ∀ t : Session, (t.leave .authenticationFailed).id = t.id := fun t =>
    (t.sameClient_leave .authenticationFailed).id
  have hsession := session?_of_only hsessions hids hanswered
  constructor
  case session => exact ⟨_, hsession, hends.client.auth, hends⟩
  case unlisted =>
    have hclosed := hchronicled.numbered.map hsessions
      (nextId_of_backdrop (backdrop_close _ s.id .authenticationFailed)) (Session.id_only hids)
    rw [contains_eq hclosed, hsession, Option.any_some]
    exact hends.isListed
  case others =>
    intro id hne
    rw [session?_of_only_of_ne hsessions hids hne, session?_answerRefused_of_ne hne]
  case closedTotal =>
    rw [registry_close, hchronicled.closedTotal_close, hcontains,
      (quiet_answerRefused r s.id).closedTotal]
    rfl
  case events =>
    rw [registry_close, hchronicled.events_close, if_pos hcontains]
    exact congrArg (· ++ _) (events_enqueue _ s.id r.refusedLogon)
  case metrics => exact hgrows.perm (messageTally_of_refused hlisted hopen hrefused)

/-- **Who is refused a logon is turned away.**  Wherever a session is listed, its reader is told to
stop once it has handled a logon that is refused, and what it leaves to do answers the client,
whatever waits in its queue, and ends the session, once.  Between whole steps no session is left
that was refused and is still on the list. -/
theorem refused_logon_rejects_and_closes (c : Config) :
    (∀ r, Occurs c r → ∀ s ∈ r.registry.listed, ∀ request : LogonRequest,
      (AuthPolicy.ofConfig c).accepts request.password = false → ∀ handledAt appliedAt,
        let handled := r.handle s.id (.logonRequest request) handledAt
        let done := handled.1.apply s.id appliedAt handled.2
        done.2 = true ∧ r.RejectsAndCloses s done.1) ∧
    ∀ r, Reachable c r → ∀ s ∈ r.registry.listed, s.auth ≠ .rejected := by
  constructor
  · intro r hoccurs s hs request hrefused handledAt appliedAt
    have hchronicled := hoccurs.chronicled
    rw [← hoccurs.config_eq] at hrefused
    obtain ⟨hmem, hlisted⟩ := List.mem_filter.mp hs
    have hsession := (Registry.session?_eq_some_iff hchronicled.numbered).mpr ⟨hmem, rfl⟩
    refine ⟨?_, rejectsAndCloses_step hchronicled hsession hlisted hrefused handledAt appliedAt⟩
    rw [handle_of_refused hsession hrefused, apply_eq]
    simp [Effect.closes]
  · intro r h s hs
    obtain ⟨hmem, hlisted⟩ := List.mem_filter.mp hs
    exact h.auth_ne_rejected s hmem hlisted

/-- A client that has logged on, whose answer waits and fills its queue, logs on again with another
password: the refusal takes the place of that answer. -/
theorem refused_logon_rejects_and_closes_again :
    let c : Config :=
      { requireAuthentication := true, password := "tape", outboundQueueCapacity := 1 }
    let steps : List ServerStep :=
      [.start some 0, .accept (.v4 127 0 0 1 50000) 0,
        .decode 1 (Message.logonRequest ⟨8, "desk", "tape", 30, "desk"⟩).encode 1, .apply 0 2,
        .apply 0 2]
    let r := ((Service.ofConfig c).run steps).relay
    let request : LogonRequest := ⟨8, "desk", "paper", 30, "desk"⟩
    let handled := r.handle 1 (.logonRequest request) 3
    ∃ s ∈ r.registry.listed, s.isAuthenticated = true ∧ s.queue.isFull = true ∧
      s.queue.frames = [(r.logonResponse .success "logon successful").encode] ∧
      (AuthPolicy.ofConfig c).accepts request.password = false ∧
      r.RejectsAndCloses s (handled.1.apply 1 4 handled.2).1 ∧
      ((handled.1.apply 1 4 handled.2).1.queue 1).frames = [r.refusedLogon.encode] := by
  intro c steps r request handled
  have hfound : (r.registry.listed).any (fun s => s.id == 1 && (s.isAuthenticated &&
      (s.queue.isFull && s.queue.frames ==
        [(r.logonResponse .success "logon successful").encode]))) = true := by decide +kernel
  simp only [List.any_eq_true, Bool.and_eq_true, beq_iff_eq] at hfound
  obtain ⟨s, hs, hid, hauth, hfull, hframes⟩ := hfound
  have hrefused : (AuthPolicy.ofConfig c).accepts request.password = false := by decide
  obtain ⟨-, haway⟩ :=
    (refused_logon_rejects_and_closes c).1 r (.atWork steps) s hs request hrefused 3 4
  rw [hid] at haway
  exact ⟨s, hs, hauth, hfull, hframes, hrefused, haway, by decide +kernel⟩

end Relay
end MarketRelay
