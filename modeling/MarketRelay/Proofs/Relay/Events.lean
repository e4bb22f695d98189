import MarketRelay.Proofs.Relay.Invariant

/-!
# What observers are told

Observers are told of every session that it was admitted, under which name its client logged on, if
it had to and did, and why it ended.  All of this can be read off the session itself
(`Session.story`), and at any time the events of a session are just its story
(`Registry.Chronicled`): nothing is told twice, out of order or of nobody.

The invariant is kept because every change of a session adds to its story what observers are told at
the same moment, which is the relation `Session.Told`.  It is reflexive and transitive, and each
operation on a session is one step of it:

* most changes are told nobody, since they concern neither the way to the client nor its logon
  (`Settled.told_same`);
* the first logon of a listed session adds the name (`Settled.told_authenticate`), the end of one
  the reason (`Settled.told_leave`), and both find the session without one, which is what
  `Session.Settled` is for;
* an admission begins a new story, behind all others (`Chronicled.concat`).

`Chronicled.of_map` takes this from one session to a registry, the lemmas `chronicled_…` to the
operations of a relay, and `chronicled_step` to any step.  `events_of_session` is then read off the
story of the session after a run; only what a logon was like when it was granted needs another
induction on the run, since the name alone does not tell (`exists_authenticated_of_named`).
-/
namespace MarketRelay

/-! ## Stories -/

namespace SessionEvent

def session : SessionEvent → SessionId
  | .connected id _ => id
  | .authenticated id _ => id
  | .disconnected id _ => id

def admitted? : SessionEvent → Option SessionId
  | .connected id _ => some id
  | _ => none

end SessionEvent

namespace Session

/-- All that observers are told of a session; of its logon only where one is required. -/
def story (required : Bool) (s : Session) : List SessionEvent :=
  .connected s.id s.peer ::
    (((if required then s.username else none).map (.authenticated s.id)).toList ++
      (s.closeReason.map (.disconnected s.id)).toList)

/-- What holds of a session wherever logons are required or not. -/
structure Settled (required : Bool) (s : Session) : Prop where
  isClosed : s.isClosed = !s.isListed
  queue : s.queue.isClosed = s.isClosed
  token : s.isCancelled = s.isClosed
  stranger : s.auth = .unauthenticated → required = true ∧ s.username = none
  named : required = true → s.auth = .authenticated → s.username.isSome = true

/-- A session becomes another one and observers are told so. -/
structure Told (required : Bool) (told : List SessionEvent) (s t : Session) : Prop where
  id : t.id = s.id
  story : t.story required = s.story required ++ told
  settled : t.Settled required

variable {required : Bool} {s t u : Session}

theorem settled_fresh (id : SessionId) (peer : SocketAddress) (now : Instant) (capacity : Nat) :
    (fresh id peer now (!required) capacity).Settled required where
  isClosed := rfl
  queue := rfl
  token := rfl
  stranger := by cases required <;> simp [fresh]
  named := by cases required <;> simp [fresh]

theorem Settled.closeReason_of_listed (h : s.Settled required) (hlisted : s.isListed = true) :
    s.closeReason = none := by
  simpa [hlisted, Session.isClosed] using h.isClosed

theorem Settled.queue_isOpen (h : s.Settled required) (hlisted : s.isListed = true) :
    s.queue.isClosed = false := by
  rw [h.queue, h.isClosed, hlisted]
  rfl

theorem Settled.leave_of_listed (h : s.Settled required) (hlisted : s.isListed = true)
    (reason : CloseReason) :
    s.leave reason =
      { s with
        closeReason := some reason
        queue := s.queue.close
        isCancelled := true
        isListed := false } := by
  rw [leave, if_pos hlisted, markClosed, h.isClosed, hlisted]
  rfl

theorem Told.refl (h : s.Settled required) : Told required [] s s :=
  ⟨rfl, (List.append_nil _).symm, h⟩

theorem Told.trans {a b : List SessionEvent} (h : Told required a s t)
    (h' : Told required b t u) : Told required (a ++ b) s u where
  id := h'.id.trans h.id
  story := by rw [h'.story, h.story, List.append_assoc]
  settled := h'.settled

/-- Observers are not told of a change that concerns neither the way to the client nor its logon. -/
theorem Settled.told_same (h : s.Settled required) (hway : s.SameWay t) (hlogon : s.SameLogon t) :
    Told required [] s t where
  id := hway.id
  story := by
    simp only [Session.story, hway.id, hway.peer, hway.closeReason, hlogon.username,
      List.append_nil]
  settled := by
    refine ⟨?_, ?_, ?_, ?_, ?_⟩
    · rw [Session.isClosed, hway.closeReason, hway.isListed]
      exact h.isClosed
    · rw [Session.isClosed, hway.queue, hway.closeReason]
      exact h.queue
    · rw [Session.isClosed, hway.isCancelled, hway.closeReason]
      exact h.token
    · rw [hlogon.auth, hlogon.username]
      exact h.stranger
    · rw [hlogon.auth, hlogon.username]
      exact h.named

theorem Settled.told_reject (h : s.Settled required) : Told required [] s s.reject :=
  ⟨rfl, (List.append_nil _).symm, h.isClosed, h.queue, h.token, nofun, nofun⟩

theorem Settled.told_push (h : s.Settled required) (frame : List UInt8) :
    Told required [] s (s.push frame) where
  id := rfl
  story := (List.append_nil _).symm
  settled := ⟨h.isClosed, (OutboundQueue.isClosed_push _ frame).trans h.queue, h.token,
    h.stranger, h.named⟩

theorem Settled.told_drain (h : s.Settled required) : Told required [] s s.drain :=
  ⟨rfl, (List.append_nil _).symm, h.isClosed, h.queue, h.token, h.stranger, h.named⟩

theorem Settled.told_authenticate (h : s.Settled required) (hlisted : s.isListed = true)
    (username : String) (now : Instant) :
    Told required
      (if (s.authenticate username now).2 then [.authenticated s.id username] else []) s
      (s.authenticate username now).1 := by
  have hnone := h.closeReason_of_listed hlisted
  unfold Session.authenticate
  cases hauth : s.auth with
  | unauthenticated =>
      obtain ⟨hrequired, hname⟩ := h.stranger hauth
      exact ⟨rfl, by simp [Session.story, hrequired, hname, hnone], h.isClosed, h.queue, h.token,
        nofun, fun _ _ => rfl⟩
  | authenticated =>
      simp only [Bool.false_eq_true, if_false]
      split
      · cases required with
        | false =>
            exact ⟨rfl, by simp [Session.story], h.isClosed, h.queue, h.token, nofun, nofun⟩
        | true =>
            -- a session that had to log on to be authenticated has a name
            rename_i hunnamed
            have hname := h.named rfl hauth
            simp [Option.isSome_iff_ne_none.mp hname] at hunnamed
      · exact .refl h
  | rejected => exact .refl h

theorem Settled.told_leave (h : s.Settled required) (reason : CloseReason) :
    Told required (if s.isListed then [.disconnected s.id reason] else []) s (s.leave reason) := by
  cases hlisted : s.isListed with
  | false =>
      rw [leave_of_not_isListed hlisted]
      exact .refl h
  | true =>
      have hnone := h.closeReason_of_listed hlisted
      rw [h.leave_of_listed hlisted reason]
      exact ⟨rfl, by simp [Session.story, hnone], rfl, rfl, rfl, h.stranger, h.named⟩

end Session

/-! ## Registries -/

namespace Registry

/-- The events of each session are its story, and sessions were admitted in order.  Some events were
told before all others. -/
structure Chronicled (required : Bool) (past : List SessionEvent) (r : Registry) : Prop where
  numbered : r.Numbered
  past : past <+: r.events
  settled : ∀ s ∈ r.sessions, s.Settled required
  story : ∀ id, r.events.filter (·.session == id) = (r.session? id).elim [] (·.story required)
  admitted : r.events.filterMap (·.admitted?) = r.sessions.map (·.id)

variable {required : Bool} {past told : List SessionEvent} {r r' : Registry} {id : SessionId}

theorem chronicled_empty (maxClients : Nat) : (empty maxClients).Chronicled required [] where
  numbered := numbered_empty maxClients
  past := List.nil_prefix
  settled _ hs := absurd hs List.not_mem_nil
  story := fun _ => rfl
  admitted := rfl

theorem Chronicled.settled_of_session? (h : r.Chronicled required past) {s : Session}
    (hs : r.session? id = some s) : s.Settled required :=
  h.settled s ((session?_eq_some_iff h.numbered).mp hs).1

theorem Chronicled.story_of_session? (h : r.Chronicled required past) {s : Session}
    (hs : r.session? id = some s) :
    r.events.filter (·.session == id) = s.story required := by
  rw [h.story, hs, Option.elim_some]

/-- After a change of all sessions observers were told of each of them what happened to it. -/
theorem Chronicled.of_map {f : Session → Session} (h : r.Chronicled required past)
    (hsessions : r'.sessions = r.sessions.map f) (hnext : r'.nextId = r.nextId)
    (hevents : r'.events = r.events ++ told)
    (hid : ∀ s, (f s).id = s.id) (hadmitted : ∀ e ∈ told, e.admitted? = none)
    (hnobody : ∀ id, r.session? id = none → told.filter (·.session == id) = [])
    (hf : ∀ s ∈ r.sessions, s.Told required (told.filter (·.session == s.id)) (f s)) :
    r'.Chronicled required past where
  numbered := h.numbered.map hsessions hnext hid
  past := h.past.trans (hevents ▸ List.prefix_append _ _)
  settled := by
    intro t ht
    rw [hsessions] at ht
    obtain ⟨s, hs, rfl⟩ := List.mem_map.mp ht
    exact (hf s hs).settled
  story := by
    intro id
    rw [hevents, List.filter_append, h.story, session?_of_map hsessions hid]
    cases hs : r.session? id with
    | none => exact hnobody id hs
    | some s =>
        obtain ⟨hmem, rfl⟩ := (session?_eq_some_iff h.numbered).mp hs
        exact (hf s hmem).story.symm
  admitted := by
    have hsame : (r.sessions.map f).map (·.id) = r.sessions.map (·.id) := by
      rw [List.map_map]
      exact List.map_congr_left fun s _ => hid s
    rw [hevents, List.filterMap_append, h.admitted, List.filterMap_eq_nil_iff.mpr hadmitted,
      List.append_nil, hsessions, hsame]

/-- Observers need not be told of a change that no story tells. -/
theorem Chronicled.of_map_untold {f : Session → Session} (h : r.Chronicled required past)
    (hsessions : r'.sessions = r.sessions.map f) (hnext : r'.nextId = r.nextId)
    (hevents : r'.events = r.events) (hid : ∀ s, (f s).id = s.id)
    (hf : ∀ s : Session, s.Settled required → s.Told required [] (f s)) :
    r'.Chronicled required past :=
  h.of_map hsessions hnext (hevents.trans (List.append_nil _).symm) hid nofun (fun _ _ => rfl)
    fun s hs => hf s (h.settled s hs)

theorem Chronicled.of_only {f : Session → Session} (h : r.Chronicled required past)
    (hsessions : r'.sessions = r.sessions.map (Session.only id f)) (hnext : r'.nextId = r.nextId)
    (hevents : r'.events = r.events ++ told) (hid : ∀ s, (f s).id = s.id)
    (hmeant : ∀ e ∈ told, e.admitted? = none ∧ e.session = id)
    (hnone : r.session? id = none → told = [])
    (hf : ∀ s, r.session? id = some s → s.Told required told (f s)) :
    r'.Chronicled required past := by
  have hfilter : ∀ id', told.filter (·.session == id') = if id' = id then told else [] := by
    intro id'
    split
    · rename_i heq
      exact List.filter_eq_self.mpr fun e he => by simp [(hmeant e he).2, heq]
    · rename_i hne
      exact List.filter_eq_nil_iff.mpr fun e he => by simp [(hmeant e he).2, Ne.symm hne]
  refine h.of_map hsessions hnext hevents (Session.id_only hid) (fun e he => (hmeant e he).1) ?_ ?_
  · intro id' hid'
    rw [hfilter]
    split
    · rename_i heq
      exact hnone (heq ▸ hid')
    · rfl
  · intro s hs
    rw [hfilter]
    by_cases heq : s.id = id
    · rw [if_pos heq, Session.only_of_eq heq]
      exact hf s ((session?_eq_some_iff h.numbered).mpr ⟨hs, heq⟩)
    · rw [if_neg heq, Session.only_of_ne heq]
      exact .refl (h.settled s hs)

theorem Chronicled.of_only_untold {f : Session → Session} (h : r.Chronicled required past)
    (hsessions : r'.sessions = r.sessions.map (Session.only id f)) (hnext : r'.nextId = r.nextId)
    (hevents : r'.events = r.events) (hid : ∀ s, (f s).id = s.id)
    (hf : ∀ s : Session, s.Settled required → s.Told required [] (f s)) :
    r'.Chronicled required past :=
  h.of_only hsessions hnext (hevents.trans (List.append_nil _).symm) hid nofun (fun _ => rfl)
    fun s hs => hf s (h.settled_of_session? hs)

theorem events_authenticate (r : Registry) (id : SessionId) (username : String) (now : Instant) :
    (r.authenticate id username now).1.events =
      r.events ++
        if (r.authenticate id username now).2 then [.authenticated id username] else [] := by
  unfold authenticate
  cases r.get? id with
  | none => exact (List.append_nil _).symm
  | some s =>
      simp only
      split
      · rfl
      · exact (List.append_nil _).symm

theorem Chronicled.authenticate (h : r.Chronicled required past) (id : SessionId)
    (username : String) (now : Instant) :
    (r.authenticate id username now).1.Chronicled required past := by
  have hgranted : (r.authenticate id username now).2 =
      (r.session? id).any fun s => s.isListed && (s.authenticate username now).2 := by
    rw [snd_authenticate, get?_eq h.numbered]
    cases r.session? id with
    | none => rfl
    | some s =>
        cases hlisted : s.isListed <;>
          simp [Option.filter_some, hlisted, Session.snd_authenticate]
  have hsessions := Relay.sessions_authenticate h.numbered id username now
  have hnext := Relay.nextId_authenticate r id username now
  refine h.of_only hsessions hnext (r.events_authenticate id username now)
    (fun s => (s.sameWay_authenticate_of_listed username now).id) ?_ ?_ ?_
  · intro e he
    split at he
    · obtain rfl := List.mem_singleton.mp he
      exact ⟨rfl, rfl⟩
    · cases he
  · intro hnone
    rw [hgranted, hnone]
    rfl
  · intro s hs
    have hsettled := h.settled_of_session? hs
    obtain rfl := id_of_session? hs
    rw [hgranted, hs, Option.any_some]
    cases hlisted : s.isListed with
    | true => exact hsettled.told_authenticate hlisted username now
    | false => exact .refl hsettled

theorem Chronicled.events_close (h : r.Chronicled required past) (id : SessionId)
    (reason : CloseReason) :
    (r.close id reason).1.events =
      r.events ++ if r.contains id then [.disconnected id reason] else [] := by
  unfold close contains
  cases hs : r.get? id with
  | none => exact (List.append_nil _).symm
  | some s =>
      rw [get?_eq h.numbered, Option.filter_eq_some_iff] at hs
      have hopen : s.isClosed = false := by
        rw [(h.settled_of_session? hs.1).isClosed, hs.2]
        rfl
      simp only [Session.markClosed, hopen]
      rfl

theorem Chronicled.close (h : r.Chronicled required past) (id : SessionId) (reason : CloseReason) :
    (r.close id reason).1.Chronicled required past := by
  have hcontains := contains_eq h.numbered id
  refine h.of_only (Relay.sessions_closed h.numbered id reason) (Relay.nextId_closed r id reason)
    (h.events_close id reason) (fun s => (s.sameClient_leave reason).id) ?_ ?_ ?_
  · intro e he
    split at he
    · obtain rfl := List.mem_singleton.mp he
      exact ⟨rfl, rfl⟩
    · cases he
  · intro hnone
    rw [hcontains, hnone]
    rfl
  · intro s hs
    have hsettled := h.settled_of_session? hs
    obtain rfl := id_of_session? hs
    rw [hcontains, hs]
    exact hsettled.told_leave reason

theorem Chronicled.concat {s : Session} (h : r.Chronicled required past)
    (hsessions : r'.sessions = r.sessions ++ [s]) (hid : s.id = r.nextId)
    (hnext : r'.nextId = r.nextId + 1) (hevents : r'.events = r.events ++ s.story required)
    (hstory : s.story required = [.connected s.id s.peer]) (hsettled : s.Settled required) :
    r'.Chronicled required past where
  numbered := h.numbered.concat hsessions hid hnext
  past := h.past.trans (hevents ▸ List.prefix_append _ _)
  settled := by
    intro t ht
    rw [hsessions] at ht
    rcases List.mem_append.mp ht with hold | hnew
    · exact h.settled t hold
    · rw [List.mem_singleton.mp hnew]
      exact hsettled
  story := by
    intro id
    rw [hevents, List.filter_append, h.story, h.numbered.session?_concat hsessions hid, hstory]
    by_cases heq : id = r.nextId
    · have hnone : r.session? id = none := h.numbered.session?_of_nextId_le (Nat.le_of_eq heq.symm)
      rw [if_pos heq, hnone, Option.elim_some, hstory]
      simp [heq, hid, SessionEvent.session]
    · simp [heq, hid, SessionEvent.session, Ne.symm heq]
  admitted := by
    rw [hevents, List.filterMap_append, h.admitted, hsessions, hstory, List.map_append]
    rfl

end Registry

/-! ## Relays -/

namespace Relay

variable {required : Bool} {past : List SessionEvent} {r : Relay} {id : SessionId}

theorem events_enqueue (r : Relay) (id : SessionId) (m : Message) :
    (r.enqueue id m).registry.events = r.registry.events := by
  unfold enqueue
  split
  · rfl
  · simp only
    split <;> rfl

theorem events_send (r : Relay) (own id : SessionId) (m : Message) :
    (r.send own id m).registry.events = r.registry.events := by
  unfold send
  split
  · exact events_enqueue r id m
  · split
    · exact events_enqueue r id m
    · rfl

theorem events_handle (r : Relay) (id : SessionId) (m : Message) (now : Instant) :
    (r.handle id m now).1.registry.events = r.registry.events := by
  refine handle_cases (P := fun r' => r'.registry.events = r.registry.events) rfl ?_
  intro s r' _ _ hhandled
  cases hhandled with
  | subscribed hack =>
      unfold subscribe
      split <;> rfl
  | refused hm hrefused => rfl
  | noted hack hway hlogon => rfl

theorem chronicled_modify {f : Session → Session} (h : r.registry.Chronicled required past)
    (id : SessionId) (hid : ∀ s, (f s).id = s.id)
    (hf : ∀ s : Session, s.Settled required → s.Told required [] (f s)) :
    (r.modify id f).registry.Chronicled required past :=
  h.of_only_untold (sessions_modify r id f) rfl rfl hid hf

theorem chronicled_enqueue (h : r.registry.Chronicled required past) (id : SessionId)
    (m : Message) : (r.enqueue id m).registry.Chronicled required past :=
  h.of_only_untold (sessions_enqueue r id m) (nextId_of_backdrop (backdrop_enqueue r id m))
    (events_enqueue r id m) (fun _ => rfl) fun _ hs => hs.told_push m.encode

theorem chronicled_send (h : r.registry.Chronicled required past) (own id : SessionId)
    (m : Message) : (r.send own id m).registry.Chronicled required past := by
  unfold send
  split
  · exact chronicled_enqueue h id m
  · split
    · exact chronicled_enqueue h id m
    · exact h

theorem chronicled_applyOne (h : r.registry.Chronicled required past) (own : SessionId)
    (now : Instant) (e : Effect) : (applyOne own now r e).registry.Chronicled required past := by
  cases e with
  | send id m => exact chronicled_send h own id m
  | authenticate id username => exact h.authenticate id username now
  | close id reason =>
      rw [applyOne, registry_close]
      exact h.close id reason

theorem chronicled_apply (h : r.registry.Chronicled required past) (own : SessionId)
    (now : Instant) (effects : List Effect) :
    (r.apply own now effects).1.registry.Chronicled required past := by
  rw [apply_eq]
  exact foldl_induction (P := fun r : Relay => r.registry.Chronicled required past)
    (fun _ e h => chronicled_applyOne h own now e) h effects

theorem chronicled_handle (h : r.registry.Chronicled required past) (id : SessionId) (m : Message)
    (now : Instant) : (r.handle id m now).1.registry.Chronicled required past := by
  have hevents := r.events_handle id m now
  revert hevents
  refine handle_cases (P := fun r' => r'.registry.events = r.registry.events →
    r'.registry.Chronicled required past) (fun _ => h) ?_
  intro s r' _ _ hhandled hevents
  cases hhandled with
  | @subscribed symbol hack =>
      refine h.of_only_untold (sessions_subscribe r s.id symbol)
        (nextId_of_backdrop (backdrop_subscribe r s.id symbol)) hevents (fun _ => rfl) ?_
      intro t ht
      have hsubscribed := ht.told_same (t := (t.subscribe symbol).1) (by constructor <;> rfl)
        ⟨rfl, rfl⟩
      exact hsubscribed.trans (hsubscribed.settled.told_push _)
  | refused hm hrefused =>
      exact chronicled_modify h s.id (fun _ => rfl) fun _ ht => ht.told_reject
  | noted hack hway hlogon =>
      exact chronicled_modify h s.id (fun t => (hway t).id) fun t ht =>
        ht.told_same (hway t) (hlogon t)

theorem chronicled_publish (h : r.registry.Chronicled required past) (e : MarketEvent)
    (elapsed : Nat) : (r.publish e elapsed).2.registry.Chronicled required past := by
  refine h.of_map_untold (f := fun s =>
    if reaches e.symbolId s then s.push e.toMessage.encode else s) rfl rfl rfl ?_ ?_
  · intro s
    split <;> rfl
  · intro s hs
    split
    · exact hs.told_push _
    · exact .refl hs

theorem chronicled_sendHeartbeat (h : r.registry.Chronicled required past) (s : Session)
    (now : Instant) (clock : Int64) :
    (r.sendHeartbeat s now clock).1.registry.Chronicled required past := by
  have hmarked := chronicled_modify h s.id (f := (·.markHeartbeatSent now)) (fun _ => rfl)
    fun _ ht => ht.told_same (by constructor <;> rfl) ⟨rfl, rfl⟩
  have hsent := chronicled_enqueue hmarked s.id (heartbeatFor s clock)
  simp only [sendHeartbeat]
  split
  · exact hsent
  · exact hsent

theorem chronicled_timeOut (h : r.registry.Chronicled required past) (id : SessionId)
    (reason : CloseReason) (c : Counter) :
    (r.timeOut id reason c).1.registry.Chronicled required past := by
  rw [registry_timeOut]
  exact h.close id reason

theorem chronicled_sweepSession {acc : Relay × SweepReport}
    (h : acc.1.registry.Chronicled required past) (l : Liveness) (now : Instant) (clock : Int64)
    (s : Session) : (sweepSession l now clock acc s).1.registry.Chronicled required past := by
  unfold sweepSession
  cases s.auth with
  | authenticated =>
      simp only
      split
      · exact chronicled_timeOut h s.id .heartbeatTimeout .heartbeatTimeouts
      · split
        · have hsent := chronicled_sendHeartbeat h s now clock
          cases hheartbeat : acc.1.sendHeartbeat s now clock with
          | mk r' taken =>
              rw [hheartbeat] at hsent
              cases taken with
              | true => exact hsent
              | false => exact hsent
        · exact h
  | unauthenticated =>
      simp only
      split
      · exact chronicled_timeOut h s.id .logonTimeout .logonTimeouts
      · exact h
  | rejected => exact h

theorem chronicled_shutDownSession (h : r.registry.Chronicled required past) (id : SessionId) :
    (Server.shutDownSession r id).registry.Chronicled required past := by
  rw [Server.shutDownSession, registry_close]
  exact (chronicled_modify (f := (·.push Server.farewell.encode)) h id (fun _ => rfl)
    fun _ ht => ht.told_push _).close id .serverShutdown

theorem chronicled_enlist (h : r.registry.Chronicled r.config.requireAuthentication past)
    (peer : SocketAddress) (now : Instant) :
    (r.step (.enlist peer now)).registry.Chronicled r.config.requireAuthentication past := by
  simp only [step, enlist, Registry.enlist]
  by_cases hfull : r.registry.maxClients ≤ r.registry.size
  · rw [if_pos hfull]
    exact h
  · rw [if_neg hfull]
    have hsettled : (Session.fresh r.registry.nextId peer now (!r.config.requireAuthentication)
        r.config.outboundQueueCapacity).Settled r.config.requireAuthentication :=
      Session.settled_fresh _ peer now _
    have hstory : (Session.fresh r.registry.nextId peer now (!r.config.requireAuthentication)
        r.config.outboundQueueCapacity).story r.config.requireAuthentication =
          [.connected r.registry.nextId peer] := by
      cases hrequired : r.config.requireAuthentication <;> rfl
    exact h.concat rfl rfl rfl (by rw [hstory]; rfl) hstory hsettled

/-- Whatever happens to a relay, observers are told the story of each session. -/
theorem chronicled_step (h : r.registry.Chronicled r.config.requireAuthentication past)
    (st : Step) :
    (r.step st).registry.Chronicled r.config.requireAuthentication past := by
  cases st with
  | enlist peer now => exact chronicled_enlist h peer now
  | message id m handledAt appliedAt =>
      exact chronicled_apply (chronicled_handle h id m handledAt) id appliedAt _
  | publish e elapsed => exact chronicled_publish h e elapsed
  | sweep l now clock =>
      exact foldl_induction
        (P := fun acc : Relay × SweepReport =>
          acc.1.registry.Chronicled r.config.requireAuthentication past)
        (fun _ s h => chronicled_sweepSession h l now clock s) (a := (r, {})) h r.registry.listed
  | drain id => exact chronicled_modify h id (fun _ => rfl) fun _ hs => hs.told_drain
  | close id reason =>
      rw [step, registry_close]
      exact h.close id reason
  | stop =>
      exact foldl_induction
        (P := fun r' : Relay => r'.registry.Chronicled r.config.requireAuthentication past)
        (fun _ id h => chronicled_shutDownSession h id) h _

end Relay

/-! ## Logons in a run -/

namespace Session

variable {r : Relay} {s : Session}

theorem username_authenticate {name : String} (h : s.auth = .unauthenticated → s.username = none)
    (hname : s.username = some name) (username : String) (now : Instant) :
    (s.authenticate username now).1.username = some name := by
  unfold authenticate
  split
  · rename_i hauth
    rw [h hauth] at hname
    cases hname
  · simp [hname]
  · exact hname

theorem Settled.username_after {required : Bool} (h : s.Settled required) {name : String}
    (hname : s.username = some name) (r : Relay) (st : Step) :
    (s.after r st).username = some name := by
  rw [(s.sameClient_after r st).username]
  rcases s.sameLogon_updated r st with hsame | ⟨request, handledAt, appliedAt, rfl, hnoted⟩
  · rw [hsame.username]
    exact hname
  · rw [hnoted]
    simp only [noted]
    split
    · split
      · exact username_authenticate (fun hauth => (h.stranger hauth).2) hname _ _
      · exact hname
    · exact hname

theorem isListed_after_of_ending {st : Step} (h : s.ending r st = none) :
    (s.after r st).isListed = s.isListed := by
  rw [after, h, leaveFor, isListed_pushMessage, isListed_updated]

theorem authenticated_of_named {st : Step} {name : String} (hnone : s.username = none)
    (hname : (s.after r st).username = some name) :
    (s.after r st).isListed = true ∧ (s.after r st).auth = .authenticated := by
  rw [(s.sameClient_after r st).username] at hname
  rw [(s.sameClient_after r st).auth]
  have hsame : ∀ t : Session, t.username = s.username → t.username ≠ some name := by
    intro t ht
    rw [ht, hnone]
    exact nofun
  rcases s.sameLogon_updated r st with h | ⟨request, handledAt, appliedAt, rfl, hnoted⟩
  · exact absurd hname (hsame _ h.username)
  · rw [hnoted] at hname ⊢
    simp only [noted] at hname ⊢
    split at hname
    · rename_i haccepts
      split at hname
      · rename_i hlisted
        have hending : s.ending r (.message s.id (.logonRequest request) handledAt appliedAt) =
            none := by
          simp [ending, endingBy, haccepts]
        rw [if_pos haccepts, if_pos hlisted, isListed_after_of_ending hending]
        refine ⟨hlisted, ?_⟩
        unfold authenticate at hname ⊢
        split
        · rfl
        · rename_i hauth
          split
          · exact hauth
          · exact hauth
        · rename_i hauth
          rw [hauth] at hname
          exact absurd hname (hsame _ rfl)
      · exact absurd hname (hsame _ rfl)
    · exact absurd hname (hsame _ rfl)

end Session

namespace Relay

variable {past : List SessionEvent} {r : Relay} {id : SessionId} {s : Session}

theorem chronicled_run (h : r.registry.Chronicled r.config.requireAuthentication past)
    (steps : List Step) :
    (r.run steps).registry.Chronicled r.config.requireAuthentication past := by
  induction steps generalizing r with
  | nil => exact h
  | cons st steps ih =>
      have hstep := chronicled_step h st
      rw [← config_step r st] at hstep ⊢
      exact ih hstep

theorem chronicled_ofConfig (c : Config) (steps : List Step) :
    ((ofConfig c).run steps).registry.Chronicled c.requireAuthentication [] :=
  chronicled_run (r := ofConfig c) (Registry.chronicled_empty c.maxClients) steps

theorem username_run {required : Bool} (h : r.registry.Chronicled required past)
    (hrequired : r.config.requireAuthentication = required) {name : String}
    (hs : r.session? id = some s) (hname : s.username = some name) (steps : List Step) :
    ∃ t, (r.run steps).session? id = some t ∧ t.username = some name := by
  subst hrequired
  induction steps generalizing r s with
  | nil => exact ⟨s, hs, hname⟩
  | cons st steps ih =>
      have hstep := chronicled_step h st
      rw [← config_step r st] at hstep
      exact ih (session?_step_of_some h.numbered hs st)
        ((h.settled_of_session? hs).username_after hname r st) hstep

/-- A session that has a name in the end was listed and authenticated when it got it. -/
theorem exists_authenticated_of_named (h : r.registry.Numbered)
    (hunnamed : ∀ s, r.session? id = some s → s.username = none) {steps : List Step}
    (hs : (r.run steps).session? id = some s) (hname : s.username.isSome = true) :
    ∃ before, before <+: steps ∧ ∃ t, (r.run before).session? id = some t ∧
      t.isListed = true ∧ t.isAuthenticated = true := by
  induction steps generalizing r with
  | nil =>
      rw [hunnamed s hs] at hname
      cases hname
  | cons st steps ih =>
      by_cases hstep : ∀ t, (r.step st).session? id = some t → t.username = none
      · obtain ⟨before, hprefix, ht⟩ := ih (numbered_step h st) hstep hs
        exact ⟨st :: before, List.cons_prefix_cons.mpr ⟨rfl, hprefix⟩, ht⟩
      · obtain ⟨t, hnot⟩ := not_forall.mp hstep
        obtain ⟨ht, hnamed⟩ := Classical.not_imp.mp hnot
        obtain ⟨name, hname⟩ := Option.ne_none_iff_exists'.mp hnamed
        refine ⟨[st], List.cons_prefix_cons.mpr ⟨rfl, List.nil_prefix⟩, t, ht, ?_⟩
        cases hs' : r.session? id with
        | none =>
            -- a fresh session has no name yet
            obtain ⟨peer, now, -, rfl⟩ := session?_step_of_none h hs' ht
            cases hname
        | some s' =>
            obtain rfl : s'.after r st = t :=
              Option.some.inj ((session?_step_of_some h hs' st).symm.trans ht)
            obtain ⟨hlisted, hauth⟩ := Session.authenticated_of_named (hunnamed s' hs') hname
            exact ⟨hlisted, Session.isAuthenticated_iff.mpr hauth⟩

/-- **What observers are told.**  In every run observers are told of each session, in this order,
that it was admitted, of its logon and of its end, of each once at most, and of nobody else; numbers
are given in ascending order.  They are told of an end just if the session is not listed any more,
with the reason that the session has; and of a logon just if a logon was required and the session
was authenticated at some time while it was listed, under the name that it keeps from then on. -/
theorem events_of_session (c : Config) (steps : List Step) (id : SessionId) :
    let r := (ofConfig c).run steps
    r.registry.events.filterMap (·.admitted?) = List.range' 1 r.registry.sessions.length ∧
    (r.session? id = none → ∀ e ∈ r.registry.events, e.session ≠ id) ∧
    ∀ s, r.session? id = some s →
      ∃ name? reason?,
        r.registry.events.filter (·.session == id) =
          .connected id s.peer :: ((name?.map (.authenticated id)).toList ++
            (reason?.map (.disconnected id)).toList) ∧
        (reason?.isSome = true ↔ r.registry.contains id = false) ∧
        reason? = s.closeReason ∧
        (name?.isSome = true ↔ c.requireAuthentication = true ∧
          ∃ before, before <+: steps ∧ ∃ t, ((ofConfig c).run before).session? id = some t ∧
            t.isListed = true ∧ t.isAuthenticated = true) ∧
        ∀ name, name? = some name → ∀ later,
          ∃ t, (r.run later).session? id = some t ∧ t.username = some name := by
  intro r
  have h := chronicled_ofConfig c steps
  refine ⟨h.admitted.trans h.numbered.ids, ?_, ?_⟩
  · intro hnone e he hid
    have hmem : e ∈ r.registry.events.filter (·.session == id) :=
      List.mem_filter.mpr ⟨he, beq_iff_eq.mpr hid⟩
    rw [h.story, show r.registry.session? id = none from hnone] at hmem
    cases hmem
  · intro s hs
    have hsettled := h.settled_of_session? hs
    have hstory := h.story_of_session? hs
    rw [Session.story, Registry.id_of_session? hs] at hstory
    refine ⟨_, _, hstory, ?_, rfl, ?_, ?_⟩
    · rw [contains_eq h.numbered, hs, Option.any_some, ← Session.isClosed, hsettled.isClosed,
        Bool.not_eq_true']
    · constructor
      · intro hnamed
        cases hrequired : c.requireAuthentication with
        | false => simp [hrequired] at hnamed
        | true =>
            rw [hrequired, if_pos rfl] at hnamed
            refine ⟨rfl, exists_authenticated_of_named (Registry.numbered_empty c.maxClients) ?_ hs
              hnamed⟩
            intro t ht
            cases ht
      · rintro ⟨hrequired, before, ⟨later, rfl⟩, t, ht, -, hauth⟩
        -- it has had a name since it was authenticated, and keeps it
        have hbefore := chronicled_ofConfig c before
        have hnamed := (hbefore.settled_of_session? ht).named hrequired
          (Session.isAuthenticated_iff.mp hauth)
        obtain ⟨name, hname⟩ := Option.isSome_iff_exists.mp hnamed
        obtain ⟨t', ht', hname'⟩ := username_run hbefore (by rw [config_run]; rfl) ht hname later
        rw [← run_append] at ht'
        obtain rfl : s = t' := Option.some.inj (hs.symm.trans ht')
        simp [hrequired, hname']
    · intro name hname later
      have hname' : s.username = some name := by
        cases hrequired : c.requireAuthentication <;> simp [hrequired] at hname
        exact hname
      exact username_run h (by rw [config_run]; rfl) hs hname' later

end Relay
end MarketRelay
