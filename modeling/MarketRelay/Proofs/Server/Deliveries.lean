import MarketRelay.Proofs.Server.Books
import MarketRelay.Proofs.Server.Publishing

/-!
# What a server sends

A step builds at most one message for a session and pushes it on the queue, before or after which it
does nothing else to what waits for the client than to hand it over.

* `gets_step`: this, for all steps of those who work at a server.  `Session.Gets` is what a step
  may do to a queue, and `Service.pushed` tells for each step which message it is; a step of a
  reader or a feed has to be looked into to find it.
* `accepted_eq_said`: so in any run the queue of a session takes, in order, the frames of the
  messages that are built for it while it is open.
* `Speaks.step`, `Speaks.said`: what holds of all messages that a server builds is true of all that
  wait.  What is built is listed in `Builds`, without the sessions that it is for; a message that
  was built when a request was handled is pushed later, so what is left to do is part of the
  invariant.

The modules on market data and on wording are both a property of messages, put into `Speaks`.
-/
namespace MarketRelay

def Effect.message? : Effect → Option Message
  | .send _ m => some m
  | _ => none

/-! ## What a session gets -/

namespace Session

variable {s t u : Session} {sent : Option Message}

/-- `u` is `t` after a message was pushed on its queue, if there is one; else what waited may have
been handed over. -/
def Gets (t : Session) (sent : Option Message) (u : Session) : Prop :=
  ∃ (t' : Session) (reason : Option CloseReason), u = (t'.pushMessage sent).leaveFor reason ∧
    (t'.queue = t.queue ∨ t'.queue = t.queue.drain ∧ sent = none)

theorem SameWay.gets (h : t.SameWay u) : t.Gets none u := ⟨u, none, rfl, Or.inl h.queue⟩

theorem gets_push (t : Session) (m : Message) : t.Gets (some m) (t.push m.encode) :=
  ⟨t, none, rfl, Or.inl rfl⟩

theorem gets_leave (t : Session) (reason : CloseReason) : t.Gets none (t.leave reason) :=
  ⟨t, some reason, rfl, Or.inl rfl⟩

theorem gets_undergo (t : Session) (now : Instant) (e : Effect) :
    t.Gets e.message? (t.undergo now e) := by
  cases e with
  | send _ m => exact t.gets_push m
  | authenticate _ username => exact (t.sameWay_authenticate_of_listed username now).gets
  | close _ reason => exact t.gets_leave reason

theorem gets_shutDown (t : Session) : t.Gets (some Server.farewell) t.shutDown :=
  ⟨t, some .serverShutdown, rfl, Or.inl rfl⟩

theorem gets_after (r : Relay) (st : Step) (t : Session) :
    t.Gets (t.pushed r st) (t.after r st) := by
  refine ⟨t.updated r st, t.ending r st, rfl, ?_⟩
  by_cases hdrain : st = .drain t.id
  · subst hdrain
    rw [updated_drain]
    exact Or.inr ⟨rfl, rfl⟩
  · exact Or.inl (sameWay_updated hdrain).queue

theorem reply_of_acknowledged {r : Relay} {m : Message} {symbol : SymbolId}
    (h : t.acknowledged r m = some symbol) : t.reply r m = some (r.snapshotMessage symbol) := by
  obtain ⟨request, rfl, hauth, haction, hresolve, hmay⟩ := acknowledged_eq_some_iff.mp h
  simp [reply, requestReply, hauth, haction, hresolve, hmay]

theorem Gets.newFrames (h : t.Gets sent u) :
    OutboundQueue.newFrames t.queue u.queue =
      if t.queue.isClosed then [] else (sent.map Message.encode).toList := by
  obtain ⟨t', reason, rfl, hqueue⟩ := h
  have hleave : OutboundQueue.newFrames t.queue ((t'.pushMessage sent).leaveFor reason).queue =
      OutboundQueue.newFrames t.queue (t'.pushMessage sent).queue := by
    rcases queue_leaveFor (t'.pushMessage sent) reason with hsame | hclosed
    · rw [hsame]
    · rw [hclosed]
      rfl
  rw [hleave]
  cases sent with
  | none =>
      rcases hqueue with hsame | ⟨hdrained, -⟩
      · rw [pushMessage, hsame, OutboundQueue.newFrames_of_frames_eq rfl rfl]
        simp
      · rw [pushMessage, hdrained, OutboundQueue.newFrames_drain]
        simp
  | some m =>
      rcases hqueue with hsame | ⟨-, hnone⟩
      · rw [pushMessage, push, hsame, OutboundQueue.newFrames_push]
        rfl
      · cases hnone

theorem Gets.dropped_le (h : t.Gets sent u) : u.queue.dropped ≤ t.queue.dropped + 1 := by
  obtain ⟨t', reason, rfl, hqueue⟩ := h
  have hleave : ((t'.pushMessage sent).leaveFor reason).queue.dropped =
      (t'.pushMessage sent).queue.dropped := by
    rcases queue_leaveFor (t'.pushMessage sent) reason with hsame | hclosed
    · rw [hsame]
    · rw [hclosed]
      rfl
  have hbefore : t'.queue.dropped = t.queue.dropped := by
    rcases hqueue with hsame | ⟨hdrained, -⟩
    · rw [hsame]
    · rw [hdrained]
      rfl
  rw [hleave, ← hbefore]
  cases sent with
  | none => exact Nat.le_succ _
  | some m =>
      rw [pushMessage, push, OutboundQueue.dropped_push]
      exact Nat.add_le_add_left (Bool.toNat_le _) _

theorem Gets.mem_frames (h : t.Gets sent u) {frame : List UInt8} (hframe : frame ∈ u.queue.frames) :
    frame ∈ t.queue.frames ∨ ∃ m, sent = some m ∧ frame = m.encode := by
  obtain ⟨t', reason, rfl, hqueue⟩ := h
  have hopen : frame ∈ (t'.pushMessage sent).queue.frames := by
    rcases queue_leaveFor (t'.pushMessage sent) reason with hsame | hclosed
    · rwa [hsame] at hframe
    · rwa [hclosed] at hframe
  cases sent with
  | none =>
      rcases hqueue with hsame | ⟨hdrained, -⟩
      · rw [pushMessage, hsame] at hopen
        exact Or.inl hopen
      · rw [pushMessage, hdrained] at hopen
        cases hopen
  | some m =>
      rcases hqueue with hsame | ⟨-, hnone⟩
      · rw [pushMessage, push, hsame] at hopen
        have hmem := (t.queue.frames_push_sublist m.encode).subset hopen
        rw [OutboundQueue.newFrames_push] at hmem
        rcases List.mem_append.mp hmem with hold | hnew
        · exact Or.inl hold
        · split at hnew
          · cases hnew
          · exact Or.inr ⟨m, rfl, List.mem_singleton.mp hnew⟩
      · cases hnone

end Session

namespace Relay

variable {r r' : Relay} {id : SessionId} {t : Session}

theorem exists_gets_of_only {id' : SessionId} {f : Session → Session} {sent : Option Message}
    (hsessions : r'.registry.sessions = r.registry.sessions.map (Session.only id' f))
    (hid : ∀ s, (f s).id = s.id) (ht : r.session? id = some t) (hgets : t.Gets sent (f t)) :
    ∃ u, r'.session? id = some u ∧ t.Gets (if t.id = id' then sent else none) u := by
  refine ⟨t.only id' f, ?_, ?_⟩
  · rw [session?_of_map hsessions (Session.id_only hid), ht, Option.map_some]
  · by_cases heq : t.id = id'
    · rw [Session.only_of_eq heq, if_pos heq]
      exact hgets
    · rw [Session.only_of_ne heq, if_neg heq]
      exact (Session.SameWay.refl t).gets

theorem exists_gets_handle (ht : r.session? id = some t) (id' : SessionId) (m : Message)
    (now : Instant) :
    ∃ u, (r.handle id' m now).1.session? id = some u ∧
      t.Gets (if t.id = id' then (t.acknowledged r m).map r.snapshotMessage else none) u := by
  unfold handle
  cases hs : r.session? id' with
  | none =>
      have hne : t.id ≠ id' := by
        rintro rfl
        rw [Registry.id_of_session? ht, ht] at hs
        cases hs
      rw [if_neg hne]
      exact ⟨t, ht, (Session.SameWay.refl t).gets⟩
  | some s =>
      obtain rfl := Registry.id_of_session? hs
      have hsame : (if t.id = s.id then (t.acknowledged r m).map r.snapshotMessage else none) =
          if t.id = s.id then (s.acknowledged r m).map r.snapshotMessage else none := by
        by_cases heq : t.id = s.id
        · rw [← Registry.id_of_session? ht, heq, hs] at ht
          rw [Option.some.inj ht]
        · rw [if_neg heq, if_neg heq]
      rw [hsame]
      have hhandled := r.handled_handleMessage s m now
      generalize (r.handleMessage s m now).1 = r' at hhandled
      cases hhandled with
      | subscribed hack =>
          rw [hack]
          exact exists_gets_of_only (sessions_subscribe r s.id _) (fun _ => rfl) ht
            ⟨(t.subscribe _).1, none, rfl, Or.inl rfl⟩
      | refused hm hrefused =>
          subst hm
          exact exists_gets_of_only (sessions_modify r s.id _) (fun _ => rfl) ht
            (Session.SameWay.gets (by constructor <;> rfl))
      | noted hack hway hlogon =>
          rw [hack]
          exact exists_gets_of_only (sessions_modify r s.id _) (fun t => (hway t).id) ht
            (hway t).gets

/-- A queue that there was not before is empty, and has evicted nothing. -/
theorem Works.queue_of_none (hworks : Works r r') (h : r.registry.Numbered)
    (hs : r.session? id = none) :
    (r'.queue id).frames = [] ∧ (r'.queue id).dropped = 0 := by
  have hnone : ∀ (r' : Relay) (f : Session → Session) (id' : SessionId), (∀ s, (f s).id = s.id) →
      r'.registry.sessions = r.registry.sessions.map (Session.only id' f) →
        (r'.queue id).frames = [] ∧ (r'.queue id).dropped = 0 := by
    intro r' f id' hid hsessions
    have hs' : r'.session? id = none := by
      rw [session?_of_map hsessions (Session.id_only hid), hs, Option.map_none]
    rw [Relay.queue_of_none hs']
    exact ⟨rfl, rfl⟩
  have hsame : (r.queue id).frames = [] ∧ (r.queue id).dropped = 0 := by
    rw [Relay.queue_of_none hs]
    exact ⟨rfl, rfl⟩
  cases hworks with
  | same => exact hsame
  | count k hk => exact hsame
  | @letIn peer now id' r' henlist =>
      obtain ⟨-, hnext, s, -, hempty, hid, heq⟩ := exists_eq_of_enlist henlist
      have hsessions : r'.registry.sessions = r.registry.sessions ++ [s] := by
        rw [heq]
        rfl
      have hs' : r'.session? id = _ := h.session?_concat hsessions (hid.trans hnext) id
      change (r'.queue id).frames = [] ∧ (r'.queue id).dropped = 0
      split at hs'
      · rw [queue_of_some hs', hempty]
        exact ⟨rfl, rfl⟩
      · rw [Relay.queue_of_none (hs'.trans hs)]
        exact ⟨rfl, rfl⟩
  | handle id' m now =>
      obtain ⟨f, hid, hsessions, -⟩ :=
        Interleaved.exists_handle_only (r.count .framesReceived) id' m now
      exact hnone _ f id' hid hsessions
  | apply id' now e he =>
      exact hnone _ _ id' (fun s => s.id_undergo now e) (sessions_applyOne_own h now he.session)
  | takeLeave id' => exact hnone _ _ id' (fun s => s.id_shutDown) (sessions_shutDownSession h id')
  | stop => exact queue_step_of_none h hs .stop
  | drain id' => exact queue_step_of_none h hs (.drain id')
  | sweep l now clock => exact queue_step_of_none h hs (.sweep l now clock)
  | publish e elapsed => exact queue_step_of_none h hs (.publish e elapsed)

theorem session?_of_enlist (h : r.registry.Numbered) {peer : SocketAddress} {now : Instant}
    {id' : SessionId} (henlist : r.enlist peer now = .ok (id', r'))
    (ht : r.session? id = some t) : r'.session? id = some t := by
  obtain ⟨-, hnext, s, -, -, hid, heq⟩ := exists_eq_of_enlist henlist
  have hsessions : r'.registry.sessions = r.registry.sessions ++ [s] := by
    rw [heq]
    rfl
  have hne : id ≠ r.registry.nextId := by
    rintro rfl
    cases (h.session?_of_nextId_le (Nat.le_refl _)).symm.trans ht
  have hs : r'.session? id = _ := h.session?_concat hsessions (hid.trans hnext) id
  rw [hs, if_neg hne]
  exact ht

theorem pushed_publish (r : Relay) (e : MarketEvent) (elapsed : Nat) (t : Session) :
    t.pushed r (.publish e elapsed) =
      ((some e).filter fun e => reaches e.symbolId t).map (·.toMessage) := by
  simp only [Session.pushed, Option.filter_some]
  split <;> rfl

end Relay

/-! ## Steps of a server -/

namespace Service

variable {c : Config} {s : Service} {id : SessionId} {t : Session} {m : Message} {e : MarketEvent}
  {st : ServerStep}

def event? (s : Service) : ServerStep → Option MarketEvent
  | .feed name o _ =>
    if o.IsQuotable then (s.relay.symbols.idOf? name).map (⟨·, o⟩) else none
  | .broadcast e _ =>
    if s.relay.symbols.contains e.symbolId ∧ e.occurrence.IsQuotable then some e else none
  | _ => none

/-- The message that a step builds for a session to be pushed on its queue, if it builds one. -/
def pushed (s : Service) (st : ServerStep) (t : Session) : Option Message :=
  match st with
  | .decode id buffer _ =>
    match (Stream.next s.relay.config.maxMessageSize buffer).1 with
    | .item (.message m) =>
      if t.id = id then (t.acknowledged s.relay m).map s.relay.snapshotMessage else none
    | _ => none
  | .apply place _ =>
    match s.left[place]? with
    | some (id, e :: _) => if t.id = id then e.message? else none
    | _ => none
  | .takeLeave id => if t.id = id then some Server.farewell else none
  | .stop => if s.server.isRunning && t.isListed then some Server.farewell else none
  | .sweep now clock =>
    if t.isListed && t.isOwed (.ofConfig s.relay.config) now then
      some (Relay.heartbeatFor t clock)
    else none
  | .feed .. | .broadcast .. =>
    ((s.event? st).filter fun e => Relay.reaches e.symbolId t).map (·.toMessage)
  | _ => none

theorem known_and_quotable_of_event? (h : s.event? st = some e) :
    s.relay.symbols.contains e.symbolId = true ∧ e.occurrence.IsQuotable := by
  cases st with
  | feed name o elapsed =>
      simp only [event?] at h
      split at h
      · rename_i ho
        obtain ⟨id, hid, rfl⟩ := Option.map_eq_some_iff.mp h
        obtain ⟨symbol, hsymbol, -, rfl⟩ :=
          (SymbolTable.idOf?_eq_some_iff s.relay.distinct_symbols).mp hid
        exact ⟨SymbolTable.contains_id hsymbol, ho⟩
      · cases h
  | broadcast e' elapsed =>
      simp only [event?] at h
      split at h
      · rename_i hgood
        exact Option.some.inj h ▸ hgood
      · cases h
  | _ => cases h

theorem step_feed (s : Service) (name : String) (o : Occurrence) (elapsed : Nat) :
    s.step (.feed name o elapsed) =
      match s.event? (.feed name o elapsed) with
      | some e => s.withRelay (s.relay.step (.publish e elapsed))
      | none => s := by
  by_cases ho : o.IsQuotable
  · cases hid : s.relay.symbols.idOf? name with
    | none =>
        simp only [step, Relay.feed, event?, hid, ho, if_true, Option.map_none]
        rfl
    | some symbol =>
        simp only [step, Relay.feed, event?, hid, ho, Occurrence.checkAmounts_of_isQuotable ho]
        rfl
  · obtain ⟨error, herror⟩ := feed_refused elapsed (Or.inr ho)
    rw [step_feed_of_eq herror]
    simp only [event?, if_neg ho]
    rfl

theorem step_broadcast (s : Service) (e : MarketEvent) (elapsed : Nat) :
    s.step (.broadcast e elapsed) =
      match s.event? (.broadcast e elapsed) with
      | some e => s.withRelay (s.relay.step (.publish e elapsed))
      | none => s := by
  by_cases hgood : s.relay.symbols.contains e.symbolId ∧ e.occurrence.IsQuotable
  · have hbroadcast : s.relay.broadcast e elapsed = (_, .ok _) :=
      Relay.broadcast_eq_ok_iff.mpr
        ⟨SymbolTable.contains_iff.mp hgood.1, hgood.2, Prod.eta (s.relay.publish e elapsed)⟩
    rw [step_broadcast_of_eq hbroadcast, event?, if_pos hgood]
    rfl
  · have hbad := hgood
    rw [SymbolTable.contains_iff, Decidable.not_and_iff_or_not] at hbad
    obtain ⟨error, herror⟩ := broadcast_refused elapsed hbad
    rw [step_broadcast_of_eq herror, event?, if_neg hgood]
    rfl

/-- A step does to the way to a client nothing but to push the message that it builds, or to hand
over what waits, before it may end the session. -/
theorem gets_step (h : Sound c s) (ht : s.relay.session? id = some t) (st : ServerStep) :
    ∃ u, (s.step st).relay.session? id = some u ∧ t.Gets (s.pushed st t) u := by
  have hnumbered := h.chronicled.numbered
  -- most steps come to one of three things: nothing, a step of the relay, a close
  have hsame : ∃ u, s.relay.session? id = some u ∧ t.Gets none u :=
    ⟨t, ht, (Session.SameWay.refl t).gets⟩
  have hstep : ∀ st', ∃ u, (s.relay.step st').session? id = some u ∧
      t.Gets (t.pushed s.relay st') u := fun st' =>
    ⟨_, Relay.session?_step_of_some hnumbered ht st', Session.gets_after s.relay st' t⟩
  have hclose : ∀ id' reason, ∃ u, (s.relay.close id' reason).1.session? id = some u ∧
      t.Gets none u := fun id' reason => hstep (.close id' reason)
  cases st with
  | start bind now =>
      rw [relay_step_start]
      exact hsame
  | stop =>
      rw [relay_step_stop, pushed]
      cases s.server.isRunning with
      | true => exact hstep .stop
      | false => exact hsame
  | accept peer now =>
      simp only [step, relay, Server.accept, pushed]
      split
      · rename_i henlist
        have ht' := Relay.session?_of_enlist hnumbered henlist ht
        exact ⟨t, ht', (Session.SameWay.refl t).gets⟩
      · exact hsame
  | takeLeave id' =>
      exact Relay.exists_gets_of_only (Relay.sessions_shutDownSession hnumbered id')
        (fun u => u.id_shutDown) ht t.gets_shutDown
  | decode id' buffer now =>
      simp only [step, Relay.decodeNext, pushed]
      cases hnext : (Stream.next s.relay.config.maxMessageSize buffer).1 with
      | pending => exact hsame
      | item item =>
          cases item with
          | unknown tag size => exact hsame
          | message m =>
              exact Relay.exists_gets_handle (r := s.relay.count .framesReceived) ht id' m now
      | failed error => exact hsame
  | apply place now =>
      simp only [step, pushed]
      cases hleft : s.left[place]? with
      | none => exact hsame
      | some p =>
          obtain ⟨id', effects⟩ := p
          cases effects with
          | nil => exact hsame
          | cons e effects =>
              have hown : e.session = id' :=
                (h.answers _ (List.mem_of_getElem? hleft) e List.mem_cons_self).session
              exact Relay.exists_gets_of_only (Relay.sessions_applyOne_own hnumbered now hown)
                (fun u => u.id_undergo now e) ht (t.gets_undergo now e)
  | endReader id' how =>
      change ∃ u, (s.relay.conclude id' (.ended how)).session? id = some u ∧ t.Gets none u
      rcases s.relay.conclude_ended id' how with heq | ⟨reason, -, heq⟩
      · rw [heq]
        exact hsame
      · rw [heq]
        exact hclose id' reason
  | failWriter id' detail => exact hclose id' (.io detail)
  | drain id' => exact hstep (.drain id')
  | sweep now clock => exact hstep (.sweep (.ofConfig s.relay.config) now clock)
  | feed name o elapsed =>
      simp only [step_feed, pushed]
      cases s.event? (.feed name o elapsed) with
      | none => exact hsame
      | some e =>
          rw [← Relay.pushed_publish s.relay e elapsed]
          exact hstep (.publish e elapsed)
  | broadcast e elapsed =>
      simp only [step_broadcast, pushed]
      cases s.event? (.broadcast e elapsed) with
      | none => exact hsame
      | some e =>
          rw [← Relay.pushed_publish s.relay e elapsed]
          exact hstep (.publish e elapsed)

theorem queue_step_of_none (h : Sound c s) (hs : s.relay.session? id = none) (st : ServerStep) :
    ((s.step st).relay.queue id).frames = [] ∧ ((s.step st).relay.queue id).dropped = 0 :=
  (works_step h.answers st).queue_of_none h.chronicled.numbered hs

theorem snapshots_step (s : Service) (st : ServerStep) :
    (s.step st).relay.snapshots =
      match s.event? st with
      | some e => s.relay.snapshots.apply e
      | none => s.relay.snapshots := by
  have hclose : ∀ id reason, (s.relay.close id reason).1.snapshots = s.relay.snapshots :=
    fun id reason => congrArg (·.2.1) (s.relay.backdrop_close id reason)
  cases st with
  | start bind now =>
      rw [relay_step_start]
      rfl
  | stop =>
      simp only [relay_step_stop, event?]
      split
      · exact Relay.snapshots_step s.relay .stop
      · rfl
  | accept peer now =>
      simp only [step, relay, Server.accept, event?]
      split
      · rename_i henlist
        obtain ⟨-, -, -, -, -, -, rfl⟩ := Relay.exists_eq_of_enlist henlist
        rfl
      · rfl
  | takeLeave id =>
      let pushed := s.relay.modify id (·.push Server.farewell.encode)
      exact congrArg (·.2.1) (Relay.backdrop_close pushed id .serverShutdown)
  | decode id buffer now =>
      simp only [step, Relay.decodeNext, event?]
      cases (Stream.next s.relay.config.maxMessageSize buffer).1 with
      | pending => rfl
      | item item =>
          cases item with
          | unknown tag size => rfl
          | message m =>
              exact congrArg (·.2.1)
                (Relay.backdrop_handle (s.relay.count .framesReceived) id m now)
      | failed error => rfl
  | apply place now =>
      simp only [step, event?]
      split
      · exact congrArg (·.2.1) (Relay.backdrop_applyOne _ now s.relay _)
      · rfl
  | endReader id how =>
      change (s.relay.conclude id (.ended how)).snapshots = s.relay.snapshots
      rcases s.relay.conclude_ended id how with heq | ⟨reason, -, heq⟩
      · rw [heq]
      · rw [heq]
        exact hclose id reason
  | failWriter id detail => exact hclose id (.io detail)
  | drain id => rfl
  | sweep now clock => exact Relay.snapshots_step s.relay (.sweep _ now clock)
  | feed name o elapsed =>
      rw [step_feed]
      cases s.event? (.feed name o elapsed) with
      | none => rfl
      | some e => rfl
  | broadcast e elapsed =>
      rw [step_broadcast]
      cases s.event? (.broadcast e elapsed) with
      | none => rfl
      | some e => rfl

/-! ## Runs -/

def saidIn (s : Service) (id : SessionId) (st : ServerStep) : List Message :=
  match s.relay.session? id with
  | some t => if t.queue.isClosed then [] else (s.pushed st t).toList
  | none => []

def said (id : SessionId) : Service → List ServerStep → List Message
  | _, [] => []
  | s, st :: steps => s.saidIn id st ++ said id (s.step st) steps

def accepted (id : SessionId) : Service → List ServerStep → List (List UInt8)
  | _, [] => []
  | s, st :: steps =>
    OutboundQueue.newFrames (s.relay.queue id) ((s.step st).relay.queue id) ++
      accepted id (s.step st) steps

theorem newFrames_step (h : Sound c s) (id : SessionId) (st : ServerStep) :
    OutboundQueue.newFrames (s.relay.queue id) ((s.step st).relay.queue id) =
      (s.saidIn id st).map Message.encode := by
  unfold saidIn
  cases ht : s.relay.session? id with
  | none =>
      rw [OutboundQueue.newFrames, (queue_step_of_none h ht st).1]
      exact List.drop_nil
  | some t =>
      obtain ⟨u, hu, hgets⟩ := gets_step h ht st
      rw [Relay.queue_of_some ht, Relay.queue_of_some hu, hgets.newFrames]
      simp only
      split
      · rfl
      · cases s.pushed st t <;> rfl

/-- **Queues take what is said.**  In any run the queue of a session takes the frames of the
messages that are built for the session while it is open, all of them and in order. -/
theorem accepted_eq_said (h : Sound c s) (id : SessionId) (steps : List ServerStep) :
    accepted id s steps = (said id s steps).map Message.encode := by
  induction steps generalizing s with
  | nil => rfl
  | cons st steps ih =>
      rw [accepted, said, List.map_append, newFrames_step h id st, ih (h.step st)]

/-! ## What messages can be built -/

/-- A message that the server may come to build in this state. -/
inductive Builds (s : Service) : Message → Prop
  /-- The answer to a message that was read off bytes, or the acknowledgement of what it asks. -/
  | answer {buffer rest : List UInt8} {m reply : Message} {t : Session}
      (hnext : Stream.next s.relay.config.maxMessageSize buffer = (.item (.message m), rest))
      (hreply : t.reply s.relay m = some reply) : Builds s reply
  | event {st : ServerStep} {e : MarketEvent} (h : s.event? st = some e) : Builds s e.toMessage
  | heartbeat (t : Session) (clock : Int64) : Builds s (Relay.heartbeatFor t clock)
  | farewell : Builds s Server.farewell

/-- What a message of a client may be answered. -/
inductive Replies (r : Relay) (m : Message) : Message → Prop
  | granted : Replies r m (r.logonResponse .success "logon successful")
  | refused : Replies r m (r.logonResponse .rejected "invalid credentials")
  | unknownSymbol {request : MarketDataRequest} (hm : m = .marketDataRequest request) :
      Replies r m (.marketDataReject
        ⟨request.symbolId, s!"unknown symbol {Relay.requestedName request}"⟩)
  | noRoom {request : MarketDataRequest} (hm : m = .marketDataRequest request) :
      Replies r m (.marketDataReject ⟨request.symbolId,
        s!"subscription limit of {r.config.maxSubscriptionsPerSession} reached"⟩)
  | snapshot {symbol : SymbolId} (h : r.symbols.contains symbol = true) :
      Replies r m (r.snapshotMessage symbol)

theorem replies_of_reply {r : Relay} {reply : Message} (h : t.reply r m = some reply) :
    Replies r m reply := by
  cases m with
  | logonRequest request =>
      simp only [Session.reply] at h
      split at h
      · cases h
        exact .granted
      · cases h
        exact .refused
  | marketDataRequest request =>
      simp only [Session.reply, Session.requestReply] at h
      split at h
      · split at h
        · cases h
          exact .unknownSymbol rfl
        · rename_i symbol hresolve
          have hsymbol := SymbolTable.contains_of_resolve hresolve
          split at h
          · split at h
            · cases h
              exact .snapshot hsymbol
            · cases h
              exact .noRoom rfl
          · cases h
          · cases h
            exact .snapshot hsymbol
      · cases h
  | _ => cases h

/-- What is true of all that waits for clients and of all that messages have left to send them. -/
structure Speaks (P : Message → Prop) (s : Service) : Prop where
  left : ∀ p ∈ s.left, ∀ e ∈ p.2, ∀ m, e.message? = some m → P m
  queued : ∀ t ∈ s.relay.registry.sessions, ∀ frame ∈ t.queue.frames, ∃ m, P m ∧ frame = m.encode

theorem speaks_ofConfig (P : Message → Prop) (c : Config) : Speaks P (ofConfig c) where
  left _ hp := absurd hp List.not_mem_nil
  queued _ ht := absurd ht List.not_mem_nil

/-- The message that a step pushes on a queue is built in the step, or was when what the step does
was left to do. -/
theorem builds_or_left_of_pushed (h : s.pushed st t = some m) :
    s.Builds m ∨ ∃ p ∈ s.left, ∃ e ∈ p.2, e.message? = some m := by
  have hevent : ∀ st, ((s.event? st).filter fun e => Relay.reaches e.symbolId t).map
      (·.toMessage) = some m → s.Builds m := by
    intro st h
    obtain ⟨e, he, rfl⟩ := Option.map_eq_some_iff.mp h
    exact .event (Option.filter_eq_some_iff.mp he).1
  cases st with
  | decode id' buffer now =>
      simp only [pushed] at h
      split at h
      · rename_i m' hnext
        split at h
        · obtain ⟨symbol, hack, rfl⟩ := Option.map_eq_some_iff.mp h
          exact Or.inl (.answer (Prod.ext hnext rfl) (Session.reply_of_acknowledged hack))
        · cases h
      · cases h
  | apply place now =>
      simp only [pushed] at h
      split at h
      · rename_i id' e effects hleft
        split at h
        · exact Or.inr ⟨_, List.mem_of_getElem? hleft, e, List.mem_cons_self, h⟩
        · cases h
      · cases h
  | takeLeave id' =>
      simp only [pushed] at h
      split at h
      · exact Or.inl (Option.some.inj h ▸ .farewell)
      · cases h
  | stop =>
      simp only [pushed] at h
      split at h
      · exact Or.inl (Option.some.inj h ▸ .farewell)
      · cases h
  | sweep now clock =>
      simp only [pushed] at h
      split at h
      · exact Or.inl (Option.some.inj h ▸ .heartbeat t clock)
      · cases h
  | feed name o elapsed => exact Or.inl (hevent _ h)
  | broadcast e elapsed => exact Or.inl (hevent _ h)
  | _ => cases h

theorem builds_of_handle {buffer rest : List UInt8} {m' : Message} {now : Instant} {e : Effect}
    (hnext : Stream.next s.relay.config.maxMessageSize buffer = (.item (.message m'), rest))
    (he : e ∈ ((s.relay.count .framesReceived).handle id m' now).2) (hm : e.message? = some m) :
    s.Builds m := by
  unfold Relay.handle at he
  split at he
  · cases he
  · rename_i t ht
    rw [Relay.effects_handleMessage, List.mem_append, List.mem_append] at he
    simp only [Option.mem_toList, Option.map_eq_some_iff] at he
    rcases he with (⟨username, -, rfl⟩ | ⟨reply, hreply, rfl⟩) | ⟨reason, -, rfl⟩
    · cases hm
    · cases hm
      split at hreply
      · cases hreply
      · exact .answer hnext hreply
    · cases hm

/-- What is true of all messages that are built in a state goes on to be true of all that a server
says. -/
theorem Speaks.step {P : Message → Prop} (h : Speaks P s) (hsound : Sound c s)
    (hbuilds : ∀ m, s.Builds m → P m) (st : ServerStep) : Speaks P (s.step st) where
  left := by
    intro p hp e he m hm
    rcases left_step hp he with ⟨q, hq, -, hold⟩ | ⟨buffer, rest, m', now, hnext, hnew⟩
    · exact h.left q hq e hold m hm
    · exact hbuilds m (builds_of_handle hnext hnew hm)
  queued := by
    intro u hu frame hframe
    have hnumbered := (hsound.step st).chronicled.numbered
    have hu' := (Registry.session?_eq_some_iff hnumbered).mpr ⟨hu, rfl⟩
    cases ht : s.relay.session? u.id with
    | none =>
        have hempty := (queue_step_of_none hsound ht st).1
        rw [Relay.queue_of_some hu'] at hempty
        rw [hempty] at hframe
        cases hframe
    | some t =>
        obtain ⟨u', hu'', hgets⟩ := gets_step hsound ht st
        obtain rfl := Option.some.inj (hu'.symm.trans hu'')
        rcases hgets.mem_frames hframe with hold | ⟨m, hpushed, rfl⟩
        · have hmem := (Registry.session?_eq_some_iff hsound.chronicled.numbered).mp ht
          exact h.queued t hmem.1 frame hold
        · refine ⟨m, ?_, rfl⟩
          rcases builds_or_left_of_pushed hpushed with hbuilt | ⟨p, hp, e, he, hm⟩
          · exact hbuilds m hbuilt
          · exact h.left p hp e he m hm

theorem Speaks.said {P : Message → Prop} (h : Speaks P s) (hsound : Sound c s)
    (hbuilds : ∀ s, Sound c s → ∀ m, s.Builds m → P m) (id : SessionId) (steps : List ServerStep) :
    ∀ m ∈ said id s steps, P m := by
  induction steps generalizing s with
  | nil => exact nofun
  | cons st steps ih =>
      intro m hm
      rcases List.mem_append.mp hm with hnow | hlater
      · unfold saidIn at hnow
        split at hnow
        · split at hnow
          · cases hnow
          · rcases builds_or_left_of_pushed (Option.mem_toList.mp hnow) with
              hbuilt | ⟨p, hp, e, he, hleft⟩
            · exact hbuilds s hsound m hbuilt
            · exact h.left p hp e he m hleft
        · cases hnow
      · exact ih (h.step hsound (hbuilds s hsound) st) (hsound.step st) m hlater

end Service
end MarketRelay
