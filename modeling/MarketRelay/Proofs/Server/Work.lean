import MarketRelay.Proofs.Relay.FanOut
import MarketRelay.Proofs.Relay.Reader
import MarketRelay.Proofs.Relay.Silence
import MarketRelay.Proofs.Wire.Segments

/-!
# A server at work

Those who take connections, the readers and the writers of sessions, the look for signs of life,
feeds and the owner of a server all work side by side.  A step is what one of them does before
another may come between: a reader handles one message in a step, and does what it left to do one
thing at a time.  A server that is stopped can be started again, and those who are not done yet with
their sessions go on meanwhile.

* `exists_run_read`: all that a reader does with bytes that its client sends is such steps, also
  where it gets them in portions and does things at moments of its own.  So what holds after every
  run of steps holds of readers as they are.
* `works_step`: what a step does to the relay is one of a few things, `Works`, which is what the
  invariants of a server are shown for.  It rests on another invariant: what messages have left to
  do is to answer their clients, and neither a heartbeat nor a timeout is among it (`Answers.step`).

Steps are numerous because the parts are small; `Works` is short because most of them do the same
kind of thing to the relay.
-/
namespace MarketRelay

inductive ServerStep where
  | start (bind : SocketAddress → Option SocketAddress) (now : Instant)
  | stop
  /-- Somebody connects. -/
  | accept (peer : SocketAddress) (now : Instant)
  /-- Leave is taken of a session that was admitted while the server was being stopped. -/
  | takeLeave (id : SessionId)
  /-- A reader looks for a whole frame in the bytes that it has, and handles the message in it. -/
  | decode (id : SessionId) (buffer : List UInt8) (now : Instant)
  /-- A reader does the next thing that one of the messages has left to do, which are counted in
  order of their handling. -/
  | apply (place : Nat) (now : Instant)
  | endReader (id : SessionId) (how : ReaderEnd)
  | failWriter (id : SessionId) (detail : String)
  /-- A writer takes what waits for its client. -/
  | drain (id : SessionId)
  | sweep (now : Instant) (clock : Int64)
  | feed (name : String) (o : Occurrence) (elapsed : Nat)
  | broadcast (e : MarketEvent) (elapsed : Nat)

/-- A server, and what the messages that were handled have left to do for their sessions. -/
structure Service where
  server : Server
  left : List (SessionId × List Effect)

namespace Relay

/-- The relay after a reader looked for a whole frame in the bytes that it has, and what the message
in it, if there is one, left to do. -/
def decodeNext (r : Relay) (id : SessionId) (buffer : List UInt8) (now : Instant) :
    Relay × Option (List Effect) :=
  match (Stream.next r.config.maxMessageSize buffer).1 with
  | .pending => (r, none)
  | .item (.unknown _ _) => (r.count .unknownFrames, none)
  | .item (.message m) =>
    let (r', effects) := (r.count .framesReceived).handle id m now
    (r', some effects)
  | .failed _ => (r.count .decodeErrors, none)

end Relay

namespace Service

def ofConfig (c : Config) : Service := ⟨⟨.ofConfig c, none⟩, []⟩

def relay (s : Service) : Relay := s.server.relay

/-- The service with another state of its relay. -/
def withRelay (s : Service) (r : Relay) : Service :=
  { s with server := { s.server with relay := r } }

/-- The service after a step.  A step that is refused changes nothing. -/
def step (s : Service) : ServerStep → Service
  | .start bind now =>
    match s.server.start bind now with
    | .ok server => { s with server := server }
    | .error _ => s
  | .stop => { s with server := s.server.stop }
  | .accept peer now => { s with server := (s.server.accept peer now).1 }
  | .takeLeave id => s.withRelay (Server.shutDownSession s.relay id)
  | .decode id buffer now =>
    let (r, effects?) := s.relay.decodeNext id buffer now
    { s.withRelay r with left := s.left ++ (effects?.map (id, ·)).toList }
  | .apply place now =>
    match s.left[place]? with
    | some (id, e :: effects) =>
      { s.withRelay (Relay.applyOne id now s.relay e) with left := s.left.set place (id, effects) }
    | _ => s
  | .endReader id how => s.withRelay (s.relay.conclude id (.ended how))
  | .failWriter id detail => s.withRelay (s.relay.close id (.io detail)).1
  | .drain id => s.withRelay (s.relay.drain id).2
  | .sweep now clock => s.withRelay (s.relay.sweep (.ofConfig s.relay.config) now clock).1
  | .feed name o elapsed => s.withRelay (s.relay.feed name o elapsed).1
  | .broadcast e elapsed => s.withRelay (s.relay.broadcast e elapsed).1

def run (s : Service) (steps : List ServerStep) : Service := steps.foldl step s

@[simp] theorem run_nil (s : Service) : s.run [] = s := rfl

@[simp] theorem run_cons (s : Service) (st : ServerStep) (steps : List ServerStep) :
    s.run (st :: steps) = (s.step st).run steps := rfl

theorem run_append (s : Service) (before after : List ServerStep) :
    s.run (before ++ after) = (s.run before).run after :=
  List.foldl_append

@[simp] theorem relay_step_start (s : Service) (bind : SocketAddress → Option SocketAddress)
    (now : Instant) : (s.step (.start bind now)).relay = s.relay := by
  rw [step]
  split
  · rename_i hstart
    exact Server.relay_of_start hstart
  · rfl

theorem relay_step_stop (s : Service) :
    (s.step .stop).relay = if s.server.isRunning then s.relay.step .stop else s.relay := by
  split
  · rename_i hrunning
    exact Relay.relay_stop hrunning
  · rename_i hrunning
    exact congrArg Server.relay (Server.stop_of_not_isRunning (Bool.eq_false_iff.mpr hrunning))

end Service

/-! ## Readers -/

namespace Relay

variable {r : Relay} {id : SessionId} {buffer rest : List UInt8} {clock : Nat → Instant × Instant}

theorem read_of_unknown {tag : UInt16} {size : Nat}
    (h : Stream.next r.config.maxMessageSize buffer = (.item (.unknown tag size), rest)) :
    r.read id [] ⟨buffer, clock⟩ = (r.count .unknownFrames).read id [] ⟨rest, clock⟩ := by
  simp only [read, List.nil_append, Stream.items_of_item h, dealWith]
  rfl

theorem read_of_message {m : Message}
    (h : Stream.next r.config.maxMessageSize buffer = (.item (.message m), rest)) :
    r.read id [] ⟨buffer, clock⟩ =
      let (r', effects) := (r.count .framesReceived).handle id m (clock 0).1
      match r'.apply id (clock 0).2 effects with
      | (r', true) => (r', .ended .sessionOver)
      | (r', false) => r'.read id [] ⟨rest, fun n => clock (n + 1)⟩ := by
  have hconfig : ((r.count .framesReceived).step
      (.message id m (clock 0).1 (clock 0).2)).config = r.config := config_step _ _
  simp only [step] at hconfig
  simp only [read, List.nil_append, Stream.items_of_item h, dealWith]
  cases happly : ((r.count .framesReceived).handle id m (clock 0).1).1.apply id (clock 0).2
      ((r.count .framesReceived).handle id m (clock 0).1).2 with
  | mk r' closed =>
      rw [happly] at hconfig
      cases closed with
      | true => rfl
      | false =>
          simp only at hconfig ⊢
          simp only [hconfig]

end Relay

namespace Service

variable {s : Service}

theorem run_apply {place : Nat} {id : SessionId} {effects : List Effect} (now : Instant)
    (h : s.left[place]? = some (id, effects)) :
    (s.run (List.replicate effects.length (.apply place now))).server =
      { s.server with relay := (s.relay.apply id now effects).1 } := by
  rw [Relay.apply_eq]
  induction effects generalizing s with
  | nil => rfl
  | cons e effects ih =>
      have hplace : place < s.left.length := (List.getElem?_eq_some_iff.mp h).1
      have hstep : s.step (.apply place now) =
          { s.withRelay (Relay.applyOne id now s.relay e) with
            left := s.left.set place (id, effects) } := by
        simp only [step, h]
      rw [List.length_cons, List.replicate_succ, run_cons, hstep,
        ih (List.getElem?_set_self hplace)]
      rfl

/-- A whole message is dealt with in steps between which nothing else comes. -/
theorem exists_run_message (id : SessionId) {buffer rest : List UInt8} {m : Message}
    (h : Stream.next s.relay.config.maxMessageSize buffer = (.item (.message m), rest))
    (handledAt appliedAt : Instant) :
    ∃ steps, (s.run steps).server = { s.server with
      relay := (s.relay.count .framesReceived).step (.message id m handledAt appliedAt) } := by
  let effects := ((s.relay.count .framesReceived).handle id m handledAt).2
  have hstep : s.step (.decode id buffer handledAt) =
      { s.withRelay ((s.relay.count .framesReceived).handle id m handledAt).1 with
        left := s.left ++ [(id, effects)] } := by
    simp [step, Relay.decodeNext, h, effects]
  have hleft : (s.step (.decode id buffer handledAt)).left[s.left.length]? =
      some (id, effects) := by
    rw [hstep]
    exact List.getElem?_concat_length
  refine ⟨.decode id buffer handledAt ::
    List.replicate effects.length (.apply s.left.length appliedAt), ?_⟩
  rw [run_cons, run_apply appliedAt hleft, hstep]
  rfl

/-- All that a reader does with a portion of bytes is steps. -/
theorem exists_run_read (s : Service) (id : SessionId) (buffer : List UInt8) (p : Portion) :
    ∃ steps, (s.run steps).server =
      { s.server with
        relay := (s.relay.read id buffer p).1.conclude id (s.relay.read id buffer p).2 } := by
  suffices hall : ∀ (limit : Nat) (bytes : List UInt8) (s : Service)
      (clock : Nat → Instant × Instant), s.relay.config.maxMessageSize = limit →
      ∃ steps, (s.run steps).server =
        { s.server with
          relay := (s.relay.read id [] ⟨bytes, clock⟩).1.conclude id
            (s.relay.read id [] ⟨bytes, clock⟩).2 } from
    hall s.relay.config.maxMessageSize (buffer ++ p.bytes) s p.clock rfl
  -- along the frames that the bytes hold; the clock moves on with each message
  intro limit bytes
  induction bytes using Stream.buffer_induction limit with
  | pending bytes h =>
      rintro s clock rfl
      refine ⟨[], ?_⟩
      rw [Relay.read, List.nil_append, Stream.items_of_pending h]
      rfl
  | failed bytes e rest h =>
      rintro s clock rfl
      refine ⟨[.decode id bytes 0, .endReader id (.malformed e)], ?_⟩
      have hstep : s.step (.decode id bytes 0) = s.withRelay (s.relay.count .decodeErrors) := by
        simp [step, Relay.decodeNext, h]
        rfl
      rw [run_cons, hstep, Relay.read, List.nil_append, Stream.items_of_failed h]
      rfl
  | item bytes x rest h ih =>
      rintro s clock rfl
      cases x with
      | unknown tag size =>
          obtain ⟨steps, hsteps⟩ := ih (s.withRelay (s.relay.count .unknownFrames)) clock rfl
          have hstep : s.step (.decode id bytes 0) =
              s.withRelay (s.relay.count .unknownFrames) := by
            simp [step, Relay.decodeNext, h]
            rfl
          refine ⟨.decode id bytes 0 :: steps, ?_⟩
          rw [run_cons, hstep, hsteps, Relay.read_of_unknown h]
          rfl
      | message m =>
          obtain ⟨steps, hsteps⟩ := exists_run_message id h (clock 0).1 (clock 0).2
          have hconfig : (s.run steps).relay.config = s.relay.config := by
            rw [relay, hsteps]
            exact Relay.config_step _ _
          rw [Relay.read_of_message h]
          simp only [Relay.step] at hsteps
          cases happly : ((s.relay.count .framesReceived).handle id m (clock 0).1).1.apply id
              (clock 0).2 ((s.relay.count .framesReceived).handle id m (clock 0).1).2 with
          | mk r' closed =>
              rw [happly] at hsteps
              cases closed with
              | true =>
                  refine ⟨steps, ?_⟩
                  rw [hsteps]
                  simp only [happly]
                  rfl
              | false =>
                  obtain ⟨more, hmore⟩ :=
                    ih (s.run steps) (fun n => clock (n + 1)) (congrArg _ hconfig)
                  refine ⟨steps ++ more, ?_⟩
                  rw [run_append, hmore, relay, hsteps]
                  simp only [happly]

end Service

/-! ## What a step does to the relay -/

namespace Relay

variable {r r' : Relay} {id : SessionId}

/-- What there is to do for a session whose message was handled: it is about that session, and
neither is a heartbeat sent nor a client dropped for its silence. -/
structure IsAnswering (id : SessionId) (e : Effect) : Prop where
  session : e.session = id
  sends : ∀ id' m, e = .send id' m → m.isAnswer = true
  closes : ∀ id' reason, e = .close id' reason → reason.isTimeout = false

theorem isAnswering_handle {m : Message} {now : Instant} {e : Effect}
    (h : e ∈ (r.handle id m now).2) : IsAnswering id e := by
  have hsession := session_of_mem_effects h
  unfold handle at h
  split at h
  · cases h
  · rename_i s hs
    rw [effects_handleMessage, List.mem_append, List.mem_append] at h
    simp only [Option.mem_toList, Option.map_eq_some_iff] at h
    rcases h with (⟨username, -, rfl⟩ | ⟨reply, hreply, rfl⟩) | ⟨reason, hreason, rfl⟩
    · exact ⟨hsession, nofun, nofun⟩
    · refine ⟨hsession, ?_, nofun⟩
      rintro _ _ ⟨⟩
      split at hreply
      · cases hreply
      · exact Session.isAnswer_reply hreply
    · refine ⟨hsession, nofun, ?_⟩
      rintro _ _ ⟨⟩
      exact Session.isTimeout_endingBy hreason

/-- What one of those who work at a server does to its relay. -/
inductive Works (r : Relay) : Relay → Prop
  | same : Works r r
  /-- Something is counted of a connection that is refused or of the bytes that a reader gets. -/
  | count (k : Counter) (hk : k = .connectionsRejected ∨ k = .unknownFrames ∨ k = .decodeErrors) :
      Works r (r.count k)
  | letIn (peer : SocketAddress) (now : Instant) {id : SessionId} {r' : Relay}
      (h : r.enlist peer now = .ok (id, r')) : Works r (r'.count .connectionsAccepted)
  | handle (id : SessionId) (m : Message) (now : Instant) :
      Works r ((r.count .framesReceived).handle id m now).1
  | apply (id : SessionId) (now : Instant) (e : Effect) (h : IsAnswering id e) :
      Works r (applyOne id now r e)
  | takeLeave (id : SessionId) : Works r (Server.shutDownSession r id)
  | stop : Works r (r.step .stop)
  | drain (id : SessionId) : Works r (r.step (.drain id))
  | sweep (l : Liveness) (now : Instant) (clock : Int64) : Works r (r.step (.sweep l now clock))
  | publish (e : MarketEvent) (elapsed : Nat) : Works r (r.step (.publish e elapsed))

theorem Works.config (h : Works r r') : r'.config = r.config := by
  cases h with
  | same => rfl
  | count k hk => rfl
  | letIn peer now henlist =>
      obtain ⟨-, -, s, -, -, -, rfl⟩ := exists_eq_of_enlist henlist
      rfl
  | handle id m now => exact congrArg Prod.fst (backdrop_handle (r.count .framesReceived) id m now)
  | apply id now e he => exact congrArg Prod.fst (backdrop_applyOne id now r e)
  | takeLeave id =>
      let pushed := r.modify id (·.push Server.farewell.encode)
      exact congrArg Prod.fst (backdrop_close pushed id .serverShutdown)
  | stop => exact config_step r .stop
  | drain id => exact config_step r (.drain id)
  | sweep l now clock => exact config_step r (.sweep l now clock)
  | publish e elapsed => exact config_step r (.publish e elapsed)

theorem Works.chronicled {past : List SessionEvent} (h : Works r r')
    (hchronicled : r.registry.Chronicled r.config.requireAuthentication past) :
    r'.registry.Chronicled r.config.requireAuthentication past := by
  cases h with
  | same => exact hchronicled
  | count k hk => exact hchronicled
  | letIn peer now henlist =>
      have hstep := chronicled_enlist hchronicled peer now
      rw [step, henlist] at hstep
      exact hstep
  | handle id m now => exact chronicled_handle (r := r.count .framesReceived) hchronicled id m now
  | apply id now e he => exact chronicled_applyOne hchronicled id now e
  | takeLeave id => exact chronicled_shutDownSession hchronicled id
  | stop => exact chronicled_step hchronicled .stop
  | drain id => exact chronicled_step hchronicled (.drain id)
  | sweep l now clock => exact chronicled_step hchronicled (.sweep l now clock)
  | publish e elapsed => exact chronicled_step hchronicled (.publish e elapsed)

theorem works_close (r : Relay) (id : SessionId) (reason : CloseReason)
    (h : reason.isTimeout = false) : Works r (r.close id reason).1 :=
  .apply id 0 (.close id reason) ⟨rfl, nofun, fun _ _ heq => (Effect.close.inj heq).2 ▸ h⟩

theorem conclude_ended (r : Relay) (id : SessionId) (how : ReaderEnd) :
    r.conclude id (.ended how) = r ∨ ∃ reason : CloseReason,
      reason.isTimeout = false ∧ r.conclude id (.ended how) = (r.close id reason).1 := by
  cases how with
  | sessionOver => exact Or.inl rfl
  | malformed error => exact Or.inr ⟨.protocolViolation error.message, rfl, rfl⟩
  | endOfStream => exact Or.inr ⟨.clientDisconnected, rfl, rfl⟩
  | failure detail => exact Or.inr ⟨.io detail, rfl, rfl⟩

theorem works_conclude (r : Relay) (id : SessionId) (how : ReaderEnd) :
    Works r (r.conclude id (.ended how)) := by
  rcases r.conclude_ended id how with heq | ⟨reason, hreason, heq⟩
  · rw [heq]
    exact .same
  · rw [heq]
    exact works_close r id reason hreason

theorem exists_of_decodeNext {id : SessionId} {buffer : List UInt8} {now : Instant}
    {effects : List Effect} (h : effects ∈ (r.decodeNext id buffer now).2) :
    ∃ rest m, Stream.next r.config.maxMessageSize buffer = (.item (.message m), rest) ∧
      effects = ((r.count .framesReceived).handle id m now).2 := by
  unfold decodeNext at h
  split at h
  · cases h
  · cases h
  · rename_i m hnext
    cases h
    exact ⟨_, m, Prod.ext hnext rfl, rfl⟩
  · cases h

theorem works_decodeNext (r : Relay) (id : SessionId) (buffer : List UInt8) (now : Instant) :
    Works r (r.decodeNext id buffer now).1 := by
  unfold decodeNext
  split
  · exact .same
  · exact .count .unknownFrames (Or.inr (Or.inl rfl))
  · exact .handle id _ now
  · exact .count .decodeErrors (Or.inr (Or.inr rfl))

theorem works_feed (r : Relay) (name : String) (o : Occurrence) (elapsed : Nat) :
    Works r (r.feed name o elapsed).1 := by
  unfold feed
  split
  · exact .same
  · split
    · exact .same
    · exact .publish _ elapsed

theorem works_broadcast (r : Relay) (e : MarketEvent) (elapsed : Nat) :
    Works r (r.broadcast e elapsed).1 := by
  unfold broadcast
  split
  · split
    · exact .same
    · exact .publish e elapsed
  · exact .same

end Relay

namespace Service

open Relay (IsAnswering Works)

variable {s : Service} {st : ServerStep}

/-- All that messages have left to do is to answer their clients. -/
def Answers (s : Service) : Prop := ∀ p ∈ s.left, ∀ e ∈ p.2, IsAnswering p.1 e

theorem works_accept (s : Server) (peer : SocketAddress) (now : Instant) :
    Works s.relay (s.accept peer now).1.relay := by
  unfold Server.accept
  split
  · rename_i henlist
    exact .letIn peer now henlist
  · exact .count .connectionsRejected (Or.inl rfl)

theorem left_step {p : SessionId × List Effect} {e : Effect} (hp : p ∈ (s.step st).left)
    (he : e ∈ p.2) :
    (∃ q ∈ s.left, q.1 = p.1 ∧ e ∈ q.2) ∨ ∃ buffer rest m now,
      Stream.next s.relay.config.maxMessageSize buffer = (.item (.message m), rest) ∧
        e ∈ ((s.relay.count .framesReceived).handle p.1 m now).2 := by
  have hsame : p ∈ s.left → ∃ q ∈ s.left, q.1 = p.1 ∧ e ∈ q.2 := fun hold => ⟨p, hold, rfl, he⟩
  cases st with
  | start bind now =>
      simp only [step] at hp
      split at hp
      · exact Or.inl (hsame hp)
      · exact Or.inl (hsame hp)
  | decode id buffer now =>
      simp only [step] at hp
      rcases List.mem_append.mp hp with hold | hnew
      · exact Or.inl (hsame hold)
      · rw [Option.mem_toList, Option.map_eq_some_iff] at hnew
        obtain ⟨effects, heffects, rfl⟩ := hnew
        obtain ⟨rest, m, hnext, rfl⟩ := Relay.exists_of_decodeNext heffects
        exact Or.inr ⟨buffer, rest, m, now, hnext, he⟩
  | apply place now =>
      simp only [step] at hp
      split at hp
      · rename_i id e' effects hleft
        rcases List.mem_or_eq_of_mem_set hp with hold | rfl
        · exact Or.inl (hsame hold)
        · exact Or.inl ⟨_, List.mem_of_getElem? hleft, rfl, List.mem_cons_of_mem e' he⟩
      · exact Or.inl (hsame hp)
  | _ => exact Or.inl (hsame hp)

theorem Answers.step (h : s.Answers) (st : ServerStep) : (s.step st).Answers := by
  intro p hp e he
  rcases left_step hp he with ⟨q, hq, hid, hold⟩ | ⟨buffer, rest, m, now, -, hnew⟩
  · exact hid ▸ h q hq e hold
  · exact Relay.isAnswering_handle hnew

/-- A step does one thing to the relay. -/
theorem works_step (h : s.Answers) (st : ServerStep) : Works s.relay (s.step st).relay := by
  cases st with
  | start bind now =>
      rw [relay_step_start]
      exact .same
  | stop =>
      rw [relay_step_stop]
      split
      · exact .stop
      · exact .same
  | accept peer now => exact works_accept s.server peer now
  | takeLeave id => exact .takeLeave id
  | decode id buffer now => exact s.relay.works_decodeNext id buffer now
  | apply place now =>
      simp only [Service.step]
      split
      · rename_i id e effects hleft
        exact .apply id now e (h _ (List.mem_of_getElem? hleft) e List.mem_cons_self)
      · exact .same
  | endReader id how => exact s.relay.works_conclude id how
  | failWriter id detail => exact s.relay.works_close id (.io detail) rfl
  | drain id => exact .drain id
  | sweep now clock => exact .sweep _ now clock
  | feed name o elapsed => exact s.relay.works_feed name o elapsed
  | broadcast e elapsed => exact s.relay.works_broadcast e elapsed

end Service
end MarketRelay
