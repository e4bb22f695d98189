import MarketRelay.Proofs.Relay.Reachable

/-!
# The life of a reader

A reader gets bytes in portions until it ends: with a message that ends its session, with a frame
that is not of the wire language, with its connection, or because it learns that the session was
ended elsewhere.  Every message that a portion completes is handled, and what it leaves to do is
done, at moments of its own.  Once the reader ended, the session is closed for the reason it gives
(`conclude`).

The functions here are for statements about all that a reader does.  They take the moments from a
clock, so that time may pass between two messages of one portion, and between a message and what it
leaves to do.  `Relay.receive` and `Relay.hangUp`, which run, are such a reader with one moment for
all of a portion (`receive_eq_read`, `hangUp_eq_conclude`), and what is said of the one is said of
the others.

A reader takes steps and counts what it sees, so it does not lead out of the states that a relay can
be in.
-/
namespace MarketRelay

/-- Bytes that a client sends, and the moments at which the messages that they complete are handled
and at which what these leave to do is done, in order. -/
structure Portion where
  bytes : List UInt8
  clock : Nat → Instant × Instant

inductive ReaderEnd where
  /-- By a message that ends the session, or because the session was ended elsewhere. -/
  | sessionOver
  | malformed (error : DecodeError)
  | endOfStream
  | failure (detail : String)
deriving DecidableEq

/-- The reason for which a session is closed when its reader ended, unless it is over already. -/
def ReaderEnd.reason? : ReaderEnd → Option CloseReason
  | .sessionOver => none
  | .malformed error => some (.protocolViolation error.message)
  | .endOfStream => some .clientDisconnected
  | .failure detail => some (.io detail)

inductive ReaderState where
  /-- It waits for more bytes behind these, which are no whole frame. -/
  | waiting (buffer : List UInt8)
  | ended (how : ReaderEnd)
deriving DecidableEq

/-- What a waiting reader can meet instead of more bytes. -/
inductive Interruption where
  | endOfStream
  | failure (detail : String)
  /-- The token of the session is cancelled, if it is. -/
  | cancellation

namespace Relay

/-! ## The reader -/

/-- The relay after it dealt with frames of a session, each message at its own moments, up to one
that ends the session, and whether there was one. -/
def dealWith (id : SessionId) (clock : Nat → Instant × Instant) (r : Relay) :
    List StreamItem → Relay × Bool
  | [] => (r, false)
  | .unknown _ _ :: rest => dealWith id clock (r.count .unknownFrames) rest
  | .message m :: rest =>
    let (handledAt, appliedAt) := clock 0
    let (r', effects) := (r.count .framesReceived).handle id m handledAt
    match r'.apply id appliedAt effects with
    | (r', true) => (r', true)
    | (r', false) => dealWith id (fun n => clock (n + 1)) r' rest

/-- The relay after a reader got a portion of bytes behind those it kept, and what became of the
reader. -/
def read (r : Relay) (id : SessionId) (buffer : List UInt8) (p : Portion) :
    Relay × ReaderState :=
  let (items, ending) := Stream.items r.config.maxMessageSize (buffer ++ p.bytes)
  match dealWith id p.clock r items, ending with
  | (r', true), _ => (r', .ended .sessionOver)
  | (r', false), .pending rest => (r', .waiting rest)
  | (r', false), .failed error => (r'.count .decodeErrors, .ended (.malformed error))

/-- The relay after a reader got portions one after another, as far as it reads, and what became of
the reader. -/
def readAll (id : SessionId) (r : Relay) (buffer : List UInt8) :
    List Portion → Relay × ReaderState
  | [] => (r, .waiting buffer)
  | p :: portions =>
    match r.read id buffer p with
    | (r', .waiting rest) => readAll id r' rest portions
    | (r', .ended how) => (r', .ended how)

/-- What becomes of a reader that meets something else while it waits. -/
def interrupt (r : Relay) (id : SessionId) : ReaderState → Option Interruption → ReaderState
  | .waiting _, some .endOfStream => .ended .endOfStream
  | .waiting _, some (.failure detail) => .ended (.failure detail)
  | .waiting buffer, some .cancellation =>
    if (r.session? id).any (·.isCancelled) then .ended .sessionOver else .waiting buffer
  | state, _ => state

/-- The relay once the session of a reader that ended was closed for the reason that it gives. -/
def conclude (r : Relay) (id : SessionId) : ReaderState → Relay
  | .waiting _ => r
  | .ended how =>
    match how.reason? with
    | some reason => (r.close id reason).1
    | none => r

/-! ## One moment for a portion -/

theorem processItems_eq_dealWith (r : Relay) (id : SessionId) (now : Instant)
    (items : List StreamItem) :
    r.processItems id now items = dealWith id (fun _ => (now, now)) r items := by
  induction items generalizing r with
  | nil => rfl
  | cons item rest ih =>
      cases item with
      | unknown tag size => exact ih _
      | message m =>
          simp only [processItems, dealWith, process]
          cases ((r.count .framesReceived).handle id m now).1.apply id now
              ((r.count .framesReceived).handle id m now).2 with
          | mk r' closed =>
              cases closed with
              | true => rfl
              | false => exact ih r'

theorem receive_eq_read (r : Relay) (reader : Reader) (bytes : List UInt8) (now : Instant) :
    r.receive reader bytes now =
      match r.read reader.session reader.buffer ⟨bytes, fun _ => (now, now)⟩ with
      | (r', .waiting rest) => (r', some { reader with buffer := rest })
      | (r', .ended how) => (r'.conclude reader.session (.ended how), none) := by
  rw [receive, read]
  cases Stream.items r.config.maxMessageSize (reader.buffer ++ bytes) with
  | mk items ending =>
      simp only
      rw [processItems_eq_dealWith]
      cases dealWith reader.session (fun _ => (now, now)) r items with
      | mk r' isOver =>
          cases isOver with
          | true => rfl
          | false => cases ending <;> rfl

theorem hangUp_eq_conclude (r : Relay) (reader : Reader) (failure : Option String) :
    r.hangUp reader failure =
      r.conclude reader.session (.ended (failure.elim .endOfStream .failure)) := by
  cases failure <;> rfl

/-! ## Reachable states -/

namespace Reachable

variable {c : Config} {r : Relay}

theorem dealWith (h : Reachable c r) (id : SessionId) (clock : Nat → Instant × Instant)
    (items : List StreamItem) : Reachable c (dealWith id clock r items).1 := by
  induction items generalizing r clock with
  | nil => exact h
  | cons item rest ih =>
      cases item with
      | unknown tag size => exact ih (h.count .unknownFrames) clock
      | message m =>
          have hstep := (h.count .framesReceived).step (.message id m (clock 0).1 (clock 0).2)
          simp only [Relay.step] at hstep
          simp only [Relay.dealWith]
          cases happly : ((r.count .framesReceived).handle id m (clock 0).1).1.apply id (clock 0).2
              ((r.count .framesReceived).handle id m (clock 0).1).2 with
          | mk r' closed =>
              rw [happly] at hstep
              cases closed with
              | true => exact hstep
              | false => exact ih hstep _

theorem read (h : Reachable c r) (id : SessionId) (buffer : List UInt8) (p : Portion) :
    Reachable c (r.read id buffer p).1 := by
  rw [Relay.read]
  cases Stream.items r.config.maxMessageSize (buffer ++ p.bytes) with
  | mk items ending =>
      have hitems := h.dealWith id p.clock items
      simp only
      cases hdealt : Relay.dealWith id p.clock r items with
      | mk r' isOver =>
          rw [hdealt] at hitems
          cases isOver with
          | true => exact hitems
          | false =>
              cases ending with
              | pending rest => exact hitems
              | failed error => exact hitems.count .decodeErrors

theorem readAll (h : Reachable c r) (id : SessionId) (buffer : List UInt8)
    (portions : List Portion) : Reachable c (readAll id r buffer portions).1 := by
  induction portions generalizing r buffer with
  | nil => exact h
  | cons p portions ih =>
      have hread := h.read id buffer p
      rw [Relay.readAll]
      cases hp : r.read id buffer p with
      | mk r' state =>
          rw [hp] at hread
          cases state with
          | waiting rest => exact ih hread rest
          | ended how => exact hread

theorem conclude (h : Reachable c r) (id : SessionId) (state : ReaderState) :
    Reachable c (r.conclude id state) := by
  cases state with
  | waiting buffer => exact h
  | ended how =>
      cases how with
      | sessionOver => exact h
      | _ => exact h.step (.close id _)

theorem receive (h : Reachable c r) (reader : Reader) (bytes : List UInt8) (now : Instant) :
    Reachable c (r.receive reader bytes now).1 := by
  have hread := h.read reader.session reader.buffer ⟨bytes, fun _ => (now, now)⟩
  rw [receive_eq_read]
  split
  · rename_i hp
    rw [hp] at hread
    exact hread
  · rename_i how hp
    rw [hp] at hread
    exact hread.conclude reader.session (.ended how)

theorem hangUp (h : Reachable c r) (reader : Reader) (failure : Option String) :
    Reachable c (r.hangUp reader failure) := by
  rw [hangUp_eq_conclude]
  exact h.conclude reader.session _

end Reachable

end Relay
end MarketRelay
