import MarketRelay.Relay.Dispatch
import MarketRelay.Wire.Stream

/-!
# Readers

A reader takes the bytes that a client sends, in whatever portions they arrive, and has the relay
deal with the frames in them, in order.  What is no whole frame yet stays in its buffer until more
bytes come.

A reader ends in one of three ways.

* A message ends its session.  Frames that arrived with it, behind it, are not looked at.
* The bytes at the head of the buffer are no frame and cannot become one.  The session is closed
  for a breach of the wire language, after all frames before them were dealt with.
* The connection of the client ends, or fails (`hangUp`).

A frame with an unknown tag is none of these: it is counted and passed over.  A reader that ended
has left nothing listed, whoever closed the session first.
-/
namespace MarketRelay

/-- The receiving end of a session: the bytes that are no whole frame yet. -/
structure Reader where
  session : SessionId
  buffer : List UInt8
deriving DecidableEq, Repr

namespace Relay

/-- The relay after it dealt with frames of a session, up to one that ends the session, and whether
there was one. -/
def processItems (r : Relay) (id : SessionId) (now : Instant) :
    List StreamItem → Relay × Bool
  | [] => (r, false)
  | .unknown _ _ :: rest => (r.count .unknownFrames).processItems id now rest
  | .message m :: rest =>
    match (r.count .framesReceived).process id m now with
    | (r', true) => (r', true)
    | (r', false) => r'.processItems id now rest

def receive (r : Relay) (reader : Reader) (bytes : List UInt8) (now : Instant) :
    Relay × Option Reader :=
  let (items, ending) := Stream.items r.config.maxMessageSize (reader.buffer ++ bytes)
  match r.processItems reader.session now items with
  | (r', true) => (r', none)
  | (r', false) =>
    match ending with
    | .pending rest => (r', some { reader with buffer := rest })
    | .failed e =>
      (((r'.count .decodeErrors).close reader.session (.protocolViolation e.message)).1, none)

def hangUp (r : Relay) (reader : Reader) (failure : Option String) : Relay :=
  (r.close reader.session (failure.elim .clientDisconnected .io)).1

end Relay
end MarketRelay
