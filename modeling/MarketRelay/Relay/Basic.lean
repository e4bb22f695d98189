import MarketRelay.Config.Basic
import MarketRelay.Market.Snapshot
import MarketRelay.Metrics.Counter
import MarketRelay.Session.Registry

/-!
# Relays

The state of a relay: its settings, its sessions, the last state of every symbol's market and what
it counted.  The steps that change it stand in the modules beside this one: `Publish` for market
data and subscriptions, `Sink` for the ways in which market data comes from outside, `Dispatch` and
`Reader` for what clients send, `Liveness` for the sweeps that look for silent clients.

Two kinds of operation stand here because all of these use them.

* `enqueue` pushes a message on the queue of a session, listed or not, as one does who holds on to
  the session.  The counters of queued and of dropped frames go with the outcome.
* `enlist` and `close` pass on to the registry with the settings and the counters of the relay.
  `close` answers as the registry does, whether the session was listed, and only then counts the
  reason, if it is one of those that clients are to blame for.
-/
namespace MarketRelay

structure Relay where
  config : Config
  registry : Registry
  snapshots : SnapshotCache
  metrics : Metrics
deriving DecidableEq

namespace Relay

/-- A relay before its first client and its first event. -/
def ofConfig (config : Config) : Relay := ⟨config, .empty config.maxClients, {}, .empty⟩

def symbols (r : Relay) : SymbolTable := .ofList r.config.symbols

/-- A session, listed or not. -/
def session? (r : Relay) (id : SessionId) : Option Session := r.registry.session? id

/-! ## Single changes -/

def count (r : Relay) (c : Counter) : Relay := { r with metrics := r.metrics.incr c }

/-- The relay after one frame was queued. -/
def countEnqueue (r : Relay) (outcome : PushOutcome) : Relay :=
  { r with metrics := r.metrics.recordEnqueue (outcome == .droppedOldest) }

def modify (r : Relay) (id : SessionId) (f : Session → Session) : Relay :=
  { r with registry := r.registry.modify id f }

/-- The relay after a message was pushed on a session's queue; it counts unless it was refused. -/
def enqueue (r : Relay) (id : SessionId) (m : Message) : Relay :=
  match r.session? id with
  | none => r
  | some s =>
    let r' := r.modify id (·.push m.encode)
    if s.queue.outcome.isAccepted then r'.countEnqueue s.queue.outcome else r'

/-- The relay after the frames that wait for a session were taken, and these frames. -/
def drain (r : Relay) (id : SessionId) : List (List UInt8) × Relay :=
  (((r.session? id).map (·.queue.frames)).getD [], r.modify id (·.drain))

/-! ## Admission and ends -/

def enlist (r : Relay) (peer : SocketAddress) (now : Instant) :
    Except CapacityExceeded (SessionId × Relay) :=
  match r.registry.enlist peer now (!r.config.requireAuthentication)
      r.config.outboundQueueCapacity with
  | .ok (id, registry) => .ok (id, { r with registry := registry })
  | .error e => .error e

/-- The counter of a reason that clients are to blame for. -/
def blameCounter? : CloseReason → Option Counter
  | .protocolViolation _ => some .protocolViolations
  | .authenticationFailed => some .logonsRejected
  | _ => none

def close (r : Relay) (id : SessionId) (reason : CloseReason) : Relay × Bool :=
  let (registry, closed) := r.registry.close id reason
  let r' := { r with registry := registry }
  match blameCounter? reason with
  | some c => (if closed then r'.count c else r', closed)
  | none => (r', closed)

end Relay
end MarketRelay
