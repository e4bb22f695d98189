import MarketRelay.Relay.Basic

/-!
# Publishing

An event changes the state of its symbol's market and goes, as one frame, to every listed session
that it is meant for: one that has logged on and subscribes to the symbol.  The frame is encoded
once and pushed on each queue; a queue that is full evicts its oldest frame for it, and none of them
can hold up the others.

A subscription is acknowledged with the state of the symbol's market.  Both happen at once, and no
event comes between, so a session that starts from there and follows the events has the state of
the relay.  The acknowledgement is counted as queued in any case, also where the queue was closed
and did not take it.

A publication reports how many queues took its frame, and how many had to evict one for it.  It
counts the same, and notes how long it took.
-/
namespace MarketRelay

structure PublishReport where
  /-- The sessions whose queue took it. -/
  recipients : Nat
  /-- Those among them whose queue had to evict a frame for it. -/
  dropped : Nat
deriving DecidableEq, Repr

namespace Relay

/-- Whether an event of a symbol goes to a session. -/
def reaches (symbol : SymbolId) (s : Session) : Bool := s.isListed && s.receives symbol

def publishReport (r : Relay) (symbol : SymbolId) : PublishReport :=
  let targets := r.registry.sessions.filter (reaches symbol)
  { recipients := targets.countP (·.queue.outcome.isAccepted)
    dropped := targets.countP (·.queue.outcome == .droppedOldest) }

/-- The relay after an event was published, which took `elapsed` nanoseconds. -/
def publish (r : Relay) (e : MarketEvent) (elapsed : Nat) : PublishReport × Relay :=
  let frame := e.toMessage.encode
  let report := r.publishReport e.symbolId
  let sessions := r.registry.sessions.map fun s =>
    if reaches e.symbolId s then s.push frame else s
  (report,
    { r with
      registry := { r.registry with sessions := sessions }
      snapshots := r.snapshots.apply e
      metrics := r.metrics.recordPublish report.recipients report.dropped elapsed })

def snapshotMessage (r : Relay) (symbol : SymbolId) : Message :=
  .marketDataSnapshot (r.snapshots.get symbol)

/-- The relay after a session subscribed to a symbol and was sent the state of its market, as
acknowledgement, and whether the subscription is new.  The acknowledgement counts in any case. -/
def subscribe (r : Relay) (id : SessionId) (symbol : SymbolId) : Relay × Bool :=
  match r.session? id with
  | none => (r, false)
  | some s =>
    let frame := (r.snapshotMessage symbol).encode
    ((r.modify id fun s => (s.subscribe symbol).1.push frame).countEnqueue s.queue.outcome,
      (s.subscribe symbol).2)

end Relay
end MarketRelay
