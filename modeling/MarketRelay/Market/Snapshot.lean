import MarketRelay.Market.Event

/-!
# Snapshots

The state of a symbol's market is its last trade and its last quote, each zero until there is one.
The two do not depend on each other: a trade leaves the quote as it was, with the time that it had,
and the other way round.

The cache holds the state of every symbol that had an event.  For a symbol without one it tells the
blank state, so that whoever asks gets an answer for any symbol, and asking does not change what is
held.  An event changes the state of its own symbol and no other.  Events are taken in the order in
which they are told; their own times are kept, but not compared.
-/
namespace MarketRelay

namespace MarketDataSnapshot

def blank (id : SymbolId) : MarketDataSnapshot :=
  ⟨id, .zero, .zero, 0, .zero, .zero, .zero, .zero, 0⟩

def apply (s : MarketDataSnapshot) : Occurrence → MarketDataSnapshot
  | .trade t =>
    { s with
      lastTradePrice := t.price
      lastTradeVolume := t.volume
      lastTradeTimestamp := t.timestamp }
  | .quote q =>
    { s with
      bidPrice := q.bidPrice
      bidQuantity := q.bidQuantity
      askPrice := q.askPrice
      askQuantity := q.askQuantity
      bidAskTimestamp := q.timestamp }

end MarketDataSnapshot

structure SnapshotCache where
  entries : List MarketDataSnapshot := []
deriving DecidableEq, Repr

namespace SnapshotCache

def get (c : SnapshotCache) (id : SymbolId) : MarketDataSnapshot :=
  (c.entries.find? fun s => s.symbolId == id).getD (.blank id)

def contains (c : SnapshotCache) (id : SymbolId) : Bool :=
  c.entries.any fun s => s.symbolId == id

def apply (c : SnapshotCache) (e : MarketEvent) : SnapshotCache :=
  if c.contains e.symbolId then
    ⟨c.entries.map fun s => if s.symbolId == e.symbolId then s.apply e.occurrence else s⟩
  else ⟨c.entries ++ [(MarketDataSnapshot.blank e.symbolId).apply e.occurrence]⟩

def size (c : SnapshotCache) : Nat := c.entries.length

end SnapshotCache
end MarketRelay
