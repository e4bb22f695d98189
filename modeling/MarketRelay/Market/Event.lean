import MarketRelay.Wire.Message

/-!
# Market events

A trade took place, or the best bid and offer of a symbol changed.

An `Occurrence` is what happened, without saying to which symbol; an event is an occurrence with the
number of its symbol.  Feeds tell of occurrences under the name of a symbol, the owner of a relay
tells of events.

Prices and quantities are carried as they were told, bit by bit, and the time is that of whoever
told of them: a relay neither rounds the ones nor looks at the other.  For every event there is one
message that tells subscribers of it, with the same values and nothing else.
-/
namespace MarketRelay

structure Trade where
  price : Binary64
  volume : Binary64
  side : Side
  timestamp : Int64
deriving DecidableEq, Repr

structure Quote where
  bidPrice : Binary64
  bidQuantity : Binary64
  askPrice : Binary64
  askQuantity : Binary64
  timestamp : Int64
deriving DecidableEq, Repr

inductive Occurrence where
  | trade (t : Trade)
  | quote (q : Quote)
deriving DecidableEq, Repr

structure MarketEvent where
  symbolId : SymbolId
  occurrence : Occurrence
deriving DecidableEq, Repr

namespace MarketEvent

def timestamp (e : MarketEvent) : Int64 :=
  match e.occurrence with
  | .trade t => t.timestamp
  | .quote q => q.timestamp

/-- The message that tells of an event. -/
def toMessage (e : MarketEvent) : Message :=
  match e.occurrence with
  | .trade t => .marketDataUpdateTrade ⟨e.symbolId, t.side, t.price, t.volume, t.timestamp⟩
  | .quote q =>
    .marketDataUpdateBidAsk
      ⟨e.symbolId, q.bidPrice, q.bidQuantity, q.askPrice, q.askQuantity, q.timestamp⟩

end MarketEvent
end MarketRelay
