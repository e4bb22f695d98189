import MarketRelay.Relay.Publish
import MarketRelay.Decimal.Shortest

/-!
# Market data from outside

A feed names its symbols, the owner of a relay gives their numbers.  Either way what is told is
looked at before anything is published.

* The symbol has to be one of the table.  This comes first, so that of an unknown symbol no value is
  complained of.
* All prices and quantities have to be amounts, which is to say finite and at least zero.  They are
  looked at in order, and the first one that is not is named together with its value.

The two ways differ in what they call quantities in a refusal, sizes the one and quantities the
other; otherwise they share what they do.  Both answer with the report on the publication or with
the reason why there was none, and both return the relay: after a refusal it is the one that they
were given.
-/
namespace MarketRelay

inductive FeedError where
  | unknownSymbol (name : String)
  | invalidValue (field : String) (value : Binary64)
  | disconnected (feed reason : String)
deriving DecidableEq, Repr

def FeedError.message : FeedError → String
  | .unknownSymbol name => s!"unknown symbol {name}"
  | .invalidValue field value => s!"{field} must be finite and non-negative, got {value.text}"
  | .disconnected feed reason => s!"feed {feed} disconnected: {reason}"

inductive RelayError where
  | alreadyRunning
  | bindFailed (address : SocketAddress)
  | config (error : ConfigError)
  | unknownSymbol (id : SymbolId)
  | feed (error : FeedError)
deriving DecidableEq

/-- The wording of what is wrong with a configuration. -/
def invalidConfiguration (detail : String) : String := s!"invalid configuration: {detail}"

def RelayError.message : RelayError → String
  | .alreadyRunning => "server is already running"
  | .bindFailed address => s!"failed to bind {address.text}"
  | .config error => invalidConfiguration error.message
  | .unknownSymbol id => s!"unknown symbol id {id}"
  | .feed error => s!"invalid market data: {error.message}"

/-- Refuses the first value that no market quotes. -/
def checkAmounts : List (String × Binary64) → Except FeedError Unit
  | [] => .ok ()
  | (field, value) :: rest =>
    if value.isAmount then checkAmounts rest else .error (.invalidValue field value)

def Trade.amounts (t : Trade) : List (String × Binary64) :=
  [("price", t.price), ("volume", t.volume)]

/-- The values of a quote that must be amounts, its quantities under a given name. -/
def Quote.amounts (q : Quote) (quantity : String) : List (String × Binary64) :=
  [("bid_price", q.bidPrice), ("bid_" ++ quantity, q.bidQuantity), ("ask_price", q.askPrice),
    ("ask_" ++ quantity, q.askQuantity)]

def Occurrence.amounts (quantity : String) : Occurrence → List (String × Binary64)
  | .trade t => t.amounts
  | .quote q => q.amounts quantity

namespace Relay

/-- The relay after a feed told of a symbol, and how that was published or why it was refused. -/
def feed (r : Relay) (name : String) (o : Occurrence) (elapsed : Nat) :
    Relay × Except FeedError PublishReport :=
  match r.symbols.idOf? name with
  | none => (r, .error (.unknownSymbol name))
  | some id =>
    match checkAmounts (o.amounts "size") with
    | .error e => (r, .error e)
    | .ok () =>
      let (report, r') := r.publish ⟨id, o⟩ elapsed
      (r', .ok report)

/-- The relay after its owner told of a symbol, and how that was published or why it was refused. -/
def broadcast (r : Relay) (e : MarketEvent) (elapsed : Nat) :
    Relay × Except RelayError PublishReport :=
  if r.symbols.contains e.symbolId then
    match checkAmounts (e.occurrence.amounts "quantity") with
    | .error error => (r, .error (.feed error))
    | .ok () =>
      let (report, r') := r.publish e elapsed
      (r', .ok report)
  else (r, .error (.unknownSymbol e.symbolId))

end Relay
end MarketRelay
