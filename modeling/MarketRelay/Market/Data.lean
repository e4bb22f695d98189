import MarketRelay.Market.Event
import MarketRelay.Market.Symbol
import MarketRelay.Wire.Data

/-!
# Events and symbols as data

The written forms of market events and symbol entries.

What happened is a record that names its kind in a member of its own, and has the fields of that
kind beside it.  Where it is written as a list, the kind comes first and the fields follow in order.
An event is a record of two members, the number of its symbol and what happened.

The side of a trade is a label, which may stand alone or as the one key of a record that holds
nothing; here, and nowhere else, an empty record counts as nothing, too.  Prices and quantities may
be written as integers.

A symbol is a record of number, name and exchange, where the exchange may be left out.
-/
namespace MarketRelay

/-! ## Events -/

/-- The name of the member that tells the kind of an occurrence. -/
def Occurrence.kindName : String := "event_type"

namespace Trade

def fieldNames : List String := ["price", "volume", "side", "timestamp"]

def toEntries (t : Trade) : List (String × Data) :=
  [("price", .real t.price), ("volume", .real t.volume), ("side", .text (Choice.label t.side)),
    ("timestamp", .int t.timestamp.toInt)]

/-- The side of a trade; an empty record holds nothing either. -/
def side? : Data → Option Side
  | .record [(label, .record [])] => Choice.ofLabel? label
  | d => d.choice? Side

def ofData? (d : Data) : Option Trade := do
  let [some price, some volume, some side, some time] ← d.fields? (fieldNames.map ([·])) false
    | none
  return ⟨← price.real?, ← volume.real?, ← side? side, Int64.ofInt (← time.signed? 64)⟩

end Trade

namespace Quote

def fieldNames : List String :=
  ["bid_price", "bid_quantity", "ask_price", "ask_quantity", "timestamp"]

def toEntries (q : Quote) : List (String × Data) :=
  [("bid_price", .real q.bidPrice), ("bid_quantity", .real q.bidQuantity),
    ("ask_price", .real q.askPrice), ("ask_quantity", .real q.askQuantity),
    ("timestamp", .int q.timestamp.toInt)]

def ofData? (d : Data) : Option Quote := do
  let [some bid, some bidQ, some ask, some askQ, some time] ←
      d.fields? (fieldNames.map ([·])) false
    | none
  return ⟨← bid.real?, ← bidQ.real?, ← ask.real?, ← askQ.real?, Int64.ofInt (← time.signed? 64)⟩

end Quote

namespace Occurrence

def toData : Occurrence → Data
  | .trade t => .record ((kindName, .text "Trade") :: t.toEntries)
  | .quote q => .record ((kindName, .text "BidAsk") :: q.toEntries)

/-- The kind of an occurrence and the data of its fields. -/
def split? : Data → Option (String × Data)
  | .record entries => do
    let kind ← (← Data.member? [kindName] entries)
    return (← kind.text?, .record (entries.filter (·.1 ≠ kindName)))
  | .list (.text kind :: items) => some (kind, .list items)
  | _ => none

def ofData? (d : Data) : Option Occurrence := do
  match ← split? d with
  | ("Trade", fields) => return .trade (← Trade.ofData? fields)
  | ("BidAsk", fields) => return .quote (← Quote.ofData? fields)
  | _ => none

end Occurrence

namespace MarketEvent

def toData (e : MarketEvent) : Data :=
  .record [("symbol_id", .int e.symbolId.toNat), ("payload", e.occurrence.toData)]

def ofData? (d : Data) : Option MarketEvent := do
  let [some id, some payload] ← d.fields? [["symbol_id"], ["payload"]] false | none
  return ⟨UInt32.ofNat (← id.nat? 32), ← Occurrence.ofData? payload⟩

end MarketEvent

/-! ## Symbols -/

namespace SymbolEntry

def toData (e : SymbolEntry) : Data :=
  .record [("id", .int e.id.toNat), ("symbol", .text e.name), ("exchange", .text e.exchange)]

def ofData? (surplus : Bool) (d : Data) : Option SymbolEntry := do
  let [some id, some name, exchange] ← d.fields? [["id"], ["symbol"], ["exchange"]] surplus
    | none
  let exchange ← match exchange with
    | some e => e.text?
    | none => some ""
  return ⟨UInt32.ofNat (← id.nat? 32), ← name.text?, exchange⟩

end SymbolEntry
end MarketRelay
