import MarketRelay.Wire.Field

/-!
# Messages

The nine messages of the wire language: what each carries, its tag, its layout, and who may send
it.

A message is a value of `Message`, one constructor for each kind, with a record of what it carries.
The functions of the relay match on it and use the fields by their names.  On the wire it is the
values of a layout in order, which know nothing of names.  `Message.body` goes the one way and
`Message.ofBody` the other, each is the inverse of the other, and so the codec and the written data
form are stated once, for layouts.

A tag is a number that is given to a kind of message for good; the catalog has gaps, and the tags of
the gaps are unknown.  A client that sends a message of a kind that only the relay sends breaks the
rules of the language, although the message itself is fine.
-/
namespace MarketRelay

/-- The version of the wire language that the relay speaks. -/
def protocolVersion : Int32 := 8

/-- The number a symbol goes by on the wire. -/
abbrev SymbolId := UInt32

/-- The number of no symbol: a request with it names its symbol instead. -/
def SymbolId.unspecified : SymbolId := 0

/-! ## Kinds of messages -/

inductive MessageType where
  | logonRequest
  | logonResponse
  | heartbeat
  | logoff
  | marketDataRequest
  | marketDataReject
  | marketDataSnapshot
  | marketDataUpdateTrade
  | marketDataUpdateBidAsk
deriving DecidableEq, Repr

namespace MessageType

def all : List MessageType :=
  [.logonRequest, .logonResponse, .heartbeat, .logoff, .marketDataRequest, .marketDataReject,
    .marketDataSnapshot, .marketDataUpdateTrade, .marketDataUpdateBidAsk]

/-- The number that announces a message on the wire. -/
def tag : MessageType → UInt16
  | .logonRequest => 1
  | .logonResponse => 2
  | .heartbeat => 3
  | .logoff => 5
  | .marketDataRequest => 101
  | .marketDataReject => 103
  | .marketDataSnapshot => 104
  | .marketDataUpdateTrade => 107
  | .marketDataUpdateBidAsk => 108

def ofTag? (tag : UInt16) : Option MessageType := all.find? fun t => t.tag == tag

def name : MessageType → String
  | .logonRequest => "LogonRequest"
  | .logonResponse => "LogonResponse"
  | .heartbeat => "Heartbeat"
  | .logoff => "Logoff"
  | .marketDataRequest => "MarketDataRequest"
  | .marketDataReject => "MarketDataReject"
  | .marketDataSnapshot => "MarketDataSnapshot"
  | .marketDataUpdateTrade => "MarketDataUpdateTrade"
  | .marketDataUpdateBidAsk => "MarketDataUpdateBidAsk"

def ofName? (name : String) : Option MessageType := all.find? fun t => t.name == name

/-- The kinds of messages that a client may send. -/
def fromClient : MessageType → Bool
  | .logonRequest | .heartbeat | .logoff | .marketDataRequest => true
  | _ => false

/-- The fields of each kind of message, in wire order. -/
def layout : MessageType → Layout
  | .logonRequest =>
    [⟨"protocol_version", .int32⟩, ⟨"username", .text 32⟩, ⟨"password", .text 32⟩,
      ⟨"heartbeat_interval_secs", .int32⟩, ⟨"client_name", .text 32⟩]
  | .logonResponse =>
    [⟨"protocol_version", .int32⟩, ⟨"result", .logonStatus⟩, ⟨"result_text", .text 96⟩,
      ⟨"server_name", .text 48⟩, ⟨"market_data_supported", .flag⟩]
  | .heartbeat => [⟨"num_dropped_messages", .uint32⟩, ⟨"current_date_time", .int64⟩]
  | .logoff => [⟨"reason", .text 96⟩, ⟨"do_not_reconnect", .flag⟩]
  | .marketDataRequest =>
    [⟨"request_action", .requestAction⟩, ⟨"symbol_id", .uint32⟩, ⟨"symbol", .text 64⟩,
      ⟨"exchange", .text 16⟩]
  | .marketDataReject => [⟨"symbol_id", .uint32⟩, ⟨"reject_text", .text 96⟩]
  | .marketDataSnapshot =>
    [⟨"symbol_id", .uint32⟩, ⟨"last_trade_price", .binary64⟩, ⟨"last_trade_volume", .binary64⟩,
      ⟨"last_trade_timestamp", .int64⟩, ⟨"bid_price", .binary64⟩, ⟨"bid_quantity", .binary64⟩,
      ⟨"ask_price", .binary64⟩, ⟨"ask_quantity", .binary64⟩, ⟨"bid_ask_timestamp", .int64⟩]
  | .marketDataUpdateTrade =>
    [⟨"symbol_id", .uint32⟩, ⟨"side", .side⟩, ⟨"price", .binary64⟩, ⟨"volume", .binary64⟩,
      ⟨"timestamp", .int64⟩]
  | .marketDataUpdateBidAsk =>
    [⟨"symbol_id", .uint32⟩, ⟨"bid_price", .binary64⟩, ⟨"bid_quantity", .binary64⟩,
      ⟨"ask_price", .binary64⟩, ⟨"ask_quantity", .binary64⟩, ⟨"timestamp", .int64⟩]

end MessageType

/-! ## What each message carries -/

structure LogonRequest where
  protocolVersion : Int32
  username : String
  password : String
  heartbeatIntervalSecs : Int32
  clientName : String
deriving DecidableEq, Repr

/-- The relay answers a logon. -/
structure LogonResponse where
  protocolVersion : Int32
  result : LogonStatus
  resultText : String
  serverName : String
  marketDataSupported : Bool
deriving DecidableEq, Repr

/-- Either end is alive; the relay also tells how many frames the client lost. -/
structure Heartbeat where
  numDroppedMessages : UInt32
  currentDateTime : Int64
deriving DecidableEq, Repr

/-- Either end takes its leave. -/
structure Logoff where
  reason : String
  doNotReconnect : Bool
deriving DecidableEq, Repr

/-- A client asks for market data of one symbol, by name or by number. -/
structure MarketDataRequest where
  action : RequestAction
  symbolId : SymbolId
  symbol : String
  exchange : String
deriving DecidableEq, Repr

structure MarketDataReject where
  symbolId : SymbolId
  text : String
deriving DecidableEq, Repr

/-- The last trade and the last quote of a symbol. -/
structure MarketDataSnapshot where
  symbolId : SymbolId
  lastTradePrice : Binary64
  lastTradeVolume : Binary64
  lastTradeTimestamp : Int64
  bidPrice : Binary64
  bidQuantity : Binary64
  askPrice : Binary64
  askQuantity : Binary64
  bidAskTimestamp : Int64
deriving DecidableEq, Repr

structure TradeUpdate where
  symbolId : SymbolId
  side : Side
  price : Binary64
  volume : Binary64
  timestamp : Int64
deriving DecidableEq, Repr

structure BidAskUpdate where
  symbolId : SymbolId
  bidPrice : Binary64
  bidQuantity : Binary64
  askPrice : Binary64
  askQuantity : Binary64
  timestamp : Int64
deriving DecidableEq, Repr

inductive Message where
  | logonRequest (body : LogonRequest)
  | logonResponse (body : LogonResponse)
  | heartbeat (body : Heartbeat)
  | logoff (body : Logoff)
  | marketDataRequest (body : MarketDataRequest)
  | marketDataReject (body : MarketDataReject)
  | marketDataSnapshot (body : MarketDataSnapshot)
  | marketDataUpdateTrade (body : TradeUpdate)
  | marketDataUpdateBidAsk (body : BidAskUpdate)
deriving DecidableEq, Repr

namespace Message

def type : Message → MessageType
  | .logonRequest _ => .logonRequest
  | .logonResponse _ => .logonResponse
  | .heartbeat _ => .heartbeat
  | .logoff _ => .logoff
  | .marketDataRequest _ => .marketDataRequest
  | .marketDataReject _ => .marketDataReject
  | .marketDataSnapshot _ => .marketDataSnapshot
  | .marketDataUpdateTrade _ => .marketDataUpdateTrade
  | .marketDataUpdateBidAsk _ => .marketDataUpdateBidAsk

/-! ## Messages as values of their layouts -/

/-- The field values of a message, in wire order. -/
def body : (m : Message) → m.type.layout.Value
  | .logonRequest m =>
    (m.protocolVersion, m.username, m.password, m.heartbeatIntervalSecs, m.clientName, ())
  | .logonResponse m =>
    (m.protocolVersion, m.result, m.resultText, m.serverName, m.marketDataSupported, ())
  | .heartbeat m => (m.numDroppedMessages, m.currentDateTime, ())
  | .logoff m => (m.reason, m.doNotReconnect, ())
  | .marketDataRequest m => (m.action, m.symbolId, m.symbol, m.exchange, ())
  | .marketDataReject m => (m.symbolId, m.text, ())
  | .marketDataSnapshot m =>
    (m.symbolId, m.lastTradePrice, m.lastTradeVolume, m.lastTradeTimestamp, m.bidPrice,
      m.bidQuantity, m.askPrice, m.askQuantity, m.bidAskTimestamp, ())
  | .marketDataUpdateTrade m => (m.symbolId, m.side, m.price, m.volume, m.timestamp, ())
  | .marketDataUpdateBidAsk m =>
    (m.symbolId, m.bidPrice, m.bidQuantity, m.askPrice, m.askQuantity, m.timestamp, ())

/-- The message with given field values. -/
def ofBody : (type : MessageType) → type.layout.Value → Message
  | .logonRequest, (version, username, password, interval, client, _) =>
    .logonRequest ⟨version, username, password, interval, client⟩
  | .logonResponse, (version, result, text, server, supported, _) =>
    .logonResponse ⟨version, result, text, server, supported⟩
  | .heartbeat, (dropped, time, _) => .heartbeat ⟨dropped, time⟩
  | .logoff, (reason, doNotReconnect, _) => .logoff ⟨reason, doNotReconnect⟩
  | .marketDataRequest, (action, id, symbol, exchange, _) =>
    .marketDataRequest ⟨action, id, symbol, exchange⟩
  | .marketDataReject, (id, text, _) => .marketDataReject ⟨id, text⟩
  | .marketDataSnapshot, (id, price, volume, time, bid, bidQ, ask, askQ, quoteTime, _) =>
    .marketDataSnapshot ⟨id, price, volume, time, bid, bidQ, ask, askQ, quoteTime⟩
  | .marketDataUpdateTrade, (id, side, price, volume, time, _) =>
    .marketDataUpdateTrade ⟨id, side, price, volume, time⟩
  | .marketDataUpdateBidAsk, (id, bid, bidQ, ask, askQ, time, _) =>
    .marketDataUpdateBidAsk ⟨id, bid, bidQ, ask, askQ, time⟩

@[simp] theorem ofBody_body (m : Message) : ofBody m.type m.body = m := by
  cases m <;> rfl

@[simp] theorem type_ofBody (t : MessageType) (v : t.layout.Value) : (ofBody t v).type = t := by
  cases t <;> rfl

end Message
end MarketRelay
