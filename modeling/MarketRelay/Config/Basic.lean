import MarketRelay.Market.Symbol
import MarketRelay.Net.Address
import MarketRelay.Wire.Codec

/-!
# Configurations

What the owner of a relay can set, what holds where nothing is set, and which settings a relay
cannot run with.

`Config.validate` goes through the settings in a fixed order and names the first bad one.  It looks
for what would keep the relay from running or would make it useless to every client.

* A heartbeat interval of zero or of more than a day, no room for a client, no room for a frame.
* Frames that are too small for the answer to a logon, or larger than a header can declare.
* A logon that is needed but has no password to ask for.
* An address to listen on that is none.
* Symbols that a client could not tell apart or could not ask for: numbers and names are different
  from each other, no number is the one of no symbol, and a name has room in the field of a request.

Texts that have no room elsewhere are not looked for: the name of an exchange, a password and the
name of the server itself may be longer than the fields that carry them.
-/
namespace MarketRelay

structure Config where
  bindAddress : String := "0.0.0.0"
  port : UInt16 := 11099
  /-- Told to clients when they log on. -/
  serverName : String := "dtc-server"
  /-- The most sessions at a time. -/
  maxClients : Nat := 100
  requireAuthentication : Bool := false
  /-- What a logon must carry where one is required. -/
  password : String := ""
  heartbeatIntervalSecs : Nat := 30
  enableLogging : Bool := true
  /-- How long a client may take to log on. -/
  logonTimeoutSecs : Nat := 60
  /-- The largest frame taken from a client. -/
  maxMessageSize : Nat := defaultFrameLimit
  outboundQueueCapacity : Nat := 1024
  maxSubscriptionsPerSession : Nat := 100
  /-- Where the status is served, if it is. -/
  statusPort : Option UInt16 := none
  symbols : List SymbolEntry := [⟨1, "BTC-USD", ""⟩, ⟨2, "ETH-USD", ""⟩, ⟨3, "SOL-USD", ""⟩]
deriving DecidableEq, Repr

inductive ConfigError where
  | heartbeatInterval
  | noClients
  | noQueue
  | messageSize
  | noPassword
  | bindAddress (text : String)
  | reservedId (name : String)
  | nameLength (id : SymbolId)
  | duplicateId (id : SymbolId)
  | duplicateName (name : String)
deriving DecidableEq, Repr

namespace Config

/-- The longest heartbeat interval: a day. -/
def maxHeartbeatIntervalSecs : Nat := 86400

/-- The bytes that a symbol's name can have in a request. -/
def maxNameSize : Nat := 64

/-- The size of the largest frame: clients must be able to take the answer to a logon. -/
def minMessageSize : Nat := headerSize + MessageType.logonResponse.layout.width

/-- The largest size that a header can declare. -/
def maxMessageSizeLimit : Nat := 65535

end Config

def ConfigError.message : ConfigError → String
  | .heartbeatInterval =>
    s!"heartbeat_interval must be between 1 and {Config.maxHeartbeatIntervalSecs} seconds"
  | .noClients => "max_clients must be positive"
  | .noQueue => "outbound_queue_capacity must be positive"
  | .messageSize =>
    s!"max_message_size must be between {Config.minMessageSize} and {Config.maxMessageSizeLimit}"
  | .noPassword => "require_authentication is set but no password is configured"
  | .bindAddress text => s!"bad bind address {text}"
  | .reservedId name => s!"symbol {name} has reserved id 0"
  | .nameLength id => s!"symbol {id} name must be 1..={Config.maxNameSize} bytes"
  | .duplicateId id => s!"duplicate symbol id {id}"
  | .duplicateName name => s!"duplicate symbol name {name}"

namespace Config

/-- The address to listen on. -/
def listenAddress (c : Config) : Except ConfigError SocketAddress :=
  match IpAddress.ofText? c.bindAddress with
  | some ip => .ok (.ofIp ip c.port)
  | none => .error (.bindAddress c.bindAddress)

/-- A symbol that can be requested and is unlike those before it. -/
def checkSymbol (ids : List SymbolId) (names : List String) (s : SymbolEntry) :
    Except ConfigError Unit :=
  if s.id = .unspecified then .error (.reservedId s.name)
  else if s.name = "" ∨ maxNameSize < s.name.utf8ByteSize then .error (.nameLength s.id)
  else if s.id ∈ ids then .error (.duplicateId s.id)
  else if s.name ∈ names then .error (.duplicateName s.name)
  else .ok ()

/-- Symbols that can be requested and told apart, given the numbers and names before them. -/
def checkSymbols (ids : List SymbolId) (names : List String) :
    List SymbolEntry → Except ConfigError Unit
  | [] => .ok ()
  | s :: rest =>
    match checkSymbol ids names s with
    | .error e => .error e
    | .ok () => checkSymbols (s.id :: ids) (s.name :: names) rest

/-- Settings that a relay can run with. -/
def validate (c : Config) : Except ConfigError Unit :=
  if c.heartbeatIntervalSecs = 0 ∨ maxHeartbeatIntervalSecs < c.heartbeatIntervalSecs then
    .error .heartbeatInterval
  else if c.maxClients = 0 then .error .noClients
  else if c.outboundQueueCapacity = 0 then .error .noQueue
  else if c.maxMessageSize < minMessageSize ∨ maxMessageSizeLimit < c.maxMessageSize then
    .error .messageSize
  else if c.requireAuthentication ∧ c.password = "" then .error .noPassword
  else
    match c.listenAddress with
    | .error e => .error e
    | .ok _ => checkSymbols [] [] c.symbols

end Config
end MarketRelay
