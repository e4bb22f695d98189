import MarketRelay.Config.Basic
import MarketRelay.Market.Data
import MarketRelay.Data.Toml.Reader

/-!
# Configurations as data

The written form of a configuration.

Every setting may be left out, and then has the value that it has in the default configuration.
Members with other names do not matter.  Two settings go by a shorter name as well, but not by both
at once.  A setting that is there must be of the right kind and in its range, or the whole is
refused; there is no falling back to the default.

The form is the same in TOML, which configuration files are written in, and in JSON.  They differ in
one point: where the configuration or a symbol of it is written as the list of its fields in order,
TOML lets that list go on behind the last field.  This is what `surplus` says.
-/
namespace MarketRelay.Config

def fieldNames : List (List String) :=
  [["bind_address"], ["port"], ["server_name"], ["max_clients"], ["require_authentication"],
    ["password"], ["heartbeat_interval_secs", "heartbeat_interval"], ["enable_logging"],
    ["logon_timeout_secs", "logon_timeout"], ["max_message_size"], ["outbound_queue_capacity"],
    ["max_subscriptions_per_session"], ["status_port"], ["symbols"]]

/-- A setting that may be left out. -/
def setting? {α : Type} (d : Option Data) (unset : α) (read? : Data → Option α) : Option α :=
  match d with
  | none => some unset
  | some d => read? d

def port? (d : Data) : Option UInt16 := (d.nat? 16).map UInt16.ofNat

/-- The number of a port, or that there is none. -/
def optionalPort? : Data → Option (Option UInt16)
  | .null => some none
  | d => (port? d).map some

/-- The configuration with a written form; lists may have surplus items where `surplus` says so. -/
def ofData? (surplus : Bool) (d : Data) : Option Config := do
  let [bind, port, name, clients, auth, password, heartbeat, logging, logon, size, queue,
      subscriptions, status, symbols] ← d.fields? fieldNames surplus
    | none
  let unset : Config := {}
  return {
    bindAddress := ← setting? bind unset.bindAddress Data.text?
    port := ← setting? port unset.port port?
    serverName := ← setting? name unset.serverName Data.text?
    maxClients := ← setting? clients unset.maxClients (Data.nat? 64)
    requireAuthentication := ← setting? auth unset.requireAuthentication Data.bool?
    password := ← setting? password unset.password Data.text?
    heartbeatIntervalSecs := ← setting? heartbeat unset.heartbeatIntervalSecs (Data.nat? 64)
    enableLogging := ← setting? logging unset.enableLogging Data.bool?
    logonTimeoutSecs := ← setting? logon unset.logonTimeoutSecs (Data.nat? 64)
    maxMessageSize := ← setting? size unset.maxMessageSize (Data.nat? 64)
    outboundQueueCapacity := ← setting? queue unset.outboundQueueCapacity (Data.nat? 64)
    maxSubscriptionsPerSession :=
      ← setting? subscriptions unset.maxSubscriptionsPerSession (Data.nat? 64)
    statusPort := ← setting? status unset.statusPort optionalPort?
    symbols := ← setting? symbols unset.symbols (Data.list? (SymbolEntry.ofData? surplus))
  }

def toData (c : Config) : Data :=
  .record [("bind_address", .text c.bindAddress), ("port", .int c.port.toNat),
    ("server_name", .text c.serverName), ("max_clients", .int c.maxClients),
    ("require_authentication", .bool c.requireAuthentication), ("password", .text c.password),
    ("heartbeat_interval_secs", .int c.heartbeatIntervalSecs),
    ("enable_logging", .bool c.enableLogging),
    ("logon_timeout_secs", .int c.logonTimeoutSecs),
    ("max_message_size", .int c.maxMessageSize),
    ("outbound_queue_capacity", .int c.outboundQueueCapacity),
    ("max_subscriptions_per_session", .int c.maxSubscriptionsPerSession),
    ("status_port", c.statusPort.elim .null fun p => .int p.toNat),
    ("symbols", .list (c.symbols.map SymbolEntry.toData))]

def ofToml? (s : String) : Option Config := (Toml.read? s).bind (ofData? true)

end MarketRelay.Config
