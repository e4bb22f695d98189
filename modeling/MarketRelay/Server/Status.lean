import MarketRelay.Server.Basic
import MarketRelay.Session.Data
import MarketRelay.Text.Lines

/-!
# Status

What a server shows of itself: as lines of text, as data, and to requests of its status endpoint.

A status is a snapshot.  It counts the listed sessions, not all that there ever were; the number of
those that ended stands among the metrics, under a name that comes in its place in the order of
names.  The uptime is in whole seconds and zero while the server is stopped.

The endpoint has four pages: whether the server is healthy, its status, its metrics and its
sessions.  A path that is none of them is not found, whatever was asked of it; a page that is there
can be read, with or without its body, and every other method is refused.
-/
namespace MarketRelay

structure ServerStatus where
  serverName : String
  running : Bool
  localAddress : Option SocketAddress
  protocolVersion : Int32
  sessions : Nat
  authenticatedSessions : Nat
  maxClients : Nat
  symbols : Nat
  startedAt : Option Instant
  uptimeSecs : Nat
  /-- Named values, in order of names. -/
  metrics : List (String × Nat)
deriving DecidableEq

namespace ServerStatus

def stateLine (s : ServerStatus) : String :=
  match s.running, s.localAddress with
  | true, some address => s!"Status: running on {address.text}"
  | _, _ => "Status: stopped"

def parts (s : ServerStatus) : List String :=
  [s!"Server: {s.serverName}", s.stateLine, s!"Protocol version: {s.protocolVersion}",
    s!"Sessions: {s.sessions} ({s.authenticatedSessions} authenticated, limit {s.maxClients})",
    s!"Symbols: {s.symbols}", s!"Uptime: {s.uptimeSecs}s"] ++
    s.metrics.map fun (name, value) => s!"  {name}: {value}"

def text (s : ServerStatus) : String := "\n".intercalate s.parts

/-- The lines of a status; a server name with line ends in it takes several of them. -/
def lines (s : ServerStatus) : List String := Lines.ofText s.text

def metricsData (metrics : List (String × Nat)) : Data :=
  .record (metrics.map fun (name, value) => (name, .int value))

def toData (s : ServerStatus) : Data :=
  .record [("server_name", .text s.serverName), ("running", .bool s.running),
    ("local_addr", Data.ofText? (s.localAddress.map (·.text))),
    ("protocol_version", .int s.protocolVersion.toInt), ("sessions", .int s.sessions),
    ("authenticated_sessions", .int s.authenticatedSessions), ("max_clients", .int s.maxClients),
    ("symbols", .int s.symbols), ("started_at", s.startedAt.elim .null fun t => .int t),
    ("uptime_secs", .int s.uptimeSecs), ("metrics", metricsData s.metrics)]

end ServerStatus

namespace Server

def metrics (s : Server) : List (String × Nat) :=
  Metrics.insertNamed "sessions_closed" s.relay.registry.closedTotal s.relay.metrics.named

def status (s : Server) (now : Instant) : ServerStatus where
  serverName := s.relay.config.serverName
  running := s.isRunning
  localAddress := s.running.map (·.address)
  protocolVersion := MarketRelay.protocolVersion
  sessions := s.relay.registry.size
  authenticatedSessions := s.relay.registry.authenticatedCount
  maxClients := s.relay.config.maxClients
  symbols := s.relay.symbols.size
  startedAt := s.running.map (·.startedAt)
  uptimeSecs := (s.running.map fun r => Duration.seconds (now.since r.startedAt)).getD 0
  metrics := s.metrics

def sessions (s : Server) : Data := .list (s.relay.registry.listed.map (·.summary))

/-! ## The status endpoint -/

structure Response where
  status : Nat
  body : Option Data

/-- What stands at a path. -/
def page? (s : Server) (now : Instant) : String → Option Data
  | "/health" => some (.record [("status", .text "ok"), ("running", .bool s.isRunning)])
  | "/status" => some (s.status now).toData
  | "/metrics" => some (ServerStatus.metricsData s.metrics)
  | "/sessions" => some s.sessions
  | _ => none

/-- The answer to a request: pages can be read, and nothing can be done to them. -/
def respond (s : Server) (method path : String) (now : Instant) : Response :=
  match s.page? now path, method with
  | none, _ => ⟨404, none⟩
  | some page, "GET" => ⟨200, some page⟩
  | some _, "HEAD" => ⟨200, none⟩
  | some _, _ => ⟨405, none⟩

end Server
end MarketRelay
