import MarketRelay.Relay.Reader
import MarketRelay.Relay.Liveness
import MarketRelay.Relay.Sink

/-!
# Servers

A relay that can be started and stopped.

While it runs it takes connections, as many as its settings allow, and counts those that it took and
those that it turned away.  Stopping it says goodbye to every client: each listed session is told
why in a last frame, which joins what already waits for it, and is then closed.

A stopped server keeps its sessions and counts and can be started again; a server that runs refuses
to be started, and stopping one that is stopped does nothing.  Whether an address can be had is not
for the server to decide: `bind` stands for whoever opens the port, and may give back another
address than the wanted one, such as one with a port of its own choice.
-/
namespace MarketRelay

structure Running where
  address : SocketAddress
  startedAt : Instant
deriving DecidableEq

structure Server where
  relay : Relay
  running : Option Running
deriving DecidableEq

namespace Server

/-- A stopped server with settings that it can run with. -/
def ofConfig (config : Config) : Except RelayError Server :=
  match config.validate with
  | .error e => .error (.config e)
  | .ok () => .ok ⟨.ofConfig config, none⟩

def isRunning (s : Server) : Bool := s.running.isSome

/-- Starts a stopped server.  `bind` tells for an address the one that is then listened on, or
that it cannot be had. -/
def start (s : Server) (bind : SocketAddress → Option SocketAddress) (now : Instant) :
    Except RelayError Server :=
  if s.isRunning then .error .alreadyRunning
  else
    match s.relay.config.listenAddress with
    | .error e => .error (.config e)
    | .ok wanted =>
      match bind wanted with
      | none => .error (.bindFailed wanted)
      | some address => .ok { s with running := some ⟨address, now⟩ }

def farewell : Message := .logoff ⟨"server shutting down", false⟩

/-- The relay after it took leave of a session.  The farewell is not counted. -/
def shutDownSession (r : Relay) (id : SessionId) : Relay :=
  ((r.modify id (·.push farewell.encode)).close id .serverShutdown).1

def stop (s : Server) : Server :=
  if s.isRunning then
    { relay := (s.relay.registry.listed.map (·.id)).foldl shutDownSession s.relay
      running := none }
  else s

/-- The server after somebody connected: the new session's reader, or none if there is no room for
one more session. -/
def accept (s : Server) (peer : SocketAddress) (now : Instant) : Server × Option Reader :=
  match s.relay.enlist peer now with
  | .ok (id, r) => ({ s with relay := r.count .connectionsAccepted }, some ⟨id, []⟩)
  | .error _ => ({ s with relay := s.relay.count .connectionsRejected }, none)

end Server
end MarketRelay
