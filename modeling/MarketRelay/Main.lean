import MarketRelay.CommandLine.Setup
import MarketRelay.Feed.Simulated
import MarketRelay.Server.Basic

/-!
# The command

Sets up a server as the command line says and serves the client behind standard input and output:
what it sends is read from the one, what waits for it is written to the other.  The command ends
when the session or the connection of its client does.

This is the one module that does anything.  It reads the clock, the file of the configuration and
the environment, and hands what it finds to the functions of the other modules.

Between two portions of input nothing happens; what fell due in the meantime, a look for signs of
life or a tick of the simulated market, is done when the next portion arrives (`Service.wake`).
What the client is owed is written after each portion, so that its answers come before anything
that it sends next is looked at.
-/
namespace MarketRelay.Command

/-- Where the client of the command is taken to be. -/
def peer : SocketAddress := .v4 127 0 0 1 0

/-- The most bytes that are read at a time. -/
def portion : USize := 4096

structure Service where
  server : Server
  interval : Duration
  market : Option (SimulatedMarket ChaCha.Stream)
  /-- When the market moves next. -/
  nextTick : Instant

namespace Service

def ofSetup (s : CommandLine.Setup) (now : Instant) : Except RelayError Service := do
  let server ← (← Server.ofConfig s.config).start some now
  let feed := SimulatedFeed.ofTable s.feed server.relay.symbols
  return {
    server := server
    interval := .ofMilliseconds s.feed.tickIntervalMs
    market := if s.simulate then some feed.market else none
    nextTick := now
  }

def withRelay (s : Service) (r : Relay) : Service :=
  { s with server := { s.server with relay := r } }

/-- The service after its market moved once, if that was due. -/
def tick (s : Service) (now : Instant) : Service :=
  match s.market with
  | none => s
  | some m =>
    if s.nextTick ≤ now then
      let (ticks, m) := m.tick ChaCha.draws
      let handler := fun (r : Relay) (call : Call) => r.onTick call.timestamp 0 call.tick
      let r := SimulatedFeed.tell handler (Int64.ofNat now) s.server.relay ticks
      { s.withRelay r with market := some m, nextTick := now + s.interval }
    else s

/-- The service after it looked at its sessions and its market. -/
def wake (s : Service) (now : Instant) : Service :=
  let liveness := Liveness.ofConfig s.server.relay.config
  (s.withRelay (s.server.relay.sweep liveness now (Int64.ofNat now)).1).tick now

end Service

def time : IO Instant := IO.monoNanosNow

/-- Writes what waits for a session. -/
def flush (s : Service) (id : SessionId) : IO Service := do
  let (frames, r) := s.server.relay.drain id
  let out ← IO.getStdout
  for frame in frames do
    out.write frame.toByteArray
  out.flush
  return s.withRelay r

/-- Serves a client until its session or its connection ends. -/
partial def serve (s : Service) (reader : Reader) : IO Unit := do
  let bytes ← (← IO.getStdin).read portion
  let now ← time
  let s := s.wake now
  if bytes.isEmpty then
    let _ ← flush (s.withRelay (s.server.relay.hangUp reader none)) reader.session
  else if !s.server.relay.registry.contains reader.session then
    let _ ← flush s reader.session
  else
    let (r, reader?) := s.server.relay.receive reader bytes.toList now
    let s ← flush (s.withRelay r) reader.session
    match reader? with
    | some reader => serve s reader
    | none => return

/-- The wording of a failure to read a file. -/
def wording : IO.Error → String
  | .noFileOrDirectory .. => "No such file or directory (os error 2)"
  | e => toString e

def readFile (path : String) : IO (Except String String) := do
  try return .ok (← IO.FS.readFile path)
  catch e => return .error (wording e)

/-- What the arguments ask for. -/
def setUp (arguments : List String) : IO (Except CommandLine.SetupError CommandLine.Setup) := do
  match CommandLine.Arguments.ofList arguments (← IO.getEnv "DTC_SERVER_PASSWORD") with
  | .error e => return .error (.usage e)
  | .ok a =>
    let text ← match a.configPath with
      | some path => readFile path
      | none => pure (.ok "")
    return a.setUp fun _ => text

/-- Runs the command: its exit code. -/
def run (arguments : List String) : IO UInt32 := do
  match ← setUp arguments with
  | .error (.usage .helpAsked) =>
    IO.println CommandLine.usage
    return 0
  | .error (.usage .versionAsked) =>
    IO.println CommandLine.versionLine
    return 0
  | .error e =>
    IO.eprintln e.message
    return 2
  | .ok setup =>
    let now ← time
    match Service.ofSetup setup now with
    | .error e =>
      IO.eprintln e.message
      return 1
    | .ok s =>
      let (server, reader) := s.server.accept peer now
      if let some reader := reader then
        serve { s with server := server } reader
      return 0

end MarketRelay.Command

def main (arguments : List String) : IO UInt32 := MarketRelay.Command.run arguments
