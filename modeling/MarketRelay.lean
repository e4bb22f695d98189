import MarketRelay.CommandLine.Arguments
import MarketRelay.CommandLine.Setup
import MarketRelay.Config.Basic
import MarketRelay.Config.Data
import MarketRelay.Data.Json.Reader
import MarketRelay.Data.Json.Writer
import MarketRelay.Data.Toml.Quoted
import MarketRelay.Data.Toml.Reader
import MarketRelay.Data.Toml.Scalar
import MarketRelay.Data.Toml.Table
import MarketRelay.Data.Value
import MarketRelay.Decimal.Nearest
import MarketRelay.Decimal.Shortest
import MarketRelay.Feed.ChaCha
import MarketRelay.Feed.Market
import MarketRelay.Feed.Simulated
import MarketRelay.Main
import MarketRelay.Market.Data
import MarketRelay.Market.Event
import MarketRelay.Market.Snapshot
import MarketRelay.Market.Symbol
import MarketRelay.Metrics.Counter
import MarketRelay.Metrics.Latency
import MarketRelay.Net.Address
import MarketRelay.Number.Binary64
import MarketRelay.Proofs.Text.Utf8
import MarketRelay.Relay.Basic
import MarketRelay.Relay.Dispatch
import MarketRelay.Relay.Liveness
import MarketRelay.Relay.Publish
import MarketRelay.Relay.Reader
import MarketRelay.Relay.Sink
import MarketRelay.Server.Basic
import MarketRelay.Server.Status
import MarketRelay.Session.Basic
import MarketRelay.Session.Data
import MarketRelay.Session.Queue
import MarketRelay.Session.Registry
import MarketRelay.Text.Digit
import MarketRelay.Text.Rest
import MarketRelay.Text.Utf8
import MarketRelay.Wire.Choice
import MarketRelay.Wire.Codec
import MarketRelay.Wire.Data
import MarketRelay.Wire.Field
import MarketRelay.Wire.Header
import MarketRelay.Wire.LittleEndian
import MarketRelay.Wire.Message
import MarketRelay.Wire.Stream
import MarketRelay.Proofs.Wire.RoundTrip
import MarketRelay.Proofs.Wire.Language
import MarketRelay.Proofs.Wire.Segments
import MarketRelay.Proofs.Wire.Table
import MarketRelay.Proofs.Wire.Faults
import MarketRelay.Proofs.Wire.Looks
import MarketRelay.Proofs.Relay.Run
import MarketRelay.Proofs.Relay.SessionView
import MarketRelay.Proofs.Relay.Sessions
import MarketRelay.Proofs.Relay.Steps
import MarketRelay.Proofs.Relay.Traffic
import MarketRelay.Proofs.Relay.Invariant
import MarketRelay.Proofs.Relay.LogonGate
import MarketRelay.Proofs.Market.SymbolTable
import MarketRelay.Proofs.Config.Validate
import MarketRelay.Proofs.Relay.Requests
import MarketRelay.Proofs.Market.Follow
import MarketRelay.Proofs.Relay.Replay
import MarketRelay.Proofs.Relay.FanOut
import MarketRelay.Proofs.Relay.Reachable
import MarketRelay.Proofs.Relay.Reader
import MarketRelay.Proofs.Relay.LogonStates
import MarketRelay.Proofs.Relay.Counting
import MarketRelay.Proofs.Relay.Isolation
import MarketRelay.Proofs.Relay.Intake
import MarketRelay.Proofs.Relay.Overflow
import MarketRelay.Proofs.Session.Directory
import MarketRelay.Proofs.Relay.Events
import MarketRelay.Proofs.Relay.Turns
import MarketRelay.Proofs.Relay.SnapshotAge
import MarketRelay.Proofs.Relay.Departure
import MarketRelay.Proofs.Relay.Subscriptions
import MarketRelay.Proofs.Relay.Clocks
import MarketRelay.Proofs.Relay.Silence
import MarketRelay.Proofs.Relay.Heartbeats
import MarketRelay.Proofs.Server.Work
import MarketRelay.Proofs.Server.Balance
import MarketRelay.Proofs.Server.Books
import MarketRelay.Proofs.Number.Binary64
import MarketRelay.Proofs.Relay.Sink
import MarketRelay.Proofs.Server.Publishing
import MarketRelay.Proofs.Server.Deliveries
import MarketRelay.Proofs.Server.Counts
import MarketRelay.Proofs.Server.MarketData
import MarketRelay.Proofs.Server.Wording
import MarketRelay.Proofs.Server.Stop
import MarketRelay.Proofs.Server.Refusals
import MarketRelay.Proofs.Market.SymbolIndex
import MarketRelay.Proofs.Session.Accounting
import MarketRelay.Proofs.Server.RequestOutcomes
import MarketRelay.Proofs.Server.Sweep
import MarketRelay.Proofs.Market.LastEvents
import MarketRelay.Proofs.Metrics.Latency
import MarketRelay.Proofs.Feed.Market
import MarketRelay.Proofs.Feed.Simulated
import MarketRelay.Proofs.Session.Fates
import MarketRelay.Proofs.Server.Losses
