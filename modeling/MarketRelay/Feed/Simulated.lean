import MarketRelay.Feed.Market
import MarketRelay.Market.Symbol
import MarketRelay.Relay.Sink

/-!
# The simulated feed

A feed that tells a handler of the ticks of a simulated market.

Its loop waits for one of two things, the time for the next tick and its cancellation; what it woke
up for, in order, is a list of `Wake`s, and `run` follows such a list.  At each tick the market
moves on, and the handler is called for all that it tells, with the time that the clock on the wall
shows.  What the handler answers is only logged, so it neither stops the feed nor changes what comes
next.  The cancellation ends the loop, and what would have woken it later is never seen.

The loop waits on a timer with the interval of the settings.  A timer has no interval of zero: with
such settings the feed breaks down before its first tick, and `run` says nothing about it.  The
command line asks for a millisecond at least.

For a relay as the handler the calls are `Relay.onTick`.
-/
namespace MarketRelay

/-- A feed of simulated market data for some symbols. -/
structure SimulatedFeed where
  settings : SimulationSettings
  symbols : List String
deriving DecidableEq, Repr

/-- What a feed waits for. -/
inductive Wake where
  /-- It is time for a tick; the clock on the wall shows a time. -/
  | tick (clock : Int64)
  | cancelled
deriving DecidableEq

/-- A call of a handler. -/
structure Call where
  tick : Tick
  timestamp : Int64
deriving DecidableEq

namespace SimulatedFeed

def name : String := "simulated"

/-- The feed for all symbols of a table. -/
def ofTable (settings : SimulationSettings) (table : SymbolTable) : SimulatedFeed :=
  ⟨settings, table.entries.map (·.name)⟩

/-- The middle of a symbol's first quotes, before it moved. -/
def startingMid : String → Float
  | "BTC-USD" => 65000.0
  | "ETH-USD" => 3000.0
  | "SOL-USD" => 150.0
  | _ => 100.0

/-- The feed's market before its first tick, over a given state of its draws. -/
def marketOver {σ : Type} (f : SimulatedFeed) (state : σ) : SimulatedMarket σ :=
  ⟨f.settings, f.symbols.map fun s => (s, startingMid s), state⟩

def market (f : SimulatedFeed) : SimulatedMarket ChaCha.Stream :=
  f.marketOver (.ofSeed f.settings.seed)

/-- What a handler has become after it was told of ticks, in order; its answers do not matter. -/
def tell {τ α : Type} (handler : τ → Call → τ × α) (clock : Int64) (t : τ) (ticks : List Tick) :
    τ :=
  ticks.foldl (fun t tick => (handler t ⟨tick, clock⟩).1) t

/-- What a handler has become after the loop of a feed whose market is given. -/
def run {σ τ α : Type} (draws : Draws σ) (handler : τ → Call → τ × α) :
    SimulatedMarket σ → List Wake → τ → τ
  | _, [], t => t
  | _, .cancelled :: _, t => t
  | m, .tick clock :: wakes, t =>
    let (told, m') := m.tick draws
    run draws handler m' wakes (tell handler clock t told)

end SimulatedFeed

/-- The relay as a handler of ticks at a given time. -/
def Relay.onTick (timestamp : Int64) (elapsed : Nat) (r : Relay) (tick : Tick) :
    Relay × Except FeedError PublishReport :=
  r.feed tick.symbol (tick.occurrence timestamp) elapsed

end MarketRelay
