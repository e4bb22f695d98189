import MarketRelay.Feed.ChaCha
import MarketRelay.Market.Event

/-!
# Simulated markets

A market whose prices walk at random.

In every tick each symbol's price moves by a small part of itself, a bid and an offer are quoted
around it, and now and then somebody trades at one of them.  The symbols take their turns in order,
and each draws what it needs before the next one does, so that a market is a function of its state
and of what is drawn.

It is built over whatever it draws from: a state of some kind with three ways to draw from it
(`Draws`), a number between minus one and one, a number between two others, and a truth value with a
given probability.  `ChaCha.draws` is what a seed gives.

Prices are rounded to the cent and sizes to a thousandth, halves away from zero.  However small
prices and spreads are, the middle of the quotes does not fall below a cent and the offer is a cent
above the bid; what is no number does not count where the larger of two is taken.
-/
namespace MarketRelay

/-! ## Draws -/

structure Draws (σ : Type) where
  /-- A number from minus one to one. -/
  step : σ → Float × σ
  /-- A number from the first one up to the second one. -/
  between : Float → Float → σ → Float × σ
  /-- Something of a given probability. -/
  chance : Float → σ → Bool × σ

namespace ChaCha

/-- A number from zero up to one: the upper bits of a word as its binary places. -/
def unit (s : Stream) : Float × Stream :=
  let (word, s) := s.next
  (Float.ofBits ((0x3FF0000000000000 : UInt64) ||| word >>> 12) - 1.0, s)

/-- The length of the range from minus one to one, so that its end can be reached. -/
def stepScale : Float := Float.ofBits 0x4000000000000001

/-- The draws from a stream.  A number between two others is the lower one and a part of their
distance; the part is at most `1 - 2 ^ -52`, which keeps it below the upper one in the ranges that a
market draws from. -/
def draws : Draws Stream where
  step s :=
    let (u, s) := unit s
    (u * stepScale + -1.0, s)
  between low high s :=
    let (u, s) := unit s
    (u * (high - low) + low, s)
  chance p s :=
    if p == 1.0 then (true, s)
    else
      let (word, s) := s.next
      (word < (p * 18446744073709551616.0).toUInt64, s)

end ChaCha

/-! ## Prices -/

def larger (x y : Float) : Float := if x.isNaN then y else if x < y then y else x

/-- A number between zero and one. -/
def probability (p : Float) : Float := if p < 0.0 then 0.0 else if p > 1.0 then 1.0 else p

def roundCents (x : Float) : Float := (x * 100.0).round / 100.0

def roundLots (x : Float) : Float := (x * 1000.0).round / 1000.0

/-! ## Ticks -/

structure SimulationSettings where
  seed : UInt64 := 42
  tickIntervalMs : Nat := 250
  /-- The most that a price moves in a tick, in parts of ten thousand. -/
  volatilityBps : UInt32 := 5
  /-- The distance between bid and offer, in parts of ten thousand. -/
  spreadBps : UInt32 := 2
  /-- How likely a trade is in a tick. -/
  tradeProbability : Binary64 := ⟨0x3FE0000000000000⟩
deriving DecidableEq, Repr

/-- What a simulated market tells. -/
inductive Tick where
  | quote (symbol : String) (bidPrice bidSize askPrice askSize : Binary64)
  | trade (symbol : String) (price volume : Binary64) (side : Side)
deriving DecidableEq, Repr

namespace Tick

def symbol : Tick → String
  | .quote symbol .. => symbol
  | .trade symbol .. => symbol

def occurrence (t : Tick) (timestamp : Int64) : Occurrence :=
  match t with
  | .quote _ bid bidSize ask askSize => .quote ⟨bid, bidSize, ask, askSize, timestamp⟩
  | .trade _ price volume side => .trade ⟨price, volume, side, timestamp⟩

end Tick

structure SimulatedMarket (σ : Type) where
  settings : SimulationSettings
  /-- The symbols and the middle of their quotes. -/
  mids : List (String × Float)
  state : σ

namespace SimulatedMarket

variable {σ : Type}

/-- The middle of a symbol's quotes after it moved. -/
def move (settings : SimulationSettings) (mid step : Float) : Float :=
  larger (mid * (1.0 + step * (settings.volatilityBps.toNat.toFloat / 10000.0))) 0.01

/-- The bid and the offer around a price: to the cent, and at least a cent apart. -/
def quoteAround (settings : SimulationSettings) (mid : Float) : Float × Float :=
  let half := settings.spreadBps.toNat.toFloat / 20000.0
  let bid := roundCents (mid * (1.0 - half))
  (bid, larger (roundCents (mid * (1.0 + half))) (bid + 0.01))

/-- The trade of a tick, if there is one: a buyer pays the offer, a seller gets the bid. -/
def drawTrade (draws : Draws σ) (settings : SimulationSettings) (symbol : String)
    (bid ask : Binary64) (s : σ) : List Tick × σ :=
  let (trades, s) := draws.chance (probability settings.tradeProbability.toFloat) s
  if trades then
    let (buys, s) := draws.chance 0.5 s
    let (volume, s) := draws.between 0.001 1.0 s
    let volume := Binary64.ofFloat (roundLots volume)
    if buys then ([.trade symbol ask volume .buy], s) else ([.trade symbol bid volume .sell], s)
  else ([], s)

/-- What a tick tells of one symbol, and the middle of its quotes then. -/
def tickSymbol (draws : Draws σ) (settings : SimulationSettings) (symbol : String) (mid : Float)
    (s : σ) : (List Tick × Float) × σ :=
  let (step, s) := draws.step s
  let mid := move settings mid step
  let (bid, ask) := quoteAround settings mid
  let (bid, ask) := (Binary64.ofFloat bid, Binary64.ofFloat ask)
  let (bidSize, s) := draws.between 0.1 5.0 s
  let (askSize, s) := draws.between 0.1 5.0 s
  let quote :=
    Tick.quote symbol bid (.ofFloat (roundLots bidSize)) ask (.ofFloat (roundLots askSize))
  let (trade, s) := drawTrade draws settings symbol bid ask s
  ((quote :: trade, mid), s)

/-- What a tick tells of some symbols, in order, and the middles of their quotes then. -/
def tickAll (draws : Draws σ) (settings : SimulationSettings) :
    List (String × Float) → σ → (List Tick × List (String × Float)) × σ
  | [], s => (([], []), s)
  | (symbol, mid) :: rest, s =>
    let ((ticks, mid), s) := tickSymbol draws settings symbol mid s
    let ((more, mids), s) := tickAll draws settings rest s
    ((ticks ++ more, (symbol, mid) :: mids), s)

def tick (draws : Draws σ) (m : SimulatedMarket σ) : List Tick × SimulatedMarket σ :=
  let ((ticks, mids), s) := tickAll draws m.settings m.mids m.state
  (ticks, { m with mids := mids, state := s })

def ticks (draws : Draws σ) : (count : Nat) → SimulatedMarket σ → List (List Tick)
  | 0, _ => []
  | count + 1, m =>
    let (told, m) := m.tick draws
    told :: ticks draws count m

end SimulatedMarket
end MarketRelay
