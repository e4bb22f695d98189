import MarketRelay.Feed.Market
import MarketRelay.Proofs.Number.Comparison

/-!
# What a simulated market tells

In every tick a market tells of each of its symbols, in order: a quote, and after it at most one
trade, at the offer of that quote if somebody bought and at its bid if somebody sold.  This is so
whatever is drawn.

`TellsOf` is the shape of what is told of one symbol and `TellsOfAll` that of a whole tick.  The
functions that make a tick are taken in the order in which they call each other, from the trade up:
`drawTrade_cases`, `tellsOf_tickSymbol`, `tellsOfAll_tickAll`, and then by induction over the ticks
`tellsOfAll_ticks`.  The symbols of a market never change, which is what lets the last step go on.

A market asks its draws for numbers within a range and for events of some probability, and there are
questions that have no answer: an empty range, a probability that is no number.  It asks no such
question, so long as the probability of a trade is a number, since that one is cut to the range from
zero to one before it is asked for.  So draws that differ elsewhere make no difference
(`ticks_congr`).
-/
namespace MarketRelay

/-! ## The shape of ticks -/

namespace Tick

/-- The ticks are a quote of a symbol and at most one trade, at one of the two prices that were
quoted. -/
inductive TellsOf (symbol : String) : List Tick → Prop
  | quoted (bid bidSize ask askSize : Binary64) :
      TellsOf symbol [.quote symbol bid bidSize ask askSize]
  | bought (bid bidSize ask askSize volume : Binary64) :
      TellsOf symbol [.quote symbol bid bidSize ask askSize, .trade symbol ask volume .buy]
  | sold (bid bidSize ask askSize volume : Binary64) :
      TellsOf symbol [.quote symbol bid bidSize ask askSize, .trade symbol bid volume .sell]

inductive TellsOfAll : List String → List Tick → Prop
  | nil : TellsOfAll [] []
  | cons {symbol : String} {symbols : List String} {told rest : List Tick}
      (h : TellsOf symbol told) (hrest : TellsOfAll symbols rest) :
      TellsOfAll (symbol :: symbols) (told ++ rest)

variable {symbol : String} {symbols : List String} {told : List Tick} {t : Tick}

theorem TellsOf.symbol_eq (h : TellsOf symbol told) (ht : t ∈ told) : t.symbol = symbol := by
  cases h with
  | quoted =>
      obtain rfl := List.mem_singleton.mp ht
      rfl
  | bought | sold =>
      rcases List.mem_cons.mp ht with rfl | ht
      · rfl
      · obtain rfl := List.mem_singleton.mp ht
        rfl

theorem TellsOfAll.symbol_mem (h : TellsOfAll symbols told) (ht : t ∈ told) :
    t.symbol ∈ symbols := by
  induction h with
  | nil => cases ht
  | cons h hrest ih =>
      rcases List.mem_append.mp ht with ht | ht
      · rw [h.symbol_eq ht]
        exact List.mem_cons_self
      · exact List.mem_cons_of_mem _ (ih ht)

end Tick

namespace SimulatedMarket

variable {σ : Type} (draws : Draws σ) (settings : SimulationSettings)

theorem drawTrade_cases (symbol : String) (bid ask : Binary64) (s : σ) :
    (drawTrade draws settings symbol bid ask s).1 = [] ∨
      (∃ volume,
        (drawTrade draws settings symbol bid ask s).1 = [.trade symbol ask volume .buy]) ∨
      ∃ volume,
        (drawTrade draws settings symbol bid ask s).1 = [.trade symbol bid volume .sell] := by
  simp only [drawTrade]
  split
  · split
    · exact .inr (.inl ⟨_, rfl⟩)
    · exact .inr (.inr ⟨_, rfl⟩)
  · exact .inl rfl

theorem tellsOf_tickSymbol (symbol : String) (mid : Float) (s : σ) :
    Tick.TellsOf symbol (tickSymbol draws settings symbol mid s).1.1 := by
  simp only [tickSymbol]
  rcases drawTrade_cases draws settings symbol _ _ _ with h | ⟨volume, h⟩ | ⟨volume, h⟩
  · rw [h]
    exact .quoted _ _ _ _
  · rw [h]
    exact .bought _ _ _ _ volume
  · rw [h]
    exact .sold _ _ _ _ volume

theorem tellsOfAll_tickAll (mids : List (String × Float)) (s : σ) :
    Tick.TellsOfAll (mids.map (·.1)) (tickAll draws settings mids s).1.1 := by
  induction mids generalizing s with
  | nil => exact .nil
  | cons p rest ih => exact .cons (tellsOf_tickSymbol draws settings p.1 p.2 s) (ih _)

theorem symbols_tickAll (mids : List (String × Float)) (s : σ) :
    (tickAll draws settings mids s).1.2.map (·.1) = mids.map (·.1) := by
  induction mids generalizing s with
  | nil => rfl
  | cons p rest ih => exact congrArg (p.1 :: ·) (ih _)

/-! ## Many ticks -/

def symbols (m : SimulatedMarket σ) : List String := m.mids.map (·.1)

theorem symbols_tick (m : SimulatedMarket σ) : (m.tick draws).2.symbols = m.symbols :=
  symbols_tickAll draws m.settings m.mids m.state

theorem tellsOfAll_tick (m : SimulatedMarket σ) : Tick.TellsOfAll m.symbols (m.tick draws).1 :=
  tellsOfAll_tickAll draws m.settings m.mids m.state

theorem length_ticks (count : Nat) (m : SimulatedMarket σ) :
    (ticks draws count m).length = count := by
  induction count generalizing m with
  | zero => rfl
  | succ count ih => exact congrArg (· + 1) (ih _)

/-- Every tick of a market tells of all its symbols, in order. -/
theorem tellsOfAll_ticks (count : Nat) (m : SimulatedMarket σ) {told : List Tick}
    (h : told ∈ ticks draws count m) : Tick.TellsOfAll m.symbols told := by
  induction count generalizing m with
  | zero => cases h
  | succ count ih =>
      rcases List.mem_cons.mp h with rfl | h
      · exact tellsOfAll_tick draws m
      · exact symbols_tick draws m ▸ ih _ h

end SimulatedMarket

/-! ## What is drawn -/

theorem probability_mem {p : Float} (h : p.isNaN = false) :
    0.0 ≤ probability p ∧ probability p ≤ 1.0 := by
  unfold probability
  split
  · exact ⟨by decide, by decide⟩
  · next hlow =>
      split
      · exact ⟨by decide, by decide⟩
      · next hhigh =>
          exact ⟨FloatOrder.le_of_not_lt h (by decide) hlow,
            FloatOrder.le_of_not_lt (by decide) h hhigh⟩

/-- Two ways to draw answer alike wherever there is something to draw: from a range that is not
empty, and with a probability between zero and one. -/
structure Draws.SameWherePossible {σ : Type} (draws draws' : Draws σ) : Prop where
  step : ∀ s, draws.step s = draws'.step s
  between : ∀ low high s, low < high → draws.between low high s = draws'.between low high s
  chance : ∀ p s, 0.0 ≤ p → p ≤ 1.0 → draws.chance p s = draws'.chance p s

namespace SimulatedMarket

variable {σ : Type} {draws draws' : Draws σ} {settings : SimulationSettings}

theorem drawTrade_congr (h : draws.SameWherePossible draws')
    (hp : settings.tradeProbability.toFloat.isNaN = false) (symbol : String) (bid ask : Binary64)
    (s : σ) :
    drawTrade draws settings symbol bid ask s = drawTrade draws' settings symbol bid ask s := by
  obtain ⟨hlow, hhigh⟩ := probability_mem hp
  simp only [drawTrade, h.chance _ s hlow hhigh, h.chance 0.5 _ (by decide) (by decide),
    h.between 0.001 1.0 _ (by decide)]

theorem tickSymbol_congr (h : draws.SameWherePossible draws')
    (hp : settings.tradeProbability.toFloat.isNaN = false) (symbol : String) (mid : Float) (s : σ) :
    tickSymbol draws settings symbol mid s = tickSymbol draws' settings symbol mid s := by
  simp only [tickSymbol, h.step, h.between 0.1 5.0 _ (by decide), drawTrade_congr h hp]

theorem tickAll_congr (h : draws.SameWherePossible draws')
    (hp : settings.tradeProbability.toFloat.isNaN = false) (mids : List (String × Float)) (s : σ) :
    tickAll draws settings mids s = tickAll draws' settings mids s := by
  induction mids generalizing s with
  | nil => rfl
  | cons p rest ih => simp only [tickAll, tickSymbol_congr h hp, ih]

theorem tick_congr (h : draws.SameWherePossible draws') {m : SimulatedMarket σ}
    (hp : m.settings.tradeProbability.toFloat.isNaN = false) : m.tick draws = m.tick draws' := by
  simp only [tick, tickAll_congr h hp]

/-- A market draws only what can be drawn. -/
theorem ticks_congr (h : draws.SameWherePossible draws') {m : SimulatedMarket σ}
    (hp : m.settings.tradeProbability.toFloat.isNaN = false) (count : Nat) :
    ticks draws count m = ticks draws' count m := by
  induction count generalizing m with
  | zero => rfl
  | succ count ih =>
      rw [ticks, ticks, tick_congr h hp]
      exact congrArg ((m.tick draws').1 :: ·) (ih hp)

end SimulatedMarket
end MarketRelay
