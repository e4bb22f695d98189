import MarketRelay.Feed.Simulated
import MarketRelay.Proofs.Feed.Market
import MarketRelay.Proofs.Relay.Sink

/-!
# What a simulated feed tells its handler

The loop of a feed is followed over whatever wakes it, and settled by one equation: what the handler
has become is what a list of calls makes of it (`run_eq`).  That list, `calls`, depends on the
market and on the times of the ticks before the cancellation alone; neither what comes after the
cancellation nor any answer of the handler is in it.

From there on the calls are what there is to speak of.

* Their ticks are those of the market, one after the other (`map_tick_calls`), each with the time at
  which the feed woke up for it.
* They name symbols of the market only (`symbol_mem_of_calls`).  A feed for the symbols of a table
  has these as its market, so the table finds every name (`known_of_calls`), and a relay that serves
  the table never refuses a call as one for an unknown symbol; it may still refuse its values.
* The ticks themselves have the shape that the module `Market` shows, for any draws.

The three parts stand in the structures `InShape`, `CallsInOrder` and `CallsAreKnown`, one for a
market and a number of ticks, one for a market and what wakes its feed, one for a table.
-/
namespace MarketRelay

/-- The times of the ticks before a feed is cancelled. -/
def Wake.ticking : List Wake → List Int64
  | .tick clock :: wakes => clock :: ticking wakes
  | _ => []

namespace SimulatedFeed

variable {σ τ α : Type} (draws : Draws σ) (handler : τ → Call → τ × α)

/-- The calls for all that a market tells in ticks at given times. -/
def calls (m : SimulatedMarket σ) (clocks : List Int64) : List Call :=
  (clocks.zip (m.ticks draws clocks.length)).flatMap fun (clock, told) =>
    told.map fun tick => ⟨tick, clock⟩

variable {draws} {m : SimulatedMarket σ}

theorem calls_cons (m : SimulatedMarket σ) (clock : Int64) (clocks : List Int64) :
    calls draws m (clock :: clocks) =
      ((m.tick draws).1.map fun tick => ⟨tick, clock⟩) ++ calls draws (m.tick draws).2 clocks :=
  rfl

/-- The handler of a feed is called for each tick in turn, up to the cancellation. -/
theorem run_eq (m : SimulatedMarket σ) (wakes : List Wake) (t : τ) :
    run draws handler m wakes t =
      (calls draws m (Wake.ticking wakes)).foldl (fun t call => (handler t call).1) t := by
  induction wakes generalizing m t with
  | nil => rfl
  | cons wake wakes ih =>
      cases wake with
      | cancelled => rfl
      | tick clock =>
          -- the calls of the first tick, then those of the market that it leaves behind
          rw [run, Wake.ticking, calls_cons, List.foldl_append, List.foldl_map]
          exact ih _ _

/-- The ticks of the calls are those of the market, one after the other. -/
theorem map_tick_calls (m : SimulatedMarket σ) (clocks : List Int64) :
    (calls draws m clocks).map (·.tick) = (m.ticks draws clocks.length).flatten := by
  induction clocks generalizing m with
  | nil => rfl
  | cons clock clocks ih =>
      rw [calls_cons, List.map_append, List.map_map, ih]
      exact congrArg (· ++ _) (List.map_id _)

theorem run_eq_foldl_ticks (handler : τ → Tick → τ × α) (m : SimulatedMarket σ) (wakes : List Wake)
    (t : τ) :
    run draws (fun t call => handler t call.tick) m wakes t =
      (m.ticks draws (Wake.ticking wakes).length).flatten.foldl (fun t tick => (handler t tick).1)
        t := by
  rw [run_eq, ← map_tick_calls, List.foldl_map]

theorem symbol_mem_of_calls {clocks : List Int64} {call : Call}
    (h : call ∈ calls draws m clocks) : call.tick.symbol ∈ m.symbols := by
  have htick : call.tick ∈ (calls draws m clocks).map (·.tick) := List.mem_map_of_mem h
  rw [map_tick_calls] at htick
  obtain ⟨told, htold, htick⟩ := List.mem_flatten.mp htick
  exact (SimulatedMarket.tellsOfAll_ticks draws _ m htold).symbol_mem htick

/-! ## Feeds for a table -/

theorem symbols_marketOver (f : SimulatedFeed) (state : σ) :
    (f.marketOver state).symbols = f.symbols := by
  rw [SimulatedMarket.symbols, marketOver, List.map_map]
  exact List.map_id _

/-- The calls of a feed for a table name entries of the table, and the table finds them. -/
theorem known_of_calls {settings : SimulationSettings} {entries : List SymbolEntry} {state : σ}
    {clocks : List Int64} {call : Call}
    (h : call ∈ calls draws ((ofTable settings (.ofList entries)).marketOver state) clocks) :
    ∃ e ∈ (SymbolTable.ofList entries).entries, e.name = call.tick.symbol ∧
      (SymbolTable.ofList entries).idOf? call.tick.symbol = some e.id := by
  have hsymbol := symbol_mem_of_calls h
  rw [symbols_marketOver] at hsymbol
  obtain ⟨e, he, hname⟩ := List.mem_map.mp hsymbol
  exact ⟨e, he, hname, (SymbolTable.idOf?_eq_some_iff (SymbolTable.distinct_ofList entries)).mpr
    ⟨e, he, hname, rfl⟩⟩

end SimulatedFeed

theorem Relay.feed_ne_unknownSymbol {r : Relay} {name : String} {id : SymbolId}
    (h : r.symbols.idOf? name = some id) (o : Occurrence) (elapsed : Nat) (name' : String) :
    (r.feed name o elapsed).2 ≠ .error (.unknownSymbol name') := by
  simp only [feed, h]
  intro herror
  split at herror
  · next error hamounts =>
      obtain ⟨p, -, rfl⟩ := checkAmounts_eq_error_iff.mp hamounts
      cases herror
  · cases herror

namespace SimulatedFeed

variable {σ : Type}

/-- What there is to know of a number of ticks of a market. -/
structure InShape (draws : Draws σ) (m : SimulatedMarket σ) (count : Nat) : Prop where
  length : (m.ticks draws count).length = count
  /-- Each tick tells of each symbol in turn: a quote, and at most one trade at a price of it. -/
  shape : ∀ told ∈ m.ticks draws count, Tick.TellsOfAll (m.mids.map (·.1)) told
  /-- Nothing is drawn that cannot be drawn. -/
  possible : ∀ draws' : Draws σ, draws.SameWherePossible draws' →
    m.ticks draws count = m.ticks draws' count

/-- What there is to know of the loop of a feed with a given market. -/
structure CallsInOrder (draws : Draws σ) (m : SimulatedMarket σ) (wakes : List Wake) : Prop where
  /-- The handler is called with all ticks before the cancellation, whatever it answers. -/
  loop : ∀ {τ α : Type} (handler : τ → Call → τ × α) (t : τ),
    run draws handler m wakes t =
      (calls draws m (Wake.ticking wakes)).foldl (fun t call => (handler t call).1) t
  ticks : (calls draws m (Wake.ticking wakes)).map (·.tick) =
    (m.ticks draws (Wake.ticking wakes).length).flatten
  /-- A handler that does not look at the time sees these ticks, one after the other. -/
  timeless : ∀ {τ α : Type} (handler : τ → Tick → τ × α) (t : τ),
    run draws (fun t call => handler t call.tick) m wakes t =
      (m.ticks draws (Wake.ticking wakes).length).flatten.foldl (fun t tick => (handler t tick).1)
        t

/-- What there is to know of the calls of a feed for the symbols of a table. -/
structure CallsAreKnown (draws : Draws σ) (settings : SimulationSettings)
    (entries : List SymbolEntry) (state : σ) (clocks : List Int64) : Prop where
  resolved : ∀ call ∈ calls draws ((ofTable settings (.ofList entries)).marketOver state) clocks,
    ∃ e ∈ (SymbolTable.ofList entries).entries, e.name = call.tick.symbol ∧
      (SymbolTable.ofList entries).idOf? call.tick.symbol = some e.id
  /-- No relay that serves the table refuses a call as one for an unknown symbol. -/
  known : ∀ call ∈ calls draws ((ofTable settings (.ofList entries)).marketOver state) clocks,
    ∀ (r : Relay) (elapsed : Nat), r.symbols = .ofList entries →
      ∀ name, (r.onTick call.timestamp elapsed call.tick).2 ≠ .error (.unknownSymbol name)

variable (draws : Draws σ)

theorem inShape (m : SimulatedMarket σ)
    (hp : m.settings.tradeProbability.toFloat.isNaN = false) (count : Nat) :
    InShape draws m count where
  length := SimulatedMarket.length_ticks draws count m
  shape := fun _ => SimulatedMarket.tellsOfAll_ticks draws count m
  possible := fun _ hsame => SimulatedMarket.ticks_congr hsame hp count

theorem callsInOrder (m : SimulatedMarket σ) (wakes : List Wake) : CallsInOrder draws m wakes where
  loop := fun handler t => run_eq handler m wakes t
  ticks := map_tick_calls m (Wake.ticking wakes)
  timeless := fun handler t => run_eq_foldl_ticks handler m wakes t

theorem callsAreKnown (settings : SimulationSettings)
    (entries : List SymbolEntry) (state : σ) (clocks : List Int64) :
    CallsAreKnown draws settings entries state clocks where
  resolved := fun _ => known_of_calls
  known := by
    intro call hcall r elapsed hsymbols
    obtain ⟨e, -, -, hid⟩ := known_of_calls hcall
    rw [← hsymbols] at hid
    exact Relay.feed_ne_unknownSymbol hid _ elapsed

/-- **The simulated feed.**  Whatever is drawn, each tick of a market tells of each of its symbols
in turn, a feed calls its handler for these ticks in order until it is cancelled, and a feed for the
symbols of a table tells of nothing that the table does not know. -/
theorem ticks_are_told {settings : SimulationSettings}
    (hp : settings.tradeProbability.toFloat.isNaN = false) :
    (∀ mids state count, InShape draws ⟨settings, mids, state⟩ count) ∧
      (∀ mids state wakes, CallsInOrder draws ⟨settings, mids, state⟩ wakes) ∧
      ∀ entries state wakes, CallsAreKnown draws settings entries state (Wake.ticking wakes) := by
  refine ⟨fun mids state count => ?_, fun mids state wakes => ?_, fun entries state wakes => ?_⟩
  · exact inShape draws ⟨settings, mids, state⟩ hp count
  · exact callsInOrder draws ⟨settings, mids, state⟩ wakes
  · exact callsAreKnown draws settings entries state (Wake.ticking wakes)

/-- Two ticks of a market with a trade in every other one, and a third that comes too late. -/
theorem ticks_are_told_cancelled :
    ({} : SimulationSettings).tradeProbability.toFloat.isNaN = false ∧
      Wake.ticking [.tick 5, .tick 6, .cancelled, .tick 7] = [5, 6] ∧
      InShape ChaCha.draws ⟨{}, [("BTC-USD", 65000.0), ("X", 100.0)], .ofSeed 42⟩ 2 ∧
      CallsInOrder ChaCha.draws ⟨{}, [("BTC-USD", 65000.0), ("X", 100.0)], .ofSeed 42⟩
        [.tick 5, .tick 6, .cancelled, .tick 7] ∧
      CallsAreKnown ChaCha.draws {} [⟨1, "BTC-USD", ""⟩, ⟨2, "X", ""⟩] (.ofSeed 42) [5, 6] := by
  have hp : ({} : SimulationSettings).tradeProbability.toFloat.isNaN = false := by decide
  obtain ⟨hshape, horder, hknown⟩ := ticks_are_told ChaCha.draws hp
  exact ⟨hp, rfl, hshape _ _ 2, horder _ _ _, hknown _ _ [.tick 5, .tick 6, .cancelled, .tick 7]⟩

end SimulatedFeed
end MarketRelay
