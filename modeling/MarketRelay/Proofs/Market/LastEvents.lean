import MarketRelay.Proofs.Market.Follow
import Mathlib.Data.Finset.Card
import Mathlib.Data.Finset.Dedup
import Mathlib.Data.List.Induction
import Mathlib.Data.List.Nodup

/-!
# What a cache remembers

Of all events that it was told a cache remembers, for each symbol, the last trade and the last
quote.  Last is what was told last, whatever the times that events carry.

* `get_ofEvents`: the state of a symbol is made of the last trade and the last quote of that symbol.
  A trade leaves what is known of quotes alone, a quote what is known of trades, and an event of one
  symbol all that is known of others.  The induction is on the events from the end, since one more
  event can only take the place of the last one of its kind (`getLast?_ofKind_concat`).
* `mem_symbols_ofEvents`: what is in a cache are the symbols that had an event, each of them once.
* `timeless_get_retimed`: the times of events are kept with what happened and decide nothing.
* `remembers_last_events`: so caches that were told the same last events hold the same, in whatever
  order they were told of different symbols and of trades and quotes.

Caches hold states in the order in which their symbols first had an event, so two that remember the
same need not be equal as lists; they are permutations of each other.
-/
namespace MarketRelay

/-! ## Trades and quotes among events -/

def Occurrence.trade? : Occurrence → Option Trade
  | .trade t => some t
  | .quote _ => none

def Occurrence.quote? : Occurrence → Option Quote
  | .trade _ => none
  | .quote q => some q

namespace MarketEvent

/-- What events of a symbol were of a kind, in order. -/
def ofKind {α : Type} (kind : Occurrence → Option α) (id : SymbolId) (events : List MarketEvent) :
    List α :=
  events.filterMap fun e => if e.symbolId = id then kind e.occurrence else none

def lastTrade? (id : SymbolId) (events : List MarketEvent) : Option Trade :=
  (ofKind Occurrence.trade? id events).getLast?

def lastQuote? (id : SymbolId) (events : List MarketEvent) : Option Quote :=
  (ofKind Occurrence.quote? id events).getLast?

/-- The event as if it had happened at another time. -/
def retimed (e : MarketEvent) (timestamp : Int64) : MarketEvent :=
  match e.occurrence with
  | .trade t => { e with occurrence := .trade { t with timestamp := timestamp } }
  | .quote q => { e with occurrence := .quote { q with timestamp := timestamp } }

/-- Two lists of events have, for every symbol, one last trade and one last quote. -/
structure SameLast (events events' : List MarketEvent) : Prop where
  trade : ∀ id, lastTrade? id events = lastTrade? id events'
  quote : ∀ id, lastQuote? id events = lastQuote? id events'
  symbols : ∀ id, id ∈ events.map (·.symbolId) ↔ id ∈ events'.map (·.symbolId)

variable {α : Type} (kind : Occurrence → Option α)

/-- Only an event of the symbol can be later than the last one of the kind. -/
theorem getLast?_ofKind_concat (id : SymbolId) (events : List MarketEvent) (e : MarketEvent) :
    (ofKind kind id (events ++ [e])).getLast? =
      (if e.symbolId = id then kind e.occurrence else none).or
        (ofKind kind id events).getLast? := by
  have hone : (ofKind kind id [e]).getLast? =
      if e.symbolId = id then kind e.occurrence else none := by
    rw [ofKind, List.filterMap_cons, List.filterMap_nil]
    cases if e.symbolId = id then kind e.occurrence else none <;> rfl
  rw [← hone, ofKind, List.filterMap_append, List.getLast?_append]
  rfl

theorem ofKind_filter (id : SymbolId) (events : List MarketEvent) :
    ofKind kind id (events.filter (·.symbolId = id)) = ofKind kind id events := by
  rw [ofKind, List.filterMap_filter, ofKind]
  congr 1
  funext e
  by_cases h : e.symbolId = id <;> simp [h]

end MarketEvent

open MarketEvent

/-! ## States -/

namespace MarketDataSnapshot

/-- The state of a symbol's market after a last trade and a last quote; what there was none of is
zero. -/
def ofLast (id : SymbolId) (trade : Option Trade) (quote : Option Quote) :
    MarketDataSnapshot where
  symbolId := id
  lastTradePrice := (trade.map (·.price)).getD .zero
  lastTradeVolume := (trade.map (·.volume)).getD .zero
  lastTradeTimestamp := (trade.map (·.timestamp)).getD 0
  bidPrice := (quote.map (·.bidPrice)).getD .zero
  bidQuantity := (quote.map (·.bidQuantity)).getD .zero
  askPrice := (quote.map (·.askPrice)).getD .zero
  askQuantity := (quote.map (·.askQuantity)).getD .zero
  bidAskTimestamp := (quote.map (·.timestamp)).getD 0

theorem apply_ofLast (id : SymbolId) (trade : Option Trade) (quote : Option Quote)
    (o : Occurrence) :
    (ofLast id trade quote).apply o = ofLast id (o.trade?.or trade) (o.quote?.or quote) := by
  cases o <;> rfl

def timeless (s : MarketDataSnapshot) : MarketDataSnapshot :=
  { s with lastTradeTimestamp := 0, bidAskTimestamp := 0 }

theorem timeless_apply_retimed {s s' : MarketDataSnapshot} (h : s.timeless = s'.timeless)
    (e : MarketEvent) (timestamp : Int64) :
    (s.apply (e.retimed timestamp).occurrence).timeless = (s'.apply e.occurrence).timeless := by
  obtain ⟨id, o⟩ := e
  simp only [timeless, MarketDataSnapshot.mk.injEq] at h
  cases o <;> simp [retimed, apply, timeless, h]

end MarketDataSnapshot

/-! ## Caches -/

namespace SnapshotCache

variable {c c' : SnapshotCache} {id : SymbolId}

def ofEvents (events : List MarketEvent) : SnapshotCache := events.foldl apply {}

theorem ofEvents_concat (events : List MarketEvent) (e : MarketEvent) :
    ofEvents (events ++ [e]) = (ofEvents events).apply e :=
  List.foldl_append

theorem get_ofEvents (events : List MarketEvent) (id : SymbolId) :
    (ofEvents events).get id =
      .ofLast id (lastTrade? id events) (lastQuote? id events) := by
  induction events using List.reverseRecOn with
  | nil => rfl
  | append_singleton events e ih =>
      have htrade : lastTrade? id (events ++ [e]) = _ :=
        getLast?_ofKind_concat Occurrence.trade? id events e
      have hquote : lastQuote? id (events ++ [e]) = _ :=
        getLast?_ofKind_concat Occurrence.quote? id events e
      rw [ofEvents_concat, get_apply, ih, htrade, hquote]
      split
      · exact MarketDataSnapshot.apply_ofLast id _ _ e.occurrence
      · rfl

theorem timeless_get_retimed (clock : MarketEvent → Int64) (events : List MarketEvent)
    (id : SymbolId) :
    ((ofEvents (events.map fun e => e.retimed (clock e))).get id).timeless =
      ((ofEvents events).get id).timeless := by
  induction events using List.reverseRecOn with
  | nil => rfl
  | append_singleton events e ih =>
      have hid : (e.retimed (clock e)).symbolId = e.symbolId := by
        obtain ⟨id, o⟩ := e
        cases o <;> rfl
      rw [List.map_append, List.map_singleton, ofEvents_concat, ofEvents_concat, get_apply,
        get_apply, hid]
      split
      · exact MarketDataSnapshot.timeless_apply_retimed ih e (clock e)
      · exact ih

/-! ## What is in a cache -/

def symbols (c : SnapshotCache) : List SymbolId := c.entries.map (·.symbolId)

theorem contains_iff : c.contains id = true ↔ id ∈ c.symbols := by
  simp [contains, symbols]

theorem symbols_apply (c : SnapshotCache) (e : MarketEvent) :
    (c.apply e).symbols =
      if e.symbolId ∈ c.symbols then c.symbols else c.symbols ++ [e.symbolId] := by
  have hkey : (·.symbolId) ∘
      (fun s : MarketDataSnapshot =>
        if s.symbolId == e.symbolId then s.apply e.occurrence else s) = (·.symbolId) := by
    funext s
    simp only [Function.comp]
    split
    · exact MarketDataSnapshot.symbolId_apply s e.occurrence
    · rfl
  unfold apply
  by_cases hmem : e.symbolId ∈ c.symbols
  · rw [if_pos (contains_iff.mpr hmem), if_pos hmem, symbols, List.map_map, hkey, symbols]
  · rw [if_neg (mt contains_iff.mp hmem), if_neg hmem, symbols, List.map_append,
      List.map_singleton, MarketDataSnapshot.symbolId_apply]
    rfl

theorem nodup_symbols_ofEvents (events : List MarketEvent) : (ofEvents events).symbols.Nodup := by
  induction events using List.reverseRecOn with
  | nil => exact List.nodup_nil
  | append_singleton events e ih =>
      rw [ofEvents_concat, symbols_apply]
      split
      · exact ih
      · next hnew =>
          rw [← List.concat_eq_append]
          exact ih.concat hnew

theorem mem_symbols_ofEvents {events : List MarketEvent} :
    id ∈ (ofEvents events).symbols ↔ id ∈ events.map (·.symbolId) := by
  induction events using List.reverseRecOn with
  | nil => rfl
  | append_singleton events e ih =>
      rw [ofEvents_concat, symbols_apply, List.map_append, List.map_singleton, List.mem_append,
        ← ih, List.mem_singleton]
      split
      · next hmem =>
          constructor
          · exact .inl
          · rintro (h | rfl)
            · exact h
            · exact hmem
      · exact List.mem_append.trans (or_congr_right List.mem_singleton)

/-- Where no symbol is there twice, the states in a cache are those that it tells of its symbols. -/
theorem mem_entries_iff (h : c.symbols.Nodup) {s : MarketDataSnapshot} :
    s ∈ c.entries ↔ s.symbolId ∈ c.symbols ∧ c.get s.symbolId = s := by
  constructor
  · intro hs
    have hsome : (c.entries.find? fun t => t.symbolId == s.symbolId).isSome = true :=
      List.find?_isSome.mpr ⟨s, hs, beq_self_eq_true s.symbolId⟩
    obtain ⟨t, hfind⟩ := Option.isSome_iff_exists.mp hsome
    have hid : t.symbolId = s.symbolId := by simpa using List.find?_some hfind
    have heq : t = s := List.inj_on_of_nodup_map h (List.mem_of_find?_eq_some hfind) hs hid
    refine ⟨List.mem_map_of_mem hs, ?_⟩
    rw [get, hfind]
    exact heq
  · rintro ⟨hmem, hget⟩
    obtain ⟨t, ht, hid⟩ := List.mem_map.mp hmem
    have hsome : (c.entries.find? fun t => t.symbolId == s.symbolId).isSome = true :=
      List.find?_isSome.mpr ⟨t, ht, beq_iff_eq.mpr hid⟩
    obtain ⟨u, hfind⟩ := Option.isSome_iff_exists.mp hsome
    rw [get, hfind] at hget
    exact hget ▸ List.mem_of_find?_eq_some hfind

theorem entries_perm_of_get_eq (h : c.symbols.Nodup) (h' : c'.symbols.Nodup)
    (hsymbols : ∀ id, id ∈ c.symbols ↔ id ∈ c'.symbols) (hget : ∀ id, c.get id = c'.get id) :
    c.entries.Perm c'.entries := by
  refine (List.perm_ext_iff_of_nodup h.of_map h'.of_map).mpr fun s => ?_
  rw [mem_entries_iff h, mem_entries_iff h', hsymbols, hget]

/-! ## Last events -/

structure Remembers (c : SnapshotCache) (events : List MarketEvent) : Prop where
  /-- It holds the last trade and the last quote of every symbol. -/
  get : ∀ id, c.get id = .ofLast id (lastTrade? id events) (lastQuote? id events)
  /-- What happened to other symbols makes no difference. -/
  others : ∀ id, c.get id = (ofEvents (events.filter (·.symbolId = id))).get id
  /-- The times of the events make a difference to the times that are remembered only. -/
  times : ∀ (clock : MarketEvent → Int64) id, (c.get id).timeless =
    ((ofEvents (events.map fun e => e.retimed (clock e))).get id).timeless
  contains : ∀ id, c.contains id = true ↔ id ∈ events.map (·.symbolId)
  /-- It holds one state for each symbol. -/
  distinct : c.symbols.Nodup
  size : c.size = (events.map (·.symbolId)).toFinset.card

theorem remembers_ofEvents (events : List MarketEvent) :
    (ofEvents events).Remembers events where
  get := get_ofEvents events
  others := by
    intro id
    rw [get_ofEvents, get_ofEvents, lastTrade?, lastQuote?, lastTrade?, lastQuote?, ofKind_filter,
      ofKind_filter]
  times := fun clock id => (timeless_get_retimed clock events id).symm
  contains := fun _ => contains_iff.trans mem_symbols_ofEvents
  distinct := nodup_symbols_ofEvents events
  size := by
    have hsymbols : (ofEvents events).symbols.toFinset = (events.map (·.symbolId)).toFinset := by
      ext id
      rw [List.mem_toFinset, List.mem_toFinset, mem_symbols_ofEvents]
    rw [← hsymbols, List.toFinset_card_of_nodup (nodup_symbols_ofEvents events), symbols,
      List.length_map]
    rfl

/-- **A cache is its last events.**  Of events in any order a cache remembers the last trade and the
last quote of every symbol and nothing else, so two caches that were told the same last events hold
the same states. -/
theorem remembers_last_events (events : List MarketEvent) :
    (ofEvents events).Remembers events ∧
      ∀ events', SameLast events events' →
        (ofEvents events).entries.Perm (ofEvents events').entries ∧
          ∀ id, (ofEvents events).get id = (ofEvents events').get id := by
  refine ⟨remembers_ofEvents events, fun events' hsame => ?_⟩
  have hget : ∀ id, (ofEvents events).get id = (ofEvents events').get id := by
    intro id
    rw [get_ofEvents, get_ofEvents, hsame.trade, hsame.quote]
  have hsymbols : ∀ id, id ∈ (ofEvents events).symbols ↔ id ∈ (ofEvents events').symbols := by
    intro id
    rw [mem_symbols_ofEvents, mem_symbols_ofEvents, hsame.symbols]
  exact ⟨entries_perm_of_get_eq (nodup_symbols_ofEvents events) (nodup_symbols_ofEvents events')
    hsymbols hget, hget⟩

/-- Two caches that were told of two symbols in different orders, one of them of an older trade,
too, list the symbols in different orders and hold the same states. -/
theorem remembers_last_events_reordered :
    let quote : MarketEvent := ⟨1, .quote ⟨⟨1⟩, ⟨2⟩, ⟨3⟩, ⟨4⟩, 5⟩⟩
    let trade : MarketEvent := ⟨1, .trade ⟨⟨6⟩, ⟨7⟩, .buy, 3⟩⟩
    let older : MarketEvent := ⟨1, .trade ⟨⟨8⟩, ⟨9⟩, .sell, 9⟩⟩
    let other : MarketEvent := ⟨2, .trade ⟨⟨10⟩, ⟨11⟩, .sell, 4⟩⟩
    SameLast [quote, trade, other] [other, older, trade, quote] ∧
      (ofEvents [quote, trade, other]).symbols = [1, 2] ∧
      (ofEvents [other, older, trade, quote]).symbols = [2, 1] ∧
      (ofEvents [quote, trade, other]).entries.Perm
        (ofEvents [other, older, trade, quote]).entries := by
  intro quote trade older other
  have hids : ∀ id : SymbolId, id = 1 ∨ id = 2 ∨ 1 ≠ id ∧ 2 ≠ id := by
    intro id
    tauto
  have hsame : SameLast [quote, trade, other] [other, older, trade, quote] := by
    constructor
    · intro id
      rcases hids id with rfl | rfl | ⟨h₁, h₂⟩
      · rfl
      · rfl
      · simp [lastTrade?, ofKind, quote, trade, older, other, h₁, h₂]
    · intro id
      rcases hids id with rfl | rfl | ⟨h₁, h₂⟩
      · rfl
      · rfl
      · simp [lastQuote?, ofKind, quote, trade, older, other, h₁, h₂]
    · intro id
      simp [quote, trade, older, other, or_comm]
  exact ⟨hsame, by decide, by decide, ((remembers_last_events _).2 _ hsame).1⟩

end SnapshotCache
end MarketRelay
