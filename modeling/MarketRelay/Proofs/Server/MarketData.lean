import MarketRelay.Proofs.Market.Follow
import MarketRelay.Proofs.Relay.Requests
import MarketRelay.Proofs.Server.Deliveries

/-!
# The market data of a server

Whatever those who work at a server do, the market data that waits for clients is of a symbol of the
settings and has prices and quantities that a market can quote, and so has what the server keeps of
each market.

`SymbolTable.Allows` is what is asked of a symbol and of values, `Message.IsAllowed` of a message
that carries them, `SnapshotCache.IsAllowed` of a cache.  The proof goes once around:

* an event that is published was checked before, whichever way it came (`allows_of_event?`), so it
  leaves allowed snapshots behind (`SnapshotCache.IsAllowed.apply`);
* where the snapshots are allowed, so is all market data that is built (`isAllowed_of_builds`).
  A symbol without an event has a snapshot of zeros, which a market can quote;
* so the two together are an invariant of steps (`TellsAllowedData.step`), in which what is said is
  taken from `Speaks`.

Prices are told as they came, so frames carry them as they are (`Message.marketData?_norm`).
-/
namespace MarketRelay

/-! ## Good market data -/

/-- The prices and quantities of a snapshot. -/
def MarketDataSnapshot.values (s : MarketDataSnapshot) : List Binary64 :=
  [s.lastTradePrice, s.lastTradeVolume, s.bidPrice, s.bidQuantity, s.askPrice, s.askQuantity]

def Message.marketData? : Message → Option (SymbolId × List Binary64)
  | .marketDataSnapshot m => some (m.symbolId, m.values)
  | .marketDataUpdateTrade m => some (m.symbolId, [m.price, m.volume])
  | .marketDataUpdateBidAsk m =>
    some (m.symbolId, [m.bidPrice, m.bidQuantity, m.askPrice, m.askQuantity])
  | _ => none

/-- The symbol is in the table, with a number that is not the one of no symbol, and a market can
quote the values. -/
structure SymbolTable.Allows (table : SymbolTable) (symbol : SymbolId) (values : List Binary64) :
    Prop where
  known : table.contains symbol = true
  symbol_ne : symbol ≠ .unspecified
  quotable : ∀ x ∈ values, x.IsQuotable

/-- If the message is one of market data, it is good. -/
def Message.IsAllowed (table : SymbolTable) (m : Message) : Prop :=
  ∀ symbol values, m.marketData? = some (symbol, values) → table.Allows symbol values

theorem Message.marketData?_norm (m : Message) : m.norm.marketData? = m.marketData? := by
  cases m with
  | marketDataSnapshot m | marketDataUpdateTrade m | marketDataUpdateBidAsk m => rfl
  -- both sides are `none`, which keeps the texts from being compared
  | _ => exact Eq.trans (b := none) rfl rfl

theorem MarketEvent.marketData?_toMessage (e : MarketEvent) :
    e.toMessage.marketData? = some (e.symbolId, e.occurrence.values) := by
  obtain ⟨symbol, o⟩ := e
  cases o <;> rfl

namespace MarketDataSnapshot

variable {s : MarketDataSnapshot} {x : Binary64}

theorem isQuotable_blank {id : SymbolId} (h : x ∈ (blank id).values) : x.IsQuotable := by
  have hzero : x = .zero := by simpa [blank, values] using h
  rw [hzero]
  exact ⟨0, rfl⟩

theorem mem_values_apply {o : Occurrence} (h : x ∈ (s.apply o).values) :
    x ∈ s.values ∨ x ∈ o.values := by
  cases o with
  | trade t =>
      simp only [apply, values, Occurrence.values, List.mem_cons, List.not_mem_nil] at h ⊢
      tauto
  | quote q =>
      simp only [apply, values, Occurrence.values, List.mem_cons, List.not_mem_nil] at h ⊢
      tauto

end MarketDataSnapshot

namespace SnapshotCache

variable {cache : SnapshotCache} {entry : MarketDataSnapshot} {symbol : SymbolId}

theorem get_mem_or_eq_blank (cache : SnapshotCache) (symbol : SymbolId) :
    cache.get symbol ∈ cache.entries ∨ cache.get symbol = .blank symbol := by
  unfold get
  cases hfind : cache.entries.find? fun s => s.symbolId == symbol with
  | none => exact Or.inr rfl
  | some s => exact Or.inl (List.mem_of_find?_eq_some hfind)

/-- What an event leaves alone was there before, and what it changes is its own market. -/
theorem mem_apply {e : MarketEvent} (h : entry ∈ (cache.apply e).entries) :
    entry ∈ cache.entries ∨
      ∃ old : MarketDataSnapshot, (old ∈ cache.entries ∨ old = .blank e.symbolId) ∧
        old.symbolId = e.symbolId ∧ entry = old.apply e.occurrence := by
  unfold apply at h
  split at h
  · obtain ⟨old, hold, rfl⟩ := List.mem_map.mp h
    split
    · rename_i hsymbol
      exact Or.inr ⟨old, Or.inl hold, beq_iff_eq.mp hsymbol, rfl⟩
    · exact Or.inl hold
  · rcases List.mem_append.mp h with hold | hnew
    · exact Or.inl hold
    · exact Or.inr ⟨.blank e.symbolId, Or.inr rfl, rfl, List.mem_singleton.mp hnew⟩

/-- All that the cache has of markets is good. -/
def IsAllowed (table : SymbolTable) (cache : SnapshotCache) : Prop :=
  ∀ entry ∈ cache.entries, table.Allows entry.symbolId entry.values

variable {table : SymbolTable}

theorem IsAllowed.get (h : cache.IsAllowed table) (hknown : table.contains symbol = true)
    (hne : symbol ≠ .unspecified) : table.Allows symbol (cache.get symbol).values := by
  rcases cache.get_mem_or_eq_blank symbol with hmem | hblank
  · have hentry := h _ hmem
    rwa [symbolId_get] at hentry
  · refine ⟨hknown, hne, fun x hx => ?_⟩
    rw [hblank] at hx
    exact MarketDataSnapshot.isQuotable_blank hx

theorem IsAllowed.apply (h : cache.IsAllowed table) {e : MarketEvent}
    (he : table.Allows e.symbolId e.occurrence.values) : (cache.apply e).IsAllowed table := by
  intro entry hentry
  rcases mem_apply hentry with hold | ⟨old, hold, hsymbol, rfl⟩
  · exact h entry hold
  · rw [MarketDataSnapshot.symbolId_apply, hsymbol]
    refine ⟨he.known, he.symbol_ne, fun x hx => ?_⟩
    rcases MarketDataSnapshot.mem_values_apply hx with hkept | hnew
    · rcases hold with hmem | rfl
      · exact (h old hmem).quotable x hkept
      · exact MarketDataSnapshot.isQuotable_blank hkept
    · exact he.quotable x hnew

end SnapshotCache

theorem Config.ne_unspecified {c : Config} (hc : c.validate = .ok ()) {symbol : SymbolId}
    (h : (SymbolTable.ofList c.symbols).contains symbol = true) : symbol ≠ .unspecified := by
  have hvalid := validate_eq_ok_iff.mp hc
  obtain ⟨e, he, rfl⟩ := List.mem_map.mp (SymbolTable.contains_iff.mp h)
  exact (hvalid.symbols e ((SymbolTable.ofList_perm hvalid.distinct).mem_iff.mp he)).id_ne

namespace Service

variable {c : Config} {s : Service} {st : ServerStep} {e : MarketEvent} {m : Message}

structure TellsAllowedData (c : Config) (s : Service) : Prop where
  speaks : s.Speaks (Message.IsAllowed (.ofList c.symbols))
  snapshots : s.relay.snapshots.IsAllowed (.ofList c.symbols)

theorem symbols_eq (hsound : Sound c s) : s.relay.symbols = .ofList c.symbols := by
  rw [Relay.symbols, hsound.config]

theorem allows_of_event? (hc : c.validate = .ok ()) (hsound : Sound c s)
    (h : s.event? st = some e) :
    (SymbolTable.ofList c.symbols).Allows e.symbolId e.occurrence.values := by
  obtain ⟨hknown, hquotable⟩ := known_and_quotable_of_event? h
  rw [symbols_eq hsound] at hknown
  exact ⟨hknown, Config.ne_unspecified hc hknown, hquotable⟩

/-- Where the snapshots are good, so is all market data that is built. -/
theorem isAllowed_of_builds (hc : c.validate = .ok ()) (hsound : Sound c s)
    (hsnapshots : s.relay.snapshots.IsAllowed (.ofList c.symbols)) (h : s.Builds m) :
    m.IsAllowed (.ofList c.symbols) := by
  intro symbol values hdata
  cases h with
  | answer hnext hreply =>
      cases replies_of_reply hreply with
      | snapshot hknown =>
          obtain ⟨hsymbol, rfl⟩ := Prod.mk.inj (Option.some.inj hdata)
          rw [SnapshotCache.symbolId_get] at hsymbol
          subst hsymbol
          rw [symbols_eq hsound] at hknown
          exact hsnapshots.get hknown (Config.ne_unspecified hc hknown)
      | _ => cases hdata
  | event hevent =>
      rw [MarketEvent.marketData?_toMessage] at hdata
      obtain ⟨rfl, rfl⟩ := Prod.mk.inj (Option.some.inj hdata)
      exact allows_of_event? hc hsound hevent
  | heartbeat t clock => cases hdata
  | farewell => cases hdata

theorem TellsAllowedData.step (h : TellsAllowedData c s) (hc : c.validate = .ok ())
    (hsound : Sound c s) (st : ServerStep) : TellsAllowedData c (s.step st) where
  speaks := h.speaks.step hsound (fun _ hm => isAllowed_of_builds hc hsound h.snapshots hm) st
  snapshots := by
    rw [snapshots_step]
    cases hevent : s.event? st with
    | none => exact h.snapshots
    | some e => exact h.snapshots.apply (allows_of_event? hc hsound hevent)

theorem tellsAllowedData_run (hc : c.validate = .ok ()) (steps : List ServerStep) :
    TellsAllowedData c ((ofConfig c).run steps) := by
  have hstep : ∀ s st, Sound c s ∧ TellsAllowedData c s →
      Sound c (s.step st) ∧ TellsAllowedData c (s.step st) :=
    fun s st h => ⟨h.1.step st, h.2.step hc h.1 st⟩
  have hstart : Sound c (ofConfig c) ∧ TellsAllowedData c (ofConfig c) :=
    ⟨sound_ofConfig c, speaks_ofConfig _ c, fun _ hsnap => absurd hsnap List.not_mem_nil⟩
  exact (Relay.foldl_induction hstep hstart steps).2

/-- **Only good market data reaches clients.**  Where events come from feeds and from the owner of
the server only, every frame that waits for a client is of a message which, if it is one of market
data, is about a symbol of the settings, under a number that is not that of no symbol, and has
prices and quantities that are finite and at least zero; and so are all snapshots that are kept. -/
theorem market_data_is_known_and_quotable (hc : c.validate = .ok ()) (steps : List ServerStep) :
    let r := ((ofConfig c).run steps).relay
    (∀ t ∈ r.registry.sessions, ∀ frame ∈ t.queue.frames,
      ∃ m, (∀ limit ∈ [defaultFrameLimit, c.maxMessageSize],
          Message.decode limit frame = .ok m) ∧ m.IsAllowed (.ofList c.symbols)) ∧
      r.snapshots.IsAllowed (.ofList c.symbols) := by
  obtain ⟨hspeaks, hsnapshots⟩ := tellsAllowedData_run hc steps
  refine ⟨fun t ht frame hframe => ?_, hsnapshots⟩
  obtain ⟨m, hm, rfl⟩ := hspeaks.queued t ht frame hframe
  refine ⟨m.norm, Message.decode_encode_of_validate hc m, ?_⟩
  intro symbol values hdata
  rw [Message.marketData?_norm] at hdata
  exact hm symbol values hdata

/-- A client follows a symbol of which a feed tells a trade, and then a quote that is refused. -/
def traded : List ServerStep :=
  [.accept (.v4 127 0 0 1 50000) 0,
    .decode 1 (Message.marketDataRequest ⟨.subscribe, 0, "BTC-USD", ""⟩).encode 1,
    .feed "BTC-USD" (.trade ⟨⟨5⟩, ⟨6⟩, .sell, 7⟩) 0,
    .feed "BTC-USD" (.quote ⟨⟨1⟩, ⟨0x7FF0000000000000⟩, ⟨1⟩, ⟨1⟩, 8⟩) 0]

/-- The blank snapshot that the client got first is good, and so is the trade, also where it is
kept. -/
theorem market_data_is_known_and_quotable_traded :
    let c : Config := {}
    let r := ((ofConfig c).run traded).relay
    let trade : Message := .marketDataUpdateTrade ⟨1, .sell, ⟨5⟩, ⟨6⟩, 7⟩
    c.validate = .ok () ∧
      r.registry.sessions.map (·.queue.frames) =
        [[(Message.marketDataSnapshot (.blank 1)).encode, trade.encode]] ∧
      (∃ m, Message.decode 4096 trade.encode = .ok m ∧ m.IsAllowed (.ofList c.symbols)) ∧
      r.snapshots.entries = [⟨1, ⟨5⟩, ⟨6⟩, 7, .zero, .zero, .zero, .zero, 0⟩] ∧
      r.snapshots.IsAllowed (.ofList c.symbols) := by
  intro c r trade
  have hc : c.validate = .ok () := by decide +kernel
  have hframes : r.registry.sessions.map (·.queue.frames) =
      [[(Message.marketDataSnapshot (.blank 1)).encode, trade.encode]] := by decide +kernel
  obtain ⟨hqueued, hsnapshots⟩ := market_data_is_known_and_quotable hc traded
  refine ⟨hc, hframes, ?_, by decide +kernel, hsnapshots⟩
  obtain ⟨t, ht, hqueue⟩ := List.mem_map.mp (hframes ▸ List.mem_singleton_self _)
  obtain ⟨m, hdecode, hgood⟩ := hqueued t ht trade.encode (by simp [hqueue])
  exact ⟨m, hdecode 4096 (by decide), hgood⟩

end Service
end MarketRelay
