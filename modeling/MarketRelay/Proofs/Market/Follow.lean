import MarketRelay.Market.Snapshot
import MarketRelay.Proofs.Wire.RoundTrip

/-!
# Following a market

A client that subscribes to a symbol is sent the state of its market and then what happens there.
`follow` is how the client keeps its own state, and `replay` reads that state off the frames that it
got: the first of them has to hold a state, and what follows is followed.

The relay for its part applies events to its cache, which keeps the states of the symbols apart
(`get_apply`).  That the two sides agree comes down to one equation, `follow_toMessage`: to follow
the message that tells of an event is to apply the event, or to pass it over if it is of another
symbol.  `replay_encode` takes it through the codec.  On the way it is used that market data is read
as it was sent (`follow_norm`); messages in general are not, since texts may be cut.
-/
namespace MarketRelay

/-! ## The cache -/

@[simp] theorem MarketDataSnapshot.symbolId_apply (s : MarketDataSnapshot) (o : Occurrence) :
    (s.apply o).symbolId = s.symbolId := by
  cases o <;> rfl

namespace SnapshotCache

@[simp] theorem symbolId_get (c : SnapshotCache) (id : SymbolId) : (c.get id).symbolId = id := by
  unfold get
  cases hfind : c.entries.find? fun s => s.symbolId == id with
  | none => rfl
  | some s => simpa using List.find?_some hfind

theorem get_apply (c : SnapshotCache) (e : MarketEvent) (id : SymbolId) :
    (c.apply e).get id =
      if e.symbolId = id then (c.get id).apply e.occurrence else c.get id := by
  unfold apply
  by_cases hcontains : c.contains e.symbolId = true
  · rw [if_pos hcontains]
    have hkey : (fun s : MarketDataSnapshot => s.symbolId == id) ∘
        (fun s => if s.symbolId == e.symbolId then s.apply e.occurrence else s) =
          fun s => s.symbolId == id := by
      funext s
      simp only [Function.comp]
      split
      · rw [MarketDataSnapshot.symbolId_apply]
      · rfl
    simp only [get, List.find?_map, hkey]
    cases hfind : c.entries.find? fun s => s.symbolId == id with
    | none =>
        obtain ⟨s, hs, hid⟩ := List.any_eq_true.mp hcontains
        have hne : e.symbolId ≠ id := by
          rintro rfl
          exact List.find?_eq_none.mp hfind s hs hid
        simp [hne]
    | some s =>
        have hid : s.symbolId = id := by simpa using List.find?_some hfind
        by_cases heq : e.symbolId = id
        · simp [hid, heq]
        · simp [hid, heq, Ne.symm heq]
  · rw [if_neg hcontains]
    have hnone : (c.entries.find? fun s => s.symbolId == e.symbolId) = none :=
      List.find?_eq_none.mpr fun s hs hid => hcontains (List.any_eq_true.mpr ⟨s, hs, hid⟩)
    simp only [get, List.find?_append]
    by_cases hid : e.symbolId = id
    · subst hid
      simp [hnone, MarketDataSnapshot.blank]
    · simp [hid, MarketDataSnapshot.blank]

end SnapshotCache

/-! ## The client -/

namespace MarketDataSnapshot

/-- The state of a market as its client sees it after one more message.  What is not about the
symbol is passed over. -/
def follow (s : MarketDataSnapshot) : Message → MarketDataSnapshot
  | .marketDataSnapshot s' => if s'.symbolId = s.symbolId then s' else s
  | .marketDataUpdateTrade m =>
    if m.symbolId = s.symbolId then s.apply (.trade ⟨m.price, m.volume, m.side, m.timestamp⟩)
    else s
  | .marketDataUpdateBidAsk m =>
    if m.symbolId = s.symbolId then
      s.apply (.quote ⟨m.bidPrice, m.bidQuantity, m.askPrice, m.askQuantity, m.timestamp⟩)
    else s
  | _ => s

theorem follow_toMessage (s : MarketDataSnapshot) (e : MarketEvent) :
    s.follow e.toMessage = if e.symbolId = s.symbolId then s.apply e.occurrence else s := by
  obtain ⟨id, o⟩ := e
  cases o <;> rfl

theorem follow_norm (s : MarketDataSnapshot) (m : Message) : s.follow m.norm = s.follow m := by
  cases m with
  | marketDataSnapshot m | marketDataUpdateTrade m | marketDataUpdateBidAsk m => rfl
  -- both sides are `s`, which keeps the texts from being compared
  | _ => exact Eq.trans (b := s) rfl rfl

/-- The state of the market of a symbol that frames tell.  The first one must hold a state; the
others hold what followed. -/
def replay (symbol : SymbolId) (frames : List (List UInt8)) : Option MarketDataSnapshot :=
  match frames.mapM (fun frame => (Message.decode defaultFrameLimit frame).toOption) with
  | some (.marketDataSnapshot start :: later) =>
    if start.symbolId = symbol then some (later.foldl follow start) else none
  | _ => none

theorem replay_encode {start : MarketDataSnapshot} {symbol : SymbolId}
    (h : start.symbolId = symbol) (later : List Message) :
    replay symbol ((.marketDataSnapshot start :: later).map Message.encode) =
      some (later.foldl follow start) := by
  have hread : ∀ ms : List Message,
      (ms.map Message.encode).mapM
          (fun frame => (Message.decode defaultFrameLimit frame).toOption) =
        some (ms.map Message.norm) := by
    intro ms
    induction ms with
    | nil => rfl
    | cons m rest ih =>
        rw [List.map_cons, List.mapM_cons, ih,
          Message.decode_encode m.frameSize_le_defaultFrameLimit]
        rfl
  have hfollow : ∀ s, (later.map Message.norm).foldl follow s = later.foldl follow s := by
    intro s
    rw [List.foldl_map]
    simp only [follow_norm]
  rw [replay, hread, List.map_cons]
  show (if start.symbolId = symbol then some ((later.map Message.norm).foldl follow start)
    else none) = some (later.foldl follow start)
  rw [if_pos h, hfollow]

end MarketDataSnapshot
end MarketRelay
