import MarketRelay.Proofs.Market.SymbolTable
import MarketRelay.Proofs.Wire.RoundTrip
import MarketRelay.Config.Basic

/-!
# Settings that a relay can run with

`Config.validate` lets settings pass just if they are `Config.Valid`: every number is in its range,
a logon that is required carries something, the address can be read, and the symbols have names and
numbers that tell them apart.

* `validate_eq_ok_iff`: the equivalence.  `validate` looks at the settings one after the other and
  stops at the first that is wrong; each look is a `check`, so `check_eq_ok_iff` takes them off one
  by one and leaves the conjunction of what they look for.
* `checkSymbols_eq_ok_iff`: the symbols.  The check goes down the list with the numbers and names
  that it has seen, and the proof is by induction on the list for any numbers and names seen before.
* `frameSize_le_maxMessageSize`: settings that pass let every frame pass that the relay sends, so
  the limit on incoming frames never makes a relay unable to read its own.
-/
namespace MarketRelay

/-- A request has room for the name, and the number is not the one of no symbol. -/
structure SymbolEntry.Valid (e : SymbolEntry) : Prop where
  id_ne : e.id ≠ .unspecified
  name_ne : e.name ≠ ""
  size_le : e.name.utf8ByteSize ≤ Config.maxNameSize

namespace Config

structure Valid (c : Config) : Prop where
  heartbeat_ne : c.heartbeatIntervalSecs ≠ 0
  heartbeat_le : c.heartbeatIntervalSecs ≤ maxHeartbeatIntervalSecs
  clients_ne : c.maxClients ≠ 0
  queue_ne : c.outboundQueueCapacity ≠ 0
  messageSize_ge : minMessageSize ≤ c.maxMessageSize
  messageSize_le : c.maxMessageSize ≤ maxMessageSizeLimit
  password_ne : c.requireAuthentication = true → c.password ≠ ""
  address : ∃ a, c.listenAddress = .ok a
  symbols : ∀ e ∈ c.symbols, e.Valid
  distinct : SymbolEntry.Distinct c.symbols

theorem check_eq_ok_iff {p : Prop} [Decidable p] {error : ConfigError}
    {rest : Except ConfigError Unit} :
    (if p then .error error else rest) = .ok () ↔ ¬ p ∧ rest = .ok () := by
  split <;> simp_all

theorem checkSymbol_eq_ok_iff {ids : List SymbolId} {names : List String} {e : SymbolEntry} :
    checkSymbol ids names e = .ok () ↔ e.Valid ∧ e.id ∉ ids ∧ e.name ∉ names := by
  simp only [checkSymbol, check_eq_ok_iff, not_or, Nat.not_lt]
  constructor
  · rintro ⟨hid, ⟨hname, hsize⟩, hids, hnames, -⟩
    exact ⟨⟨hid, hname, hsize⟩, hids, hnames⟩
  · rintro ⟨⟨hid, hname, hsize⟩, hids, hnames⟩
    exact ⟨hid, ⟨hname, hsize⟩, hids, hnames, trivial⟩

theorem checkSymbols_cons_eq_ok_iff {ids : List SymbolId} {names : List String} {e : SymbolEntry}
    {rest : List SymbolEntry} :
    checkSymbols ids names (e :: rest) = .ok () ↔
      checkSymbol ids names e = .ok () ∧
        checkSymbols (e.id :: ids) (e.name :: names) rest = .ok () := by
  rw [checkSymbols]
  cases checkSymbol ids names e <;> simp

theorem checkSymbols_eq_ok_iff (entries : List SymbolEntry) :
    ∀ {ids : List SymbolId} {names : List String},
      checkSymbols ids names entries = .ok () ↔
        (∀ e ∈ entries, e.Valid ∧ e.id ∉ ids ∧ e.name ∉ names) ∧
          SymbolEntry.Distinct entries := by
  induction entries with
  | nil =>
      intro ids names
      exact iff_of_true rfl ⟨nofun, List.nodup_nil, List.nodup_nil⟩
  | cons e rest ih =>
      intro ids names
      rw [checkSymbols_cons_eq_ok_iff, checkSymbol_eq_ok_iff, ih]
      constructor
      · rintro ⟨he, hrest, hdistinct⟩
        refine ⟨?_, ?_, ?_⟩
        · intro e' he'
          rcases List.mem_cons.mp he' with rfl | he'
          · exact he
          · obtain ⟨hvalid, hids, hnames⟩ := hrest e' he'
            exact ⟨hvalid, fun h => hids (List.mem_cons_of_mem _ h),
              fun h => hnames (List.mem_cons_of_mem _ h)⟩
        · refine List.nodup_cons.mpr ⟨fun h => ?_, hdistinct.ids⟩
          obtain ⟨e', he', hid⟩ := List.mem_map.mp h
          exact (hrest e' he').2.1 (hid ▸ List.mem_cons_self)
        · refine List.nodup_cons.mpr ⟨fun h => ?_, hdistinct.names⟩
          obtain ⟨e', he', hname⟩ := List.mem_map.mp h
          exact (hrest e' he').2.2 (hname ▸ List.mem_cons_self)
      · rintro ⟨hall, hids, hnames⟩
        rw [List.map_cons, List.nodup_cons] at hids hnames
        refine ⟨hall e List.mem_cons_self, ?_, hids.2, hnames.2⟩
        intro e' he'
        obtain ⟨hvalid, hids', hnames'⟩ := hall e' (List.mem_cons_of_mem e he')
        refine ⟨hvalid, ?_, ?_⟩
        · rw [List.mem_cons, not_or]
          exact ⟨fun h => hids.1 (h ▸ List.mem_map_of_mem he'), hids'⟩
        · rw [List.mem_cons, not_or]
          exact ⟨fun h => hnames.1 (h ▸ List.mem_map_of_mem he'), hnames'⟩

theorem validate_eq_ok_iff {c : Config} : c.validate = .ok () ↔ c.Valid := by
  simp only [validate, check_eq_ok_iff, not_or, not_and, Nat.not_lt]
  cases haddress : c.listenAddress with
  | error error =>
      refine iff_of_false (fun h => nomatch h.2.2.2.2.2) fun h => ?_
      obtain ⟨a, ha⟩ := h.address
      exact nomatch haddress.symm.trans ha
  | ok a =>
      simp only [checkSymbols_eq_ok_iff]
      constructor
      · rintro ⟨⟨hpos, hle⟩, hclients, hqueue, ⟨hge, hsize⟩, hpassword, hsymbols, hdistinct⟩
        exact ⟨hpos, hle, hclients, hqueue, hge, hsize, hpassword, ⟨a, haddress⟩,
          fun e he => (hsymbols e he).1, hdistinct⟩
      · intro h
        exact ⟨⟨h.heartbeat_ne, h.heartbeat_le⟩, h.clients_ne, h.queue_ne,
          ⟨h.messageSize_ge, h.messageSize_le⟩, h.password_ne,
          fun e he => ⟨h.symbols e he, List.not_mem_nil, List.not_mem_nil⟩, h.distinct⟩

/-- Settings that a relay can run with let every frame pass. -/
theorem frameSize_le_maxMessageSize {c : Config} (h : c.validate = .ok ()) (m : Message) :
    m.frameSize ≤ c.maxMessageSize :=
  Nat.le_trans m.frameSize_le (validate_eq_ok_iff.mp h).messageSize_ge

end Config
end MarketRelay
