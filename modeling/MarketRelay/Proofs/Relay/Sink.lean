import MarketRelay.Proofs.Market.SymbolTable
import MarketRelay.Proofs.Number.Binary64
import MarketRelay.Relay.Sink

/-!
# What gets through from outside

Market data comes in by two ways: a feed calls a symbol by its name, the owner of a relay by its
number.  Each way first looks for the symbol and then checks the values one by one, under names of
its own.  This module takes both apart in the same order.

* The check stops at the first value that no market quotes, and passes just if there is none
  (`checkAmounts_eq_error_iff`, `checkAmounts_eq_ok_iff`).  Which value that is does not depend on
  the names under which they are checked (`exists_checkAmounts_of_not_isQuotable`).
* Market data gets through just if its symbol is known and all its values are finite and at least
  zero; then it is published as it is (`feed_eq_ok_iff`, `broadcast_eq_ok_iff`).
* What does not get through leaves the relay as it was (`feed_of_refused`, `broadcast_of_refused`).

Two publications of one event differ in nothing but the time that they took, which is kept among the
latencies; `SameButLatency` says so field by field.
-/
namespace MarketRelay

/-! ## Amounts -/

/-- What is found wrong is the first value that no market quotes. -/
theorem checkAmounts_eq_error_iff {amounts : List (String × Binary64)} {error : FeedError} :
    checkAmounts amounts = .error error ↔
      ∃ p, amounts.find? (fun p => !p.2.isAmount) = some p ∧ error = .invalidValue p.1 p.2 := by
  induction amounts with
  | nil => simp [checkAmounts]
  | cons p rest ih =>
      obtain ⟨field, value⟩ := p
      cases hvalue : value.isAmount with
      | true => simp [checkAmounts, hvalue, ih]
      | false => simp [checkAmounts, hvalue, eq_comm]

theorem checkAmounts_eq_ok_iff {amounts : List (String × Binary64)} :
    checkAmounts amounts = .ok () ↔ ∀ p ∈ amounts, p.2.IsQuotable := by
  simp only [← Binary64.isAmount_iff]
  induction amounts with
  | nil => simp [checkAmounts]
  | cons p rest ih =>
      obtain ⟨field, value⟩ := p
      cases hvalue : value.isAmount with
      | true => simp [checkAmounts, hvalue, ih]
      | false => simp [checkAmounts, hvalue]

namespace Occurrence

variable {o : Occurrence}

/-- The values of an occurrence. -/
def values : Occurrence → List Binary64
  | .trade t => [t.price, t.volume]
  | .quote q => [q.bidPrice, q.bidQuantity, q.askPrice, q.askQuantity]

/-- A market can quote all values of the occurrence. -/
def IsQuotable (o : Occurrence) : Prop := ∀ x ∈ o.values, x.IsQuotable

instance : DecidablePred IsQuotable := fun o => inferInstanceAs (Decidable (∀ x ∈ o.values, _))

theorem map_amounts (quantity : String) (o : Occurrence) :
    (o.amounts quantity).map (·.2) = o.values := by
  cases o <;> rfl

theorem checkAmounts_of_isQuotable (h : o.IsQuotable) (quantity : String) :
    checkAmounts (o.amounts quantity) = .ok () := by
  refine checkAmounts_eq_ok_iff.mpr fun p hp => h p.2 ?_
  rw [← map_amounts quantity]
  exact List.mem_map_of_mem hp

theorem exists_checkAmounts_of_not_isQuotable (h : ¬ o.IsQuotable) :
    ∃ value ∈ o.values, ¬ value.IsQuotable ∧ ∀ quantity, ∃ field,
      checkAmounts (o.amounts quantity) = .error (.invalidValue field value) := by
  simp only [IsQuotable, not_forall, ← Binary64.isAmount_iff] at h
  obtain ⟨x, hx, hbad⟩ := h
  have hsome : (o.values.find? fun x => !x.isAmount).isSome = true :=
    List.find?_isSome.mpr ⟨x, hx, by simpa using hbad⟩
  obtain ⟨value, hfind⟩ := Option.isSome_iff_exists.mp hsome
  have hvalue := List.find?_some hfind
  rw [Bool.not_eq_true'] at hvalue
  refine ⟨value, List.mem_of_find?_eq_some hfind, ?_, fun quantity => ?_⟩
  · rw [← Binary64.isAmount_iff, hvalue]
    exact Bool.false_ne_true
  · rw [← map_amounts quantity, List.find?_map, Option.map_eq_some_iff] at hfind
    obtain ⟨p, hp, rfl⟩ := hfind
    exact ⟨p.1, checkAmounts_eq_error_iff.mpr ⟨p, hp, rfl⟩⟩

theorem isQuotable_of_checkAmounts {quantity : String}
    (h : checkAmounts (o.amounts quantity) = .ok ()) : o.IsQuotable := by
  by_contra hbad
  obtain ⟨value, -, -, herror⟩ := exists_checkAmounts_of_not_isQuotable hbad
  obtain ⟨field, hfield⟩ := herror quantity
  cases h.symm.trans hfield

end Occurrence

/-! ## The two ways in -/

namespace Relay

variable {r : Relay} {name : String} {o : Occurrence} {e : MarketEvent} {elapsed : Nat}

theorem distinct_symbols (r : Relay) : SymbolEntry.Distinct r.symbols.entries :=
  SymbolTable.distinct_ofList r.config.symbols

/-- What a feed tells gets through just if it is of a symbol and its values can be quoted. -/
theorem feed_eq_ok_iff {report : PublishReport} {r' : Relay} :
    r.feed name o elapsed = (r', .ok report) ↔
      ∃ symbol ∈ r.symbols.entries, symbol.name = name ∧ o.IsQuotable ∧
        r.publish ⟨symbol.id, o⟩ elapsed = (report, r') := by
  constructor
  · intro h
    unfold feed at h
    split at h
    · cases h
    · rename_i id hid
      obtain ⟨symbol, hsymbol, hname, rfl⟩ :=
        (SymbolTable.idOf?_eq_some_iff r.distinct_symbols).mp hid
      split at h
      · cases h
      · rename_i hamounts
        cases h
        exact ⟨symbol, hsymbol, hname, Occurrence.isQuotable_of_checkAmounts hamounts, rfl⟩
  · rintro ⟨symbol, hsymbol, hname, ho, hpublish⟩
    have hid : r.symbols.idOf? name = some symbol.id :=
      (SymbolTable.idOf?_eq_some_iff r.distinct_symbols).mpr ⟨symbol, hsymbol, hname, rfl⟩
    simp only [feed, hid, Occurrence.checkAmounts_of_isQuotable ho, hpublish]

theorem broadcast_eq_ok_iff {report : PublishReport} {r' : Relay} :
    r.broadcast e elapsed = (r', .ok report) ↔
      e.symbolId ∈ r.symbols.entries.map (·.id) ∧ e.occurrence.IsQuotable ∧
        r.publish e elapsed = (report, r') := by
  rw [← SymbolTable.contains_iff]
  constructor
  · intro h
    unfold broadcast at h
    split at h
    · rename_i hid
      split at h
      · cases h
      · rename_i hamounts
        cases h
        exact ⟨hid, Occurrence.isQuotable_of_checkAmounts hamounts, rfl⟩
    · cases h
  · rintro ⟨hid, ho, hpublish⟩
    simp only [broadcast, hid, if_true, Occurrence.checkAmounts_of_isQuotable ho, hpublish]

theorem feed_of_refused {r' : Relay} {error : FeedError}
    (h : r.feed name o elapsed = (r', .error error)) : r' = r := by
  unfold feed at h
  split at h
  · exact (Prod.mk.inj h).1.symm
  · split at h
    · exact (Prod.mk.inj h).1.symm
    · cases h

theorem broadcast_of_refused {r' : Relay} {error : RelayError}
    (h : r.broadcast e elapsed = (r', .error error)) : r' = r := by
  unfold broadcast at h
  split at h
  · split at h
    · exact (Prod.mk.inj h).1.symm
    · cases h
  · exact (Prod.mk.inj h).1.symm

theorem feed_of_checkAmounts {symbol : SymbolEntry} (hsymbol : symbol ∈ r.symbols.entries)
    {error : FeedError} (herror : checkAmounts (o.amounts "size") = .error error) :
    r.feed symbol.name o elapsed = (r, .error error) := by
  have hid : r.symbols.idOf? symbol.name = some symbol.id :=
    (SymbolTable.idOf?_eq_some_iff r.distinct_symbols).mpr ⟨symbol, hsymbol, rfl, rfl⟩
  simp only [feed, hid, herror]

theorem broadcast_of_checkAmounts {symbol : SymbolEntry} (hsymbol : symbol ∈ r.symbols.entries)
    {error : FeedError} (herror : checkAmounts (o.amounts "quantity") = .error error) :
    r.broadcast ⟨symbol.id, o⟩ elapsed = (r, .error (.feed error)) := by
  simp only [broadcast, SymbolTable.contains_id hsymbol, if_true, herror]

/-- Two relays differ at most in how long the last publication took. -/
structure SameButLatency (r r' : Relay) : Prop where
  config : r.config = r'.config
  registry : r.registry = r'.registry
  snapshots : r.snapshots = r'.snapshots
  counts : r.metrics.counts = r'.metrics.counts
  maxSamples : r.metrics.publishLatency.maxSamples = r'.metrics.publishLatency.maxSamples
  /-- The times that publications took before. -/
  samples : r.metrics.publishLatency.samples.dropLast = r'.metrics.publishLatency.samples.dropLast

theorem sameButLatency_publish (r : Relay) (e : MarketEvent) (elapsed elapsed' : Nat) :
    SameButLatency (r.publish e elapsed).2 (r.publish e elapsed').2 where
  config := rfl
  registry := rfl
  snapshots := rfl
  counts := rfl
  maxSamples := rfl
  samples := by
    change (_ ++ [elapsed]).dropLast = (_ ++ [elapsed']).dropLast
    rw [List.dropLast_concat, List.dropLast_concat]

end Relay
end MarketRelay
