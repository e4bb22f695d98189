import MarketRelay.Proofs.Config.Validate
import MarketRelay.Proofs.Wire.Language
import MarketRelay.Relay.Dispatch

/-!
# Requests as they arrive

A request carries its texts cut to the widths of their fields, and there up to the first NUL.  What
the settings of a relay call a symbol or a password may be longer than that, or hold a NUL; then no
request can carry it as it is.

* `accepts_decoded_iff`: a password that a logon cannot carry lets nobody in.  What arrives fits its
  field, whoever made the frame (`fits_password_of_decode`), so it cannot equal what does not.
* `resolve_decoded_iff`: a symbol is not found under a name or an exchange that a request cannot
  carry.  The name of an entry cannot be too long where the settings were validated, but it may hold
  a NUL; the exchange may be anything.  A field that carries nothing of a name leaves the number of
  the request to count, which is the one case in which such a name does no harm.

Both start from what a frame carries of a request, text by text (`Message.norm_logonRequest`,
`Message.norm_marketDataRequest`).
-/
namespace MarketRelay

theorem Message.decode_encode_of_validate {c : Config} (hc : c.validate = .ok ()) (m : Message) :
    ∀ limit ∈ [defaultFrameLimit, c.maxMessageSize], decode limit m.encode = .ok m.norm := by
  intro limit hlimit
  refine decode_encode ?_
  rcases List.mem_pair.mp hlimit with rfl | rfl
  · exact m.frameSize_le_defaultFrameLimit
  · exact Config.frameSize_le_maxMessageSize hc m

theorem Message.norm_logonRequest (version interval : Int32) (username password name : String) :
    (Message.logonRequest ⟨version, username, password, interval, name⟩).norm =
      .logonRequest ⟨version, (FieldKind.text 32).norm username, (FieldKind.text 32).norm password,
        interval, (FieldKind.text 32).norm name⟩ := rfl

theorem Message.norm_marketDataRequest (action : RequestAction) (id : SymbolId)
    (symbol exchange : String) :
    (Message.marketDataRequest ⟨action, id, symbol, exchange⟩).norm =
      .marketDataRequest ⟨action, id, (FieldKind.text 64).norm symbol,
        (FieldKind.text 16).norm exchange⟩ := rfl

/-! ## Logons -/

namespace AuthPolicy

/-- A password that was read from a frame fits its field. -/
theorem fits_password_of_decode {limit : Nat} {bs : List UInt8} {request : LogonRequest}
    (h : Message.decode limit bs = .ok (.logonRequest request)) :
    (FieldKind.text 32).Fits request.password :=
  (Message.decode_eq_ok_iff.mp h).1.2.2.1

/-- Where a logon is required, one that carries the password of the settings is accepted when it
arrives just if its field can carry that password as it is.  If it cannot, no frame whatever is a
logon that is accepted. -/
theorem accepts_decoded_iff {c : Config} (hc : c.validate = .ok ())
    (hrequired : c.requireAuthentication = true) (version interval : Int32)
    (username clientName : String) :
    (∃ seen : LogonRequest,
      (∀ limit ∈ [defaultFrameLimit, c.maxMessageSize],
        Message.decode limit
          (Message.logonRequest ⟨version, username, c.password, interval, clientName⟩).encode =
            .ok (.logonRequest seen)) ∧
        ((ofConfig c).accepts seen.password = true ↔ (FieldKind.text 32).Fits c.password)) ∧
      ∀ limit bs (request : LogonRequest),
        Message.decode limit bs = .ok (.logonRequest request) →
          (ofConfig c).accepts request.password = true → (FieldKind.text 32).Fits c.password := by
  have haccepts : ∀ password, (ofConfig c).accepts password = true ↔ password = c.password := by
    intro password
    simp [accepts, ofConfig, hrequired]
  have hdecode := Message.decode_encode_of_validate hc
    (.logonRequest ⟨version, username, c.password, interval, clientName⟩)
  rw [Message.norm_logonRequest] at hdecode
  refine ⟨⟨_, hdecode, ?_⟩, ?_⟩
  · rw [haccepts]
    exact FieldKind.norm_eq_self_iff (.text 32) c.password
  · intro limit bs request hdecode haccepted
    rw [← (haccepts request.password).mp haccepted]
    exact fits_password_of_decode hdecode

/-- A password of as many bytes as its field has. -/
theorem accepts_decoded_iff_full_field :
    let c : Config :=
      { requireAuthentication := true, password := "a password of thirty-two bytes.." }
    c.validate = .ok () ∧ c.requireAuthentication = true ∧ ∃ seen : LogonRequest,
      (∀ limit ∈ [defaultFrameLimit, c.maxMessageSize],
        Message.decode limit (Message.logonRequest ⟨8, "tape", c.password, 30, "desk"⟩).encode =
          .ok (.logonRequest seen)) ∧
        (ofConfig c).accepts seen.password = true := by
  intro c
  have hc : c.validate = .ok () := by decide +kernel
  have hfits : (FieldKind.text 32).Fits c.password := ⟨by decide, by decide⟩
  obtain ⟨⟨seen, hdecode, haccepts⟩, -⟩ := accepts_decoded_iff hc rfl 8 30 "tape" "desk"
  exact ⟨hc, rfl, seen, hdecode, haccepts.mpr hfits⟩

/-- One byte more, and the settings are still accepted, but the logon is not. -/
theorem not_accepts_decoded_longer :
    let c : Config :=
      { requireAuthentication := true, password := "a password of thirty-three bytes." }
    c.validate = .ok () ∧ c.requireAuthentication = true ∧ ∃ seen : LogonRequest,
      (∀ limit ∈ [defaultFrameLimit, c.maxMessageSize],
        Message.decode limit (Message.logonRequest ⟨8, "tape", c.password, 30, "desk"⟩).encode =
          .ok (.logonRequest seen)) ∧
        (ofConfig c).accepts seen.password = false := by
  intro c
  refine ⟨by decide +kernel, rfl, ⟨8, "tape", "a password of thirty-three bytes", 30, "desk"⟩, ?_,
    by decide +kernel⟩
  decide +kernel

end AuthPolicy

/-! ## Requests for market data -/

namespace SymbolTable

theorem exchangesAgree_norm_iff (exchange : String) :
    exchangesAgree ((FieldKind.text 16).norm exchange) exchange = true ↔
      (FieldKind.text 16).Fits exchange ∨ exchange.toList.head? = some Utf8.nul := by
  have hempty : (FieldKind.text 16).norm exchange = "" ↔
      exchange = "" ∨ exchange.toList.head? = some Utf8.nul :=
    Utf8.beforeNul_fit_eq_empty_iff (by decide)
  have hfits : exchange = "" → (FieldKind.text 16).Fits exchange := by
    rintro rfl
    exact ⟨by decide, by decide⟩
  simp only [exchangesAgree, Bool.or_eq_true, beq_iff_eq, hempty]
  rw [eq_comm (a := exchange) (b := (FieldKind.text 16).norm exchange),
    FieldKind.norm_eq_self_iff]
  constructor
  · rintro (((h | h) | h) | h)
    · exact .inl (hfits h)
    · exact .inr h
    · exact .inl (hfits h)
    · exact .inl h
  · rintro (h | h)
    · exact .inr h
    · exact .inl (.inl (.inr h))

/-- What a field carries of the name of an entry means that entry if it is all of the name, or if it
is nothing and the request has the number of the entry. -/
theorem isMeant_norm_iff {e : SymbolEntry} (h : e.Valid) (id : SymbolId) :
    IsMeant id ((FieldKind.text 64).norm e.name) e ↔
      (FieldKind.text 64).Fits e.name ∨ e.name.toList.head? = some Utf8.nul ∧ id = e.id := by
  have hempty : (FieldKind.text 64).norm e.name = "" ↔ e.name.toList.head? = some Utf8.nul :=
    (Utf8.beforeNul_fit_eq_empty_iff (by decide)).trans (or_iff_right h.name_ne)
  by_cases hnorm : (FieldKind.text 64).norm e.name = ""
  · have hnot : ¬ (FieldKind.text 64).Fits e.name := fun hfits =>
      h.name_ne ((FieldKind.norm_eq_self hfits).symm.trans hnorm)
    rw [hnorm, isMeant_empty_iff, or_iff_right hnot, and_iff_right (hempty.mp hnorm)]
    exact eq_comm
  · rw [isMeant_iff_of_ne_empty hnorm, or_iff_left fun h => hnorm (hempty.mpr h.1), eq_comm]
    exact FieldKind.norm_eq_self_iff (.text 64) e.name

/-- A request for a symbol of the settings, under its name and its exchange there, means that symbol
when it arrives just if the request can carry the name as it is, or nothing of it and has the
symbol's number, and can carry the exchange as it is, or nothing of it. -/
theorem resolve_decoded_iff {c : Config} (hc : c.validate = .ok ()) {e : SymbolEntry}
    (he : e ∈ c.symbols) (action : RequestAction) (id : SymbolId) :
    ∃ seen : MarketDataRequest, seen.action = action ∧
      (∀ limit ∈ [defaultFrameLimit, c.maxMessageSize],
        Message.decode limit
          (Message.marketDataRequest ⟨action, id, e.name, e.exchange⟩).encode =
            .ok (.marketDataRequest seen)) ∧
      ((ofList c.symbols).resolve seen.symbolId seen.symbol seen.exchange = some e.id ↔
        ((FieldKind.text 64).Fits e.name ∨ e.name.toList.head? = some Utf8.nul ∧ id = e.id) ∧
          ((FieldKind.text 16).Fits e.exchange ∨
            e.exchange.toList.head? = some Utf8.nul)) := by
  have hvalid := Config.validate_eq_ok_iff.mp hc
  have hperm := ofList_perm hvalid.distinct
  have hdecode := Message.decode_encode_of_validate hc
    (.marketDataRequest ⟨action, id, e.name, e.exchange⟩)
  rw [Message.norm_marketDataRequest] at hdecode
  refine ⟨_, rfl, hdecode, ?_⟩
  dsimp only
  rw [resolve_eq_some_iff (hvalid.distinct.perm hperm.symm), ← exchangesAgree_norm_iff,
    ← isMeant_norm_iff (hvalid.symbols e he)]
  constructor
  · rintro ⟨e', he', hid, hmeans, hexchange⟩
    rw [hvalid.distinct.eq_of_id_eq (hperm.mem_iff.mp he') he hid] at hmeans hexchange
    exact ⟨hmeans, hexchange⟩
  · rintro ⟨hmeans, hexchange⟩
    exact ⟨e, hperm.mem_iff.mpr he, rfl, hmeans, hexchange⟩

/-- A symbol that has the number 7, asked for under its name and another number. -/
theorem resolve_decoded_iff_other_number :
    let e : SymbolEntry := ⟨⟨7⟩, "CLZ6", "NYMEX"⟩
    let c : Config := { symbols := [⟨⟨9⟩, "ESZ6", "CME"⟩, e] }
    c.validate = .ok () ∧ e ∈ c.symbols ∧ ∃ seen : MarketDataRequest, seen.action = .snapshot ∧
      (∀ limit ∈ [defaultFrameLimit, c.maxMessageSize],
        Message.decode limit
          (Message.marketDataRequest ⟨.snapshot, ⟨9⟩, e.name, e.exchange⟩).encode =
            .ok (.marketDataRequest seen)) ∧
        (ofList c.symbols).resolve seen.symbolId seen.symbol seen.exchange = some ⟨7⟩ := by
  intro e c
  have hc : c.validate = .ok () := by decide +kernel
  have he : e ∈ c.symbols := by decide
  have hname : (FieldKind.text 64).Fits e.name := ⟨by decide, by decide⟩
  have hexchange : (FieldKind.text 16).Fits e.exchange := ⟨by decide, by decide⟩
  obtain ⟨seen, haction, hdecode, hresolve⟩ := resolve_decoded_iff hc he .snapshot ⟨9⟩
  exact ⟨hc, he, seen, haction, hdecode, hresolve.mpr ⟨.inl hname, .inl hexchange⟩⟩

/-- The field of an exchange has sixteen bytes; a symbol whose exchange needs more is not found. -/
theorem not_resolve_decoded_longer :
    let e : SymbolEntry := ⟨⟨7⟩, "CLZ6", "NEW YORK MERCANTILE"⟩
    let c : Config := { symbols := [e] }
    c.validate = .ok () ∧ ∃ seen : MarketDataRequest,
      (∀ limit ∈ [defaultFrameLimit, c.maxMessageSize],
        Message.decode limit
          (Message.marketDataRequest ⟨.subscribe, e.id, e.name, e.exchange⟩).encode =
            .ok (.marketDataRequest seen)) ∧
        (ofList c.symbols).resolve seen.symbolId seen.symbol seen.exchange = none := by
  intro e c
  refine ⟨by decide +kernel, ⟨.subscribe, ⟨7⟩, "CLZ6", "NEW YORK MERCANT"⟩, ?_, by decide +kernel⟩
  decide +kernel

end SymbolTable
end MarketRelay
