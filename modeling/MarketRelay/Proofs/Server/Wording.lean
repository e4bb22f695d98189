import MarketRelay.Config.Data
import MarketRelay.Proofs.Relay.LogonGate
import MarketRelay.Proofs.Relay.Requests
import MarketRelay.Proofs.Server.Deliveries

/-!
# The wording of a server

What a server says has room in the fields of its messages, whatever names clients ask for and
whatever limits are set, provided that the server's own name has room.  So every frame that a queue
takes is read as the message that was built.

The texts of a server are of three kinds.  Some are fixed.  Some have a name in them that a client
asked for; that one was read off a frame, so it is no longer than the field it came from, and the
longest such name still has room behind the words of the refusal (`fits_unknownSymbol`).  And one
tells the limit of subscriptions, a number of at most twenty digits where the limit is a word of 64
bits (`fits_noRoom`), as it is in settings that are read (`Config.maxSubscriptionsPerSession_lt`).

`fits_of_builds` puts them together for all that a server may build, and `decode_accepted_eq_said`
takes it to what is said in a run, with `Speaks`.
-/
namespace MarketRelay

/-! ## Limits that are read -/

theorem Data.lt_of_nat? {bits : Nat} {d : Data} {n : Nat} (h : d.nat? bits = some n) :
    n < 1 <<< bits := by
  obtain ⟨i, hi, rfl⟩ := Option.map_eq_some_iff.mp h
  cases d with
  | int i' =>
      simp only [int?] at hi
      split at hi
      · rename_i hrange
        obtain rfl := Option.some.inj hi
        rw [Int.ofNat_eq_natCast] at hrange
        omega
      · cases hi
  | _ => cases hi

/-- The limit of subscriptions in settings that are read is a 64-bit word. -/
theorem Config.maxSubscriptionsPerSession_lt {surplus : Bool} {d : Data} {c : Config}
    (h : ofData? surplus d = some c) : c.maxSubscriptionsPerSession < UInt64.size := by
  unfold ofData? at h
  obtain ⟨fields, -, h⟩ := Option.bind_eq_some_iff.mp h
  split at h
  · -- the settings that are read before the limit
    iterate 11 obtain ⟨_, -, h⟩ := Option.bind_eq_some_iff.mp h
    obtain ⟨limit, hlimit, h⟩ := Option.bind_eq_some_iff.mp h
    obtain ⟨_, -, h⟩ := Option.bind_eq_some_iff.mp h
    obtain ⟨_, -, h⟩ := Option.bind_eq_some_iff.mp h
    obtain rfl := Option.some.inj h
    simp only [setting?] at hlimit
    split at hlimit
    · obtain rfl := Option.some.inj hlimit
      exact (by decide : 100 < UInt64.size)
    · exact Data.lt_of_nat? hlimit
  · cases h

/-! ## Texts that fit -/

namespace Utf8

theorem utf8Size_of_isDigit {c : Char} (h : c.isDigit = true) : c.utf8Size = 1 := by
  have hle : c.val ≤ 0x39 := by
    simp only [Char.isDigit, Bool.and_eq_true, decide_eq_true_eq] at h
    exact h.2
  have hascii : c.val ≤ 0x7F := UInt32.le_trans hle (by decide)
  exact if_pos hascii

theorem sizeOfChars_of_isDigit {cs : List Char} (h : ∀ c ∈ cs, c.isDigit = true) :
    sizeOfChars cs = cs.length := by
  induction cs with
  | nil => rfl
  | cons c cs ih =>
      rw [sizeOfChars_cons, utf8Size_of_isDigit (h c List.mem_cons_self),
        ih fun d hd => h d (List.mem_cons_of_mem c hd), List.length_cons, Nat.add_comm]

end Utf8

namespace FieldKind

theorem fits_append {a b width : Nat} {s t : String} (hs : (text a).Fits s) (ht : (text b).Fits t)
    (hwidth : a + b ≤ width) : (text width).Fits (s ++ t) := by
  refine ⟨?_, ?_⟩
  · rw [String.toList_append, List.mem_append, not_or]
    exact ⟨hs.1, ht.1⟩
  · rw [String.utf8ByteSize_append]
    exact Nat.le_trans (Nat.add_le_add hs.2 ht.2) hwidth

/-- A number of a 64-bit word has at most twenty digits. -/
theorem fits_toString {n : Nat} (h : n < UInt64.size) : (text 20).Fits (toString n) := by
  have hdigits : ∀ c ∈ Nat.toDigits 10 n, c.isDigit = true := fun c hc =>
    Nat.isDigit_of_mem_toDigits (by decide) (by decide) hc
  have hlist : (toString n).toList = Nat.toDigits 10 n := by
    rw [Nat.toString_eq_ofList_toDigits, String.toList_ofList]
  refine ⟨?_, ?_⟩
  · rw [hlist]
    intro hnul
    exact absurd (hdigits Utf8.nul hnul) (by decide)
  · rw [Utf8.utf8ByteSize_eq_sizeOfChars, hlist, Utf8.sizeOfChars_of_isDigit hdigits]
    exact (Nat.length_toDigits_le_iff (by decide) (by decide)).mpr
      (Nat.lt_of_lt_of_le h (by decide))

end FieldKind

namespace Message

theorem fits_of_decode {limit : Nat} {bs : List UInt8} {m : Message} (h : decode limit bs = .ok m) :
    m.Fits :=
  (decode_eq_ok_iff.mp h).1

theorem fits_of_next {limit : Nat} {buffer rest : List UInt8} {m : Message}
    (h : Stream.next limit buffer = (.item (.message m), rest)) : m.Fits := by
  unfold Stream.next at h
  split at h
  · cases h
  · split at h
    · cases h
    · split at h
      · cases h
      · rename_i header hread hfits hlength
        cases hdecode : decode limit (buffer.take header.size.toNat) with
        | ok m' =>
            rw [hdecode] at h
            cases h
            exact fits_of_decode hdecode
        | error e =>
            rw [hdecode] at h
            cases e <;> cases h

/-- The message is read as it is off its own frame. -/
def ArrivesInFull (limit : Nat) (m : Message) : Prop := decode limit m.encode = .ok m

theorem Fits.arrivesInFull {c : Config} {m : Message} (h : m.Fits) (hc : c.validate = .ok ()) :
    m.ArrivesInFull c.maxMessageSize := by
  have hdecode := decode_encode_of_validate hc m c.maxMessageSize (by simp)
  rwa [norm_eq_self h] at hdecode

/-! ## What a server says -/

theorem fits_logonResponse {r : Relay} (hname : (FieldKind.text 48).Fits r.config.serverName)
    (status : LogonStatus) {text : String} (h : (FieldKind.text 96).Fits text) :
    (r.logonResponse status text).Fits :=
  ⟨trivial, trivial, h, hname, trivial, trivial⟩

theorem fits_snapshotMessage (r : Relay) (symbol : SymbolId) : (r.snapshotMessage symbol).Fits :=
  ⟨trivial, trivial, trivial, trivial, trivial, trivial, trivial, trivial, trivial, trivial⟩

theorem fits_toMessage (e : MarketEvent) : e.toMessage.Fits := by
  obtain ⟨symbol, o⟩ := e
  cases o with
  | trade t => exact ⟨trivial, trivial, trivial, trivial, trivial, trivial⟩
  | quote q => exact ⟨trivial, trivial, trivial, trivial, trivial, trivial, trivial⟩

theorem fits_marketDataReject (symbol : SymbolId) {text : String}
    (h : (FieldKind.text 96).Fits text) : (marketDataReject ⟨symbol, text⟩).Fits :=
  ⟨trivial, h, trivial⟩

/-- The longest name that a request can carry has room behind the words of the refusal. -/
theorem fits_unknownSymbol {request : MarketDataRequest} (h : (marketDataRequest request).Fits) :
    (marketDataReject
      ⟨request.symbolId, s!"unknown symbol {Relay.requestedName request}"⟩).Fits := by
  have hname : (FieldKind.text 64).Fits (Relay.requestedName request) := by
    unfold Relay.requestedName
    split
    · have hnumber : request.symbolId.toNat < UInt64.size :=
        Nat.lt_trans request.symbolId.toNat_lt (by decide)
      have hdigits := FieldKind.fits_toString hnumber
      exact ⟨hdigits.1, Nat.le_trans hdigits.2 (by decide)⟩
    · exact h.2.2.1
  have hwords : (FieldKind.text 15).Fits "unknown symbol " := ⟨by decide, by decide⟩
  exact fits_marketDataReject _ (FieldKind.fits_append hwords hname (by decide))

theorem fits_noRoom (symbol : SymbolId) {limit : Nat} (h : limit < UInt64.size) :
    (marketDataReject ⟨symbol, s!"subscription limit of {limit} reached"⟩).Fits := by
  have hwords : (FieldKind.text 22).Fits "subscription limit of " := ⟨by decide, by decide⟩
  have hnumber : (FieldKind.text 42).Fits ("subscription limit of " ++ toString limit) :=
    FieldKind.fits_append hwords (FieldKind.fits_toString h) (by decide)
  have hend : (FieldKind.text 8).Fits " reached" := ⟨by decide, by decide⟩
  exact fits_marketDataReject symbol (FieldKind.fits_append hnumber hend (by decide))

end Message

namespace Service

variable {c : Config} {s : Service} {m : Message}

/-- All messages that a server builds have room in their frames. -/
theorem fits_of_builds (hname : (FieldKind.text 48).Fits c.serverName)
    (hlimit : c.maxSubscriptionsPerSession < UInt64.size) (hsound : Sound c s) (h : s.Builds m) :
    m.Fits := by
  rw [← hsound.config] at hname hlimit
  cases h with
  | answer hnext hreply =>
      cases replies_of_reply hreply with
      | granted => exact Message.fits_logonResponse hname .success ⟨by decide, by decide⟩
      | refused => exact Message.fits_logonResponse hname .rejected ⟨by decide, by decide⟩
      | unknownSymbol hm => exact Message.fits_unknownSymbol (hm ▸ Message.fits_of_next hnext)
      | noRoom hm => exact Message.fits_noRoom _ hlimit
      | snapshot h => exact Message.fits_snapshotMessage s.relay _
  | event hevent => exact Message.fits_toMessage _
  | heartbeat t clock => exact ⟨trivial, trivial, trivial⟩
  | farewell => exact Message.fits_farewell

/-- **Nothing that a server says is cut off.**  Where the settings are valid, the server's own name
has room in its field and the limit of subscriptions is a 64-bit word, as one that is read is
(`Config.maxSubscriptionsPerSession_lt`), the frames that the queue of a session takes are read as
the very messages that were built for it.  The texts of refusals arrive whatever name a request
could carry and whatever the limit. -/
theorem decode_accepted_eq_said (hc : c.validate = .ok ()) (hnul : Utf8.nul ∉ c.serverName.toList)
    (hsize : c.serverName.utf8ByteSize ≤ 48)
    (hlimit : c.maxSubscriptionsPerSession < UInt64.size) (steps : List ServerStep) :
    (∀ id, (accepted id (ofConfig c) steps).map (Message.decode c.maxMessageSize) =
      (said id (ofConfig c) steps).map .ok) ∧
      (∀ limit bs request, Message.decode limit bs = .ok (.marketDataRequest request) →
        (Message.marketDataReject ⟨request.symbolId,
          s!"unknown symbol {Relay.requestedName request}"⟩).ArrivesInFull c.maxMessageSize) ∧
      ∀ (symbol : SymbolId) (limit : Nat), limit < UInt64.size →
        (Message.marketDataReject ⟨symbol,
          s!"subscription limit of {limit} reached"⟩).ArrivesInFull c.maxMessageSize := by
  have hfits : ∀ s, Sound c s → ∀ m, s.Builds m → m.Fits :=
    fun s hsound m hbuilt => fits_of_builds ⟨hnul, hsize⟩ hlimit hsound hbuilt
  refine ⟨fun id => ?_, fun limit bs request h => ?_, fun symbol limit h => ?_⟩
  · rw [accepted_eq_said (sound_ofConfig c), List.map_map]
    exact List.map_congr_left fun m hm =>
      ((speaks_ofConfig _ c).said (sound_ofConfig c) hfits id steps m hm).arrivesInFull hc
  · exact (Message.fits_unknownSymbol (Message.fits_of_decode h)).arrivesInFull hc
  · exact (Message.fits_noRoom symbol h).arrivesInFull hc

/-- A client that logs on, asks for a name that fills its field, and may subscribe to nothing. -/
def refusedTwice (name : String) : List ServerStep :=
  [.accept (.v4 127 0 0 1 50000) 0,
    .decode 1 (Message.logonRequest ⟨8, "tape", "", 30, "desk"⟩).encode 1, .apply 0 2, .apply 0 2,
    .decode 1 (Message.marketDataRequest ⟨.snapshot, 0, name, ""⟩).encode 3, .apply 1 4,
    .decode 1 (Message.marketDataRequest ⟨.subscribe, 1, "", ""⟩).encode 5, .apply 2 6]

/-- A server whose name fills its field, and the longest refusals. -/
theorem decode_accepted_eq_said_longest :
    let c : Config :=
      { serverName := "the market relay of the harbour exchange, pier 1"
        maxSubscriptionsPerSession := 0 }
    let name := "a name nobody has, in sixty-four bytes, the last two of them: é"
    let most : MarketDataReject := ⟨1, "subscription limit of 18446744073709551615 reached"⟩
    c.validate = .ok () ∧ c.serverName.utf8ByteSize = 48 ∧ name.utf8ByteSize = 64 ∧
      (accepted 1 (ofConfig c) (refusedTwice name)).map (Message.decode c.maxMessageSize) =
        [.ok (.logonResponse ⟨8, .success, "logon successful", c.serverName, true⟩),
          .ok (.marketDataReject ⟨0, "unknown symbol " ++ name⟩),
          .ok (.marketDataReject ⟨1, "subscription limit of 0 reached"⟩)] ∧
      (Message.marketDataReject most).ArrivesInFull c.maxMessageSize := by
  intro c name most
  have hc : c.validate = .ok () := by decide +kernel
  have hsize : c.serverName.utf8ByteSize = 48 := by decide +kernel
  obtain ⟨hsaid, -, hlimit⟩ := decode_accepted_eq_said hc (by decide +kernel) (Nat.le_of_eq hsize)
    (by decide) (refusedTwice name)
  refine ⟨hc, hsize, by decide +kernel, ?_, hlimit 1 18446744073709551615 (by decide)⟩
  have hall : said 1 (ofConfig c) (refusedTwice name) =
      [.logonResponse ⟨8, .success, "logon successful", c.serverName, true⟩,
        .marketDataReject ⟨0, "unknown symbol " ++ name⟩,
        .marketDataReject ⟨1, "subscription limit of 0 reached"⟩] := by decide +kernel
  rw [hsaid 1, hall]
  rfl

end Service
end MarketRelay
