import MarketRelay.Proofs.Wire.RoundTrip

/-!
# The wire table

A codec that reads what it writes may still speak a language of its own: two fields that trade
places, a field of another width or an enumeration numbered anew are the same to its reader.  So
the bytes are set down here a second time, as a table: the tag of each message and the size of its
body as numbers, and for each field the offset at which it starts, the value of the message that
lies there and the type it has.  `Message.encode_iff_prescribed` says that the frame of a message is
what its row prescribes, and nothing else is.

Nothing in the table is computed from a layout.  That the layouts are those of the table is
`Message.places_eq`, one equation for each kind of message; the rest of the proof goes along a row
whatever its fields are (`Layout.lies_places_iff`).

What a cell prescribes for a value is said without the functions of the codec, too: a number by what
each of its bytes counts for, a text by the longest prefix that has room.
-/
namespace MarketRelay

/-! ## Numbers -/

/-- `bs` are the lowest `width` bytes of `n`, the byte at position `i` counting for 256 to the
`i`. -/
structure IsNumber (width n : Nat) (bs : List UInt8) : Prop where
  length_eq : bs.length = width
  byte : ∀ i < width, bs[i]? = some (UInt8.ofNat (n >>> (8 * i)))

theorem LittleEndian.getElem?_bytes (width : Nat) : ∀ n i : Nat, i < width →
    (bytes width n)[i]? = some (UInt8.ofNat (n >>> (8 * i))) := by
  induction width with
  | zero => intro n i hi; exact absurd hi (Nat.not_lt_zero i)
  | succ width ih =>
      intro n i hi
      cases i with
      | zero => rfl
      | succ i =>
          have hshift : n >>> (8 * (i + 1)) = (n / 256) >>> (8 * i) := by
            rw [Nat.mul_succ, Nat.add_comm, Nat.shiftRight_add]
            exact congrArg (· >>> (8 * i)) (Nat.shiftRight_eq_div_pow n 8)
          rw [bytes, List.getElem?_cons_succ, ih (n / 256) i (Nat.lt_of_succ_lt_succ hi), hshift]

theorem isNumber_iff {width n : Nat} {bs : List UInt8} :
    IsNumber width n bs ↔ bs = LittleEndian.bytes width n := by
  constructor
  · rintro ⟨hlength, hbyte⟩
    refine List.ext_getElem? fun i => ?_
    by_cases hi : i < width
    · rw [hbyte i hi, LittleEndian.getElem?_bytes width n i hi]
    · rw [List.getElem?_eq_none (by omega), List.getElem?_eq_none (by simp; omega)]
  · rintro rfl
    exact ⟨LittleEndian.length_bytes width n, LittleEndian.getElem?_bytes width n⟩

/-! ## Cells -/

/-- A value in one of the types of the table. -/
inductive Cell where
  /-- A choice or a truth value by its number. -/
  | code (n : Nat)
  | int32 (x : Int32)
  | uint32 (x : UInt32)
  | int64 (x : Int64)
  | binary64 (x : Binary64)
  | text (width : Nat) (s : String)
deriving DecidableEq, Repr

namespace Cell

def width : Cell → Nat
  | .code _ => 1
  | .int32 _ | .uint32 _ => 4
  | .int64 _ | .binary64 _ => 8
  | .text width _ => width

/-- `bs` is how the value of a cell lies on the wire: a signed number in two's complement, a
floating point number as its bits, a text as its longest prefix of whole characters that has room,
then NULs. -/
def Lies : Cell → List UInt8 → Prop
  | .code n, bs => IsNumber 1 n bs
  | .int32 x, bs => IsNumber 4 (x.toInt % UInt32.size).toNat bs
  | .uint32 x, bs => IsNumber 4 x.toNat bs
  | .int64 x, bs => IsNumber 8 (x.toInt % UInt64.size).toNat bs
  | .binary64 x, bs => IsNumber 8 x.bits.toNat bs
  | .text width s, bs =>
    ∃ p, Utf8.IsLongestFit width s p ∧
      bs = Utf8.bytes p ++ List.replicate (width - p.utf8ByteSize) 0

end Cell

/-! ## The table -/

def MessageType.number : MessageType → Nat
  | .logonRequest => 1
  | .logonResponse => 2
  | .heartbeat => 3
  | .logoff => 5
  | .marketDataRequest => 101
  | .marketDataReject => 103
  | .marketDataSnapshot => 104
  | .marketDataUpdateTrade => 107
  | .marketDataUpdateBidAsk => 108

def MessageType.bodySize : MessageType → Nat
  | .logonRequest => 104
  | .logonResponse => 150
  | .heartbeat => 12
  | .logoff => 97
  | .marketDataRequest => 85
  | .marketDataReject => 100
  | .marketDataSnapshot => 68
  | .marketDataUpdateTrade => 29
  | .marketDataUpdateBidAsk => 44

namespace Cell

def flag : Bool → Cell
  | false => .code 0
  | true => .code 1

def logonStatus : LogonStatus → Cell
  | .success => .code 1
  | .rejected => .code 2

def requestAction : RequestAction → Cell
  | .subscribe => .code 1
  | .unsubscribe => .code 2
  | .snapshot => .code 3

def side : Side → Cell
  | .buy => .code 1
  | .sell => .code 2

end Cell

/-- A field of a row: where in the body it starts, its name, and what lies there. -/
structure Place where
  offset : Nat
  name : String
  cell : Cell
deriving DecidableEq, Repr

/-- The row of a message, filled in with its values. -/
def Message.places : Message → List Place
  | .logonRequest m =>
    [⟨0, "protocol_version", .int32 m.protocolVersion⟩,
      ⟨4, "username", .text 32 m.username⟩,
      ⟨36, "password", .text 32 m.password⟩,
      ⟨68, "heartbeat_interval_secs", .int32 m.heartbeatIntervalSecs⟩,
      ⟨72, "client_name", .text 32 m.clientName⟩]
  | .logonResponse m =>
    [⟨0, "protocol_version", .int32 m.protocolVersion⟩,
      ⟨4, "result", .logonStatus m.result⟩,
      ⟨5, "result_text", .text 96 m.resultText⟩,
      ⟨101, "server_name", .text 48 m.serverName⟩,
      ⟨149, "market_data_supported", .flag m.marketDataSupported⟩]
  | .heartbeat m =>
    [⟨0, "num_dropped_messages", .uint32 m.numDroppedMessages⟩,
      ⟨4, "current_date_time", .int64 m.currentDateTime⟩]
  | .logoff m =>
    [⟨0, "reason", .text 96 m.reason⟩,
      ⟨96, "do_not_reconnect", .flag m.doNotReconnect⟩]
  | .marketDataRequest m =>
    [⟨0, "request_action", .requestAction m.action⟩,
      ⟨1, "symbol_id", .uint32 m.symbolId⟩,
      ⟨5, "symbol", .text 64 m.symbol⟩,
      ⟨69, "exchange", .text 16 m.exchange⟩]
  | .marketDataReject m =>
    [⟨0, "symbol_id", .uint32 m.symbolId⟩,
      ⟨4, "reject_text", .text 96 m.text⟩]
  | .marketDataSnapshot m =>
    [⟨0, "symbol_id", .uint32 m.symbolId⟩,
      ⟨4, "last_trade_price", .binary64 m.lastTradePrice⟩,
      ⟨12, "last_trade_volume", .binary64 m.lastTradeVolume⟩,
      ⟨20, "last_trade_timestamp", .int64 m.lastTradeTimestamp⟩,
      ⟨28, "bid_price", .binary64 m.bidPrice⟩,
      ⟨36, "bid_quantity", .binary64 m.bidQuantity⟩,
      ⟨44, "ask_price", .binary64 m.askPrice⟩,
      ⟨52, "ask_quantity", .binary64 m.askQuantity⟩,
      ⟨60, "bid_ask_timestamp", .int64 m.bidAskTimestamp⟩]
  | .marketDataUpdateTrade m =>
    [⟨0, "symbol_id", .uint32 m.symbolId⟩,
      ⟨4, "side", .side m.side⟩,
      ⟨5, "price", .binary64 m.price⟩,
      ⟨13, "volume", .binary64 m.volume⟩,
      ⟨21, "timestamp", .int64 m.timestamp⟩]
  | .marketDataUpdateBidAsk m =>
    [⟨0, "symbol_id", .uint32 m.symbolId⟩,
      ⟨4, "bid_price", .binary64 m.bidPrice⟩,
      ⟨12, "bid_quantity", .binary64 m.bidQuantity⟩,
      ⟨20, "ask_price", .binary64 m.askPrice⟩,
      ⟨28, "ask_quantity", .binary64 m.askQuantity⟩,
      ⟨36, "timestamp", .int64 m.timestamp⟩]

/-- `bs` is what the table prescribes for a message. -/
structure Message.Prescribed (m : Message) (bs : List UInt8) : Prop where
  length_eq : bs.length = 4 + m.type.bodySize
  /-- The two bytes of the size have room for it. -/
  length_lt : bs.length < UInt16.size
  size : IsNumber 2 bs.length (bs.take 2)
  tag : IsNumber 2 m.type.number ((bs.drop 2).take 2)
  lies : ∀ place ∈ m.places,
    place.cell.Lies ((bs.drop (4 + place.offset)).take place.cell.width)

/-! ## Fields and cells -/

theorem Utf8.IsLongestFit.eq_fit {room : Nat} {s p : String} (h : IsLongestFit room s p) :
    p = fit room s := by
  have hfit := isLongestFit_fit room s
  have hle : p.toList <+: (fit room s).toList := hfit.longest p h.prefix_toList h.size_le
  have hge : (fit room s).toList <+: p.toList := h.longest _ hfit.prefix_toList hfit.size_le
  exact String.toList_inj.mp (hle.eq_of_length_le hge.length_le)

/-- In two's complement a number of `w` bits is told by its value modulo the number of words. -/
theorem toNat_toInt_emod {w : Nat} (x : BitVec w) :
    (x.toInt % ((1 <<< w : Nat) : Int)).toNat = x.toNat := by
  rw [Nat.one_shiftLeft, ← BitVec.toNat_ofInt, BitVec.ofInt_toInt]

namespace FieldKind

def cell : (kind : FieldKind) → kind.Value → Cell
  | .int32, x => .int32 x
  | .uint32, x => .uint32 x
  | .int64, x => .int64 x
  | .binary64, x => .binary64 x
  | .flag, b => .flag b
  | .side, x => .side x
  | .logonStatus, x => .logonStatus x
  | .requestAction, x => .requestAction x
  | .text width, s => .text width s

theorem width_cell (kind : FieldKind) (v : kind.Value) : (kind.cell v).width = kind.width := by
  cases kind with
  | flag | side | logonStatus | requestAction => cases v <;> rfl
  | _ => rfl

theorem lies_cell_iff (kind : FieldKind) (v : kind.Value) {bs : List UInt8} :
    (kind.cell v).Lies bs ↔ bs = kind.encode v := by
  cases kind with
  | uint32 | binary64 => exact isNumber_iff
  | int32 | int64 =>
      have hword : (v.toInt % _).toNat = _ := toNat_toInt_emod v.toBitVec
      refine isNumber_iff.trans (Eq.congr_right ?_)
      exact congrArg (LittleEndian.bytes _) hword
  | flag | side | logonStatus | requestAction => cases v <;> exact isNumber_iff
  | text width =>
      constructor
      · rintro ⟨p, hp, rfl⟩
        rw [hp.eq_fit, ← Utf8.length_bytes]
        rfl
      · rintro rfl
        refine ⟨Utf8.fit width v, Utf8.isLongestFit_fit width v, ?_⟩
        rw [← Utf8.length_bytes]
        rfl

end FieldKind

/-! ## Rows of fields and places -/

namespace Layout

/-- The places of a row of fields, the first of which starts at `offset`. -/
def places : (offset : Nat) → (layout : Layout) → layout.Value → List Place
  | _, [], _ => []
  | offset, field :: rest, (v, vs) =>
    ⟨offset, field.name, field.kind.cell v⟩ :: places (offset + field.kind.width) rest vs

/-- The places of a row lie end to end and leave no gap: bytes in which every value lies at its
place are the bytes of the row. -/
theorem lies_places_iff {body : List UInt8} : (layout : Layout) → (vs : layout.Value) →
    (offset : Nat) → body.length = offset + layout.width →
      ((∀ place ∈ layout.places offset vs,
          place.cell.Lies ((body.drop place.offset).take place.cell.width)) ↔
        body.drop offset = layout.encode vs)
  | [], _, offset, hlen => by
      have hnil : body.drop offset = [] := List.drop_eq_nil_of_le (Nat.le_of_eq hlen)
      simp [places, encode, hnil]
  | field :: rest, (v, vs), offset, hlen => by
      rw [width, ← Nat.add_assoc] at hlen
      have hwidth : (field.kind.encode v).length = field.kind.width := field.kind.length_encode v
      rw [places, List.forall_mem_cons, lies_places_iff rest vs _ hlen,
        FieldKind.lies_cell_iff, FieldKind.width_cell, encode, ← List.drop_drop]
      constructor
      · rintro ⟨hhead, htail⟩
        rw [← List.take_append_drop field.kind.width (body.drop offset), hhead, htail]
      · intro h
        rw [h, List.take_left' hwidth, List.drop_left' hwidth]
        exact ⟨rfl, rfl⟩

end Layout

/-! ## Messages -/

namespace MessageType

theorem toNat_tag (t : MessageType) : t.tag.toNat = t.number := by
  cases t <;> rfl

theorem width_layout (t : MessageType) : t.layout.width = t.bodySize := by
  cases t <;> rfl

end MessageType

namespace Message

/-- The places of a message's row are those of its layout. -/
theorem places_eq (m : Message) : m.places = m.type.layout.places 0 m.body := by
  cases m <;> rfl

theorem frameSize_eq (m : Message) : m.frameSize = 4 + m.type.bodySize := by
  rw [frameSize, m.type.width_layout, headerSize]

theorem frameSize_lt (m : Message) : m.frameSize < UInt16.size :=
  Nat.lt_of_le_of_lt m.frameSize_le (by decide)

theorem take_header_iff (m : Message) {bs : List UInt8} :
    bs.take headerSize = m.header.bytes ↔
      bs.take 2 = LittleEndian.bytes 2 m.frameSize ∧
        (bs.drop 2).take 2 = LittleEndian.bytes 2 m.type.number := by
  have htwo : ∀ n : Nat, (LittleEndian.bytes 2 n).length = 2 := LittleEndian.length_bytes 2
  have htag : m.header.tag.toNat = m.type.number := m.type.toNat_tag
  have hsplit : bs.take headerSize = bs.take 2 ++ (bs.drop 2).take 2 :=
    List.take_add (l := bs) (i := 2) (j := 2)
  rw [hsplit, Header.bytes, m.toNat_size_header, htag]
  constructor
  · intro h
    -- nothing is known of the length of `bs` but what the equation says
    have hlen := congrArg List.length h
    simp only [List.length_append, List.length_take, List.length_drop, htwo] at hlen
    exact List.append_inj h (by rw [htwo, List.length_take]; omega)
  · rintro ⟨hsize, htag⟩
    rw [hsize, htag]

theorem eq_encode_iff (m : Message) {bs : List UInt8} :
    bs = m.encode ↔
      bs.take headerSize = m.header.bytes ∧
        bs.drop headerSize = m.type.layout.encode m.body := by
  constructor
  · rintro rfl
    rw [encode, List.take_left' m.header.length_bytes, List.drop_left' m.header.length_bytes]
    exact ⟨rfl, rfl⟩
  · rintro ⟨hhead, hbody⟩
    rw [← List.take_append_drop headerSize bs, hhead, hbody, encode]

/-- In bytes as many as a frame has, the places of a message's row are those of its body. -/
theorem lies_places_iff (m : Message) {bs : List UInt8} (hlen : bs.length = m.frameSize) :
    (∀ place ∈ m.places,
        place.cell.Lies ((bs.drop (4 + place.offset)).take place.cell.width)) ↔
      bs.drop headerSize = m.type.layout.encode m.body := by
  have hbody : (bs.drop headerSize).length = 0 + m.type.layout.width := by
    rw [List.length_drop, hlen, frameSize, Nat.add_sub_cancel_left, Nat.zero_add]
  have h := Layout.lies_places_iff m.type.layout m.body 0 hbody
  simp only [List.drop_drop] at h
  rw [places_eq]
  exact h

/-- The frame of a message is what the table prescribes for it, and no other bytes are; as many
bytes are written as the message's frame is said to have. -/
theorem encode_iff_prescribed (m : Message) :
    (∀ bs, bs = m.encode ↔ m.Prescribed bs) ∧ m.encode.length = m.frameSize := by
  refine ⟨fun bs => ?_, m.length_encode⟩
  rw [eq_encode_iff]
  constructor
  · intro h
    have hlen : bs.length = m.frameSize := by
      rw [m.eq_encode_iff.mpr h, length_encode]
    obtain ⟨hsize, htag⟩ := m.take_header_iff.mp h.1
    rw [← hlen] at hsize
    exact {
      length_eq := hlen.trans m.frameSize_eq
      length_lt := hlen ▸ m.frameSize_lt
      size := isNumber_iff.mpr hsize
      tag := isNumber_iff.mpr htag
      lies := (m.lies_places_iff hlen).mpr h.2 }
  · intro h
    have hlen : bs.length = m.frameSize := h.length_eq.trans m.frameSize_eq.symm
    have hsize := isNumber_iff.mp h.size
    rw [hlen] at hsize
    exact ⟨m.take_header_iff.mpr ⟨hsize, isNumber_iff.mp h.tag⟩, (m.lies_places_iff hlen).mp h.lies⟩

/-- Sixteen bytes under the tag three: 258 frames lost, at the moment before the start of time. -/
example : (heartbeat ⟨258, -1⟩).encode =
    [16, 0, 3, 0, 2, 1, 0, 0, 255, 255, 255, 255, 255, 255, 255, 255] := by decide

end Message
end MarketRelay
