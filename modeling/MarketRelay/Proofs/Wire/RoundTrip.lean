import MarketRelay.Proofs.Text.Utf8
import MarketRelay.Wire.Codec

/-!
# What survives a frame

A frame carries numbers, truth values and choices as they are, and of each text the longest prefix
that its field has room for, up to the first NUL.  `norm` is what is left of a message;
`Message.decode_encode` says that a reader gets exactly that, and `Message.norm_eq_self` that
nothing is lost when every text fits.

`norm` is computed with the functions of the codec, so it could share their mistakes.  `Shortens`
says what is left of a text without them, and `shortens_norm` that `norm` is that.

Everything is stated three times, for a field, a row of fields and a message.  The rows are the
induction: the field at the head takes its own bytes off the front, and what is left is the body of
the rest.  A message is one of nine rows, so no step is repeated for each kind of message.
-/
namespace MarketRelay

/-! ## One field -/

namespace FieldKind

/-- What a field carries of a value. -/
def norm : (kind : FieldKind) → kind.Value → kind.Value
  | .int32, x => x
  | .uint32, x => x
  | .int64, x => x
  | .binary64, x => x
  | .flag, b => b
  | .side, x => x
  | .logonStatus, x => x
  | .requestAction, x => x
  | .text width, s => Utf8.beforeNul (Utf8.fit width s)

def Fits : (kind : FieldKind) → kind.Value → Prop
  | .text width, s => Utf8.nul ∉ s.toList ∧ s.utf8ByteSize ≤ width
  | _, _ => True

/-- `v'` is `v`, but for a text cut to the longest prefix that fits and there before its first NUL.
Unlike `norm` this does not say how the prefix is found. -/
def Shortens : (kind : FieldKind) → kind.Value → kind.Value → Prop
  | .text width, s, s' => ∃ p, Utf8.IsLongestFit width s p ∧ s' = Utf8.beforeNul p
  | _, v, v' => v' = v

theorem shortens_norm (kind : FieldKind) (v : kind.Value) : kind.Shortens v (kind.norm v) := by
  cases kind with
  | text width => exact ⟨Utf8.fit width v, Utf8.isLongestFit_fit width v, rfl⟩
  | _ => rfl

theorem norm_eq_self {kind : FieldKind} {v : kind.Value} (h : kind.Fits v) : kind.norm v = v := by
  cases kind with
  | text width =>
      show Utf8.beforeNul (Utf8.fit width v) = v
      rw [Utf8.fit_eq_self h.2, Utf8.beforeNul_eq_self h.1]
  | _ => rfl

theorem fits_norm (kind : FieldKind) (v : kind.Value) : kind.Fits (kind.norm v) := by
  cases kind with
  | text width =>
      refine ⟨Utf8.nul_notMem_beforeNul _, ?_⟩
      exact Nat.le_trans (Utf8.utf8ByteSize_beforeNul_le _) (Utf8.isLongestFit_fit width v).size_le
  | _ => exact trivial

theorem norm_eq_self_iff (kind : FieldKind) (v : kind.Value) : kind.norm v = v ↔ kind.Fits v := by
  constructor
  · intro h
    rw [← h]
    exact kind.fits_norm v
  · exact norm_eq_self

theorem length_encodeText (width : Nat) (s : String) : (encodeText width s).length = width := by
  have hle := (Utf8.isLongestFit_fit width s).size_le
  rw [← Utf8.length_bytes] at hle
  rw [encodeText, List.length_append, List.length_replicate]
  omega

@[simp] theorem length_encode (kind : FieldKind) (v : kind.Value) :
    (kind.encode v).length = kind.width := by
  cases kind with
  | text width => exact length_encodeText width v
  | int32 | uint32 | int64 | binary64 => exact LittleEndian.length_bytes _ _
  | flag | side | logonStatus | requestAction => rfl

/-- The zero bytes that fill a text field up stand behind all of its text. -/
theorem takeWhile_encodeText (width : Nat) (s : String) :
    (encodeText width s).takeWhile (· ≠ 0) = Utf8.bytes (Utf8.beforeNul (Utf8.fit width s)) := by
  rw [encodeText, ← Utf8.takeWhile_bytes, List.takeWhile_append]
  split
  · next hall =>
      rw [List.takeWhile_replicate, if_neg (by simp), List.append_nil]
      exact (List.IsPrefix.eq_of_length (List.takeWhile_prefix _) hall).symm
  · rfl

theorem decodeText_encodeText (width : Nat) (s : String) :
    decodeText (encodeText width s) = .ok (Utf8.beforeNul (Utf8.fit width s)) := by
  rw [decodeText, takeWhile_encodeText, Utf8.text_bytes]

theorem ofNat_value_singleton (b : UInt8) : UInt8.ofNat (LittleEndian.value [b]) = b := by
  simp [LittleEndian.value]

/-- A field gives back what it carries. -/
theorem decode_encode (kind : FieldKind) (v : kind.Value) :
    kind.decode (kind.encode v) = .ok (kind.norm v) := by
  cases kind with
  | text width => exact decodeText_encodeText width v
  | int32 =>
      have hlt : v.toUInt32.toNat < LittleEndian.capacity 4 := v.toUInt32.toNat_lt
      show Except.ok (UInt32.ofNat (LittleEndian.value (LittleEndian.bytes 4 _))).toInt32 = .ok v
      rw [LittleEndian.value_bytes hlt]
      simp
  | uint32 =>
      have hlt : v.toNat < LittleEndian.capacity 4 := v.toNat_lt
      show Except.ok (UInt32.ofNat (LittleEndian.value (LittleEndian.bytes 4 _))) = .ok v
      rw [LittleEndian.value_bytes hlt]
      simp
  | int64 =>
      have hlt : v.toUInt64.toNat < LittleEndian.capacity 8 := v.toUInt64.toNat_lt
      show Except.ok (UInt64.ofNat (LittleEndian.value (LittleEndian.bytes 8 _))).toInt64 = .ok v
      rw [LittleEndian.value_bytes hlt]
      simp
  | binary64 =>
      have hlt : v.bits.toNat < LittleEndian.capacity 8 := v.bits.toNat_lt
      show Except.ok (Binary64.mk (UInt64.ofNat (LittleEndian.value (LittleEndian.bytes 8 _))))
        = .ok v
      rw [LittleEndian.value_bytes hlt]
      simp
  | flag | side | logonStatus | requestAction => cases v <;> rfl

end FieldKind

/-! ## Rows of fields -/

namespace Layout

/-- What a body carries of its values. -/
def norm : (layout : Layout) → layout.Value → layout.Value
  | [], _ => ()
  | field :: rest, (v, vs) => (field.kind.norm v, norm rest vs)

def Fits : (layout : Layout) → layout.Value → Prop
  | [], _ => True
  | field :: rest, (v, vs) => field.kind.Fits v ∧ Fits rest vs

/-- Every value of `vs'` shortens that of `vs`. -/
def Shortens : (layout : Layout) → layout.Value → layout.Value → Prop
  | [], _, _ => True
  | field :: rest, (v, vs), (v', vs') => field.kind.Shortens v v' ∧ Shortens rest vs vs'

theorem shortens_norm : (layout : Layout) → (vs : layout.Value) →
    layout.Shortens vs (layout.norm vs)
  | [], _ => trivial
  | field :: rest, (v, vs) => ⟨field.kind.shortens_norm v, shortens_norm rest vs⟩

theorem norm_eq_self : (layout : Layout) → (vs : layout.Value) → layout.Fits vs →
    layout.norm vs = vs
  | [], _, _ => rfl
  | _ :: rest, (_, vs), h => Prod.ext (FieldKind.norm_eq_self h.1) (norm_eq_self rest vs h.2)

@[simp] theorem length_encode : (layout : Layout) → (vs : layout.Value) →
    (layout.encode vs).length = layout.width
  | [], _ => rfl
  | field :: rest, (v, vs) => by
      rw [encode, List.length_append, field.kind.length_encode, length_encode rest vs, width]

/-- A body gives back what it carries.  The field at the head takes its own bytes off the front,
and what is left is the body of the rest. -/
theorem decode_encode : (layout : Layout) → (vs : layout.Value) →
    layout.decode (layout.encode vs) = .ok (layout.norm vs)
  | [], _ => rfl
  | field :: rest, (v, vs) => by
      have hwidth : (field.kind.encode v).length = field.kind.width := field.kind.length_encode v
      have hhead : (field.kind.encode v ++ encode rest vs).take field.kind.width
          = field.kind.encode v := by rw [← hwidth, List.take_left]
      have htail : (field.kind.encode v ++ encode rest vs).drop field.kind.width
          = encode rest vs := by rw [← hwidth, List.drop_left]
      rw [encode, decode, hhead, htail, field.kind.decode_encode, decode_encode rest vs]
      rfl

end Layout

/-! ## Headers -/

namespace Header

@[simp] theorem length_bytes (h : Header) : h.bytes.length = headerSize := by
  simp [bytes, headerSize]

theorem read_append (h : Header) (rest : List UInt8) : read (h.bytes ++ rest) = .ok h := by
  have hsize : h.size.toNat < LittleEndian.capacity 2 := h.size.toNat_lt
  have htag : h.tag.toNat < LittleEndian.capacity 2 := h.tag.toNat_lt
  have htwo : ∀ n : Nat, (LittleEndian.bytes 2 n).length = 2 := LittleEndian.length_bytes 2
  have hfirst : (h.bytes ++ rest).take 2 = LittleEndian.bytes 2 h.size.toNat := by
    rw [bytes, List.append_assoc, List.take_left' (htwo _)]
  have hsecond : ((h.bytes ++ rest).drop 2).take 2 = LittleEndian.bytes 2 h.tag.toNat := by
    rw [bytes, List.append_assoc, List.drop_left' (htwo _), List.take_left' (htwo _)]
  have hlong : ¬ (h.bytes ++ rest).length < headerSize := by
    rw [List.length_append, length_bytes]
    omega
  rw [read, if_neg hlong, hfirst, hsecond, LittleEndian.value_bytes hsize,
    LittleEndian.value_bytes htag]
  simp

theorem validate_eq_ok_iff {h : Header} {available limit : Nat} :
    h.validate available limit = .ok () ↔
      headerSize ≤ h.size.toNat ∧ h.size.toNat ≤ limit ∧ h.size.toNat ≤ available := by
  rw [validate, fits]
  split
  · next hfits => simpa [and_assoc] using hfits
  · next hfits => simpa [and_assoc] using hfits

end Header

namespace MessageType

theorem ofTag?_tag (t : MessageType) : ofTag? t.tag = some t := by
  cases t <;> rfl

theorem width_layout_le (t : MessageType) : t.layout.width ≤ logonResponse.layout.width := by
  cases t <;> decide

end MessageType

/-! ## Messages -/

namespace Message

/-- What a frame carries of a message. -/
def norm (m : Message) : Message := ofBody m.type (m.type.layout.norm m.body)

def Fits (m : Message) : Prop := m.type.layout.Fits m.body

/-- `m'` is `m` with every text cut to the longest prefix that fits its field, and there before its
first NUL. -/
def Shortens (m m' : Message) : Prop :=
  ∃ vs, m.type.layout.Shortens m.body vs ∧ m' = ofBody m.type vs

theorem shortens_norm (m : Message) : m.Shortens m.norm :=
  ⟨_, m.type.layout.shortens_norm m.body, rfl⟩

theorem norm_eq_self {m : Message} (h : m.Fits) : m.norm = m := by
  rw [norm, Layout.norm_eq_self _ _ h, ofBody_body]

@[simp] theorem length_encode (m : Message) : m.encode.length = m.frameSize := by
  simp [encode, frameSize]

theorem frameSize_le (m : Message) :
    m.frameSize ≤ headerSize + MessageType.logonResponse.layout.width :=
  Nat.add_le_add_left m.type.width_layout_le headerSize

theorem frameSize_le_defaultFrameLimit (m : Message) : m.frameSize ≤ defaultFrameLimit :=
  Nat.le_trans m.frameSize_le (by decide)

theorem headerSize_le_frameSize (m : Message) : headerSize ≤ m.frameSize :=
  Nat.le_add_right _ _

/-- The size of a frame is never cut off by the two bytes that carry it. -/
theorem toNat_size_header (m : Message) : m.header.size.toNat = m.frameSize := by
  have hlt : m.frameSize < UInt16.size := Nat.lt_of_le_of_lt m.frameSize_le (by decide)
  exact UInt16.toNat_ofNat_of_lt hlt

theorem bodySize_header (m : Message) : m.header.bodySize = m.type.layout.width := by
  rw [Header.bodySize, toNat_size_header, frameSize, Nat.add_sub_cancel_left]

theorem decodeBody_encode (m : Message) :
    decodeBody m.type (m.type.layout.encode m.body) = .ok m.norm := by
  simp [decodeBody, Layout.decode_encode, norm]

theorem decode_encode_append {limit : Nat} {m : Message} (h : m.frameSize ≤ limit)
    (rest : List UInt8) : decode limit (m.encode ++ rest) = .ok m.norm := by
  have hread : Header.read (m.encode ++ rest) = .ok m.header := by
    rw [encode, List.append_assoc, Header.read_append]
  have hvalid : m.header.validate (m.encode ++ rest).length limit = .ok () := by
    refine Header.validate_eq_ok_iff.mpr ?_
    rw [toNat_size_header, List.length_append, length_encode]
    exact ⟨m.headerSize_le_frameSize, h, Nat.le_add_right _ _⟩
  have hbody : ((m.encode ++ rest).drop headerSize).take m.header.bodySize
      = m.type.layout.encode m.body := by
    rw [bodySize_header, encode, List.append_assoc, List.drop_left' (Header.length_bytes _),
      List.take_left' (Layout.length_encode _ _)]
  have htype : m.header.type? = some m.type := MessageType.ofTag?_tag m.type
  simp only [decode, hread, hvalid, htype, hbody, decodeBody_encode]

theorem decode_encode {limit : Nat} {m : Message} (h : m.frameSize ≤ limit) :
    decode limit m.encode = .ok m.norm := by
  simpa using decode_encode_append h []

end Message
end MarketRelay
