import MarketRelay.Proofs.Wire.RoundTrip

/-!
# The language of frames

Which byte strings are frames, and of which message.  A frame of `m` need not be `m.encode`: behind
the first zero byte of a text field anything may stand, and a reader does not look at it.  These
positions are the *slack* of a frame.  Everywhere else the frame is `m.encode`, byte for byte, and
that is all there is to it.

The fields are looked at one by one, then a row of them, then the frame around a row, and at each
level there are two facts:

* bytes hold a value just when it fits and they are its own outside the slack (`decode_eq_ok_iff`);
* in the slack, the value's own bytes are zeros (`getElem?_encode_of_slack`).

Numbers and choices have no slack, which is to say that no two byte strings stand for one value
(`encode_of_decode`); for texts the first fact is about the position of the first zero
(`takeWhile_eq_iff_agrees`).  `decode_iff_frame_up_to_slack` states both of frames, and with them
when a frame that was read is the frame that would be written.
-/
namespace MarketRelay

theorem forall_lt_add_iff {a b : Nat} {P : Nat → Prop} :
    (∀ i < a + b, P i) ↔ (∀ i < a, P i) ∧ ∀ i < b, P (a + i) := by
  constructor
  · intro h
    exact ⟨fun i hi => h i (by omega), fun i hi => h (a + i) (by omega)⟩
  · rintro ⟨hhead, htail⟩ i hi
    by_cases hlt : i < a
    · exact hhead i hlt
    · have := htail (i - a) (by omega)
      rwa [Nat.add_sub_cancel' (by omega)] at this

/-! ## One field -/

theorem exists_zero_before_succ_iff {b : UInt8} {bs : List UInt8} {i : Nat} :
    (∃ j < i + 1, (b :: bs)[j]? = some 0) ↔ b = 0 ∨ ∃ j < i, bs[j]? = some 0 := by
  constructor
  · rintro ⟨j, hj, hzero⟩
    cases j with
    | zero => exact .inl (Option.some.inj hzero)
    | succ j => exact .inr ⟨j, Nat.lt_of_succ_lt_succ hj, hzero⟩
  · rintro (rfl | ⟨j, hj, hzero⟩)
    · exact ⟨0, Nat.succ_pos i, rfl⟩
    · exact ⟨j + 1, Nat.succ_lt_succ hj, hzero⟩

/-- The bytes before the first zero are `xs` just when the bytes are `xs`, filled up with zeros, at
every position with no zero before it. -/
theorem takeWhile_eq_iff_agrees {k : Nat} (xs : List UInt8) (hxs : ∀ x ∈ xs, x ≠ 0) :
    ∀ bs : List UInt8, bs.length = xs.length + k →
      (bs.takeWhile (· ≠ 0) = xs ↔
        ∀ i < bs.length, (¬ ∃ j < i, bs[j]? = some 0) →
          bs[i]? = (xs ++ List.replicate k 0)[i]?) := by
  -- along `xs`; where it ends, the first zero has to stand, and nothing more is asked
  induction xs with
  | nil =>
      intro bs hlen
      cases bs with
      | nil => exact ⟨fun _ i hi => absurd hi (Nat.not_lt_zero i), fun _ => rfl⟩
      | cons b bs =>
          obtain ⟨k, rfl⟩ : ∃ k', k = k' + 1 := ⟨k - 1, by simp at hlen; omega⟩
          constructor
          · intro htake i _ hno
            have hb : b = 0 := by
              by_contra hne
              rw [List.takeWhile_cons_of_pos (by simpa using hne)] at htake
              exact nomatch htake
            cases i with
            | zero => simp [hb, List.replicate_succ]
            | succ i => exact absurd (exists_zero_before_succ_iff.mpr (.inl hb)) hno
          · intro hagree
            have hb := hagree 0 (Nat.succ_pos _) (fun ⟨j, hj, _⟩ => absurd hj (Nat.not_lt_zero j))
            simp only [List.getElem?_cons_zero, List.nil_append, List.replicate_succ,
              Option.some.injEq] at hb
            rw [List.takeWhile_cons_of_neg (by simp [hb])]
  | cons x xs ih =>
      intro bs hlen
      have hx : x ≠ 0 := hxs x List.mem_cons_self
      cases bs with
      | nil => simp at hlen; omega
      | cons b bs =>
          have hlen' : bs.length = xs.length + k := by simp at hlen; omega
          have ih := ih (fun y hy => hxs y (List.mem_cons_of_mem x hy)) bs hlen'
          constructor
          · intro htake i hi hno
            have hb : b ≠ 0 := by
              intro hzero
              rw [List.takeWhile_cons_of_neg (by simp [hzero])] at htake
              exact nomatch htake
            rw [List.takeWhile_cons_of_pos (by simpa using hb)] at htake
            obtain ⟨rfl, htail⟩ := List.cons.inj htake
            cases i with
            | zero => rfl
            | succ i =>
                refine ih.mp htail i (Nat.lt_of_succ_lt_succ hi) fun hzero => ?_
                exact hno (exists_zero_before_succ_iff.mpr (.inr hzero))
          · intro hagree
            have hb := hagree 0 (Nat.succ_pos _) (fun ⟨j, hj, _⟩ => absurd hj (Nat.not_lt_zero j))
            simp only [List.getElem?_cons_zero, List.cons_append, Option.some.injEq] at hb
            subst hb
            rw [List.takeWhile_cons_of_pos (by simpa using hx)]
            refine congrArg (b :: ·) (ih.mpr fun i hi hno => ?_)
            refine hagree (i + 1) (Nat.succ_lt_succ hi) fun hzero => ?_
            exact (exists_zero_before_succ_iff.mp hzero).elim hx hno

namespace FieldKind

/-- Position `i` of a field with the bytes `bs` is not looked at: the field is a text that has ended
before. -/
def Slack : FieldKind → List UInt8 → Nat → Prop
  | .text _, bs, i => ∃ j < i, bs[j]? = some 0
  | _, _, _ => False

theorem decodeText_eq_ok_iff {bs : List UInt8} {s : String} :
    decodeText bs = .ok s ↔ Utf8.bytes s = bs.takeWhile (· ≠ 0) := by
  rw [← Utf8.text_eq_ok_iff, decodeText]
  cases Utf8.text (bs.takeWhile (· ≠ 0)) <;> simp

theorem encodeText_of_fits {width : Nat} {s : String} (h : (text width).Fits s) :
    encodeText width s = Utf8.bytes s ++ List.replicate (width - (Utf8.bytes s).length) 0 := by
  rw [encodeText, Utf8.fit_eq_self h.2]

theorem decode_text_iff {width : Nat} {bs : List UInt8} {s : String} (hlen : bs.length = width) :
    (text width).decode bs = .ok s ↔
      (text width).Fits s ∧
        ∀ i < width, ¬ (text width).Slack bs i → bs[i]? = ((text width).encode s)[i]? := by
  have hagree (hfits : (text width).Fits s) :
      Utf8.bytes s = bs.takeWhile (· ≠ 0) ↔
        ∀ i < width, ¬ (text width).Slack bs i → bs[i]? = ((text width).encode s)[i]? := by
    have hsize : (Utf8.bytes s).length ≤ width := Utf8.length_bytes s ▸ hfits.2
    show _ ↔ ∀ i < width, _ → bs[i]? = (encodeText width s)[i]?
    rw [encodeText_of_fits hfits, eq_comm, ← hlen]
    exact takeWhile_eq_iff_agrees _ (Utf8.ne_zero_of_mem_bytes hfits.1) bs (by omega)
  show decodeText bs = .ok s ↔ _
  rw [decodeText_eq_ok_iff]
  constructor
  · intro h
    have hfits : (text width).Fits s := by
      constructor
      · intro hnul
        have hzero := Utf8.zero_mem_bytes hnul
        rw [h] at hzero
        simpa using List.mem_takeWhile_imp hzero
      · rw [← Utf8.length_bytes, h, ← hlen]
        exact (List.takeWhile_prefix _).length_le
    exact ⟨hfits, (hagree hfits).mp h⟩
  · rintro ⟨hfits, h⟩
    exact (hagree hfits).mpr h

theorem code_of_decodeChoice {α : Type} [Choice α] {b : UInt8} {a : α}
    (h : decodeChoice α b = .ok a) : Choice.code a = b := by
  unfold decodeChoice at h
  split at h
  · next a' hfind =>
      cases h
      have hcode : (Choice.all : List α).find? (fun a => Choice.code a == b) = some a := hfind
      have hbeq := List.find?_some hcode
      exact eq_of_beq hbeq
  · cases h

theorem byte_of_decodeFlag {b : UInt8} {v : Bool} (h : decodeFlag b = .ok v) :
    (if v then 1 else 0) = b := by
  unfold decodeFlag at h
  split at h
  · next hb => cases h; exact hb.symm
  · split at h
    · next hb => cases h; exact hb.symm
    · cases h

theorem bytes_ofNat_value {bs : List UInt8} (hlen : bs.length = 4) :
    LittleEndian.bytes 4 (UInt32.ofNat (LittleEndian.value bs)).toNat = bs := by
  have hlt := LittleEndian.value_lt bs
  rw [hlen] at hlt
  rw [UInt32.toNat_ofNat_of_lt' hlt, ← hlen, LittleEndian.bytes_value]

theorem bytes_ofNat_value_wide {bs : List UInt8} (hlen : bs.length = 8) :
    LittleEndian.bytes 8 (UInt64.ofNat (LittleEndian.value bs)).toNat = bs := by
  have hlt := LittleEndian.value_lt bs
  rw [hlen] at hlt
  rw [UInt64.toNat_ofNat_of_lt' hlt, ← hlen, LittleEndian.bytes_value]

/-- A field without slack has no second spelling of a value. -/
theorem encode_of_decode {kind : FieldKind} {bs : List UInt8} {v : kind.Value}
    (hlen : bs.length = kind.width) (hnotText : ∀ width, kind ≠ .text width)
    (h : kind.decode bs = .ok v) : kind.encode v = bs := by
  cases kind with
  | text width => exact absurd rfl (hnotText width)
  | int32 =>
      cases h
      show LittleEndian.bytes 4 (UInt32.toInt32 _).toUInt32.toNat = bs
      rw [UInt32.toUInt32_toInt32]
      exact bytes_ofNat_value hlen
  | uint32 =>
      cases h
      exact bytes_ofNat_value hlen
  | int64 =>
      cases h
      show LittleEndian.bytes 8 (UInt64.toInt64 _).toUInt64.toNat = bs
      rw [UInt64.toUInt64_toInt64]
      exact bytes_ofNat_value_wide hlen
  | binary64 =>
      cases h
      exact bytes_ofNat_value_wide hlen
  | flag =>
      obtain ⟨b, rfl⟩ := List.length_eq_one_iff.mp hlen
      have hb := byte_of_decodeFlag h
      rw [ofNat_value_singleton] at hb
      exact congrArg (fun b => [b]) hb
  | side | logonStatus | requestAction =>
      obtain ⟨b, rfl⟩ := List.length_eq_one_iff.mp hlen
      have hb := code_of_decodeChoice h
      rw [ofNat_value_singleton] at hb
      exact congrArg (fun b => [b]) hb

/-- The bytes of a field hold a value just when it fits and the bytes are its own outside the
slack. -/
theorem decode_eq_ok_iff {kind : FieldKind} {bs : List UInt8} {v : kind.Value}
    (hlen : bs.length = kind.width) :
    kind.decode bs = .ok v ↔
      kind.Fits v ∧ ∀ i < kind.width, ¬ kind.Slack bs i → bs[i]? = (kind.encode v)[i]? := by
  by_cases htext : ∃ width, kind = .text width
  · obtain ⟨width, rfl⟩ := htext
    exact decode_text_iff hlen
  · have hnotText : ∀ width, kind ≠ .text width := fun width h => htext ⟨width, h⟩
    have hfits : kind.Fits v := by
      cases kind with
      | text width => exact absurd rfl (hnotText width)
      | _ => trivial
    have hnorm : kind.norm v = v := norm_eq_self hfits
    have hslack : ∀ i, ¬ kind.Slack bs i := by
      cases kind with
      | text width => exact absurd rfl (hnotText width)
      | _ => exact fun _ => id
    constructor
    · intro h
      exact ⟨hfits, fun i _ _ => by rw [encode_of_decode hlen hnotText h]⟩
    · rintro ⟨-, h⟩
      have heq : bs = kind.encode v := by
        refine List.ext_getElem? fun i => ?_
        by_cases hi : i < kind.width
        · exact h i hi (hslack i)
        · rw [List.getElem?_eq_none (by omega), List.getElem?_eq_none (by simp; omega)]
      rw [heq, decode_encode, hnorm]

theorem getElem?_encode_of_slack {kind : FieldKind} {bs : List UInt8} {v : kind.Value} {i : Nat}
    (hlen : bs.length = kind.width) (h : kind.decode bs = .ok v) (hi : i < kind.width)
    (hslack : kind.Slack bs i) : (kind.encode v)[i]? = some 0 := by
  cases kind with
  | text width =>
      obtain ⟨j, hj, hzero⟩ := hslack
      have hfits := ((decode_eq_ok_iff hlen).mp h).1
      have hbytes : Utf8.bytes v = bs.takeWhile (· ≠ 0) := decodeText_eq_ok_iff.mp h
      have hshort : (Utf8.bytes v).length ≤ j := by
        by_contra hlong
        have hlt : j < (bs.takeWhile (· ≠ 0)).length := by rw [← hbytes]; omega
        have hne := List.mem_takeWhile_imp (List.getElem_mem hlt)
        rw [(List.takeWhile_prefix _).getElem hlt] at hne
        rw [List.getElem?_eq_getElem (by rw [hlen]; exact Nat.lt_trans hj hi)] at hzero
        exact absurd (Option.some.inj hzero) (of_decide_eq_true hne)
      show (encodeText width v)[i]? = some 0
      rw [encodeText_of_fits hfits, List.getElem?_append_right (by omega),
        List.getElem?_replicate_of_lt (by have : i < width := hi; omega)]
  | _ => exact hslack.elim

end FieldKind

/-! ## Rows of fields -/

namespace Layout

/-- Position `i` of a body with the bytes `bs` is not looked at. -/
def Slack : Layout → List UInt8 → Nat → Prop
  | [], _, _ => False
  | field :: rest, bs, i =>
    if i < field.kind.width then field.kind.Slack (bs.take field.kind.width) i
    else Slack rest (bs.drop field.kind.width) (i - field.kind.width)

theorem decode_cons_eq_ok_iff {field : Field} {rest : Layout} {bs : List UInt8}
    {v : field.kind.Value} {vs : Layout.Value rest} :
    decode (field :: rest) bs = .ok (v, vs) ↔
      field.kind.decode (bs.take field.kind.width) = .ok v ∧
        decode rest (bs.drop field.kind.width) = .ok vs := by
  rw [decode]
  cases field.kind.decode (bs.take field.kind.width) with
  | error _ => simp
  | ok _ => cases decode rest (bs.drop field.kind.width) <;> simp

section Cons
variable {field : Field} {rest : Layout} {i : Nat}

theorem slack_head (bs : List UInt8) (hi : i < field.kind.width) :
    Slack (field :: rest) bs i ↔ field.kind.Slack (bs.take field.kind.width) i := by
  rw [Slack, if_pos hi]

theorem slack_tail (bs : List UInt8) :
    Slack (field :: rest) bs (field.kind.width + i)
      ↔ Slack rest (bs.drop field.kind.width) i := by
  rw [Slack, if_neg (Nat.not_lt.mpr (Nat.le_add_right _ i)), Nat.add_sub_cancel_left]

theorem getElem?_encode_head (v : field.kind.Value) (vs : Layout.Value rest)
    (hi : i < field.kind.width) :
    (encode (field :: rest) (v, vs))[i]? = (field.kind.encode v)[i]? := by
  rw [encode, List.getElem?_append_left (by rwa [FieldKind.length_encode])]

theorem getElem?_encode_tail (v : field.kind.Value) (vs : Layout.Value rest) :
    (encode (field :: rest) (v, vs))[field.kind.width + i]? = (encode rest vs)[i]? := by
  rw [encode, List.getElem?_append_right (by simp), FieldKind.length_encode,
    Nat.add_sub_cancel_left]

end Cons

theorem decode_eq_ok_iff : (layout : Layout) → (bs : List UInt8) → (vs : layout.Value) →
    bs.length = layout.width →
      (layout.decode bs = .ok vs ↔
        layout.Fits vs ∧
          ∀ i < layout.width, ¬ layout.Slack bs i → bs[i]? = (layout.encode vs)[i]?)
  | [], _, _, _ =>
      ⟨fun _ => ⟨trivial, fun i hi => absurd hi (Nat.not_lt_zero i)⟩, fun _ => rfl⟩
  | field :: rest, bs, (v, vs), hlen => by
      rw [width] at hlen
      have hhead : (bs.take field.kind.width).length = field.kind.width := by simp; omega
      have htail : (bs.drop field.kind.width).length = width rest := by simp; omega
      rw [decode_cons_eq_ok_iff, FieldKind.decode_eq_ok_iff hhead,
        decode_eq_ok_iff rest _ vs htail, width, forall_lt_add_iff, Fits, and_and_and_comm]
      refine and_congr_right fun _ => and_congr ?_ ?_
      · refine forall₂_congr fun i hi => ?_
        rw [slack_head bs hi, getElem?_encode_head v vs hi, List.getElem?_take_of_lt hi]
      · refine forall₂_congr fun i _ => ?_
        rw [slack_tail, getElem?_encode_tail, List.getElem?_drop]

theorem slack_take : (layout : Layout) → (bs : List UInt8) → (i : Nat) →
    (layout.Slack (bs.take layout.width) i ↔ layout.Slack bs i)
  | [], _, _ => Iff.rfl
  | field :: rest, bs, i => by
      rw [width, Slack, Slack]
      split
      · rw [List.take_take, Nat.min_eq_left (Nat.le_add_right _ _)]
      · rw [List.drop_take, Nat.add_sub_cancel_left, slack_take rest]

theorem getElem?_encode_of_slack : (layout : Layout) → (bs : List UInt8) →
    (vs : layout.Value) → bs.length = layout.width → layout.decode bs = .ok vs →
      ∀ i < layout.width, layout.Slack bs i → (layout.encode vs)[i]? = some 0
  | [], _, _, _, _ => fun i hi => absurd hi (Nat.not_lt_zero i)
  | field :: rest, bs, (v, vs), hlen, h => by
      rw [width] at hlen
      obtain ⟨hv, hvs⟩ := decode_cons_eq_ok_iff.mp h
      have htail : (bs.drop field.kind.width).length = width rest := by simp; omega
      refine forall_lt_add_iff.mpr ⟨fun i hi hslack => ?_, fun i hi hslack => ?_⟩
      · rw [getElem?_encode_head v vs hi]
        exact FieldKind.getElem?_encode_of_slack (by simp; omega) hv hi
          ((slack_head bs hi).mp hslack)
      · rw [getElem?_encode_tail]
        exact getElem?_encode_of_slack rest _ vs htail hvs i hi ((slack_tail bs).mp hslack)

end Layout

/-! ## Headers -/

attribute [ext] Header

namespace Header

theorem read_eq_ok_iff {bs : List UInt8} {h : Header} :
    read bs = .ok h ↔ bs.take headerSize = h.bytes := by
  constructor
  · intro hread
    unfold read at hread
    split at hread
    · cases hread
    · next hlong =>
        cases hread
        have hpair (xs : List UInt8) (hlen : xs.length = 2) :
            LittleEndian.bytes 2 (UInt16.ofNat (LittleEndian.value xs)).toNat = xs := by
          have hlt := LittleEndian.value_lt xs
          rw [hlen] at hlt
          rw [UInt16.toNat_ofNat_of_lt' hlt, ← hlen, LittleEndian.bytes_value]
        have hlen : headerSize ≤ bs.length := Nat.le_of_not_lt hlong
        rw [headerSize] at hlen
        rw [bytes, hpair _ (by simp; omega), hpair _ (by simp; omega), headerSize,
          ← List.take_add]
  · intro htake
    rw [← List.take_append_drop headerSize bs, htake, read_append]

end Header

theorem MessageType.ofTag?_eq_some_iff {tag : UInt16} {t : MessageType} :
    ofTag? tag = some t ↔ tag = t.tag := by
  constructor
  · intro h
    have hbeq := List.find?_some h
    exact (eq_of_beq hbeq).symm
  · rintro rfl
    exact ofTag?_tag t

/-! ## Frames -/

namespace Message

/-- Position `i` of a frame with the bytes `bs` is not looked at: it lies in a text field of the
body, behind the field's first zero byte. -/
def Slack (type : MessageType) (bs : List UInt8) (i : Nat) : Prop :=
  headerSize ≤ i ∧ type.layout.Slack (bs.drop headerSize) (i - headerSize)

theorem exists_ofBody_iff {P : (t : MessageType) → t.layout.Value → Prop} {t : MessageType}
    {m : Message} :
    (∃ vs, m = ofBody t vs ∧ P t vs) ↔ m.type = t ∧ P m.type m.body := by
  constructor
  · rintro ⟨vs, rfl, h⟩
    refine ⟨type_ofBody t vs, ?_⟩
    cases t <;> exact h
  · rintro ⟨rfl, h⟩
    exact ⟨m.body, (ofBody_body m).symm, h⟩

theorem decodeBody_eq_ok_iff {t : MessageType} {bs : List UInt8} {m : Message} :
    decodeBody t bs = .ok m ↔
      m.type = t ∧ bs.length = m.type.layout.width ∧ m.type.layout.decode bs = .ok m.body := by
  rw [← exists_ofBody_iff (P := fun t vs =>
    bs.length = t.layout.width ∧ t.layout.decode bs = .ok vs)]
  unfold decodeBody
  by_cases hwidth : bs.length = t.layout.width
  · simp only [hwidth, Nat.lt_irrefl, if_false, true_and]
    cases t.layout.decode bs with
    | ok vs => simp [eq_comm]
    | error e => simp
  · have hne : bs.length < t.layout.width ∨ t.layout.width < bs.length := by omega
    rcases hne with h | h
    · simp [h, hwidth]
    · simp [h, hwidth, Nat.lt_asymm h]

theorem decode_eq_ok_iff_body {limit : Nat} {bs : List UInt8} {m : Message} :
    decode limit bs = .ok m ↔
      bs.take headerSize = m.header.bytes ∧ m.frameSize ≤ limit ∧ m.frameSize ≤ bs.length ∧
        m.type.layout.decode ((bs.drop headerSize).take m.type.layout.width) = .ok m.body := by
  constructor
  · intro h
    unfold decode at h
    split at h
    · cases h
    · next header hread =>
        split at h
        · cases h
        · next hvalid =>
            split at h
            · cases h
            · next t htype =>
                obtain ⟨rfl, hwidth, hbody⟩ := decodeBody_eq_ok_iff.mp h
                obtain ⟨hmin, hlimit, hlen⟩ := Header.validate_eq_ok_iff.mp hvalid
                -- all of the body is there, so its width is what the header declares
                have hsize : header.bodySize = m.type.layout.width := by
                  rw [List.length_take, List.length_drop, Header.bodySize] at hwidth
                  rw [Header.bodySize]
                  omega
                have hframe : header.size.toNat = m.frameSize := by
                  rw [Header.bodySize] at hsize
                  rw [frameSize]
                  omega
                have hheader : header = m.header := by
                  refine Header.ext ?_ (MessageType.ofTag?_eq_some_iff.mp htype)
                  exact UInt16.toNat_inj.mp (hframe.trans m.toNat_size_header.symm)
                rw [hsize] at hbody
                rw [hframe] at hlimit hlen
                exact ⟨hheader ▸ Header.read_eq_ok_iff.mp hread, hlimit, hlen, hbody⟩
  · rintro ⟨hheader, hlimit, hlen, hbody⟩
    have hread := Header.read_eq_ok_iff.mpr hheader
    have hvalid : m.header.validate bs.length limit = .ok () := by
      rw [Header.validate_eq_ok_iff, toNat_size_header]
      exact ⟨m.headerSize_le_frameSize, hlimit, hlen⟩
    have htype : m.header.type? = some m.type := MessageType.ofTag?_tag m.type
    have hwidth : ((bs.drop headerSize).take m.type.layout.width).length
        = m.type.layout.width := by
      rw [frameSize] at hlen
      simp
      omega
    simp only [decode, hread, hvalid, htype, bodySize_header]
    exact decodeBody_eq_ok_iff.mpr ⟨rfl, hwidth, hbody⟩

section Frame
variable {m : Message} {bs : List UInt8} {i : Nat}

theorem not_slack_header (hi : i < headerSize) : ¬ Slack m.type bs i :=
  fun h => absurd h.1 (Nat.not_le.mpr hi)

theorem slack_body :
    Slack m.type bs (headerSize + i)
      ↔ m.type.layout.Slack ((bs.drop headerSize).take m.type.layout.width) i := by
  rw [Slack, Nat.add_sub_cancel_left, Layout.slack_take]
  exact and_iff_right (Nat.le_add_right _ _)

theorem getElem?_encode_header (hi : i < headerSize) : m.encode[i]? = m.header.bytes[i]? := by
  rw [encode, List.getElem?_append_left (by rwa [Header.length_bytes])]

theorem getElem?_encode_body :
    m.encode[headerSize + i]? = (m.type.layout.encode m.body)[i]? := by
  rw [encode, List.getElem?_append_right (by simp), Header.length_bytes, Nat.add_sub_cancel_left]

theorem take_headerSize_eq_iff :
    bs.take headerSize = m.header.bytes ↔
      ∀ i < headerSize, ¬ Slack m.type bs i → bs[i]? = m.encode[i]? := by
  constructor
  · intro h i hi _
    rw [getElem?_encode_header hi, ← h, List.getElem?_take_of_lt hi]
  · intro h
    refine List.ext_getElem? fun i => ?_
    by_cases hi : i < headerSize
    · rw [List.getElem?_take_of_lt hi, h i hi (not_slack_header hi), getElem?_encode_header hi]
    · rw [List.getElem?_eq_none (by simp; omega), List.getElem?_eq_none (by simp; omega)]

end Frame

/-- A byte string starts with a frame of `m` just when `m` fits, the limit and the bytes have room
for its frame, and the bytes are those of `m.encode` outside the slack. -/
theorem decode_eq_ok_iff {limit : Nat} {bs : List UInt8} {m : Message} :
    decode limit bs = .ok m ↔
      m.Fits ∧ m.frameSize ≤ limit ∧ m.frameSize ≤ bs.length ∧
        ∀ i < m.frameSize, ¬ Slack m.type bs i → bs[i]? = m.encode[i]? := by
  rw [decode_eq_ok_iff_body]
  by_cases hlen : m.frameSize ≤ bs.length
  · have hwidth : ((bs.drop headerSize).take m.type.layout.width).length
        = m.type.layout.width := by
      rw [frameSize] at hlen
      simp
      omega
    have hbody : (∀ i < m.type.layout.width,
          ¬ m.type.layout.Slack ((bs.drop headerSize).take m.type.layout.width) i →
            ((bs.drop headerSize).take m.type.layout.width)[i]?
              = (m.type.layout.encode m.body)[i]?) ↔
        ∀ i < m.type.layout.width, ¬ Slack m.type bs (headerSize + i) →
          bs[headerSize + i]? = m.encode[headerSize + i]? := by
      refine forall₂_congr fun i hi => ?_
      rw [slack_body, getElem?_encode_body, List.getElem?_take_of_lt hi, List.getElem?_drop]
    have hframe : (∀ i < m.frameSize, ¬ Slack m.type bs i → bs[i]? = m.encode[i]?) ↔
        bs.take headerSize = m.header.bytes ∧
          ∀ i < m.type.layout.width, ¬ Slack m.type bs (headerSize + i) →
            bs[headerSize + i]? = m.encode[headerSize + i]? := by
      rw [take_headerSize_eq_iff, ← forall_lt_add_iff, frameSize]
    rw [hframe, Layout.decode_eq_ok_iff _ _ _ hwidth, hbody]
    constructor
    · rintro ⟨hhead, hlimit, hlen, hfits, htail⟩
      exact ⟨hfits, hlimit, hlen, hhead, htail⟩
    · rintro ⟨hfits, hlimit, hlen, hhead, htail⟩
      exact ⟨hhead, hlimit, hlen, hfits, htail⟩
  · simp [hlen]

theorem getElem?_encode_of_slack {limit : Nat} {bs : List UInt8} {m : Message} {i : Nat}
    (h : decode limit bs = .ok m) (hi : i < m.frameSize) (hslack : Slack m.type bs i) :
    m.encode[i]? = some 0 := by
  obtain ⟨-, -, hlen, hbody⟩ := decode_eq_ok_iff_body.mp h
  obtain ⟨i, rfl⟩ := Nat.exists_eq_add_of_le hslack.1
  rw [frameSize] at hi hlen
  have hlt : i < m.type.layout.width := by omega
  rw [getElem?_encode_body]
  exact Layout.getElem?_encode_of_slack _ _ _ (by simp; omega) hbody i hlt
    (slack_body.mp hslack)

theorem take_frameSize_eq_encode_iff {limit : Nat} {bs : List UInt8} {m : Message}
    (h : decode limit bs = .ok m) :
    bs.take m.frameSize = m.encode ↔
      ∀ i < m.frameSize, Slack m.type bs i → bs[i]? = some 0 := by
  obtain ⟨-, -, hlen, hagree⟩ := decode_eq_ok_iff.mp h
  constructor
  · intro heq i hi hslack
    rw [← List.getElem?_take_of_lt hi, heq]
    exact getElem?_encode_of_slack h hi hslack
  · intro hzero
    refine List.ext_getElem? fun i => ?_
    by_cases hi : i < m.frameSize
    · rw [List.getElem?_take_of_lt hi]
      by_cases hslack : Slack m.type bs i
      · rw [hzero i hi hslack, getElem?_encode_of_slack h hi hslack]
      · exact hagree i hi hslack
    · rw [List.getElem?_eq_none (by simp; omega), List.getElem?_eq_none (by simp; omega)]

/-- The frames that a reader takes for `m` are those of `m`, up to their slack: no other bytes are
taken for `m`, and none of these are refused.  What was read once is read again from its own
frame, and that frame is the one that was read just when the slack of the latter is all zeros. -/
theorem decode_iff_frame_up_to_slack (limit : Nat) (bs : List UInt8) (m : Message) :
    (decode limit bs = .ok m ↔
      m.Fits ∧ m.frameSize ≤ limit ∧ m.frameSize ≤ bs.length ∧
        ∀ i < m.frameSize, ¬ Slack m.type bs i → bs[i]? = m.encode[i]?) ∧
      (decode limit bs = .ok m →
        decode defaultFrameLimit m.encode = .ok m ∧
          (bs.take m.frameSize = m.encode ↔
            ∀ i < m.frameSize, Slack m.type bs i → bs[i]? = some 0)) := by
  refine ⟨decode_eq_ok_iff, fun h => ⟨?_, take_frameSize_eq_encode_iff h⟩⟩
  rw [decode_encode m.frameSize_le_defaultFrameLimit, norm_eq_self (decode_eq_ok_iff.mp h).1]

end Message
end MarketRelay
