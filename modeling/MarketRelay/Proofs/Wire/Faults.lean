import MarketRelay.Proofs.Wire.Language
import MarketRelay.Proofs.Wire.Table

/-!
# Why bytes are no frame

Every byte string starts with a frame, or there is one reason why it does not.  The reasons are
looked for in a fixed order, and `Frame.Fault` says when each of them is the one: too few bytes for
a header, a size that no frame here can have, a tag outside the table, a body of another size than
the table's, and at last the first field, in wire order, whose bytes hold no value of its kind.
The conditions speak of the bytes alone, so they decide what a reader says.

* `exists_decode_iff_holds`, `decode_eq_error_iff`: a row of fields, by induction on the row.
  `FirstBad` is the first field that holds no value, and all before it do.
* `decode_eq_error_iff_fault`, `exists_decode_iff_sound`: a frame.
* `decode_take_append`: what stands behind the declared size has no part in the answer.
* `decodeChecked_eq`: a reader that takes every byte it looks at by a cut that may fail never sees
  one fail.  A field is cut only out of a body that has room for all of its row.

`decode_classified` is the four of them.
-/
namespace MarketRelay

/-! ## The parts of a frame -/

namespace Frame

def size : List UInt8 → Nat
  | low :: high :: _ => low.toNat + 256 * high.toNat
  | _ => 0

def tag : List UInt8 → Nat
  | _ :: _ :: low :: high :: _ => low.toNat + 256 * high.toNat
  | _ => 0

def body (bs : List UInt8) : List UInt8 := (bs.drop headerSize).take (size bs - headerSize)

/-- The declared size is a frame's: room for a header, all of it there, and within the limit. -/
structure WellSized (limit : Nat) (bs : List UInt8) : Prop where
  headerSize_le : headerSize ≤ size bs
  le_length : size bs ≤ bs.length
  le_limit : size bs ≤ limit

end Frame

/-! ## Fields and their bytes -/

theorem Side.exists_iff {P : Side → Prop} : (∃ x, P x) ↔ P .buy ∨ P .sell := by
  constructor
  · rintro ⟨x, h⟩
    cases x with
    | buy => exact Or.inl h
    | sell => exact Or.inr h
  · rintro (h | h)
    · exact ⟨.buy, h⟩
    · exact ⟨.sell, h⟩

theorem LogonStatus.exists_iff {P : LogonStatus → Prop} :
    (∃ x, P x) ↔ P .success ∨ P .rejected := by
  constructor
  · rintro ⟨x, h⟩
    cases x with
    | success => exact Or.inl h
    | rejected => exact Or.inr h
  · rintro (h | h)
    · exact ⟨.success, h⟩
    · exact ⟨.rejected, h⟩

theorem RequestAction.exists_iff {P : RequestAction → Prop} :
    (∃ x, P x) ↔ P .subscribe ∨ P .unsubscribe ∨ P .snapshot := by
  constructor
  · rintro ⟨x, h⟩
    cases x with
    | subscribe => exact Or.inl h
    | unsubscribe => exact Or.inr (Or.inl h)
    | snapshot => exact Or.inr (Or.inr h)
  · rintro (h | h | h)
    · exact ⟨.subscribe, h⟩
    · exact ⟨.unsubscribe, h⟩
    · exact ⟨.snapshot, h⟩

namespace FieldKind

def Holds : FieldKind → List UInt8 → Prop
  | .int32, _ | .uint32, _ | .int64, _ | .binary64, _ => True
  | .flag, bs => bs = [0] ∨ bs = [1]
  | .side, bs | .logonStatus, bs => bs = [1] ∨ bs = [2]
  | .requestAction, bs => bs = [1] ∨ bs = [2] ∨ bs = [3]
  | .text _, bs => ∃ s, Utf8.bytes s = bs.takeWhile (· ≠ 0)

/-- Outside texts the bytes that a field reads are those that it writes. -/
theorem exists_decode_iff_exists_encode {kind : FieldKind} {bs : List UInt8}
    (hlen : bs.length = kind.width) (hnotText : ∀ width, kind ≠ .text width) :
    (∃ v, kind.decode bs = .ok v) ↔ ∃ v, bs = kind.encode v := by
  constructor
  · rintro ⟨v, h⟩
    exact ⟨v, (encode_of_decode hlen hnotText h).symm⟩
  · rintro ⟨v, rfl⟩
    exact ⟨kind.norm v, kind.decode_encode v⟩

theorem exists_decode_iff_holds {kind : FieldKind} {bs : List UInt8}
    (hlen : bs.length = kind.width) : (∃ v, kind.decode bs = .ok v) ↔ kind.Holds bs := by
  cases kind with
  | int32 | uint32 | int64 | binary64 => exact iff_of_true ⟨_, rfl⟩ trivial
  | text width => exact exists_congr fun _ => decodeText_eq_ok_iff
  | flag =>
      rw [exists_decode_iff_exists_encode hlen (by simp)]
      exact Bool.exists_bool
  | side =>
      rw [exists_decode_iff_exists_encode hlen (by simp)]
      exact Side.exists_iff
  | logonStatus =>
      rw [exists_decode_iff_exists_encode hlen (by simp)]
      exact LogonStatus.exists_iff
  | requestAction =>
      rw [exists_decode_iff_exists_encode hlen (by simp)]
      exact RequestAction.exists_iff

theorem not_holds_of_error {kind : FieldKind} {bs : List UInt8} {fault : FieldFault}
    (hlen : bs.length = kind.width) (h : kind.decode bs = .error fault) : ¬ kind.Holds bs := by
  intro hholds
  obtain ⟨v, hv⟩ := (exists_decode_iff_holds hlen).mpr hholds
  rw [h] at hv
  cases hv

end FieldKind

/-! ## Rows of fields and their bytes -/

namespace Layout

/-- The bytes of a field that stands behind the fields `before`. -/
def bytesBehind (before : Layout) (field : Field) (body : List UInt8) : List UInt8 :=
  (body.drop before.width).take field.kind.width

def Holds (layout : Layout) (body : List UInt8) : Prop :=
  ∀ before field after, layout = before ++ field :: after →
    field.kind.Holds (bytesBehind before field body)

/-- `field` is the first of a row whose bytes hold no value of its kind, and `fault` is what is
wrong with them. -/
def FirstBad (layout : Layout) (body : List UInt8) (field : Field) (fault : FieldFault) : Prop :=
  ∃ before after, layout = before ++ field :: after ∧ Holds before body ∧
    ¬ field.kind.Holds (bytesBehind before field body) ∧
    field.kind.decode (bytesBehind before field body) = .error fault

section Cons
variable {head : Field} {rest : Layout} {body : List UInt8}

theorem bytesBehind_cons (before : Layout) (field : Field) :
    bytesBehind (head :: before) field body
      = bytesBehind before field (body.drop head.kind.width) := by
  rw [bytesBehind, bytesBehind, width, List.drop_drop]

theorem holds_nil : Holds [] body := by
  intro before field after h
  cases before <;> cases h

theorem holds_cons_iff :
    Holds (head :: rest) body ↔
      head.kind.Holds (body.take head.kind.width) ∧ Holds rest (body.drop head.kind.width) := by
  constructor
  · intro h
    refine ⟨h [] head rest rfl, ?_⟩
    rintro before field after rfl
    rw [← bytesBehind_cons]
    exact h (head :: before) field after rfl
  · rintro ⟨hhead, hrest⟩ before field after h
    cases before with
    | nil =>
        obtain ⟨rfl, -⟩ := List.cons.inj h
        exact hhead
    | cons first before =>
        obtain ⟨rfl, htail⟩ := List.cons.inj h
        rw [bytesBehind_cons]
        exact hrest before field after htail

theorem firstBad_cons_iff {field : Field} {fault : FieldFault} :
    FirstBad (head :: rest) body field fault ↔
      (field = head ∧ ¬ head.kind.Holds (body.take head.kind.width) ∧
          head.kind.decode (body.take head.kind.width) = .error fault) ∨
        (head.kind.Holds (body.take head.kind.width) ∧
          FirstBad rest (body.drop head.kind.width) field fault) := by
  constructor
  · rintro ⟨before, after, h, hbefore, hbad, hfault⟩
    cases before with
    | nil =>
        obtain ⟨rfl, -⟩ := List.cons.inj h
        exact Or.inl ⟨rfl, hbad, hfault⟩
    | cons first before =>
        obtain ⟨rfl, htail⟩ := List.cons.inj h
        rw [bytesBehind_cons] at hbad hfault
        obtain ⟨hhead, hbefore⟩ := holds_cons_iff.mp hbefore
        exact Or.inr ⟨hhead, before, after, htail, hbefore, hbad, hfault⟩
  · rintro (⟨rfl, hbad, hfault⟩ | ⟨hhead, before, after, rfl, hbefore, hbad, hfault⟩)
    · exact ⟨[], rest, rfl, holds_nil, hbad, hfault⟩
    · rw [← bytesBehind_cons] at hbad hfault
      exact ⟨head :: before, after, rfl, holds_cons_iff.mpr ⟨hhead, hbefore⟩, hbad, hfault⟩

end Cons

theorem exists_decode_iff_holds : (layout : Layout) → (bs : List UInt8) →
    bs.length = layout.width → ((∃ vs, layout.decode bs = .ok vs) ↔ layout.Holds bs)
  | [], _, _ => iff_of_true ⟨(), rfl⟩ holds_nil
  | head :: rest, bs, hlen => by
      rw [width] at hlen
      have hhead : (bs.take head.kind.width).length = head.kind.width := by simp; omega
      have htail : (bs.drop head.kind.width).length = width rest := by simp; omega
      rw [holds_cons_iff, ← FieldKind.exists_decode_iff_holds hhead,
        ← exists_decode_iff_holds rest _ htail]
      constructor
      · rintro ⟨⟨v, vs⟩, h⟩
        obtain ⟨hv, hvs⟩ := decode_cons_eq_ok_iff.mp h
        exact ⟨⟨v, hv⟩, vs, hvs⟩
      · rintro ⟨⟨v, hv⟩, vs, hvs⟩
        exact ⟨(v, vs), decode_cons_eq_ok_iff.mpr ⟨hv, hvs⟩⟩

theorem decode_cons_eq_error_iff {head : Field} {rest : Layout} {bs : List UInt8}
    {name : String} {fault : FieldFault} :
    decode (head :: rest) bs = .error (name, fault) ↔
      (name = head.name ∧ head.kind.decode (bs.take head.kind.width) = .error fault) ∨
        ((∃ v, head.kind.decode (bs.take head.kind.width) = .ok v) ∧
          decode rest (bs.drop head.kind.width) = .error (name, fault)) := by
  rw [decode]
  cases head.kind.decode (bs.take head.kind.width) with
  | error _ => simp [eq_comm]
  | ok _ => cases decode rest (bs.drop head.kind.width) <;> simp

theorem decode_eq_error_iff {name : String} {fault : FieldFault} :
    (layout : Layout) → (bs : List UInt8) → bs.length = layout.width →
      (layout.decode bs = .error (name, fault) ↔
        ∃ field, name = field.name ∧ layout.FirstBad bs field fault)
  | [], _, _ => by
      constructor
      · intro h; cases h
      · rintro ⟨_, -, before, _, h, -⟩
        cases before <;> cases h
  | head :: rest, bs, hlen => by
      rw [width] at hlen
      have hhead : (bs.take head.kind.width).length = head.kind.width := by simp; omega
      have htail : (bs.drop head.kind.width).length = width rest := by simp; omega
      rw [decode_cons_eq_error_iff, FieldKind.exists_decode_iff_holds hhead,
        decode_eq_error_iff rest _ htail]
      simp only [firstBad_cons_iff]
      constructor
      · rintro (⟨hname, hfault⟩ | ⟨hholds, field, hname, hrest⟩)
        · exact ⟨head, hname, Or.inl ⟨rfl, FieldKind.not_holds_of_error hhead hfault, hfault⟩⟩
        · exact ⟨field, hname, Or.inr ⟨hholds, hrest⟩⟩
      · rintro ⟨field, hname, ⟨rfl, -, hfault⟩ | ⟨hholds, hrest⟩⟩
        · exact Or.inl ⟨hname, hfault⟩
        · exact Or.inr ⟨hholds, field, hname, hrest⟩

end Layout

/-! ## Headers and tags -/

theorem Header.read_of_headerSize_le {bs : List UInt8} (h : headerSize ≤ bs.length) :
    ∃ header, read bs = .ok header ∧ header.size.toNat = Frame.size bs ∧
      header.tag.toNat = Frame.tag bs := by
  match bs with
  | a :: b :: c :: d :: rest =>
      have hpair : ∀ low high : UInt8,
          (UInt16.ofNat (LittleEndian.value [low, high])).toNat = low.toNat + 256 * high.toNat := by
        intro low high
        have := low.toNat_lt
        have := high.toNat_lt
        exact UInt16.toNat_ofNat_of_lt' (by simp only [LittleEndian.value, UInt16.size]; omega)
      exact ⟨_, if_neg (Nat.not_lt.mpr h), hpair a b, hpair c d⟩

namespace MessageType

theorem ofTag?_eq_some_iff_number {tag : UInt16} {t : MessageType} :
    ofTag? tag = some t ↔ t.number = tag.toNat := by
  rw [ofTag?_eq_some_iff, ← t.toNat_tag, UInt16.toNat_inj, eq_comm]

theorem ofTag?_eq_none_iff {tag : UInt16} :
    ofTag? tag = none ↔ ∀ t : MessageType, t.number ≠ tag.toNat := by
  rw [Option.eq_none_iff_forall_ne_some]
  exact forall_congr' fun t => not_congr ofTag?_eq_some_iff_number

end MessageType

/-! ## Frames -/

namespace Frame

/-- `bs` starts with no frame of at most `limit` bytes, and this is what a reader says.  Each reason
is given only where none of those before it holds. -/
inductive Fault (limit : Nat) (bs : List UInt8) : DecodeError → Prop
  | truncated : bs.length < 4 → Fault limit bs (.truncated 4 bs.length)
  | sizeMismatch : 4 ≤ bs.length → size bs < 4 ∨ bs.length < size bs ∨ limit < size bs →
      Fault limit bs (.sizeMismatch (size bs) bs.length limit)
  | unknownType : WellSized limit bs → (∀ t : MessageType, t.number ≠ tag bs) →
      Fault limit bs (.unknownType (UInt16.ofNat (tag bs)) (size bs))
  | bodyTooShort {t : MessageType} : WellSized limit bs → t.number = tag bs →
      size bs - 4 < t.bodySize → Fault limit bs (.bodyTooShort t t.bodySize (size bs - 4))
  | bodyTooLong {t : MessageType} : WellSized limit bs → t.number = tag bs →
      t.bodySize < size bs - 4 → Fault limit bs (.bodyTooLong t t.bodySize (size bs - 4))
  | invalidField {t : MessageType} {field : Field} {fault : FieldFault} : WellSized limit bs →
      t.number = tag bs → size bs - 4 = t.bodySize → t.layout.FirstBad (body bs) field fault →
      Fault limit bs (.invalidField t field.name fault)

/-- `bs` starts with a frame of at most `limit` bytes of a message of kind `t`. -/
structure Sound (limit : Nat) (bs : List UInt8) (t : MessageType) : Prop where
  wellSized : WellSized limit bs
  number_eq : t.number = tag bs
  bodySize_eq : size bs - 4 = t.bodySize
  holds : t.layout.Holds (body bs)

section Parts
variable {limit : Nat} {bs : List UInt8}

theorem not_wellSized_iff :
    ¬ WellSized limit bs ↔ size bs < 4 ∨ bs.length < size bs ∨ limit < size bs := by
  constructor
  · intro hbad
    by_contra hgood
    rw [not_or, not_or, Nat.not_lt, Nat.not_lt, Nat.not_lt] at hgood
    exact hbad ⟨hgood.1, hgood.2.1, hgood.2.2⟩
  · rintro hbad ⟨hmin, hlen, hlimit⟩
    rw [headerSize] at hmin
    omega

theorem WellSized.headerSize_le_length (h : WellSized limit bs) : headerSize ≤ bs.length :=
  Nat.le_trans h.headerSize_le h.le_length

theorem WellSized.length_body (h : WellSized limit bs) : (body bs).length = size bs - 4 := by
  have hlen := h.le_length
  rw [body, List.length_take, List.length_drop, headerSize]
  omega

end Parts
end Frame

namespace Message

section Decode
open MarketRelay.Frame
variable {limit : Nat} {bs : List UInt8} {t : MessageType}

theorem decode_of_short (h : bs.length < headerSize) :
    decode limit bs = .error (.truncated 4 bs.length) := by
  rw [decode, Header.read, if_pos h]
  rfl

theorem decode_of_not_wellSized (hlen : headerSize ≤ bs.length) (h : ¬ WellSized limit bs) :
    decode limit bs = .error (.sizeMismatch (size bs) bs.length limit) := by
  obtain ⟨header, hread, hsize, -⟩ := Header.read_of_headerSize_le hlen
  -- if the header passed its check, the bytes would be well sized
  have hrefused : header.validate bs.length limit
      = .error (.sizeMismatch header.size.toNat bs.length limit) := by
    refine if_neg fun hfits => h ?_
    have hok : header.validate bs.length limit = .ok () := if_pos hfits
    rw [Header.validate_eq_ok_iff, hsize] at hok
    exact ⟨hok.1, hok.2.2, hok.2.1⟩
  simp only [decode, hread, hrefused, hsize]

theorem decode_of_wellSized (h : WellSized limit bs) :
    (∀ t : MessageType, t.number = tag bs → decode limit bs = decodeBody t (Frame.body bs)) ∧
      ((∀ t : MessageType, t.number ≠ tag bs) →
        decode limit bs = .error (.unknownType (UInt16.ofNat (tag bs)) (size bs))) := by
  obtain ⟨header, hread, hsize, htag⟩ := Header.read_of_headerSize_le h.headerSize_le_length
  have hvalid : header.validate bs.length limit = .ok () := by
    rw [Header.validate_eq_ok_iff, hsize]
    exact ⟨h.headerSize_le, h.le_limit, h.le_length⟩
  rw [← hsize, ← htag, UInt16.ofNat_toNat]
  constructor
  · intro t ht
    have htype : header.type? = some t := MessageType.ofTag?_eq_some_iff_number.mpr ht
    simp only [decode, hread, hvalid, htype, Header.bodySize, hsize]
    rfl
  · intro hnone
    have htype : header.type? = none := MessageType.ofTag?_eq_none_iff.mpr hnone
    simp only [decode, hread, hvalid, htype]

theorem decodeBody_eq_error_iff {body : List UInt8} {e : DecodeError} :
    decodeBody t body = .error e ↔
      (body.length < t.bodySize ∧ e = .bodyTooShort t t.bodySize body.length) ∨
        (t.bodySize < body.length ∧ e = .bodyTooLong t t.bodySize body.length) ∨
        (body.length = t.bodySize ∧ ∃ field fault, e = .invalidField t field.name fault ∧
          t.layout.FirstBad body field fault) := by
  rw [← t.width_layout]
  unfold decodeBody
  rcases Nat.lt_trichotomy body.length t.layout.width with hlt | heq | hgt
  · simp [hlt, Nat.lt_asymm hlt, Nat.ne_of_lt hlt, eq_comm]
  · simp only [heq, Nat.lt_irrefl, if_false, false_and, false_or, true_and]
    constructor
    · intro h
      split at h
      · cases h
      · next name fault hdecode =>
          obtain ⟨field, rfl, hbad⟩ := (Layout.decode_eq_error_iff _ _ heq).mp hdecode
          exact ⟨field, fault, (Except.error.inj h).symm, hbad⟩
    · rintro ⟨field, fault, rfl, hbad⟩
      have hdecode := (Layout.decode_eq_error_iff _ _ heq).mpr ⟨field, rfl, hbad⟩
      rw [hdecode]
  · simp [hgt, Nat.lt_asymm hgt, Nat.ne_of_gt hgt, eq_comm]

theorem exists_decodeBody_iff {body : List UInt8} :
    (∃ m, m.type = t ∧ decodeBody t body = .ok m) ↔
      body.length = t.bodySize ∧ t.layout.Holds body := by
  rw [← t.width_layout]
  constructor
  · rintro ⟨m, rfl, h⟩
    obtain ⟨-, hlen, hdecode⟩ := decodeBody_eq_ok_iff.mp h
    exact ⟨hlen, (Layout.exists_decode_iff_holds _ _ hlen).mp ⟨m.body, hdecode⟩⟩
  · rintro ⟨hlen, hholds⟩
    obtain ⟨vs, hvs⟩ := (Layout.exists_decode_iff_holds _ _ hlen).mpr hholds
    refine ⟨ofBody t vs, type_ofBody t vs, ?_⟩
    simp only [decodeBody, hlen, Nat.lt_irrefl, if_false, hvs]

/-- A reader says what is the matter with the bytes, and only that. -/
theorem decode_eq_error_iff_fault {e : DecodeError} :
    decode limit bs = .error e ↔ Fault limit bs e := by
  constructor
  · intro h
    by_cases hlen : headerSize ≤ bs.length
    · by_cases hsized : WellSized limit bs
      · obtain ⟨hknown, hunknown⟩ := decode_of_wellSized hsized
        by_cases htag : ∃ t : MessageType, t.number = tag bs
        · obtain ⟨t, ht⟩ := htag
          rw [hknown t ht, decodeBody_eq_error_iff, hsized.length_body] at h
          rcases h with ⟨hshort, rfl⟩ | ⟨hlong, rfl⟩ | ⟨hexact, field, fault, rfl, hbad⟩
          · exact .bodyTooShort hsized ht hshort
          · exact .bodyTooLong hsized ht hlong
          · exact .invalidField hsized ht hexact hbad
        · have hnone : ∀ t : MessageType, t.number ≠ tag bs := not_exists.mp htag
          rw [hunknown hnone] at h
          cases h
          exact .unknownType hsized hnone
      · rw [decode_of_not_wellSized hlen hsized] at h
        cases h
        exact .sizeMismatch hlen (not_wellSized_iff.mp hsized)
    · have hshort : bs.length < headerSize := Nat.lt_of_not_le hlen
      rw [decode_of_short hshort] at h
      cases h
      exact .truncated hshort
  · intro h
    cases h with
    | truncated hshort => exact decode_of_short hshort
    | sizeMismatch hlen hsize => exact decode_of_not_wellSized hlen (not_wellSized_iff.mpr hsize)
    | unknownType hsized hnone => exact (decode_of_wellSized hsized).2 hnone
    | bodyTooShort hsized ht hshort =>
        rw [(decode_of_wellSized hsized).1 _ ht, decodeBody_eq_error_iff, hsized.length_body]
        exact Or.inl ⟨hshort, rfl⟩
    | bodyTooLong hsized ht hlong =>
        rw [(decode_of_wellSized hsized).1 _ ht, decodeBody_eq_error_iff, hsized.length_body]
        exact Or.inr (Or.inl ⟨hlong, rfl⟩)
    | invalidField hsized ht hexact hbad =>
        rw [(decode_of_wellSized hsized).1 _ ht, decodeBody_eq_error_iff, hsized.length_body]
        exact Or.inr (Or.inr ⟨hexact, _, _, rfl, hbad⟩)

theorem exists_decode_iff_sound :
    (∃ m, m.type = t ∧ decode limit bs = .ok m) ↔ Sound limit bs t := by
  constructor
  · rintro ⟨m, hm, h⟩
    have hsized : WellSized limit bs := by
      by_contra hsized
      by_cases hlen : headerSize ≤ bs.length
      · rw [decode_of_not_wellSized hlen hsized] at h
        cases h
      · rw [decode_of_short (Nat.lt_of_not_le hlen)] at h
        cases h
    obtain ⟨hknown, hunknown⟩ := decode_of_wellSized hsized
    obtain ⟨t', ht'⟩ : ∃ t : MessageType, t.number = tag bs := by
      by_contra htag
      rw [hunknown (not_exists.mp htag)] at h
      cases h
    rw [hknown t' ht'] at h
    obtain ⟨rfl, -⟩ := decodeBody_eq_ok_iff.mp h
    obtain ⟨hexact, hholds⟩ := exists_decodeBody_iff.mp ⟨m, rfl, h⟩
    rw [hsized.length_body] at hexact
    rw [← hm]
    exact ⟨hsized, ht', hexact, hholds⟩
  · rintro ⟨hsized, ht, hexact, hholds⟩
    rw [(decode_of_wellSized hsized).1 t ht, exists_decodeBody_iff, hsized.length_body]
    exact ⟨hexact, hholds⟩

end Decode
end Message

/-! ## Bytes behind a frame -/

namespace Frame

section Locality
variable {limit n : Nat} {bs : List UInt8}

theorem header_take_append (hmin : headerSize ≤ n) (hlen : n ≤ bs.length) (more : List UInt8) :
    size (bs.take n ++ more) = size bs ∧ tag (bs.take n ++ more) = tag bs := by
  match n, bs with
  | _ + 4, _ :: _ :: _ :: _ :: _ => exact ⟨rfl, rfl⟩

theorem WellSized.take_append (h : WellSized limit bs) (more : List UInt8) :
    WellSized limit (bs.take (size bs) ++ more) := by
  obtain ⟨hsize, -⟩ := header_take_append h.headerSize_le h.le_length more
  refine ⟨?_, ?_, ?_⟩
  · rw [hsize]
    exact h.headerSize_le
  · rw [hsize, List.length_append, List.length_take_of_le h.le_length]
    exact Nat.le_add_right _ _
  · rw [hsize]
    exact h.le_limit

theorem body_take_append (h : WellSized limit bs) (more : List UInt8) :
    body (bs.take (size bs) ++ more) = body bs := by
  obtain ⟨hsize, -⟩ := header_take_append h.headerSize_le h.le_length more
  have hlen : (bs.take (size bs)).length = size bs := List.length_take_of_le h.le_length
  rw [body, hsize, List.drop_append_of_le_length (hlen.symm ▸ h.headerSize_le),
    List.take_left' (by rw [List.length_drop, hlen]), List.drop_take, body]

end Locality
end Frame

/-- What stands behind the end that the header declares has no part in what a reader says. -/
theorem Message.decode_take_append {limit : Nat} {bs : List UInt8} (h : Frame.WellSized limit bs)
    (more : List UInt8) :
    decode limit (bs.take (Frame.size bs) ++ more) = decode limit bs := by
  obtain ⟨hsize, htag⟩ := Frame.header_take_append h.headerSize_le h.le_length more
  obtain ⟨hknown, hunknown⟩ := decode_of_wellSized h
  obtain ⟨hknown', hunknown'⟩ := decode_of_wellSized (h.take_append more)
  rw [hsize, htag, Frame.body_take_append h more] at *
  by_cases hcatalog : ∃ t : MessageType, t.number = Frame.tag bs
  · obtain ⟨t, ht⟩ := hcatalog
    rw [hknown t ht, hknown' t ht]
  · rw [hunknown (not_exists.mp hcatalog), hunknown' (not_exists.mp hcatalog)]

/-! ## Reading by cuts that may fail -/

def cut? (n : Nat) (bs : List UInt8) : Option (List UInt8 × List UInt8) :=
  if n ≤ bs.length then some (bs.take n, bs.drop n) else none

theorem cut?_of_le {n : Nat} {bs : List UInt8} (h : n ≤ bs.length) :
    cut? n bs = some (bs.take n, bs.drop n) := if_pos h

/-- `Layout.decode` with each field cut off the bytes at hand; none if they run out. -/
def Layout.decodeChecked : (layout : Layout) → List UInt8 →
    Option (Except (String × FieldFault) layout.Value)
  | [], _ => some (.ok ())
  | field :: rest, bs =>
    match cut? field.kind.width bs with
    | none => none
    | some (head, tail) =>
      match field.kind.decode head with
      | .error fault => some (.error (field.name, fault))
      | .ok v =>
        match decodeChecked rest tail with
        | none => none
        | some (.error fault) => some (.error fault)
        | some (.ok vs) => some (.ok (v, vs))

def Header.readChecked (bs : List UInt8) : Option (Except DecodeError Header) :=
  if bs.length < headerSize then some (.error (.truncated headerSize bs.length))
  else
    match cut? 2 bs with
    | none => none
    | some (size, rest) =>
      match cut? 2 rest with
      | none => none
      | some (tag, _) =>
        some (.ok ⟨UInt16.ofNat (LittleEndian.value size), UInt16.ofNat (LittleEndian.value tag)⟩)

namespace Message

/-- `Message.decodeBody` with the size of the table for the width of the row, and every field cut
off. -/
def decodeBodyChecked (type : MessageType) (body : List UInt8) :
    Option (Except DecodeError Message) :=
  if body.length < type.bodySize then
    some (.error (.bodyTooShort type type.bodySize body.length))
  else if type.bodySize < body.length then
    some (.error (.bodyTooLong type type.bodySize body.length))
  else
    match type.layout.decodeChecked body with
    | none => none
    | some (.ok values) => some (.ok (ofBody type values))
    | some (.error (field, fault)) => some (.error (.invalidField type field fault))

/-- `Message.decode` with the frame cut off the bytes, the header cut off the frame, and every field
cut off the body: none as soon as a cut finds too few bytes. -/
def decodeChecked (limit : Nat) (bs : List UInt8) : Option (Except DecodeError Message) :=
  match Header.readChecked bs with
  | none => none
  | some (.error e) => some (.error e)
  | some (.ok h) =>
    match h.validate bs.length limit with
    | .error e => some (.error e)
    | .ok () =>
      match h.type? with
      | none => some (.error (.unknownType h.tag h.size.toNat))
      | some type =>
        match cut? h.size.toNat bs with
        | none => none
        | some (frame, _) =>
          match cut? headerSize frame with
          | none => none
          | some (_, body) => decodeBodyChecked type body

end Message

/-- A row has all of its bytes if the body has as many as the row is wide: each field takes its own
and leaves those of the fields behind it. -/
theorem Layout.decodeChecked_eq : (layout : Layout) → (bs : List UInt8) →
    layout.width ≤ bs.length → layout.decodeChecked bs = some (layout.decode bs)
  | [], _, _ => rfl
  | field :: rest, bs, hlen => by
      rw [width] at hlen
      have hcut : cut? field.kind.width bs = some (_, _) := cut?_of_le (by omega)
      have hrest := decodeChecked_eq rest (bs.drop field.kind.width) (by simp; omega)
      simp only [decodeChecked, hcut, decode]
      cases field.kind.decode (bs.take field.kind.width) with
      | error fault => rfl
      | ok v =>
          simp only [hrest]
          cases decode rest (bs.drop field.kind.width) <;> rfl

theorem Header.readChecked_eq (bs : List UInt8) : readChecked bs = some (read bs) := by
  unfold readChecked read
  split
  · rfl
  · next hlong =>
      rw [headerSize] at hlong
      have hsize : cut? 2 bs = some (_, _) := cut?_of_le (by omega)
      have htag : cut? 2 (bs.drop 2) = some (_, _) := cut?_of_le (by simp; omega)
      simp only [hsize, htag]

namespace Message

theorem decodeBodyChecked_eq (type : MessageType) (body : List UInt8) :
    decodeBodyChecked type body = some (decodeBody type body) := by
  simp only [decodeBodyChecked, decodeBody, type.width_layout]
  by_cases hshort : body.length < type.bodySize
  · rw [if_pos hshort, if_pos hshort]
  · by_cases hlong : type.bodySize < body.length
    · rw [if_neg hshort, if_neg hshort, if_pos hlong, if_pos hlong]
    · have hlen : type.layout.width ≤ body.length := type.width_layout ▸ Nat.le_of_not_lt hshort
      rw [if_neg hshort, if_neg hshort, if_neg hlong, if_neg hlong,
        type.layout.decodeChecked_eq body hlen]
      cases type.layout.decode body <;> rfl

theorem decodeChecked_eq (limit : Nat) (bs : List UInt8) :
    decodeChecked limit bs = some (decode limit bs) := by
  unfold decodeChecked decode
  rw [Header.readChecked_eq]
  cases Header.read bs with
  | error e => rfl
  | ok h =>
      cases hvalid : h.validate bs.length limit with
      | error e => simp only [hvalid]
      | ok _ =>
          -- the check has compared the size with both lengths that the cuts ask for
          obtain ⟨hmin, -, hlen⟩ := Header.validate_eq_ok_iff.mp hvalid
          simp only [hvalid]
          cases h.type? with
          | none => rfl
          | some type =>
              have hframe := cut?_of_le hlen
              have hbody : cut? headerSize (bs.take h.size.toNat) = some (_, _) :=
                cut?_of_le (by rw [List.length_take_of_le hlen]; exact hmin)
              simp only [hframe, hbody, decodeBodyChecked_eq, List.drop_take]
              rfl

/-- What a reader says of bytes, by the bytes alone: the one reason why they start with no frame, or
that they start with one.  It depends on nothing behind the declared size, and every byte that is
looked at is there. -/
theorem decode_classified (limit : Nat) (bs : List UInt8) :
    (∀ e, decode limit bs = .error e ↔ Frame.Fault limit bs e) ∧
      (∀ t, (∃ m, m.type = t ∧ decode limit bs = .ok m) ↔ Frame.Sound limit bs t) ∧
      (Frame.WellSized limit bs →
        ∀ more, decode limit (bs.take (Frame.size bs) ++ more) = decode limit bs) ∧
      decodeChecked limit bs = some (decode limit bs) :=
  ⟨fun _ => decode_eq_error_iff_fault, fun _ => exists_decode_iff_sound, decode_take_append,
    decodeChecked_eq limit bs⟩

/-- Both fields of a farewell are bad; it is refused for the first one. -/
example :
    decode 4096 (((logoff ⟨"bye", true⟩).encode.set 4 0xff).set 100 7) =
      .error (.invalidField .logoff "reason" (.badText (.invalid 1 0))) := by decide +kernel

end Message
end MarketRelay
