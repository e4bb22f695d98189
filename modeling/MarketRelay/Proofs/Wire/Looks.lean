import MarketRelay.Proofs.Wire.Faults
import MarketRelay.Proofs.Wire.Segments

/-!
# Looking at a buffer

A reader of a connection does not decode what it has received: it looks whether a frame is there,
takes it off the buffer, and decodes the frame.  So the rules on sizes stand in two places, and the
bytes that are decoded are others than the bytes that were looked at.  `Stream.followsDecode` says
that neither can be told: for every buffer and every limit a look waits, refuses a size for good, or
takes the declared bytes off and reports what decoding all of the buffer gives.

* `next_of_waits`, `next_of_refused`, `next_of_wellSized`: one look, in each of the three cases.
  In the last one the frame alone is decoded, and `decode_take_append` says that this is as good.
* `next_cases`: there are no others.

From one look it goes on to the loop, which looks until a look takes no frame.  `Stream.looks` are
its looks, each with the bytes it took off and those it left.

* `isLook_of_append`: together they account for every byte of the buffer, and each is a look at what
  the ones before it left.
* `length_looks_le`: there are no more of them than the buffer has room for headers, and one.
* `map_read_looks`: they are what `items` gives.
-/
namespace MarketRelay

/-- The error is about what stands in the body of a frame. -/
def DecodeError.IsOfBody : DecodeError → Prop
  | .bodyTooShort .. | .bodyTooLong .. | .invalidField .. => True
  | _ => False

/-- What a look reports of the decoded bytes: the same, but for an unknown tag, which is nothing to
fail for. -/
inductive StreamRead.Reports : Except DecodeError Message → StreamRead → Prop
  | message (m : Message) : Reports (.ok m) (.item (.message m))
  | unknown (tag : UInt16) (size : Nat) :
      Reports (.error (.unknownType tag size)) (.item (.unknown tag size))
  | failed {e : DecodeError} : (∀ tag size, e ≠ .unknownType tag size) →
      Reports (.error e) (.failed e)

namespace Stream
open MarketRelay.Frame

/-- The bytes at hand are no whole frame yet and can become one. -/
def Waits (limit : Nat) (b : List UInt8) : Prop :=
  b.length < 4 ∨ (4 ≤ size b ∧ size b ≤ limit ∧ b.length < size b)

/-- No frame has the size that the bytes at hand declare, whatever else arrives. -/
def Refused (limit : Nat) (b : List UInt8) : Prop :=
  4 ≤ b.length ∧ (size b < 4 ∨ limit < size b)

/-! ## One look -/

section Next
variable {limit : Nat} {b rest : List UInt8} {read : StreamRead}

theorem wellSized_of_not (hwaits : ¬ Waits limit b) (hrefused : ¬ Refused limit b) :
    WellSized limit b := by
  simp only [Waits, Refused] at hwaits hrefused
  refine ⟨?_, ?_, ?_⟩
  · rw [headerSize]; omega
  · omega
  · omega

theorem next_of_waits (h : Waits limit b) : next limit b = (.pending, b) := by
  by_cases hlen : headerSize ≤ b.length
  · obtain ⟨header, hread, hsize, -⟩ := Header.read_of_headerSize_le hlen
    obtain ⟨hmin, hlimit, hshort⟩ := h.resolve_left (Nat.not_lt.mpr hlen)
    rw [← hsize] at hmin hlimit hshort
    have hfits : header.fits limit = true := by simp [Header.fits, hmin, hlimit, headerSize]
    simp only [next, hread, hfits, Bool.not_true, Bool.false_eq_true, if_false, if_pos hshort]
  · have hread : Header.read b = .error (.truncated headerSize b.length) :=
      if_pos (Nat.lt_of_not_le hlen)
    simp only [next, hread]

theorem next_of_refused (h : Refused limit b) :
    next limit b = (.failed (.sizeMismatch (size b) b.length limit), b) := by
  obtain ⟨header, hread, hsize, -⟩ := Header.read_of_headerSize_le h.1
  have hfits : header.fits limit = false := by
    simp only [Header.fits, headerSize, hsize, Bool.and_eq_false_iff, decide_eq_false_iff_not,
      Nat.not_le]
    exact h.2
  simp only [next, hread, hfits, Bool.not_false, if_true, hsize]

/-- The frame alone is decoded, and that is as good as decoding all of the buffer. -/
theorem next_of_wellSized (h : WellSized limit b) :
    next limit b = (itemOf (Message.decode limit b), b.drop (size b)) := by
  obtain ⟨header, hread, hsize, -⟩ := Header.read_of_headerSize_le h.headerSize_le_length
  have hfits : header.fits limit = true := by
    simp [Header.fits, hsize, h.headerSize_le, h.le_limit]
  -- what is decoded is the frame with nothing behind it
  have hlocal := Message.decode_take_append h []
  rw [List.append_nil] at hlocal
  simp only [next, hread, hfits, hsize, Bool.not_true, Bool.false_eq_true, if_false,
    if_neg (Nat.not_lt.mpr h.le_length), hlocal]

theorem reports_itemOf (decoded : Except DecodeError Message) :
    StreamRead.Reports decoded (itemOf decoded) := by
  cases decoded with
  | ok m => exact .message m
  | error e =>
      cases e with
      | unknownType tag size => exact .unknown tag size
      | _ => exact .failed fun _ _ => by simp

theorem not_reports_pending (decoded : Except DecodeError Message) :
    ¬ StreamRead.Reports decoded .pending := by
  intro h
  cases h

theorem isOfBody_of_reports {e : DecodeError} (h : WellSized limit b)
    (hreports : StreamRead.Reports (Message.decode limit b) (.failed e)) : e.IsOfBody := by
  cases hdecode : Message.decode limit b with
  | ok m =>
      rw [hdecode] at hreports
      cases hreports
  | error e' =>
      rw [hdecode] at hreports
      cases hreports with
      | failed hknown =>
          cases Message.decode_eq_error_iff_fault.mp hdecode with
          | truncated hshort => exact absurd h.headerSize_le_length (Nat.not_le.mpr hshort)
          | sizeMismatch _ hsize => exact absurd h (not_wellSized_iff.mpr hsize)
          | unknownType _ _ => exact absurd rfl (hknown _ _)
          | bodyTooShort | bodyTooLong | invalidField => trivial

theorem next_cases (limit : Nat) (b : List UInt8) :
    (Waits limit b ∧ next limit b = (.pending, b)) ∨
      (Refused limit b ∧
        next limit b = (.failed (.sizeMismatch (size b) b.length limit), b)) ∨
      (WellSized limit b ∧ ∃ read, StreamRead.Reports (Message.decode limit b) read ∧
        next limit b = (read, b.drop (size b))) := by
  by_cases hwaits : Waits limit b
  · exact Or.inl ⟨hwaits, next_of_waits hwaits⟩
  · by_cases hrefused : Refused limit b
    · exact Or.inr (Or.inl ⟨hrefused, next_of_refused hrefused⟩)
    · have hsized := wellSized_of_not hwaits hrefused
      exact Or.inr (Or.inr ⟨hsized, _, reports_itemOf _, next_of_wellSized hsized⟩)

theorem next_eq_pending_iff : next limit b = (.pending, rest) ↔ Waits limit b ∧ rest = b := by
  constructor
  · intro h
    rcases next_cases limit b with ⟨hwaits, hnext⟩ | ⟨-, hnext⟩ | ⟨-, read, hreports, hnext⟩
    · exact ⟨hwaits, (Prod.mk.inj (h.symm.trans hnext)).2⟩
    · cases h.symm.trans hnext
    · cases h.symm.trans hnext
      exact absurd hreports (not_reports_pending _)
  · rintro ⟨hwaits, rfl⟩
    exact next_of_waits hwaits

theorem cases_of_next_failed {e : DecodeError} (h : next limit b = (.failed e, rest)) :
    (Refused limit b ∧ e = .sizeMismatch (size b) b.length limit ∧ rest = b) ∨
      (WellSized limit b ∧ e.IsOfBody ∧ rest = b.drop (size b)) := by
  rcases next_cases limit b with ⟨-, hnext⟩ | ⟨hrefused, hnext⟩ | ⟨hsized, read, hreports, hnext⟩
  · cases h.symm.trans hnext
  · cases h.symm.trans hnext
    exact Or.inl ⟨hrefused, rfl, rfl⟩
  · cases h.symm.trans hnext
    exact Or.inr ⟨hsized, isOfBody_of_reports hsized hreports, rfl⟩

theorem next_eq_refused_iff :
    next limit b = (.failed (.sizeMismatch (size b) b.length limit), b) ↔ Refused limit b := by
  constructor
  · intro h
    rcases cases_of_next_failed h with ⟨hrefused, -⟩ | ⟨-, hbody, -⟩
    · exact hrefused
    · exact hbody.elim
  · exact next_of_refused

theorem suffix_of_next (h : next limit b = (read, rest)) : rest <:+ b := by
  rcases next_cases limit b with ⟨-, hnext⟩ | ⟨-, hnext⟩ | ⟨-, read, -, hnext⟩
  · cases h.symm.trans hnext
    exact List.suffix_rfl
  · cases h.symm.trans hnext
    exact List.suffix_rfl
  · cases h.symm.trans hnext
    exact List.drop_suffix _ _

theorem length_add_four_le_of_item {item : StreamItem} (h : next limit b = (.item item, rest)) :
    rest.length + 4 ≤ b.length := by
  rcases next_cases limit b with ⟨-, hnext⟩ | ⟨-, hnext⟩ | ⟨hsized, read, -, hnext⟩
  · cases h.symm.trans hnext
  · cases h.symm.trans hnext
  · cases h.symm.trans hnext
    have hmin := hsized.headerSize_le
    have hlen := hsized.le_length
    rw [headerSize] at hmin
    rw [List.length_drop]
    omega

end Next

/-! ## The loop -/

structure Look where
  read : StreamRead
  taken : List UInt8
  left : List UInt8
deriving DecidableEq, Repr

/-- The look at a buffer that gave `read` and left `rest` of it. -/
def Look.of (buffer : List UInt8) (read : StreamRead) (rest : List UInt8) : Look :=
  ⟨read, buffer.take (buffer.length - rest.length), rest⟩

/-- The looks at a buffer up to the first that takes no frame. -/
def looks (limit : Nat) (buffer : List UInt8) : List Look :=
  match h : next limit buffer with
  | (.pending, rest) => [.of buffer .pending rest]
  | (.failed e, rest) => [.of buffer (.failed e) rest]
  | (.item item, rest) =>
    have := length_next_lt h
    .of buffer (.item item) rest :: looks limit rest
termination_by buffer.length

section Looks
variable {limit : Nat} {b rest : List UInt8}

theorem looks_of_pending (h : next limit b = (.pending, rest)) :
    looks limit b = [.of b .pending rest] := by
  rw [looks]
  split
  · next heq => cases h.symm.trans heq; rfl
  · next heq => cases h.symm.trans heq
  · next heq => cases h.symm.trans heq

theorem looks_of_failed {e : DecodeError} (h : next limit b = (.failed e, rest)) :
    looks limit b = [.of b (.failed e) rest] := by
  rw [looks]
  split
  · next heq => cases h.symm.trans heq
  · next heq => cases h.symm.trans heq; rfl
  · next heq => cases h.symm.trans heq

theorem looks_of_item {item : StreamItem} (h : next limit b = (.item item, rest)) :
    looks limit b = .of b (.item item) rest :: looks limit rest := by
  rw [looks]
  split
  · next heq => cases h.symm.trans heq
  · next heq => cases h.symm.trans heq
  · next heq => cases h.symm.trans heq; rfl

theorem Look.taken_append_left {read : StreamRead} (h : next limit b = (read, rest)) :
    (Look.of b read rest).taken ++ rest = b :=
  List.suffix_iff_eq_append.mp (suffix_of_next h)

/-- `look` is one of the looks at a buffer, with `before` and `after` it: all bytes are accounted
for when it comes, it is what a look at the bytes then at hand gives, and it is the last just if it
takes no frame. -/
structure IsLook (limit : Nat) (b : List UInt8) (before : List Look) (look : Look)
    (after : List Look) : Prop where
  accounted : before.flatMap (·.taken) ++ (look.taken ++ look.left) = b
  next_eq : next limit (look.taken ++ look.left) = (look.read, look.left)
  last_iff : after = [] ↔ ∀ item, look.read ≠ .item item

theorem isLook_of_singleton {read : StreamRead} (h : next limit b = (read, rest))
    (hstop : ∀ item, read ≠ .item item) {before after : List Look} {look : Look}
    (hlooks : [Look.of b read rest] = before ++ look :: after) :
    IsLook limit b before look after := by
  cases before with
  | nil =>
      obtain ⟨rfl, rfl⟩ := List.cons.inj hlooks
      have hb := Look.taken_append_left h
      exact ⟨hb, (congrArg (next limit) hb).trans h, iff_of_true rfl hstop⟩
  | cons _ before => simp at hlooks

theorem looks_ne_nil (limit : Nat) (b : List UInt8) : looks limit b ≠ [] := by
  rw [looks]
  split <;> exact List.cons_ne_nil _ _

theorem isLook_of_append : ∀ (b : List UInt8) {before : List Look} {look : Look}
    {after : List Look}, looks limit b = before ++ look :: after →
      IsLook limit b before look after := by
  refine buffer_induction limit ?_ ?_ ?_
  · intro b hnext before look after h
    rw [looks_of_pending hnext] at h
    exact isLook_of_singleton hnext (fun _ => by simp) h
  · intro b e rest hnext before look after h
    rw [looks_of_failed hnext] at h
    exact isLook_of_singleton hnext (fun _ => by simp) h
  · intro b item rest hnext ih before look after h
    have hb := Look.taken_append_left hnext
    rw [looks_of_item hnext] at h
    cases before with
    | nil =>
        obtain ⟨rfl, rfl⟩ := List.cons.inj h
        refine ⟨hb, (congrArg (next limit) hb).trans hnext, ?_⟩
        exact iff_of_false (looks_ne_nil limit rest) fun hstop => hstop item rfl
    | cons first before =>
        obtain ⟨rfl, htail⟩ := List.cons.inj h
        obtain ⟨haccounted, hnext, hlast⟩ := ih htail
        refine ⟨?_, hnext, hlast⟩
        rw [List.flatMap_cons, List.append_assoc, haccounted, hb]

/-- Each frame takes a header off. -/
theorem length_looks_le : ∀ b : List UInt8, (looks limit b).length ≤ b.length / 4 + 1 := by
  refine buffer_induction limit ?_ ?_ ?_
  · intro b hnext
    rw [looks_of_pending hnext]
    exact Nat.le_add_left 1 _
  · intro b e rest hnext
    rw [looks_of_failed hnext]
    exact Nat.le_add_left 1 _
  · intro b item rest hnext ih
    have hlen := length_add_four_le_of_item hnext
    rw [looks_of_item hnext, List.length_cons]
    omega

/-- How the frames of a buffer end, as the last look tells it. -/
def Ending.read : Ending → StreamRead
  | .pending _ => .pending
  | .failed e => .failed e

/-- The looks give the frames of the buffer, one by one, and then how they end. -/
theorem map_read_looks : ∀ b : List UInt8,
    (looks limit b).map (·.read) = (items limit b).1.map .item ++ [(items limit b).2.read] := by
  refine buffer_induction limit ?_ ?_ ?_
  · intro b hnext
    rw [looks_of_pending hnext, items_of_pending hnext]
    rfl
  · intro b e rest hnext
    rw [looks_of_failed hnext, items_of_failed hnext]
    rfl
  · intro b item rest hnext ih
    rw [looks_of_item hnext, items_of_item hnext, List.map_cons, ih]
    rfl

end Looks

/-! ## Looking and decoding -/

/-- Looking at a buffer follows decoding it. -/
structure FollowsDecode (limit : Nat) (b : List UInt8) : Prop where
  /-- It waits for bytes that can still make a frame of what is there, and takes nothing. -/
  pending_iff : ∀ rest, next limit b = (.pending, rest) ↔
    (b.length < 4 ∨ (4 ≤ size b ∧ size b ≤ limit ∧ b.length < size b)) ∧ rest = b
  /-- It refuses a size that no frame has here, and takes nothing. -/
  refused_iff : next limit b = (.failed (.sizeMismatch (size b) b.length limit), b) ↔
    4 ≤ b.length ∧ (size b < 4 ∨ limit < size b)
  /-- Otherwise it takes off as many bytes as are declared, and reports what decoding gives. -/
  otherwise : ¬ Waits limit b → ¬ Refused limit b →
    size b ≤ b.length ∧ ∃ read, StreamRead.Reports (Message.decode limit b) read ∧
      next limit b = (read, b.drop (size b))
  /-- It fails for a size that it refuses, or for the body of the frame that it took off. -/
  failed : ∀ e rest, next limit b = (.failed e, rest) →
    (Refused limit b ∧ e = .sizeMismatch (size b) b.length limit ∧ rest = b) ∨
      (e.IsOfBody ∧ rest = b.drop (size b))
  /-- In a loop no byte is lost or seen twice. -/
  isLook : ∀ before look after, looks limit b = before ++ look :: after →
    IsLook limit b before look after
  length_looks_le : (looks limit b).length ≤ b.length / 4 + 1
  map_read_looks :
    (looks limit b).map (·.read) = (items limit b).1.map .item ++ [(items limit b).2.read]

theorem followsDecode (limit : Nat) (b : List UInt8) : FollowsDecode limit b where
  pending_iff _ := next_eq_pending_iff
  refused_iff := next_eq_refused_iff
  otherwise hwaits hrefused :=
    have hsized := wellSized_of_not hwaits hrefused
    ⟨hsized.le_length, _, reports_itemOf _, next_of_wellSized hsized⟩
  failed _ _ h := (cases_of_next_failed h).imp_right And.right
  isLook _ _ _ h := isLook_of_append b h
  length_looks_le := length_looks_le b
  map_read_looks := map_read_looks b

/-- A frame of no catalog is passed over, and two bytes wait for more. -/
example : looks 4096 [6, 0, 0xff, 0xff, 1, 2, 3, 0] =
    [⟨.item (.unknown 0xffff 6), [6, 0, 0xff, 0xff, 1, 2], [3, 0]⟩, ⟨.pending, [], [3, 0]⟩] := by
  decide +kernel

end Stream
end MarketRelay
