import Mathlib.Data.List.TakeWhile
import MarketRelay.Text.Utf8

/-!
# Texts and their bytes

The two directions between texts and bytes are inverse to each other: bytes are read as the one text
that has them (`text_eq_ok_iff`).  The texts of the standard library are valid by themselves, so
this is a matter of going through arrays of bytes.

A zero byte in the one is a NUL in the other, since every byte of a longer character has its top bit
set (`ne_zero_of_mem_encodeChar`).  So to stop at the first zero byte is to stop before the first
NUL (`takeWhile_bytes`), whatever characters stand before it.

`Utf8.fit` is what its name says: of all prefixes of whole characters that have room, the longest
(`isLongestFit_fit`).  Both halves, that it has room and that no longer prefix has, are inductions
on the characters.
-/
namespace MarketRelay.Utf8

/-! ## There and back -/

theorem toByteArray_bytes (s : String) : (bytes s).toByteArray = s.toByteArray := by
  rw [bytes, ← List.utf8Encode, ← String.toByteArray_ofList, String.ofList_toList]

theorem length_bytes (s : String) : (bytes s).length = s.utf8ByteSize := by
  rw [← List.size_toByteArray, toByteArray_bytes, String.size_toByteArray]

theorem text_bytes (s : String) : text (bytes s) = .ok s := by
  rw [text, toByteArray_bytes, String.fromUTF8?, dif_pos s.isValidUTF8]
  rfl

theorem bytes_of_text {bs : List UInt8} {s : String} (h : text bs = .ok s) : bytes s = bs := by
  unfold text String.fromUTF8? at h
  by_cases hvalid : bs.toByteArray.IsValidUTF8
  · simp only [dif_pos hvalid, Except.ok.injEq] at h
    refine List.toByteArray_inj.mp ?_
    rw [toByteArray_bytes, ← h]
    rfl
  · simp only [dif_neg hvalid] at h
    exact nomatch h

theorem text_eq_ok_iff {bs : List UInt8} {s : String} : text bs = .ok s ↔ bytes s = bs :=
  ⟨bytes_of_text, fun h => h ▸ text_bytes s⟩

/-! ## Zero bytes -/

def nul : Char := Char.ofNat 0

/-- What of a text stands before its first NUL. -/
def beforeNul (s : String) : String := String.ofList (s.toList.takeWhile (· ≠ nul))

/-- Only the NUL has a zero among its bytes: a lead byte and the bytes behind it have their top bit
set, and a character of one byte is that byte. -/
theorem ne_zero_of_mem_encodeChar {c : Char} (hc : c ≠ nul) :
    ∀ b ∈ String.utf8EncodeChar c, b ≠ 0 := by
  intro b hb hzero
  subst hzero
  have hval : c.val.toNat ≠ 0 := fun h => hc (Char.ext (UInt32.toNat_inj.mp h))
  have hbyte : ∀ n : Nat, 0 = UInt8.ofNat n → n % 256 = 0 := fun n h => by
    simpa using (congrArg UInt8.toNat h).symm
  simp only [String.utf8EncodeChar] at hb
  split at hb
  · have := hbyte _ (List.mem_singleton.mp hb)
    omega
  · split at hb
    · simp only [List.mem_cons, List.not_mem_nil, or_false] at hb
      rcases hb with h | h <;> · have := hbyte _ h; omega
    · split at hb
      · simp only [List.mem_cons, List.not_mem_nil, or_false] at hb
        rcases hb with h | h | h <;> · have := hbyte _ h; omega
      · simp only [List.mem_cons, List.not_mem_nil, or_false] at hb
        rcases hb with h | h | h | h <;> · have := hbyte _ h; omega

theorem takeWhile_flatMap_encodeChar (cs : List Char) :
    (cs.flatMap String.utf8EncodeChar).takeWhile (· ≠ 0)
      = (cs.takeWhile (· ≠ nul)).flatMap String.utf8EncodeChar := by
  induction cs with
  | nil => rfl
  | cons c cs ih =>
      by_cases hc : c = nul
      · subst hc; rfl
      · have hne : ∀ b ∈ String.utf8EncodeChar c, decide (b ≠ 0) = true := fun b hb =>
          decide_eq_true (ne_zero_of_mem_encodeChar hc b hb)
        rw [List.flatMap_cons, List.takeWhile_append_of_pos hne, ih,
          List.takeWhile_cons_of_pos (by simpa using hc), List.flatMap_cons]

/-- The bytes before the first zero are those of the text before its first NUL. -/
theorem takeWhile_bytes (s : String) : (bytes s).takeWhile (· ≠ 0) = bytes (beforeNul s) := by
  rw [bytes, takeWhile_flatMap_encodeChar, beforeNul, bytes, String.toList_ofList]

theorem nul_notMem_beforeNul (s : String) : nul ∉ (beforeNul s).toList := by
  rw [beforeNul, String.toList_ofList]
  intro h
  simpa using List.mem_takeWhile_imp h

theorem beforeNul_eq_self {s : String} (h : nul ∉ s.toList) : beforeNul s = s := by
  rw [beforeNul, List.takeWhile_eq_self_iff.mpr, String.ofList_toList]
  intro c hc
  exact decide_eq_true fun hnul => h (hnul ▸ hc)

theorem ne_zero_of_mem_bytes {s : String} (h : nul ∉ s.toList) : ∀ b ∈ bytes s, b ≠ 0 := by
  intro b hb
  rw [← beforeNul_eq_self h, ← takeWhile_bytes] at hb
  simpa using List.mem_takeWhile_imp hb

theorem zero_mem_bytes {s : String} (h : nul ∈ s.toList) : 0 ∈ bytes s :=
  List.mem_flatMap.mpr ⟨nul, h, List.mem_cons_self⟩

/-! ## The longest prefix that fits -/

/-- `p` is the longest prefix of `s`, in whole characters, that takes at most `room` bytes. -/
structure IsLongestFit (room : Nat) (s p : String) : Prop where
  prefix_toList : p.toList <+: s.toList
  size_le : p.utf8ByteSize ≤ room
  longest : ∀ q : String, q.toList <+: s.toList → q.utf8ByteSize ≤ room → q.toList <+: p.toList

def sizeOfChars (cs : List Char) : Nat := (cs.flatMap String.utf8EncodeChar).length

@[simp] theorem sizeOfChars_cons (c : Char) (cs : List Char) :
    sizeOfChars (c :: cs) = c.utf8Size + sizeOfChars cs := by
  rw [sizeOfChars, List.flatMap_cons, List.length_append, String.length_utf8EncodeChar, sizeOfChars]

theorem utf8ByteSize_eq_sizeOfChars (s : String) : s.utf8ByteSize = sizeOfChars s.toList := by
  rw [← length_bytes, bytes, sizeOfChars]

theorem fitChars_prefix (cs : List Char) : ∀ room : Nat, fitChars room cs <+: cs := by
  induction cs with
  | nil => exact fun _ => List.nil_prefix
  | cons c cs ih =>
      intro room
      unfold fitChars
      split
      · exact (List.prefix_cons_inj c).mpr (ih _)
      · exact List.nil_prefix

theorem sizeOfChars_fitChars_le (cs : List Char) :
    ∀ room : Nat, sizeOfChars (fitChars room cs) ≤ room := by
  induction cs with
  | nil => intro room; exact Nat.zero_le room
  | cons c cs ih =>
      intro room
      unfold fitChars
      split
      · next hroom =>
          have := ih (room - c.utf8Size)
          rw [sizeOfChars_cons]
          omega
      · exact Nat.zero_le room

theorem prefix_fitChars (cs : List Char) : ∀ (room : Nat) (qs : List Char), qs <+: cs →
    sizeOfChars qs ≤ room → qs <+: fitChars room cs := by
  induction cs with
  | nil => intro _ qs hq _; exact List.prefix_nil.mp hq ▸ List.nil_prefix
  | cons c cs ih =>
      intro room qs hq hsize
      cases qs with
      | nil => exact List.nil_prefix
      | cons q qs =>
          obtain ⟨rfl, htail⟩ := List.cons_prefix_cons.mp hq
          rw [sizeOfChars_cons] at hsize
          rw [fitChars, if_pos (by omega)]
          exact (List.prefix_cons_inj q).mpr (ih _ qs htail (by omega))

theorem sizeOfChars_le_of_prefix {cs ds : List Char} (h : cs <+: ds) :
    sizeOfChars cs ≤ sizeOfChars ds := by
  obtain ⟨rest, rfl⟩ := h
  rw [sizeOfChars, sizeOfChars, List.flatMap_append, List.length_append]
  exact Nat.le_add_right _ _

theorem utf8ByteSize_beforeNul_le (s : String) : (beforeNul s).utf8ByteSize ≤ s.utf8ByteSize := by
  rw [utf8ByteSize_eq_sizeOfChars, utf8ByteSize_eq_sizeOfChars, beforeNul, String.toList_ofList]
  exact sizeOfChars_le_of_prefix (List.takeWhile_prefix _)

theorem isLongestFit_fit (room : Nat) (s : String) : IsLongestFit room s (fit room s) where
  prefix_toList := by
    rw [fit, String.toList_ofList]
    exact fitChars_prefix s.toList room
  size_le := by
    rw [utf8ByteSize_eq_sizeOfChars, fit, String.toList_ofList]
    exact sizeOfChars_fitChars_le s.toList room
  longest := by
    intro q hq hsize
    rw [fit, String.toList_ofList]
    exact prefix_fitChars s.toList room q.toList hq (utf8ByteSize_eq_sizeOfChars q ▸ hsize)

theorem fit_eq_self {room : Nat} {s : String} (h : s.utf8ByteSize ≤ room) : fit room s = s := by
  have hfit := isLongestFit_fit room s
  have hle : s.toList <+: (fit room s).toList := hfit.longest s List.prefix_rfl h
  exact String.toList_inj.mp (hfit.prefix_toList.eq_of_length_le hle.length_le)

theorem beforeNul_fit_eq_empty_iff {room : Nat} (hroom : 4 ≤ room) {s : String} :
    beforeNul (fit room s) = "" ↔ s = "" ∨ s.toList.head? = some nul := by
  have hempty : ∀ t : String, t = "" ↔ t.toList = [] := fun t => by
    rw [← String.toList_inj, String.toList_empty]
  rw [hempty, hempty, beforeNul, fit, String.toList_ofList, String.toList_ofList]
  cases s.toList with
  | nil => simp [fitChars]
  | cons c cs =>
      have hc : c.utf8Size ≤ room := Nat.le_trans c.utf8Size_le_four hroom
      rw [fitChars, if_pos hc]
      by_cases hnul : c = nul
      · simp [hnul]
      · simp [hnul]

end MarketRelay.Utf8
