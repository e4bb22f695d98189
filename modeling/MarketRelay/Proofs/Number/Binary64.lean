import MarketRelay.Decimal.Shortest

/-!
# The numbers that a market can quote

Every finite number is a whole multiple of the smallest positive one.  What `isAmount` finds in the
bits of a number is that it has such a multiple and that this is not negative: negative zero passes,
and infinities and NaN do not (`isAmount_iff`).

The model looks at bits, as it has to where a number is told apart from others that compare equal to
it; this module says what the bits mean.  `units?` is a number as an integer, so being finite and at
least zero is a statement about integers (`IsQuotable`), in which no rule of floating point occurs.
Between the two stand the exponent, whose bits are all set just for what is not finite
(`isFinite_iff`), and the size, which is zero just for the two zeros (`size_eq_zero_iff`).
-/
namespace MarketRelay.Binary64

variable {x : Binary64}

def size (x : Binary64) : Nat := x.decompose.1 <<< (x.decompose.2 + 1074).toNat

/-- A number as a multiple of the smallest positive one.  An infinity or NaN, whose exponent has all
its bits set, is none. -/
def units? (x : Binary64) : Option Int :=
  if x.magnitude.toNat / hiddenBit = 2047 then none
  else some (if x.signBit then -Int.ofNat x.size else Int.ofNat x.size)

/-- The number is finite and at least zero. -/
def IsQuotable (x : Binary64) : Prop := ∃ n : Nat, x.units? = some (Int.ofNat n)

instance : DecidablePred IsQuotable := fun x =>
  match h : x.units? with
  | some (.ofNat n) => isTrue ⟨n, h⟩
  | some (.negSucc _) => isFalse fun ⟨_, hn⟩ => nomatch Option.some.inj (h.symm.trans hn)
  | none => isFalse fun ⟨_, hn⟩ => nomatch h.symm.trans hn

theorem toNat_magnitude_lt (x : Binary64) : x.magnitude.toNat < 2048 * hiddenBit := by
  rw [magnitude, UInt64.toNat_and]
  exact Nat.lt_of_le_of_lt Nat.and_le_right (by decide)

theorem isFinite_iff : x.isFinite = true ↔ x.magnitude.toNat / hiddenBit ≠ 2047 := by
  have hlt := x.toNat_magnitude_lt
  rw [isFinite, decide_eq_true_iff, UInt64.lt_iff_toNat_lt]
  change x.magnitude.toNat < 2047 * hiddenBit ↔ _
  simp only [hiddenBit] at hlt ⊢
  omega

theorem not_isNaN_of_isFinite (h : x.isFinite = true) : x.isNaN = false := by
  rw [isFinite, decide_eq_true_iff] at h
  rw [isNaN, decide_eq_false_iff_not]
  exact UInt64.not_lt.mpr (UInt64.le_of_lt h)

/-- Only zero, with either sign, has no size. -/
theorem size_eq_zero_iff : x.size = 0 ↔ x.magnitude = 0 := by
  rw [size, Nat.shiftLeft_eq_zero_iff, ← UInt64.toNat_inj, UInt64.toNat_zero]
  unfold decompose
  by_cases hexponent : x.magnitude.toNat / hiddenBit = 0
  · simp only [hexponent, if_true]
    simp only [hiddenBit] at hexponent ⊢
    omega
  · simp only [hexponent, if_false]
    simp only [hiddenBit] at hexponent ⊢
    omega

theorem isAmount_iff : x.isAmount = true ↔ x.IsQuotable := by
  rw [isAmount, Bool.and_eq_true, Bool.not_eq_true', IsQuotable, units?]
  by_cases hfinite : x.isFinite = true
  · rw [isNegative, not_isNaN_of_isFinite hfinite, if_neg (isFinite_iff.mp hfinite)]
    simp only [hfinite, true_and, Option.some.injEq]
    cases hsign : x.signBit with
    | false => exact iff_of_true rfl ⟨x.size, rfl⟩
    | true =>
        simp only [Bool.not_false, Bool.and_true, Bool.true_and, bne_eq_false_iff_eq, if_true,
          ← size_eq_zero_iff, Int.ofNat_eq_natCast]
        constructor
        · intro hzero
          exact ⟨0, by omega⟩
        · rintro ⟨n, hn⟩
          omega
  · rw [if_pos (Decidable.not_not.mp (mt isFinite_iff.mpr hfinite))]
    exact iff_of_false (fun h => hfinite h.1) fun ⟨_, hn⟩ => nomatch hn

/-- Negative zero is quoted as zero is, and the negative number nearest to it is not. -/
example : isAmount ⟨0x8000000000000000⟩ = true ∧ isAmount ⟨0x8000000000000001⟩ = false := by decide

end MarketRelay.Binary64
