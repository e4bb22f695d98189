/-!
# Comparing machine floats

Floats that are numbers are in some order: if one is not less than another, it is not smaller than
that (`le_of_not_lt`).  Only what is no number is in no order with anything.

A comparison of floats is one of their unpacked forms, where it has an answer unless one side is no
number (`isSome_compare`), and the other way round it has the answer the other way round
(`swap_compare`).  Both are case splits on the forms; nothing is said about how floats round.
-/
namespace MarketRelay.FloatOrder

open Float.Model

/-! ## Unpacked floats -/

theorem swap_compare (x y : UnpackedFloat) : (x.compare y).map Ordering.swap = y.compare x := by
  cases x with
  | notANumber => cases y <;> rfl
  | infinity s | zero s =>
      cases y with
      | notANumber => cases s <;> rfl
      | infinity t | zero t | finite t => cases s <;> cases t <;> rfl
  | finite s m e =>
      cases y with
      | notANumber => cases s <;> rfl
      | infinity t | zero t => cases s <;> cases t <;> rfl
      | finite t m' e' =>
          have hmagnitudes : ((compare e e').then (compare m m')).swap =
              (compare e' e).then (compare m' m) := by
            rw [Ordering.swap_then, Int.compare_swap, Nat.compare_swap]
          cases s with
          | positive =>
              cases t with
              | positive => exact congrArg some hmagnitudes
              | negative => rfl
          | negative =>
              cases t with
              | positive => rfl
              | negative => exact congrArg (fun o => some o.swap) hmagnitudes

theorem isSome_compare {x y : UnpackedFloat} (hx : x.isNaN = false) (hy : y.isNaN = false) :
    (x.compare y).isSome = true := by
  cases x with
  | notANumber => cases hx
  | infinity s | zero s | finite s =>
      cases y with
      | notANumber => cases hy
      | infinity t | zero t | finite t => cases s <;> cases t <;> rfl

/-! ## Floats -/

variable {x y : Float}

theorem lt_iff_compare : x < y ↔ x.toModel.unpack.compare y.toModel.unpack = some .lt := by
  show decide (x.toModel < y.toModel) = true ↔ _
  rw [decide_eq_true_iff]
  show (x.toModel.unpack.compare y.toModel.unpack == some .lt) = true ↔ _
  exact beq_iff_eq

theorem le_iff_compare :
    x ≤ y ↔ (x.toModel.unpack.compare y.toModel.unpack).any Ordering.isLE = true := by
  show decide (x.toModel ≤ y.toModel) = true ↔ _
  rw [decide_eq_true_iff]
  rfl

theorem le_of_not_lt (hx : x.isNaN = false) (hy : y.isNaN = false) (h : ¬ x < y) : y ≤ x := by
  obtain ⟨o, ho⟩ := Option.isSome_iff_exists.mp (isSome_compare hx hy)
  rw [lt_iff_compare, ho] at h
  rw [le_iff_compare, ← swap_compare, ho]
  cases o with
  | lt => exact absurd rfl h
  | eq | gt => rfl

end MarketRelay.FloatOrder
