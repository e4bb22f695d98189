import MarketRelay.Number.Binary64

/-!
# The nearest binary64 number

A positive ratio rounded to the nearest binary64 number, a tie to the even significand.

The ratio is a pair of natural numbers and all arithmetic on it is exact, so there is just one
rounding.  First the unit is found in which the significand counts (`unitExponent`): for a normal
number the significand has 53 bits then, and no unit is smaller than the step between the smallest
numbers, which is where subnormal numbers come from.  Then the ratio is divided by that unit and
rounded to an integer, which may reach the next power of two; the bits come out right in this case,
too, since the significand then carries over into the exponent.

A decimal number is such a ratio, and so is an integer.
-/
namespace MarketRelay.Binary64

/-- The quotient rounded to the nearest integer, a tie to the even one. -/
def divRound (num den : Nat) : Nat :=
  let q := num / den
  let r := num % den
  if 2 * r < den then q else if den < 2 * r then q + 1 else q + q % 2

def overPowTwo (num den : Nat) (e : Int) : Nat × Nat :=
  if 0 ≤ e then (num, den <<< e.toNat) else (num <<< (-e).toNat, den)

/-- The power of two of which the significand of `num / den` counts multiples: 53 bits of a normal
number, and never less than the step between the smallest ones. -/
def unitExponent (num den : Nat) : Int :=
  let guess : Int := (num.log2 : Int) - (den.log2 : Int) - 52
  let (n, d) := overPowTwo num den guess
  let exact := if n < d * hiddenBit then guess - 1 else guess
  max exact (-1074)

/-- The nearest number to a positive ratio; one too large becomes infinity. -/
def ofRatio (num den : Nat) : Binary64 :=
  if num = 0 then zero
  else
    let e := unitExponent num den
    let (n, d) := overPowTwo num den e
    let bits := (e + 1074).toNat * hiddenBit + divRound n d
    if infinityBits.toNat ≤ bits then ⟨infinityBits⟩ else ⟨UInt64.ofNat bits⟩

def ofDecimal (digits : Nat) (exponent : Int) : Binary64 :=
  if 0 ≤ exponent then ofRatio (digits * Nat.pow 10 exponent.toNat) 1
  else ofRatio digits (Nat.pow 10 (-exponent).toNat)

def neg (x : Binary64) : Binary64 := ⟨x.bits ^^^ 0x8000000000000000⟩

def ofInt (n : Int) : Binary64 :=
  if n < 0 then (ofRatio n.natAbs 1).neg else ofRatio n.natAbs 1

end MarketRelay.Binary64
