import MarketRelay.Number.Binary64

/-!
# The shortest decimal text of a binary64 number

Every binary64 number stands for an interval of reals, those that round to it.  The ends belong to
the interval if the significand is even, since ties go there, and below a power of two the interval
is only half as wide as above it.

The shortest decimal form of a number is a point of its interval with as few digits as possible, and
of two such points the nearer one, the upper one on a tie.  The search for it runs over grids of
decimal numbers, from one digit on.  If a grid meets the interval at all, it does so in one of the
two neighbours of the number, so that two points are looked at for each grid; with seventeen digits
one of them is always a hit.

The text of a number in messages is this form written out in full, without exponent.  Zero has its
sign there, and there are words for what is infinite or no number.
-/
namespace MarketRelay.Decimal

/-! ## The interval of a number -/

structure Interval where
  low : Nat
  value : Nat
  high : Nat
  den : Nat
  /-- The ends round to the number as well. -/
  closed : Bool

def Interval.of (m : Nat) (q : Int) (powerOfTwo : Bool) : Interval :=
  let up := 1 <<< (q - 2).toNat
  let below := if powerOfTwo then 1 else 2
  { low := (4 * m - below) * up
    value := 4 * m * up
    high := (4 * m + 2) * up
    den := 1 <<< (2 - q).toNat
    closed := m % 2 == 0 }

def Interval.contains (i : Interval) (num den : Nat) : Bool :=
  let point := num * i.den
  let low := i.low * den
  let high := i.high * den
  if i.closed then low ≤ point && point ≤ high else low < point && point < high

/-! ## Decimal grids -/

structure Digits where
  digits : Nat
  exponent : Int
deriving DecidableEq, Repr

def powerOfTen (e : Int) : Nat × Nat := (Nat.pow 10 e.toNat, Nat.pow 10 (-e).toNat)

/-- The exponent of the first decimal digit of `num / den`. -/
def leadingExponent (num den : Nat) : Int :=
  let top := (((num.log2 : Int) - (den.log2 : Int) + 1) * 30103).fdiv 100000 + 1
  let reaches := fun e =>
    let (n, d) := powerOfTen e
    decide (n * den ≤ num * d)
  (([top, top - 1, top - 2].find? reaches).getD (top - 3))

/-- The point of the grid of multiples of `10 ^ e` that the interval holds, if it holds one: the
nearer one of the number's two neighbours, the upper one on a tie. -/
def Interval.onGrid? (i : Interval) (e : Int) : Option Nat :=
  let (n, d) := powerOfTen e
  let lower := i.value * d / (i.den * n)
  let down := i.contains (lower * n) d
  let up := i.contains ((lower + 1) * n) d
  let upperNearer := decide (i.den * n ≤ 2 * (i.value * d % (i.den * n)))
  if up && (!down || upperNearer) then some (lower + 1) else if down then some lower else none

/-- The first hit from `e` downwards on grids that get finer one digit at a time. -/
def Interval.search (i : Interval) (e : Int) : (tries : Nat) → Digits
  | 0 => ⟨0, 0⟩
  | tries + 1 =>
    match i.onGrid? e with
    | some digits => ⟨digits, e⟩
    | none => i.search (e - 1) tries

/-- The shortest decimal form of a number: seventeen digits always suffice. -/
def Interval.shortest (i : Interval) : Digits :=
  i.search (leadingExponent i.value i.den) 17

/-! ## Text -/

/-- The digits without the zeros at their end, whose number goes to the exponent. -/
def Digits.trim (x : Digits) : Digits :=
  let text := (Nat.toDigits 10 x.digits).reverse
  let zeros := (text.takeWhile (· == '0')).length
  if x.digits = 0 then ⟨0, 0⟩ else ⟨x.digits / Nat.pow 10 zeros, x.exponent + zeros⟩

/-- A number written out in full, without exponent and with no more zeros than its place needs. -/
def Digits.positional (x : Digits) : String :=
  let x := x.trim
  let text := Nat.toDigits 10 x.digits
  let places := (-x.exponent).toNat
  if places = 0 then String.ofList (text ++ List.replicate x.exponent.toNat '0')
  else
    let text := List.replicate (places + 1 - text.length) '0' ++ text
    let whole := text.take (text.length - places)
    String.ofList (whole ++ '.' :: text.drop (text.length - places))

end Decimal

namespace Binary64

/-- The significand and the exponent of the last bit of a finite number's magnitude. -/
def decompose (x : Binary64) : Nat × Int :=
  let fraction : Nat := x.magnitude.toNat % hiddenBit
  let biased : Nat := x.magnitude.toNat / hiddenBit
  if biased = 0 then (fraction, -1074) else (fraction + hiddenBit, Int.ofNat biased - 1075)

def shortest (x : Binary64) : Decimal.Digits :=
  let (m, q) := x.decompose
  if m = 0 then ⟨0, 0⟩
  else (Decimal.Interval.of m q (m == hiddenBit && q != -1074)).shortest

/-- The text of a number in messages: the shortest form written out in full, zero with its sign,
and words for what is no number. -/
def text (x : Binary64) : String :=
  let sign := if x.signBit then "-" else ""
  if x.isNaN then "NaN"
  else if x.isFinite then sign ++ x.shortest.positional
  else sign ++ "inf"

end Binary64
end MarketRelay
