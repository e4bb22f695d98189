/-!
# Binary64

A 64-bit IEEE 754 number kept as its bit pattern, so that two numbers are equal exactly when their
bits are: a price is carried and compared unchanged, NaN and the sign of zero included.

What has to be known of a number is read off its bits.  Without the sign bit they are an integer
that orders the magnitudes: below the bits of infinity all numbers are finite, above them there is
only NaN.  So `isFinite`, `isNaN` and `isNegative` are comparisons of integers, and proofs about
them need no arithmetic of floats.

Where arithmetic is needed, in the simulated market, it goes through the machine's `Float`.
-/
namespace MarketRelay

structure Binary64 where
  bits : UInt64
deriving DecidableEq, Repr, Inhabited

namespace Binary64

def zero : Binary64 := ⟨0⟩

def magnitude (x : Binary64) : UInt64 := x.bits &&& 0x7FFFFFFFFFFFFFFF

/-- The bits of positive infinity: every magnitude below is finite, every one above is NaN. -/
def infinityBits : UInt64 := 0x7FF0000000000000

/-- The bit of a normal number's significand that is not stored, above the 52 that are. -/
def hiddenBit : Nat := 0x10000000000000

/-- Neither an infinity nor NaN. -/
def isFinite (x : Binary64) : Bool := x.magnitude < infinityBits

def isNaN (x : Binary64) : Bool := infinityBits < x.magnitude

def signBit (x : Binary64) : Bool := x.bits ≥ 0x8000000000000000

/-- Less than zero: negative zero is not. -/
def isNegative (x : Binary64) : Bool := x.signBit && !x.isNaN && x.magnitude != 0

/-- A value a market can quote: finite and at least zero. -/
def isAmount (x : Binary64) : Bool := x.isFinite && !x.isNegative

def toFloat (x : Binary64) : Float := Float.ofBits x.bits

def ofFloat (x : Float) : Binary64 := ⟨x.toBits⟩

end Binary64
end MarketRelay
