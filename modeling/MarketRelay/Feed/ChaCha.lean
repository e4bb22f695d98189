/-!
# The ChaCha generator

A stream of 64-bit words from a seed: the key stream of ChaCha with eight rounds, its key spread
from the seed by a linear congruential generator.

The state is a square of sixteen words, kept as four rows.  A round works on the columns of the
square, which is the same operation on whole rows (`Square.columnRound`).  The next round works on
its diagonals: with three of the rows turned, the diagonals are columns, so it is a column round
between two turns (`Square.doubleRound`).  A block of the stream is the square that it starts from
plus what four such double rounds make of it.

The starting square has four fixed words, the key, the number of the block as two words, and two
words of zero.  A word of the stream is made of two words of a block, the lower half first, and the
stream goes on with the next block when one is used up.

A seed gives the key of eight words by as many steps of the generator that spreads it; of each state
that one shows 32 bits, turned by an amount that the upper bits of the state tell.
-/
namespace MarketRelay.ChaCha

abbrev Row := Vector UInt32 4

structure Square where
  a : Row
  b : Row
  c : Row
  d : Row

def rotateLeft (x : UInt32) (n : UInt32) : UInt32 := x <<< n ||| x >>> (32 - n)

namespace Row

def add (x y : Row) : Row := x.zipWith (· + ·) y

/-- Word by word exclusive or, turned to the left. -/
def mix (x y : Row) (n : UInt32) : Row := x.zipWith (fun u v => rotateLeft (u ^^^ v) n) y

/-- The row that starts `n` words later. -/
def turn (x : Row) (n : Fin 4) : Row := .ofFn fun i => x[i + n]

end Row

namespace Square

/-- Half of a round on the columns. -/
def halfRound (s : Square) (n m : UInt32) : Square :=
  let a := Row.add s.a s.b
  let d := Row.mix s.d a n
  let c := Row.add s.c d
  { a := a, b := Row.mix s.b c m, c := c, d := d }

/-- A round on the columns. -/
def columnRound (s : Square) : Square := (s.halfRound 16 12).halfRound 8 7

/-- The square with its diagonals as columns, or turned on by other numbers of words. -/
def turn (s : Square) (x y z : Fin 4) : Square :=
  { s with b := Row.turn s.b x, c := Row.turn s.c y, d := Row.turn s.d z }

/-- A round on the columns and a round on the diagonals. -/
def doubleRound (s : Square) : Square := ((s.columnRound.turn 1 2 3).columnRound).turn 3 2 1

def add (s t : Square) : Square :=
  ⟨Row.add s.a t.a, Row.add s.b t.b, Row.add s.c t.c, Row.add s.d t.d⟩

def words (s : Square) : Vector UInt32 16 := s.a ++ s.b ++ s.c ++ s.d

end Square

/-! ## Key stream -/

structure Key where
  high : Row
  low : Row

/-- The square from which a block is made: fixed words, the key, and the number of the block. -/
def Key.square (k : Key) (block : UInt64) : Square where
  a := #v[0x61707865, 0x3320646E, 0x79622D32, 0x6B206574]
  b := k.high
  c := k.low
  d := #v[block.toUInt32, (block >>> 32).toUInt32, 0, 0]

def Key.block (k : Key) (block : UInt64) : Vector UInt32 16 :=
  let s := k.square block
  (s.doubleRound.doubleRound.doubleRound.doubleRound.add s).words

/-- Two words of a block as one, the lower half first. -/
def pair (words : Vector UInt32 16) (i : Fin 8) : UInt64 :=
  words[2 * i.val].toUInt64 ||| words[2 * i.val + 1].toUInt64 <<< 32

/-! ## Seeds -/

def spread (s : UInt64) : UInt64 := s * 6364136223846793005 + 11634580027462260723

/-- The word that the spreading generator shows in a state. -/
def shown (s : UInt64) : UInt32 :=
  let x := ((s >>> 18 ^^^ s) >>> 27).toUInt32
  let turn := (s >>> 59).toUInt32
  x >>> turn ||| x <<< (32 - turn)

/-- The state of the spreading generator after `n` steps. -/
def spreadTimes (s : UInt64) : Nat → UInt64
  | 0 => s
  | n + 1 => spread (spreadTimes s n)

/-- The key of a seed. -/
def Key.ofSeed (seed : UInt64) : Key where
  high := .ofFn fun i => shown (spreadTimes seed (i.val + 1))
  low := .ofFn fun i => shown (spreadTimes seed (i.val + 5))

/-! ## The stream -/

structure Stream where
  key : Key
  /-- The number of words drawn so far. -/
  position : Nat

namespace Stream

def ofSeed (seed : UInt64) : Stream := ⟨.ofSeed seed, 0⟩

def next (s : Stream) : UInt64 × Stream :=
  let block := s.key.block (UInt64.ofNat (s.position / 8))
  (pair block ⟨s.position % 8, Nat.mod_lt _ (by decide)⟩, { s with position := s.position + 1 })

end Stream
end MarketRelay.ChaCha
