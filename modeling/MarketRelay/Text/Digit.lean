/-!
# Digits

Digits of bases up to sixteen, the numbers they write, and the characters with given numbers.

One table of digits serves all bases: a digit of a base is a digit whose value is below the base.
Letters count in either case.  A row of digits writes a number with the highest digit first;
`number` reads any row, `number?` only one that is not empty and has nothing but digits of its base.

`scalar?` is for escapes that name a character by its number.  A number beyond the last code point,
or one of the surrogates that stand for no character, names none.
-/
namespace MarketRelay.Digit

def value? (c : Char) : Option Nat :=
  if c.isDigit then some (c.toNat - '0'.toNat)
  else if 'a' ≤ c ∧ c ≤ 'f' then some (c.toNat - 'a'.toNat + 10)
  else if 'A' ≤ c ∧ c ≤ 'F' then some (c.toNat - 'A'.toNat + 10)
  else none

def isOf (base : Nat) (c : Char) : Bool := (value? c).any (· < base)

def number (base : Nat) (cs : List Char) : Nat :=
  cs.foldl (fun n c => n * base + (value? c).getD 0) 0

/-- The number that digits of a base write; there must be one, and nothing else. -/
def number? (base : Nat) (cs : List Char) : Option Nat :=
  if cs.isEmpty || !cs.all (isOf base) then none else some (number base cs)

def scalar? (n : Nat) : Option Char :=
  if n < 0xD800 ∨ (0xDFFF < n ∧ n ≤ 0x10FFFF) then some (Char.ofNat n) else none

end MarketRelay.Digit
