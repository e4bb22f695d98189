import MarketRelay.Data.Value
import MarketRelay.Text.Digit

/-!
# Plain values of TOML

What stands in a TOML text without quotes or brackets: truth values, integers, floating-point
numbers, and dates and times.

* Underscores may stand between two digits, and nowhere else.
* Integers have 64 bits.  Those of base ten may have a sign; those of base two, eight and sixteen
  stand behind a mark and have none.
* A decimal number has no superfluous zero at its head.
* A float is the nearest one to what is written.  It is refused if it is too large; the words for
  infinity and for what is no number are another matter.
* Of dates and times only the form is looked at, with the days of the month and leap years: no
  setting is a date, so that all of them read as the one value `Data.date`.

Whoever calls has cut the text out already, so the functions here see just the value, and all of
it.
-/
namespace MarketRelay.Toml

/-! ## Numbers -/

def digits? (base : Nat) (cs : List Char) : Option (List Char) :=
  let groups := cs.splitOnP (· == '_')
  if groups.all fun g => !g.isEmpty && g.all (Digit.isOf base) then some groups.flatten else none

def splitSign : List Char → Bool × List Char
  | '-' :: cs => (true, cs)
  | '+' :: cs => (false, cs)
  | cs => (false, cs)

/-- Decimal digits without a superfluous zero at their head. -/
def decimal? (cs : List Char) : Option (List Char) := do
  let ds ← digits? 10 cs
  if ds.head? == some '0' && cs.length ≠ 1 then none else some ds

def fitting? (n : Int) : Option Data :=
  if Int64.minValue.toInt ≤ n ∧ n ≤ Int64.maxValue.toInt then some (.int n) else none

/-- An integer: in base ten with or without a sign, in the other bases behind their mark. -/
def int? : List Char → Option Data
  | '0' :: 'x' :: cs => do fitting? (Digit.number 16 (← digits? 16 cs))
  | '0' :: 'o' :: cs => do fitting? (Digit.number 8 (← digits? 8 cs))
  | '0' :: 'b' :: cs => do fitting? (Digit.number 2 (← digits? 2 cs))
  | cs => do
    let (negative, body) := splitSign cs
    let n : Int := Digit.number 10 (← decimal? body)
    fitting? (if negative then -n else n)

/-- A word that stands for no finite number. -/
def special? (cs : List Char) : Option Binary64 :=
  let (negative, body) := splitSign cs
  let signed := fun (x : Binary64) => if negative then x.neg else x
  if body = ['i', 'n', 'f'] then some (signed ⟨Binary64.infinityBits⟩)
  else if body = ['n', 'a', 'n'] then some (signed ⟨0x7FF8000000000000⟩)
  else none

def exponent? (cs : List Char) : Option Int := do
  let (negative, body) := splitSign cs
  let n : Int := Digit.number 10 (← digits? 10 body)
  return if negative then -n else n

/-- The number `± digits * 10 ^ exponent`.  Beyond the bound every number of digits at hand is zero
or infinite. -/
def scaled (negative : Bool) (digits : List Char) (exponent : Int) : Binary64 :=
  let n := Digit.number 10 digits
  let bound : Int := 400 + digits.length
  let x : Binary64 :=
    if n = 0 || exponent < -bound then .zero
    else if bound < exponent then ⟨Binary64.infinityBits⟩
    else .ofDecimal n exponent
  if negative then x.neg else x

/-- A number with a fraction, an exponent or both; one too large is refused. -/
def float? (cs : List Char) : Option Data := do
  let (negative, body) := splitSign cs
  let isMark := fun c => c == 'e' || c == 'E'
  let mantissa := body.takeWhile (!isMark ·)
  let exponent ← match body.dropWhile (!isMark ·) with
    | [] => some 0
    | _ :: e => exponent? e
  let whole ← decimal? (mantissa.takeWhile (· != '.'))
  let fraction ← match mantissa.dropWhile (· != '.') with
    | [] => if mantissa.length = body.length then none else some []
    | _ :: f => digits? 10 f
  let x := scaled negative (whole ++ fraction) (exponent - fraction.length)
  if x = ⟨Binary64.infinityBits⟩ then none else some (.real x)

/-! ## Dates and times -/

/-- Exactly `count` decimal digits between two bounds. -/
def field? (count low high : Nat) (cs : List Char) : Option Nat :=
  if cs.length = count && cs.all Char.isDigit then
    let n := Digit.number 10 cs
    if low ≤ n && n ≤ high then some n else none
  else none

def daysOf (year month : Nat) : Nat :=
  if month = 2 then
    if year % 4 = 0 && (year % 100 ≠ 0 || year % 400 = 0) then 29 else 28
  else if month = 4 || month = 6 || month = 9 || month = 11 then 30
  else 31

def isDate (cs : List Char) : Bool :=
  match cs.splitOnP (· == '-') with
  | [y, m, d] =>
    match field? 4 0 9999 y, field? 2 1 12 m with
    | some year, some month => (field? 2 1 (daysOf year month) d).isSome
    | _, _ => false
  | _ => false

def isTime (cs : List Char) : Bool :=
  let fractionOk := match cs.drop 8 with
    | [] => true
    | '.' :: f => !f.isEmpty && f.all Char.isDigit
    | _ => false
  match (cs.take 8).splitOnP (· == ':') with
  | [h, m, s] =>
    fractionOk && (field? 2 0 23 h).isSome && (field? 2 0 59 m).isSome && (field? 2 0 60 s).isSome
  | _ => false

/-- A distance from universal time: none, or hours and minutes. -/
def isOffset : List Char → Bool
  | ['Z'] | ['z'] => true
  | sign :: cs =>
    match cs.splitOnP (· == ':') with
    | [h, m] =>
      (sign == '+' || sign == '-') && (field? 2 0 23 h).isSome && (field? 2 0 59 m).isSome
    | _ => false
  | [] => false

/-- A time of day with or without a distance from universal time. -/
def isTimeWithOffset (cs : List Char) : Bool :=
  let inTime := fun c => c.isDigit || c == ':' || c == '.'
  let offset := cs.dropWhile inTime
  isTime (cs.takeWhile inTime) && (offset.isEmpty || isOffset offset)

/-- A date, a time of day, or a date and a time of day with the letter between them. -/
def isMoment (cs : List Char) : Bool :=
  isDate cs || isTime cs ||
    match cs.drop 10 with
    | c :: time => (c == 'T' || c == 't') && isDate (cs.take 10) && isTimeWithOffset time
    | [] => false

/-! ## All of them -/

def scalar? (cs : List Char) : Option Data :=
  if cs = ['t', 'r', 'u', 'e'] then some (.bool true)
  else if cs = ['f', 'a', 'l', 's', 'e'] then some (.bool false)
  else if isMoment cs then some .date
  else (int? cs).or ((float? cs).or ((special? cs).map .real))

end MarketRelay.Toml
