import MarketRelay.Data.Value
import MarketRelay.Text.Digit
import MarketRelay.Text.Rest

/-!
# Reading JSON

The data that a JSON text writes.

* A number without fraction and exponent is an integer as long as it fits 64 bits, signed below zero
  and unsigned above.  Minus zero and all other numbers are floats.
* The digits of a float that fit 64 bits are made one, which is scaled by a power of ten afterwards.
  Both steps round, so that a number of many digits need not come out as the nearest float; a
  number of few digits does.  One that is too large for a float is refused.
* Of members with one name the last one stands.
* An escape may name one half of a pair of surrogates, and then the other half has to follow.

The text is a list of characters.  Each function that takes something off its front returns what is
left as a `Rest`, which is known to be shorter, and this is what the mutual recursion over values,
items and members comes to an end by.
-/
namespace MarketRelay.Json

/-! ## Blanks, words and numbers -/

def isBlank (c : Char) : Bool := c = ' ' || c = '\t' || c = '\n' || c = '\r'

def isWordChar (c : Char) : Bool := c.isAlphanum || c = '+' || c = '-' || c = '.'

/-- A number before its range is looked at: sign, digits of the integer part, digits of the
fraction if there is one, exponent if there is one. -/
structure Numeral where
  negative : Bool
  whole : List Char
  fraction : Option (List Char)
  exponent : Option Int

def signed? : List Char → Option Int
  | '-' :: ds => (Digit.number? 10 ds).map fun n => -(n : Int)
  | '+' :: ds => (Digit.number? 10 ds).map Int.ofNat
  | ds => (Digit.number? 10 ds).map Int.ofNat

/-- The parts of a numeral.  The integer part has no superfluous zero, and no part is empty. -/
def numeral? (cs : List Char) : Option Numeral :=
  let (negative, cs) := match cs with
    | '-' :: rest => (true, rest)
    | _ => (false, cs)
  let whole := cs.takeWhile Char.isDigit
  let rest := cs.dropWhile Char.isDigit
  if whole.isEmpty || (whole.head? == some '0' && whole.length ≠ 1) then none
  else
    let fraction := match rest with
      | '.' :: r => some (r.takeWhile Char.isDigit)
      | _ => none
    let rest := match rest with
      | '.' :: r => r.dropWhile Char.isDigit
      | _ => rest
    if fraction.any List.isEmpty then none
    else
      match rest with
      | [] => some ⟨negative, whole, fraction, none⟩
      | e :: r =>
        if e = 'e' || e = 'E' then (signed? r).map fun x => ⟨negative, whole, fraction, some x⟩
        else none

/-- Digits put behind a number as long as it fits 64 bits, and the digits that are left. -/
def takeFitting (n : Nat) : List Char → Nat × List Char
  | [] => (n, [])
  | c :: cs =>
    let n' := n * 10 + Digit.number 10 [c]
    if n' < UInt64.size then takeFitting n' cs else (n, c :: cs)

def powerOfTen (n : Nat) : Float := (Binary64.ofDecimal 1 n).toFloat

/-- The largest power of ten that is finite. -/
def maxPower : Nat := 308

/-- The number `x * 10 ^ e` for an `e` of at least zero; one too large is refused. -/
def scaleUp? (x : Float) (e : Nat) : Option Float :=
  if e ≤ maxPower then
    let y := x * powerOfTen e
    if y.isInf then none else some y
  else if x == 0 then some x
  else none

/-- The number `x / 10 ^ e` for an `x` of at most 64 bits.  A power that is not finite is divided by
in two steps, and beyond those nothing is left. -/
def scaleDown (x : Float) (e : Nat) : Float :=
  if e ≤ maxPower then x / powerOfTen e
  else if e ≤ 2 * maxPower then x / powerOfTen maxPower / powerOfTen (e - maxPower)
  else 0

/-- The number `x * 10 ^ e`, by one multiplication or division where the power is finite. -/
def scale? (x : Float) (e : Int) : Option Float :=
  if 0 ≤ e then scaleUp? x e.toNat else some (scaleDown x (-e).toNat)

/-- The number that a numeral writes; one too large is refused.  The digits that fit 64 bits make a
float, and its scaling rounds once more: a number of few digits is the nearest one. -/
def Numeral.real? (n : Numeral) : Option Binary64 := do
  let (whole, dropped) := takeFitting 0 n.whole
  let fraction := n.fraction.getD []
  let (digits, unread) := takeFitting whole fraction
  let point : Int := (dropped.length : Int) - (fraction.length - unread.length : Nat)
  let x ← scale? (Binary64.ofInt digits).toFloat (n.exponent.getD 0 + point)
  return if n.negative then (Binary64.ofFloat x).neg else .ofFloat x

/-- The value of a numeral: an integer if it is written as one and fits 64 bits, signed below zero
and unsigned above; minus zero is a number of its own. -/
def Numeral.data? (n : Numeral) : Option Data :=
  let value := Digit.number 10 n.whole
  let isInt := n.fraction.isNone && n.exponent.isNone
  if isInt && !n.negative && value < UInt64.size then some (.int value)
  else if isInt && n.negative && value ≠ 0 && 2 * value ≤ UInt64.size then
    some (.int (-(value : Int)))
  else n.real?.map .real

def atom? (cs : List Char) : Option Data :=
  match String.ofList cs with
  | "null" => some .null
  | "true" => some (.bool true)
  | "false" => some (.bool false)
  | _ => (numeral? cs).bind Numeral.data?

/-! ## Strings -/

/-- The text up to the closing quote, escapes left as they are, and what follows the quote. -/
def spanQuoted (acc : List Char) : List Char → Option (List Char × List Char)
  | [] => none
  | '"' :: rest => some (acc.reverse, rest)
  | '\\' :: c :: rest => spanQuoted (c :: '\\' :: acc) rest
  | c :: rest => if c.toNat < 0x20 then none else spanQuoted (c :: acc) rest

theorem length_of_spanQuoted {acc cs raw rest : List Char}
    (h : spanQuoted acc cs = some (raw, rest)) : rest.length < cs.length := by
  fun_induction spanQuoted acc cs with
  | case1 => simp at h
  | case2 => simp_all
  | case3 acc c r ih => have := ih h; simp only [List.length_cons]; omega
  | case4 => simp at h
  | case5 acc c r _ _ _ ih => have := ih h; simp only [List.length_cons]; omega

def shortEscape? : Char → Option Char
  | '"' => some '"'
  | '\\' => some '\\'
  | '/' => some '/'
  | 'b' => some '\x08'
  | 'f' => some '\x0c'
  | 'n' => some '\n'
  | 'r' => some '\r'
  | 't' => some '\t'
  | _ => none

def surrogatePair? (high low : Nat) : Option Char :=
  if 0xD800 ≤ high ∧ high < 0xDC00 ∧ 0xDC00 ≤ low ∧ low < 0xE000 then
    some (Char.ofNat (0x10000 + (high - 0xD800) * 0x400 + (low - 0xDC00)))
  else none

def unescape (acc : List Char) : List Char → Option (List Char)
  | [] => some acc.reverse
  | '\\' :: 'u' :: a :: b :: c :: d :: rest =>
    match Digit.number? 16 [a, b, c, d] with
    | none => none
    | some unit =>
      match Digit.scalar? unit with
      | some ch => unescape (ch :: acc) rest
      | none =>
        match rest with
        | '\\' :: 'u' :: e :: f :: g :: h :: rest' =>
          match (Digit.number? 16 [e, f, g, h]).bind (surrogatePair? unit) with
          | some ch => unescape (ch :: acc) rest'
          | none => none
        | _ => none
  | '\\' :: c :: rest =>
    match shortEscape? c with
    | some ch => unescape (ch :: acc) rest
    | none => none
  | ['\\'] => none
  | c :: rest => unescape (c :: acc) rest

/-- The text after an opening quote, and what follows the closing one. -/
def quoted? (cs : List Char) : Option (String × Rest cs) :=
  match h : spanQuoted [] cs with
  | none => none
  | some (raw, rest) =>
    (unescape [] raw).map fun s => (String.ofList s, ⟨rest, length_of_spanQuoted h⟩)

/-! ## Values -/

/-- The members of a record, the last one of each name. -/
def lastOfEach (entries : List (String × Data)) : List (String × Data) :=
  entries.foldl (fun kept (name, d) => kept.filter (·.1 ≠ name) ++ [(name, d)]) []

mutual

/-- A value and what follows it. -/
def value? (cs : List Char) : Option (Data × Rest cs) :=
  match h : skip isBlank cs with
  | [] => none
  | c :: rest =>
    have hlt := length_lt_of_skip_eq_cons h
    if c = '"' then (quoted? rest).map fun (s, r) => (.text s, r.within hlt)
    else if c = '[' then
      match Rest.afterSkip? isBlank ']' rest with
      | some close => some (.list [], close.within hlt)
      | none => (items? rest).map fun (ds, r) => (.list ds, r.within hlt)
    else if c = '\x7b' then
      match Rest.afterSkip? isBlank '\x7d' rest with
      | some close => some (.record [], close.within hlt)
      | none => (members? rest).map fun (es, r) => (.record (lastOfEach es), r.within hlt)
    else if isWordChar c then
      (atom? (c :: rest.takeWhile isWordChar)).map fun d =>
        (d, Rest.skip isWordChar ⟨rest, hlt⟩)
    else none
termination_by (cs.length, 0)

def items? (cs : List Char) : Option (List Data × Rest cs) :=
  match value? cs with
  | none => none
  | some (d, r) =>
    match Rest.afterSkip? isBlank ',' r.chars with
    | some comma =>
      (items? comma.chars).map fun (ds, r') => (d :: ds, r.andThen (comma.andThen r'))
    | none =>
      (Rest.afterSkip? isBlank ']' r.chars).map fun close => ([d], r.andThen close)
termination_by (cs.length, 1)
decreasing_by
  · exact Prod.Lex.right _ Nat.zero_lt_one
  · exact Prod.Lex.left _ _ (Nat.lt_trans comma.shorter r.shorter)

def members? (cs : List Char) : Option (List (String × Data) × Rest cs) :=
  match Rest.afterSkip? isBlank '"' cs with
  | none => none
  | some quote =>
    match quoted? quote.chars with
    | none => none
    | some (name, r) =>
      match Rest.afterSkip? isBlank ':' r.chars with
      | none => none
      | some colon =>
        match value? colon.chars with
        | none => none
        | some (d, r') =>
          let before := quote.andThen (r.andThen (colon.andThen r'))
          match Rest.afterSkip? isBlank ',' r'.chars with
          | some comma =>
            (members? comma.chars).map fun (es, r'') =>
              ((name, d) :: es, before.andThen (comma.andThen r''))
          | none =>
            (Rest.afterSkip? isBlank '\x7d' r'.chars).map fun close =>
              ([(name, d)], before.andThen close)
termination_by (cs.length, 1)
decreasing_by
  · exact Prod.Lex.left _ _ (quote.andThen (r.andThen colon)).shorter
  · exact Prod.Lex.left _ _
      ((quote.andThen (r.andThen colon)).andThen (r'.andThen comma)).shorter

end

def read? (s : String) : Option Data :=
  match value? s.toList with
  | some (d, r) => if (skip isBlank r.chars).isEmpty then some d else none
  | none => none

end MarketRelay.Json
