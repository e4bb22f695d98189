import MarketRelay.Decimal.Nearest
import MarketRelay.Wire.Choice

/-!
# Written data

The values that data formats write down, and reading them as the values of a program.

Nothing is converted between kinds: an integer is taken for a number, but no number for an integer,
and no text for either.  An integer has to be in the range of the type that it is read as.

A record is read by the names of its fields (`Data.fields?`).  Names that are not asked for do not
matter, and a field that goes by two names may not stand under both.  A record may also be written
as the list of its fields in order, and then the fields at the end may be left out like any others;
whether such a list may go on behind the last field depends on the format.

Reading gives `none` for whatever does not fit.  The texts that a reader would complain with are not
part of this.
-/
namespace MarketRelay

inductive Data where
  | null
  | bool (b : Bool)
  | int (n : Int)
  | real (x : Binary64)
  | text (s : String)
  /-- A date or time, which no setting takes: its fields are not kept. -/
  | date
  | list (items : List Data)
  | record (entries : List (String × Data))
deriving Inhabited, Repr

namespace Data

/-! ## Scalars -/

def bool? : Data → Option Bool
  | .bool b => some b
  | _ => none

def text? : Data → Option String
  | .text s => some s
  | _ => none

def int? (low high : Int) : Data → Option Int
  | .int n => if low ≤ n ∧ n ≤ high then some n else none
  | _ => none

/-- An integer of at least zero with at most `bits` bits. -/
def nat? (bits : Nat) (d : Data) : Option Nat :=
  (d.int? 0 (Int.ofNat (1 <<< bits) - 1)).map Int.toNat

/-- An integer in two's complement with `bits` bits. -/
def signed? (bits : Nat) (d : Data) : Option Int :=
  let half := Int.ofNat (1 <<< (bits - 1))
  d.int? (-half) (half - 1)

/-- A number; an integer stands for the nearest one. -/
def real? : Data → Option Binary64
  | .real x => some x
  | .int n => some (.ofInt n)
  | _ => none

/-- A value of an enumeration: its label, alone or as the one key of a record that holds nothing. -/
def choice? (α : Type) [Choice α] : Data → Option α
  | .text s => Choice.ofLabel? s
  | .record [(s, .null)] => Choice.ofLabel? s
  | _ => none

def list? {α : Type} (item? : Data → Option α) : Data → Option (List α)
  | .list items => items.mapM item?
  | _ => none

/-! ## Records -/

/-- The value under one of several names of a field: none, one, or a failure if there are more. -/
def member? (names : List String) (entries : List (String × Data)) : Option (Option Data) :=
  match entries.filter fun (name, _) => names.contains name with
  | [] => some none
  | [(_, d)] => some (some d)
  | _ => none

/-- The items of a list paired with fields in order, and what is left of the list. -/
def aligned : (count : Nat) → List Data → List (Option Data) × List Data
  | 0, items => ([], items)
  | count + 1, [] => let (fields, rest) := aligned count []; (none :: fields, rest)
  | count + 1, d :: items => let (fields, rest) := aligned count items; (some d :: fields, rest)

/-- The values of the fields of a record, each field given by its names; what other names hold does
not matter.  A list is the fields in order; with `surplus` it may go on behind the last one. -/
def fields? (names : List (List String)) (surplus : Bool) : Data → Option (List (Option Data))
  | .record entries => names.mapM (member? · entries)
  | .list items =>
    let (fields, rest) := aligned names.length items
    if surplus || rest.isEmpty then some fields else none
  | _ => none

def get? (name : String) : Data → Option Data
  | .record entries => entries.lookup name
  | _ => none

end Data
end MarketRelay
