import MarketRelay.Wire.Message

/-!
# Symbols

The symbols that a relay serves, each with the number that it goes by on the wire.

The table is a list in ascending order of numbers, in which no number and no name occurs twice: of
several entries with one number or one name the first is kept (`insertIfNew`).  So the two ways to
look a symbol up, by number and by name, cannot disagree.

`resolve` says which symbol a request means.  A name that is given counts, and the number beside it
is not looked at; where no name is given, the number counts if the table has it.  The exchange is
looked at last, and only where both the request and the table name one.
-/
namespace MarketRelay

structure SymbolEntry where
  id : SymbolId
  name : String
  exchange : String := ""
deriving DecidableEq, Repr

structure SymbolTable where
  entries : List SymbolEntry
deriving DecidableEq, Repr

namespace SymbolTable

def empty : SymbolTable := ⟨[]⟩

def get? (t : SymbolTable) (id : SymbolId) : Option SymbolEntry :=
  t.entries.find? fun e => e.id == id

def idOf? (t : SymbolTable) (name : String) : Option SymbolId :=
  (t.entries.find? fun e => e.name == name).map (·.id)

def contains (t : SymbolTable) (id : SymbolId) : Bool := (t.get? id).isSome

def size (t : SymbolTable) : Nat := t.entries.length

/-- An entry put before the first one with a larger number. -/
def insertSorted (e : SymbolEntry) : List SymbolEntry → List SymbolEntry
  | [] => [e]
  | x :: rest => if e.id < x.id then e :: x :: rest else x :: insertSorted e rest

/-- The table with one more entry, unless its number or its name is taken. -/
def insertIfNew (t : SymbolTable) (e : SymbolEntry) : SymbolTable :=
  if t.contains e.id || (t.idOf? e.name).isSome then t else ⟨insertSorted e t.entries⟩

def ofList (entries : List SymbolEntry) : SymbolTable := entries.foldl insertIfNew empty

/-- Two exchanges go together if they are the same or one of them is left open. -/
def exchangesAgree (asked known : String) : Bool := asked == "" || known == "" || known == asked

/-- The number that a request means: the one of its name if it gives one, else its own number if
the table has it, provided that the exchanges agree. -/
def resolve (t : SymbolTable) (id : SymbolId) (name exchange : String) : Option SymbolId := do
  let id ← if name == "" then some id else t.idOf? name
  let entry ← t.get? id
  if exchangesAgree exchange entry.exchange then some id else none

end SymbolTable
end MarketRelay
