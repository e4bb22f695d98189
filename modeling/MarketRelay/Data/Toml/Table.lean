import MarketRelay.Data.Value

/-!
# Tables of TOML

A table grows by single keys, by dotted keys and by headers, and none of them may define anything
twice.

* A value is closed for good, and so is a list or an inline table, which is a value.
* A table with a header of its own takes no dotted keys from elsewhere.
* A table that dotted keys have made gets no header.
* A table that a header has passed on its way to another one may get a header of its own, once.
* A header with double brackets opens one more table of a list, and a path that leads through a list
  means the last table of it.

So a table has to remember how it came to be, which is its `TableKind`.

While a text is read an `Outline` holds the tables that are finished and, apart from them, the one
whose keys are being read.  That one is put in its place only when the next header, or the end of
the text, closes it (`Outline.close`); until then nothing else can reach it.
-/
namespace MarketRelay.Toml

/-- How a table came to be. -/
inductive TableKind where
  /-- By a header of its own. -/
  | header
  /-- On the way to a table with a header. -/
  | passed
  /-- On the way to the last part of a dotted key. -/
  | dotted
deriving DecidableEq, Repr

inductive Node where
  | value (d : Data)
  | table (kind : TableKind) (entries : List (String × Node))
  /-- Tables in a list, each with a header of its own. -/
  | tables (items : List (List (String × Node)))

abbrev Entries := List (String × Node)

namespace Entries

def set (key : String) (node : Node) (es : Entries) : Entries :=
  es.map fun (k, n) => if k == key then (k, node) else (k, n)

/-- Changes the table at the end of a path.  Tables on the way are made where there are none, and of
a list of tables the last one is meant.  Dotted keys do not reach into tables with headers. -/
def update (isDotted : Bool) (f : TableKind → Entries → Option Entries) :
    (path : List String) → TableKind → Entries → Option Entries
  | [], kind, es => f kind es
  | key :: path, _, es =>
    match es.lookup key with
    | none =>
      let kind := if isDotted then TableKind.dotted else .passed
      (update isDotted f path kind []).map fun sub => es ++ [(key, .table kind sub)]
    | some (.value _) => none
    | some (.tables items) =>
      (update isDotted f path .header (items.getLastD [])).map fun sub =>
        set key (.tables (items.dropLast ++ [sub])) es
    | some (.table kind sub) =>
      if isDotted && kind = .header then none
      else (update isDotted f path kind sub).map fun sub => set key (.table kind sub) es

/-- The table with one more key, which must be new.  The last part of a dotted key belongs in a
table made by dotted keys, a single key in one that was not. -/
def insertNew (isSingle : Bool) (key : String) (node : Node) (kind : TableKind) (es : Entries) :
    Option Entries :=
  if (kind = .dotted) == isSingle then none
  else if (es.lookup key).isSome then none
  else some (es ++ [(key, node)])

def insertAt (path : List String) (key : String) (d : Data) (es : Entries) : Option Entries :=
  update true (insertNew path.isEmpty key (.value d)) path .header es

mutual

def nodeData : Node → Data
  | .value d => d
  | .table _ es => .record (toEntries es)
  | .tables items => .list (itemsData items)

def toEntries : List (String × Node) → List (String × Data)
  | [] => []
  | (key, node) :: rest => (key, nodeData node) :: toEntries rest

def itemsData : List (List (String × Node)) → List Data
  | [] => []
  | es :: rest => .record (toEntries es) :: itemsData rest

end

end Entries

/-! ## Headers -/

/-- Tables under way: those that are finished, and the one whose keys are being read. -/
structure Outline where
  finished : Entries
  /-- The path of the open table; the outermost one has none. -/
  path : List String
  /-- The open table is one more of a list. -/
  isItem : Bool
  entries : Entries

namespace Outline

/-- Before the first key: the outermost table is open. -/
def start : Outline := ⟨[], [], false, []⟩

def splitPath (path : List String) : Option (List String × String) :=
  path.getLast?.map fun key => (path.dropLast, key)

/-- The finished tables with one more in a list of tables. -/
def addItem (key : String) (item : Option Entries) (_ : TableKind) (es : Entries) :
    Option Entries :=
  match es.lookup key with
  | none => some (es ++ [(key, .tables item.toList)])
  | some (.tables items) => some (Entries.set key (.tables (items ++ item.toList)) es)
  | some _ => none

/-- The finished tables, the open one among them. -/
def close (o : Outline) : Option Entries :=
  match splitPath o.path with
  | none => some o.entries
  | some (parent, key) =>
    if o.isItem then Entries.update false (addItem key (some o.entries)) parent .header o.finished
    else
      Entries.update false (fun _ es => some (es ++ [(key, .table .header o.entries)])) parent
        .header o.finished

/-- Takes the table that a header names out of its parent: none yet, or one passed on the way to
another. -/
def takeTable (key : String) (es : Entries) : Option (Entries × Entries) :=
  match es.lookup key with
  | none => some ([], es)
  | some (.table .passed sub) => some (sub, es.filter (·.1 != key))
  | some _ => none

/-- The entries at a path, where there are any. -/
def entriesAt : (path : List String) → Entries → Entries
  | [], es => es
  | key :: path, es =>
    match es.lookup key with
    | some (.table _ sub) => entriesAt path sub
    | some (.tables items) => entriesAt path (items.getLastD [])
    | _ => []

/-- Opens the table of a header. -/
def openTable (o : Outline) (path : List String) : Option Outline := do
  let finished ← o.close
  let (parent, key) ← splitPath path
  let (opened, _) ← takeTable key (entriesAt parent finished)
  let finished ← Entries.update false (fun _ es => (takeTable key es).map (·.2)) parent .header
    finished
  return ⟨finished, path, false, opened⟩

def openItem (o : Outline) (path : List String) : Option Outline := do
  let finished ← o.close
  let (parent, key) ← splitPath path
  let finished ← Entries.update false (addItem key none) parent .header finished
  return ⟨finished, path, true, []⟩

def insert (o : Outline) (path : List String) (key : String) (d : Data) : Option Outline :=
  (Entries.insertAt path key d o.entries).map fun es => { o with entries := es }

end Outline
end MarketRelay.Toml
