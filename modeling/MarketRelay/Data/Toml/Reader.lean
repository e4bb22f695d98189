import MarketRelay.Data.Toml.Quoted
import MarketRelay.Data.Toml.Scalar
import MarketRelay.Data.Toml.Table

/-!
# Reading TOML

A TOML text is a row of lines: keys with values, and headers that open tables.  Values may run over
several lines inside lists and long texts.

The reader goes through the text line by line and keeps an `Outline`, the tables that it has
finished and the one that it is in.  A key with its value goes into the open table; a header closes
that table and opens another.  What may be defined where is a matter of the outline and is looked
after in `Toml.Table`; what a value without quotes or brackets stands for is a matter of
`Toml.Scalar`.

* Lists may have line breaks and comments between their items and a comma behind the last one;
  inline tables stand on one line and may not.
* The depth to which lists and inline tables nest is bounded, and so is the number of parts of a
  key (`depthLimit`).
* Behind the value or the header of a line only blanks and a comment may follow.

A byte order mark may stand before it all.  Whatever is wrong anywhere, the answer is that the text
is no TOML text, without saying why.
-/
namespace MarketRelay.Toml

/-- Lists and inline tables nest less deep than this, and keys have fewer parts. -/
def depthLimit : Nat := 80

def isBlank (c : Char) : Bool := c == ' ' || c == '\t'

/-! ## Comments and line breaks -/

/-- The text after a comment, if there is one; a comment runs up to the end of the line. -/
def skipComment : List Char → List Char
  | '#' :: cs => skip isPlainChar cs
  | cs => cs

theorem length_skipComment_le (cs : List Char) : (skipComment cs).length ≤ cs.length := by
  unfold skipComment
  split
  · have := length_skip_le isPlainChar ‹List Char›
    simp only [List.length_cons]
    omega
  · exact Nat.le_refl _

/-- The text after blanks, comments and line breaks. -/
def skipLayout (cs : List Char) : List Char :=
  match h : dropBreak? (skipComment (skip isBlank cs)) with
  | none => skip isBlank cs
  | some rest =>
    have := length_of_dropBreak? h
    have := length_skipComment_le (skip isBlank cs)
    have := length_skip_le isBlank cs
    skipLayout rest
termination_by cs.length

theorem length_skipLayout_le (cs : List Char) : (skipLayout cs).length ≤ cs.length := by
  fun_induction skipLayout cs with
  | case1 cs => exact length_skip_le _ _
  | case2 cs rest h h1 h2 h3 ih => omega

def ofLayout {cs : List Char} (r : Rest (skipLayout cs)) : Rest cs :=
  r.widen (length_skipLayout_le cs)

/-- The text of the next line: nothing but blanks and a comment may be left of this one. -/
def endLine? (cs : List Char) : Option (List Char) :=
  match skipComment (skip isBlank cs) with
  | [] => some []
  | cs => dropBreak? cs

/-! ## Keys -/

/-- A character of a key without quotes. -/
def isBareChar (c : Char) : Bool := c.isAlphanum || c == '_' || c == '-'

def keyPart? (cs : List Char) : Option (String × Rest cs) :=
  match h : skip isBlank cs with
  | [] => none
  | c :: rest =>
    have hlt := length_lt_of_skip_eq_cons h
    if c = '"' || c = '\'' then
      (quotedLine? c rest).map fun (s, r) => (s, r.within hlt)
    else if isBareChar c then
      some (String.ofList (c :: rest.takeWhile isBareChar), Rest.skip isBareChar ⟨rest, hlt⟩)
    else none

/-- The parts of a key, with dots and blanks between them. -/
def keyParts? (cs : List Char) : Option (List String × Rest cs) :=
  match keyPart? cs with
  | none => none
  | some (part, r) =>
    match Rest.afterSkip? isBlank '.' r.chars with
    | none => some ([part], r.skip isBlank)
    | some dot =>
      (keyParts? dot.chars).map fun (parts, r') => (part :: parts, r.andThen (dot.andThen r'))
termination_by cs.length
decreasing_by exact Nat.lt_trans dot.shorter r.shorter

def key? (cs : List Char) : Option (List String × String × Rest cs) :=
  match keyParts? cs with
  | none => none
  | some (parts, r) =>
    if depthLimit ≤ parts.length then none
    else (Outline.splitPath parts).map fun (path, key) => (path, key, r)

def keyEquals? (cs : List Char) : Option (List String × String × Rest cs) :=
  match key? cs with
  | none => none
  | some (path, key, r) =>
    (Rest.after? '=' r.chars).map fun equals => (path, key, r.andThen equals)

/-! ## Values -/

/-- A character of a value without quotes or brackets. -/
def isScalarChar (c : Char) : Bool :=
  c.isAlphanum || c == '_' || c == '-' || c == '+' || c == '.' || c == ':'

/-- A value without quotes or brackets.  Between a date and a time there may be a blank instead of a
letter. -/
def scalarAt? (cs : List Char) : Option (Data × List Char) :=
  let token := cs.takeWhile isScalarChar
  let rest := skip isScalarChar cs
  let time := match rest with
    | ' ' :: after => after.takeWhile isScalarChar
    | _ => []
  if isDate token && isTimeWithOffset time then some (.date, rest.drop (1 + time.length))
  else (scalar? token).map (·, rest)

def afterLayout? (c : Char) (cs : List Char) : Option (Rest cs) :=
  (Rest.after? c (skipLayout cs)).map ofLayout

mutual

/-- A value at the head of a text, within `room` levels. -/
def value? (room : Nat) (cs : List Char) : Option (Data × Rest cs) :=
  match cs with
  | [] => none
  | c :: rest =>
    if c = '"' || c = '\'' then
      (quoted? c rest).map fun (s, r) => (.text s, r.behind c)
    else if c = '[' then
      if room ≤ 1 then none
      else (items? (room - 1) rest).map fun (ds, r) => (.list ds, r.behind c)
    else if c = '\x7b' then
      if room ≤ 1 then none
      else
        match Rest.afterSkip? isBlank '\x7d' rest with
        | some close => some (.record [], close.behind c)
        | none =>
          (members? (room - 1) [] rest).map fun (es, r) =>
            (.record (Entries.toEntries es), r.behind c)
    else
      match scalarAt? (c :: rest) with
      | none => none
      | some (d, rest') =>
        if h : rest'.length < (c :: rest).length then some (d, ⟨rest', h⟩) else none
termination_by 2 * cs.length

def items? (room : Nat) (cs : List Char) : Option (List Data × Rest cs) :=
  match afterLayout? ']' cs with
  | some close => some ([], close)
  | none =>
    match value? room (skipLayout cs) with
    | none => none
    | some (d, r) =>
      match afterLayout? ',' r.chars with
      | some comma =>
        (items? room comma.chars).map fun (ds, r') =>
          (d :: ds, ofLayout (r.andThen (comma.andThen r')))
      | none => (afterLayout? ']' r.chars).map fun close => ([d], ofLayout (r.andThen close))
termination_by 2 * cs.length + 1
decreasing_by
  · have := length_skipLayout_le cs
    omega
  · have := length_skipLayout_le cs
    have := r.shorter
    have := comma.shorter
    omega

/-- The members of an inline table up to its closing brace, after those in `es`. -/
def members? (room : Nat) (es : Entries) (cs : List Char) : Option (Entries × Rest cs) :=
  match keyEquals? cs with
  | none => none
  | some (path, key, r) =>
    match value? room (skip isBlank r.chars) with
    | none => none
    | some (d, r') =>
      match Entries.insertAt path key d es with
      | none => none
      | some es' =>
        match Rest.afterSkip? isBlank ',' r'.chars with
        | some comma =>
          (members? room es' comma.chars).map fun (es'', r'') =>
            (es'', r.andThen (Rest.ofSkip (r'.andThen (comma.andThen r''))))
        | none =>
          (Rest.afterSkip? isBlank '\x7d' r'.chars).map fun close =>
            (es', r.andThen (Rest.ofSkip (r'.andThen close)))
termination_by 2 * cs.length + 1
decreasing_by
  · have := length_skip_le isBlank r.chars
    have := r.shorter
    omega
  · have := length_skip_le isBlank r.chars
    have := r.shorter
    have := r'.shorter
    have := comma.shorter
    omega

end

/-! ## Lines -/

inductive Line where
  | table (path : List String)
  | item (path : List String)
  | pair (path : List String) (key : String) (d : Data)

/-- The path between the brackets of a header. -/
def headerPath? (close : List Char) (cs : List Char) : Option (List String × List Char) := do
  let (path, key, r) ← key? cs
  if close.isPrefixOf r.chars then some (path ++ [key], r.chars.drop close.length) else none

/-- A line with something on it, and the text behind the line. -/
def line? (cs : List Char) : Option (Line × List Char) :=
  match cs with
  | '[' :: '[' :: rest => do
    let (path, rest) ← headerPath? [']', ']'] rest
    return (.item path, ← endLine? rest)
  | '[' :: rest => do
    let (path, rest) ← headerPath? [']'] rest
    return (.table path, ← endLine? rest)
  | _ => do
    let (path, key, r) ← keyEquals? cs
    let (d, r') ← value? depthLimit (skip isBlank r.chars)
    return (.pair path key d, ← endLine? r'.chars)

def Outline.add (o : Outline) : Line → Option Outline
  | .table path => o.openTable path
  | .item path => o.openItem path
  | .pair path key d => o.insert path key d

def outline? (o : Outline) (cs : List Char) : Option Outline :=
  let cs' := skipLayout cs
  if (skipComment cs').isEmpty then some o
  else
    match line? cs' with
    | none => none
    | some (line, rest) =>
      if rest.length < cs.length then
        match o.add line with
        | none => none
        | some o' => outline? o' rest
      else none
termination_by cs.length

/-- The data that a TOML text writes, if it is one.  A byte order mark may stand before it. -/
def read? (s : String) : Option Data :=
  let cs := match s.toList with
    | '\uFEFF' :: cs => cs
    | cs => cs
  ((outline? .start cs).bind Outline.close).map fun es => .record (Entries.toEntries es)

end MarketRelay.Toml
