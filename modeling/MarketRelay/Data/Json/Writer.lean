import MarketRelay.Data.Value
import MarketRelay.Decimal.Shortest

/-!
# Writing JSON

The compact JSON text of data, as it is sent to whoever asks the server for its state.

There are no blanks between the parts.  In texts the quote, the backslash and control characters are
escaped, the latter by one letter where there is one for them and by their number otherwise; all
other characters stand for themselves.

A float is written by its shortest digits with a point, so that it is told from an integer when it
is read again.  An infinite one or one that is no number has no form in JSON, and neither has a
date: `null` is written for them.
-/
namespace MarketRelay.Json

/-- The two lower hexadecimal digits of a control character. -/
def controlEscape (c : Char) : String :=
  let digits := Nat.toDigits 16 c.toNat
  "\\u" ++ String.ofList (List.replicate (4 - digits.length) '0' ++ digits)

def escapeChar (c : Char) : String :=
  if c = '"' then "\\\""
  else if c = '\\' then "\\\\"
  else if c = '\n' then "\\n"
  else if c = '\r' then "\\r"
  else if c = '\t' then "\\t"
  else if c = '\x08' then "\\b"
  else if c = '\x0c' then "\\f"
  else if c.toNat < 0x20 then controlEscape c
  else c.toString

def quote (s : String) : String :=
  "\"" ++ s.foldl (fun acc c => acc ++ escapeChar c) "" ++ "\""

/-- A number, marked as no integer. -/
def realText (x : Binary64) : String :=
  if x.isFinite then
    let s := x.text
    if s.contains '.' then s else s ++ ".0"
  else "null"

mutual

def write : Data → String
  | .null => "null"
  | .bool b => if b then "true" else "false"
  | .int n => toString n
  | .real x => realText x
  | .text s => quote s
  | .date => "null"
  | .list items => "[" ++ writeItems items ++ "]"
  | .record entries => "\x7b" ++ writeEntries entries ++ "\x7d"

def writeItems : List Data → String
  | [] => ""
  | [d] => write d
  | d :: rest => write d ++ "," ++ writeItems rest

def writeEntries : List (String × Data) → String
  | [] => ""
  | [(name, d)] => quote name ++ ":" ++ write d
  | (name, d) :: rest => quote name ++ ":" ++ write d ++ "," ++ writeEntries rest

end

end MarketRelay.Json
