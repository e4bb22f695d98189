/-!
# UTF-8

The bytes of a text, the text of bytes, and the longest prefix of a text that fits a number of
bytes.

Bytes that are no UTF-8 have a *fault*: either a sequence that no further byte can repair, or the
end of the bytes inside a sequence that was fine so far.  The first of them is found by a `Cursor`
that goes over the bytes one by one and knows, after each, how many more the current character needs
and between which bounds the next one lies.  The bounds say everything there is to say about a
second byte: they keep out characters written with more bytes than needed, surrogates, and numbers
above the last code point.

A text is cut between characters, never inside one.  So what is left of a text that did not fit is a
text again, and it may take fewer bytes than there was room for.
-/
namespace MarketRelay.Utf8

/-! ## Texts as bytes -/

def bytes (s : String) : List UInt8 :=
  s.toList.flatMap String.utf8EncodeChar

/-- The longest prefix of whole characters that takes at most `room` bytes. -/
def fitChars (room : Nat) : List Char → List Char
  | [] => []
  | c :: cs => if c.utf8Size ≤ room then c :: fitChars (room - c.utf8Size) cs else []

def fit (room : Nat) (s : String) : String :=
  String.ofList (fitChars room s.toList)

/-! ## Faults -/

inductive Fault where
  /-- The `width` bytes from `index` on start no character, whatever follows them. -/
  | invalid (width index : Nat)
  /-- The bytes end inside the character that starts at `index`. -/
  | incomplete (index : Nat)
deriving DecidableEq, Repr

/-- The wording of a fault. -/
def Fault.message : Fault → String
  | .invalid width index => s!"invalid utf-8 sequence of {width} bytes from index {index}"
  | .incomplete index => s!"incomplete utf-8 byte sequence from index {index}"

/-- A position in a byte sequence: the current character starts at `index`, `seen` of its bytes
were read, `owed` more are to come, and the next one lies between `low` and `high`. -/
structure Cursor where
  index : Nat
  seen : Nat
  owed : Nat
  low : UInt8
  high : UInt8

namespace Cursor

def start (index : Nat) : Cursor := ⟨index, 0, 0, 0x00, 0xFF⟩

/-- After a first byte that announces `owed` more, the first of them in a range of its own: the
range keeps out overlong forms, surrogates and values above the last code point. -/
def lead (index owed : Nat) (low high : UInt8) : Cursor := ⟨index, 1, owed, low, high⟩

def first (index : Nat) (b : UInt8) : Except Fault Cursor :=
  if b ≤ 0x7F then .ok (start (index + 1))
  else if b < 0xC2 then .error (.invalid 1 index)
  else if b ≤ 0xDF then .ok (lead index 1 0x80 0xBF)
  else if b = 0xE0 then .ok (lead index 2 0xA0 0xBF)
  else if b = 0xED then .ok (lead index 2 0x80 0x9F)
  else if b ≤ 0xEF then .ok (lead index 2 0x80 0xBF)
  else if b = 0xF0 then .ok (lead index 3 0x90 0xBF)
  else if b ≤ 0xF3 then .ok (lead index 3 0x80 0xBF)
  else if b = 0xF4 then .ok (lead index 3 0x80 0x8F)
  else .error (.invalid 1 index)

/-- A later byte of a character: outside its range it faults what was read so far, as the last one
it ends the character. -/
def next (c : Cursor) (b : UInt8) : Except Fault Cursor :=
  if b < c.low ∨ c.high < b then .error (.invalid c.seen c.index)
  else if c.owed = 1 then .ok (start (c.index + c.seen + 1))
  else .ok ⟨c.index, c.seen + 1, c.owed - 1, 0x80, 0xBF⟩

def step (c : Cursor) (b : UInt8) : Except Fault Cursor :=
  if c.owed = 0 then first c.index b else c.next b

/-- The first fault from a position on.  Bytes that run out are taken to stop too early. -/
def fault (c : Cursor) : List UInt8 → Fault
  | [] => .incomplete c.index
  | b :: rest =>
    match c.step b with
    | .error f => f
    | .ok c' => c'.fault rest

end Cursor

/-! ## Bytes as text -/

/-- The text whose bytes these are, or the first fault if there is none. -/
def text (bs : List UInt8) : Except Fault String :=
  match String.fromUTF8? bs.toByteArray with
  | some s => .ok s
  | none => .error ((Cursor.start 0).fault bs)

end MarketRelay.Utf8
