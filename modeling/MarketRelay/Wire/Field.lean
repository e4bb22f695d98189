import MarketRelay.Text.Utf8
import MarketRelay.Number.Binary64
import MarketRelay.Wire.LittleEndian
import MarketRelay.Wire.Choice

/-!
# Fields and layouts

The body of a message is a row of fields of fixed width.

A `FieldKind` says how one value lies on the wire: numbers with the lowest byte first, truth values
as zero or one, values of an enumeration as their byte, and texts filled up with zero bytes.  A
number of four or eight bytes has a value whatever the bytes are; the other kinds have a
`FieldFault` for the bytes that hold no value.

A text ends at the first zero byte of its field, and what stands behind it is not looked at.  So a
text that has a zero byte of its own does not come back whole, and neither does one that is too long
for its field.

A layout names the fields of a body in wire order, and `Layout.encode` and `Layout.decode` follow it
field by field.  A body that does not decode names its first bad field.
-/
namespace MarketRelay

/-! ## One field -/

/-- How a value lies on the wire. -/
inductive FieldKind where
  | int32
  | uint32
  | int64
  | binary64
  | flag
  | side
  | logonStatus
  | requestAction
  /-- Text in a field of `width` bytes, filled up with zero bytes. -/
  | text (width : Nat)
deriving DecidableEq, Repr

/-- Why the bytes of a field hold no value of its kind. -/
inductive FieldFault where
  | badText (fault : Utf8.Fault)
  | noChoice (title : String) (code : UInt8)
  | noFlag (code : UInt8)
deriving DecidableEq, Repr

def FieldFault.message : FieldFault → String
  | .badText fault => fault.message
  | .noChoice title code => s!"No discriminant in enum `{title}` matches the value `{code}`"
  | .noFlag code => s!"expected 0 or 1, got {code}"

namespace FieldKind

abbrev Value : FieldKind → Type
  | .int32 => Int32
  | .uint32 => UInt32
  | .int64 => Int64
  | .binary64 => Binary64
  | .flag => Bool
  | .side => Side
  | .logonStatus => LogonStatus
  | .requestAction => RequestAction
  | .text _ => String

def width : FieldKind → Nat
  | .int32 | .uint32 => 4
  | .int64 | .binary64 => 8
  | .flag | .side | .logonStatus | .requestAction => 1
  | .text width => width

/-- Text in `width` bytes: as many whole characters as fit, then zero bytes. -/
def encodeText (width : Nat) (s : String) : List UInt8 :=
  let bs := Utf8.bytes (Utf8.fit width s)
  bs ++ List.replicate (width - bs.length) 0

/-- The text before the first zero byte. -/
def decodeText (bs : List UInt8) : Except FieldFault String :=
  match Utf8.text (bs.takeWhile (· ≠ 0)) with
  | .ok s => .ok s
  | .error fault => .error (.badText fault)

def decodeChoice (α : Type) [Choice α] (code : UInt8) : Except FieldFault α :=
  match Choice.ofCode? code with
  | some a => .ok a
  | none => .error (.noChoice (Choice.title α) code)

def decodeFlag (code : UInt8) : Except FieldFault Bool :=
  if code = 0 then .ok false else if code = 1 then .ok true else .error (.noFlag code)

def encode : (kind : FieldKind) → kind.Value → List UInt8
  | .int32, x => LittleEndian.bytes 4 x.toUInt32.toNat
  | .uint32, x => LittleEndian.bytes 4 x.toNat
  | .int64, x => LittleEndian.bytes 8 x.toUInt64.toNat
  | .binary64, x => LittleEndian.bytes 8 x.bits.toNat
  | .flag, b => [if b then 1 else 0]
  | .side, x => [Choice.code x]
  | .logonStatus, x => [Choice.code x]
  | .requestAction, x => [Choice.code x]
  | .text width, s => encodeText width s

def decode : (kind : FieldKind) → List UInt8 → Except FieldFault kind.Value
  | .int32, bs => .ok (UInt32.ofNat (LittleEndian.value bs)).toInt32
  | .uint32, bs => .ok (UInt32.ofNat (LittleEndian.value bs))
  | .int64, bs => .ok (UInt64.ofNat (LittleEndian.value bs)).toInt64
  | .binary64, bs => .ok ⟨UInt64.ofNat (LittleEndian.value bs)⟩
  | .flag, bs => decodeFlag (UInt8.ofNat (LittleEndian.value bs))
  | .side, bs => decodeChoice Side (UInt8.ofNat (LittleEndian.value bs))
  | .logonStatus, bs => decodeChoice LogonStatus (UInt8.ofNat (LittleEndian.value bs))
  | .requestAction, bs => decodeChoice RequestAction (UInt8.ofNat (LittleEndian.value bs))
  | .text _, bs => decodeText bs

end FieldKind

/-! ## Rows of fields -/

/-- A named field of a body. -/
structure Field where
  name : String
  kind : FieldKind
deriving DecidableEq, Repr

/-- The fields of a body in wire order. -/
abbrev Layout := List Field

namespace Layout

abbrev Value : Layout → Type
  | [] => Unit
  | field :: rest => field.kind.Value × Value rest

def width : Layout → Nat
  | [] => 0
  | field :: rest => field.kind.width + width rest

def encode : (layout : Layout) → layout.Value → List UInt8
  | [], _ => []
  | field :: rest, (v, vs) => field.kind.encode v ++ encode rest vs

def decode : (layout : Layout) → List UInt8 → Except (String × FieldFault) layout.Value
  | [], _ => .ok ()
  | field :: rest, bs =>
    match field.kind.decode (bs.take field.kind.width) with
    | .error fault => .error (field.name, fault)
    | .ok v =>
      match decode rest (bs.drop field.kind.width) with
      | .error fault => .error fault
      | .ok vs => .ok (v, vs)

end Layout
end MarketRelay
