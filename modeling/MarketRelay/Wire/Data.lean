import MarketRelay.Wire.Message
import MarketRelay.Data.Value

/-!
# Messages as data

The written form of a message: a record with one member, named for the kind of message, that holds
the fields under the names of its layout.

Whole numbers, truth values and texts are written as they are; what comes from an enumeration is
written with its label.  A number is taken back only within the range of its field, so nothing wraps
around on the way in.

Both directions go over the layout of the message, as the codec does: there is nothing here that
would have to be kept in step with the list of messages.
-/
namespace MarketRelay

def FieldKind.toData : (kind : FieldKind) → kind.Value → Data
  | .int32, x => .int x.toInt
  | .uint32, x => .int x.toNat
  | .int64, x => .int x.toInt
  | .binary64, x => .real x
  | .flag, b => .bool b
  | .side, x => .text (Choice.label x)
  | .logonStatus, x => .text (Choice.label x)
  | .requestAction, x => .text (Choice.label x)
  | .text _, s => .text s

def FieldKind.ofData? : (kind : FieldKind) → Data → Option kind.Value
  | .int32, d => (d.signed? 32).map Int32.ofInt
  | .uint32, d => (d.nat? 32).map UInt32.ofNat
  | .int64, d => (d.signed? 64).map Int64.ofInt
  | .binary64, d => d.real?
  | .flag, d => d.bool?
  | .side, d => d.choice? Side
  | .logonStatus, d => d.choice? LogonStatus
  | .requestAction, d => d.choice? RequestAction
  | .text _, d => d.text?

namespace Layout

def toEntries : (layout : Layout) → layout.Value → List (String × Data)
  | [], _ => []
  | field :: rest, (v, vs) => (field.name, field.kind.toData v) :: toEntries rest vs

/-- The values of a body from its fields in order, all of which are needed. -/
def ofFields? : (layout : Layout) → List (Option Data) → Option layout.Value
  | [], _ => some ()
  | field :: rest, some d :: ds =>
    match field.kind.ofData? d, ofFields? rest ds with
    | some v, some vs => some (v, vs)
    | _, _ => none
  | _ :: _, _ => none

def ofData? (layout : Layout) (d : Data) : Option layout.Value :=
  (d.fields? (layout.map ([·.name])) false).bind layout.ofFields?

end Layout

namespace Message

def toData (m : Message) : Data :=
  .record [(m.type.name, .record (m.type.layout.toEntries m.body))]

def ofData? : Data → Option Message
  | .record [(name, d)] => do
    let type ← MessageType.ofName? name
    let values ← type.layout.ofData? d
    return ofBody type values
  | _ => none

end Message
end MarketRelay
