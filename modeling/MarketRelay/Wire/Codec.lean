import MarketRelay.Wire.Header

/-!
# The codec

A message as the bytes of one frame, and one frame as a message.

A frame is a header and the body that it announces.  Encoding cannot fail: each field of a layout
has a fixed width and takes any value of its kind, texts being cut to what fits, so a frame has the
size that its tag says.

Decoding checks the header, then the size of the body against the layout of the tag, then the fields
in order, and reads nothing beyond the declared size.  Bytes behind the frame are no error.  What is
wrong first is what is told: a bad size hides a tag that is unknown, and a field hides those behind
it.
-/
namespace MarketRelay
namespace Message

/-- The size of a message's frame. -/
def frameSize (m : Message) : Nat := headerSize + m.type.layout.width

def header (m : Message) : Header := ⟨UInt16.ofNat m.frameSize, m.type.tag⟩

def encode (m : Message) : List UInt8 := m.header.bytes ++ m.type.layout.encode m.body

/-- The message of a kind in the bytes of its body. -/
def decodeBody (type : MessageType) (body : List UInt8) : Except DecodeError Message :=
  let expected := type.layout.width
  if body.length < expected then .error (.bodyTooShort type expected body.length)
  else if expected < body.length then .error (.bodyTooLong type expected body.length)
  else
    match type.layout.decode body with
    | .ok values => .ok (ofBody type values)
    | .error (field, fault) => .error (.invalidField type field fault)

/-- The message of the frame at the start of some bytes, of at most `limit` bytes. -/
def decode (limit : Nat) (bs : List UInt8) : Except DecodeError Message :=
  match Header.read bs with
  | .error e => .error e
  | .ok h =>
    match h.validate bs.length limit with
    | .error e => .error e
    | .ok () =>
      match h.type? with
      | none => .error (.unknownType h.tag h.size.toNat)
      | some type => decodeBody type ((bs.drop headerSize).take h.bodySize)

end Message
end MarketRelay
