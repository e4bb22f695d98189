import MarketRelay.Wire.Message

/-!
# Headers and decode errors

Every frame starts with four bytes: its size, header included, and the tag of its message, each in
two bytes with the lowest first.

A size is one that a frame can have if it is no less than a header's and no more than a limit that
the reader sets (`Header.fits`).  `Header.validate` asks in addition that the frame is there in
full; a reader that can wait for more bytes asks the two questions apart.

The errors of decoding stand here with their wording.  All but an unknown tag end a connection: the
size says where the next frame starts even if nobody knows what this one is, whereas after a size
that cannot be right, or a body that is not what its tag says, nothing does.
-/
namespace MarketRelay

def headerSize : Nat := 4

/-- The largest frame accepted where no limit is given. -/
def defaultFrameLimit : Nat := 4096

/-! ## Errors -/

inductive DecodeError where
  /-- Fewer bytes than a header has. -/
  | truncated (needed available : Nat)
  /-- The declared size is below a header's, beyond the bytes at hand or above the limit. -/
  | sizeMismatch (declared available limit : Nat)
  /-- No message of the catalog has this tag. -/
  | unknownType (tag : UInt16) (size : Nat)
  | bodyTooShort (type : MessageType) (expected actual : Nat)
  | bodyTooLong (type : MessageType) (expected actual : Nat)
  /-- The first field whose bytes hold no value of its kind. -/
  | invalidField (type : MessageType) (field : String) (fault : FieldFault)
deriving DecidableEq, Repr

namespace DecodeError

def message : DecodeError → String
  | .truncated needed available => s!"truncated header: need {needed} bytes, got {available}"
  | .sizeMismatch declared available limit =>
    s!"declared size {declared} is invalid (available {available}, limit {limit})"
  | .unknownType tag size => s!"unknown message type {tag} ({size} bytes)"
  | .bodyTooShort type expected actual =>
    s!"{type.name} body too short: expected {expected} bytes, got {actual}"
  | .bodyTooLong type expected actual =>
    s!"{type.name} body too long: expected {expected} bytes, got {actual}"
  | .invalidField type field fault =>
    s!"{type.name} has invalid {field}: {fault.message}"

/-- Whether a connection cannot go on after the error: a frame with an unknown tag can be passed
over, since its size is known. -/
def isFatal : DecodeError → Bool
  | .unknownType .. => false
  | _ => true

end DecodeError

/-! ## Headers -/

structure Header where
  /-- The size of the frame, header included. -/
  size : UInt16
  /-- The tag of its message. -/
  tag : UInt16
deriving DecidableEq, Repr

namespace Header

/-- The bytes of a header. -/
def bytes (h : Header) : List UInt8 :=
  LittleEndian.bytes 2 h.size.toNat ++ LittleEndian.bytes 2 h.tag.toNat

/-- The header at the start of some bytes. -/
def read (bs : List UInt8) : Except DecodeError Header :=
  if bs.length < headerSize then .error (.truncated headerSize bs.length)
  else .ok
    ⟨UInt16.ofNat (LittleEndian.value (bs.take 2)),
      UInt16.ofNat (LittleEndian.value ((bs.drop 2).take 2))⟩

def bodySize (h : Header) : Nat := h.size.toNat - headerSize

def type? (h : Header) : Option MessageType := MessageType.ofTag? h.tag

def fits (h : Header) (limit : Nat) : Bool := headerSize ≤ h.size.toNat && h.size.toNat ≤ limit

/-- Refuses a size below the header's, beyond the available bytes or above the limit. -/
def validate (h : Header) (available limit : Nat) : Except DecodeError Unit :=
  if h.fits limit && h.size.toNat ≤ available then .ok ()
  else .error (.sizeMismatch h.size.toNat available limit)

end Header
end MarketRelay
