import MarketRelay.Wire.Codec

/-!
# Streams of frames

What a connection has received so far is a byte buffer from which frames are taken one by one.

Three things can happen at a look.  A frame that has not arrived in full is waited for, and the
buffer stays as it is.  A frame that is there is taken off, with its message or, if the tag is
unknown, with a note that it was passed over.  And a size that no frame can have, or a body that is
not what its tag says, is an error.

`next` takes bytes off the buffer whenever it found a whole frame, be it a good one or not.  Only a
size that no frame can have leaves the buffer as it is, since nothing says where the next frame
starts.  `items` looks until a look takes no frame, and comes to an end because each one that does
leaves fewer bytes (`length_next_lt`); it does not look again after an error.
-/
namespace MarketRelay

inductive StreamItem where
  | message (m : Message)
  /-- A frame whose tag is in no catalog, passed over. -/
  | unknown (tag : UInt16) (size : Nat)
deriving DecidableEq, Repr

inductive StreamRead where
  /-- No whole frame is there yet. -/
  | pending
  /-- A frame was taken off the buffer. -/
  | item (item : StreamItem)
  | failed (error : DecodeError)
deriving DecidableEq, Repr

namespace Stream

def itemOf : Except DecodeError Message → StreamRead
  | .ok m => .item (.message m)
  | .error (.unknownType tag size) => .item (.unknown tag size)
  | .error e => .failed e

/-- Takes the next frame of at most `limit` bytes off the buffer. -/
def next (limit : Nat) (buffer : List UInt8) : StreamRead × List UInt8 :=
  match Header.read buffer with
  | .error _ => (.pending, buffer)
  | .ok h =>
    if !h.fits limit then (.failed (.sizeMismatch h.size.toNat buffer.length limit), buffer)
    else if buffer.length < h.size.toNat then (.pending, buffer)
    else
      (itemOf (Message.decode limit (buffer.take h.size.toNat)), buffer.drop h.size.toNat)

theorem length_next_lt {limit : Nat} {buffer rest : List UInt8} {item : StreamItem}
    (h : next limit buffer = (.item item, rest)) : rest.length < buffer.length := by
  unfold next at h
  split at h
  · simp at h
  · next header _ =>
    split at h
    · simp at h
    · next hfits =>
      split at h
      · simp at h
      · next hlen =>
        simp only [Prod.mk.injEq] at h
        have hsize : headerSize ≤ header.size.toNat := by
          simp [Header.fits] at hfits
          exact hfits.1
        rw [← h.2, List.length_drop]
        simp [headerSize] at hsize
        omega

/-! ## Whole buffers -/

/-- How the frames of a buffer end: with bytes that wait for more, or with an error, behind which
nothing can be read. -/
inductive Ending where
  | pending (rest : List UInt8)
  | failed (error : DecodeError)
deriving DecidableEq, Repr

/-- The frames of a buffer, and how they end. -/
def items (limit : Nat) (buffer : List UInt8) : List StreamItem × Ending :=
  match h : next limit buffer with
  | (.pending, rest) => ([], .pending rest)
  | (.failed e, _) => ([], .failed e)
  | (.item item, rest) =>
    have := length_next_lt h
    let (more, ending) := items limit rest
    (item :: more, ending)
termination_by buffer.length

end Stream
end MarketRelay
