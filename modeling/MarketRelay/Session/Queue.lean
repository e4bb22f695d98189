/-!
# Outbound queues

The frames that wait for a client, at most `capacity` of them: a frame too many evicts the oldest
one.  A closed queue takes no more frames, and what it holds can still be drained.

A queue never blocks who pushes on it.  A slow client loses the oldest of what it has not read yet,
and the queue keeps track of that in two ways: `dropped` counts every eviction since the queue was
made, which is what heartbeats tell the client, and `isLagging` says that there was one since the
queue was last drained.

What becomes of a frame is decided by `outcome`, before it is pushed, and `push` does as that says.

The number of evictions is a natural number.  As a word of 64 bits it starts anew after the last
one; a queue evicts at most one frame with each operation (`OutboundQueue.dropped_run_le`), so the
two are the same for the first 2⁶⁴ − 1 operations.
-/
namespace MarketRelay

inductive PushOutcome where
  | queued
  /-- Queued in the place of the oldest frame. -/
  | droppedOldest
  /-- Refused: the queue is closed. -/
  | closed
deriving DecidableEq, Repr

def PushOutcome.isAccepted : PushOutcome → Bool
  | .closed => false
  | _ => true

structure OutboundQueue where
  capacity : Nat
  frames : List (List UInt8)
  /-- The number of frames evicted so far. -/
  dropped : Nat
  /-- A frame was evicted since the queue was last drained. -/
  isLagging : Bool
  isClosed : Bool
deriving DecidableEq, Repr

namespace OutboundQueue

/-- An empty queue; a queue has room for at least one frame. -/
def empty (capacity : Nat) : OutboundQueue := ⟨max capacity 1, [], 0, false, false⟩

def size (q : OutboundQueue) : Nat := q.frames.length

/-- One more frame evicts the oldest one. -/
def isFull (q : OutboundQueue) : Bool := q.capacity ≤ q.size

def outcome (q : OutboundQueue) : PushOutcome :=
  if q.isClosed then .closed else if q.isFull then .droppedOldest else .queued

def push (q : OutboundQueue) (frame : List UInt8) : OutboundQueue :=
  match q.outcome with
  | .closed => q
  | .queued => { q with frames := q.frames ++ [frame] }
  | .droppedOldest =>
    { q with frames := q.frames.drop 1 ++ [frame], dropped := q.dropped + 1, isLagging := true }

def drain (q : OutboundQueue) : OutboundQueue := { q with frames := [], isLagging := false }

def close (q : OutboundQueue) : OutboundQueue := { q with isClosed := true }

end OutboundQueue
end MarketRelay
