import MarketRelay.Session.Basic

/-!
# What goes through a queue

What a queue took in is read off the queue itself: a queue that was not drained took, since an
earlier look at it, as many frames as its length and its count of evictions have grown by, and
these stand at its end.  `newFrames q q'` is that.  It asks nothing of whoever pushed the frames, so
it can be used of two states of a relay without following what happened between them.

The lemmas are about one operation.  A push adds its frame unless the queue is closed
(`newFrames_push`) and evicts one if it is full (`dropped_push`); a drain and a close add none.
`evicts` asks before a push what would happen, which is how steps are described in advance.
-/
namespace MarketRelay
namespace OutboundQueue

def entered (q : OutboundQueue) : Nat := q.dropped + q.size

/-- The frames that a queue took between two looks at it. -/
def newFrames (q q' : OutboundQueue) : List (List UInt8) :=
  q'.frames.drop (q'.size - (q'.entered - q.entered))

/-! ## One operation -/

theorem newFrames_of_frames_eq {q q' : OutboundQueue} (hframes : q'.frames = q.frames)
    (hdropped : q'.dropped = q.dropped) : newFrames q q' = [] := by
  simp [newFrames, entered, size, hframes, hdropped]

/-- A queue takes a frame unless it is closed. -/
theorem newFrames_push (q : OutboundQueue) (frame : List UInt8) :
    newFrames q (q.push frame) = if q.isClosed then [] else [frame] := by
  cases hclosed : q.isClosed with
  | true => simpa [push, outcome, hclosed] using newFrames_of_frames_eq rfl rfl
  | false =>
      cases hfull : q.isFull with
      | true =>
          have hend : q.frames.length - 1 + 1 - (q.dropped + 1 + (q.frames.length - 1 + 1) -
              (q.dropped + q.frames.length)) = q.frames.length - 1 := by omega
          simp [newFrames, push, outcome, hclosed, hfull, entered, size, hend]
      | false =>
          simp [newFrames, push, outcome, hclosed, hfull, entered, size, Nat.add_sub_add_left]

theorem push_of_isClosed {q : OutboundQueue} (h : q.isClosed = true) (frame : List UInt8) :
    q.push frame = q := by
  simp [push, outcome, h]

theorem newFrames_drain (q : OutboundQueue) : newFrames q q.drain = [] :=
  List.drop_nil

theorem dropped_le_push (q : OutboundQueue) (frame : List UInt8) :
    q.dropped ≤ (q.push frame).dropped := by
  unfold push
  split
  · exact Nat.le_refl q.dropped
  · exact Nat.le_refl q.dropped
  · exact Nat.le_succ q.dropped

theorem frames_push {q : OutboundQueue} {frame : List UInt8}
    (h : (q.push frame).dropped = q.dropped) :
    (q.push frame).frames = q.frames ++ newFrames q (q.push frame) := by
  rw [newFrames_push]
  unfold push at h ⊢
  cases hclosed : q.isClosed with
  | true => simp [outcome, hclosed]
  | false =>
      cases hfull : q.isFull with
      | true => simp [outcome, hclosed, hfull] at h
      | false => simp [outcome, hclosed, hfull]

theorem frames_push_sublist (q : OutboundQueue) (frame : List UInt8) :
    (q.push frame).frames.Sublist (q.frames ++ newFrames q (q.push frame)) := by
  rw [newFrames_push]
  unfold push
  cases hclosed : q.isClosed with
  | true => simp [outcome, hclosed]
  | false =>
      cases hfull : q.isFull with
      | true =>
          simp only [outcome, hclosed, hfull, Bool.false_eq_true, if_false, if_true]
          exact (List.drop_sublist 1 q.frames).append_right [frame]
      | false => simp [outcome, hclosed, hfull]

theorem isAccepted_outcome (q : OutboundQueue) : q.outcome.isAccepted = !q.isClosed := by
  unfold outcome
  cases q.isClosed <;> cases q.isFull <;> rfl

@[simp] theorem isClosed_push (q : OutboundQueue) (frame : List UInt8) :
    (q.push frame).isClosed = q.isClosed := by
  unfold push
  split <;> rfl

/-! ## Evictions -/

def evicts (q : OutboundQueue) : Bool := q.outcome == .droppedOldest

theorem dropped_push (q : OutboundQueue) (frame : List UInt8) :
    (q.push frame).dropped = q.dropped + q.evicts.toNat := by
  unfold push evicts
  cases q.outcome <;> rfl

theorem evicts_of_isOpen {q : OutboundQueue} (h : q.isClosed = false) : q.evicts = q.isFull := by
  unfold evicts outcome
  rw [h]
  cases q.isFull <;> rfl

/-- A queue that takes frames keeps all that wait before a new one, but for the oldest one if there
was no room. -/
theorem frames_push_of_isOpen {q : OutboundQueue} (h : q.isClosed = false) (frame : List UInt8) :
    (q.push frame).frames = (if q.isFull then q.frames.drop 1 else q.frames) ++ [frame] := by
  cases hfull : q.isFull <;> simp [push, outcome, h, hfull]

end OutboundQueue
end MarketRelay
