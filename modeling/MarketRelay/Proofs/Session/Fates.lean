import MarketRelay.Proofs.Session.Accounting

/-!
# What becomes of frames

A frame that a queue accepted waits until it is handed over or evicted.  `departures` lists the
frames that left, in order, each with the way in which it did.

* `fifo_run`: the frames that left, followed by those that wait, are those that were accepted, in
  the same order.  Frames leave at the front and are accepted at the end, whatever is done
  (`fifo_step`).
* `dropped_le_evicted`: so all that was evicted by some moment had been accepted before what is
  accepted from then on.

A drain is the departure of many frames at once, and a push that evicts that of one.
-/
namespace MarketRelay

inductive Fate where
  | delivered
  | evicted
deriving DecidableEq

/-- A frame that left a queue. -/
structure Departure where
  frame : List UInt8
  fate : Fate
deriving DecidableEq

/-- The frames among some that left in a given way. -/
def Departure.framesOf (fate : Fate) (departures : List Departure) : List (List UInt8) :=
  (departures.filter (·.fate = fate)).map (·.frame)

theorem Departure.framesOf_append (fate : Fate) (early late : List Departure) :
    framesOf fate (early ++ late) = framesOf fate early ++ framesOf fate late := by
  rw [framesOf, List.filter_append, List.map_append, framesOf, framesOf]

theorem Departure.framesOf_map (fate fate' : Fate) (frames : List (List UInt8)) :
    framesOf fate (frames.map fun frame => ⟨frame, fate'⟩) =
      if fate' = fate then frames else [] := by
  induction frames with
  | nil => exact (ite_self _).symm
  | cons frame frames ih =>
      rw [List.map_cons, ← List.singleton_append, framesOf_append, ih]
      by_cases heq : fate' = fate <;> simp [framesOf, heq]

namespace OutboundQueue

/-! ## One operation -/

def leavingBy (q : OutboundQueue) : Fate → QueueOp → List (List UInt8)
  | .delivered => q.handedOverBy
  | .evicted => q.evictedBy

/-- The frames that leave the queue with an operation. -/
def leaving (q : OutboundQueue) (op : QueueOp) : List Departure :=
  (q.evictedBy op).map (fun frame => ⟨frame, .evicted⟩) ++
    (q.handedOverBy op).map fun frame => ⟨frame, .delivered⟩

theorem framesOf_leaving (fate : Fate) (q : OutboundQueue) (op : QueueOp) :
    Departure.framesOf fate (q.leaving op) = q.leavingBy fate op := by
  rw [leaving, Departure.framesOf_append, Departure.framesOf_map, Departure.framesOf_map]
  cases fate with
  | delivered => rfl
  | evicted => exact List.append_nil _

theorem fifo_step (q : OutboundQueue) (op : QueueOp) :
    (q.leaving op).map (·.frame) ++ (q.step op).frames = q.frames ++ q.acceptedBy op := by
  rw [leaving, List.map_append, List.map_map, List.map_map]
  cases op with
  | push frame =>
      show (q.evictedBy (.push frame)).map id ++ [] ++ (q.push frame).frames = _
      rw [List.map_id, List.append_nil, evictedBy, acceptedBy, isAccepted_outcome]
      cases hclosed : q.isClosed with
      | true =>
          rw [push_of_isClosed hclosed, if_neg fun h => ?_]
          · exact (List.append_nil _).symm
          · exact Bool.false_ne_true ((outcome_eq_droppedOldest_iff.mp h).1.symm.trans hclosed)
      | false =>
          rw [frames_push_of_isOpen hclosed]
          cases hfull : q.isFull with
          | true =>
              rw [if_pos (outcome_eq_droppedOldest_iff.mpr ⟨hclosed, hfull⟩), if_pos rfl,
                ← List.append_assoc, List.take_append_drop]
              rfl
          | false =>
              rw [outcome_eq_queued_iff.mpr ⟨hclosed, hfull⟩]
              rfl
  | drain => exact congrArg (· ++ []) (List.map_id _)
  | close => exact (List.append_nil _).symm

/-! ## Operations one after another -/

variable (c : Nat) (ops : List QueueOp)

def departures (c : Nat) (ops : List QueueOp) : List Departure := gather leaving (empty c) ops

theorem departures_concat (op : QueueOp) :
    departures c (ops ++ [op]) = departures c ops ++ ((empty c).run ops).leaving op :=
  gather_concat leaving (empty c) ops op

theorem departures_isPrefix (before after : List QueueOp) :
    departures c before <+: departures c (before ++ after) :=
  ⟨_, (gather_append leaving (empty c) before after).symm⟩

/-- First come, first gone. -/
theorem fifo_run :
    (departures c ops).map (·.frame) ++ ((empty c).run ops).frames =
      gather acceptedBy (empty c) ops := by
  induction ops using List.reverseRecOn with
  | nil => rfl
  | append_singleton ops op ih =>
      rw [departures_concat, gather_concat, run_concat, List.map_append, List.append_assoc,
        fifo_step, ← List.append_assoc, ih]

theorem framesOf_departures (fate : Fate) :
    Departure.framesOf fate (departures c ops) = gather (leavingBy · fate) (empty c) ops := by
  induction ops using List.reverseRecOn with
  | nil => rfl
  | append_singleton ops op ih =>
      rw [departures_concat, gather_concat, Departure.framesOf_append, ih, framesOf_leaving]

theorem length_framesOf_departures_evicted :
    (Departure.framesOf .evicted (departures c ops)).length = ((empty c).run ops).dropped := by
  rw [framesOf_departures, dropped_run]
  rfl

/-- What was evicted by some moment is among the frames that were accepted before it. -/
theorem dropped_le_evicted (before after : List QueueOp) :
    ((empty c).run before).dropped ≤
      (Departure.framesOf .evicted ((departures c (before ++ after)).take
        (gather acceptedBy (empty c) before).length)).length := by
  have hlength : (departures c before).length ≤ (gather acceptedBy (empty c) before).length := by
    rw [← fifo_run, List.length_append, List.length_map]
    exact Nat.le_add_right _ _
  obtain ⟨late, hlate⟩ := (departures_isPrefix c before after)
  rw [← length_framesOf_departures_evicted, ← hlate, List.take_append, Departure.framesOf_append,
    List.take_of_length_le hlength, List.length_append]
  exact Nat.le_add_right _ _

end OutboundQueue
end MarketRelay
