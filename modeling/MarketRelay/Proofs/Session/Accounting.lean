import MarketRelay.Proofs.Recent
import MarketRelay.Proofs.Session.Queue
import Mathlib.Data.List.Induction

/-!
# The books of a queue

A queue is pushed frames on, drained and, at some time, closed, in any order (`QueueOp`).  Of the
frames that it accepted since it was last drained the last ones wait, as many as there is room for.
So a drain hands over just these, every frame that was accepted was handed over, waits or was
evicted, and the answer to the next push is known from what was done before.

What there is to tell of operations is gathered along a run, each as it finds the queue (`gather`),
and anew since the last drain (`gatherRecent`).  The runs start from an empty queue and the
inductions go from the end, so a step is one more operation at the end of a run.

* `frames_run`: what waits.  One push is `rtake_concat_of_pos`.
* `balance_run`: accepted frames are handed over, wait or were evicted.
* `dropped_run`, `dropped_run_le`: what the queue counts as evicted is what was, and it is at most
  one frame for each operation.
* `accounts_run`: all of it.  A queue that is made with room for no frame has room for one.
-/
namespace MarketRelay

/-- What can be done to a queue. -/
inductive QueueOp where
  | push (frame : List UInt8)
  | drain
  | close
deriving DecidableEq

def QueueOp.isNoDrain : QueueOp → Bool
  | .drain => false
  | _ => true

namespace OutboundQueue

variable {q : OutboundQueue} {op : QueueOp}

def step (q : OutboundQueue) : QueueOp → OutboundQueue
  | .push frame => q.push frame
  | .drain => q.drain
  | .close => q.close

def run (q : OutboundQueue) (ops : List QueueOp) : OutboundQueue := ops.foldl step q

theorem run_append (q : OutboundQueue) (before after : List QueueOp) :
    q.run (before ++ after) = (q.run before).run after :=
  List.foldl_append

theorem run_concat (q : OutboundQueue) (ops : List QueueOp) (op : QueueOp) :
    q.run (ops ++ [op]) = (q.run ops).step op :=
  run_append q ops [op]

/-! ## What goes in and out -/

/-- The frames that the queue accepts with an operation. -/
def acceptedBy (q : OutboundQueue) : QueueOp → List (List UInt8)
  | .push frame => if q.outcome.isAccepted then [frame] else []
  | _ => []

def evictedBy (q : OutboundQueue) : QueueOp → List (List UInt8)
  | .push _ => if q.outcome = .droppedOldest then q.frames.take 1 else []
  | _ => []

def handedOverBy (q : OutboundQueue) : QueueOp → List (List UInt8)
  | .drain => q.frames
  | _ => []

/-- What there is to tell of operations, in order, each as it finds the queue. -/
def gather {α : Type} (f : OutboundQueue → QueueOp → List α) :
    OutboundQueue → List QueueOp → List α
  | _, [] => []
  | q, op :: ops => f q op ++ gather f (q.step op) ops

/-- What there is to tell of the operations since the queue was last drained. -/
def gatherRecent {α : Type} (f : OutboundQueue → QueueOp → List α) (q : OutboundQueue)
    (ops : List QueueOp) : List α :=
  gather f (q.run (ops.rdropWhile QueueOp.isNoDrain)) (ops.rtakeWhile QueueOp.isNoDrain)

variable {α : Type} (f : OutboundQueue → QueueOp → List α)

theorem gather_append (q : OutboundQueue) (before after : List QueueOp) :
    gather f q (before ++ after) = gather f q before ++ gather f (q.run before) after := by
  induction before generalizing q with
  | nil => rfl
  | cons op before ih =>
      rw [List.cons_append, gather, gather, ih, List.append_assoc]
      rfl

theorem gather_concat (q : OutboundQueue) (ops : List QueueOp) (op : QueueOp) :
    gather f q (ops ++ [op]) = gather f q ops ++ f (q.run ops) op := by
  rw [gather_append, gather, gather, List.append_nil]

theorem gatherRecent_drain (q : OutboundQueue) (ops : List QueueOp) :
    gatherRecent f q (ops ++ [.drain]) = [] := by
  rw [gatherRecent, List.rtakeWhile_concat_neg _ _ _ Bool.false_ne_true, gather]

theorem gatherRecent_concat (q : OutboundQueue) (ops : List QueueOp) (h : op.isNoDrain = true) :
    gatherRecent f q (ops ++ [op]) = gatherRecent f q ops ++ f (q.run ops) op := by
  rw [gatherRecent, List.rtakeWhile_concat_pos _ _ _ h, List.rdropWhile_concat_pos _ _ _ h,
    gather_concat, ← run_append, List.rdropWhile_append_rtakeWhile, gatherRecent]

/-! ## One operation -/

theorem outcome_eq_closed_iff : q.outcome = .closed ↔ q.isClosed = true := by
  unfold outcome
  cases q.isClosed <;> cases q.isFull <;> simp

theorem outcome_eq_droppedOldest_iff :
    q.outcome = .droppedOldest ↔ q.isClosed = false ∧ q.isFull = true := by
  unfold outcome
  cases q.isClosed <;> cases q.isFull <;> simp

theorem outcome_eq_queued_iff :
    q.outcome = .queued ↔ q.isClosed = false ∧ q.isFull = false := by
  unfold outcome
  cases q.isClosed <;> cases q.isFull <;> simp

theorem capacity_push (q : OutboundQueue) (frame : List UInt8) :
    (q.push frame).capacity = q.capacity := by
  unfold push
  split <;> rfl

theorem capacity_step (q : OutboundQueue) (op : QueueOp) : (q.step op).capacity = q.capacity := by
  cases op with
  | push frame => exact q.capacity_push frame
  | _ => rfl

theorem isClosed_step (q : OutboundQueue) (op : QueueOp) :
    (q.step op).isClosed = (q.isClosed || op == .close) := by
  cases op with
  | push frame => exact (q.isClosed_push frame).trans (Bool.or_false _).symm
  | drain => exact (Bool.or_false _).symm
  | close => exact (Bool.or_true _).symm

theorem size_push_of_isOpen (h : q.isClosed = false) (frame : List UInt8) :
    (q.push frame).size = (if q.isFull then q.size - 1 else q.size) + 1 := by
  rw [size, frames_push_of_isOpen h, List.length_append, List.length_singleton]
  split
  · rw [List.length_drop, size]
  · rfl

/-- With every operation the frames that are accepted make up for those that are handed over, wait
or are evicted from then on. -/
theorem balance_step (h : 0 < q.capacity) (op : QueueOp) :
    (q.acceptedBy op).length + q.size + q.dropped =
      (q.handedOverBy op).length + (q.step op).size + (q.step op).dropped := by
  cases op with
  | push frame =>
      cases hclosed : q.isClosed with
      | true =>
          rw [step, push_of_isClosed hclosed, acceptedBy, isAccepted_outcome, hclosed]
          rfl
      | false =>
          rw [step, size_push_of_isOpen hclosed, dropped_push, evicts_of_isOpen hclosed,
            acceptedBy, isAccepted_outcome, hclosed, handedOverBy]
          · cases hfull : q.isFull with
            | true =>
                have hsome : 0 < q.size := Nat.lt_of_lt_of_le h (of_decide_eq_true hfull)
                simp only [Bool.not_false, if_true, List.length_singleton, List.length_nil,
                  Bool.toNat_true]
                omega
            | false =>
                simp only [Bool.not_false, if_true, List.length_singleton, List.length_nil,
                  Bool.toNat_false, Bool.false_eq_true, if_false]
                omega
          · exact nofun
  | drain =>
      show 0 + q.size + q.dropped = q.size + 0 + q.dropped
      rw [Nat.zero_add, Nat.add_zero]
  | close => rfl

theorem length_evictedBy_push (h : 0 < q.capacity) (frame : List UInt8) :
    (q.evictedBy (.push frame)).length = q.evicts.toNat := by
  rw [evictedBy, evicts]
  cases houtcome : q.outcome with
  | droppedOldest =>
      obtain ⟨-, hfull⟩ := outcome_eq_droppedOldest_iff.mp houtcome
      have hsome : 0 < q.frames.length := Nat.lt_of_lt_of_le h (of_decide_eq_true hfull)
      rw [if_pos rfl, List.length_take, Nat.min_eq_left hsome]
      rfl
  | queued => rfl
  | closed => rfl

theorem dropped_step (h : 0 < q.capacity) (op : QueueOp) :
    (q.step op).dropped = q.dropped + (q.evictedBy op).length := by
  cases op with
  | push frame => rw [length_evictedBy_push h, step, dropped_push]
  | drain => rfl
  | close => rfl

theorem isLagging_push (q : OutboundQueue) (frame : List UInt8) :
    (q.push frame).isLagging = (q.isLagging || q.evicts) := by
  unfold push evicts
  cases q.outcome <;> simp

/-! ## What waits -/

variable (c : Nat) (ops : List QueueOp)

theorem capacity_run : ((empty c).run ops).capacity = max c 1 := by
  induction ops using List.reverseRecOn with
  | nil => rfl
  | append_singleton ops op ih => rw [run_concat, capacity_step, ih]

theorem isClosed_run : ((empty c).run ops).isClosed = decide (.close ∈ ops) := by
  induction ops using List.reverseRecOn with
  | nil => rfl
  | append_singleton ops op ih =>
      rw [run_concat, isClosed_step, ih]
      cases op <;> simp

/-- The frames accepted since the last drain by a queue that had room for so many from the start. -/
def pending (c : Nat) (ops : List QueueOp) : List (List UInt8) :=
  gatherRecent acceptedBy (empty c) ops

/-- Of the frames accepted since the last drain the last ones wait, as many as there is room for. -/
theorem frames_run : ((empty c).run ops).frames = (pending c ops).rtake (max c 1) := by
  induction ops using List.reverseRecOn with
  | nil => exact (List.rtake_nil _).symm
  | append_singleton ops op ih =>
      rw [run_concat, pending]
      cases op with
      | drain =>
          rw [gatherRecent_drain, List.rtake_nil]
          rfl
      | close =>
          rw [gatherRecent_concat _ _ _ rfl]
          exact ih.trans (congrArg (List.rtake · _) (List.append_nil _).symm)
      | push frame =>
          rw [gatherRecent_concat _ _ _ rfl, ← pending, acceptedBy, isAccepted_outcome, step]
          cases hclosed : ((empty c).run ops).isClosed with
          | true =>
              rw [push_of_isClosed hclosed, ih]
              exact congrArg (List.rtake · _) (List.append_nil _).symm
          | false =>
              have hroom := rtake_concat_of_pos (n := max c 1) (by omega) (pending c ops) frame
              rw [frames_push_of_isOpen hclosed, ih]
              simpa [isFull, size, capacity_run, ih] using hroom

/-! ## The books -/

theorem capacity_run_pos : 0 < ((empty c).run ops).capacity := by
  rw [capacity_run]
  exact Nat.lt_of_lt_of_le Nat.one_pos (Nat.le_max_right c 1)

theorem balance_run :
    (gather acceptedBy (empty c) ops).length =
      (gather handedOverBy (empty c) ops).length + ((empty c).run ops).size +
        ((empty c).run ops).dropped := by
  induction ops using List.reverseRecOn with
  | nil => rfl
  | append_singleton ops op ih =>
      have hstep := balance_step (capacity_run_pos c ops) op
      rw [gather_concat, gather_concat, run_concat, List.length_append, List.length_append]
      omega

theorem dropped_run :
    ((empty c).run ops).dropped = (gather evictedBy (empty c) ops).length := by
  induction ops using List.reverseRecOn with
  | nil => rfl
  | append_singleton ops op ih =>
      rw [gather_concat, run_concat, List.length_append, dropped_step (capacity_run_pos c ops), ih]

/-- Each operation evicts one frame at most, so that a 64-bit word holds the number of evictions for
as many operations as it can count. -/
theorem dropped_run_le : ((empty c).run ops).dropped ≤ ops.length := by
  induction ops using List.reverseRecOn with
  | nil => exact Nat.le_refl 0
  | append_singleton ops op ih =>
      have hstep : (((empty c).run ops).step op).dropped ≤ ((empty c).run ops).dropped + 1 := by
        cases op with
        | push frame =>
            rw [step, dropped_push]
            exact Nat.add_le_add_left (Bool.toNat_le _) _
        | drain => exact Nat.le_succ _
        | close => exact Nat.le_succ _
      rw [run_concat, List.length_append, List.length_singleton]
      omega

theorem isLagging_run :
    ((empty c).run ops).isLagging = true ↔ gatherRecent evictedBy (empty c) ops ≠ [] := by
  induction ops using List.reverseRecOn with
  | nil => exact iff_of_false Bool.false_ne_true fun h => h rfl
  | append_singleton ops op ih =>
      rw [run_concat]
      cases op with
      | drain =>
          rw [gatherRecent_drain]
          exact iff_of_false Bool.false_ne_true fun h => h rfl
      | close =>
          rw [gatherRecent_concat _ _ _ rfl, evictedBy, List.append_nil]
          · exact ih
          · exact nofun
      | push frame =>
          have hevicts : ((empty c).run ops).evictedBy (.push frame) ≠ [] ↔
              ((empty c).run ops).evicts = true := by
            rw [← List.length_pos_iff, length_evictedBy_push (capacity_run_pos c ops)]
            cases ((empty c).run ops).evicts <;> simp
          rw [gatherRecent_concat _ _ _ rfl, step, isLagging_push, Bool.or_eq_true, ih, ← hevicts,
            ne_eq, ne_eq, ne_eq, List.append_eq_nil_iff, not_and_or]

theorem size_run_le : ((empty c).run ops).size ≤ max c 1 := by
  rw [size, frames_run, length_rtake]
  exact Nat.min_le_left _ _

/-- What is known of a queue from what was done to it, where it had room for so many frames from
the start, or for one. -/
structure Accounts (c : Nat) (ops : List QueueOp) (q : OutboundQueue) : Prop where
  /-- A drain hands over the last ones of the frames accepted since the drain before, in order. -/
  handedOver : q.handedOverBy .drain =
    (pending c ops).rtake (min (pending c ops).length (max c 1))
  size_le : q.size ≤ max c 1
  /-- Every frame that was accepted was handed over, waits or was evicted. -/
  balance : (gather acceptedBy (empty c) ops).length =
    (gather handedOverBy (empty c) ops).length + q.size + q.dropped
  dropped : q.dropped = (gather evictedBy (empty c) ops).length
  droppedOldest : q.outcome = .droppedOldest ↔ .close ∉ ops ∧ q.size = max c 1
  queued : q.outcome = .queued ↔ .close ∉ ops ∧ q.size < max c 1
  closed : q.outcome = .closed ↔ .close ∈ ops
  refused : .close ∈ ops → ∀ frame, q.push frame = q
  lagging : q.isLagging = true ↔ gatherRecent evictedBy (empty c) ops ≠ []
  /-- A close takes none of the frames that wait. -/
  close : (q.step .close).handedOverBy .drain = q.handedOverBy .drain

/-- **The books of a queue.**  Whatever is done to a queue, and in which order, what waits in it,
what it tells of itself and what becomes of the next frame follow from what was done. -/
theorem accounts_run : Accounts c ops ((empty c).run ops) := by
  have hsize := size_run_le c ops
  have hclosed := isClosed_run c ops
  have hopen : ((empty c).run ops).isClosed = false ↔ .close ∉ ops := by
    rw [hclosed, decide_eq_false_iff_not]
  constructor
  case handedOver =>
    show ((empty c).run ops).frames = _
    rw [frames_run, List.rtake, List.rtake]
    congr 1
    omega
  case size_le => exact hsize
  case balance => exact balance_run c ops
  case dropped => exact dropped_run c ops
  case droppedOldest =>
    rw [outcome_eq_droppedOldest_iff, hopen, isFull, capacity_run, decide_eq_true_eq]
    exact and_congr_right fun _ => hsize.ge_iff_eq
  case queued =>
    rw [outcome_eq_queued_iff, hopen, isFull, capacity_run, decide_eq_false_iff_not, Nat.not_le]
  case closed => rw [outcome_eq_closed_iff, hclosed, decide_eq_true_eq]
  case refused =>
    intro hclose frame
    exact push_of_isClosed (hclosed.trans (decide_eq_true hclose)) frame
  case lagging => exact isLagging_run c ops
  case close => rfl

end OutboundQueue
end MarketRelay
