import MarketRelay.Proofs.Session.Queue
import MarketRelay.Server.Basic

/-!
# Runs of a relay

A relay goes from one state to the next in whole steps, in any order.  A message of a client is
handled and what is left to do is done in one step; the two happen at moments of their own.

Steps are what can happen to a relay by whoever may call it: somebody connects, a message arrives,
an event is published, the relay looks for signs of life, frames are drained, a session is closed,
the server stops.  Nothing is said about which steps make sense after which, so what holds after
every run holds however a relay is used.  The functions that run are steps: `process` is a message
whose moments are one (`step_message_eq_process`), and `Server.stop` is a stop of the relay
(`relay_stop`).

What the queue of a session takes in a run is told step by step (`accepted`), and so are the frames
that its drains hand over to the client (`taken`).
-/
namespace MarketRelay

/-! ## Steps -/

inductive Step where
  | enlist (peer : SocketAddress) (now : Instant)
  | message (id : SessionId) (m : Message) (handledAt appliedAt : Instant)
  | publish (e : MarketEvent) (elapsed : Nat)
  | sweep (l : Liveness) (now : Instant) (clock : Int64)
  | drain (id : SessionId)
  | close (id : SessionId) (reason : CloseReason)
  /-- Takes leave of all listed sessions, as a running server does when it is stopped. -/
  | stop
deriving DecidableEq

namespace Relay

/-- The relay after it took leave of all listed sessions. -/
def shutDown (r : Relay) : Relay :=
  (r.registry.listed.map (·.id)).foldl Server.shutDownSession r

/-- The relay after a step.  An admission for which there is no room changes nothing. -/
def step (r : Relay) : Step → Relay
  | .enlist peer now =>
    match r.enlist peer now with
    | .ok (_, r') => r'
    | .error _ => r
  | .message id m handledAt appliedAt =>
    let (r', effects) := r.handle id m handledAt
    (r'.apply id appliedAt effects).1
  | .publish e elapsed => (r.publish e elapsed).2
  | .sweep l now clock => (r.sweep l now clock).1
  | .drain id => (r.drain id).2
  | .close id reason => (r.close id reason).1
  | .stop => r.shutDown

def run (r : Relay) (steps : List Step) : Relay := steps.foldl step r

@[simp] theorem run_nil (r : Relay) : r.run [] = r := rfl

@[simp] theorem run_cons (r : Relay) (st : Step) (steps : List Step) :
    r.run (st :: steps) = (r.step st).run steps := rfl

theorem run_append (r : Relay) (before after : List Step) :
    r.run (before ++ after) = (r.run before).run after :=
  List.foldl_append

/-- What holds of a relay and is kept by every step holds after every run. -/
theorem run_induction {P : Relay → Prop} (hstep : ∀ r st, P r → P (r.step st)) {r : Relay}
    (h : P r) (steps : List Step) : P (r.run steps) := by
  induction steps generalizing r with
  | nil => exact h
  | cons st steps ih => exact ih (hstep r st h)

theorem step_message_eq_process (r : Relay) (id : SessionId) (m : Message) (now : Instant) :
    r.step (.message id m now now) = (r.process id m now).1 := rfl

theorem relay_stop {s : Server} (h : s.isRunning = true) : s.stop.relay = s.relay.step .stop := by
  rw [Server.stop, if_pos h]
  rfl

end Relay

namespace Server

theorem stop_of_not_isRunning {s : Server} (h : s.isRunning = false) : s.stop = s := by
  rw [stop, h, if_neg Bool.false_ne_true]

theorem relay_of_start {s s' : Server} {bind : SocketAddress → Option SocketAddress}
    {now : Instant} (h : s.start bind now = .ok s') : s'.relay = s.relay := by
  unfold start at h
  split at h
  · cases h
  · split at h
    · cases h
    · split at h
      · cases h
      · cases h
        rfl

end Server

/-! ## What goes through a queue -/

namespace Relay

def queue (r : Relay) (id : SessionId) : OutboundQueue :=
  ((r.session? id).map (·.queue)).getD (.empty 0)

/-- The frames that the queue of a session takes in a run, in order. -/
def accepted (id : SessionId) : Relay → List Step → List (List UInt8)
  | _, [] => []
  | r, st :: steps =>
    OutboundQueue.newFrames (r.queue id) ((r.step st).queue id) ++ accepted id (r.step st) steps

def handedOver (r : Relay) (id : SessionId) : Step → List (List UInt8)
  | .drain id' => if id' = id then (r.drain id).1 else []
  | _ => []

/-- The frames that a run hands over to the client of a session, in order. -/
def taken (id : SessionId) : Relay → List Step → List (List UInt8)
  | _, [] => []
  | r, st :: steps => r.handedOver id st ++ taken id (r.step st) steps

/-- The frames that the client of a session has been handed over or has coming, in order. -/
def received (r : Relay) (id : SessionId) (steps : List Step) : List (List UInt8) :=
  taken id r steps ++ ((r.run steps).queue id).frames

theorem taken_append (id : SessionId) (r : Relay) (before after : List Step) :
    taken id r (before ++ after) = taken id r before ++ taken id (r.run before) after := by
  induction before generalizing r with
  | nil => rfl
  | cons st before ih => rw [List.cons_append, taken, taken, ih, List.append_assoc, run_cons]

end Relay
end MarketRelay
