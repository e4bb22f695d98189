import MarketRelay.Session.Basic

/-!
# The registry

All sessions a relay ever admitted, in order of their numbers, and which of them are still listed.
At most `maxClients` sessions are listed at a time.  A session that left the list is kept: who held
on to it can still look at it, but it counts no more and market data passes it by.

* `enlist` admits a session under the number `nextId`, which advances with each admission and with
  nothing else, so a refused admission uses up no number and no number is used twice.
* `authenticate` passes an accepted logon on to a listed session; its answer is whether that
  authenticated the session.
* `close` takes a session off the list; its answer is whether the session was on it.  Only the call
  that also ended the session counts and is told.
* `closeAll` closes every listed session and answers how many of these calls found theirs listed.

Every admission, first logon and end is told to observers as an event, in this order for each
session.

The number of a session and the number of closed sessions are natural numbers.  As words of 64 bits
they start anew after the last one, which no run of fewer than 2⁶⁴ − 1 steps comes to
(`Service.toNat_counts`).
-/
namespace MarketRelay

/-- What observers are told of sessions. -/
inductive SessionEvent where
  | connected (id : SessionId) (peer : SocketAddress)
  | authenticated (id : SessionId) (username : String)
  /-- The end of a session, told once. -/
  | disconnected (id : SessionId) (reason : CloseReason)
deriving DecidableEq

structure Registry where
  maxClients : Nat
  /-- All sessions ever admitted. -/
  sessions : List Session
  nextId : SessionId
  /-- The number of sessions that ended. -/
  closedTotal : Nat
  events : List SessionEvent
deriving DecidableEq

structure CapacityExceeded where
  maxClients : Nat
deriving DecidableEq, Repr

def CapacityExceeded.message (e : CapacityExceeded) : String :=
  s!"session limit of {e.maxClients} reached"

namespace Registry

def empty (maxClients : Nat) : Registry := ⟨maxClients, [], 1, 0, []⟩

/-! ## Looking -/

def session? (r : Registry) (id : SessionId) : Option Session := r.sessions.find? (·.id == id)

def listed (r : Registry) : List Session := r.sessions.filter (·.isListed)

def get? (r : Registry) (id : SessionId) : Option Session := r.listed.find? (·.id == id)

def contains (r : Registry) (id : SessionId) : Bool := (r.get? id).isSome

def size (r : Registry) : Nat := r.listed.length

def authenticatedCount (r : Registry) : Nat := r.listed.countP (·.isAuthenticated)

/-- The listed sessions that market data of a symbol is meant for. -/
def subscribers (r : Registry) (id : SymbolId) : List Session := r.listed.filter (·.receives id)

/-! ## Changing -/

def modify (r : Registry) (id : SessionId) (f : Session → Session) : Registry :=
  { r with sessions := r.sessions.map fun s => if s.id == id then f s else s }

/-- The registry after observers were told of an event. -/
def tell (r : Registry) (e : SessionEvent) : Registry := { r with events := r.events ++ [e] }

/-- Admits a session under a new number, if one more may be listed. -/
def enlist (r : Registry) (peer : SocketAddress) (now : Instant) (authenticated : Bool)
    (capacity : Nat) : Except CapacityExceeded (SessionId × Registry) :=
  if r.maxClients ≤ r.size then .error ⟨r.maxClients⟩
  else
    let s := Session.fresh r.nextId peer now authenticated capacity
    .ok (s.id, { r with
      sessions := r.sessions ++ [s]
      nextId := r.nextId + 1 }.tell (.connected s.id peer))

def authenticate (r : Registry) (id : SessionId) (username : String) (now : Instant) :
    Registry × Bool :=
  match r.get? id with
  | none => (r, false)
  | some s =>
    let r' := r.modify id fun s => (s.authenticate username now).1
    if (s.authenticate username now).2 then (r'.tell (.authenticated id username), true)
    else (r', false)

/-- The registry after a session left the list.  One that had not ended yet ends now, for this
reason, and is counted and told; one that was not listed stays as it is. -/
def close (r : Registry) (id : SessionId) (reason : CloseReason) : Registry × Bool :=
  match r.get? id with
  | none => (r, false)
  | some s =>
    let r' := r.modify id fun s => { (s.markClosed reason).1 with isListed := false }
    -- the answer is that the session was listed, also where something else had ended it
    if (s.markClosed reason).2 then
      ({ r' with closedTotal := r'.closedTotal + 1 }.tell (.disconnected id reason), true)
    else (r', true)

def closeNext (reason : CloseReason) (acc : Registry × Nat) (id : SessionId) : Registry × Nat :=
  let (r, closed) := acc.1.close id reason
  (r, acc.2 + closed.toNat)

def closeAll (r : Registry) (reason : CloseReason) : Registry × Nat :=
  (r.listed.map (·.id)).foldl (closeNext reason) (r, 0)

end Registry
end MarketRelay
