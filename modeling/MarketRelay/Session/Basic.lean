import MarketRelay.Net.Address
import MarketRelay.Session.Queue
import MarketRelay.Wire.Message

/-!
# Sessions

What the relay knows of one client: who it is, whether it has logged on, what it subscribes to,
when the two ends last showed a sign of life, what waits to be sent, and why the session ended.

```text
unauthenticated ── logon accepted ──▸ authenticated
      │
      └─────────── logon refused ───▸ rejected
```

A session is a value and its operations are functions.  Those that can find nothing to do return,
beside the session, whether they did something: `authenticate` whether the session has logged on
by this call, `subscribe` and `unsubscribe` whether the set of subscriptions changed, `markClosed`
whether the session ended by this call.

The end of a session is final.  `markClosed` records its reason, closes the outbound queue and
cancels the session's token, `isCancelled`, which is what the tasks that read from the client and
write to it wait for; a second call finds the session ended and leaves all three as they are.  What
was queued before can still be drained.
-/
namespace MarketRelay

/-- A moment, in nanoseconds since some start. -/
abbrev Instant := Nat

/-- The time from one moment to another; none if that is the earlier one. -/
def Instant.since (now past : Instant) : Nat := now - past

/-- The number of a session, counted from one and never used again. -/
abbrev SessionId := Nat

/-- How far a client got with its logon. -/
inductive AuthState where
  | unauthenticated
  | authenticated
  /-- The logon was refused: the session is about to close. -/
  | rejected
deriving DecidableEq, Repr

/-- Why a session ended. -/
inductive CloseReason where
  | clientDisconnected
  | clientLogoff
  | authenticationFailed
  | heartbeatTimeout
  | logonTimeout
  | protocolViolation (detail : String)
  | serverShutdown
  | io (detail : String)
deriving DecidableEq, Repr

/-- The wording of a reason. -/
def CloseReason.message : CloseReason → String
  | .clientDisconnected => "client disconnected"
  | .clientLogoff => "client logoff"
  | .authenticationFailed => "authentication failed"
  | .heartbeatTimeout => "heartbeat timeout"
  | .logonTimeout => "logon timeout"
  | .protocolViolation detail => s!"protocol violation: {detail}"
  | .serverShutdown => "server shutdown"
  | .io detail => s!"i/o error: {detail}"

/-- A set of symbols, in ascending order of numbers. -/
abbrev SymbolSet := List SymbolId

namespace SymbolSet

/-- The set with one more symbol. -/
def insert (id : SymbolId) : SymbolSet → SymbolSet
  | [] => [id]
  | x :: rest =>
    if id < x then id :: x :: rest
    else if id = x then x :: rest
    else x :: insert id rest

/-- The set without a symbol. -/
def erase (id : SymbolId) (s : SymbolSet) : SymbolSet := s.filter (· != id)

theorem mem_insert {x id : SymbolId} {s : SymbolSet} : x ∈ insert id s ↔ x = id ∨ x ∈ s := by
  induction s with
  | nil => simp [insert]
  | cons y rest ih =>
      unfold insert
      split
      · simp
      · split
        · rename_i heq
          subst heq
          simp
        · simp only [List.mem_cons, ih]
          exact or_left_comm

theorem mem_erase {x id : SymbolId} {s : SymbolSet} : x ∈ erase id s ↔ x ≠ id ∧ x ∈ s := by
  simp [erase, and_comm]

end SymbolSet

/-- What the relay knows of one client. -/
structure Session where
  id : SessionId
  peer : SocketAddress
  auth : AuthState
  username : Option String
  subscriptions : SymbolSet
  connectedAt : Instant
  heartbeatReceivedAt : Instant
  heartbeatSentAt : Instant
  queue : OutboundQueue
  closeReason : Option CloseReason
  /-- The token of the session is cancelled: its reader and its writer are to stop. -/
  isCancelled : Bool
  /-- The registry lists the session: it counts as connected and market data reaches it. -/
  isListed : Bool
deriving DecidableEq

namespace Session

/-- A new session; where no logon is needed it is authenticated from the start. -/
def fresh (id : SessionId) (peer : SocketAddress) (now : Instant) (authenticated : Bool)
    (capacity : Nat) : Session where
  id := id
  peer := peer
  auth := if authenticated then .authenticated else .unauthenticated
  username := none
  subscriptions := []
  connectedAt := now
  heartbeatReceivedAt := now
  heartbeatSentAt := now
  queue := .empty capacity
  closeReason := none
  isCancelled := false
  isListed := true

/-! ## Logon -/

/-- The client has logged on, or need not. -/
def isAuthenticated (s : Session) : Bool := s.auth == .authenticated

/-- The session after a logon was accepted, and whether that authenticated it: the first one names
the user and starts both heartbeat clocks anew.  Where no logon was needed, the first one with a
name still gives the user. -/
def authenticate (s : Session) (username : String) (now : Instant) : Session × Bool :=
  match s.auth with
  | .unauthenticated =>
    ({ s with
      auth := .authenticated
      username := some username
      heartbeatReceivedAt := now
      heartbeatSentAt := now }, true)
  | .authenticated =>
    (if s.username.isNone && username != "" then { s with username := some username } else s, false)
  | .rejected => (s, false)

/-- The session after a logon was refused. -/
def reject (s : Session) : Session := { s with auth := .rejected }

/-! ## Subscriptions -/

/-- Whether the session subscribes to a symbol. -/
def isSubscribed (s : Session) (id : SymbolId) : Bool := s.subscriptions.contains id

/-- Whether market data of a symbol is meant for the session. -/
def receives (s : Session) (id : SymbolId) : Bool := s.isAuthenticated && s.isSubscribed id

def subscribe (s : Session) (id : SymbolId) : Session × Bool :=
  ({ s with subscriptions := SymbolSet.insert id s.subscriptions }, !s.isSubscribed id)

def unsubscribe (s : Session) (id : SymbolId) : Session × Bool :=
  ({ s with subscriptions := SymbolSet.erase id s.subscriptions }, s.isSubscribed id)

/-! ## Signs of life -/

/-- The session after the client showed a sign of life. -/
def recordHeartbeat (s : Session) (now : Instant) : Session := { s with heartbeatReceivedAt := now }

/-- The client is owed a heartbeat: the last one is at least `interval` ago. -/
def isHeartbeatDue (s : Session) (now : Instant) (interval : Nat) : Bool :=
  interval ≤ now.since s.heartbeatSentAt

/-- The session after the client was sent a heartbeat. -/
def markHeartbeatSent (s : Session) (now : Instant) : Session := { s with heartbeatSentAt := now }

/-! ## Sending and closing -/

/-- The session after a frame was pushed on its queue. -/
def push (s : Session) (frame : List UInt8) : Session := { s with queue := s.queue.push frame }

/-- The session after the client was sent all that waited. -/
def drain (s : Session) : Session := { s with queue := s.queue.drain }

/-- The number of frames the client lost, as far as a heartbeat can tell it. -/
def droppedCount (s : Session) : UInt32 := UInt32.ofNat (min s.queue.dropped (UInt32.size - 1))

/-- The session has ended. -/
def isClosed (s : Session) : Bool := s.closeReason.isSome

/-- The session after its end, and whether it had not ended before: the first reason stays, and the
queue takes no more frames. -/
def markClosed (s : Session) (reason : CloseReason) : Session × Bool :=
  if s.isClosed then (s, false)
  else ({ s with closeReason := some reason, queue := s.queue.close, isCancelled := true }, true)

end Session
end MarketRelay
