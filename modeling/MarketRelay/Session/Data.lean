import MarketRelay.Session.Registry
import MarketRelay.Data.Value

/-!
# Sessions as data

The written forms of what is shown of sessions.

A summary gives what a session keeps at the moment it is taken: who is at the other end, how far the
logon is, what is subscribed to, and how many frames wait or were lost.  The name of the user is
null until there is one.

The reason of an end is its label, or a record of label and detail where the reason has a detail.
An event is a record with its kind under `event` and the session's number under `session_id`,
whatever else it tells.
-/
namespace MarketRelay

def AuthState.label : AuthState → String
  | .unauthenticated => "Unauthenticated"
  | .authenticated => "Authenticated"
  | .rejected => "Rejected"

def CloseReason.label : CloseReason → String
  | .clientDisconnected => "ClientDisconnected"
  | .clientLogoff => "ClientLogoff"
  | .authenticationFailed => "AuthenticationFailed"
  | .heartbeatTimeout => "HeartbeatTimeout"
  | .logonTimeout => "LogonTimeout"
  | .protocolViolation _ => "ProtocolViolation"
  | .serverShutdown => "ServerShutdown"
  | .io _ => "Io"

/-- The written form of a reason: its label, with its detail if it has one. -/
def CloseReason.toData (reason : CloseReason) : Data :=
  match reason with
  | .protocolViolation detail | .io detail => .record [(reason.label, .text detail)]
  | _ => .text reason.label

/-- The reason with a label, and with a detail where it takes one. -/
def CloseReason.ofLabel? (label detail : String) : Option CloseReason :=
  [.clientDisconnected, .clientLogoff, .authenticationFailed, .heartbeatTimeout, .logonTimeout,
    .protocolViolation detail, .serverShutdown, .io detail].find? fun reason =>
      reason.label == label

def SessionEvent.toData : SessionEvent → Data
  | .connected id peer =>
    .record [("event", .text "Connected"), ("session_id", .int id), ("peer", .text peer.text)]
  | .authenticated id username =>
    .record [("event", .text "Authenticated"), ("session_id", .int id),
      ("username", .text username)]
  | .disconnected id reason =>
    .record [("event", .text "Disconnected"), ("session_id", .int id), ("reason", reason.toData)]

def Data.ofText? (s : Option String) : Data := s.elim .null .text

def SymbolSet.toData (s : SymbolSet) : Data := .list (s.map fun id => .int id.toNat)

def Session.summary (s : Session) : Data :=
  .record [("id", .int s.id), ("peer", .text s.peer.text), ("auth_state", .text s.auth.label),
    ("username", Data.ofText? s.username), ("subscriptions", SymbolSet.toData s.subscriptions),
    ("queued", .int s.queue.size), ("messages_dropped", .int s.queue.dropped),
    ("connected_at", .int s.connectedAt)]

end MarketRelay
