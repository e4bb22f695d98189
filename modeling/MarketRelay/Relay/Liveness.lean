import MarketRelay.Relay.Basic

/-!
# Signs of life

From time to time the relay looks at all listed sessions, in order of their numbers.

* A client that has logged on and was silent for more than two heartbeat intervals is dropped.
* One that has logged on, was heard, and was last sent a heartbeat an interval ago or longer gets a
  heartbeat, which tells it how many frames it lost.  That it was due one is noted first, so it is
  not due another until the next interval is over, whatever becomes of this one.
* One that took too long to log on is dropped.
* A session whose logon was refused is left to whoever refused it.

A session is dropped through the registry, and it counts only if it was still listed: whoever ended
it in the meantime has counted the end already.  The sessions to look at are those that were listed
when the look began.

The length of an interval comes from the settings in seconds.  Twice an interval may be more than
the longest length of time, and then that one counts.
-/
namespace MarketRelay

abbrev Duration := Nat

namespace Duration

def ofSeconds (n : Nat) : Duration := n * 1000000000

def ofMilliseconds (n : Nat) : Duration := n * 1000000

def seconds (d : Duration) : Nat := d / 1000000000

/-- The longest length of time: the seconds of a 64-bit word. -/
def max : Duration := ofSeconds UInt64.size - 1

/-- Twice as long, or the longest length of time. -/
def double (d : Duration) : Duration := min (2 * d) max

end Duration

structure Liveness where
  interval : Duration
  logonTimeout : Duration
deriving DecidableEq, Repr

namespace Liveness

def ofConfig (c : Config) : Liveness :=
  ⟨.ofSeconds c.heartbeatIntervalSecs, .ofSeconds c.logonTimeoutSecs⟩

/-- The time between two looks: half an interval, but at least a millisecond. -/
def period (l : Liveness) : Duration := max (l.interval / 2) (.ofMilliseconds 1)

end Liveness

structure SweepReport where
  heartbeatsSent : Nat := 0
  heartbeatTimeouts : List SessionId := []
  logonTimeouts : List SessionId := []
deriving DecidableEq, Repr

namespace Relay

/-- The relay after a session was dropped for its silence, if it was still listed, and whether it
was. -/
def timeOut (r : Relay) (id : SessionId) (reason : CloseReason) (c : Counter) : Relay × Bool :=
  let (registry, closed) := r.registry.close id reason
  let r' := { r with registry := registry }
  (if closed then r'.count c else r', closed)

def heartbeatFor (s : Session) (clock : Int64) : Message := .heartbeat ⟨s.droppedCount, clock⟩

/-- The relay after a client that is owed a heartbeat was sent it, and whether it was taken. -/
def sendHeartbeat (r : Relay) (s : Session) (now : Instant) (clock : Int64) : Relay × Bool :=
  let r' := (r.modify s.id (·.markHeartbeatSent now)).enqueue s.id (heartbeatFor s clock)
  if s.queue.outcome.isAccepted then (r'.count .heartbeatsSent, true) else (r', false)

def sweepSession (l : Liveness) (now : Instant) (clock : Int64) (acc : Relay × SweepReport)
    (s : Session) : Relay × SweepReport :=
  let (r, report) := acc
  match s.auth with
  | .authenticated =>
    if l.interval.double < now.since s.heartbeatReceivedAt then
      let (r', timedOut) := r.timeOut s.id .heartbeatTimeout .heartbeatTimeouts
      (r', if timedOut then
          { report with heartbeatTimeouts := report.heartbeatTimeouts ++ [s.id] }
        else report)
    else if s.isHeartbeatDue now l.interval then
      match r.sendHeartbeat s now clock with
      | (r', true) => (r', { report with heartbeatsSent := report.heartbeatsSent + 1 })
      | (r', false) => (r', report)
    else (r, report)
  | .unauthenticated =>
    if l.logonTimeout < now.since s.connectedAt then
      let (r', timedOut) := r.timeOut s.id .logonTimeout .logonTimeouts
      (r', if timedOut then { report with logonTimeouts := report.logonTimeouts ++ [s.id] }
        else report)
    else (r, report)
  | .rejected => (r, report)

/-- The relay after a look at all listed sessions at `now`, when the clock on the wall, which
heartbeats carry, shows `clock`. -/
def sweep (r : Relay) (l : Liveness) (now : Instant) (clock : Int64) : Relay × SweepReport :=
  r.registry.listed.foldl (sweepSession l now clock) (r, {})

end Relay
end MarketRelay
