import MarketRelay.Metrics.Latency

/-!
# Counters

What the relay counts, and the named values that it shows.

There is one 64-bit word for each `Counter`, and a counter beyond its word starts again at zero:
`get_add` is the one fact about this that other modules use.  Besides the counters, the latencies of
the last publications are kept, of which one percentile is shown once there is a sample.

A frame that was queued in the place of another one counts twice, as queued and as dropped
(`recordEnqueue`); a publication counts its frames all at once (`recordPublish`).

The named values stand in order of their names, as whoever asks for the metrics is shown them.
-/
namespace MarketRelay

inductive Counter where
  | connectionsAccepted
  | connectionsRejected
  | decodeErrors
  | eventsPublished
  | framesReceived
  | heartbeatTimeouts
  | heartbeatsSent
  | logonTimeouts
  | logonsRejected
  | messagesDropped
  | messagesEnqueued
  | protocolViolations
  | unknownFrames
deriving DecidableEq, Repr

namespace Counter

/-- All counters, in order of their names. -/
def all : List Counter :=
  [.connectionsAccepted, .connectionsRejected, .decodeErrors, .eventsPublished, .framesReceived,
    .heartbeatTimeouts, .heartbeatsSent, .logonTimeouts, .logonsRejected, .messagesDropped,
    .messagesEnqueued, .protocolViolations, .unknownFrames]

def name : Counter → String
  | .connectionsAccepted => "connections_accepted"
  | .connectionsRejected => "connections_rejected"
  | .decodeErrors => "decode_errors"
  | .eventsPublished => "events_published"
  | .framesReceived => "frames_received"
  | .heartbeatTimeouts => "heartbeat_timeouts"
  | .heartbeatsSent => "heartbeats_sent"
  | .logonTimeouts => "logon_timeouts"
  | .logonsRejected => "logons_rejected"
  | .messagesDropped => "messages_dropped_backpressure"
  | .messagesEnqueued => "messages_enqueued"
  | .protocolViolations => "protocol_violations"
  | .unknownFrames => "unknown_frames_skipped"

def ofName? (name : String) : Option Counter := all.find? fun c => c.name == name

/-- The place of a counter among all. -/
def index : Counter → Fin 13
  | .connectionsAccepted => 0
  | .connectionsRejected => 1
  | .decodeErrors => 2
  | .eventsPublished => 3
  | .framesReceived => 4
  | .heartbeatTimeouts => 5
  | .heartbeatsSent => 6
  | .logonTimeouts => 7
  | .logonsRejected => 8
  | .messagesDropped => 9
  | .messagesEnqueued => 10
  | .protocolViolations => 11
  | .unknownFrames => 12

theorem index_inj {c d : Counter} : c.index = d.index ↔ c = d := by
  cases c <;> cases d <;> decide

end Counter

/-- The counts of a relay, each in a 64-bit word, and the latencies of its last publications. -/
structure Metrics where
  counts : Vector UInt64 13
  publishLatency : LatencyWindow
deriving DecidableEq

namespace Metrics

def empty : Metrics := ⟨.replicate 13 0, .empty 1000⟩

def get (m : Metrics) (c : Counter) : Nat := m.counts[c.index].toNat

/-- The metrics with a counter raised; a counter beyond its word starts again at zero. -/
def add (m : Metrics) (c : Counter) (n : Nat) : Metrics :=
  { m with counts := m.counts.set c.index (UInt64.ofNat (m.get c + n)) }

def incr (m : Metrics) (c : Counter) : Metrics := m.add c 1

@[simp] theorem get_add (m : Metrics) (c d : Counter) (n : Nat) :
    (m.add c n).get d = if c = d then (m.get d + n) % UInt64.size else m.get d := by
  unfold get add
  by_cases h : c = d
  · subst h; simp [get, UInt64.toNat_ofNat']
  · have hi : (c.index : Nat) ≠ d.index := fun he => h (Counter.index_inj.1 (Fin.ext he))
    simp [h, Vector.getElem_set_ne _ _ hi]

/-- The metrics after one frame was queued, in the place of another one or not. -/
def recordEnqueue (m : Metrics) (dropped : Bool) : Metrics :=
  let m := m.incr .messagesEnqueued
  if dropped then m.incr .messagesDropped else m

def recordPublish (m : Metrics) (enqueued dropped latency : Nat) : Metrics :=
  let m := ((m.incr .eventsPublished).add .messagesEnqueued enqueued).add .messagesDropped dropped
  { m with publishLatency := m.publishLatency.record latency }

/-- A named value put in its place among others in order of names. -/
def insertNamed (name : String) (value : Nat) : List (String × Nat) → List (String × Nat)
  | [] => [(name, value)]
  | (n, v) :: rest =>
    if name < n then (name, value) :: (n, v) :: rest else (n, v) :: insertNamed name value rest

/-- The named values, in order of names; the latency only once there is one. -/
def named (m : Metrics) : List (String × Nat) :=
  let counts := Counter.all.map fun c => (c.name, m.get c)
  match m.publishLatency.percentile 99 with
  | some latency => insertNamed "publish_latency_p99_ns" latency counts
  | none => counts

end Metrics
end MarketRelay
