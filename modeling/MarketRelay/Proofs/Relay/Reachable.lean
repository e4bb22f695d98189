import MarketRelay.Proofs.Relay.Events

/-!
# States that a relay can be in

A relay gets from its start to any later state by steps, between which its readers, and whoever
takes connections, count what they see.  `Reachable` is what all runs of that kind lead to; what a
server does to its relay does not lead out of it (`accept`, `stop`).

The invariants of steps hold in such states because they say nothing of the counts (`orderly`,
`chronicled`).  From the two of them follows what makes ends simple: a session is listed just as
long as it has not ended, and just as long as its token is not cancelled
(`isClosed_of_session?`, `isCancelled_of_session?`).
-/
namespace MarketRelay

namespace Relay

/-- The states that a relay with given settings can be in: what steps and counts lead to. -/
inductive Reachable (c : Config) : Relay → Prop where
  | start : Reachable c (Relay.ofConfig c)
  | step {r : Relay} (h : Reachable c r) (st : Step) : Reachable c (r.step st)
  | count {r : Relay} (h : Reachable c r) (k : Counter) : Reachable c (r.count k)

namespace Reachable

variable {c : Config} {r : Relay} {id : SessionId}

theorem run (h : Reachable c r) (steps : List Step) : Reachable c (r.run steps) :=
  run_induction (P := Reachable c) (fun _ st h => h.step st) h steps

theorem config_eq (h : Reachable c r) : r.config = c := by
  induction h with
  | start => rfl
  | step _ st ih => rw [config_step, ih]
  | count _ k ih => exact ih

theorem orderly (h : Reachable c r) : r.Orderly := by
  induction h with
  | start => exact orderly_ofConfig c
  | step _ st ih => exact ih.step st
  | count _ k ih => exact ⟨ih.numbered, ih.sessions⟩

theorem chronicled (h : Reachable c r) :
    r.registry.Chronicled c.requireAuthentication [] := by
  induction h with
  | start => exact Registry.chronicled_empty c.maxClients
  | step h st ih =>
      have hstep := chronicled_step (h.config_eq ▸ ih) st
      rwa [h.config_eq] at hstep
  | count _ k ih => exact ih

theorem isClosed_of_session? (h : Reachable c r) {s : Session} (hs : r.session? id = some s) :
    s.isClosed = !s.isListed :=
  (h.chronicled.settled_of_session? hs).isClosed

theorem isCancelled_of_session? (h : Reachable c r) {s : Session} (hs : r.session? id = some s) :
    s.isCancelled = !s.isListed :=
  (h.chronicled.settled_of_session? hs).token.trans (h.isClosed_of_session? hs)

/-! ## What a server does -/

theorem accept {s : Server} (h : Reachable c s.relay) (peer : SocketAddress) (now : Instant) :
    Reachable c (s.accept peer now).1.relay := by
  have hstep := h.step (.enlist peer now)
  rw [Server.accept]
  simp only [Relay.step] at hstep
  cases henlist : s.relay.enlist peer now with
  | ok admission =>
      rw [henlist] at hstep
      exact hstep.count .connectionsAccepted
  | error e => exact h.count .connectionsRejected

theorem stop {s : Server} (h : Reachable c s.relay) : Reachable c s.stop.relay := by
  cases hrunning : s.isRunning with
  | true =>
      rw [relay_stop hrunning]
      exact h.step .stop
  | false =>
      rw [Server.stop_of_not_isRunning hrunning]
      exact h

end Reachable

end Relay
end MarketRelay
