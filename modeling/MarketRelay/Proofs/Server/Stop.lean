import MarketRelay.Proofs.Relay.Departure
import MarketRelay.Proofs.Server.Books

/-!
# Stopping a server

A server that is stopped takes leave of its listed sessions one after another, in order of their
numbers.  What it did to those before does not matter to the next one, which is listed when its turn
comes and gets the farewell while its queue still takes frames; so every session that had not ended
is sent off (`Session.SentOff`), and observers are told of these ends in the same order.

* `Settled.sentOff`: what becomes of one listed session.
* `events_stop`, `closedTotal_stop`: what observers are told, and what is counted.  The leaves are
  a fold over the list as it was at first, so the induction is on any list of different sessions
  that are all listed (`events_foldl_shutDownSession`).
* `Sound.shutsDown`: the server after a stop.
* `isRunning_run`: stopping a server that does not run does nothing, and only a start makes it run
  again.  So `stop_closes_all_sessions_once` can say that later stops change nothing, whatever else
  is done.
-/
namespace MarketRelay

/-! ## One session -/

namespace Session

variable {required : Bool} {s t : Session}

/-- `t` is `s` after a server that is being stopped took leave of it. -/
structure SentOff (s t : Session) : Prop where
  client : s.SameClient t
  closeReason : t.closeReason = some .serverShutdown
  isListed : t.isListed = false
  /-- The farewell is there once more than before, behind all else that waits. -/
  frames : t.queue.frames =
    (if s.queue.isFull then s.queue.frames.drop 1 else s.queue.frames) ++ [Server.farewell.encode]
  dropped : t.queue.dropped = s.queue.dropped + s.queue.isFull.toNat
  isClosed : t.queue.isClosed = true

theorem Settled.sentOff (h : s.Settled required) (hlisted : s.isListed = true) :
    s.SentOff s.shutDown := by
  have hends := h.endsWith hlisted Server.farewell .serverShutdown
  exact ⟨hends.client, hends.closeReason, hends.isListed, hends.frames, hends.dropped,
    hends.isClosed⟩

end Session

/-! ## One session after another -/

namespace Registry

theorem Chronicled.listed_eq {r : Registry} {required : Bool} {past : List SessionEvent}
    (h : r.Chronicled required past) : r.listed = r.sessions.filter fun s => !s.isClosed := by
  refine List.filter_congr fun s hs => ?_
  rw [(h.settled s hs).isClosed, Bool.not_not]

end Registry

namespace Relay

variable {required : Bool} {past : List SessionEvent} {r : Relay} {id id' : SessionId}

/-- Taking leave of one session leaves the others on the list. -/
theorem contains_shutDownSession (h : r.registry.Numbered) (hne : id' ≠ id) :
    (Server.shutDownSession r id).registry.contains id' = r.registry.contains id' := by
  rw [contains_eq (numbered_shutDownSession h id), contains_eq h,
    session?_of_only_of_ne (sessions_shutDownSession h id) Session.id_shutDown hne]

theorem events_shutDownSession (h : r.registry.Chronicled required past)
    (hlisted : r.registry.contains id = true) :
    (Server.shutDownSession r id).registry.events =
      r.registry.events ++ [.disconnected id .serverShutdown] := by
  let pushed := r.modify id (·.push Server.farewell.encode)
  have hpushed : pushed.registry.Chronicled required past :=
    chronicled_modify h id (fun _ => rfl) fun _ hs => hs.told_push _
  have hcontains : pushed.registry.contains id = true := by
    obtain ⟨s, hs, hlisted, hid⟩ := Registry.contains_iff.mp hlisted
    refine Registry.contains_iff.mpr ⟨s.push Server.farewell.encode, ?_, hlisted, hid⟩
    exact List.mem_map.mpr ⟨s, hs, Session.only_of_eq hid (·.push Server.farewell.encode)⟩
  have hclose := hpushed.events_close id .serverShutdown
  rw [hcontains, if_pos rfl] at hclose
  rw [Server.shutDownSession, registry_close]
  exact hclose

/-- Leave is taken of different listed sessions, and observers are told of their ends in turn. -/
theorem events_foldl_shutDownSession {ids : List SessionId}
    (h : r.registry.Chronicled required past) (hnodup : ids.Nodup)
    (hlisted : ∀ id ∈ ids, r.registry.contains id = true) :
    (ids.foldl Server.shutDownSession r).registry.events =
      r.registry.events ++ ids.map fun id => .disconnected id .serverShutdown := by
  induction ids generalizing r with
  | nil => exact (List.append_nil _).symm
  | cons id rest ih =>
      obtain ⟨hid, hnodup⟩ := List.nodup_cons.mp hnodup
      have hrest : ∀ id' ∈ rest,
          (Server.shutDownSession r id).registry.contains id' = true := by
        intro id' hid'
        have hne : id' ≠ id := fun heq => hid (heq ▸ hid')
        rw [contains_shutDownSession h.numbered hne]
        exact hlisted id' (List.mem_cons_of_mem id hid')
      rw [List.foldl_cons, ih (chronicled_shutDownSession h id) hnodup hrest,
        events_shutDownSession h (hlisted id List.mem_cons_self), List.append_assoc]
      rfl

theorem events_stop (h : r.registry.Chronicled required past) :
    (r.step .stop).registry.events =
      r.registry.events ++ r.registry.listed.map fun s => .disconnected s.id .serverShutdown := by
  have hall := events_foldl_shutDownSession h h.numbered.nodup_listed fun _ =>
    Registry.mem_ids_listed_iff.mp
  rw [List.map_map] at hall
  exact hall

theorem listed_stop (h : r.registry.Numbered) : (r.step .stop).registry.listed = [] := by
  rw [Registry.listed, sessions_stop h, List.filter_eq_nil_iff]
  intro t ht
  obtain ⟨s, -, rfl⟩ := List.mem_map.mp ht
  split
  · exact Bool.eq_false_iff.mp (Session.isListed_leave _ .serverShutdown)
  · assumption

theorem closedTotal_stop (h : r.Balanced) (hchronicled : r.registry.Chronicled required past) :
    (r.step .stop).registry.closedTotal = r.registry.closedTotal + r.registry.size := by
  have hbefore := h.listed
  have hafter := (h.stop hchronicled).listed
  rw [Registry.size, listed_stop hchronicled.numbered, List.length_nil,
    sessions_stop hchronicled.numbered, List.length_map] at hafter
  omega

end Relay

/-! ## The server -/

namespace Server

/-- `t` is `s` after it took leave of everybody. -/
structure ShutsDown (s t : Server) : Prop where
  isRunning : t.isRunning = false
  listed : t.relay.registry.listed = []
  /-- Sessions that had ended are untouched, and all others are sent off. -/
  sessions : List.Forall₂ (fun u v => if u.isClosed then v = u else u.SentOff v)
    s.relay.registry.sessions t.relay.registry.sessions
  /-- The listed sessions are those that had not ended. -/
  live : s.relay.registry.listed = s.relay.registry.sessions.filter fun u => !u.isClosed
  closedTotal : t.relay.registry.closedTotal =
    s.relay.registry.closedTotal + s.relay.registry.listed.length
  events : t.relay.registry.events =
    s.relay.registry.events ++
      s.relay.registry.listed.map fun u => .disconnected u.id .serverShutdown
  ascending : (s.relay.registry.listed.map (·.id)).Pairwise (· < ·)

theorem isRunning_stop (s : Server) : s.stop.isRunning = false := by
  cases hrunning : s.isRunning with
  | true =>
      rw [stop, hrunning]
      rfl
  | false =>
      rw [stop_of_not_isRunning hrunning]
      exact hrunning

end Server

def ServerStep.isStart : ServerStep → Bool
  | .start _ _ => true
  | _ => false

namespace Service

variable {c : Config} {s : Service}

theorem Sound.shutsDown (h : Sound c s) (hrunning : s.server.isRunning = true) :
    s.server.ShutsDown s.server.stop := by
  have hnumbered := h.chronicled.numbered
  have hrelay : s.server.stop.relay = s.server.relay.step .stop := Relay.relay_stop hrunning
  constructor
  case isRunning => exact s.server.isRunning_stop
  case listed =>
    rw [hrelay]
    exact Relay.listed_stop hnumbered
  case sessions =>
    have hsessions := Relay.sessions_stop hnumbered
    rw [hrelay, show s.server.relay = s.relay from rfl, hsessions, List.forall₂_map_right_iff,
      List.forall₂_same]
    intro t ht
    have hsettled := h.chronicled.settled t ht
    rw [hsettled.isClosed]
    cases hlisted : t.isListed with
    | true => exact hsettled.sentOff hlisted
    | false => rfl
  case live => exact h.chronicled.listed_eq
  case closedTotal =>
    rw [hrelay]
    exact Relay.closedTotal_stop h.balanced h.chronicled
  case events =>
    rw [hrelay]
    exact Relay.events_stop h.chronicled
  case ascending => exact hnumbered.pairwise_listed

theorem step_stop_of_not_isRunning (h : s.server.isRunning = false) : s.step .stop = s := by
  rw [step, Server.stop_of_not_isRunning h]

theorem isRunning_step {st : ServerStep} (h : s.server.isRunning = false)
    (hst : st.isStart = false) : (s.step st).server.isRunning = false := by
  cases st with
  | start bind now => cases hst
  | stop => exact s.server.isRunning_stop
  | accept peer now =>
      rw [step, Server.accept]
      split <;> exact h
  | apply place now =>
      rw [step]
      split <;> exact h
  | _ => exact h

theorem isRunning_run (h : s.server.isRunning = false) {steps : List ServerStep}
    (hsteps : ∀ st ∈ steps, st.isStart = false) : (s.run steps).server.isRunning = false := by
  induction steps generalizing s with
  | nil => exact h
  | cons st steps ih =>
      exact ih (isRunning_step h (hsteps st List.mem_cons_self))
        fun st' hst' => hsteps st' (List.mem_cons_of_mem st hst')

/-- **A server that is stopped says goodbye to everybody, once.**  Whatever was done at it before, a
running server that is stopped does not run any more and lists nobody; it sent its farewell to
every session that had not ended, and counted and told the ends of these sessions in order of their
numbers.  Until somebody starts it again stopping it changes nothing, and neither does stopping any
other server that does not run. -/
theorem stop_closes_all_sessions_once (c : Config) (steps : List ServerStep)
    (hrunning : ((ofConfig c).run steps).server.isRunning = true) :
    let s := (ofConfig c).run steps
    s.server.ShutsDown (s.step .stop).server ∧
      (∀ more : List ServerStep, (∀ st ∈ more, st.isStart = false) →
        ((s.step .stop).run more).step .stop = (s.step .stop).run more) ∧
      ∀ t : Service, t.server.isRunning = false → t.step .stop = t := by
  intro s
  refine ⟨((sound_ofConfig c).run steps).shutsDown hrunning, fun more hmore => ?_,
    fun t => step_stop_of_not_isRunning⟩
  exact step_stop_of_not_isRunning (isRunning_run s.server.isRunning_stop hmore)

/-- Four clients of a server whose queues have room for one frame: one that has not logged on yet,
one that has and whose answer waits, one that is refused and not told so yet, and one that is
gone. -/
def fourClients : List ServerStep :=
  [.start some 0, .accept (.v4 127 0 0 1 50000) 0, .accept (.v4 127 0 0 1 50001) 0,
    .accept (.v4 127 0 0 1 50002) 0, .accept (.v4 127 0 0 1 50003) 0,
    .decode 2 (Message.logonRequest ⟨8, "desk", "tape", 30, "desk"⟩).encode 1, .apply 0 2,
    .apply 0 2, .decode 3 (Message.logonRequest ⟨8, "desk", "paper", 30, "desk"⟩).encode 3,
    .endReader 4 .endOfStream]

/-- Three of the four are sent off, and the answer that waited makes room for the farewell.  Those
who were not done yet with their sessions go on, and then a second stop changes nothing. -/
theorem stop_closes_all_sessions_once_of_four :
    let c : Config :=
      { requireAuthentication := true, password := "tape", outboundQueueCapacity := 1 }
    let s := (ofConfig c).run fourClients
    let late : List ServerStep := [.apply 1 4, .drain 2, .endReader 1 .endOfStream]
    s.server.isRunning = true ∧
      s.relay.registry.sessions.map (fun t => (t.auth, t.queue.size, t.isClosed)) =
        [(.unauthenticated, 0, false), (.authenticated, 1, false), (.rejected, 0, false),
          (.unauthenticated, 0, true)] ∧
      s.server.ShutsDown (s.step .stop).server ∧
      (s.step .stop).relay.registry.sessions.map (·.queue.frames) =
        [[Server.farewell.encode], [Server.farewell.encode], [Server.farewell.encode], []] ∧
      (s.step .stop).relay.registry.ends =
        [.clientDisconnected, .serverShutdown, .serverShutdown, .serverShutdown] ∧
      ((s.step .stop).run late).step .stop = (s.step .stop).run late := by
  intro c s late
  have hrunning : s.server.isRunning = true := by decide +kernel
  obtain ⟨hstopped, honce, -⟩ := stop_closes_all_sessions_once c fourClients hrunning
  exact ⟨hrunning, by decide +kernel, hstopped, by decide +kernel, by decide +kernel,
    honce late (by decide)⟩

end Service
end MarketRelay
