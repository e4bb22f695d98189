import MarketRelay.Proofs.Relay.Counting
import MarketRelay.Proofs.Server.Work

/-!
# Admissions and ends are in the books

Everybody who was let in is counted, and is listed or has left.  Observers were told of each end
once, with the reason under which it is counted, whoever of those who wanted to end the session came
first: who comes later finds nothing listed and books nothing.

`Balanced` is the invariant of the books.  Whoever works at a server keeps them so
(`Balanced.works`), and there are three kinds of what they do:

* most of it is not booked at all.  `Quiet` holds between two states in which all that the books are
  about is the same; it is reflexive and transitive, and a lemma for each operation says that it is
  quiet;
* an admission is counted when somebody is let in (`Balanced.letIn`);
* an end is booked where the session leaves the list (`Balanced.leave`).  There are two ways there.
  A close counts if it found something to end, and a look for signs of life counts under a reason of
  its own; each goes through `Balanced.leave`.

The events of observers are part of the books, so an end is counted just when it is told, and that
needs the invariant of events (`Chronicled`) besides.
-/
namespace MarketRelay

/-! ## Ends -/

def SessionEvent.end? : SessionEvent → Option CloseReason
  | .disconnected _ reason => some reason
  | _ => none

/-- The counter of the ends with a reason, if they are counted by it. -/
def CloseReason.counter? : CloseReason → Option Counter
  | .protocolViolation _ => some .protocolViolations
  | .authenticationFailed => some .logonsRejected
  | .heartbeatTimeout => some .heartbeatTimeouts
  | .logonTimeout => some .logonTimeouts
  | _ => none

def Counter.isOfEnds : Counter → Bool
  | .heartbeatTimeouts | .logonTimeouts | .logonsRejected | .protocolViolations => true
  | _ => false

def Counter.isOfSessions : Counter → Bool
  | .connectionsAccepted | .heartbeatsSent => true
  | k => k.isOfEnds

theorem Counter.isOfSessions_of_isOfEnds {k : Counter} (h : k.isOfEnds = true) :
    k.isOfSessions = true := by
  cases k <;> first | rfl | cases h

theorem CloseReason.blameCounter?_eq {reason : CloseReason} (h : reason.isTimeout = false) :
    Relay.blameCounter? reason = reason.counter? := by
  cases reason <;> first | rfl | cases h

namespace Registry

def ends (r : Registry) : List CloseReason := r.events.filterMap (·.end?)

variable {required : Bool} {past : List SessionEvent} {r : Registry}

theorem size_eq_countP (r : Registry) : r.size = r.sessions.countP (·.isListed) :=
  List.countP_eq_length_filter.symm

/-- What happens to one session changes a number of sessions by that one. -/
theorem countP_map_only (h : r.Numbered) {id : SessionId} {s : Session}
    (hs : r.session? id = some s) (f : Session → Session) (p : Session → Bool) :
    (r.sessions.map (Session.only id f)).countP p + (p s).toNat =
      r.sessions.countP p + (p (f s)).toNat := by
  obtain ⟨hmem, rfl⟩ := (session?_eq_some_iff h).mp hs
  obtain ⟨before, after, hsplit, hne⟩ := Session.exists_split h.nodup hmem
  have hothers : ∀ sessions : List Session, (∀ t ∈ sessions, s.id ≠ t.id) →
      sessions.map (Session.only s.id f) = sessions := fun sessions hne =>
    (List.map_congr_left fun t ht => Session.only_of_ne (hne t ht).symm f).trans (List.map_id _)
  rw [hsplit, List.map_append, List.map_cons, Session.only_of_eq rfl,
    hothers before fun t ht => hne t (List.mem_append_left after ht),
    hothers after fun t ht => hne t (List.mem_append_right before ht)]
  simp only [List.countP_append, List.countP_cons]
  cases p s <;> cases p (f s) <;> simp <;> omega

theorem size_close (h : r.Numbered) (id : SessionId) (reason : CloseReason) :
    (r.close id reason).1.size + (r.contains id).toNat = r.size := by
  rw [size_eq_countP, size_eq_countP, Relay.sessions_closed h, contains_eq h]
  cases hs : r.session? id with
  | none =>
      rw [Relay.map_only_of_forall fun s hs' hid =>
        absurd hid (session?_eq_none_iff.mp hs s hs')]
      rfl
  | some s =>
      have hcount := countP_map_only h hs (·.leave reason) (·.isListed)
      rw [Session.isListed_leave] at hcount
      exact hcount

theorem maxClients_close (r : Registry) (id : SessionId) (reason : CloseReason) :
    (r.close id reason).1.maxClients = r.maxClients := by
  unfold close
  split
  · rfl
  · simp only
    split <;> rfl

theorem Chronicled.ends_close (h : r.Chronicled required past) (id : SessionId)
    (reason : CloseReason) :
    (r.close id reason).1.ends = r.ends ++ (if r.contains id then [reason] else []) := by
  rw [ends, h.events_close, List.filterMap_append]
  split <;> rfl

theorem Chronicled.closedTotal_close (h : r.Chronicled required past) (id : SessionId)
    (reason : CloseReason) :
    (r.close id reason).1.closedTotal = r.closedTotal + (r.contains id).toNat := by
  unfold Registry.close contains
  cases hs : r.get? id with
  | none => rfl
  | some s =>
      rw [get?_eq h.numbered, Option.filter_eq_some_iff] at hs
      have hopen : s.isClosed = false := by
        rw [(h.settled_of_session? hs.1).isClosed, hs.2]
        rfl
      simp only [Session.markClosed, hopen]
      rfl

end Registry

/-! ## What is not booked -/

namespace Relay

variable {required : Bool} {past : List SessionEvent} {r r' r'' : Relay} {id : SessionId}
  {k : Counter}

/-- Nothing happened that is to be booked. -/
structure Quiet (r r' : Relay) : Prop where
  config : r'.config = r.config
  maxClients : r'.registry.maxClients = r.registry.maxClients
  size : r'.registry.size = r.registry.size
  length : r'.registry.sessions.length = r.registry.sessions.length
  closedTotal : r'.registry.closedTotal = r.registry.closedTotal
  ends : r'.registry.ends = r.registry.ends
  counts : ∀ k, k.isOfSessions = true → r'.metrics.get k = r.metrics.get k

theorem Quiet.refl (r : Relay) : Quiet r r := ⟨rfl, rfl, rfl, rfl, rfl, rfl, fun _ _ => rfl⟩

theorem Quiet.trans (h : Quiet r r') (h' : Quiet r' r'') : Quiet r r'' where
  config := h'.config.trans h.config
  maxClients := h'.maxClients.trans h.maxClients
  size := h'.size.trans h.size
  length := h'.length.trans h.length
  closedTotal := h'.closedTotal.trans h.closedTotal
  ends := h'.ends.trans h.ends
  counts k hk := (h'.counts k hk).trans (h.counts k hk)

theorem size_of_map {r r' : Registry} {f : Session → Session}
    (hsessions : r'.sessions = r.sessions.map f) (hf : ∀ s, (f s).isListed = s.isListed) :
    r'.size = r.size := by
  rw [Registry.size_eq_countP, Registry.size_eq_countP, hsessions, List.countP_map]
  exact List.countP_congr fun s _ => by rw [Function.comp, hf]

theorem quiet_modify (r : Relay) (id : SessionId) {f : Session → Session}
    (hf : ∀ s, (f s).isListed = s.isListed) : Quiet r (r.modify id f) where
  config := rfl
  maxClients := rfl
  size := by
    refine size_of_map (sessions_modify r id f) fun s => ?_
    unfold Session.only
    split
    · exact hf s
    · rfl
  length := List.length_map _
  closedTotal := rfl
  ends := rfl
  counts _ _ := rfl

theorem get_count {k' : Counter} (hne : k' ≠ k) (r : Relay) :
    (r.count k').metrics.get k = r.metrics.get k := by
  rw [count, Metrics.incr, Metrics.get_add, if_neg hne]

theorem quiet_count (hk : k.isOfSessions = false) (r : Relay) : Quiet r (r.count k) where
  config := rfl
  maxClients := rfl
  size := rfl
  length := rfl
  closedTotal := rfl
  ends := rfl
  counts k' hk' := by
    refine get_count ?_ r
    rintro rfl
    exact Bool.false_ne_true (hk.symm.trans hk')

theorem quiet_countEnqueue (r : Relay) (outcome : PushOutcome) :
    Quiet r (r.countEnqueue outcome) where
  config := rfl
  maxClients := rfl
  size := rfl
  length := rfl
  closedTotal := rfl
  ends := rfl
  counts k hk := by
    rw [countEnqueue, Metrics.recordEnqueue]
    split <;> cases k <;> first | exact absurd hk Bool.false_ne_true | simp [Metrics.incr]

theorem quiet_enqueue (r : Relay) (id : SessionId) (m : Message) : Quiet r (r.enqueue id m) := by
  unfold enqueue
  split
  · exact .refl r
  · have hmodify : Quiet r (r.modify id (·.push m.encode)) := quiet_modify r id fun _ => rfl
    simp only
    split
    · exact hmodify.trans (quiet_countEnqueue _ _)
    · exact hmodify

theorem quiet_send (r : Relay) (own id : SessionId) (m : Message) : Quiet r (r.send own id m) := by
  unfold send
  split
  · exact quiet_enqueue r id m
  · split
    · exact quiet_enqueue r id m
    · exact .refl r

theorem quiet_subscribe (r : Relay) (id : SessionId) (symbol : SymbolId) :
    Quiet r (r.subscribe id symbol).1 := by
  unfold subscribe
  split
  · exact .refl r
  · rename_i s hs
    have hmodify : Quiet r
        (r.modify id fun t => (t.subscribe symbol).1.push (r.snapshotMessage symbol).encode) :=
      quiet_modify r id fun _ => rfl
    exact hmodify.trans (quiet_countEnqueue _ s.queue.outcome)

theorem quiet_handle (r : Relay) (id : SessionId) (m : Message) (now : Instant) :
    Quiet r (r.handle id m now).1 := by
  refine handle_cases (P := Quiet r) (.refl r) ?_
  intro s r' _ _ hhandled
  cases hhandled with
  | subscribed hack => exact quiet_subscribe r s.id _
  | refused hm hrefused => exact quiet_modify r s.id fun _ => rfl
  | noted hack hway hlogon => exact quiet_modify r s.id fun t => (hway t).isListed

theorem quiet_authenticate (r : Relay) (id : SessionId) (username : String) (now : Instant) :
    Quiet r { r with registry := (r.registry.authenticate id username now).1 } := by
  have hmodify : Quiet r (r.modify id fun s => (s.authenticate username now).1) :=
    quiet_modify r id fun s => (s.sameWay_authenticate username now).isListed
  unfold Registry.authenticate
  split
  · exact .refl r
  · simp only
    split
    · refine { hmodify with ends := ?_ }
      rw [Registry.tell, Registry.ends, List.filterMap_append]
      exact List.append_nil _
    · exact hmodify

theorem quiet_publish (r : Relay) (e : MarketEvent) (elapsed : Nat) :
    Quiet r (r.step (.publish e elapsed)) where
  config := rfl
  maxClients := rfl
  size := size_of_map rfl fun s => by split <;> rfl
  length := List.length_map _
  closedTotal := rfl
  ends := rfl
  counts k hk := by
    rw [step, publish, Metrics.get_recordPublish]
    cases k <;> first | rfl | cases hk

/-! ## What is booked -/

/-- Admissions and ends are in the books. -/
structure Balanced (r : Relay) : Prop where
  admitted : r.metrics.get .connectionsAccepted = r.registry.sessions.length % UInt64.size
  listed : r.registry.size + r.registry.closedTotal = r.registry.sessions.length
  closedTotal : r.registry.closedTotal = r.registry.ends.length
  ends : ∀ k, k.isOfEnds = true →
    r.metrics.get k = r.registry.ends.countP (·.counter? == some k) % UInt64.size
  limit : r.registry.maxClients = r.config.maxClients
  size_le : r.registry.size ≤ r.config.maxClients

theorem balanced_ofConfig (c : Config) : (ofConfig c).Balanced where
  admitted := Metrics.get_empty _
  listed := rfl
  closedTotal := rfl
  ends _ _ := Metrics.get_empty _
  limit := rfl
  size_le := Nat.zero_le _

theorem Balanced.quiet (h : r.Balanced) (hquiet : Quiet r r') : r'.Balanced where
  admitted := by rw [hquiet.counts _ rfl, hquiet.length, h.admitted]
  listed := by rw [hquiet.size, hquiet.closedTotal, hquiet.length, h.listed]
  closedTotal := by rw [hquiet.closedTotal, hquiet.ends, h.closedTotal]
  ends k hk := by
    rw [hquiet.counts k (Counter.isOfSessions_of_isOfEnds hk), hquiet.ends, h.ends k hk]
  limit := by rw [hquiet.maxClients, hquiet.config, h.limit]
  size_le := by rw [hquiet.size, hquiet.config]; exact h.size_le

theorem Balanced.countHeartbeat (h : r.Balanced) : (r.count .heartbeatsSent).Balanced where
  admitted := by
    have hne : Counter.heartbeatsSent ≠ .connectionsAccepted := nofun
    exact (get_count hne r).trans h.admitted
  listed := h.listed
  closedTotal := h.closedTotal
  ends k hk := by
    have hne : Counter.heartbeatsSent ≠ k := by
      rintro rfl
      cases hk
    exact (get_count hne r).trans (h.ends k hk)
  limit := h.limit
  size_le := h.size_le

theorem Balanced.letIn (h : r.Balanced) {peer : SocketAddress} {now : Instant}
    (henlist : r.enlist peer now = .ok (id, r')) : (r'.count .connectionsAccepted).Balanced := by
  obtain ⟨hroom, -, s, hlisted, -, -, rfl⟩ := exists_eq_of_enlist henlist
  -- the registry before observers are told
  let q : Registry := { r.registry with sessions := r.registry.sessions ++ [s] }
  have hsize : q.size = r.registry.size + 1 := by
    rw [Registry.size_eq_countP, Registry.size_eq_countP, List.countP_append,
      List.countP_singleton, if_pos hlisted]
  have hlength : q.sessions.length = r.registry.sessions.length + 1 := List.length_append
  have hends : (q.tell (.connected s.id peer)).ends = r.registry.ends := by
    rw [Registry.tell, Registry.ends, List.filterMap_append]
    exact List.append_nil _
  constructor
  case admitted =>
    rw [count, Metrics.incr, Metrics.get_add, if_pos rfl, h.admitted, Nat.mod_add_mod, ← hlength]
    rfl
  case listed =>
    change q.size + r.registry.closedTotal = q.sessions.length
    rw [hsize, hlength, ← h.listed, Nat.add_right_comm]
  case closedTotal =>
    change r.registry.closedTotal = (q.tell (.connected s.id peer)).ends.length
    rw [hends, h.closedTotal]
  case ends =>
    intro k hk
    have hne : Counter.connectionsAccepted ≠ k := by
      rintro rfl
      cases hk
    change _ = (q.tell (.connected s.id peer)).ends.countP (·.counter? == some k) % UInt64.size
    rw [get_count hne, hends, h.ends k hk]
  case limit => exact h.limit
  case size_le =>
    change q.size ≤ r.config.maxClients
    rw [hsize, ← h.limit]
    exact hroom

/-- An end is booked under its reason if there is a session to end, and not at all otherwise. -/
theorem Balanced.leave (h : r.Balanced) (hchronicled : r.registry.Chronicled required past)
    {reason : CloseReason} (hconfig : r'.config = r.config)
    (hregistry : r'.registry = (r.registry.close id reason).1)
    (hcounts : ∀ k, k.isOfSessions = true → r'.metrics.get k =
      (r.metrics.get k + if r.registry.contains id && reason.counter? == some k then 1 else 0) %
        UInt64.size) : r'.Balanced := by
  have hsize := Registry.size_close hchronicled.numbered id reason
  have hlength : (r.registry.close id reason).1.sessions.length = r.registry.sessions.length := by
    rw [sessions_closed hchronicled.numbered, List.length_map]
  have htotal := hchronicled.closedTotal_close id reason
  have hends := hchronicled.ends_close id reason
  constructor
  case admitted =>
    have hother : (reason.counter? == some .connectionsAccepted) = false := by
      cases reason <;> rfl
    rw [hcounts _ rfl, hother, Bool.and_false, hregistry, hlength, h.admitted]
    simp
  case listed =>
    have hlisted := h.listed
    rw [hregistry, hlength, htotal]
    omega
  case closedTotal =>
    rw [hregistry, htotal, hends, List.length_append, h.closedTotal]
    cases r.registry.contains id <;> rfl
  case ends =>
    intro k hk
    rw [hcounts k (Counter.isOfSessions_of_isOfEnds hk), hregistry, hends, List.countP_append,
      h.ends k hk, Nat.mod_add_mod]
    cases r.registry.contains id with
    | true => rw [if_pos rfl, List.countP_singleton, Bool.true_and]
    | false => rfl
  case limit =>
    rw [hregistry, hconfig, ← h.limit]
    exact Registry.maxClients_close _ id reason
  case size_le =>
    have hle := h.size_le
    rw [hregistry, hconfig]
    omega

theorem get_close {reason : CloseReason} (h : reason.isTimeout = false) (k : Counter) :
    (r.close id reason).1.metrics.get k =
      (r.metrics.get k + if r.registry.contains id && reason.counter? == some k then 1 else 0) %
        UInt64.size := by
  unfold close
  simp only [CloseReason.blameCounter?_eq h, Registry.snd_close]
  cases reason.counter? with
  | none => simp [Metrics.get_mod_size]
  | some c =>
      cases r.registry.contains id with
      | false => simp [Metrics.get_mod_size]
      | true =>
          by_cases hc : c = k
          · simp [count, Metrics.incr, hc]
          · simp [count, Metrics.incr, hc, Metrics.get_mod_size]

theorem config_close (r : Relay) (id : SessionId) (reason : CloseReason) :
    (r.close id reason).1.config = r.config :=
  congrArg Prod.fst (backdrop_close r id reason)

theorem Balanced.close (h : r.Balanced) (hchronicled : r.registry.Chronicled required past)
    (id : SessionId) {reason : CloseReason} (hreason : reason.isTimeout = false) :
    (r.close id reason).1.Balanced :=
  h.leave hchronicled (config_close r id reason) (registry_close r id reason) fun k _ =>
    get_close hreason k

/-- A session that is dropped for its silence is still listed, so that its end can be counted
outright. -/
theorem Balanced.timeOut (h : r.Balanced) (hchronicled : r.registry.Chronicled required past)
    (hlisted : r.registry.contains id = true) {reason : CloseReason} {c : Counter}
    (hcounter : reason.counter? = some c) : (r.timeOut id reason c).1.Balanced := by
  have hconfig : (r.timeOut id reason c).1.config = r.config :=
    congrArg Prod.fst (backdrop_timeOut r id reason c)
  refine h.leave hchronicled hconfig (registry_timeOut r id reason c) fun k _ => ?_
  rw [hlisted, hcounter]
  by_cases hc : c = k
  · simp [Relay.timeOut, Registry.snd_close, hlisted, count, Metrics.incr, hc]
  · simp [Relay.timeOut, Registry.snd_close, hlisted, count, Metrics.incr, hc,
      Metrics.get_mod_size]

theorem Balanced.sendHeartbeat (h : r.Balanced) (s : Session) (now : Instant) (clock : Int64) :
    (r.sendHeartbeat s now clock).1.Balanced := by
  have hmarked : Quiet r (r.modify s.id (·.markHeartbeatSent now)) :=
    quiet_modify r s.id fun _ => rfl
  have hsent := h.quiet (hmarked.trans (quiet_enqueue _ s.id (heartbeatFor s clock)))
  simp only [Relay.sendHeartbeat]
  split
  · exact hsent.countHeartbeat
  · exact hsent

theorem Balanced.sweepSession {acc : Relay × SweepReport} (h : acc.1.Balanced)
    (hchronicled : acc.1.registry.Chronicled required past) {s : Session}
    (hlisted : acc.1.registry.contains s.id = true) (l : Liveness) (now : Instant)
    (clock : Int64) : (Relay.sweepSession l now clock acc s).1.Balanced := by
  unfold Relay.sweepSession
  cases s.auth with
  | authenticated =>
      simp only
      split
      · exact h.timeOut hchronicled hlisted rfl
      · split
        · have hsent := h.sendHeartbeat s now clock
          cases hheartbeat : acc.1.sendHeartbeat s now clock with
          | mk r' taken =>
              rw [hheartbeat] at hsent
              cases taken with
              | true => exact hsent
              | false => exact hsent
        · exact h
  | unauthenticated =>
      simp only
      split
      · exact h.timeOut hchronicled hlisted rfl
      · exact h
  | rejected => exact h

theorem Balanced.sweep (h : r.Balanced) (hchronicled : r.registry.Chronicled required past)
    (l : Liveness) (now : Instant) (clock : Int64) : (r.step (.sweep l now clock)).Balanced := by
  refine (sweep_induction hchronicled.numbered (P := fun _ acc =>
    acc.1.Balanced ∧ acc.1.registry.Chronicled required past) ⟨h, hchronicled⟩ ?_).1
  rintro _ acc s ⟨hbalanced, hchronicled'⟩ hcontains -
  exact ⟨hbalanced.sweepSession hchronicled' hcontains l now clock,
    chronicled_sweepSession hchronicled' l now clock s⟩

theorem Balanced.shutDownSession (h : r.Balanced)
    (hchronicled : r.registry.Chronicled required past) (id : SessionId) :
    (Server.shutDownSession r id).Balanced := by
  have hquiet : Quiet r (r.modify id (·.push Server.farewell.encode)) :=
    quiet_modify r id fun _ => rfl
  have hpushed := chronicled_modify (f := (·.push Server.farewell.encode)) hchronicled id
    (fun _ => rfl) fun _ ht => ht.told_push _
  exact (h.quiet hquiet).close hpushed id rfl

theorem Balanced.stop (h : r.Balanced) (hchronicled : r.registry.Chronicled required past) :
    (r.step .stop).Balanced :=
  (foldl_induction (P := fun r' : Relay => r'.Balanced ∧ r'.registry.Chronicled required past)
    (fun _ id h => ⟨h.1.shutDownSession h.2 id, chronicled_shutDownSession h.2 id⟩)
    ⟨h, hchronicled⟩ _).1

theorem Balanced.applyOne (h : r.Balanced) (hchronicled : r.registry.Chronicled required past)
    (id : SessionId) (now : Instant) {e : Effect} (he : IsAnswering id e) :
    (Relay.applyOne id now r e).Balanced := by
  cases e with
  | send id' m => exact h.quiet (quiet_send r id id' m)
  | authenticate id' username => exact h.quiet (quiet_authenticate r id' username now)
  | close id' reason => exact h.close hchronicled id' (he.closes id' reason rfl)

theorem Balanced.works (h : r.Balanced) (hchronicled : r.registry.Chronicled required past)
    (hworks : Works r r') : r'.Balanced := by
  cases hworks with
  | same => exact h
  | count k hk =>
      refine h.quiet (quiet_count ?_ r)
      rcases hk with rfl | rfl | rfl
      all_goals rfl
  | letIn peer now henlist => exact h.letIn henlist
  | handle id m now => exact h.quiet ((quiet_count rfl r).trans (quiet_handle _ id m now))
  | apply id now e he => exact h.applyOne hchronicled id now he
  | takeLeave id => exact h.shutDownSession hchronicled id
  | stop => exact h.stop hchronicled
  | drain id => exact h.quiet (quiet_modify r id fun _ => rfl)
  | sweep l now clock => exact h.sweep hchronicled l now clock
  | publish e elapsed => exact h.quiet (quiet_publish r e elapsed)

end Relay
end MarketRelay
