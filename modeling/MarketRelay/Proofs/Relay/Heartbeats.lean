import MarketRelay.Proofs.Config.Validate
import MarketRelay.Proofs.Relay.Clocks
import MarketRelay.Proofs.Relay.FanOut
import MarketRelay.Proofs.Relay.LogonGate
import Mathlib.Data.List.Chain

/-!
# How heartbeats are spaced

The relay looks at its sessions twice in an interval, and a look that finds a client owed a
heartbeat sends it.  If no two looks are further apart than that, the heartbeats of a client are an
interval apart, and by less than a period more; the first comes no sooner than an interval after the
client logged on.

A client is owed the next heartbeat by the clock that the last one set, and no other step touches
that clock once the client has logged on, so what else happens does not matter.  This makes the
proof an induction on the steps in which looks are the only interesting case: a look that finds no
heartbeat owed comes before one is due (`lt_of_not_owed`), so the next look comes less than a period
after it is.

* `isChain_heartbeatTimes`: the spacing, from a session that has logged on and any clock.
* `IsStranger.isChain_heartbeatTimes`: the same from a session that has not, where nothing is sent
  until the logon sets the clock.
* `heartbeats_spaced`: for valid settings, in which two periods make an interval
  (`period_mul_two`).
-/
namespace MarketRelay

/-! ## Frames -/

def Message.isHeartbeat : Message → Bool
  | .heartbeat _ => true
  | _ => false

def heartbeatsOf (frames : List (List UInt8)) : List (List UInt8) :=
  frames.filter fun frame =>
    match Message.decode defaultFrameLimit frame with
    | .ok m => m.isHeartbeat
    | .error _ => false

theorem heartbeatsOf_append (frames frames' : List (List UInt8)) :
    heartbeatsOf (frames ++ frames') = heartbeatsOf frames ++ heartbeatsOf frames' :=
  List.filter_append ..

theorem Message.isHeartbeat_norm (m : Message) : m.norm.isHeartbeat = m.isHeartbeat := by
  cases m with
  | heartbeat m => rfl
  | _ => exact Eq.trans (b := false) rfl rfl

theorem heartbeatsOf_map_encode (ms : List Message) :
    heartbeatsOf (ms.map Message.encode) = (ms.filter Message.isHeartbeat).map Message.encode :=
  filter_decode_map_encode Message.isHeartbeat_norm ms

/-! ## One session -/

theorem Instant.le_since_iff {now past elapsed : Nat} (hpos : 0 < elapsed) :
    elapsed ≤ Instant.since now past ↔ past + elapsed ≤ now := by
  unfold Instant.since
  omega

namespace Session

variable {r : Relay} {st : Step} {s : Session}

theorem isHeartbeatDue_iff {now : Instant} {interval : Nat} (hpos : 0 < interval) :
    s.isHeartbeatDue now interval = true ↔ s.heartbeatSentAt + interval ≤ now :=
  decide_eq_true_iff.trans (Instant.le_since_iff hpos)

/-- The message that a look finds the client of the session owed. -/
def owed (st : Step) (s : Session) : Option Message :=
  match st with
  | .sweep l now clock =>
    if s.isListed && s.isOwed l now then some (Relay.heartbeatFor s clock) else none
  | _ => none

/-- Only looks push heartbeats. -/
theorem heartbeats_pushed (r : Relay) (st : Step) (s : Session) :
    (s.pushed r st).toList.filter Message.isHeartbeat = (s.owed st).toList := by
  cases st with
  | message id m handledAt appliedAt =>
      simp only [pushed, owed, Option.toList_none, List.filter_eq_nil_iff, Option.mem_toList]
      intro m' hm'
      split at hm'
      · have hanswer := isAnswer_reply hm'
        cases m' with
        | heartbeat m' => cases hanswer
        | _ => exact Bool.false_ne_true
      · cases hm'
  | publish e elapsed =>
      obtain ⟨symbol, o⟩ := e
      simp only [pushed, owed]
      split
      · cases o <;> rfl
      · rfl
  | sweep l now clock =>
      simp only [pushed, owed]
      split <;> rfl
  | stop =>
      simp only [pushed, owed]
      split <;> rfl
  | _ => rfl

theorem heartbeatsOf_newFrames (h : s.isListed = true → s.queue.isClosed = false) (r : Relay)
    (st : Step) :
    heartbeatsOf (OutboundQueue.newFrames s.queue (s.after r st).queue) =
      (s.owed st).toList.map Message.encode := by
  rw [newFrames_after]
  split
  · rename_i hclosed
    have hunlisted : s.isListed = false := by
      rw [Bool.eq_false_iff]
      exact fun hlisted => Bool.false_ne_true ((h hlisted).symm.trans hclosed)
    cases st with
    | sweep l now clock => simp only [owed, hunlisted, Bool.false_and]; rfl
    | _ => rfl
  · have hmap : ((s.pushed r st).map Message.encode).toList =
        (s.pushed r st).toList.map Message.encode := by
      cases s.pushed r st <;> rfl
    rw [hmap, heartbeatsOf_map_encode, heartbeats_pushed]

theorem auth_after (hauth : s.auth ≠ .unauthenticated) (r : Relay) (st : Step) :
    (s.after r st).auth ≠ .unauthenticated ∧
      ((s.after r st).isAuthenticated = true → s.isAuthenticated = true) := by
  have hsame : (s.after r st).auth = s.auth →
      (s.after r st).auth ≠ .unauthenticated ∧
        ((s.after r st).isAuthenticated = true → s.isAuthenticated = true) := by
    intro heq
    rw [isAuthenticated, isAuthenticated, heq]
    exact ⟨hauth, fun h => h⟩
  cases s.clockChange_after r st with
  | loggedOn hstep hbefore => exact absurd hbefore hauth
  | heard hstep hkept => exact hsame hkept
  | sent hstep howed hkept => exact hsame hkept
  | kept hunheard hunsent hkept =>
      rcases hkept with heq | hrejected
      · exact hsame heq
      · rw [isAuthenticated, hrejected]
        exact ⟨by decide, fun h => absurd h (by decide)⟩

theorem heartbeatSentAt_after (hauth : s.auth ≠ .unauthenticated) (r : Relay) (st : Step)
    (hunowed : s.owed st = none) : (s.after r st).heartbeatSentAt = s.heartbeatSentAt := by
  cases s.clockChange_after r st with
  | loggedOn hstep hbefore => exact absurd hbefore hauth
  | heard hstep hkept hreceived hsent => exact hsent
  | sent hstep howed =>
      rw [hstep, owed, if_pos howed] at hunowed
      cases hunowed
  | kept hunheard hunsent hkept hreceived hsent => exact hsent

theorem heartbeatSentAt_after_of_owed {l : Liveness} {now : Instant} {clock : Int64}
    (howed : (s.isListed && s.isOwed l now) = true) (r : Relay) :
    (s.after r (.sweep l now clock)).heartbeatSentAt = now := by
  rw [(s.sameClient_after r _).heartbeatSentAt, updated, if_pos howed]
  rfl

/-- A look that leaves a session listed and finds no heartbeat owed comes before one is due. -/
theorem lt_of_not_owed {l : Liveness} {now : Instant} {clock : Int64} (hpos : 0 < l.interval)
    (hunowed : s.owed (.sweep l now clock) = none)
    (hlisted : (s.after r (.sweep l now clock)).isListed = true)
    (hauth : s.isAuthenticated = true) : now < s.heartbeatSentAt + l.interval := by
  obtain ⟨hbefore, hsilence⟩ := isListed_after hlisted
  refine Nat.lt_of_not_le fun hdue => ?_
  have howed : (s.isListed && s.isOwed l now) = true := by
    have hsilence : s.silence l now = none := hsilence
    rw [hbefore, isOwed, hauth, hsilence, (isHeartbeatDue_iff hpos).mpr hdue]
    rfl
  rw [owed, if_pos howed] at hunowed
  cases hunowed

end Session

/-! ## Runs -/

def sweepTimes (steps : List Step) : List Instant :=
  steps.filterMap fun
    | .sweep _ now _ => some now
    | _ => none

namespace Liveness

/-- A look comes in time after another: no later than a period after it. -/
def InTime (l : Liveness) (t t' : Instant) : Prop := t ≤ t' ∧ t' ≤ t + l.period

/-- A heartbeat follows another as it should: an interval later, and by less than a period more. -/
def Spaced (l : Liveness) (t t' : Instant) : Prop :=
  t + l.interval ≤ t' ∧ t' < t + l.interval + l.period

instance (l : Liveness) : DecidableRel l.InTime := fun _ _ => inferInstanceAs (Decidable (_ ∧ _))

instance (l : Liveness) : DecidableRel l.Spaced := fun _ _ => inferInstanceAs (Decidable (_ ∧ _))

end Liveness

namespace Relay

variable {l : Liveness} {r : Relay} {id : SessionId} {st : Step} {steps : List Step}
  {s t : Session}

/-- The moment of a look that queues a heartbeat for a session, once for each that it queues. -/
def heartbeatAt (r : Relay) (id : SessionId) (st : Step) : List Instant :=
  match st with
  | .sweep _ now _ =>
    (heartbeatsOf (OutboundQueue.newFrames (r.queue id) ((r.step st).queue id))).map fun _ => now
  | _ => []

def heartbeatTimes (id : SessionId) : Relay → List Step → List Instant :=
  gather (·.heartbeatAt id)

theorem heartbeatsOf_newFrames_step (h : r.Orderly) (hs : r.session? id = some s) (st : Step) :
    heartbeatsOf (OutboundQueue.newFrames (r.queue id) ((r.step st).queue id)) =
      (s.owed st).toList.map Message.encode := by
  rw [queue_of_some hs, queue_of_some (session?_step_of_some h.numbered hs st)]
  exact Session.heartbeatsOf_newFrames (h.session hs).isOpen r st

theorem heartbeatAt_of_not_owed (h : r.Orderly) (hs : r.session? id = some s)
    (hunowed : s.owed st = none) : r.heartbeatAt id st = [] := by
  cases st with
  | sweep l now clock =>
      rw [heartbeatAt, heartbeatsOf_newFrames_step h hs, hunowed]
      rfl
  | _ => rfl

theorem heartbeatAt_of_owed (h : r.Orderly) (hs : r.session? id = some s) {now : Instant}
    {clock : Int64} (howed : (s.isListed && s.isOwed l now) = true) :
    r.heartbeatAt id (.sweep l now clock) = [now] := by
  rw [heartbeatAt, heartbeatsOf_newFrames_step h hs, Session.owed, if_pos howed]
  rfl

theorem length_heartbeatsOf_accepted (h : r.Orderly) (id : SessionId) (steps : List Step) :
    (heartbeatsOf (accepted id r steps)).length = (heartbeatTimes id r steps).length := by
  induction steps generalizing r with
  | nil => rfl
  | cons st steps ih =>
      have hone : (heartbeatsOf
          (OutboundQueue.newFrames (r.queue id) ((r.step st).queue id))).length =
            (r.heartbeatAt id st).length := by
        cases st with
        | sweep l now clock => rw [heartbeatAt, List.length_map]
        | _ =>
            cases hs : r.session? id with
            | none => rw [newFrames_step_of_none h.numbered hs]; rfl
            | some s => rw [heartbeatsOf_newFrames_step h hs]; rfl
      rw [accepted, heartbeatTimes, gather, ← heartbeatTimes, heartbeatsOf_append,
        List.length_append, List.length_append, hone, ih (h.step st)]

/-- Once a client has logged on, it is sent heartbeats as it should be; the first comes no sooner
than its clock says, and in time if the last look was before that. -/
theorem isChain_heartbeatTimes (hpos : 0 < l.interval) (h : r.Orderly)
    (hs : r.session? id = some s) (hauth : s.auth ≠ .unauthenticated) {steps : List Step}
    (hsettings : ∀ l' now clock, .sweep l' now clock ∈ steps → l' = l) {last : Instant}
    (hsweeps : (last :: sweepTimes steps).IsChain l.InTime) :
    (heartbeatTimes id r steps).IsChain l.Spaced ∧
      ∀ t ∈ (heartbeatTimes id r steps).head?, s.heartbeatSentAt + l.interval ≤ t ∧
        ((s.isListed = true → s.isAuthenticated = true →
            last < s.heartbeatSentAt + l.interval) → l.Spaced s.heartbeatSentAt t) := by
  induction steps generalizing r s last with
  | nil => exact ⟨.nil, fun _ h => by cases h⟩
  | cons st steps ih =>
      have hs' := session?_step_of_some h.numbered hs st
      obtain ⟨hauth', hbefore⟩ := Session.auth_after hauth r st
      have hsettings' : ∀ l' now clock, .sweep l' now clock ∈ steps → l' = l :=
        fun l' now clock hmem => hsettings l' now clock (List.mem_cons_of_mem st hmem)
      have ih := fun (last : Instant) (hsweeps : (last :: sweepTimes steps).IsChain l.InTime) =>
        ih (h.step st) hs' hauth' hsettings' hsweeps
      rw [heartbeatTimes, gather, ← heartbeatTimes]
      cases howed : s.owed st with
      | none =>
          rw [heartbeatAt_of_not_owed h hs howed, List.nil_append]
          have hclock := Session.heartbeatSentAt_after hauth r st howed
          rw [hclock] at ih
          cases st with
          | sweep l' now clock =>
              -- the look came too early, so from here on it is the last one before the deadline
              obtain rfl := hsettings l' now clock List.mem_cons_self
              obtain ⟨hgap, hsweeps⟩ := List.isChain_cons_cons.mp hsweeps
              obtain ⟨hchain, hfirst⟩ := ih now hsweeps
              refine ⟨hchain, fun t ht => ⟨(hfirst t ht).1, fun _ => (hfirst t ht).2 ?_⟩⟩
              exact fun hlisted hauthed =>
                Session.lt_of_not_owed hpos howed hlisted (hbefore hauthed)
          | _ =>
              obtain ⟨hchain, hfirst⟩ := ih last hsweeps
              refine ⟨hchain, fun t ht => ⟨(hfirst t ht).1, fun hlast => (hfirst t ht).2 ?_⟩⟩
              exact fun hlisted hauthed =>
                hlast (Session.isListed_after hlisted).1 (hbefore hauthed)
      | some m =>
          cases st with
          | sweep l' now clock =>
              obtain rfl := hsettings l' now clock List.mem_cons_self
              have howed : (s.isListed && s.isOwed l' now) = true := by
                by_contra hunowed
                rw [Session.owed, if_neg hunowed] at howed
                cases howed
              obtain ⟨hgap, hsweeps⟩ := List.isChain_cons_cons.mp hsweeps
              obtain ⟨hchain, hfirst⟩ := ih now hsweeps
              rw [Session.heartbeatSentAt_after_of_owed howed] at hfirst
              rw [heartbeatAt_of_owed h hs howed, List.singleton_append]
              constructor
              · refine List.isChain_cons.mpr ⟨fun t ht => (hfirst t ht).2 fun _ _ => ?_, hchain⟩
                exact Nat.lt_add_of_pos_right hpos
              · rintro t ⟨⟩
                simp only [Bool.and_eq_true, Session.isOwed] at howed
                obtain ⟨hlisted, ⟨hauthed, -⟩, hdue⟩ := howed
                have hle := (Session.isHeartbeatDue_iff hpos).mp hdue
                refine ⟨hle, fun hlast => ⟨hle, ?_⟩⟩
                exact Nat.lt_of_le_of_lt hgap.2 (Nat.add_lt_add_right (hlast hlisted hauthed) _)
          | _ => cases howed

/-! ## Logging on first -/

theorem authenticatedAt_eq_nil (h : r.registry.Numbered) (hs : r.session? id = some s)
    (hauth : s.auth ≠ .unauthenticated) (st : Step) : r.authenticatedAt id st = [] := by
  cases hbefore : s.isAuthenticated with
  | true => exact authenticatedAt_of_authenticated hs hbefore st
  | false =>
      have hafter : (s.after r st).isAuthenticated = false := by
        rw [Bool.eq_false_iff]
        intro hafter
        rw [(Session.auth_after hauth r st).2 hafter] at hbefore
        cases hbefore
      rw [authenticatedAt, hs, session?_step_of_some h hs, Option.any_some, Option.any_some,
        hbefore, hafter]
      rfl

theorem authentications_eq_nil (h : r.registry.Numbered) (hs : r.session? id = some s)
    (hauth : s.auth ≠ .unauthenticated) (steps : List Step) : authentications id r steps = [] := by
  induction steps generalizing r s with
  | nil => rfl
  | cons st steps ih =>
      rw [authentications, gather, ← authentications, authenticatedAt_eq_nil h hs hauth,
        ih (numbered_step h st) (session?_step_of_some h hs st) (Session.auth_after hauth r st).1]
      rfl

theorem IsStranger.authenticatedAt_eq (hstranger : r.IsStranger id) (h : r.registry.Numbered)
    (ht : (r.step st).session? id = some t) (hauth : t.auth = .authenticated) :
    r.authenticatedAt id st = [t.heartbeatSentAt] := by
  have hauthed : t.isAuthenticated = true := Session.isAuthenticated_iff.mpr hauth
  cases hs : r.session? id with
  | none =>
      obtain ⟨peer, now, rfl, rfl⟩ := session?_step_of_none h hs ht
      rw [authenticatedAt, hs, ht, Option.any_some, if_pos hauthed]
      rfl
  | some s =>
      obtain rfl : s.after r st = t :=
        Option.some.inj ((session?_step_of_some h hs st).symm.trans ht)
      have hbefore : s.isAuthenticated = false :=
        Bool.eq_false_iff.mpr fun hbefore =>
          hstranger s hs (Session.isAuthenticated_iff.mp hbefore)
      have hsame : (s.after r st).auth ≠ s.auth :=
        fun heq => hstranger s hs (heq.symm.trans hauth)
      cases s.clockChange_after r st with
      | loggedOn hstep _ _ _ hsent =>
          rw [authenticatedAt, hs, ht, Option.any_some, Option.any_some, hbefore, hauthed, hsent,
            hstep]
          rfl
      | heard hstep hkept => exact absurd hkept hsame
      | sent hstep howed hkept => exact absurd hkept hsame
      | kept hunheard hunsent hkept =>
          rcases hkept with heq | hrejected
          · exact absurd heq hsame
          · cases hauth.symm.trans hrejected

theorem IsStranger.heartbeatAt_eq_nil (hstranger : r.IsStranger id) (h : r.Orderly) (st : Step) :
    r.heartbeatAt id st = [] := by
  cases hs : r.session? id with
  | none =>
      cases st with
      | sweep l now clock =>
          rw [heartbeatAt, newFrames_step_of_none h.numbered hs]
          rfl
      | _ => rfl
  | some s =>
      have hbefore : s.isAuthenticated = false :=
        Bool.eq_false_iff.mpr fun hbefore =>
          hstranger s hs (Session.isAuthenticated_iff.mp hbefore)
      refine heartbeatAt_of_not_owed h hs ?_
      cases st with
      | sweep l now clock => simp [Session.owed, Session.isOwed, hbefore]
      | _ => rfl

theorem IsStranger.authenticatedAt_eq_nil (hstranger : r.IsStranger id)
    (hstranger' : (r.step st).IsStranger id) : r.authenticatedAt id st = [] := by
  have hnot : ∀ {r : Relay}, r.IsStranger id →
      (r.session? id).any (·.isAuthenticated) = false := by
    intro r hstranger
    cases hs : r.session? id with
    | none => rfl
    | some s =>
        rw [Option.any_some, Bool.eq_false_iff]
        exact fun hauth => hstranger s hs (Session.isAuthenticated_iff.mp hauth)
  rw [authenticatedAt, hnot hstranger, hnot hstranger']
  rfl

theorem exists_isChain_cons {times : List Instant} (h : times.IsChain l.InTime) :
    ∃ last, (last :: times).IsChain l.InTime := by
  cases times with
  | nil => exact ⟨0, .singleton 0⟩
  | cons t times => exact ⟨t, h.cons_cons ⟨Nat.le_refl t, Nat.le_add_right t l.period⟩⟩

theorem isChain_sweepTimes_tail (h : (sweepTimes (st :: steps)).IsChain l.InTime) :
    (sweepTimes steps).IsChain l.InTime := by
  cases st with
  | sweep l' now clock => exact h.tail
  | _ => exact h

/-- A client that has not logged on yet is sent heartbeats as it should be once it has, the first
no sooner than an interval later. -/
theorem IsStranger.isChain_heartbeatTimes (hpos : 0 < l.interval) (h : r.Orderly)
    (hstranger : r.IsStranger id) {steps : List Step}
    (hsettings : ∀ l' now clock, .sweep l' now clock ∈ steps → l' = l)
    (hsweeps : (sweepTimes steps).IsChain l.InTime) :
    (heartbeatTimes id r steps).IsChain l.Spaced ∧
      ∀ t ∈ (heartbeatTimes id r steps).head?,
        ∃ since, authentications id r steps = [since] ∧ since + l.interval ≤ t := by
  induction steps generalizing r with
  | nil => exact ⟨.nil, fun _ h => by cases h⟩
  | cons st steps ih =>
      have hsettings' : ∀ l' now clock, .sweep l' now clock ∈ steps → l' = l :=
        fun l' now clock hmem => hsettings l' now clock (List.mem_cons_of_mem st hmem)
      have hsweeps' := isChain_sweepTimes_tail hsweeps
      rw [heartbeatTimes, gather, ← heartbeatTimes, hstranger.heartbeatAt_eq_nil h, authentications,
        gather, ← authentications, List.nil_append]
      by_cases hstranger' : (r.step st).IsStranger id
      · rw [hstranger.authenticatedAt_eq_nil hstranger', List.nil_append]
        exact ih (h.step st) hstranger' hsettings' hsweeps'
      · -- the client logs on in this step, and its clock shows when
        simp only [IsStranger, not_forall, not_not] at hstranger'
        obtain ⟨t, ht, hauth⟩ := hstranger'
        have hne : t.auth ≠ .unauthenticated := by
          rw [hauth]
          decide
        obtain ⟨last, hlast⟩ := exists_isChain_cons hsweeps'
        obtain ⟨hchain, hfirst⟩ :=
          Relay.isChain_heartbeatTimes hpos (h.step st) ht hne hsettings' hlast
        rw [hstranger.authenticatedAt_eq h.numbered ht hauth,
          authentications_eq_nil (numbered_step h.numbered st) ht hne]
        exact ⟨hchain, fun t' ht' => ⟨t.heartbeatSentAt, rfl, (hfirst t' ht').1⟩⟩

end Relay

/-! ## Valid settings -/

namespace Liveness

variable {c : Config}

theorem interval_pos (h : c.validate = .ok ()) : 0 < (ofConfig c).interval := by
  have hne := (Config.validate_eq_ok_iff.mp h).heartbeat_ne
  exact Nat.mul_pos (Nat.pos_of_ne_zero hne) (by decide)

theorem period_mul_two (h : c.validate = .ok ()) :
    (ofConfig c).period * 2 = (ofConfig c).interval := by
  have hne := (Config.validate_eq_ok_iff.mp h).heartbeat_ne
  have hhalf : ∀ n : Nat, n ≠ 0 →
      max (n * 1000000000 / 2) (1 * 1000000) * 2 = n * 1000000000 := by
    intro n hn
    omega
  exact hhalf c.heartbeatIntervalSecs hne

end Liveness

namespace Relay

/-- **Heartbeats are spaced.**  Where the relay looks at its sessions in time, the heartbeats that a
client is sent are an interval apart, and by less than half an interval more; the first comes no
sooner than an interval after the client logged on.  Nothing but looks sends heartbeats. -/
theorem heartbeats_spaced {c : Config} (hvalid : c.validate = .ok ()) {steps : List Step}
    (hsettings : ∀ l now clock, .sweep l now clock ∈ steps → l = Liveness.ofConfig c)
    (hsweeps : (sweepTimes steps).IsChain (Liveness.ofConfig c).InTime) (id : SessionId) :
    (Liveness.ofConfig c).period * 2 = (Liveness.ofConfig c).interval ∧
      (heartbeatTimes id (ofConfig c) steps).IsChain (Liveness.ofConfig c).Spaced ∧
      (∀ t ∈ (heartbeatTimes id (ofConfig c) steps).head?,
        ∃ since, authentications id (ofConfig c) steps = [since] ∧
          since + (Liveness.ofConfig c).interval ≤ t) ∧
      (heartbeatsOf (accepted id (ofConfig c) steps)).length =
        (heartbeatTimes id (ofConfig c) steps).length := by
  have h := orderly_ofConfig c
  have hstranger : (ofConfig c).IsStranger id := by
    intro s hs
    cases hs
  obtain ⟨hchain, hfirst⟩ :=
    hstranger.isChain_heartbeatTimes (Liveness.interval_pos hvalid) h hsettings hsweeps
  exact ⟨Liveness.period_mul_two hvalid, hchain, hfirst, length_heartbeatsOf_accepted h id steps⟩

/-- A client that shows that it is alive is sent its second heartbeat an interval after the first,
at the second look from then. -/
theorem heartbeats_spaced_every_second :
    let c : Config := { heartbeatIntervalSecs := 1 }
    let steps : List Step := [.enlist (.v4 127 0 0 1 50000) 0,
      .sweep (Liveness.ofConfig c) 1000000000 10,
      .message 1 (.heartbeat ⟨0, 0⟩) 1200000000 1200000000,
      .sweep (Liveness.ofConfig c) 1500000000 11, .sweep (Liveness.ofConfig c) 2000000000 12]
    c.validate = .ok () ∧
      (∀ l now clock, .sweep l now clock ∈ steps → l = Liveness.ofConfig c) ∧
      (sweepTimes steps).IsChain (Liveness.ofConfig c).InTime ∧
      heartbeatTimes 1 (ofConfig c) steps = [1000000000, 2000000000] ∧
      (heartbeatTimes 1 (ofConfig c) steps).IsChain (Liveness.ofConfig c).Spaced ∧
      ∃ since, authentications 1 (ofConfig c) steps = [since] ∧
        since + (Liveness.ofConfig c).interval ≤ 1000000000 := by
  intro c steps
  have hvalid : c.validate = .ok () := by decide +kernel
  have hsettings : ∀ l now clock, .sweep l now clock ∈ steps → l = Liveness.ofConfig c := by
    intro l now clock hmem
    simp only [steps, List.mem_cons, List.not_mem_nil, Step.sweep.injEq, reduceCtorEq, false_or,
      or_false] at hmem
    rcases hmem with ⟨hl, -⟩ | ⟨hl, -⟩ | ⟨hl, -⟩
    all_goals exact hl
  have hsweeps : (sweepTimes steps).IsChain (Liveness.ofConfig c).InTime := by decide +kernel
  have htimes : heartbeatTimes 1 (ofConfig c) steps = [1000000000, 2000000000] := by decide +kernel
  obtain ⟨-, hchain, hfirst, -⟩ := heartbeats_spaced hvalid hsettings hsweeps 1
  refine ⟨hvalid, hsettings, hsweeps, htimes, hchain, hfirst 1000000000 ?_⟩
  rw [htimes]
  rfl

end Relay
end MarketRelay
