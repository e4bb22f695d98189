import MarketRelay.Proofs.Relay.Clocks
import MarketRelay.Proofs.Relay.Events
import MarketRelay.Proofs.Relay.LogonStates
import Mathlib.Order.MinMax

/-!
# Who is dropped for silence

A look at the sessions drops those whose clients were silent for too long, and no others: a client
that has logged on when its latest sign of life is more than two intervals ago, one that has not
when its admission is longer ago than the time it is given.  What else a client sends does not buy
it any time, and no step but a look finds it silent.

`Relay.verdict` is what a look at some moment would find, whether there is one or not.  So a
deadline is moved by a step just if the verdict differs before and after it.

* `silence_after_of_authenticated`, `silence_after_of_unauthenticated`: no step moves the deadline
  but a heartbeat of the client in the one case and a logon in the other.
* `exists_sweep_of_ending`: only looks end a session for silence.
* `timeoutsAreDue`: with the clocks of the session read off the run, when a look drops it.  Time is
  taken to go on from step to step, and no length of time is longer than the longest there is, at
  which twice an interval would be cut off (`Duration.double_lt_iff`).
-/
namespace MarketRelay

def CloseReason.isTimeout : CloseReason → Bool
  | .heartbeatTimeout => true
  | .logonTimeout => true
  | _ => false

/-- Twice a length of time is cut off only where no length of time is longer. -/
theorem Duration.double_lt_iff {d elapsed : Duration} (h : elapsed ≤ Duration.max) :
    d.double < elapsed ↔ 2 * d < elapsed := by
  rw [Duration.double, min_lt_iff]
  exact or_iff_left (Nat.not_lt.mpr h)

/-! ## One session -/

namespace Session

variable {r : Relay} {st : Step} {s t : Session}

theorem closeReason_after (hlisted : s.isListed = true) (hopen : s.closeReason = none) (r : Relay)
    (st : Step) : (s.after r st).closeReason = s.ending r st := by
  have hupdated : (s.updated r st).closeReason = none := by
    by_cases hdrain : st = .drain s.id
    · subst hdrain
      rw [updated_drain]
      exact hopen
    · exact (sameWay_updated hdrain).closeReason.trans hopen
  rw [after]
  cases s.ending r st with
  | none => rw [leaveFor, closeReason_pushMessage, hupdated]
  | some reason =>
      have hlast : ((s.updated r st).pushMessage (s.pushed r st)).isListed = true := by
        rw [isListed_pushMessage, isListed_updated, hlisted]
      rw [leaveFor, closeReason_leave hlast, closeReason_pushMessage, hupdated, Option.getD_none]

theorem isListed_after_eq (hlisted : s.isListed = true) (r : Relay) (st : Step) :
    (s.after r st).isListed = (s.ending r st).isNone := by
  cases hending : s.ending r st with
  | none => exact (isListed_after_of_ending hending).trans hlisted
  | some reason => rw [after, hending, leaveFor, isListed_leave]; rfl

theorem isTimeout_endingBy {m : Message} {reason : CloseReason}
    (h : s.endingBy r m = some reason) : reason.isTimeout = false := by
  unfold endingBy at h
  split at h
  · split at h
    · cases h
    · cases h; rfl
  · cases h
  · cases h; rfl
  · split at h
    · cases h
    · cases h; rfl
  · cases h; rfl

theorem exists_sweep_of_ending {reason : CloseReason} (hreason : reason.isTimeout = true)
    (hdirect : st ≠ .close s.id reason) (h : s.ending r st = some reason) :
    ∃ l now clock, st = .sweep l now clock := by
  cases st with
  | sweep l now clock => exact ⟨l, now, clock, rfl⟩
  | message id m handledAt appliedAt =>
      simp only [ending] at h
      split at h
      · rw [isTimeout_endingBy h] at hreason
        cases hreason
      · cases h
  | close id reason' =>
      simp only [ending] at h
      split at h
      · rename_i hid
        obtain rfl := Option.some.inj h
        exact absurd (hid ▸ rfl) hdirect
      · cases h
  | stop =>
      obtain rfl := Option.some.inj h
      cases hreason
  | _ => cases h

theorem silence_congr (hauth : t.auth = s.auth) (hconnected : t.connectedAt = s.connectedAt)
    (hreceived : s.auth = .authenticated → t.heartbeatReceivedAt = s.heartbeatReceivedAt)
    (l : Liveness) (now : Instant) : t.silence l now = s.silence l now := by
  unfold silence
  rw [hauth, hconnected]
  cases hs : s.auth with
  | authenticated => rw [hreceived hs]
  | _ => rfl

/-- No step but a heartbeat of its client moves the deadline of a session that has logged on. -/
theorem silence_after_of_authenticated (hauth : s.auth = .authenticated)
    (hending : s.ending r st = none)
    (hunheard : ∀ m handledAt appliedAt, st ≠ .message s.id (.heartbeat m) handledAt appliedAt)
    (l : Liveness) (now : Instant) : (s.after r st).silence l now = s.silence l now := by
  have hafter : (s.after r st).auth = s.auth := by
    rw [(s.sameClient_after r st).auth, auth_updated_of_authenticated hauth hending, hauth]
  have hconnected : (s.after r st).connectedAt = s.connectedAt :=
    (s.sameClient_after r st).connectedAt.trans (s.connectedAt_updated r st)
  refine silence_congr hafter hconnected (fun _ => ?_) l now
  cases s.clockChange_after r st with
  | loggedOn hstep hbefore => exact absurd (hauth.symm.trans hbefore) nofun
  | heard hstep => exact absurd hstep (hunheard _ _ _)
  | sent hstep howed hkept hreceived => exact hreceived
  | kept _ _ _ hreceived => exact hreceived

theorem silence_after_of_unauthenticated (hauth : s.auth = .unauthenticated)
    (hnoLogon : ∀ request handledAt appliedAt,
      st ≠ .message s.id (.logonRequest request) handledAt appliedAt)
    (l : Liveness) (now : Instant) : (s.after r st).silence l now = s.silence l now := by
  have hafter : (s.after r st).auth = s.auth := by
    rw [(s.sameClient_after r st).auth]
    rcases s.sameLogon_updated r st with hsame | ⟨request, handledAt, appliedAt, hstep, -⟩
    · exact hsame.auth
    · exact absurd hstep (hnoLogon request handledAt appliedAt)
  have hconnected : (s.after r st).connectedAt = s.connectedAt :=
    (s.sameClient_after r st).connectedAt.trans (s.connectedAt_updated r st)
  exact silence_congr hafter hconnected (fun h => absurd (hauth.symm.trans h) nofun) l now

end Session

/-! ## Looks -/

namespace Relay

variable {c : Config} {r : Relay} {st : Step} {id : SessionId} {s : Session}

/-- The reason for which a look at the sessions would drop one, if it would. -/
def verdict (r : Relay) (id : SessionId) (l : Liveness) (now : Instant) (clock : Int64) :
    Option CloseReason :=
  let r' := r.step (.sweep l now clock)
  if r'.registry.contains id then none else (r'.session? id).bind (·.closeReason)

/-- What holds of a listed session of a relay. -/
structure Live (r : Relay) (id : SessionId) (s : Session) : Prop where
  numbered : r.registry.Numbered
  found : r.session? id = some s
  isListed : s.isListed = true
  closeReason : s.closeReason = none

theorem live_of_session? {steps : List Step} (hs : ((ofConfig c).run steps).session? id = some s)
    (hlisted : s.isListed = true) : Live ((ofConfig c).run steps) id s where
  numbered := (chronicled_ofConfig c steps).numbered
  found := hs
  isListed := hlisted
  closeReason :=
    ((chronicled_ofConfig c steps).settled_of_session? hs).closeReason_of_listed hlisted

theorem Live.contains_step (h : Live r id s) (st : Step) :
    (r.step st).registry.contains id = (s.ending r st).isNone := by
  rw [contains_eq (numbered_step h.numbered st), session?_step_of_some h.numbered h.found st,
    Option.any_some, Session.isListed_after_eq h.isListed]

theorem Live.step (h : Live r id s) (hending : s.ending r st = none) :
    Live (r.step st) id (s.after r st) where
  numbered := numbered_step h.numbered st
  found := session?_step_of_some h.numbered h.found st
  isListed := (Session.isListed_after_of_ending hending).trans h.isListed
  closeReason := (Session.closeReason_after h.isListed h.closeReason r st).trans hending

theorem Live.verdict_eq (h : Live r id s) (l : Liveness) (now : Instant) (clock : Int64) :
    r.verdict id l now clock = s.silence l now := by
  have hreason := Session.closeReason_after h.isListed h.closeReason r (.sweep l now clock)
  rw [verdict, h.contains_step, session?_step_of_some h.numbered h.found, Option.bind_some, hreason]
  change (if (s.silence l now).isNone then none else s.silence l now) = s.silence l now
  cases s.silence l now <;> rfl

theorem Live.verdict_step_of_authenticated (h : Live r id s) (hauth : s.auth = .authenticated)
    (hending : s.ending r st = none)
    (hunheard : ∀ m handledAt appliedAt, st ≠ .message id (.heartbeat m) handledAt appliedAt)
    (l : Liveness) (now : Instant) (clock : Int64) :
    (r.step st).verdict id l now clock = r.verdict id l now clock := by
  obtain rfl := Registry.id_of_session? h.found
  rw [(h.step hending).verdict_eq, h.verdict_eq]
  exact Session.silence_after_of_authenticated hauth hending hunheard l now

theorem Live.verdict_step_of_unauthenticated (h : Live r id s) (hauth : s.auth = .unauthenticated)
    (hending : s.ending r st = none)
    (hnoLogon : ∀ request handledAt appliedAt,
      st ≠ .message id (.logonRequest request) handledAt appliedAt)
    (l : Liveness) (now : Instant) (clock : Int64) :
    (r.step st).verdict id l now clock = r.verdict id l now clock := by
  obtain rfl := Registry.id_of_session? h.found
  rw [(h.step hending).verdict_eq, h.verdict_eq]
  exact Session.silence_after_of_unauthenticated hauth hnoLogon l now

/-- When a live session is found silent after a run, and what does not put it off. -/
structure TimeoutsAreDue (c : Config) (steps : List Step) (id : SessionId) (s : Session) :
    Prop where
  /-- Once logged on, a client is dropped just if its latest sign of life is more than two intervals
  ago.  No two moments of a clock are further apart than the longest length of time. -/
  heartbeat : s.auth = .authenticated →
    ∃ alive, (signsOfLife id (ofConfig c) steps).max? = some alive ∧
      ∀ l now clock, now.since alive ≤ Duration.max →
        ((ofConfig c).run steps).verdict id l now clock =
          if 2 * l.interval < now.since alive then some .heartbeatTimeout else none
  /-- Before, it is dropped just if its admission is longer ago than the time it is given. -/
  logon : s.auth = .unauthenticated →
    admissions id (ofConfig c) steps = [s.connectedAt] ∧
      ∀ l now clock,
        ((ofConfig c).run steps).verdict id l now clock =
          if l.logonTimeout < now.since s.connectedAt then some .logonTimeout else none
  /-- Neither requests for market data nor further logons put off the one. -/
  heartbeat_stays : s.auth = .authenticated →
    ∀ m handledAt appliedAt,
      ((∃ request, m = .marketDataRequest request) ∨
        ∃ request, m = .logonRequest request ∧
          (AuthPolicy.ofConfig c).accepts request.password = true) →
      let later := ((ofConfig c).run steps).step (.message id m handledAt appliedAt)
      later.registry.contains id = true ∧
        ∀ l now clock,
          later.verdict id l now clock = ((ofConfig c).run steps).verdict id l now clock
  /-- No message that is not a logon, and does not end the session, puts off the other. -/
  logon_stays : s.auth = .unauthenticated →
    ∀ m handledAt appliedAt, (∀ request, m ≠ .logonRequest request) →
      let later := ((ofConfig c).run steps).step (.message id m handledAt appliedAt)
      later.registry.contains id = true →
        ∀ l now clock,
          later.verdict id l now clock = ((ofConfig c).run steps).verdict id l now clock
  /-- Only looks find a client silent. -/
  only_sweep : ∀ st reason, reason.isTimeout = true → st ≠ .close id reason →
    ((((ofConfig c).run steps).step st).session? id).bind (·.closeReason) = some reason →
      ∃ l now clock, st = .sweep l now clock

/-- **Timeouts hit just the silent sessions.**  Where time goes on, looks drop a live session when
its client has been silent for longer than it may be, and not before. -/
theorem timeoutsAreDue (c : Config) (steps : List Step)
    (htimed : (steps.flatMap Step.moments).Pairwise (· ≤ ·)) {id : SessionId} {s : Session}
    (hs : ((ofConfig c).run steps).session? id = some s) (hlisted : s.isListed = true) :
    TimeoutsAreDue c steps id s := by
  have hlive := live_of_session? hs hlisted
  have hnumbered : (ofConfig c).registry.Numbered := Registry.numbered_empty c.maxClients
  obtain rfl := Registry.id_of_session? hs
  have hconfig : ((ofConfig c).run steps).config = c := config_run (ofConfig c) steps
  constructor
  case heartbeat =>
    intro hauth
    have hlatest := max?_signsOfLife hnumbered rfl htimed hs (Session.isAuthenticated_iff.mpr hauth)
    refine ⟨s.heartbeatReceivedAt, hlatest, fun l now clock helapsed => ?_⟩
    rw [hlive.verdict_eq, Session.silence, hauth]
    simp only [Duration.double_lt_iff helapsed]
  case logon =>
    intro hauth
    refine ⟨?_, fun l now clock => ?_⟩
    · rw [admissions_eq hnumbered rfl, hs]
      rfl
    · rw [hlive.verdict_eq, Session.silence, hauth]
  case heartbeat_stays =>
    intro hauth m handledAt appliedAt hm later
    have hending :
        s.ending ((ofConfig c).run steps) (.message s.id m handledAt appliedAt) = none := by
      simp only [Session.ending, if_true]
      rcases hm with ⟨request, rfl⟩ | ⟨request, rfl, haccepts⟩
      · exact if_pos (Session.isAuthenticated_iff.mpr hauth)
      · exact if_pos (hconfig.symm ▸ haccepts)
    refine ⟨by rw [hlive.contains_step, hending]; rfl, ?_⟩
    refine hlive.verdict_step_of_authenticated hauth hending ?_
    rintro _ _ _ ⟨⟩
    rcases hm with ⟨request, ⟨⟩⟩ | ⟨request, ⟨⟩, -⟩
  case logon_stays =>
    intro hauth m handledAt appliedAt hnoLogon later hcontains
    rw [hlive.contains_step, Option.isNone_iff_eq_none] at hcontains
    refine hlive.verdict_step_of_unauthenticated hauth hcontains ?_
    rintro request _ _ ⟨⟩
    exact hnoLogon request rfl
  case only_sweep =>
    intro st reason hreason hdirect hclosed
    rw [session?_step_of_some hlive.numbered hs, Option.bind_some,
      Session.closeReason_after hlisted hlive.closeReason] at hclosed
    exact Session.exists_sweep_of_ending hreason hdirect hclosed

/-- A client that logs on late, and then asks for a symbol, is dropped when its logon is more than
two intervals ago. -/
theorem timeoutsAreDue_late_logon :
    let c : Config := { requireAuthentication := true, password := "open sesame" }
    let steps : List Step := [.enlist (.v4 127 0 0 1 50000) 0, .message 1 (.heartbeat ⟨0, 0⟩) 3 3,
      .message 1 (.logonRequest ⟨protocolVersion, "ali", "open sesame", 30, ""⟩) 50 51,
      .message 1 (.marketDataRequest ⟨.subscribe, 0, "ETH-USD", ""⟩) 60 61]
    (steps.flatMap Step.moments).Pairwise (· ≤ ·) ∧
      ∃ s, ((ofConfig c).run steps).session? 1 = some s ∧ s.isListed = true ∧
        s.auth = .authenticated ∧ TimeoutsAreDue c steps 1 s ∧
        ∀ clock, ((ofConfig c).run steps).verdict 1 ⟨10, 40⟩ 71 clock = none ∧
          ((ofConfig c).run steps).verdict 1 ⟨10, 40⟩ 72 clock = some .heartbeatTimeout := by
  intro c steps
  have htimed : (steps.flatMap Step.moments).Pairwise (· ≤ ·) := by decide +kernel
  have hfound : (((ofConfig c).run steps).session? 1).any (fun s =>
      s.isListed && s.auth == .authenticated) = true := by decide +kernel
  simp only [Option.any_eq_true, Bool.and_eq_true, beq_iff_eq] at hfound
  obtain ⟨s, hs, hlisted, hauth⟩ := hfound
  have hdue := timeoutsAreDue c steps htimed hs hlisted
  obtain ⟨alive, hlatest, hverdict⟩ := hdue.heartbeat hauth
  have hlogon : (signsOfLife 1 (ofConfig c) steps).max? = some 51 := by decide +kernel
  obtain rfl := Option.some.inj (hlogon.symm.trans hlatest)
  refine ⟨htimed, s, hs, hlisted, hauth, hdue, fun clock => ⟨?_, ?_⟩⟩
  · exact hverdict ⟨10, 40⟩ 71 clock (by decide +kernel)
  · exact hverdict ⟨10, 40⟩ 72 clock (by decide +kernel)

end Relay
end MarketRelay
