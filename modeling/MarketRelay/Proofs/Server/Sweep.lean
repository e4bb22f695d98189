import MarketRelay.Proofs.Server.Refusals

/-!
# One look for signs of life

A look goes through the list while it takes sessions off it, and marks by the way when it owed a
client a heartbeat.  What becomes of a session is still known from the session alone, as the look
found it: its client was silent (`Session.IsSilent`), late to log on (`IsLate`), due a heartbeat
(`IsDue`) or none of these (`IsQuiet`), and never two of them.

* `Settled.swept_eq`: what a look does to a listed session is what `lookedAt` says, one branch for
  each of the four.
* `report_sweep`: the report lists the sessions in the order of their numbers, each under what was
  found of it.  The induction is `sweep_induction`, along which the sessions that are still to come
  stay listed and as they were found.
* `isQuiet_lookedAt`: a look leaves nothing to do for another one at the same moment.  Who is left
  listed was sent a heartbeat, if one was due, and carries the mark of it.
* `sweep_is_exact`: all of it, in every state that a relay can be in.

Lengths of time are cut off where there is none longer, so twice an interval may be less than that;
`IsSilent` compares with what can be told.
-/
namespace MarketRelay

/-! ## One session -/

namespace Session

variable {l : Liveness} {now : Instant} {clock : Int64} {s : Session} {required : Bool}

/-- The client has logged on and was silent for more than twice the interval, as far as lengths of
time can tell. -/
def IsSilent (l : Liveness) (now : Instant) (s : Session) : Prop :=
  s.auth = .authenticated ∧ min (2 * l.interval) Duration.max < now - s.heartbeatReceivedAt

/-- The client has not logged on in the time that it was given. -/
def IsLate (l : Liveness) (now : Instant) (s : Session) : Prop :=
  s.auth = .unauthenticated ∧ l.logonTimeout < now - s.connectedAt

/-- The client has logged on, was not silent for too long, and its last heartbeat is an interval
ago. -/
def IsDue (l : Liveness) (now : Instant) (s : Session) : Prop :=
  s.auth = .authenticated ∧ ¬ s.IsSilent l now ∧ l.interval ≤ now - s.heartbeatSentAt

instance : Decidable (s.IsSilent l now) := inferInstanceAs (Decidable (_ ∧ _))
instance : Decidable (s.IsLate l now) := inferInstanceAs (Decidable (_ ∧ _))
instance : Decidable (s.IsDue l now) := inferInstanceAs (Decidable (_ ∧ _))

def timedOut (s : Session) (reason : CloseReason) : Session :=
  { s with
    closeReason := some reason
    queue := s.queue.close
    isCancelled := true
    isListed := false }

def sentHeartbeat (now : Instant) (clock : Int64) (s : Session) : Session :=
  { s with heartbeatSentAt := now, queue := s.queue.push (Relay.heartbeatFor s clock).encode }

def lookedAt (l : Liveness) (now : Instant) (clock : Int64) (s : Session) : Session :=
  if s.IsSilent l now then s.timedOut .heartbeatTimeout
  else if s.IsLate l now then s.timedOut .logonTimeout
  else if s.IsDue l now then s.sentHeartbeat now clock
  else s

theorem silence_of_isSilent (h : s.IsSilent l now) : s.silence l now = some .heartbeatTimeout := by
  obtain ⟨hauth, hsilent⟩ := h
  rw [silence, hauth]
  exact if_pos hsilent

theorem silence_of_isLate (h : s.IsLate l now) : s.silence l now = some .logonTimeout := by
  obtain ⟨hauth, hlate⟩ := h
  rw [silence, hauth]
  exact if_pos hlate

theorem silence_eq_none (hsilent : ¬ s.IsSilent l now) (hlate : ¬ s.IsLate l now) :
    s.silence l now = none := by
  unfold silence
  cases hauth : s.auth with
  | authenticated => exact if_neg fun h => hsilent ⟨hauth, h⟩
  | unauthenticated => exact if_neg fun h => hlate ⟨hauth, h⟩
  | rejected => rfl

theorem not_isLate_of_authenticated (h : s.auth = .authenticated) : ¬ s.IsLate l now := by
  rintro ⟨hauth, -⟩
  rw [h] at hauth
  cases hauth

theorem isOwed_iff : s.isOwed l now = true ↔ s.IsDue l now := by
  rw [isOwed, Bool.and_eq_true, Bool.and_eq_true, isAuthenticated, beq_iff_eq, isHeartbeatDue,
    decide_eq_true_eq, and_assoc]
  refine and_congr_right fun hauth => and_congr_left fun _ => ?_
  by_cases hsilent : s.IsSilent l now
  · rw [silence_of_isSilent hsilent]
    exact iff_of_false Bool.false_ne_true fun h => h hsilent
  · rw [silence_eq_none hsilent (not_isLate_of_authenticated hauth)]
    exact iff_of_true rfl hsilent

theorem isOwed_eq_false (h : ¬ s.IsDue l now) : s.isOwed l now = false :=
  Bool.eq_false_iff.mpr fun howed => h (isOwed_iff.mp howed)

structure IsQuiet (l : Liveness) (now : Instant) (s : Session) : Prop where
  heard : ¬ s.IsSilent l now
  inTime : ¬ s.IsLate l now
  notDue : ¬ s.IsDue l now

inductive Finding (l : Liveness) (now : Instant) (s : Session) : Prop
  | silent (h : s.IsSilent l now) (hlate : ¬ s.IsLate l now) (hdue : ¬ s.IsDue l now)
  | late (hsilent : ¬ s.IsSilent l now) (h : s.IsLate l now) (hdue : ¬ s.IsDue l now)
  | due (hsilent : ¬ s.IsSilent l now) (hlate : ¬ s.IsLate l now) (h : s.IsDue l now)
  | nothing (h : s.IsQuiet l now)

theorem finding (l : Liveness) (now : Instant) (s : Session) : s.Finding l now := by
  by_cases hdue : s.IsDue l now
  · exact .due hdue.2.1 (not_isLate_of_authenticated hdue.1) hdue
  by_cases hsilent : s.IsSilent l now
  · exact .silent hsilent (not_isLate_of_authenticated hsilent.1) hdue
  by_cases hlate : s.IsLate l now
  · exact .late hsilent hlate hdue
  · exact .nothing ⟨hsilent, hlate, hdue⟩

theorem lookedAt_of_isSilent (h : s.IsSilent l now) :
    s.lookedAt l now clock = s.timedOut .heartbeatTimeout :=
  if_pos h

theorem lookedAt_of_isLate (hsilent : ¬ s.IsSilent l now) (h : s.IsLate l now) :
    s.lookedAt l now clock = s.timedOut .logonTimeout := by
  rw [lookedAt, if_neg hsilent, if_pos h]

theorem lookedAt_of_isDue (h : s.IsDue l now) :
    s.lookedAt l now clock = s.sentHeartbeat now clock := by
  rw [lookedAt, if_neg h.2.1, if_neg (not_isLate_of_authenticated h.1), if_pos h]

theorem lookedAt_of_isQuiet (h : s.IsQuiet l now) : s.lookedAt l now clock = s := by
  rw [lookedAt, if_neg h.heard, if_neg h.inTime, if_neg h.notDue]

/-- What a look does to a listed session is what was said. -/
theorem Settled.swept_eq (h : s.Settled required) (hlisted : s.isListed = true) (l : Liveness)
    (now : Instant) (clock : Int64) : swept l now clock s s = s.lookedAt l now clock := by
  unfold swept
  cases s.finding l now with
  | silent hsilent hlate hdue =>
      rw [silence_of_isSilent hsilent, isOwed_eq_false hdue, lookedAt_of_isSilent hsilent]
      exact h.leave_of_listed hlisted .heartbeatTimeout
  | late hsilent hlate hdue =>
      rw [silence_of_isLate hlate, isOwed_eq_false hdue, lookedAt_of_isLate hsilent hlate]
      exact h.leave_of_listed hlisted .logonTimeout
  | due hsilent hlate hdue =>
      rw [silence_eq_none hsilent hlate, isOwed_iff.mpr hdue, lookedAt_of_isDue hdue]
      rfl
  | nothing hquiet =>
      rw [silence_eq_none hquiet.heard hquiet.inTime, isOwed_eq_false hquiet.notDue,
        lookedAt_of_isQuiet hquiet]
      rfl

/-- A look leaves nothing to do for another one at the same moment. -/
theorem isQuiet_lookedAt (hinterval : 0 < l.interval)
    (hlisted : (s.lookedAt l now clock).isListed = true) :
    (s.lookedAt l now clock).IsQuiet l now := by
  cases s.finding l now with
  | silent hsilent hlate hdue =>
      rw [lookedAt_of_isSilent hsilent] at hlisted
      cases hlisted
  | late hsilent hlate hdue =>
      rw [lookedAt_of_isLate hsilent hlate] at hlisted
      cases hlisted
  | due hsilent hlate hdue =>
      rw [lookedAt_of_isDue hdue]
      refine ⟨hsilent, hlate, ?_⟩
      -- the mark that the first look left is what keeps the second one from sending again
      rintro ⟨-, -, hlong⟩
      change l.interval ≤ now - now at hlong
      rw [Nat.sub_self] at hlong
      exact Nat.not_lt.mpr hlong hinterval
  | nothing hquiet =>
      rw [lookedAt_of_isQuiet hquiet]
      exact hquiet

end Session

/-! ## The list -/

/-- What there is to report of a look at sessions. -/
def SweepReport.of (l : Liveness) (now : Instant) (looked : List Session) : SweepReport where
  heartbeatsSent := looked.countP (·.IsDue l now)
  heartbeatTimeouts := (looked.filter (·.IsSilent l now)).map (·.id)
  logonTimeouts := (looked.filter (·.IsLate l now)).map (·.id)

namespace Relay

variable {c : Config} {r : Relay} {l : Liveness} {now : Instant} {clock : Int64} {s : Session}
  {report : SweepReport} {required : Bool} {past : List SessionEvent}

/-! ### A look at one of them -/

theorem snd_timeOut (r : Relay) (id : SessionId) (reason : CloseReason) (k : Counter) :
    (r.timeOut id reason k).2 = r.registry.contains id :=
  Registry.snd_close r.registry id reason

theorem sweepSession_of_isSilent (h : s.IsSilent l now)
    (hlisted : r.registry.contains s.id = true) :
    sweepSession l now clock (r, report) s =
      ((r.timeOut s.id .heartbeatTimeout .heartbeatTimeouts).1,
        { report with heartbeatTimeouts := report.heartbeatTimeouts ++ [s.id] }) := by
  obtain ⟨hauth, hsilent⟩ := h
  have hsilent' : l.interval.double < now.since s.heartbeatReceivedAt := hsilent
  simp only [sweepSession, hauth, if_pos hsilent', snd_timeOut, hlisted, if_true]

theorem sweepSession_of_isLate (h : s.IsLate l now) (hlisted : r.registry.contains s.id = true) :
    sweepSession l now clock (r, report) s =
      ((r.timeOut s.id .logonTimeout .logonTimeouts).1,
        { report with logonTimeouts := report.logonTimeouts ++ [s.id] }) := by
  obtain ⟨hauth, hlate⟩ := h
  have hlate' : l.logonTimeout < now.since s.connectedAt := hlate
  simp only [sweepSession, hauth, if_pos hlate', snd_timeOut, hlisted, if_true]

theorem sweepSession_of_isDue (h : s.IsDue l now) (hopen : s.queue.isClosed = false) :
    sweepSession l now clock (r, report) s =
      ((r.sendHeartbeat s now clock).1,
        { report with heartbeatsSent := report.heartbeatsSent + 1 }) := by
  obtain ⟨hauth, hheard, hdue⟩ := h
  have hheard' : ¬ l.interval.double < now.since s.heartbeatReceivedAt :=
    fun hsilent => hheard ⟨hauth, hsilent⟩
  have hdue' : s.isHeartbeatDue now l.interval = true := decide_eq_true hdue
  have haccepted : s.queue.outcome.isAccepted = true := by
    rw [s.queue.isAccepted_outcome, hopen]
    rfl
  simp only [sweepSession, hauth, if_neg hheard', if_pos hdue', sendHeartbeat, if_pos haccepted]

theorem sweepSession_of_isQuiet (h : s.IsQuiet l now) :
    sweepSession l now clock (r, report) s = (r, report) := by
  unfold sweepSession
  cases hauth : s.auth with
  | authenticated =>
      have hheard : ¬ l.interval.double < now.since s.heartbeatReceivedAt :=
        fun hsilent => h.heard ⟨hauth, hsilent⟩
      have hnotDue : ¬ s.isHeartbeatDue now l.interval = true :=
        fun hdue => h.notDue ⟨hauth, h.heard, of_decide_eq_true hdue⟩
      simp only [if_neg hheard, if_neg hnotDue]
  | unauthenticated => exact if_neg fun hlate => h.inTime ⟨hauth, hlate⟩
  | rejected => rfl

/-- A look at one more session reports what there is to report of it, as long as it is listed and
its queue takes frames. -/
theorem report_sweepSession (hlisted : r.registry.contains s.id = true)
    (hopen : s.queue.isClosed = false) (looked : List Session) :
    (sweepSession l now clock (r, .of l now looked) s).2 = .of l now (looked ++ [s]) := by
  cases s.finding l now with
  | silent hsilent hlate hdue =>
      rw [sweepSession_of_isSilent hsilent hlisted]
      simp [SweepReport.of, hsilent, hlate, hdue]
  | late hsilent hlate hdue =>
      rw [sweepSession_of_isLate hlate hlisted]
      simp [SweepReport.of, hsilent, hlate, hdue]
  | due hsilent hlate hdue =>
      rw [sweepSession_of_isDue hdue hopen]
      simp [SweepReport.of, hsilent, hlate, hdue]
  | nothing hquiet =>
      rw [sweepSession_of_isQuiet hquiet]
      simp [SweepReport.of, hquiet.heard, hquiet.inTime, hquiet.notDue]

/-! ### A look at all -/

theorem report_sweep (h : r.registry.Chronicled required past) (l : Liveness) (now : Instant)
    (clock : Int64) : (r.sweep l now clock).2 = .of l now r.registry.listed := by
  refine (sweep_induction h.numbered (P := fun looked acc =>
    acc.2 = .of l now looked ∧ acc.1.registry.Chronicled required past) ⟨rfl, h⟩ ?_).1
  rintro looked ⟨r', report⟩ s ⟨rfl, hchronicled⟩ hlisted hs
  have hopen : s.queue.isClosed = false := by
    refine (hchronicled.settled_of_session? hs).queue_isOpen ?_
    rwa [contains_eq hchronicled.numbered, hs, Option.any_some] at hlisted
  exact ⟨report_sweepSession hlisted hopen looked,
    chronicled_sweepSession hchronicled l now clock s⟩

theorem sweep_of_isQuiet (h : ∀ s ∈ r.registry.listed, s.IsQuiet l now) (clock : Int64) :
    r.sweep l now clock = (r, {}) :=
  List.foldlRecOn (motive := fun acc => acc = (r, ({} : SweepReport))) r.registry.listed
    (sweepSession l now clock) rfl fun acc hacc s hs => by
      rw [hacc, sweepSession_of_isQuiet (h s hs)]

/-- `r'` is `r` after a look at its sessions, and `report` is what the look led to. -/
structure LooksAt (l : Liveness) (now : Instant) (clock : Int64) (r r' : Relay)
    (report : SweepReport) : Prop where
  /-- Each session on the list is looked at, and no other changes. -/
  sessions : r'.registry.sessions =
    r.registry.sessions.map fun s => if s.isListed then s.lookedAt l now clock else s
  /-- The heartbeat is the one frame that a queue takes. -/
  queued : ∀ s ∈ r.registry.listed, s.IsDue l now →
    OutboundQueue.newFrames s.queue (s.lookedAt l now clock).queue =
      [(heartbeatFor s clock).encode]
  heartbeatsSent : report.heartbeatsSent = r.registry.listed.countP (·.IsDue l now)
  heartbeatTimeouts :
    report.heartbeatTimeouts = (r.registry.listed.filter (·.IsSilent l now)).map (·.id)
  logonTimeouts : report.logonTimeouts = (r.registry.listed.filter (·.IsLate l now)).map (·.id)
  ascending : report.heartbeatTimeouts.Pairwise (· < ·) ∧ report.logonTimeouts.Pairwise (· < ·)
  config : r'.config = r.config
  snapshots : r'.snapshots = r.snapshots

theorem looksAt_sweep (h : r.registry.Chronicled required past) (l : Liveness) (now : Instant)
    (clock : Int64) :
    r.LooksAt l now clock (r.sweep l now clock).1 (r.sweep l now clock).2 := by
  have hsettled : ∀ s ∈ r.registry.listed, s.Settled required := fun s hs =>
    h.settled s (List.mem_of_mem_filter hs)
  have hopen : ∀ s ∈ r.registry.listed, s.queue.isClosed = false := fun s hs =>
    (hsettled s hs).queue_isOpen (List.mem_filter.mp hs).2
  have hreport := report_sweep h l now clock
  have hascending : ∀ p : Session → Bool,
      ((r.registry.listed.filter p).map (·.id)).Pairwise (· < ·) := by
    intro p
    exact h.numbered.pairwise_listed.sublist (List.filter_sublist.map _)
  constructor
  case sessions =>
    refine (sessions_sweep h.numbered l now clock).trans (List.map_congr_left fun s hs => ?_)
    cases hlisted : s.isListed with
    | false => rfl
    | true => exact (hsettled s (List.mem_filter.mpr ⟨hs, hlisted⟩)).swept_eq hlisted l now clock
  case queued =>
    intro s hs hdue
    rw [Session.lookedAt_of_isDue hdue, Session.sentHeartbeat, OutboundQueue.newFrames_push,
      hopen s hs]
    rfl
  case heartbeatsSent => rw [hreport]; rfl
  case heartbeatTimeouts => rw [hreport]; rfl
  case logonTimeouts => rw [hreport]; rfl
  case ascending =>
    rw [hreport]
    exact ⟨hascending _, hascending _⟩
  case config => exact config_step r (.sweep l now clock)
  case snapshots => exact snapshots_step r (.sweep l now clock)

theorem LooksAt.isQuiet {r' : Relay} (h : r.LooksAt l now clock r' report)
    (hinterval : 0 < l.interval) : ∀ s ∈ r'.registry.listed, s.IsQuiet l now := by
  intro s hs
  obtain ⟨hmem, hlisted⟩ := List.mem_filter.mp hs
  rw [h.sessions] at hmem
  obtain ⟨t, -, rfl⟩ := List.mem_map.mp hmem
  cases hbefore : t.isListed with
  | false =>
      rw [hbefore, if_neg Bool.false_ne_true, hbefore] at hlisted
      cases hlisted
  | true =>
      rw [hbefore, if_pos rfl] at hlisted
      rw [if_pos rfl]
      exact Session.isQuiet_lookedAt hinterval hlisted

/-- **One look, exactly.**  Wherever the relay is, a look at its sessions does to each of them what
there is to do for it, also at a moment before its clocks or with an interval that cannot be
doubled, and reports just that; and another look at the same moment does and reports nothing. -/
theorem sweep_is_exact (h : Occurs c r) (hinterval : 0 < l.interval) (now : Instant)
    (clock : Int64) :
    let looked := r.sweep l now clock
    r.LooksAt l now clock looked.1 looked.2 ∧
      ∀ clock' : Int64, looked.1.sweep l now clock' = (looked.1, {}) := by
  intro looked
  have hlooked := looksAt_sweep h.chronicled l now clock
  exact ⟨hlooked, fun clock' => sweep_of_isQuiet (hlooked.isQuiet hinterval) clock'⟩

/-- At 100 the first client was silent, the second is late, the third is due a heartbeat and has a
full queue, the fourth was refused and not closed yet, and the clocks of the fifth are ahead. -/
theorem sweep_is_exact_five :
    let c : Config :=
      { requireAuthentication := true, password := "tape", outboundQueueCapacity := 1 }
    let logon (password : String) : List UInt8 :=
      (Message.logonRequest ⟨8, "desk", password, 30, "desk"⟩).encode
    let alive : List UInt8 := (Message.heartbeat ⟨0, 0⟩).encode
    let steps : List ServerStep :=
      [.start some 0, .accept (.v4 127 0 0 1 50000) 0, .accept (.v4 127 0 0 1 50001) 0,
        .accept (.v4 127 0 0 1 50002) 0, .accept (.v4 127 0 0 1 50003) 90,
        .accept (.v4 127 0 0 1 50004) 200, .decode 1 (logon "tape") 1, .apply 0 1, .apply 0 1,
        .decode 3 (logon "tape") 1, .apply 1 1, .apply 1 1, .decode 3 alive 90,
        .decode 4 (logon "paper") 95, .decode 5 (logon "tape") 200, .apply 4 200, .apply 4 200]
    let r := ((Service.ofConfig c).run steps).relay
    let l : Liveness := ⟨40, 50⟩
    let looked := r.sweep l 100 7
    0 < l.interval ∧ r.registry.size = 5 ∧
      looked.2 = ⟨1, [1], [2]⟩ ∧
      (r.queue 3).isFull = true ∧ (looked.1.queue 3).frames = [(Message.heartbeat ⟨0, 7⟩).encode] ∧
      looked.1.registry.listed.map (·.id) = [3, 4, 5] ∧
      r.LooksAt l 100 7 looked.1 looked.2 ∧
      ∀ clock : Int64, looked.1.sweep l 100 clock = (looked.1, {}) := by
  intro c logon alive steps r l looked
  have hinterval : 0 < l.interval := by decide
  obtain ⟨hlooked, hagain⟩ :=
    sweep_is_exact (c := c) (r := r) (l := l) (.atWork steps) hinterval 100 7
  exact ⟨hinterval, by decide +kernel, by decide +kernel, by decide +kernel, by decide +kernel,
    by decide +kernel, hlooked, hagain⟩

end Relay
end MarketRelay
