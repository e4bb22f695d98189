import MarketRelay.Proofs.Relay.Invariant
import Mathlib.Data.List.Induction

/-!
# The clocks of a session

A session has two clocks: when its client was last heard of, and when it was last sent a heartbeat.
Both start with the session, and anew with the client's first logon if it had to log on; from then
on only heartbeats of the client move the one, and only looks that find the client owed a heartbeat
the other.  Whatever else the client sends, and logging on again, too, leaves them alone.

`Session.ClockChange` lists the ways in which a step may change the logon of a session and its
clocks, one constructor each, and `clockChange_after` says that there are no others.  It is the only
place where the functions of the relay are looked into; what follows is about lists of moments.

* `last_signsOfLife`: the client of a session that is authenticated was last heard of at the last of
  its signs of life, which are its heartbeats and the moment at which it became authenticated.
* `admissions_eq`: a session is admitted once, and knows when.
* `max?_signsOfLife`: where time goes on from step to step, the last sign of life is also the
  latest.  The order of steps is used here only.
-/
namespace MarketRelay

/-! ## Moments -/

def Step.moments : Step → List Instant
  | .enlist _ now => [now]
  | .message _ _ handledAt appliedAt => [handledAt, appliedAt]
  | .sweep _ now _ => [now]
  | _ => []

namespace Relay

/-- What there is to tell of the steps of a run, in order, each as it finds the relay. -/
def gather {α : Type} (f : Relay → Step → List α) : Relay → List Step → List α
  | _, [] => []
  | r, st :: steps => f r st ++ gather f (r.step st) steps

theorem gather_append {α : Type} (f : Relay → Step → List α) (r : Relay)
    (before after : List Step) :
    gather f r (before ++ after) = gather f r before ++ gather f (r.run before) after := by
  induction before generalizing r with
  | nil => rfl
  | cons st before ih => rw [List.cons_append, gather, gather, ih, List.append_assoc, run_cons]

theorem gather_concat {α : Type} (f : Relay → Step → List α) (r : Relay) (steps : List Step)
    (st : Step) : gather f r (steps ++ [st]) = gather f r steps ++ f (r.run steps) st := by
  rw [gather_append, gather, gather, List.append_nil]

end Relay

/-! ## One session -/

namespace Session

/-- What a step may make of a session's logon and of its clocks. -/
inductive ClockChange (r : Relay) (st : Step) (s t : Session) : Prop
  /-- The client's first logon. -/
  | loggedOn {request : LogonRequest} {handledAt appliedAt : Instant}
      (hstep : st = .message s.id (.logonRequest request) handledAt appliedAt)
      (hbefore : s.auth = .unauthenticated) (hauth : t.auth = .authenticated)
      (hreceived : t.heartbeatReceivedAt = appliedAt) (hsent : t.heartbeatSentAt = appliedAt)
  /-- A heartbeat of the client. -/
  | heard {m : Heartbeat} {handledAt appliedAt : Instant}
      (hstep : st = .message s.id (.heartbeat m) handledAt appliedAt) (hauth : t.auth = s.auth)
      (hreceived : t.heartbeatReceivedAt = handledAt)
      (hsent : t.heartbeatSentAt = s.heartbeatSentAt)
  /-- A look that finds the client owed a heartbeat. -/
  | sent {l : Liveness} {now : Instant} {clock : Int64} (hstep : st = .sweep l now clock)
      (howed : (s.isListed && s.isOwed l now) = true) (hauth : t.auth = s.auth)
      (hreceived : t.heartbeatReceivedAt = s.heartbeatReceivedAt)
      (hsent : t.heartbeatSentAt = now)
  /-- Any other step, a refused logon among them. -/
  | kept (hunheard : ∀ m handledAt appliedAt, st ≠ .message s.id (.heartbeat m) handledAt appliedAt)
      (hunsent : ∀ l now clock, st = .sweep l now clock → (s.isListed && s.isOwed l now) = false)
      (hauth : t.auth = s.auth ∨ t.auth = .rejected)
      (hreceived : t.heartbeatReceivedAt = s.heartbeatReceivedAt)
      (hsent : t.heartbeatSentAt = s.heartbeatSentAt)

variable {r : Relay} {st : Step} {s t u : Session}

theorem ClockChange.trans_sameClient (h : ClockChange r st s t) (hsame : t.SameClient u) :
    ClockChange r st s u := by
  have hauth := hsame.auth
  have hreceived := hsame.heartbeatReceivedAt
  have hsent := hsame.heartbeatSentAt
  cases h with
  | loggedOn hstep hbefore h h' h'' =>
      exact .loggedOn hstep hbefore (hauth.trans h) (hreceived.trans h') (hsent.trans h'')
  | heard hstep h h' h'' =>
      exact .heard hstep (hauth.trans h) (hreceived.trans h') (hsent.trans h'')
  | sent hstep howed h h' h'' =>
      exact .sent hstep howed (hauth.trans h) (hreceived.trans h') (hsent.trans h'')
  | kept hunheard hunsent h h' h'' =>
      exact .kept hunheard hunsent (h.imp hauth.trans hauth.trans) (hreceived.trans h')
        (hsent.trans h'')

theorem clocks_requested (r : Relay) (request : MarketDataRequest) (s : Session) :
    (s.requested r request).auth = s.auth ∧
      (s.requested r request).heartbeatReceivedAt = s.heartbeatReceivedAt ∧
      (s.requested r request).heartbeatSentAt = s.heartbeatSentAt := by
  unfold requested
  split
  · exact ⟨rfl, rfl, rfl⟩
  · split
    · split <;> exact ⟨rfl, rfl, rfl⟩
    · exact ⟨rfl, rfl, rfl⟩
    · exact ⟨rfl, rfl, rfl⟩

/-- A logon starts the clocks of a client that has not logged on, and of no other. -/
theorem clockChange_logon (r : Relay) (s : Session) (request : LogonRequest)
    (handledAt appliedAt : Instant) :
    ClockChange r (.message s.id (.logonRequest request) handledAt appliedAt) s
      (s.noted r (.logonRequest request) handledAt appliedAt) := by
  simp only [noted]
  split
  · split
    · unfold authenticate
      split
      · rename_i hauth
        exact .loggedOn rfl hauth rfl rfl rfl
      · split
        · exact .kept (by simp) (by simp) (Or.inl rfl) rfl rfl
        · exact .kept (by simp) (by simp) (Or.inl rfl) rfl rfl
      · exact .kept (by simp) (by simp) (Or.inl rfl) rfl rfl
    · exact .kept (by simp) (by simp) (Or.inl rfl) rfl rfl
  · exact .kept (by simp) (by simp) (Or.inr rfl) rfl rfl

theorem clockChange_updated (r : Relay) (st : Step) (s : Session) :
    ClockChange r st s (s.updated r st) := by
  cases st with
  | message id m handledAt appliedAt =>
      by_cases hid : s.id = id
      · subst hid
        simp only [updated, if_true]
        cases m with
        | logonRequest request => exact clockChange_logon r s request handledAt appliedAt
        | heartbeat m => exact .heard rfl rfl rfl rfl
        | marketDataRequest request =>
            simp only [noted]
            split
            · obtain ⟨hauth, hreceived, hsent⟩ := clocks_requested r request s
              exact .kept (by simp) (by simp) (Or.inl hauth) hreceived hsent
            · exact .kept (by simp) (by simp) (Or.inl rfl) rfl rfl
        | _ => exact .kept (by simp) (by simp) (Or.inl rfl) rfl rfl
      · have hunheard : ∀ m' handledAt' appliedAt', Step.message id m handledAt appliedAt ≠
            .message s.id (.heartbeat m') handledAt' appliedAt' :=
          fun _ _ _ h => hid (Step.message.inj h).1.symm
        simp only [updated, if_neg hid]
        exact .kept hunheard (by simp) (Or.inl rfl) rfl rfl
  | sweep l now clock =>
      simp only [updated]
      split
      · rename_i howed
        exact .sent rfl howed rfl rfl rfl
      · rename_i hunowed
        refine .kept (by simp) ?_ (Or.inl rfl) rfl rfl
        rintro _ _ _ ⟨⟩
        exact Bool.eq_false_iff.mpr hunowed
  | drain id =>
      simp only [updated]
      split <;> exact .kept (by simp) (by simp) (Or.inl rfl) rfl rfl
  | _ => exact .kept (by simp) (by simp) (Or.inl rfl) rfl rfl

theorem clockChange_after (r : Relay) (st : Step) (s : Session) :
    ClockChange r st s (s.after r st) :=
  (clockChange_updated r st s).trans_sameClient (s.sameClient_after r st)

theorem connectedAt_updated (r : Relay) (st : Step) (s : Session) :
    (s.updated r st).connectedAt = s.connectedAt := by
  by_cases hdrain : st = .drain s.id
  · subst hdrain
    rw [updated_drain]
    rfl
  · exact (sameWay_updated hdrain).connectedAt

end Session

/-! ## Admissions, logons and signs of life -/

namespace Relay

variable {r : Relay} {id : SessionId} {st : Step} {s t : Session}

/-- The moment at which a step hears a heartbeat of the client of a session. -/
def heardAt (r : Relay) (id : SessionId) : Step → List Instant
  | .message id' (.heartbeat _) handledAt _ =>
    if id' = id ∧ (r.session? id).isSome then [handledAt] else []
  | _ => []

/-- The moment at which a step makes a session authenticated, by its admission or by its logon. -/
def authenticatedAt (r : Relay) (id : SessionId) (st : Step) : List Instant :=
  if (r.session? id).any (·.isAuthenticated) then []
  else if ((r.step st).session? id).any (·.isAuthenticated) then st.moments.getLast?.toList
  else []

/-- The moment at which a step admits a session. -/
def admittedAt (r : Relay) (id : SessionId) (st : Step) : List Instant :=
  if (r.session? id).isNone && ((r.step st).session? id).isSome then st.moments.getLast?.toList
  else []

/-- The moments at which the relay knows the client of a session to be alive, in the order of the
steps of a run: those of its heartbeats, and the one at which it became authenticated. -/
def signsOfLife (id : SessionId) : Relay → List Step → List Instant :=
  gather fun r st => r.heardAt id st ++ r.authenticatedAt id st

def authentications (id : SessionId) : Relay → List Step → List Instant :=
  gather (·.authenticatedAt id)

def admissions (id : SessionId) : Relay → List Step → List Instant :=
  gather (·.admittedAt id)

theorem heardAt_eq_nil
    (h : ∀ m handledAt appliedAt, st ≠ .message id (.heartbeat m) handledAt appliedAt) :
    r.heardAt id st = [] := by
  cases st with
  | message id' m handledAt appliedAt =>
      cases m with
      | heartbeat m =>
          have hid : id' ≠ id := fun hid => h m handledAt appliedAt (hid ▸ rfl)
          simp only [heardAt]
          exact if_neg fun hboth => hid hboth.1
      | _ => rfl
  | _ => rfl

theorem authenticatedAt_of_authenticated (hs : r.session? id = some s)
    (hauth : s.isAuthenticated = true) (st : Step) : r.authenticatedAt id st = [] := by
  rw [authenticatedAt, hs, Option.any_some, if_pos hauth]

/-- A session is authenticated after a step because it became so in the step, at a sign of life, or
because it was so before; the client was last heard of then, in the step or before. -/
theorem signs_of_authenticated (h : r.registry.Numbered) (ht : (r.step st).session? id = some t)
    (hauth : t.isAuthenticated = true) :
    r.heardAt id st ++ r.authenticatedAt id st = [t.heartbeatReceivedAt] ∨
      r.heardAt id st ++ r.authenticatedAt id st = [] ∧
        ∃ s, r.session? id = some s ∧ s.isAuthenticated = true ∧
          s.heartbeatReceivedAt = t.heartbeatReceivedAt := by
  cases hs : r.session? id with
  | none =>
      obtain ⟨peer, now, rfl, rfl⟩ := session?_step_of_none h hs ht
      left
      rw [authenticatedAt, hs, ht, Option.any_some, if_pos hauth]
      rfl
  | some s =>
      obtain rfl : s.after r st = t :=
        Option.some.inj ((session?_step_of_some h hs st).symm.trans ht)
      obtain rfl := Registry.id_of_session? hs
      have hsame : (s.after r st).auth = s.auth → s.isAuthenticated = true := by
        intro heq
        rw [Session.isAuthenticated_iff] at hauth ⊢
        exact heq ▸ hauth
      cases s.clockChange_after r st with
      | loggedOn hstep hbefore hafter hreceived hsent =>
          left
          have hstranger : s.isAuthenticated = false := by
            rw [Session.isAuthenticated, hbefore]
            rfl
          rw [heardAt_eq_nil (by simp [hstep]), authenticatedAt, hs, ht, Option.any_some,
            Option.any_some, hstranger, if_neg Bool.false_ne_true, if_pos hauth, hreceived, hstep]
          rfl
      | heard hstep hkept hreceived hsent =>
          left
          rw [authenticatedAt_of_authenticated hs (hsame hkept), hreceived, hstep, heardAt, hs]
          simp
      | sent hstep howed hkept hreceived hsent =>
          right
          rw [authenticatedAt_of_authenticated hs (hsame hkept), hstep]
          exact ⟨rfl, s, rfl, hsame hkept, (hstep ▸ hreceived).symm⟩
      | kept hunheard hunsent hkept hreceived hsent =>
          right
          have hbefore : s.isAuthenticated = true := by
            rcases hkept with heq | hrejected
            · exact hsame heq
            · rw [Session.isAuthenticated, hrejected] at hauth
              cases hauth
          rw [authenticatedAt_of_authenticated hs hbefore, heardAt_eq_nil hunheard]
          exact ⟨rfl, s, rfl, hbefore, hreceived.symm⟩

theorem last_signsOfLife (h : r.registry.Numbered) (hnobody : r.session? id = none)
    {steps : List Step} (hs : (r.run steps).session? id = some s)
    (hauth : s.isAuthenticated = true) :
    (signsOfLife id r steps).getLast? = some s.heartbeatReceivedAt := by
  induction steps using List.reverseRecOn generalizing s with
  | nil =>
      rw [run_nil, hnobody] at hs
      cases hs
  | append_singleton steps st ih =>
      rw [run_append, run_cons, run_nil] at hs
      rw [signsOfLife, gather_concat, ← signsOfLife]
      rcases signs_of_authenticated (numbered_run h steps) hs hauth with
        hsign | ⟨hnone, t, ht, htauth, hreceived⟩
      · rw [hsign, List.getLast?_concat]
      · rw [hnone, List.append_nil, ih ht htauth, hreceived]

theorem admissions_eq (h : r.registry.Numbered) (hnobody : r.session? id = none)
    (steps : List Step) :
    admissions id r steps = (((r.run steps).session? id).map (·.connectedAt)).toList := by
  induction steps using List.reverseRecOn with
  | nil => rw [run_nil, hnobody]; rfl
  | append_singleton steps st ih =>
      rw [admissions, gather_concat, ← admissions, ih, run_append, run_cons, run_nil]
      have hnumbered := numbered_run h steps
      cases hs : (r.run steps).session? id with
      | some s =>
          have hconnected : (s.after (r.run steps) st).connectedAt = s.connectedAt :=
            (s.sameClient_after _ st).connectedAt.trans (s.connectedAt_updated _ st)
          rw [session?_step_of_some hnumbered hs, admittedAt, hs, Option.map_some, Option.map_some,
            hconnected]
          rfl
      | none =>
          cases ht : ((r.run steps).step st).session? id with
          | none =>
              rw [admittedAt, hs, ht]
              rfl
          | some t =>
              obtain ⟨peer, now, rfl, rfl⟩ := session?_step_of_none hnumbered hs ht
              rw [admittedAt, hs, ht]
              rfl

theorem signsOfLife_sublist (id : SessionId) (r : Relay) (steps : List Step) :
    (signsOfLife id r steps).Sublist (steps.flatMap Step.moments) := by
  have hlast : ∀ (r : Relay) (st : Step),
      (r.authenticatedAt id st).Sublist st.moments.getLast?.toList := by
    intro r st
    unfold authenticatedAt
    split
    · exact List.nil_sublist _
    · split
      · exact List.Sublist.refl _
      · exact List.nil_sublist _
  induction steps generalizing r with
  | nil => exact List.Sublist.refl []
  | cons st steps ih =>
      rw [signsOfLife, gather, ← signsOfLife, List.flatMap_cons]
      refine List.Sublist.append ?_ (ih (r.step st))
      have hlast := hlast r st
      cases st with
      | message id' m handledAt appliedAt =>
          have hheard :
              (r.heardAt id (.message id' m handledAt appliedAt)).Sublist [handledAt] := by
            cases m with
            | heartbeat m =>
                simp only [heardAt]
                split
                · exact List.Sublist.refl _
                · exact List.nil_sublist _
            | _ => exact List.nil_sublist _
          exact hheard.append hlast
      | _ => exact hlast

theorem max?_signsOfLife (h : r.registry.Numbered) (hnobody : r.session? id = none)
    {steps : List Step} (htimed : (steps.flatMap Step.moments).Pairwise (· ≤ ·))
    (hs : (r.run steps).session? id = some s) (hauth : s.isAuthenticated = true) :
    (signsOfLife id r steps).max? = some s.heartbeatReceivedAt := by
  have hsorted := htimed.sublist (signsOfLife_sublist id r steps)
  obtain ⟨earlier, hsigns⟩ :=
    List.getLast?_eq_some_iff.mp (last_signsOfLife h hnobody hs hauth)
  rw [hsigns] at hsorted ⊢
  refine List.max?_eq_some_iff.mpr ⟨List.mem_concat_self, ?_⟩
  intro sign hsign
  rcases List.mem_append.mp hsign with hearlier | hlast
  · exact (List.pairwise_append.mp hsorted).2.2 sign hearlier _ List.mem_cons_self
  · exact Nat.le_of_eq (List.mem_singleton.mp hlast)

end Relay
end MarketRelay
