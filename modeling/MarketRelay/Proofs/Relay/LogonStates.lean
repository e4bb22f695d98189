import MarketRelay.Proofs.Relay.Reachable
import Mathlib.Data.List.Chain

/-!
# How far a client gets with its logon

By the diagram of sessions, a client that has not logged on either logs on or is refused, and both
are final (`AuthState.Follows`).  The effects of messages keep to it, and so do all other steps;
what may leave it is the handling of a logon, which marks the session as rejected whatever it was
before.  So the states that a session goes through while it is listed are a path of the diagram just
if none is refused a logon after it was granted one.

* `logonGoesOn_apply`, `logonGoesOn_step`: effects, and all steps that are no messages, keep to the
  diagram.
* `logonGoesOn_handle`: the handling of a message does, too, unless it refuses a logon again.
* `isChain_logonPath`, `not_isChain_logonPath`: so while no logon is refused again the states are a
  path, and once one is they are not, because the state before the refusal and the one after it have
  no arrow between them.
* `staysLoggedOn_after`, `endsRefused_after`: what a client gets that logs on a second time.  A
  logon that is granted again leaves the session as it is, and one that is refused ends it.

A message is handled before what it leaves to do is done, so the path of a run has a state between
the two; a refusal is seen in that state, since after it the session is not listed any more.
-/
namespace MarketRelay

/-! ## The diagram -/

inductive AuthState.Follows : AuthState → AuthState → Prop
  | lasts (a : AuthState) : Follows a a
  | accepted : Follows .unauthenticated .authenticated
  | refused : Follows .unauthenticated .rejected

namespace AuthState

theorem follows_iff {a b : AuthState} : a.Follows b ↔ a = .unauthenticated ∨ b = a := by
  constructor
  · rintro (_ | _ | _)
    · exact Or.inr rfl
    · exact Or.inl rfl
    · exact Or.inl rfl
  · rintro (rfl | rfl)
    · cases b with
      | unauthenticated => exact .lasts .unauthenticated
      | authenticated => exact .accepted
      | rejected => exact .refused
    · exact .lasts b

instance : DecidableRel Follows := fun _ _ => decidable_of_iff _ follows_iff.symm

theorem Follows.trans {a b c : AuthState} (h : a.Follows b) (h' : b.Follows c) : a.Follows c := by
  cases h with
  | lasts => exact h'
  | accepted => exact follows_iff.mpr (Or.inl rfl)
  | refused => exact follows_iff.mpr (Or.inl rfl)

end AuthState

/-! ## One session -/

namespace Session

theorem follows_authenticate (s : Session) (username : String) (now : Instant) :
    s.auth.Follows (s.authenticate username now).1.auth := by
  cases hauth : s.auth with
  | unauthenticated => exact AuthState.follows_iff.mpr (Or.inl rfl)
  | authenticated =>
      rw [auth_authenticate_of_authenticated hauth]
      exact .lasts .authenticated
  | rejected =>
      simp only [authenticate, hauth]
      exact .lasts .rejected

/-- An effect keeps to the diagram and lists nobody. -/
theorem follows_undergo (now : Instant) (s : Session) (e : Effect) :
    (s.undergo now e).isListed = true →
      s.isListed = true ∧ s.auth.Follows (s.undergo now e).auth := by
  intro hlisted
  cases e with
  | send id m => exact ⟨hlisted, .lasts s.auth⟩
  | authenticate id username =>
      simp only [undergo] at hlisted ⊢
      split
      · rename_i hs
        exact ⟨hs, s.follows_authenticate username now⟩
      · rename_i hs
        rw [if_neg hs] at hlisted
        exact absurd hlisted hs
  | close id reason =>
      rw [undergo, isListed_leave] at hlisted
      cases hlisted

theorem follows_affected (own : SessionId) (now : Instant) (s : Session) (e : Effect) :
    (s.affected own now e).isListed = true →
      s.isListed = true ∧ s.auth.Follows (s.affected own now e).auth :=
  affected_cases (P := fun t => t.isListed = true → s.isListed = true ∧ s.auth.Follows t.auth)
    (fun hlisted => ⟨hlisted, .lasts s.auth⟩) (s.follows_undergo now e) own

end Session

namespace Relay

variable {r r' : Relay} {id id' : SessionId}

/-- Between two states a session was not listed anew, and its logon went along the diagram if it is
listed still. -/
def LogonGoesOn (id : SessionId) (r r' : Relay) : Prop :=
  ∀ s, r.session? id = some s → ∃ t, r'.session? id = some t ∧
    (t.isListed = true → s.isListed = true ∧ s.auth.Follows t.auth)

theorem LogonGoesOn.refl (id : SessionId) (r : Relay) : LogonGoesOn id r r :=
  fun s hs => ⟨s, hs, fun hlisted => ⟨hlisted, .lasts s.auth⟩⟩

theorem LogonGoesOn.trans {r'' : Relay} (h : LogonGoesOn id r r') (h' : LogonGoesOn id r' r'') :
    LogonGoesOn id r r'' := by
  intro s hs
  obtain ⟨t, ht, hst⟩ := h s hs
  obtain ⟨u, hu, htu⟩ := h' t ht
  refine ⟨u, hu, ?_⟩
  intro hlisted
  obtain ⟨hlisted, hfollows'⟩ := htu hlisted
  obtain ⟨hlisted, hfollows⟩ := hst hlisted
  exact ⟨hlisted, hfollows.trans hfollows'⟩

theorem logonGoesOn_of_only {id' : SessionId} {g : Session → Session}
    (hsessions : r'.registry.sessions = r.registry.sessions.map (Session.only id' g))
    (hid : ∀ s, (g s).id = s.id)
    (hg : id' = id → ∀ s, r.session? id = some s → (g s).isListed = true →
      s.isListed = true ∧ s.auth.Follows (g s).auth) : LogonGoesOn id r r' := by
  intro s hs
  have hsid := Registry.id_of_session? hs
  refine ⟨s.only id' g, ?_, ?_⟩
  · rw [session?_of_map hsessions (Session.id_only hid), hs]
    rfl
  · by_cases heq : id' = id
    · rw [Session.only_of_eq (hsid.trans heq.symm)]
      exact hg heq s hs
    · rw [Session.only_of_ne (hsid.trans_ne (Ne.symm heq))]
      exact fun hlisted => ⟨hlisted, .lasts s.auth⟩

/-! ## One step -/

def logonState (id : SessionId) (r : Relay) : Option AuthState :=
  ((r.session? id).filter (·.isListed)).map (·.auth)

theorem logonState_eq_some_iff {a : AuthState} :
    logonState id r = some a ↔ ∃ s, r.session? id = some s ∧ s.isListed = true ∧ s.auth = a := by
  simp [logonState, Option.filter_eq_some_iff, and_assoc]

/-- A step refuses a logon to a session that was granted one and is listed. -/
def refusesAgain (r : Relay) (id : SessionId) : Step → Bool
  | .message id' (.logonRequest request) _ _ =>
    id' == id && logonState id r == some .authenticated &&
      !(AuthPolicy.ofConfig r.config).accepts request.password
  | _ => false

variable {st : Step}

theorem refusesAgain_iff :
    r.refusesAgain id st = true ↔ ∃ request handledAt appliedAt,
      st = .message id (.logonRequest request) handledAt appliedAt ∧
        logonState id r = some .authenticated ∧
        (AuthPolicy.ofConfig r.config).accepts request.password = false := by
  constructor
  · intro h
    unfold refusesAgain at h
    split at h
    · rename_i id' request handledAt appliedAt
      simp only [Bool.and_eq_true, beq_iff_eq, Bool.not_eq_true'] at h
      obtain ⟨⟨rfl, hstate⟩, hrefused⟩ := h
      exact ⟨request, handledAt, appliedAt, rfl, hstate, hrefused⟩
    · cases h
  · rintro ⟨request, handledAt, appliedAt, rfl, hstate, hrefused⟩
    simp [refusesAgain, hstate, hrefused]

theorem logonGoesOn_handle {m : Message} {handledAt appliedAt : Instant}
    (h : r.refusesAgain id (.message id' m handledAt appliedAt) = false) :
    LogonGoesOn id r (r.handle id' m handledAt).1 := by
  refine handle_cases (.refl id r) ?_
  rintro s r' - rfl hhandled
  cases hhandled with
  | subscribed hack =>
      exact logonGoesOn_of_only (sessions_subscribe r s.id _) (fun _ => rfl)
        fun _ t _ hlisted => ⟨hlisted, .lasts t.auth⟩
  | @refused request hm hrefused =>
      refine logonGoesOn_of_only (sessions_modify r s.id _) (fun _ => rfl) ?_
      intro hid t ht hlisted
      refine ⟨hlisted, ?_⟩
      cases hauth : t.auth with
      | unauthenticated => exact .refused
      | authenticated =>
          subst hm hid
          have hstate := logonState_eq_some_iff.mpr ⟨t, ht, hlisted, hauth⟩
          rw [refusesAgain_iff.mpr ⟨request, handledAt, appliedAt, rfl, hstate, hrefused⟩] at h
          cases h
      | rejected => exact .lasts .rejected
  | noted hack hway hlogon =>
      refine logonGoesOn_of_only (sessions_modify r s.id _) (fun t => (hway t).id) ?_
      intro _ t _ hlisted
      rw [(hway t).isListed] at hlisted
      rw [(hlogon t).auth]
      exact ⟨hlisted, .lasts t.auth⟩

theorem logonGoesOn_apply (h : r.registry.Numbered) (id own : SessionId) (now : Instant)
    (effects : List Effect) : LogonGoesOn id r (r.apply own now effects).1 := by
  rw [apply_eq]
  induction effects generalizing r with
  | nil => exact .refl id r
  | cons e rest ih =>
      have hone := sessions_applyOne h own now e
      exact (logonGoesOn_of_only hone (Session.id_affected own now e)
        fun _ s _ => s.follows_affected own now e).trans (ih (numbered_applyOne h own now e))

theorem logonGoesOn_step (h : r.registry.Numbered)
    (hst : ∀ m handledAt appliedAt, st ≠ .message id m handledAt appliedAt) :
    LogonGoesOn id r (r.step st) := by
  intro s hs
  obtain rfl := Registry.id_of_session? hs
  refine ⟨s.after r st, session?_step_of_some h hs st, ?_⟩
  intro hlisted
  rw [(s.sameClient_after r st).auth]
  rcases s.sameLogon_updated r st with hsame | ⟨request, handledAt, appliedAt, heq, -⟩
  · rw [hsame.auth]
    exact ⟨(Session.isListed_after hlisted).1, .lasts s.auth⟩
  · exact absurd heq (hst _ _ _)

/-! ## Runs -/

/-- The states that a relay goes through in a run.  A message is handled before what is left to do
is done, so it leads through one more state than other steps. -/
def states : Relay → List Step → List Relay
  | r, [] => [r]
  | r, st :: steps =>
    match st with
    | .message id m handledAt _ => r :: (r.handle id m handledAt).1 :: states (r.step st) steps
    | _ => r :: states (r.step st) steps

/-- How far the client of a session had got with its logon in each state of a run in which the
session was listed. -/
def logonPath (id : SessionId) (r : Relay) (steps : List Step) : List AuthState :=
  (states r steps).filterMap (logonState id)

theorem states_eq_cons (r : Relay) (steps : List Step) : ∃ rest, states r steps = r :: rest := by
  cases steps with
  | nil => exact ⟨[], rfl⟩
  | cons st steps => cases st <;> exact ⟨_, rfl⟩

theorem states_append (r : Relay) (before : List Step) (steps : List Step) :
    ∃ front, states r (before ++ steps) = front ++ states (r.run before) steps := by
  induction before generalizing r with
  | nil => exact ⟨[], rfl⟩
  | cons st before ih =>
      obtain ⟨front, hfront⟩ := ih (r.step st)
      rw [List.cons_append, run_cons]
      cases st with
      | message id m handledAt appliedAt =>
          exact ⟨r :: (r.handle id m handledAt).1 :: front, by simp [states, hfront]⟩
      | _ => exact ⟨r :: front, by simp [states, hfront]⟩

theorem isChain_states (h : r.registry.Numbered) {steps : List Step}
    (hsteps : ∀ before st after, steps = before ++ st :: after →
      (r.run before).refusesAgain id st = false) :
    (states r steps).IsChain (LogonGoesOn id) := by
  induction steps generalizing r with
  | nil => exact List.isChain_singleton r
  | cons st steps ih =>
      have hrest := ih (numbered_step h st) fun before st' after heq =>
        hsteps (st :: before) st' after (by rw [heq]; rfl)
      obtain ⟨rest, hcons⟩ := states_eq_cons (r.step st) steps
      have hst := hsteps [] st steps rfl
      cases st with
      | message id' m handledAt appliedAt =>
          rw [states, hcons, List.isChain_cons_cons, List.isChain_cons_cons, ← hcons]
          exact ⟨logonGoesOn_handle hst,
            logonGoesOn_apply (numbered_handle h m handledAt) id id' appliedAt _, hrest⟩
      | _ =>
          rw [states, hcons, List.isChain_cons_cons, ← hcons]
          · exact ⟨logonGoesOn_step h nofun, hrest⟩
          · exact nofun

theorem isChain_logonPath (h : r.registry.Numbered) {steps : List Step}
    (hsteps : ∀ before st after, steps = before ++ st :: after →
      (r.run before).refusesAgain id st = false) :
    (logonPath id r steps).IsChain AuthState.Follows := by
  have : Trans (LogonGoesOn id) (LogonGoesOn id) (LogonGoesOn id) := ⟨LogonGoesOn.trans⟩
  refine (List.pairwise_filterMap.mpr ((isChain_states h hsteps).pairwise.imp ?_)).isChain
  intro r r' hgoes a ha b hb
  obtain ⟨s, hs, -, rfl⟩ := logonState_eq_some_iff.mp ha
  obtain ⟨t, ht, hlisted, rfl⟩ := logonState_eq_some_iff.mp hb
  obtain ⟨t', ht', hfollows⟩ := hgoes s hs
  rw [ht] at ht'
  cases ht'
  exact (hfollows hlisted).2

theorem logonState_handle_of_refused {a : AuthState} (h : logonState id r = some a)
    {request : LogonRequest}
    (hrefused : (AuthPolicy.ofConfig r.config).accepts request.password = false) (now : Instant) :
    logonState id (r.handle id (.logonRequest request) now).1 = some .rejected := by
  obtain ⟨s, hs, hlisted, -⟩ := logonState_eq_some_iff.mp h
  obtain rfl := Registry.id_of_session? hs
  have hreject : (r.handle s.id (.logonRequest request) now).1 = r.modify s.id (·.reject) := by
    simp [handle, hs, handleMessage, handleLogon, hrefused]
  rw [hreject]
  have hrejected := session?_of_only (sessions_modify r s.id (·.reject)) (fun _ => rfl) hs
  exact logonState_eq_some_iff.mpr ⟨s.reject, hrejected, hlisted, rfl⟩

/-- A session that was granted a logon and is refused one goes from one state to another without an
arrow between them. -/
theorem not_isChain_logonPath {before after : List Step}
    (hst : (r.run before).refusesAgain id st = true) :
    ¬ (logonPath id r (before ++ st :: after)).IsChain AuthState.Follows := by
  intro hchain
  obtain ⟨request, handledAt, appliedAt, rfl, hstate, hrefused⟩ := refusesAgain_iff.mp hst
  have hhandled := logonState_handle_of_refused hstate hrefused handledAt
  obtain ⟨front, hfront⟩ :=
    states_append r before (.message id (.logonRequest request) handledAt appliedAt :: after)
  rw [logonPath, hfront, states, List.filterMap_append, List.filterMap_cons_some hstate,
    List.filterMap_cons_some hhandled] at hchain
  cases (List.isChain_cons_cons.mp hchain.right_of_append).1

/-! ## A second logon -/

end Relay

namespace Session

/-- The session is listed and has logged on, and all that a first logon and requests for market data
gave it is as it was. -/
structure StaysLoggedOn (s t : Session) : Prop where
  isListed : t.isListed = true
  auth : t.auth = .authenticated
  username : ∀ name, s.username = some name → t.username = some name
  subscriptions : t.subscriptions = s.subscriptions
  heartbeatReceivedAt : t.heartbeatReceivedAt = s.heartbeatReceivedAt
  heartbeatSentAt : t.heartbeatSentAt = s.heartbeatSentAt

structure EndsRefused (t : Session) : Prop where
  isListed : t.isListed = false
  auth : t.auth = .rejected
  closeReason : t.closeReason = some .authenticationFailed

theorem staysLoggedOn_authenticate {s : Session} (hlisted : s.isListed = true)
    (hauth : s.auth = .authenticated) (username : String) (now : Instant) :
    s.StaysLoggedOn (s.authenticate username now).1 where
  isListed := (s.sameWay_authenticate username now).isListed.trans hlisted
  auth := auth_authenticate_of_authenticated hauth username now
  username := by
    intro name hname
    simp [authenticate, hauth, hname]
  subscriptions := s.subscriptions_authenticate username now
  heartbeatReceivedAt := by
    simp only [authenticate, hauth]
    split <;> rfl
  heartbeatSentAt := by
    simp only [authenticate, hauth]
    split <;> rfl

variable {r : Relay} {s : Session} {request : LogonRequest} {handledAt appliedAt : Instant}

theorem staysLoggedOn_after (hlisted : s.isListed = true) (hauth : s.auth = .authenticated)
    (h : (AuthPolicy.ofConfig r.config).accepts request.password = true) :
    s.StaysLoggedOn (s.after r (.message s.id (.logonRequest request) handledAt appliedAt)) := by
  rw [after_message, only_of_eq rfl]
  simp only [answered, noted, reply, endingBy, h, hlisted, if_true]
  have hstays := staysLoggedOn_authenticate hlisted hauth request.username appliedAt
  exact ⟨hstays.isListed, hstays.auth, hstays.username, hstays.subscriptions,
    hstays.heartbeatReceivedAt, hstays.heartbeatSentAt⟩

theorem endsRefused_after (hlisted : s.isListed = true) (hopen : s.isClosed = false)
    (h : (AuthPolicy.ofConfig r.config).accepts request.password = false) :
    (s.after r (.message s.id (.logonRequest request) handledAt appliedAt)).EndsRefused := by
  rw [after_message, only_of_eq rfl]
  simp only [answered, noted, reply, endingBy, h, Bool.false_eq_true, if_false]
  refine ⟨isListed_leave _ _, (sameClient_leave _ _).auth, ?_⟩
  have hreason : s.closeReason = none := by simpa [isClosed] using hopen
  have hleft := closeReason_leave
    (s := s.reject.push (r.logonResponse .rejected "invalid credentials").encode) hlisted
    .authenticationFailed
  refine hleft.trans ?_
  exact congrArg (fun reason => some (reason.getD .authenticationFailed)) hreason

end Session

namespace Relay

/-- The logon of a session goes along the diagram, while the session is listed, just if the session
is not refused a logon after it was granted one.  If it asks again, it is answered: granted the
logon, it is as before, and refused it, it ends. -/
theorem isChain_logonPath_iff (c : Config) (id : SessionId) (steps : List Step) :
    ((logonPath id (Relay.ofConfig c) steps).IsChain AuthState.Follows ↔
      ∀ before st after, steps = before ++ st :: after →
        ((Relay.ofConfig c).run before).refusesAgain id st = false) ∧
    ∀ s, ((Relay.ofConfig c).run steps).session? id = some s → s.isListed = true →
      s.auth = .authenticated → ∀ request handledAt appliedAt,
        let r := (Relay.ofConfig c).run steps
        let r' := r.step (.message id (.logonRequest request) handledAt appliedAt)
        ∃ t, r'.session? id = some t ∧
          if (AuthPolicy.ofConfig c).accepts request.password then
            OutboundQueue.newFrames (r.queue id) (r'.queue id) =
                [(r.logonResponse .success "logon successful").encode] ∧ s.StaysLoggedOn t
          else
            OutboundQueue.newFrames (r.queue id) (r'.queue id) =
                [(r.logonResponse .rejected "invalid credentials").encode] ∧ t.EndsRefused := by
  constructor
  · constructor
    · rintro hchain before st after rfl
      by_contra hst
      exact not_isChain_logonPath (Bool.not_eq_false _ ▸ hst) hchain
    · exact isChain_logonPath (orderly_ofConfig c).numbered
  · intro s hs hlisted hauth request handledAt appliedAt r r'
    have hreachable : Reachable c r := Reachable.start.run steps
    have hnumbered := hreachable.orderly.numbered
    obtain rfl := Registry.id_of_session? hs
    refine ⟨_, session?_step_of_some hnumbered hs _, ?_⟩
    rw [newFrames_step_of_some hnumbered hs, (hreachable.orderly.session hs).isOpen hlisted,
      ← hreachable.config_eq]
    have hclosed : s.isClosed = false := by
      rw [hreachable.isClosed_of_session? hs, hlisted]
      rfl
    split
    · rename_i haccepts
      refine ⟨?_, Session.staysLoggedOn_after hlisted hauth haccepts⟩
      simp only [Session.pushed, Session.reply, haccepts, if_true]
      rfl
    · rename_i hrefused
      refine ⟨?_, Session.endsRefused_after hlisted hclosed (Bool.eq_false_iff.mpr hrefused)⟩
      simp only [Session.pushed, Session.reply, if_neg hrefused, if_true]
      rfl

/-- A client that logs on twice, each time with the password, keeps its first name. -/
theorem isChain_logonPath_iff_granted_again :
    let c : Config := { requireAuthentication := true, password := "open sesame" }
    let logon (name : String) : Step :=
      .message 1 (.logonRequest ⟨protocolVersion, name, "open sesame", 30, ""⟩) 1 2
    let r := (Relay.ofConfig c).run [.enlist (.v4 127 0 0 1 50000) 0, logon "ali"]
    ∃ s t, r.session? 1 = some s ∧ s.isListed = true ∧ s.auth = .authenticated ∧
      s.username = some "ali" ∧ (r.step (logon "baba")).session? 1 = some t ∧
      s.StaysLoggedOn t := by
  intro c logon r
  have hfound : (r.session? 1).any (fun s => s.isListed && s.auth == .authenticated &&
      s.username == some "ali") = true := by decide +kernel
  simp only [Option.any_eq_true, Bool.and_eq_true, beq_iff_eq] at hfound
  obtain ⟨s, hs, ⟨hlisted, hauth⟩, hname⟩ := hfound
  obtain ⟨t, ht, hanswer⟩ := (isChain_logonPath_iff c 1 _).2 s hs hlisted hauth
    ⟨protocolVersion, "baba", "open sesame", 30, ""⟩ 1 2
  rw [if_pos (by decide)] at hanswer
  exact ⟨s, t, hs, hlisted, hauth, hname, ht, hanswer.2⟩

/-- A client that logs on with the password and then with another one. -/
theorem not_isChain_logonPath_refused_again :
    let c : Config := { requireAuthentication := true, password := "open sesame" }
    let logon (password : String) : Message :=
      .logonRequest ⟨protocolVersion, "ali", password, 30, ""⟩
    let steps : List Step := [.enlist (.v4 127 0 0 1 50000) 0, .message 1 (logon "open sesame") 1 1,
      .message 1 (logon "open barley") 2 2]
    let r := Relay.ofConfig c
    c.validate = .ok () ∧
      logonPath 1 r steps = [.unauthenticated, .unauthenticated, .authenticated, .rejected] ∧
      ¬ (logonPath 1 r steps).IsChain AuthState.Follows ∧
      (r.run steps).registry.contains 1 = false := by
  decide +kernel

end Relay
end MarketRelay
