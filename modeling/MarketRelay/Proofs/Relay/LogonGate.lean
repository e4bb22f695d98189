import MarketRelay.Proofs.Relay.Invariant
import MarketRelay.Proofs.Wire.RoundTrip

/-!
# The gate of the logon

Where a logon is required, a client that did not present the password is told nothing but that its
logon was refused and that the server takes its leave.

Every message for a client goes through one of a few places, and each of these asks for a session
that has logged on or sends just that.  So the invariant is that such a session has not logged on
(`IsStranger`), whatever else it sent:

* `auth_after_ne_authenticated`: no step gets a session past the gate, unless its client presents
  the password in it;
* `forStrangers_of_pushed`: what a step pushes on the queue of a session that has not logged on is
  one of the two messages;
* `accepted_before_logon`: by induction on the steps, that is all that the queue takes, and with it
  all that is handed over or waits.

The client for its part reads such a message as what it is: the words of the server are short enough
to arrive in full, and a refusal stays one even where the server's name is cut
(`Message.ForStrangers.norm`).
-/
namespace MarketRelay

/-- A message that a client may be sent before it has logged on. -/
def Message.ForStrangers (m : Message) : Prop :=
  m = Server.farewell ∨
    ∃ response : LogonResponse, m = .logonResponse response ∧ response.result = .rejected

theorem Message.fits_farewell : Server.farewell.Fits :=
  ⟨⟨by decide, by decide⟩, trivial, trivial⟩

theorem Message.ForStrangers.norm {m : Message} (h : m.ForStrangers) : m.norm.ForStrangers := by
  rcases h with rfl | ⟨response, rfl, hresult⟩
  · exact Or.inl (Message.norm_eq_self Message.fits_farewell)
  · exact Or.inr ⟨_, rfl, hresult⟩

/-- The step in which the client of a session presents a password. -/
def Step.presents (id : SessionId) (password : String) : Step → Bool
  | .message id' (.logonRequest request) _ _ => id' == id && request.password == password
  | _ => false

/-! ## One step -/

namespace Session

variable {r : Relay} {st : Step} {s : Session}

theorem accepts_of_required (hrequired : r.config.requireAuthentication = true)
    (password : String) :
    (AuthPolicy.ofConfig r.config).accepts password = (password == r.config.password) := by
  simp [AuthPolicy.accepts, AuthPolicy.ofConfig, hrequired]

theorem refused_of_not_presents (hrequired : r.config.requireAuthentication = true)
    {request : LogonRequest} {handledAt appliedAt : Instant}
    (h : Step.presents s.id r.config.password
      (.message s.id (.logonRequest request) handledAt appliedAt) = false) :
    ¬ (AuthPolicy.ofConfig r.config).accepts request.password = true := by
  rw [accepts_of_required hrequired]
  simpa [Step.presents] using h

theorem auth_fresh_ne_authenticated {c : Config} (hrequired : c.requireAuthentication = true)
    (id : SessionId) (peer : SocketAddress) (now : Instant) :
    (fresh id peer now (!c.requireAuthentication) c.outboundQueueCapacity).auth ≠
      .authenticated := by
  rw [hrequired]
  exact nofun

/-- Nobody gets past the gate without the password. -/
theorem auth_after_ne_authenticated (hrequired : r.config.requireAuthentication = true)
    (h : st.presents s.id r.config.password = false) (hauth : s.auth ≠ .authenticated) :
    (s.after r st).auth ≠ .authenticated := by
  rw [(s.sameClient_after r st).auth]
  rcases sameLogon_updated r st s with hsame | ⟨request, handledAt, appliedAt, rfl, hnoted⟩
  · rw [hsame.auth]
    exact hauth
  · rw [hnoted]
    simp only [noted, if_neg (refused_of_not_presents hrequired h)]
    intro heq
    cases heq

/-- A session that has not logged on is sent nothing but what is for strangers. -/
theorem forStrangers_of_pushed (hrequired : r.config.requireAuthentication = true)
    (h : st.presents s.id r.config.password = false) (hauth : s.auth ≠ .authenticated)
    {m : Message} (hm : s.pushed r st = some m) : m.ForStrangers := by
  have hfalse : s.isAuthenticated = false := by simpa [isAuthenticated] using hauth
  cases st with
  | enlist peer now => cases hm
  | message id m' handledAt appliedAt =>
      by_cases hid : s.id = id
      · subst hid
        simp only [pushed, if_true] at hm
        cases m' with
        | logonRequest request =>
            simp only [reply, if_neg (refused_of_not_presents hrequired h)] at hm
            cases hm
            exact Or.inr ⟨_, rfl, rfl⟩
        | marketDataRequest request => simp [reply, hfalse] at hm
        | _ => cases hm
      · simp only [pushed, if_neg hid] at hm
        cases hm
  | publish e elapsed => simp [pushed, Relay.reaches, receives, hfalse] at hm
  | sweep l now clock => simp [pushed, isOwed, hfalse] at hm
  | drain id => cases hm
  | close id reason => cases hm
  | stop =>
      simp only [pushed] at hm
      split at hm
      · cases hm
        exact Or.inl rfl
      · cases hm

end Session

/-! ## Runs -/

namespace Relay

/-- A session, if there is one, has not logged on. -/
def IsStranger (r : Relay) (id : SessionId) : Prop :=
  ∀ s, r.session? id = some s → s.auth ≠ .authenticated

variable {r : Relay} {id : SessionId}

theorem IsStranger.step (h : r.IsStranger id) (hnumbered : r.registry.Numbered)
    (hrequired : r.config.requireAuthentication = true) {st : Step}
    (hst : st.presents id r.config.password = false) : (r.step st).IsStranger id := by
  intro s' hs'
  cases hs : r.session? id with
  | none =>
      obtain ⟨peer, now, -, rfl⟩ := session?_step_of_none hnumbered hs hs'
      exact Session.auth_fresh_ne_authenticated hrequired id peer now
  | some s =>
      obtain ⟨-, rfl⟩ := (Registry.session?_eq_some_iff hnumbered).mp hs
      rw [session?_step_of_some hnumbered hs st] at hs'
      cases hs'
      exact Session.auth_after_ne_authenticated hrequired hst (h s hs)

theorem IsStranger.forStrangers_of_mem (h : r.IsStranger id) (hnumbered : r.registry.Numbered)
    (hrequired : r.config.requireAuthentication = true) {st : Step}
    (hst : st.presents id r.config.password = false) {frame : List UInt8}
    (hframe : frame ∈ OutboundQueue.newFrames (r.queue id) ((r.step st).queue id)) :
    ∃ m : Message, m.ForStrangers ∧ frame = m.encode := by
  cases hs : r.session? id with
  | none =>
      rw [newFrames_step_of_none hnumbered hs] at hframe
      cases hframe
  | some s =>
      obtain ⟨-, rfl⟩ := (Registry.session?_eq_some_iff hnumbered).mp hs
      rw [newFrames_step_of_some hnumbered hs] at hframe
      split at hframe
      · cases hframe
      · rw [Option.mem_toList, Option.map_eq_some_iff] at hframe
        obtain ⟨m, hm, rfl⟩ := hframe
        exact ⟨m, Session.forStrangers_of_pushed hrequired hst (h s hs) hm, rfl⟩

theorem IsStranger.forStrangers_of_mem_accepted (h : r.IsStranger id)
    (hnumbered : r.registry.Numbered) (hrequired : r.config.requireAuthentication = true)
    {steps : List Step} (hsteps : ∀ st ∈ steps, st.presents id r.config.password = false)
    {frame : List UInt8} (hframe : frame ∈ accepted id r steps) :
    ∃ m : Message, m.ForStrangers ∧ frame = m.encode := by
  induction steps generalizing r with
  | nil => cases hframe
  | cons st steps ih =>
      have hst := hsteps st List.mem_cons_self
      rw [accepted, List.mem_append] at hframe
      rcases hframe with hnow | hlater
      · exact h.forStrangers_of_mem hnumbered hrequired hst hnow
      · refine ih (h.step hnumbered hrequired hst) (numbered_step hnumbered st) ?_ ?_ hlater
        · rw [config_step]
          exact hrequired
        · rw [config_step]
          exact fun st' hst' => hsteps st' (List.mem_cons_of_mem st hst')

/-- Where a logon is required, the queue of a session whose client did not present the password
takes nothing but refusals of logons and the farewell, whatever the clients send and whatever else
happens; and nothing else is handed over to that client or waits for it. -/
theorem accepted_before_logon {c : Config} (hrequired : c.requireAuthentication = true)
    {id : SessionId} {steps : List Step}
    (hsteps : ∀ st ∈ steps, st.presents id c.password = false) :
    ∀ frame, frame ∈ accepted id (Relay.ofConfig c) steps ∨
        frame ∈ (Relay.ofConfig c).received id steps →
      ∃ m : Message, m.ForStrangers ∧ frame = m.encode ∧
        ∃ seen : Message, Message.decode defaultFrameLimit frame = .ok seen ∧
          seen.ForStrangers := by
  intro frame hframe
  have hstranger : (Relay.ofConfig c).IsStranger id := by
    intro s hs
    cases hs
  have haccepted : frame ∈ accepted id (Relay.ofConfig c) steps := by
    rcases hframe with haccepted | hreceived
    · exact haccepted
    · exact (received_sublist_accepted c id steps).subset hreceived
  obtain ⟨m, hm, rfl⟩ := hstranger.forStrangers_of_mem_accepted
    (orderly_ofConfig c).numbered hrequired hsteps haccepted
  exact ⟨m, hm, rfl, m.norm, Message.decode_encode m.frameSize_le_defaultFrameLimit, hm.norm⟩

/-- A client that guesses, while market data is published, gets one frame: its refusal. -/
theorem accepted_before_logon_guess :
    let c : Config := { requireAuthentication := true, password := "open sesame" }
    let guess : LogonRequest := ⟨protocolVersion, "thief", "open barley", 30, ""⟩
    let steps : List Step :=
      [.enlist (.v4 127 0 0 1 50000) 0, .publish ⟨1, .trade ⟨.zero, .zero, .buy, 1⟩⟩ 0,
        .message 1 (.logonRequest guess) 1 1, .stop]
    let refusal := ((Relay.ofConfig c).logonResponse .rejected "invalid credentials").encode
    c.requireAuthentication = true ∧ (∀ st ∈ steps, st.presents 1 c.password = false) ∧
      accepted 1 (.ofConfig c) steps = [refusal] ∧
      ∃ m : Message, m.ForStrangers ∧ refusal = m.encode ∧
        ∃ seen : Message, Message.decode defaultFrameLimit refusal = .ok seen ∧
          seen.ForStrangers := by
  intro c guess steps refusal
  have hrequired : c.requireAuthentication = true := rfl
  have hsteps : ∀ st ∈ steps, st.presents 1 c.password = false := by decide
  have haccepted : accepted 1 (.ofConfig c) steps = [refusal] := by decide +kernel
  have hmem : refusal ∈ accepted 1 (.ofConfig c) steps := by
    rw [haccepted]
    exact List.mem_singleton_self refusal
  exact ⟨hrequired, hsteps, haccepted,
    accepted_before_logon hrequired hsteps refusal (Or.inl hmem)⟩

end Relay
end MarketRelay
