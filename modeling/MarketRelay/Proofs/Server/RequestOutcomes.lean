import MarketRelay.Proofs.Relay.Subscriptions
import MarketRelay.Proofs.Server.Deliveries
import MarketRelay.Proofs.Server.Refusals
import Mathlib.Data.Finset.Card

/-!
# What comes of a request

A request for market data is answered in several places: the symbols say what it means, the settings
whether there is room, and the snapshot that acknowledges a subscription is sent by another hand
than the one that is asked for.  Seen from the session every request is one case of a few
(`Session.CallsFor`), the session changes by the outcome of its case and by nothing else
(`Relay.Carries`), and no state of the relay and no queue makes a difference.

* `callsFor_iff`: the cases exclude each other, and there is one for every request.  `outcome`
  computes it, with the questions in the order in which the relay asks them.
* `CallsFor.requested_and_reply`: a request changes the session as the outcome says, and is
  answered as it says.  Whether there is room is asked of the number of symbols, which is that of a
  set because the list holds each symbol once (`Occurs.subscribesWithin`).
* `carries_step`: with what a step does otherwise, which is nothing.
* `requests_have_one_outcome`: in every state that a relay can be in, also between the steps of
  others.
-/
namespace MarketRelay

/-! ## Sets of symbols in use -/

namespace Session

variable {c : Config} {s : Session}

theorem subscriptions_undergo (s : Session) (now : Instant) (e : Effect) :
    (s.undergo now e).subscriptions = s.subscriptions := by
  cases e with
  | send id m => rfl
  | authenticate id username =>
      show (if s.isListed then (s.authenticate username now).1 else s).subscriptions =
        s.subscriptions
      split
      · exact s.subscriptions_authenticate username now
      · rfl
  | close id reason => exact (s.sameClient_leave reason).subscriptions

theorem subscriptions_foldl_undergo (s : Session) (now : Instant) (effects : List Effect) :
    (effects.foldl (undergo now) s).subscriptions = s.subscriptions :=
  List.foldlRecOn (motive := fun t : Session => t.subscriptions = s.subscriptions) effects
    (undergo now) rfl fun t ht e _ => (t.subscriptions_undergo now e).trans ht

theorem subscriptions_shutDown (s : Session) : s.shutDown.subscriptions = s.subscriptions :=
  (sameClient_leave _ .serverShutdown).subscriptions

end Session

namespace Relay

variable {c : Config} {r r' : Relay} {id : SessionId}

theorem subscribesWithin_of_only {f : Session → Session}
    (hsessions : r'.registry.sessions = r.registry.sessions.map (Session.only id f))
    (hs : ∀ s ∈ r.registry.sessions, s.SubscribesWithin c)
    (hf : ∀ s ∈ r.registry.sessions, s.id = id → (f s).SubscribesWithin c) :
    ∀ s ∈ r'.registry.sessions, s.SubscribesWithin c := by
  intro t ht
  rw [hsessions] at ht
  obtain ⟨s, hmem, rfl⟩ := List.mem_map.mp ht
  by_cases hid : s.id = id
  · rw [Session.only_of_eq hid]
    exact hf s hmem hid
  · rw [Session.only_of_ne hid]
    exact hs s hmem

/-- The subscriptions of a session have changed by the time its message was handled: what is left to
do does not touch them. -/
theorem subscribesWithin_handle (h : r.registry.Numbered)
    (hs : ∀ s ∈ r.registry.sessions, s.SubscribesWithin r.config) (id : SessionId) (m : Message)
    (now : Instant) :
    ∀ s ∈ (r.handle id m now).1.registry.sessions, s.SubscribesWithin r.config := by
  unfold handle
  cases hfound : r.session? id with
  | none => exact hs
  | some s =>
      obtain ⟨hmem, rfl⟩ := (Registry.session?_eq_some_iff h).mp hfound
      obtain ⟨f, -, hsessions, heffects⟩ := handleMessage_spec hfound m now now
      refine subscribesWithin_of_only hsessions hs fun t ht hid => ?_
      obtain rfl := h.eq_of_id_eq ht hmem hid
      have hafter := (hs t ht).after (.message t.id m now now)
      rw [Session.after_message, Session.only_of_eq rfl, ← heffects] at hafter
      exact hafter.of_subscriptions_eq (Session.subscriptions_foldl_undergo (f t) now _).symm

theorem subscribesWithin_works (h : r.registry.Numbered)
    (hs : ∀ s ∈ r.registry.sessions, s.SubscribesWithin r.config) (hworks : Works r r') :
    ∀ s ∈ r'.registry.sessions, s.SubscribesWithin r.config := by
  cases hworks with
  | same => exact hs
  | count k hk => exact hs
  | letIn peer now henlist =>
      have hstep := subscribesWithin_step h hs (.enlist peer now)
      rw [step, henlist] at hstep
      exact hstep
  | handle id m now => exact subscribesWithin_handle (r := r.count .framesReceived) h hs id m now
  | apply id now e he =>
      exact subscribesWithin_of_only (sessions_applyOne_own h now he.session) hs fun s hmem _ =>
        (hs s hmem).of_subscriptions_eq (s.subscriptions_undergo now e)
  | takeLeave id =>
      exact subscribesWithin_of_only (sessions_shutDownSession h id) hs fun s hmem _ =>
        (hs s hmem).of_subscriptions_eq s.subscriptions_shutDown
  | stop => exact subscribesWithin_step h hs .stop
  | drain id => exact subscribesWithin_step h hs (.drain id)
  | sweep l now clock => exact subscribesWithin_step h hs (.sweep l now clock)
  | publish e elapsed => exact subscribesWithin_step h hs (.publish e elapsed)

theorem Occurs.subscribesWithin (h : Occurs c r) :
    ∀ s ∈ r.registry.sessions, s.SubscribesWithin c := by
  cases h with
  | reachable h =>
      induction h with
      | start => exact fun _ hs => absurd hs List.not_mem_nil
      | step h st ih =>
          rw [← h.config_eq] at ih ⊢
          exact subscribesWithin_step h.orderly.numbered ih st
      | count _ k ih => exact ih
  | atWork steps =>
      refine (foldl_induction (P := fun s : Service => s.Sound c ∧
        ∀ t ∈ s.relay.registry.sessions, t.SubscribesWithin c) ?_ ?_ steps).2
      · rintro s st ⟨hsound, hs⟩
        refine ⟨hsound.step st, ?_⟩
        have hworks := Service.works_step hsound.answers st
        rw [← hsound.config] at hs ⊢
        exact subscribesWithin_works hsound.chronicled.numbered hs hworks
      · exact ⟨Service.sound_ofConfig c, fun _ hs => absurd hs List.not_mem_nil⟩

def meant (r : Relay) (request : MarketDataRequest) : Option SymbolId :=
  r.symbols.resolve request.symbolId request.symbol request.exchange

end Relay

/-! ## Outcomes -/

inductive RequestOutcome where
  | refused (text : String)
  | subscribed (symbol : SymbolId)
  | unsubscribed (symbol : SymbolId)
  | shown (symbol : SymbolId)
deriving DecidableEq, Repr

namespace RequestOutcome

/-- The message that the client is sent, if there is one.  A refusal goes by the number that the
request carried, whatever the request meant. -/
def answer (r : Relay) (request : MarketDataRequest) : RequestOutcome → Option Message
  | .refused text => some (.marketDataReject ⟨request.symbolId, text⟩)
  | .subscribed symbol => some (.marketDataSnapshot (r.snapshots.get symbol))
  | .unsubscribed _ => none
  | .shown symbol => some (.marketDataSnapshot (r.snapshots.get symbol))

def holds (held : Finset SymbolId) : RequestOutcome → Finset SymbolId
  | .refused _ => held
  | .subscribed symbol => insert symbol held
  | .unsubscribed symbol => held.erase symbol
  | .shown _ => held

end RequestOutcome

namespace Session

variable {r : Relay} {s : Session} {request : MarketDataRequest} {o : RequestOutcome}
  {symbol : SymbolId}

def held (s : Session) : Finset SymbolId := s.subscriptions.toFinset

/-- The case that a request of the session is. -/
inductive CallsFor (r : Relay) (request : MarketDataRequest) (s : Session) : RequestOutcome → Prop
  | unknown (hmeant : r.meant request = none) :
      CallsFor r request s (.refused s!"unknown symbol {Relay.requestedName request}")
  /-- Who holds a symbol may ask for it again, also where there is no room for another. -/
  | noRoom {symbol : SymbolId} (hmeant : r.meant request = some symbol)
      (haction : request.action = .subscribe) (hnew : symbol ∉ s.held)
      (hfull : r.config.maxSubscriptionsPerSession ≤ s.held.card) :
      CallsFor r request s
        (.refused s!"subscription limit of {r.config.maxSubscriptionsPerSession} reached")
  | subscribe {symbol : SymbolId} (hmeant : r.meant request = some symbol)
      (haction : request.action = .subscribe)
      (hroom : symbol ∈ s.held ∨ s.held.card < r.config.maxSubscriptionsPerSession) :
      CallsFor r request s (.subscribed symbol)
  | unsubscribe {symbol : SymbolId} (hmeant : r.meant request = some symbol)
      (haction : request.action = .unsubscribe) : CallsFor r request s (.unsubscribed symbol)
  | snapshot {symbol : SymbolId} (hmeant : r.meant request = some symbol)
      (haction : request.action = .snapshot) : CallsFor r request s (.shown symbol)

/-- The outcome of a request, computed. -/
def outcome (r : Relay) (request : MarketDataRequest) (s : Session) : RequestOutcome :=
  match r.meant request with
  | none => .refused s!"unknown symbol {Relay.requestedName request}"
  | some symbol =>
    match request.action with
    | .subscribe =>
      if symbol ∈ s.held ∨ s.held.card < r.config.maxSubscriptionsPerSession then
        .subscribed symbol
      else .refused s!"subscription limit of {r.config.maxSubscriptionsPerSession} reached"
    | .unsubscribe => .unsubscribed symbol
    | .snapshot => .shown symbol

/-- Every request is one of the cases, and of one outcome only. -/
theorem callsFor_iff : s.CallsFor r request o ↔ o = s.outcome r request := by
  constructor
  · intro h
    cases h with
    | unknown hmeant => rw [outcome, hmeant]
    | noRoom hmeant haction hnew hfull =>
        simp only [outcome, hmeant, haction]
        exact (if_neg (not_or.mpr ⟨hnew, Nat.not_lt.mpr hfull⟩)).symm
    | subscribe hmeant haction hroom =>
        simp only [outcome, hmeant, haction]
        exact (if_pos hroom).symm
    | unsubscribe hmeant haction => simp only [outcome, hmeant, haction]
    | snapshot hmeant haction => simp only [outcome, hmeant, haction]
  · rintro rfl
    unfold outcome
    cases hmeant : r.meant request with
    | none => exact .unknown hmeant
    | some symbol =>
        cases haction : request.action with
        | subscribe =>
            by_cases hroom : symbol ∈ s.held ∨ s.held.card < r.config.maxSubscriptionsPerSession
            · simp only [if_pos hroom]
              exact .subscribe hmeant haction hroom
            · simp only [if_neg hroom]
              obtain ⟨hnew, hfull⟩ := not_or.mp hroom
              exact .noRoom hmeant haction hnew (Nat.not_lt.mp hfull)
        | unsubscribe => exact .unsubscribe hmeant haction
        | snapshot => exact .snapshot hmeant haction

theorem maySubscribe_iff (h : s.subscriptions.Nodup) :
    r.maySubscribe s symbol = true ↔
      symbol ∈ s.held ∨ s.held.card < r.config.maxSubscriptionsPerSession := by
  rw [Relay.maySubscribe, Bool.or_eq_true, decide_eq_true_eq, held, List.mem_toFinset,
    List.toFinset_card_of_nodup h, isSubscribed, List.contains_iff_mem]

/-- The session after the outcome of a request, but for the answer. -/
def heeding (s : Session) : RequestOutcome → Session
  | .refused _ => s
  | .subscribed symbol => (s.subscribe symbol).1
  | .unsubscribed symbol => (s.unsubscribe symbol).1
  | .shown _ => s

/-- A request changes the session as the outcome says, and is answered as it says. -/
theorem CallsFor.requested_and_reply (h : s.CallsFor r request o) (hnodup : s.subscriptions.Nodup) :
    s.requested r request = s.heeding o ∧ s.requestReply r request = o.answer r request := by
  unfold requested requestReply
  rw [← Relay.meant]
  cases h with
  | unknown hmeant =>
      rw [hmeant]
      exact ⟨rfl, rfl⟩
  | noRoom hmeant haction hnew hfull =>
      have hnot : ¬ r.maySubscribe s _ = true := fun hmay =>
        (maySubscribe_iff hnodup).mp hmay |>.elim hnew (Nat.not_lt.mpr hfull)
      rw [hmeant, haction]
      exact ⟨if_neg hnot, if_neg hnot⟩
  | subscribe hmeant haction hroom =>
      have hmay := (maySubscribe_iff hnodup).mpr hroom
      rw [hmeant, haction]
      exact ⟨if_pos hmay, if_pos hmay⟩
  | unsubscribe hmeant haction =>
      rw [hmeant, haction]
      exact ⟨rfl, rfl⟩
  | snapshot hmeant haction =>
      rw [hmeant, haction]
      exact ⟨rfl, rfl⟩

theorem held_heeding (s : Session) (o : RequestOutcome) :
    (s.heeding o).held = o.holds s.held := by
  cases o with
  | subscribed symbol =>
      ext x
      rw [RequestOutcome.holds, Finset.mem_insert, held, held, List.mem_toFinset,
        List.mem_toFinset]
      exact SymbolSet.mem_insert
  | unsubscribed symbol =>
      ext x
      rw [RequestOutcome.holds, Finset.mem_erase, held, held, List.mem_toFinset,
        List.mem_toFinset]
      exact SymbolSet.mem_erase
  | _ => rfl

theorem subscriptions_heeding (h : s.subscriptions.Pairwise (· < ·)) (o : RequestOutcome)
    (hsame : (s.heeding o).held = s.held) : (s.heeding o).subscriptions = s.subscriptions := by
  rw [held_heeding] at hsame
  cases o with
  | subscribed symbol =>
      have hmem : symbol ∈ s.held := Finset.insert_eq_self.mp hsame
      exact SymbolSet.insert_of_mem h (List.mem_toFinset.mp hmem)
  | unsubscribed symbol =>
      have hnot : symbol ∉ s.subscriptions := fun hmem =>
        Finset.erase_eq_self.mp hsame (List.mem_toFinset.mpr hmem)
      refine List.filter_eq_self.mpr fun x hx => ?_
      rw [bne_iff_ne]
      rintro rfl
      exact hnot hx
  | _ => rfl

theorem pushMessage_heeding (s : Session) (o : RequestOutcome) (m : Option Message) :
    (s.heeding o).pushMessage m =
      { s with
        subscriptions := (s.heeding o).subscriptions
        queue := (s.pushMessage m).queue } := by
  cases o <;> cases m <;> rfl

theorem gets_heeding (s : Session) (o : RequestOutcome) (m : Option Message) :
    s.Gets m ((s.heeding o).pushMessage m) := by
  refine ⟨s.heeding o, none, rfl, Or.inl ?_⟩
  cases o <;> rfl

theorem id_answered (r : Relay) (m : Message) (handledAt appliedAt : Instant) (s : Session) :
    (s.answered r m handledAt appliedAt).id = s.id := by
  have hafter := s.id_after r (.message s.id m handledAt appliedAt)
  rwa [after_message, only_of_eq rfl] at hafter

end Session

namespace Relay

variable {c : Config} {r : Relay} {s : Session} {request : MarketDataRequest} {o : RequestOutcome}

/-- `r'` is `r` after a request of a session had its outcome. -/
structure Carries (r : Relay) (s : Session) (request : MarketDataRequest) (o : RequestOutcome)
    (r' : Relay) : Prop where
  /-- Nothing of the session changes but what it subscribes to and what waits in its queue, which is
  the answer more if there is one. -/
  session : ∃ t, r'.session? s.id = some t ∧ t.held = o.holds s.held ∧
    (t.held = s.held → t.subscriptions = s.subscriptions) ∧
    OutboundQueue.newFrames s.queue t.queue = ((o.answer r request).map Message.encode).toList ∧
    t = { s with
      subscriptions := t.subscriptions
      queue := (s.pushMessage (o.answer r request)).queue }
  others : ∀ id, id ≠ s.id → r'.session? id = r.session? id
  snapshots : r'.snapshots = r.snapshots
  config : r'.config = r.config
  events : r'.registry.events = r.registry.events

theorem exists_effects_request (hs : r.session? s.id = some s) (hauth : s.isAuthenticated = true)
    (request : MarketDataRequest) (now : Instant) :
    ∃ sent : Option Message,
      (r.handle s.id (.marketDataRequest request) now).2 =
        (sent.map (Effect.send s.id)).toList := by
  refine ⟨if (s.acknowledged r (.marketDataRequest request)).isSome then none
    else s.requestReply r request, ?_⟩
  rw [handle, hs]
  simp only [effects_handleMessage, Session.granted, Session.endingBy, Session.reply, hauth,
    if_true, Option.map_none, Option.toList_none, List.nil_append, List.append_nil]

theorem snd_apply_request (hs : r.session? s.id = some s) (hauth : s.isAuthenticated = true)
    (request : MarketDataRequest) (handledAt appliedAt : Instant) :
    let handled := r.handle s.id (.marketDataRequest request) handledAt
    (handled.1.apply s.id appliedAt handled.2).2 = false := by
  intro handled
  obtain ⟨sent, hsent⟩ := exists_effects_request hs hauth request handledAt
  rw [hsent]
  cases sent <;> rfl

theorem events_request (hs : r.session? s.id = some s) (hauth : s.isAuthenticated = true)
    (request : MarketDataRequest) (handledAt appliedAt : Instant) :
    (r.step (.message s.id (.marketDataRequest request) handledAt appliedAt)).registry.events =
      r.registry.events := by
  have hhandled := events_handle r s.id (.marketDataRequest request) handledAt
  obtain ⟨sent, hsent⟩ := exists_effects_request hs hauth request handledAt
  show ((r.handle s.id (.marketDataRequest request) handledAt).1.apply s.id appliedAt
    (r.handle s.id (.marketDataRequest request) handledAt).2).1.registry.events = r.registry.events
  rw [hsent]
  cases sent with
  | none => exact hhandled
  | some m => exact (events_send _ s.id s.id m).trans hhandled

theorem answered_request (r : Relay) (hauth : s.isAuthenticated = true)
    (request : MarketDataRequest) (handledAt appliedAt : Instant) :
    s.answered r (.marketDataRequest request) handledAt appliedAt =
      (s.requested r request).pushMessage (s.requestReply r request) := by
  simp only [Session.answered, Session.noted, Session.reply, Session.endingBy, hauth, if_true,
    Session.leaveFor]

theorem carries_step {required : Bool} {past : List SessionEvent}
    (h : r.registry.Chronicled required past) (hs : r.session? s.id = some s)
    (hlisted : s.isListed = true) (hauth : s.isAuthenticated = true)
    (hordered : s.subscriptions.Pairwise (· < ·)) (hcalls : s.CallsFor r request o)
    (handledAt appliedAt : Instant) :
    r.Carries s request o
      (r.step (.message s.id (.marketDataRequest request) handledAt appliedAt)) := by
  have hsettled := h.settled_of_session? hs
  have hopen : s.queue.isClosed = false := hsettled.queue_isOpen hlisted
  obtain ⟨hrequested, hreply⟩ := hcalls.requested_and_reply (hordered.imp UInt32.ne_of_lt)
  have hanswered := answered_request r hauth request handledAt appliedAt
  rw [hrequested, hreply] at hanswered
  have hsessions :=
    @sessions_message r s.id h.numbered (.marketDataRequest request) handledAt appliedAt
  have hid := Session.id_answered r (.marketDataRequest request) handledAt appliedAt
  have hsubscriptions := ((s.heeding o).sameClient_pushMessage (o.answer r request)).subscriptions
  have hheld : ((s.heeding o).pushMessage (o.answer r request)).held = o.holds s.held :=
    (congrArg List.toFinset hsubscriptions).trans (s.held_heeding o)
  constructor
  case session =>
    have hsession := session?_of_only hsessions hid hs
    rw [hanswered] at hsession
    refine ⟨_, hsession, hheld, ?_, ?_, ?_⟩
    · intro hsame
      rw [hheld, ← s.held_heeding o] at hsame
      exact hsubscriptions.trans (Session.subscriptions_heeding hordered o hsame)
    · rw [(s.gets_heeding o _).newFrames, hopen]
      rfl
    · rw [hsubscriptions]
      exact s.pushMessage_heeding o (o.answer r request)
  case others =>
    intro id hne
    exact session?_of_only_of_ne hsessions hid hne
  case snapshots =>
    exact snapshots_step r (.message s.id (.marketDataRequest request) handledAt appliedAt)
  case config => exact config_step r _
  case events => exact events_request hs hauth request handledAt appliedAt

/-- **One outcome for every request.**  Wherever a session that has logged on is listed, its request
for market data is exactly one of the cases, and what becomes of the session is what that case calls
for: a refusal changes nothing but its queue.  No request ends a session or touches another. -/
theorem requests_have_one_outcome (h : Occurs c r) :
    ∀ s ∈ r.registry.listed, s.auth = .authenticated → ∀ (request : MarketDataRequest)
      (handledAt appliedAt : Instant),
      let handled := r.handle s.id (.marketDataRequest request) handledAt
      let done := handled.1.apply s.id appliedAt handled.2
      done.2 = false ∧ ∃! o, s.CallsFor r request o ∧ r.Carries s request o done.1 := by
  intro s hs hauth request handledAt appliedAt handled done
  have hchronicled := h.chronicled
  obtain ⟨hmem, hlisted⟩ := List.mem_filter.mp hs
  have hauth : s.isAuthenticated = true := beq_iff_eq.mpr hauth
  have hsession := (Registry.session?_eq_some_iff hchronicled.numbered).mpr ⟨hmem, rfl⟩
  have hordered := (h.subscribesWithin s hmem).ordered
  have hcalls : s.CallsFor r request (s.outcome r request) := Session.callsFor_iff.mpr rfl
  refine ⟨snd_apply_request hsession hauth request handledAt appliedAt, s.outcome r request, ?_, ?_⟩
  · exact ⟨hcalls,
      carries_step hchronicled hsession hlisted hauth hordered hcalls handledAt appliedAt⟩
  · rintro o ⟨hcalls', -⟩
    exact Session.callsFor_iff.mp hcalls'

/-- A client that may hold one symbol, and has got the snapshot of it, which fills its queue, asks
for another: the refusal takes the place of the snapshot and goes by the number of the request.  The
symbol that it holds it may ask for again, under whatever number. -/
theorem requests_have_one_outcome_no_room :
    let c : Config := { maxSubscriptionsPerSession := 1, outboundQueueCapacity := 1 }
    let ask (id : SymbolId) (name : String) : MarketDataRequest := ⟨.subscribe, id, name, ""⟩
    let steps : List ServerStep :=
      [.start some 0, .accept (.v4 127 0 0 1 50000) 0,
        .decode 1 (Message.marketDataRequest (ask 0 "ETH-USD")).encode 1]
    let r := ((Service.ofConfig c).run steps).relay
    let after (request : MarketDataRequest) : Relay :=
      let handled := r.handle 1 (.marketDataRequest request) 2
      (handled.1.apply 1 3 handled.2).1
    ∃ s ∈ r.registry.listed, s.auth = .authenticated ∧ s.held = {2} ∧ s.queue.isFull = true ∧
      (∃! o, s.CallsFor r (ask 9 "BTC-USD") o ∧
        r.Carries s (ask 9 "BTC-USD") o (after (ask 9 "BTC-USD"))) ∧
      s.outcome r (ask 9 "BTC-USD") = .refused "subscription limit of 1 reached" ∧
      ((after (ask 9 "BTC-USD")).queue 1).frames =
        [(Message.marketDataReject ⟨9, "subscription limit of 1 reached"⟩).encode] ∧
      s.outcome r (ask 1 "ETH-USD") = .subscribed 2 := by
  intro c ask steps r after
  have hfound : (r.registry.listed).any (fun s => s.id == 1 && (s.isAuthenticated &&
      (s.queue.isFull && (s.subscriptions == [2] &&
        (s.outcome r (ask 9 "BTC-USD") == .refused "subscription limit of 1 reached" &&
          s.outcome r (ask 1 "ETH-USD") == .subscribed 2))))) = true := by decide +kernel
  simp only [List.any_eq_true, Bool.and_eq_true, beq_iff_eq] at hfound
  obtain ⟨s, hs, hid, hauth, hfull, hsubscriptions, hrefused, hagain⟩ := hfound
  obtain ⟨-, hone⟩ := requests_have_one_outcome (c := c) (r := r) (.atWork steps) s hs
    (beq_iff_eq.mp hauth) (ask 9 "BTC-USD") 2 3
  rw [hid] at hone
  refine ⟨s, hs, beq_iff_eq.mp hauth, ?_, hfull, hone, hrefused, by decide +kernel, hagain⟩
  rw [Session.held, hsubscriptions]
  rfl

end Relay
end MarketRelay
