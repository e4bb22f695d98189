import MarketRelay.Proofs.Metrics.Counter
import MarketRelay.Proofs.Relay.Invariant
import MarketRelay.Proofs.Wire.RoundTrip
import Mathlib.Data.List.Infix

/-!
# Who gets the events of a symbol

A trade or a quote goes to the sessions that are listed, have logged on and subscribe to its symbol
when it is published, and to nobody else.

* `isUpdateOf_pushed`: nothing else that a session is sent looks like a trade or a quote.  Messages
  are told apart after they went through the codec, which is all that a client sees of them.
* `updates_pushed`: so what a step pushes of a symbol on the queue of a session is what it publishes
  of it, if the session is such a subscriber.
* `updatesOf_accepted`: and what the queue took of a symbol in a run is what was published of it
  while the session was one, each event once, in the order of publication, by induction on the
  steps.  Sessions that are subscribers at the same times are told the same (`publishedTo_congr`).
* `published_publish`: what one publication reports, counts and changes.  Its report is exact
  because the queue of a listed session is open, so that a full one evicts a frame.

`updates_accepted_eq_published` puts them together.
-/
namespace MarketRelay

/-! ## Updates -/

/-- Whether a message tells a trade or a quote of a symbol. -/
def Message.isUpdateOf (symbol : SymbolId) : Message → Bool
  | .marketDataUpdateTrade m => m.symbolId == symbol
  | .marketDataUpdateBidAsk m => m.symbolId == symbol
  | _ => false

def Message.isAnswer : Message → Bool
  | .logonResponse _ => true
  | .marketDataReject _ => true
  | .marketDataSnapshot _ => true
  | _ => false

def updatesOf (symbol : SymbolId) (frames : List (List UInt8)) : List (List UInt8) :=
  frames.filter fun frame =>
    match Message.decode defaultFrameLimit frame with
    | .ok m => m.isUpdateOf symbol
    | .error _ => false

/-- What a frame tells is what its message tells, if cut texts do not matter for it. -/
theorem filter_decode_map_encode {p : Message → Bool} (hp : ∀ m : Message, p m.norm = p m)
    (ms : List Message) :
    ((ms.map Message.encode).filter fun frame =>
        match Message.decode defaultFrameLimit frame with
        | .ok m => p m
        | .error _ => false) = (ms.filter p).map Message.encode := by
  rw [List.filter_map]
  refine congrArg (List.map Message.encode) (List.filter_congr fun m _ => ?_)
  simp only [Function.comp, Message.decode_encode m.frameSize_le_defaultFrameLimit, hp]

theorem Message.isUpdateOf_norm (symbol : SymbolId) (m : Message) :
    m.norm.isUpdateOf symbol = m.isUpdateOf symbol := by
  cases m with
  | marketDataUpdateTrade m | marketDataUpdateBidAsk m => rfl
  -- both sides are false, which keeps the texts from being compared
  | _ => exact Eq.trans (b := false) rfl rfl

theorem MarketEvent.isUpdateOf_toMessage (symbol : SymbolId) (e : MarketEvent) :
    e.toMessage.isUpdateOf symbol = (e.symbolId == symbol) := by
  obtain ⟨id, o⟩ := e
  cases o <;> rfl

theorem updatesOf_map_encode (symbol : SymbolId) (ms : List Message) :
    updatesOf symbol (ms.map Message.encode) =
      (ms.filter (Message.isUpdateOf symbol)).map Message.encode :=
  filter_decode_map_encode (Message.isUpdateOf_norm symbol) ms

/-! ## Subscribers -/

/-- Whether the session is listed, has logged on and subscribes to a symbol. -/
def Session.isSubscriber (symbol : SymbolId) (s : Session) : Bool :=
  s.isListed && s.isAuthenticated && s.isSubscribed symbol

/-- Whether there is a session with a number that is listed, has logged on and subscribes to a
symbol. -/
def Relay.isSubscriber (r : Relay) (id : SessionId) (symbol : SymbolId) : Bool :=
  (r.session? id).any (Session.isSubscriber symbol)

theorem Relay.reaches_eq_isSubscriber (symbol : SymbolId) (s : Session) :
    Relay.reaches symbol s = s.isSubscriber symbol :=
  (Bool.and_assoc _ _ _).symm

def Step.eventsOf (symbol : SymbolId) : Step → List MarketEvent
  | .publish e _ => if e.symbolId = symbol then [e] else []
  | _ => []

namespace Session

variable {s : Session} {symbol : SymbolId}

theorem Orderly.isOpen_of_isSubscriber (h : s.Orderly) (hs : s.isSubscriber symbol = true) :
    s.queue.isClosed = false := by
  simp only [isSubscriber, Bool.and_eq_true] at hs
  exact h.isOpen hs.1.1

theorem isAnswer_reply {r : Relay} {m reply : Message} (h : s.reply r m = some reply) :
    reply.isAnswer = true := by
  cases m with
  | logonRequest request =>
      simp only [Session.reply] at h
      split at h
      · cases h; rfl
      · cases h; rfl
  | marketDataRequest request =>
      simp only [Session.reply, requestReply] at h
      split at h
      · split at h
        · cases h; rfl
        · split at h
          · split at h
            · cases h; rfl
            · cases h; rfl
          · cases h
          · cases h; rfl
      · cases h
  | _ => cases h

theorem isUpdateOf_reply {r : Relay} {m reply : Message} (h : s.reply r m = some reply) :
    reply.isUpdateOf symbol = false := by
  have hanswer := isAnswer_reply h
  cases reply with
  | logonResponse m | marketDataReject m | marketDataSnapshot m => rfl
  | _ => cases hanswer

theorem isUpdateOf_pushed {r : Relay} {st : Step} {m : Message}
    (hst : ∀ e elapsed, st ≠ .publish e elapsed) (h : s.pushed r st = some m) :
    m.isUpdateOf symbol = false := by
  cases st with
  | publish e elapsed => exact absurd rfl (hst e elapsed)
  | message id m' handledAt appliedAt =>
      simp only [pushed] at h
      split at h
      · exact isUpdateOf_reply h
      · cases h
  | sweep l now clock =>
      simp only [pushed] at h
      split at h
      · cases h; rfl
      · cases h
  | stop =>
      simp only [pushed] at h
      split at h
      · cases h; rfl
      · cases h
  | _ => cases h

/-- What a step pushes of a symbol on the queue of a session is what it publishes of it, if the
session is a subscriber. -/
theorem updates_pushed (r : Relay) (st : Step) (s : Session) (symbol : SymbolId) :
    (s.pushed r st).toList.filter (Message.isUpdateOf symbol) =
      (if s.isSubscriber symbol then st.eventsOf symbol else []).map MarketEvent.toMessage := by
  cases st with
  | publish e elapsed =>
      simp only [pushed, Relay.reaches_eq_isSubscriber, Step.eventsOf]
      by_cases hsymbol : e.symbolId = symbol
      · subst hsymbol
        cases s.isSubscriber e.symbolId with
        | true => simp [MarketEvent.isUpdateOf_toMessage]
        | false => simp
      · rw [if_neg hsymbol, ite_self, List.map_nil]
        cases s.isSubscriber e.symbolId with
        | true => simpa [MarketEvent.isUpdateOf_toMessage] using hsymbol
        | false => simp
  | _ =>
      rw [Step.eventsOf, ite_self, List.map_nil, List.filter_eq_nil_iff]
      · intro m hm
        have hnot : m.isUpdateOf symbol = false := by
          refine isUpdateOf_pushed ?_ (Option.mem_toList.mp hm)
          intro _ _ h
          cases h
        rw [hnot]
        exact Bool.false_ne_true
      · intro _ _ h
        cases h

end Session

/-! ## Runs -/

namespace Relay

variable {r : Relay} {id : SessionId} {symbol : SymbolId}

/-- The events of a symbol that are published in a run while a session is a subscriber of it, in
order. -/
def publishedTo (id : SessionId) (symbol : SymbolId) : Relay → List Step → List MarketEvent
  | _, [] => []
  | r, st :: steps =>
    (if r.isSubscriber id symbol then st.eventsOf symbol else []) ++
      publishedTo id symbol (r.step st) steps

theorem isSubscriber_of_some {s : Session} (hs : r.session? id = some s) :
    r.isSubscriber id symbol = s.isSubscriber symbol := by
  rw [isSubscriber, hs]
  rfl

theorem updatesOf_newFrames_step (h : r.Orderly) (id : SessionId) (symbol : SymbolId)
    (st : Step) :
    updatesOf symbol (OutboundQueue.newFrames (r.queue id) ((r.step st).queue id)) =
      (if r.isSubscriber id symbol then st.eventsOf symbol else []).map
        fun e => e.toMessage.encode := by
  cases hs : r.session? id with
  | none =>
      rw [newFrames_step_of_none h.numbered hs, isSubscriber, hs]
      rfl
  | some s =>
      rw [newFrames_step_of_some h.numbered hs, isSubscriber_of_some hs]
      cases hclosed : s.queue.isClosed with
      | true =>
          have hnot : s.isSubscriber symbol = false := by
            cases hsubscriber : s.isSubscriber symbol with
            | false => rfl
            | true =>
                have hopen := (h.session hs).isOpen_of_isSubscriber hsubscriber
                cases hclosed.symm.trans hopen
          rw [hnot]
          rfl
      | false =>
          have hframes : ((s.pushed r st).map Message.encode).toList =
              (s.pushed r st).toList.map Message.encode := by
            cases s.pushed r st <;> rfl
          simp only [Bool.false_eq_true, if_false]
          rw [hframes, updatesOf_map_encode, Session.updates_pushed, List.map_map]
          rfl

theorem updatesOf_accepted (h : r.Orderly) (id : SessionId) (symbol : SymbolId)
    (steps : List Step) :
    updatesOf symbol (accepted id r steps) =
      (publishedTo id symbol r steps).map fun e => e.toMessage.encode := by
  induction steps generalizing r with
  | nil => rfl
  | cons st steps ih =>
      have hhead := updatesOf_newFrames_step h id symbol st
      have htail := ih (h.step st)
      rw [updatesOf] at hhead htail ⊢
      rw [accepted, publishedTo, List.filter_append, hhead, htail, List.map_append]

theorem publishedTo_congr {id' : SessionId} {steps : List Step}
    (h : ∀ p, p <+: steps → (r.run p).isSubscriber id symbol = (r.run p).isSubscriber id' symbol) :
    publishedTo id symbol r steps = publishedTo id' symbol r steps := by
  induction steps generalizing r with
  | nil => rfl
  | cons st steps ih =>
      have hnow : r.isSubscriber id symbol = r.isSubscriber id' symbol := h [] List.nil_prefix
      have hlater := ih fun p hp => h (st :: p) (List.prefix_cons_inj st |>.mpr hp)
      rw [publishedTo, publishedTo, hnow, hlater]

/-! ## One event -/

theorem publishReport_eq (h : r.Orderly) (symbol : SymbolId) :
    r.publishReport symbol =
      ⟨r.registry.sessions.countP (Session.isSubscriber symbol),
        r.registry.sessions.countP fun s => s.isSubscriber symbol && s.queue.isFull⟩ := by
  have hopen : ∀ s ∈ r.registry.sessions, s.isSubscriber symbol = true →
      s.queue.isClosed = false := fun s hs => (h.sessions s hs).isOpen_of_isSubscriber
  have hreaches : reaches symbol = Session.isSubscriber symbol :=
    funext (reaches_eq_isSubscriber symbol)
  simp only [publishReport, hreaches, List.countP_filter, PublishReport.mk.injEq]
  constructor
  · refine List.countP_congr fun s hs => ?_
    cases hsubscriber : s.isSubscriber symbol with
    | true =>
        simp only [OutboundQueue.outcome, hopen s hs hsubscriber]
        cases s.queue.isFull <;> simp [PushOutcome.isAccepted]
    | false => simp
  · refine List.countP_congr fun s hs => ?_
    cases hsubscriber : s.isSubscriber symbol with
    | true =>
        simp only [OutboundQueue.outcome, hopen s hs hsubscriber]
        cases s.queue.isFull <;> simp
    | false => simp

/-- A session after an event was published: only the queue of a subscriber differs. -/
theorem session?_publish (h : r.registry.Numbered) {s : Session} (hs : r.session? id = some s)
    (e : MarketEvent) (elapsed : Nat) :
    (r.publish e elapsed).2.session? id =
      some (if s.isSubscriber e.symbolId then s.push e.toMessage.encode else s) := by
  have hafter := session?_step_of_some h hs (.publish e elapsed)
  rw [Session.after_publish, reaches_eq_isSubscriber] at hafter
  exact hafter

/-- What publishing an event does: what it reports and counts, and what sessions notice of it. -/
structure Published (r : Relay) (e : MarketEvent) (report : PublishReport) (r' : Relay) :
    Prop where
  recipients : report.recipients = r.registry.sessions.countP (Session.isSubscriber e.symbolId)
  dropped : report.dropped = r.registry.sessions.countP fun s =>
    s.isSubscriber e.symbolId && s.queue.isFull
  eventsPublished :
    r'.metrics.get .eventsPublished = (r.metrics.get .eventsPublished + 1) % UInt64.size
  messagesEnqueued : r'.metrics.get .messagesEnqueued =
    (r.metrics.get .messagesEnqueued + report.recipients) % UInt64.size
  messagesDropped : r'.metrics.get .messagesDropped =
    (r.metrics.get .messagesDropped + report.dropped) % UInt64.size
  ids : r'.registry.sessions.map (·.id) = r.registry.sessions.map (·.id)
  session : ∀ id s, r.session? id = some s → ∃ t, r'.session? id = some t ∧ s.SameClient t ∧
    t.closeReason = s.closeReason ∧ t.isListed = s.isListed ∧
    t.queue = if s.isSubscriber e.symbolId then s.queue.push e.toMessage.encode else s.queue

theorem published_publish (h : r.Orderly) (e : MarketEvent) (elapsed : Nat) :
    r.Published e (r.publish e elapsed).1 (r.publish e elapsed).2 where
  recipients := congrArg PublishReport.recipients (publishReport_eq h e.symbolId)
  dropped := congrArg PublishReport.dropped (publishReport_eq h e.symbolId)
  eventsPublished := Metrics.get_recordPublish _ _ _ _ .eventsPublished
  messagesEnqueued := Metrics.get_recordPublish _ _ _ _ .messagesEnqueued
  messagesDropped := Metrics.get_recordPublish _ _ _ _ .messagesDropped
  ids := by
    simp only [publish, List.map_map]
    refine List.map_congr_left fun s _ => ?_
    simp only [Function.comp]
    split <;> rfl
  session := by
    intro id s hs
    refine ⟨_, session?_publish h.numbered hs e elapsed, ?_⟩
    cases s.isSubscriber e.symbolId with
    | true => exact ⟨s.sameClient_pushMessage (some e.toMessage), rfl, rfl, rfl⟩
    | false => exact ⟨.refl s, rfl, rfl, rfl⟩

/-- In every run, the trades and quotes of a symbol that the queue of a session takes are the events
of the symbol that are published while the session is listed, has logged on and subscribes to it,
each once and in the order of publication; sessions that are such subscribers at the same times take
the same.  Every event is reported and counted as it goes out, and nobody else notices it. -/
theorem updates_accepted_eq_published (c : Config) (steps : List Step) :
    let r := Relay.ofConfig c
    let q := r.run steps
    (∀ id symbol, updatesOf symbol (accepted id r steps) =
        (publishedTo id symbol r steps).map fun e => e.toMessage.encode) ∧
      (∀ id id' symbol during,
        (∀ p, p <+: during →
          (q.run p).isSubscriber id symbol = (q.run p).isSubscriber id' symbol) →
        updatesOf symbol (accepted id q during) = updatesOf symbol (accepted id' q during)) ∧
      ∀ e elapsed, q.Published e (q.publish e elapsed).1 (q.publish e elapsed).2 := by
  intro r q
  have hr : r.Orderly := orderly_ofConfig c
  have hq : q.Orderly := hr.run steps
  refine ⟨fun id symbol => updatesOf_accepted hr id symbol steps, ?_,
    fun e elapsed => published_publish hq e elapsed⟩
  intro id id' symbol during hsame
  rw [updatesOf_accepted hq, updatesOf_accepted hq, publishedTo_congr hsame]

/-- Two clients that subscribe to a symbol, one of them to another symbol, too, and the other one
not drained: both take three events of their common symbol.  A fourth one goes to both and evicts a
frame. -/
theorem updates_accepted_eq_published_two :
    let r := Relay.ofConfig { outboundQueueCapacity := 3 }
    let ask (id : SessionId) (action : RequestAction) (name : String) : Step :=
      .message id (.marketDataRequest ⟨action, 0, name, ""⟩) 5 6
    let trade (symbol : SymbolId) (time : Int64) : MarketEvent :=
      ⟨symbol, .trade ⟨⟨0x4059000000000000⟩, ⟨0x3ff0000000000000⟩, .sell, time⟩⟩
    let quote : MarketEvent := ⟨1, .quote ⟨⟨1⟩, ⟨2⟩, ⟨3⟩, ⟨4⟩, 20⟩⟩
    let before := [.enlist (.v4 127 0 0 1 50000) 0, .enlist (.v4 127 0 0 1 50001) 0,
      ask 1 .subscribe "BTC-USD", ask 1 .subscribe "ETH-USD", .publish (trade 1 9) 0,
      ask 2 .subscribe "BTC-USD"]
    let during := [.publish (trade 1 10) 0, .drain 1, .publish quote 0, .publish (trade 2 11) 0,
      .publish (trade 1 12) 0, .drain 1]
    let q := r.run before
    (∀ p, p <+: during → (q.run p).isSubscriber 1 1 = (q.run p).isSubscriber 2 1) ∧
      updatesOf 1 (accepted 1 q during) = updatesOf 1 (accepted 2 q during) ∧
      updatesOf 1 (accepted 2 q during) =
        [trade 1 10, quote, trade 1 12].map (fun e => e.toMessage.encode) ∧
      ((q.run during).publish (trade 1 13) 0).1 = ⟨2, 1⟩ := by
  intro r ask trade quote before during q
  have hinits : ∀ p ∈ during.inits, (q.run p).isSubscriber 1 1 = (q.run p).isSubscriber 2 1 := by
    decide +kernel
  have hsame : ∀ p, p <+: during → (q.run p).isSubscriber 1 1 = (q.run p).isSubscriber 2 1 :=
    fun p hp => hinits p ((List.mem_inits p during).mpr hp)
  exact ⟨hsame, (updates_accepted_eq_published { outboundQueueCapacity := 3 } before).2.1 1 2 1
    during hsame, by decide +kernel, by decide +kernel⟩

end Relay
end MarketRelay
