import MarketRelay.Proofs.Relay.Run

/-!
# A step as one session sees it

A step does at most three things to a session: it changes what the session knows of its client
(`updated`), pushes at most one message on its queue (`pushed`) and makes it leave the list for at
most one reason (`ending`), in this order.  Besides the session itself they look only at the
settings of the relay and at its snapshots.  `Session.after` puts the three together; that it is
what the relay's own functions do is shown in the module `Steps`.

This is where an invariant of sessions starts: what a step does to one session is a function of that
session, without the folds and the lists by which the relay gets there.  And mostly it is one of the
three parts that matters.

What a part leaves alone is said with three relations.  `SameClient` is about what is known of the
client, `SameWay` about the queue and the list, `SameLogon` about the logon only.  Being sent
something and leaving the list keep the first; messages and looks keep the second, until something
is sent; and only a logon does not keep the third.
-/
namespace MarketRelay
namespace Session

/-! ## Leaving and being sent something -/

/-- The session after it left the list; one that left earlier stays as it is. -/
def leave (reason : CloseReason) (s : Session) : Session :=
  if s.isListed then { (s.markClosed reason).1 with isListed := false } else s

def leaveFor (s : Session) : Option CloseReason → Session
  | some reason => s.leave reason
  | none => s

def pushMessage (s : Session) : Option Message → Session
  | some m => s.push m.encode
  | none => s

/-! ## A message of the client -/

/-- What a request for market data of a session that has logged on is answered. -/
def requestReply (r : Relay) (request : MarketDataRequest) (s : Session) : Option Message :=
  match r.symbols.resolve request.symbolId request.symbol request.exchange with
  | none =>
    some (.marketDataReject
      ⟨request.symbolId, s!"unknown symbol {Relay.requestedName request}"⟩)
  | some symbol =>
    match request.action with
    | .subscribe =>
      if r.maySubscribe s symbol then some (r.snapshotMessage symbol)
      else
        let limit := r.config.maxSubscriptionsPerSession
        some (.marketDataReject ⟨request.symbolId, s!"subscription limit of {limit} reached"⟩)
    | .unsubscribe => none
    | .snapshot => some (r.snapshotMessage symbol)

/-- What a message of the client is answered. -/
def reply (r : Relay) (m : Message) (s : Session) : Option Message :=
  match m with
  | .logonRequest request =>
    if (AuthPolicy.ofConfig r.config).accepts request.password then
      some (r.logonResponse .success "logon successful")
    else some (r.logonResponse .rejected "invalid credentials")
  | .marketDataRequest request => if s.isAuthenticated then s.requestReply r request else none
  | _ => none

/-- The symbol that a message of the client subscribes the session to, which is acknowledged, also
where it did so before. -/
def acknowledged (r : Relay) (m : Message) (s : Session) : Option SymbolId :=
  match m with
  | .marketDataRequest request =>
    if s.isAuthenticated && request.action == .subscribe then
      (r.symbols.resolve request.symbolId request.symbol request.exchange).filter (r.maySubscribe s)
    else none
  | _ => none

theorem acknowledged_eq_some_iff {r : Relay} {m : Message} {s : Session} {symbol : SymbolId} :
    s.acknowledged r m = some symbol ↔
      ∃ request, m = .marketDataRequest request ∧ s.isAuthenticated = true ∧
        request.action = .subscribe ∧
        r.symbols.resolve request.symbolId request.symbol request.exchange = some symbol ∧
        r.maySubscribe s symbol = true := by
  cases m with
  | marketDataRequest request =>
      simp [acknowledged, Option.filter_eq_some_iff, and_assoc]
  | _ => simp [acknowledged]

theorem isSome_reply_of_acknowledged {r : Relay} {m : Message} {s : Session}
    (h : (s.acknowledged r m).isSome = true) :
    (s.reply r m).isSome = true := by
  obtain ⟨symbol, hsymbol⟩ := Option.isSome_iff_exists.mp h
  obtain ⟨request, rfl, hauth, haction, hresolve, hmay⟩ := acknowledged_eq_some_iff.mp hsymbol
  simp [reply, requestReply, hauth, haction, hresolve, hmay]

/-- The name under which a message of a client is granted a logon, if it is. -/
def granted (r : Relay) (m : Message) : Option String :=
  match m with
  | .logonRequest request =>
    if (AuthPolicy.ofConfig r.config).accepts request.password then some request.username else none
  | _ => none

/-- The session after a request for market data, had it logged on. -/
def requested (r : Relay) (request : MarketDataRequest) (s : Session) : Session :=
  match r.symbols.resolve request.symbolId request.symbol request.exchange with
  | none => s
  | some symbol =>
    match request.action with
    | .subscribe => if r.maySubscribe s symbol then (s.subscribe symbol).1 else s
    | .unsubscribe => (s.unsubscribe symbol).1
    | .snapshot => s

/-- What a message of the client changes in the session. -/
def noted (r : Relay) (m : Message) (handledAt appliedAt : Instant) (s : Session) : Session :=
  match m with
  | .logonRequest request =>
    if (AuthPolicy.ofConfig r.config).accepts request.password then
      if s.isListed then (s.authenticate request.username appliedAt).1 else s
    else s.reject
  | .heartbeat _ => s.recordHeartbeat handledAt
  | .marketDataRequest request => if s.isAuthenticated then s.requested r request else s
  | _ => s

/-- Why a message of the client ends the session, if it does. -/
def endingBy (r : Relay) (m : Message) (s : Session) : Option CloseReason :=
  match m with
  | .logonRequest request =>
    if (AuthPolicy.ofConfig r.config).accepts request.password then none
    else some .authenticationFailed
  | .heartbeat _ => none
  | .logoff _ => some .clientLogoff
  | .marketDataRequest _ =>
    if s.isAuthenticated then none
    else some (.protocolViolation "market data request before logon")
  | m => some (.protocolViolation s!"unexpected {m.type.name} from client")

/-! ## A look at signs of life -/

/-- Why a look at the session ends it, if it does. -/
def silence (l : Liveness) (now : Instant) (s : Session) : Option CloseReason :=
  match s.auth with
  | .authenticated =>
    if l.interval.double < now.since s.heartbeatReceivedAt then some .heartbeatTimeout else none
  | .unauthenticated =>
    if l.logonTimeout < now.since s.connectedAt then some .logonTimeout else none
  | .rejected => none

def isOwed (l : Liveness) (now : Instant) (s : Session) : Bool :=
  s.isAuthenticated && (s.silence l now).isNone && s.isHeartbeatDue now l.interval

/-! ## Any step -/

/-- What a step changes in the session before anything is sent. -/
def updated (r : Relay) (st : Step) (s : Session) : Session :=
  match st with
  | .message id m handledAt appliedAt =>
    if s.id = id then s.noted r m handledAt appliedAt else s
  | .sweep l now _ => if s.isListed && s.isOwed l now then s.markHeartbeatSent now else s
  | .drain id => if s.id = id then s.drain else s
  | _ => s

def pushed (r : Relay) (st : Step) (s : Session) : Option Message :=
  match st with
  | .message id m _ _ => if s.id = id then s.reply r m else none
  | .publish e _ => if Relay.reaches e.symbolId s then some e.toMessage else none
  | .sweep l now clock =>
    if s.isListed && s.isOwed l now then some (Relay.heartbeatFor s clock) else none
  | .stop => if s.isListed then some Server.farewell else none
  | _ => none

def ending (r : Relay) (st : Step) (s : Session) : Option CloseReason :=
  match st with
  | .message id m _ _ => if s.id = id then s.endingBy r m else none
  | .sweep l now _ => s.silence l now
  | .close id reason => if s.id = id then some reason else none
  | .stop => some .serverShutdown
  | _ => none

def after (r : Relay) (st : Step) (s : Session) : Session :=
  ((s.updated r st).pushMessage (s.pushed r st)).leaveFor (s.ending r st)

/-! ## What stays the same

Messages of the client and looks at it change what is known of the client and nothing of the way to
it; being sent something and leaving the list change the way and nothing of the client. -/

/-- Nothing that is known of the client differs. -/
structure SameClient (s t : Session) : Prop where
  id : t.id = s.id
  peer : t.peer = s.peer
  auth : t.auth = s.auth
  username : t.username = s.username
  subscriptions : t.subscriptions = s.subscriptions
  connectedAt : t.connectedAt = s.connectedAt
  heartbeatReceivedAt : t.heartbeatReceivedAt = s.heartbeatReceivedAt
  heartbeatSentAt : t.heartbeatSentAt = s.heartbeatSentAt

/-- Nothing of the way to the client differs. -/
structure SameWay (s t : Session) : Prop where
  id : t.id = s.id
  peer : t.peer = s.peer
  connectedAt : t.connectedAt = s.connectedAt
  queue : t.queue = s.queue
  closeReason : t.closeReason = s.closeReason
  isCancelled : t.isCancelled = s.isCancelled
  isListed : t.isListed = s.isListed

/-- The client got as far with its logon, under the same name. -/
structure SameLogon (s t : Session) : Prop where
  auth : t.auth = s.auth
  username : t.username = s.username

theorem SameClient.refl (s : Session) : SameClient s s := by constructor <;> rfl

theorem SameClient.trans {s t u : Session} (h : SameClient s t) (h' : SameClient t u) :
    SameClient s u where
  id := h'.id.trans h.id
  peer := h'.peer.trans h.peer
  auth := h'.auth.trans h.auth
  username := h'.username.trans h.username
  subscriptions := h'.subscriptions.trans h.subscriptions
  connectedAt := h'.connectedAt.trans h.connectedAt
  heartbeatReceivedAt := h'.heartbeatReceivedAt.trans h.heartbeatReceivedAt
  heartbeatSentAt := h'.heartbeatSentAt.trans h.heartbeatSentAt

theorem SameWay.refl (s : Session) : SameWay s s := by constructor <;> rfl

theorem SameLogon.refl (s : Session) : SameLogon s s := ⟨rfl, rfl⟩

theorem sameClient_pushMessage (s : Session) (m : Option Message) :
    SameClient s (s.pushMessage m) := by
  cases m with
  | none => exact .refl s
  | some m => constructor <;> rfl

theorem isListed_leave (s : Session) (reason : CloseReason) :
    (s.leave reason).isListed = false := by
  unfold leave
  split
  · rfl
  · rename_i hlisted
    exact Bool.eq_false_iff.mpr hlisted

theorem closeReason_leave {s : Session} (h : s.isListed = true) (reason : CloseReason) :
    (s.leave reason).closeReason = some (s.closeReason.getD reason) := by
  rw [leave, if_pos h, markClosed, isClosed]
  cases hreason : s.closeReason with
  | none => rfl
  | some reason' => exact hreason

theorem sameClient_leave (s : Session) (reason : CloseReason) :
    SameClient s (s.leave reason) := by
  unfold leave markClosed
  split
  · split
    · constructor <;> rfl
    · constructor <;> rfl
  · exact .refl s

theorem sameClient_leaveFor (s : Session) (reason : Option CloseReason) :
    SameClient s (s.leaveFor reason) := by
  cases reason with
  | none => exact .refl s
  | some reason => exact s.sameClient_leave reason

theorem sameClient_after (r : Relay) (st : Step) (s : Session) :
    SameClient (s.updated r st) (s.after r st) :=
  (sameClient_pushMessage _ _).trans (sameClient_leaveFor _ _)

theorem sameWay_authenticate (s : Session) (username : String) (now : Instant) :
    SameWay s (s.authenticate username now).1 := by
  unfold authenticate
  split
  · constructor <;> rfl
  · split
    · constructor <;> rfl
    · exact .refl s
  · exact .refl s

theorem sameWay_authenticate_of_listed (s : Session) (username : String) (now : Instant) :
    SameWay s (if s.isListed then (s.authenticate username now).1 else s) := by
  split
  · exact s.sameWay_authenticate username now
  · exact .refl s

theorem sameWay_requested (r : Relay) (request : MarketDataRequest) (s : Session) :
    SameWay s (s.requested r request) := by
  unfold requested
  split
  · exact .refl s
  · split
    · split
      · constructor <;> rfl
      · exact .refl s
    · constructor <;> rfl
    · exact .refl s

theorem sameLogon_requested (r : Relay) (request : MarketDataRequest) (s : Session) :
    SameLogon s (s.requested r request) := by
  unfold requested
  split
  · exact .refl s
  · split
    · split <;> exact ⟨rfl, rfl⟩
    · exact ⟨rfl, rfl⟩
    · exact .refl s

theorem sameWay_noted (r : Relay) (m : Message) (handledAt appliedAt : Instant) (s : Session) :
    SameWay s (s.noted r m handledAt appliedAt) := by
  cases m with
  | logonRequest request =>
      simp only [noted]
      split
      · exact s.sameWay_authenticate_of_listed request.username appliedAt
      · constructor <;> rfl
  | heartbeat m => constructor <;> rfl
  | marketDataRequest request =>
      simp only [noted]
      split
      · exact s.sameWay_requested r request
      · exact .refl s
  | _ => exact .refl s

/-- Only a drain changes the way to the client before anything is sent. -/
theorem sameWay_updated {r : Relay} {st : Step} {s : Session} (h : st ≠ .drain s.id) :
    SameWay s (s.updated r st) := by
  cases st with
  | message id m handledAt appliedAt =>
      simp only [updated]
      split
      · exact s.sameWay_noted r m handledAt appliedAt
      · exact .refl s
  | sweep l now clock =>
      simp only [updated]
      split
      · constructor <;> rfl
      · exact .refl s
  | drain id =>
      have hid : s.id ≠ id := fun hid => h (congrArg Step.drain hid.symm)
      simp only [updated, if_neg hid]
      exact .refl s
  | _ => exact .refl s

theorem updated_drain (r : Relay) (s : Session) : s.updated r (.drain s.id) = s.drain := by
  simp only [updated, if_true]

@[simp] theorem id_updated (r : Relay) (st : Step) (s : Session) : (s.updated r st).id = s.id := by
  by_cases hdrain : st = .drain s.id
  · subst hdrain
    rw [updated_drain]
    rfl
  · exact (sameWay_updated hdrain).id

@[simp] theorem isListed_updated (r : Relay) (st : Step) (s : Session) :
    (s.updated r st).isListed = s.isListed := by
  by_cases hdrain : st = .drain s.id
  · subst hdrain
    rw [updated_drain]
    rfl
  · exact (sameWay_updated hdrain).isListed

@[simp] theorem id_after (r : Relay) (st : Step) (s : Session) : (s.after r st).id = s.id :=
  (s.sameClient_after r st).id.trans (s.id_updated r st)

end Session
end MarketRelay
