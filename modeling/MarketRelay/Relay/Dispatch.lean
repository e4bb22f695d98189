import MarketRelay.Relay.Publish

/-!
# Messages of clients

What the relay does with a message from a client, in two stages.

* `handle` looks at the message.  What concerns the session alone happens at once: a sign of life is
  noted, a subscription is made or dropped, a refused logon is recorded.  All that touches the
  registry or a queue is handed back as a list of effects.  The one exception is the answer to a
  subscription, which `subscribe` queues itself, so that no market data comes before it.
* `apply` carries out the effects, in order, at the wish of the session whose message it was.

An effect names the session that it is about.  Whoever applies effects holds on to the session whose
message caused them, so what is sent to that one is queued whether it is still listed or not; what
is sent to another goes through the registry, and is dropped where the other is not listed.  The
answer of `apply` is whether the effects closed the session that caused them: only that one's reader
is to end.

Between the two stages other clients may be served.  Timeouts are looked at in neither.
-/
namespace MarketRelay

inductive Effect where
  | send (session : SessionId) (m : Message)
  | authenticate (session : SessionId) (username : String)
  /-- Close once all that is queued has been sent. -/
  | close (session : SessionId) (reason : CloseReason)
deriving DecidableEq, Repr

namespace Effect

/-- The session that an effect is about. -/
def session : Effect → SessionId
  | .send id _ => id
  | .authenticate id _ => id
  | .close id _ => id

def closes (id : SessionId) : Effect → Bool
  | .close id' _ => id' == id
  | _ => false

end Effect

/-! ## Logon policy -/

/-- Whether a logon is needed, and what it must carry. -/
structure AuthPolicy where
  isRequired : Bool
  password : String
deriving DecidableEq, Repr

namespace AuthPolicy

/-- The policy of a configuration. -/
def ofConfig (c : Config) : AuthPolicy := ⟨c.requireAuthentication, c.password⟩

/-- Whether a logon with this password is accepted: where none is needed, any is. -/
def accepts (p : AuthPolicy) (password : String) : Bool := !p.isRequired || password == p.password

end AuthPolicy

namespace Relay

/-! ## Handling -/

def logonResponse (r : Relay) (status : LogonStatus) (text : String) : Message :=
  .logonResponse ⟨protocolVersion, status, text, r.config.serverName, true⟩

/-- A logon: accepted or refused, it is answered; refused, it also ends the session. -/
def handleLogon (r : Relay) (id : SessionId) (request : LogonRequest) : Relay × List Effect :=
  if (AuthPolicy.ofConfig r.config).accepts request.password then
    (r, [.authenticate id request.username,
      .send id (r.logonResponse .success "logon successful")])
  else
    (r.modify id (·.reject),
      [.send id (r.logonResponse .rejected "invalid credentials"),
        .close id .authenticationFailed])

/-- A refusal of a market-data request, under the number that it carried. -/
def refusal (id : SessionId) (request : MarketDataRequest) (text : String) : Effect :=
  .send id (.marketDataReject ⟨request.symbolId, text⟩)

/-- How a request called its symbol. -/
def requestedName (request : MarketDataRequest) : String :=
  if request.symbol == "" then toString request.symbolId else request.symbol

/-- A session may subscribe to a symbol if it does already or has room for one more. -/
def maySubscribe (r : Relay) (s : Session) (symbol : SymbolId) : Bool :=
  s.isSubscribed symbol || s.subscriptions.length < r.config.maxSubscriptionsPerSession

/-- A market-data request of a session that has logged on. -/
def handleMarketData (r : Relay) (s : Session) (request : MarketDataRequest) :
    Relay × List Effect :=
  match r.symbols.resolve request.symbolId request.symbol request.exchange with
  | none => (r, [refusal s.id request s!"unknown symbol {requestedName request}"])
  | some symbol =>
    match request.action with
    | .subscribe =>
      if r.maySubscribe s symbol then ((r.subscribe s.id symbol).1, [])
      else
        let limit := r.config.maxSubscriptionsPerSession
        (r, [refusal s.id request s!"subscription limit of {limit} reached"])
    | .unsubscribe => (r.modify s.id fun s => (s.unsubscribe symbol).1, [])
    | .snapshot => (r, [.send s.id (r.snapshotMessage symbol)])

/-- A breach of the wire language. -/
def violation (id : SessionId) (detail : String) : List Effect :=
  [.close id (.protocolViolation detail)]

def handleMessage (r : Relay) (s : Session) (m : Message) (now : Instant) : Relay × List Effect :=
  match m with
  | .logonRequest request => r.handleLogon s.id request
  | .heartbeat _ => (r.modify s.id (·.recordHeartbeat now), [])
  | .logoff _ => (r, [.close s.id .clientLogoff])
  | .marketDataRequest request =>
    if s.isAuthenticated then r.handleMarketData s request
    else (r, violation s.id "market data request before logon")
  | m => (r, violation s.id s!"unexpected {m.type.name} from client")

/-- The relay after it looked at a message of a session, and what is left to do. -/
def handle (r : Relay) (id : SessionId) (m : Message) (now : Instant) : Relay × List Effect :=
  match r.session? id with
  | none => (r, [])
  | some s => r.handleMessage s m now

/-! ## Effects -/

/-- The relay after a message was sent to session `id` at the wish of session `own`: that one is at
hand, listed or not, and any other is looked up. -/
def send (r : Relay) (own id : SessionId) (m : Message) : Relay :=
  if own == id then r.enqueue id m
  else if r.registry.contains id then r.enqueue id m
  else r

def applyOne (own : SessionId) (now : Instant) (r : Relay) : Effect → Relay
  | .send id m => r.send own id m
  | .authenticate id username =>
    { r with registry := (r.registry.authenticate id username now).1 }
  | .close id reason => (r.close id reason).1

/-- The relay after the effects of a message of session `own`, in order, and whether they closed
that session. -/
def apply (r : Relay) (own : SessionId) (now : Instant) (effects : List Effect) : Relay × Bool :=
  effects.foldl (fun acc e => (applyOne own now acc.1 e, acc.2 || e.closes own)) (r, false)

/-- The relay after a message of a session was dealt with, and whether it closed the session. -/
def process (r : Relay) (id : SessionId) (m : Message) (now : Instant) : Relay × Bool :=
  let (r', effects) := r.handle id m now
  r'.apply id now effects

end Relay
end MarketRelay
