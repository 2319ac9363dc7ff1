import Nuropb.Patterns.RpcServer
import Nuropb.Sessions.State

/-! # Requests

`RpcClient.request` registers an id, publishes the request and waits for its reply. What it makes of
the body of the reply is left to its caller.
-/
namespace Nuropb.Sessions

open Library Patterns Transport Config

structure RequestArgs where
  target : Text
  method : Text
  params : PyVal := .none
  requestId : Option Text := none
  exchange : Text := []
  claimsToken : Option Text := none
  queueProfile : QueueProfile

/-- `dict(props.get("headers") or {})` -/
def headersOf (props : Properties) : Except Exc Table :=
  match props .headers with
  | none => .ok []
  | some (.dict headers) => .ok headers
  | some value => if truthy value then .error .typeError else .ok []

def attachClaimsHeaders (props : Properties) (token : Text) : Except Exc Properties := do
  raiseIf (token = []) (.valueError "claims token must be a non-empty string")
  let headers ← headersOf props
  let headers := assign claimsHeader (.str token) headers
  return props.set .headers (.dict (assign claimsTypHeader (.str claimsTypJwt) headers))

namespace Session

def chosenId (s : Session) (args : RequestArgs) (generated : Text) : Except Exc Text :=
  if s.replyQueueOpen then
    match s.correlation.chooseId args.requestId generated with
    | .ok rid => .ok rid
    | .error (.invalid reason) => .error (rpcError invalidId reason false none (some args.method) .none)
    | .error (.collision rid) => .error (.rpcError
        { code := idCollision
          message := .str (Text.ofString "id collides with outstanding request: " ++ rid)
          data := .dict (makeErrorData idCollision false args.requestId (some args.method)) })
    | .error .encoding => .error .unicodeEncodeError
  else .error (.runtimeError "session not started")

def requestProperties (s : Session) (rid : Text) : Properties :=
  ((Properties.empty.set .contentType (.str (Text.ofString "application/json"))).set .correlationId
    (.str rid)).set .replyTo ((s.replyQueue.map .str).getD .none)

def envelope (s : Session) (args : RequestArgs) (rid : Text) : Except Exc ParkedPublish := do
  let body ← encodeRequest s.settings.stack args.method args.params rid
  let props ←
    match args.claimsToken with
    | none => .ok (s.requestProperties rid)
    | some token => attachClaimsHeaders (s.requestProperties rid) token
  return { exchange := args.exchange, routingKey := args.target, body, properties := props,
           queueProfile := some args.queueProfile }

def endRequest (s : Session) (r : RequestId) (outcome : Except Exc IncomingMessage) : Session :=
  match s.requests r with
  | some request => s.setRequest r { request with stage := .ended outcome }
  | none => s

def replied (s : Session) (r : RequestId) (request : Request) : Except Exc IncomingMessage → Session
  | .ok msg =>
    if textOf (msg.properties .correlationId) = some request.rid then s.endRequest r (.ok msg)
    else s.endRequest r (.error (rpcError invalidEnvelope "reply correlation_id mismatch" false (some request.rid)
      (some request.method) (.str request.rid)))
  | .error .timeoutError =>
    let s := if s.settings.brokerTimeout then s else s.failPublish request.rid .timeoutError
    (s.forgetPublish request.rid).endRequest r (.error (rpcError requestTimeout "request timed out" true
      (some request.rid) (some request.method) (.str request.rid)))
  | .error e => s.endRequest r (.error e)

/-- `wait_reply`, which does not suspend when the future is done. -/
def awaitReply (s : Session) (r : RequestId) (request : Request) : Session :=
  match s.correlation.futures r with
  | none => s.setRequest r { request with stage := .replying }
  | some outcome => s.replied r request outcome

/-- The publish of a request has ended on the connection of an epoch. -/
def publishEnded (s : Session) (r : RequestId) (epoch : Nat) (outcome : Except Exc (Option Text)) : Session :=
  match s.requests r with
  | some ⟨rid, method, .publishing _ envelope⟩ =>
    match outcome with
    | .ok _ =>
      let s := s.recordPublish epoch envelope
      { s with parked := s.parked.set rid envelope }.awaitReply r ⟨rid, method, .replying⟩
    | .error e =>
      if e.isPublishRefusal then
        (s.failPublish rid e).endRequest r (.error (refusalError s.settings rid (some method) e))
      else s.endRequest r (.error e)
  | _ => s

/-- A request up to its first await; what it raises before it registers its id leaves no trace. -/
def request (s : Session) (args : RequestArgs) (generated : Text) : Session :=
  match s.chosenId args generated with
  | .error _ => s
  | .ok rid =>
    let r := s.nextRequest
    let s := { s with correlation := s.correlation.register rid r, nextRequest := r + 1 }
    match s.envelope args rid with
    | .error e => s.setRequest r ⟨rid, args.method, .ended (.error e)⟩
    | .ok envelope =>
      let id := s.nextCall
      let s := (s.call (some (.request r)) (.publish envelope.args)).setRequest r
        ⟨rid, args.method, .publishing id envelope⟩
      match s.link.client.outcome id with
      | some outcome => s.publishEnded r s.epoch outcome
      | none => s

def cancelRequest (s : Session) (r : RequestId) : Option Session :=
  match (s.requests r).map Request.stage with
  | some (.publishing ..) => some (s.setCancelled (.request r) true)
  | some .replying => some { s with correlation := s.correlation.overtake r .cancelledError }
  | _ => none

/-- The time of `client_fallback_timeout` is over. The timer also reaches a task that is about to resume from a future
that is done. -/
def expireRequest (s : Session) (r : RequestId) : Option Session :=
  match (s.requests r).map Request.stage with
  | some .replying =>
    if s.settings.brokerTimeout then none
    else some { s with correlation := s.correlation.overtake r .timeoutError }
  | _ => none

def wakeRequest (s : Session) (r : RequestId) : Option Session :=
  match s.requests r with
  | some ⟨rid, method, .replying⟩ => (s.correlation.futures r).map (s.replied r ⟨rid, method, .replying⟩)
  | _ => none

end Session

end Nuropb.Sessions
