import Nuropb.Patterns.Context
import Nuropb.Patterns.Envelope
import Nuropb.Transport.Client

/-! # The RPC server

The server awaits a delivery, its handler and the drain of its ack. What the other tasks do in the
meantime belongs to these three.
-/
namespace Nuropb.Patterns

open Library Transport

/-- A delivery: the wait for it, what the handler does with its call, and the drain of its ack. -/
structure Round where
  receive : ConnM Unit
  msg : IncomingMessage
  handler : Text → PyVal → ConnM PyVal
  drain : ConnM Unit

/-- What `_handle` changes: the connection, and the handler's calls. -/
structure Serving where
  conn : Conn
  invoked : List (Text × PyVal) := []

abbrev ServerM := EStateM Exc Serving

def onConn {α : Type} (x : ConnM α) : ServerM α := fun s =>
  match x s.conn with
  | .ok a conn => .ok a { s with conn }
  | .error e conn => .error e { s with conn }

def textOf (value : Option PyVal) : Option Text :=
  match value with
  | some (.str t) => some t
  | _ => none

namespace Round

def corr (round : Round) : Option Text := textOf (round.msg.properties .correlationId)

def replyTo (round : Round) : Option Text :=
  match textOf (round.msg.properties .replyTo) with
  | some (c :: rest) => some (c :: rest)
  | _ => none

end Round

structure RpcServer where
  channelId : Int := 1
  auth : Option AuthConfig := none

section Handle

variable (stack : Nat) (jwt : JwtDecode)

def checkIds (corr : Option Text) (bodyId method : Text) : Except Exc Unit :=
  match corr with
  | none => .ok ()
  | some corr =>
    raiseIf (corr ≠ bodyId)
      (rpcError invalidEnvelope "correlation_id / jsonrpc id diverge" false (some corr) (some method) .none)

def RpcServer.checkClaims (server : RpcServer) (method : Text) (params : PyVal) (requestId : Text)
    (properties : Properties) : Except Exc Unit :=
  match server.auth with
  | none => .ok ()
  | some auth => do
    let _ ← auth.verifyRequest jwt method params requestId properties
    return ()

/-- What is called with which params, and the id of the request; both ids are text. -/
def RpcServer.accept (server : RpcServer) (round : Round) : Except Exc (Text × PyVal × Text) := do
  let (method, params, bodyId) ← decodeRequest stack round.msg.body
  checkIds round.corr bodyId method
  let requestId := round.corr.getD bodyId
  server.checkClaims jwt method params requestId round.msg.properties
  return (method, params, requestId)

def callHandler (round : Round) (method : Text) (params : PyVal) : ServerM PyVal := do
  modify fun s => { s with invoked := s.invoked ++ [(method, params)] }
  onConn (round.handler method params)

def RpcServer.respond (server : RpcServer) (round : Round) : ServerM Bytes := do
  let (method, params, requestId) ← lift (server.accept stack jwt round)
  let result ← callHandler round method params
  lift (encodeResult stack result (.str requestId))

/-- The `except` clauses that go on to reply. -/
def replyBody (corr : Option Text) : Except Exc Bytes → Except Exc Bytes
  | .ok out => .ok out
  | .error (.rpcError e) => encodeError stack e.code e.message ((corr.map .str).getD e.id) e.data
  | .error .cancelledError => .error .cancelledError
  | .error _ =>
    encodeError stack serverError (.str (Text.ofString "internal error")) ((corr.map .str).getD .none)
      (.dict (makeErrorData serverError false corr none))

def replyProperties (corr : Option Text) : Properties :=
  let props := Properties.empty.set .contentType (.str (Text.ofString "application/json"))
  match corr with
  | some (c :: rest) => props.set .correlationId (.str (c :: rest))
  | _ => props

def RpcServer.replyArgs (server : RpcServer) (corr : Option Text) (replyTo : Text) (out : Bytes) : PublishArgs where
  channel := server.channelId
  body := out
  routingKey := replyTo
  properties := replyProperties corr
  drain := false
  confirm := some false

def settleDelivery (caller : CallId) (op : Settlement) (drain : ConnM Unit) : ConnM Unit := do
  op.start caller
  drain

/-- The reply, if there is somewhere to send it, and the ack. -/
def RpcServer.replyAndAck (server : RpcServer) (caller : CallId) (round : Round) (out : Bytes) : ConnM Unit := do
  match round.replyTo with
  | some replyTo => do
    let _ ← startPublish caller (server.replyArgs round.corr replyTo out)
    settleDelivery caller (.basicAck server.channelId round.msg.deliveryTag) round.drain
  | none => settleDelivery caller (.basicAck server.channelId round.msg.deliveryTag) round.drain

/-- `_handle` from the outcome of the `try` on. -/
def RpcServer.finish (server : RpcServer) (caller : CallId) (round : Round) : Except Exc Bytes → ConnM Unit
  | .error (.nackDelivery requeue) =>
    settleDelivery caller (.basicNack server.channelId round.msg.deliveryTag requeue false) round.drain
  | outcome => do
    let out ← lift (replyBody stack round.corr outcome)
    server.replyAndAck caller round out

def RpcServer.handle (server : RpcServer) (caller : CallId) (round : Round) : ServerM Unit := do
  let outcome ← observe (server.respond stack jwt round)
  onConn (server.finish stack caller round outcome)

def RpcServer.loop (server : RpcServer) (caller : CallId) : List Round → ServerM Unit
  | [] => return ()
  | round :: rest => do
    onConn round.receive
    server.handle stack jwt caller round
    RpcServer.loop server caller rest

end Handle

section Admission

variable {stack : Nat} {jwt : JwtDecode} {server : RpcServer} {round : Round}

theorem onConn_invoked {α : Type} (x : ConnM α) (s : Serving) : (resultState (onConn x s)).invoked = s.invoked := by
  rw [onConn]
  cases x s.conn <;> rfl

theorem observe_state {α : Type} (x : ServerM α) (s : Serving) :
    ∃ outcome, observe x s = .ok outcome (resultState (x s)) := by
  cases hrun : x s with
  | ok a t => exact ⟨_, observe_of_ok hrun⟩
  | error e t => exact ⟨_, observe_of_error hrun⟩

/-- The handler is called at most once, and only with what has been admitted. -/
theorem respond_invoked (s : Serving) :
    (resultState (server.respond stack jwt round s)).invoked = s.invoked ∨
      ∃ method params requestId, server.accept stack jwt round = .ok (method, params, requestId) ∧
        (resultState (server.respond stack jwt round s)).invoked = s.invoked ++ [(method, params)] := by
  cases haccept : server.accept stack jwt round with
  | error e =>
      left
      rw [RpcServer.respond, haccept, bind_run_error (lift_error e s)]
      rfl
  | ok admitted =>
      obtain ⟨method, params, requestId⟩ := admitted
      right
      refine ⟨method, params, requestId, rfl, ?_⟩
      rw [RpcServer.respond, haccept, bind_run_ok (lift_ok _ s)]
      have hcall : (resultState (callHandler round method params s)).invoked = s.invoked ++ [(method, params)] := by
        rw [callHandler, bind_run_ok (modify_run _ s)]
        exact onConn_invoked _ _
      cases hrun : callHandler round method params s with
      | error e t =>
          rw [hrun] at hcall
          simp only [bind_run, hrun]
          exact hcall
      | ok result t =>
          rw [hrun] at hcall
          simp only [bind_run, hrun]
          have hkept : ∀ s : Serving, s.invoked = (resultState (lift (encodeResult stack result (.str requestId)) s)).invoked :=
            keeps_lift (R := fun s t : Serving => s.invoked = t.invoked) (fun _ => rfl) _
          rw [← hkept t]
          exact hcall

theorem handle_invoked (caller : CallId) (s : Serving) :
    (resultState (server.handle stack jwt caller round s)).invoked =
      (resultState (server.respond stack jwt round s)).invoked := by
  obtain ⟨outcome, hrun⟩ := observe_state (server.respond stack jwt round) s
  rw [RpcServer.handle, bind_run_ok hrun]
  exact onConn_invoked _ _

theorem checkIds_returns {corr : Option Text} {bodyId method : Text} {u : Unit}
    (h : checkIds corr bodyId method = .ok u) : ∀ c, corr = some c → c = bodyId := by
  rintro c rfl
  exact not_not.mp (raiseIf_eq_ok.mp h)

theorem accept_returns {method : Text} {params : PyVal} {requestId : Text}
    (h : server.accept stack jwt round = .ok (method, params, requestId)) :
    decodeRequest stack round.msg.body = .ok (method, params, requestId) ∧
      (∀ c, round.corr = some c → c = requestId) ∧
      ∃ u, server.checkClaims jwt method params requestId round.msg.properties = .ok u := by
  obtain ⟨⟨method', params', bodyId⟩, hdecode, h⟩ := bind_eq_ok.mp h
  obtain ⟨_, hids, h⟩ := bind_eq_ok.mp h
  obtain ⟨u, hclaims, h⟩ := bind_eq_ok.mp h
  cases h
  have hsame := checkIds_returns hids
  have hid : round.corr.getD bodyId = bodyId := by
    cases hcorr : round.corr with
    | none => rfl
    | some c => exact hsame c hcorr
  rw [hid] at hclaims ⊢
  exact ⟨hdecode, hsame, u, hclaims⟩

end Admission

end Nuropb.Patterns
