import Nuropb.Patterns.RpcServer
import Nuropb.Transport.AllOrNothing

/-! # Handlers run only when authorised -/
namespace Nuropb.Patterns

open Library Transport

/-- The method is public, or the claims of the delivery verify for this call under its one request id. -/
def Authorised (auth : AuthConfig) (stack : Nat) (jwt : JwtDecode) (round : Round) (method : Text)
    (params : PyVal) : Prop :=
  method ∈ auth.publicMethods ∨ ∃ requestId headers claims token alg key,
    decodeRequest stack round.msg.body = .ok (method, params, requestId) ∧
      (∀ c, round.msg.properties .correlationId = some (.str c) → c = requestId) ∧
      round.msg.properties .headers = some (.dict headers) ∧
      auth.Verified jwt method params requestId headers claims token alg key

theorem corr_of_property {round : Round} {c : Text} (h : round.msg.properties .correlationId = some (.str c)) :
    round.corr = some c := by
  rw [Round.corr, h]
  rfl

theorem authorised_of_accept {auth : AuthConfig} {channelId : Int} {stack : Nat} {jwt : JwtDecode} {round : Round}
    {method requestId : Text} {params : PyVal}
    (h : RpcServer.accept stack jwt ⟨channelId, some auth⟩ round = .ok (method, params, requestId)) :
    Authorised auth stack jwt round method params := by
  obtain ⟨hdecode, hids, _, hclaims⟩ := accept_returns h
  obtain ⟨found, hverify, -⟩ := bind_eq_ok.mp hclaims
  rcases verifyRequest_returns hverify with hpublic | ⟨headers, claims, token, alg, key, hheaders, hverified⟩
  · exact .inl hpublic
  · refine .inr ⟨requestId, headers, claims, token, alg, key, hdecode, ?_, hheaders, hverified⟩
    intro c hc
    exact hids c (corr_of_property hc)

/-- Whatever the delivery, and whatever the handler does, each call of the handler was authorised. -/
theorem handler_authorised (auth : AuthConfig) (channelId : Int) (stack : Nat) (jwt : JwtDecode) (caller : CallId)
    (round : Round) (s : Serving) : ∃ calls,
      (resultState (RpcServer.handle stack jwt ⟨channelId, some auth⟩ caller round s)).invoked = s.invoked ++ calls ∧
        ∀ call ∈ calls, Authorised auth stack jwt round call.1 call.2 := by
  rw [handle_invoked]
  rcases respond_invoked s with hnone | ⟨method, params, requestId, haccept, hone⟩
  · exact ⟨[], by rw [hnone, List.append_nil], by simp⟩
  · refine ⟨[(method, params)], hone, ?_⟩
    intro call hcall
    obtain rfl := List.mem_singleton.mp hcall
    exact authorised_of_accept haccept

def greetAuth : AuthConfig where
  jwtSecret := some (.bytes [115])
  keyed := .inl (by simp)

def knowsOneToken : JwtDecode := fun call =>
  if call = greetAuth.jwtCall (Text.ofString "t") (Text.ofString "HS256") (.bytes [115]) then
    .claims [(Text.ofString "jti", .str (Text.ofString "1")), (Text.ofString "method", .str (Text.ofString "greet"))]
  else .invalid

def greetProperties : Properties :=
  (Properties.empty.set .correlationId (.str (Text.ofString "1"))).set .headers
    (.dict [(claimsHeader, .str (Text.ofString "t")), (claimsTypHeader, .str claimsTypJwt)])

def greetRound (properties : Properties) : Round where
  receive := pure ()
  msg := { deliveryTag := 1, exchange := [], routingKey := [], redelivered := false, consumerTag := [],
           body := "\x7b\"jsonrpc\":\"2.0\",\"method\":\"greet\",\"id\":\"1\"\x7d".toUTF8.toList
           properties := properties }
  handler := fun _ _ => pure .none
  drain := pure ()

def repliedRound : Round := greetRound (greetProperties.set .replyTo (.str (Text.ofString "q")))

/-- The call of `greet` with its token reaches the handler. -/
theorem greet_authorised : ∃ calls,
    (resultState (RpcServer.handle 9 knowsOneToken ⟨1, some greetAuth⟩ 0 (greetRound greetProperties)
      ⟨confirmingConn, []⟩)).invoked = calls ∧ calls.map Prod.fst = [Text.ofString "greet"] ∧
      ∀ call ∈ calls, Authorised greetAuth 9 knowsOneToken (greetRound greetProperties) call.1 call.2 := by
  have hrun : (resultState (RpcServer.handle 9 knowsOneToken ⟨1, some greetAuth⟩ 0 (greetRound greetProperties)
      ⟨confirmingConn, []⟩)).invoked.map Prod.fst = [Text.ofString "greet"] := by decide +kernel
  obtain ⟨calls, hcalls, hauthorised⟩ :=
    handler_authorised greetAuth 1 9 knowsOneToken 0 (greetRound greetProperties) ⟨confirmingConn, []⟩
  refine ⟨calls, hcalls, ?_, hauthorised⟩
  rw [hcalls] at hrun
  exact hrun

end Nuropb.Patterns
