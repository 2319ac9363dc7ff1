import Nuropb.Patterns.Answers
import Nuropb.Patterns.EnvelopeRoundTrip
import Nuropb.Patterns.Settling

/-! # A call gives its caller what the handler gave the server

A request is encoded by the client, decoded and answered by the server, and the reply is decoded by the client. What
the handler returns comes back as JSON has it, what it raises comes back as an RPC error.
-/
namespace Nuropb.Patterns

open Library Transport

section Outcomes

variable (stack : Nat)

def internalError (requestId : Text) : Exc :=
  rpcError serverError "internal error" false (some requestId) none (.str requestId)

/-- What the caller of a request gets, by what the handler does. -/
def remoteOutcome (requestId : Text) : Except Exc PyVal → Except Exc PyVal
  | .ok result =>
    match encodeResult stack result (.str requestId) with
    | .ok _ => .ok (Json.readBack result)
    | .error _ => .error (internalError requestId)
  | .error (.rpcError e) => .error (.rpcError { e with data := arrivedData e.data, id := .str requestId })
  | .error _ => .error (internalError requestId)

/-- What the handler returns or raises is made of values as Python has them: no dictionary has a key twice, and the
message of an RPC error is text. -/
def WellFormed : Except Exc PyVal → Prop
  | .ok result => Json.keyed result = true
  | .error (.rpcError e) => Json.keyed e.data = true ∧ ∃ message, e.message = .str message
  | .error _ => True

end Outcomes

section Replies

variable {stack : Nat} {builtins : Builtins} {requestId : Text} {out : Bytes}

theorem decodeResponse_internal (h : encodeError stack serverError (.str (Text.ofString "internal error"))
    (((some requestId).map .str).getD .none) (.dict (makeErrorData serverError false (some requestId) none)) = .ok out) :
    decodeResponse builtins stack out = .error (internalError requestId) := by
  rw [decodeResponse_encodedError builtins h (by rfl)]
  rfl

theorem replyBody_coarse {e : Exc} (he : Coarse e) (h : replyBody stack (some requestId) (.error e) = .ok out) :
    decodeResponse builtins stack out = .error (internalError requestId) := by
  unfold replyBody at h
  split at h
  · contradiction
  · rename_i error heq
    cases heq
    exact (he.2.1 ⟨error, rfl⟩).elim
  · contradiction
  · exact decodeResponse_internal h

theorem decodeResponse_reply {handled : Except Exc PyVal} {outcome : Except Exc Bytes} (hwell : WellFormed handled)
    (houtcome : outcome = handled.bind fun result => encodeResult stack result (.str requestId))
    (h : replyBody stack (some requestId) outcome = .ok out) :
    decodeResponse builtins stack out = remoteOutcome stack requestId handled := by
  subst houtcome
  cases handled with
  | ok result =>
    cases hencoded : encodeResult stack result (.str requestId) with
    | ok body =>
      have hbody : replyBody stack (some requestId) (.ok body) = .ok out := hencoded ▸ h
      cases hbody
      rw [remoteOutcome, hencoded]
      exact decodeResponse_encoded builtins hencoded hwell rfl
    | error e =>
      have hbody : replyBody stack (some requestId) (.error e) = .ok out := hencoded ▸ h
      rw [remoteOutcome, hencoded]
      exact replyBody_coarse (raises_encodeObject stack _ e hencoded) hbody
  | error e =>
    change replyBody stack (some requestId) (.error e) = .ok out at h
    unfold replyBody at h
    split at h
    · rename_i heq
      cases heq
    · rename_i error heq
      cases heq
      obtain ⟨hkeyed, message, hmessage⟩ := hwell
      rw [hmessage] at h
      have hdecoded := @decodeResponse_encodedError stack out builtins _ _ (some requestId) _ h hkeyed
      rw [hdecoded, remoteOutcome, ← hmessage]
      rfl
    · cases h
    · rename_i hother _ heq
      cases heq
      rw [decodeResponse_internal h]
      unfold remoteOutcome
      split
      · rename_i heq
        cases heq
      · rename_i heq
        cases heq
        exact (hother _ rfl).elim
      · rfl

end Replies

section Server

variable {stack : Nat} {jwt : JwtDecode} {server : RpcServer} {caller : CallId} {round : Round} {method requestId : Text}
  {params : PyVal} {handled : Except Exc PyVal} {s ended : Serving} {conn conn' : Conn}

theorem accept_of_request (hrequest : encodeRequest stack method params requestId = .ok round.msg.body)
    (hparams : Json.keyed params = true) (hcorr : round.corr = some requestId)
    (hclaims : server.checkClaims jwt method (Json.readBack params) requestId round.msg.properties = .ok ()) :
    server.accept stack jwt round = .ok (method, Json.readBack params, requestId) := by
  have hids : checkIds (some requestId) requestId method = .ok () := raiseIf_of_not (not_not.mpr rfl)
  rw [RpcServer.accept, decodeRequest_encoded hrequest hparams, ok_bind]
  dsimp only
  rw [hcorr, hids, ok_bind, Option.getD_some, hclaims]
  rfl

theorem observe_respond (haccept : server.accept stack jwt round = .ok (method, params, requestId))
    (hhandled : observe (callHandler round method params) s = .ok handled ended) :
    observe (server.respond stack jwt round) s =
      .ok (handled.bind fun result => encodeResult stack result (.str requestId)) ended := by
  have hrespond : server.respond stack jwt round s =
      (callHandler round method params >>= fun result => lift (encodeResult stack result (.str requestId))) s := by
    rw [RpcServer.respond, haccept, bind_run_ok (lift_ok _ s)]
  rw [observe] at hhandled ⊢
  rw [hrespond, bind_run]
  split at hhandled
  · rename_i result t hcall
    cases hhandled
    cases hencoded : encodeResult stack result (.str requestId) with
    | ok out => rw [lift_ok, Except.bind, hencoded]
    | error e => rw [lift_error, Except.bind, hencoded]
  · rename_i e t hcall
    cases hhandled
    rfl

theorem invoked_of_callHandler (hhandled : observe (callHandler round method params) s = .ok handled ended) :
    ended.invoked = s.invoked ++ [(method, params)] := by
  obtain ⟨outcome, hobserve⟩ := observe_state (callHandler round method params) s
  rw [hhandled] at hobserve
  cases hobserve
  rw [callHandler, bind_run_ok (modify_run _ s)]
  exact onConn_invoked _ _

theorem replyAndAck_written {replyTo : Text} {out : Bytes} (hlive : round.Live server.channelId caller)
    (hopen : conn.channels.get? server.channelId = some .open) (hreplyTo : round.replyTo = some replyTo)
    (h : server.replyAndAck caller round out conn = .ok () conn') : ∃ reply ack,
      contentFrames conn.frameMax (server.replyArgs round.corr replyTo out) (replyProperties round.corr) = some reply ∧
        IsMethod server.channelId (.basicAck round.msg.deliveryTag false) ack ∧
        StaysUp server.channelId caller (conn.append caller (reply ++ [ack])) conn' := by
  have hfits : replyFits server round conn out = true ∧
      methodFits conn server.channelId (.basicAck round.msg.deliveryTag false) = true := by
    by_contra hnot
    have hfails : replyFits server round conn out = false ∨
        methodFits conn server.channelId (.basicAck round.msg.deliveryTag false) = false := by
      rcases not_and_or.mp hnot with hreply | hack
      · exact .inl (Bool.eq_false_iff.mpr hreply)
      · exact .inr (Bool.eq_false_iff.mpr hack)
    obtain ⟨e, raised, hraised⟩ := replyAndAck_of_not_fits hopen hfails
    rw [h] at hraised
    cases hraised
  obtain ⟨hreply, hack⟩ := hfits
  rw [replyFits, hreplyTo] at hreply
  simp only [Bool.and_eq_true, Bool.not_eq_true'] at hreply
  obtain ⟨reply, hframes⟩ := Option.isSome_iff_exists.mp hreply.2
  obtain ⟨ack, hackFrame⟩ := Option.isSome_iff_exists.mp hack
  obtain ⟨drained, hdrain, hup⟩ := hlive.drain ((conn.append caller reply).append caller [ack])
  have hsettled : settleDelivery caller (.basicAck server.channelId round.msg.deliveryTag) round.drain
      (conn.append caller reply) = round.drain ((conn.append caller reply).append caller [ack]) :=
    settleDelivery_of_some hopen hackFrame
  rw [RpcServer.replyAndAck, hreplyTo] at h
  dsimp only at h
  rw [bind_run_ok (startPublish_of_fits hopen hreply.1 hframes), hsettled, hdrain] at h
  cases h
  rw [Conn.append_append] at hup
  exact ⟨reply, ack, hframes, isMethod_of_frameOf hackFrame, hup⟩

end Server

/-- The handler has been called with what the client asked for, and the reply that the server has written decodes to what
the handler did. -/
theorem remote_call (builtins : Builtins) (stack : Nat) (jwt : JwtDecode) (server : RpcServer) (caller : CallId)
    {round : Round} {method requestId replyTo : Text} {params : PyVal} {handled : Except Exc PyVal} {s ended served : Serving}
    (hlive : round.Live server.channelId caller) (hopen : s.conn.channels.get? server.channelId = some .open)
    (hrequest : encodeRequest stack method params requestId = .ok round.msg.body) (hparams : Json.keyed params = true)
    (hcorr : round.corr = some requestId) (hreplyTo : round.replyTo = some replyTo)
    (hclaims : server.checkClaims jwt method (Json.readBack params) requestId round.msg.properties = .ok ())
    (hhandled : observe (callHandler round method (Json.readBack params)) s = .ok handled ended)
    (hwell : WellFormed handled) (hnack : ∀ requeue, handled ≠ .error (.nackDelivery requeue))
    (hserved : server.handle stack jwt caller round s = .ok () served) : ∃ out reply ack,
      decodeResponse builtins stack out = remoteOutcome stack requestId handled ∧
        contentFrames ended.conn.frameMax (server.replyArgs (some requestId) replyTo out)
          (replyProperties (some requestId)) = some reply ∧
        IsMethod server.channelId (.basicAck round.msg.deliveryTag false) ack ∧
        framesBy caller s.conn served.conn = reply ++ [ack] ∧
        served.invoked = s.invoked ++ [(method, Json.readBack params)] := by
  have hinvoked := invoked_of_callHandler hhandled
  have hrespond := observe_respond (accept_of_request hrequest hparams hcorr hclaims) hhandled
  have hup : StaysUp server.channelId caller s.conn ended.conn := by
    obtain ⟨outcome, hobserve⟩ := observe_state (server.respond stack jwt round) s
    rw [hobserve] at hrespond
    cases hrespond
    exact staysUp_respond hlive s
  generalize houtcome : handled.bind (fun result => encodeResult stack result (.str requestId)) = outcome at hrespond
  have hother (requeue : Bool) : outcome ≠ .error (.nackDelivery requeue) := by
    rintro rfl
    cases handled with
    | error e =>
      cases houtcome
      exact hnack requeue rfl
    | ok result =>
      exact (raises_encodeObject stack _ _ houtcome).1 requeue rfl
  rw [RpcServer.handle, bind_run_ok hrespond, onConn, finish_of_other hother] at hserved
  split at hserved
  · rename_i hfinish
    cases hserved
    obtain ⟨out, mid, hbody, hwritten⟩ := bind_returns.mp hfinish
    obtain ⟨hreply, rfl⟩ := lift_returns.mp hbody
    obtain ⟨reply, ack, hframes, hack, hdrained⟩ := replyAndAck_written hlive (hup.isOpen hopen) hreplyTo hwritten
    rw [hcorr] at hreply hframes
    exact ⟨out, reply, ack, decodeResponse_reply hwell houtcome.symm hreply, hframes, hack, (wrote_between hup hdrained).framesBy,
      hinvoked⟩
  · cases hserved

def priceRound : Round where
  receive := pure ()
  msg := { deliveryTag := 1, exchange := [], routingKey := [], redelivered := false, consumerTag := [],
           body := (encodeRequest 9 (Text.ofString "price") (.list []) (Text.ofString "1")).toOption.getD []
           properties := (Properties.empty.set .correlationId (.str (Text.ofString "1"))).set .replyTo
             (.str (Text.ofString "q")) }
  handler := fun _ _ => pure (.tuple [.int 3, .float 0x3ff8000000000000])
  drain := pure ()

/-- The handler is asked for the price, and the caller gets a list. -/
theorem price_call : ∃ served out reply ack,
    RpcServer.handle 9 (fun _ => .invalid) {} 0 priceRound ⟨confirmingConn, []⟩ = .ok () served ∧
      served.invoked = [(Text.ofString "price", .list [])] ∧ framesBy 0 confirmingConn served.conn = reply ++ [ack] ∧
      decodeResponse .ascii 9 out = .ok (.list [.int 3, .float 0x3ff8000000000000]) := by
  have hlive : priceRound.Live 1 0 := by
    refine ⟨fun conn => ⟨conn, rfl, .refl conn⟩, fun method params => keeps_pure StaysUp.refl _, fun conn => ⟨conn, rfl, .refl conn⟩⟩
  have hencodes : (encodeRequest 9 (Text.ofString "price") (.list []) (Text.ofString "1")).toOption.isSome = true := rfl
  obtain ⟨body, hbody⟩ := Option.isSome_iff_exists.mp hencodes
  have hrequest : encodeRequest 9 (Text.ofString "price") (.list []) (Text.ofString "1") = .ok priceRound.msg.body := by
    have hmsg : priceRound.msg.body =
        (encodeRequest 9 (Text.ofString "price") (.list []) (Text.ofString "1")).toOption.getD [] := rfl
    rw [hmsg, hbody]
    exact toOption_eq_some.mp hbody
  have hreturns : (match RpcServer.handle 9 (fun _ => .invalid) {} 0 priceRound ⟨confirmingConn, []⟩ with
    | .ok _ _ => true
    | .error _ _ => false) = true := by decide +kernel
  cases hserved : RpcServer.handle 9 (fun _ => .invalid) {} 0 priceRound ⟨confirmingConn, []⟩ with
  | error e raised =>
    rw [hserved] at hreturns
    cases hreturns
  | ok u served =>
    have hhandled : observe (callHandler priceRound (Text.ofString "price") (.list [])) ⟨confirmingConn, []⟩ =
        .ok (.ok (.tuple [.int 3, .float 0x3ff8000000000000])) ⟨confirmingConn, [(Text.ofString "price", .list [])]⟩ := rfl
    obtain ⟨out, reply, ack, hout, -, -, hframes, hinvoked⟩ := remote_call .ascii 9 (fun _ => .invalid) {} 0 hlive (by decide) hrequest
      rfl rfl rfl rfl hhandled rfl (by simp) hserved
    refine ⟨served, out, reply, ack, rfl, hinvoked, hframes, hout.trans ?_⟩
    rfl

end Nuropb.Patterns
