import Nuropb.Patterns.Responses
import Nuropb.Patterns.RpcServer
import Nuropb.Transport.FrameRoom

/-! # How a delivery is to be answered

The answer depends on the body and the ids, the authorisation, and what the handler does: a nack, or a reply and an
ack. It can be sent if its JSON can be written and the frames have room.
-/
namespace Nuropb.Patterns

open Library Protocol Transport

structure IsCall (msg : Table) (method : Text) (params : PyVal) : Prop where
  version : lookup (Text.ofString "jsonrpc") msg = some (.str (Text.ofString "2.0"))
  method : lookup (Text.ofString "method") msg = some (.str method)
  params : lookup (Text.ofString "params") msg = some params ∨ lookup (Text.ofString "params") msg = none ∧ params = .none

section Bodies

variable (stack : Nat) (body : Bytes)

def IsRequest (method : Text) (params : PyVal) (requestId : Text) : Prop :=
  ∃ text msg, decodeUtf8 body = .ok text ∧ Json.loads stack text = .ok (.dict msg) ∧ IsCall msg method params ∧
    lookup (Text.ofString "id") msg = some (.str requestId)

/-- The body is no request, which the message says. -/
inductive NoRequest : String → Prop
  | undecodable (h : ∀ text, decodeUtf8 body ≠ .ok text) : NoRequest "invalid JSON-RPC body"
  | unparsable {text : Text} (htext : decodeUtf8 body = .ok text) (h : Json.loads stack text = .error .jsonDecodeError) :
    NoRequest "invalid JSON-RPC body"
  | unversioned {text : Text} {value : PyVal} (htext : decodeUtf8 body = .ok text) (hloads : Json.loads stack text = .ok value)
    (h : ∀ msg, value = .dict msg → lookup (Text.ofString "jsonrpc") msg ≠ some (.str (Text.ofString "2.0"))) :
    NoRequest "jsonrpc version must be 2.0"
  | uncalled {text : Text} {msg : Table} (htext : decodeUtf8 body = .ok text) (hloads : Json.loads stack text = .ok (.dict msg))
    (hversion : lookup (Text.ofString "jsonrpc") msg = some (.str (Text.ofString "2.0")))
    (h : ∀ method requestId, lookup (Text.ofString "method") msg = some (.str method) →
      lookup (Text.ofString "id") msg ≠ some (.str requestId)) : NoRequest "request requires string method and id"

def Unloadable : Prop := ∃ text e, decodeUtf8 body = .ok text ∧ Json.loads stack text = .error e ∧ e ≠ .jsonDecodeError

def IsWritten (value : PyVal) : Prop := (do encodeUtf8 (← Json.dumps stack value) : Except Exc Bytes) = .ok body

end Bodies

/-! ## Replies -/

/-- An error with an id; data without entries is left out. -/
def errorReply (code : Int) (message : PyVal) (data : Table) (id : PyVal) : PyVal :=
  .dict [(Text.ofString "jsonrpc", .str (Text.ofString "2.0")),
    (Text.ofString "error", .dict ([(Text.ofString "code", .int code), (Text.ofString "message", message)] ++
      if data.isEmpty then [] else [(Text.ofString "data", .dict data)])),
    (Text.ofString "id", id)]

def resultReply (result : PyVal) (requestId : Text) : PyVal :=
  .dict [(Text.ofString "jsonrpc", .str (Text.ofString "2.0")), (Text.ofString "result", result),
    (Text.ofString "id", .str requestId)]

def replyId (corr : Option Text) (id : PyVal) : PyVal := (corr.map .str).getD id

def errorData (codeName : String) : Table :=
  [(Text.ofString "code_name", .str (Text.ofString codeName)), (Text.ofString "retryable", .bool false)]

def noRequestReply (corr : Option Text) (message : String) : PyVal :=
  errorReply invalidEnvelope (.str (Text.ofString message)) (errorData "INVALID_ENVELOPE") (replyId corr .none)

def divergedReply (corr method : Text) : PyVal :=
  errorReply invalidEnvelope (.str (Text.ofString "correlation_id / jsonrpc id diverge"))
    (errorData "INVALID_ENVELOPE" ++ [(Text.ofString "correlation_id", .str corr), (Text.ofString "method", .str method)])
    (.str corr)

def internalReply (corr : Option Text) : PyVal :=
  errorReply serverError (.str (Text.ofString "internal error"))
    (errorData "SERVER_ERROR" ++ (corr.map fun c => (Text.ofString "correlation_id", PyVal.str c)).toList)
    (replyId corr .none)

inductive Answer
  | nack (requeue : Bool)
  | reply (value : PyVal)

/-- An exception that is neither a refusal of the delivery, nor an RPC error, nor a cancellation. -/
def Coarse (e : Exc) : Prop := (∀ requeue, e ≠ .nackDelivery requeue) ∧ ¬IsRpcError e ∧ e ≠ .cancelledError

/-- What answers an exception: nothing answers a cancellation, nor an RPC error with data that is no dictionary. -/
inductive Answers (corr : Option Text) : Exc → Answer → Prop
  | nacked {requeue : Bool} : Answers corr (.nackDelivery requeue) (.nack requeue)
  | plain {error : RpcError} (hdata : error.data = .none) :
    Answers corr (.rpcError error) (.reply (errorReply error.code error.message [] (replyId corr error.id)))
  | detailed {error : RpcError} {data : Table} (hdata : error.data = .dict data) :
    Answers corr (.rpcError error) (.reply (errorReply error.code error.message
      (data.filter fun entry => entry.1 ∈ allowedDataKeys) (replyId corr error.id)))
  | coarse {e : Exc} (h : Coarse e) : Answers corr e (.reply (internalReply corr))

section Coming

variable (stack : Nat) (jwt : JwtDecode) (server : RpcServer) (round : Round)

/-- The handler is called with this method and these params. -/
structure Admitted (method : Text) (params : PyVal) (requestId : Text) : Prop where
  request : IsRequest stack round.msg.body method params requestId
  ids : ∀ corr, round.corr = some corr → corr = requestId
  claims : server.checkClaims jwt method params requestId round.msg.properties = .ok ()

/-- How a delivery that is taken on the connection is to be answered, and the connection by then. -/
inductive Comes (conn : Conn) : Answer → Conn → Prop
  | noRequest {message : String} (hbody : NoRequest stack round.msg.body message) :
    Comes conn (.reply (noRequestReply round.corr message)) conn
  | unloadable (hbody : Unloadable stack round.msg.body) : Comes conn (.reply (internalReply round.corr)) conn
  | diverged {method requestId corr : Text} {params : PyVal} (hrequest : IsRequest stack round.msg.body method params requestId)
    (hcorr : round.corr = some corr) (hne : corr ≠ requestId) : Comes conn (.reply (divergedReply corr method)) conn
  | refused {method requestId : Text} {params : PyVal} {e : Exc} {answer : Answer}
    (hrequest : IsRequest stack round.msg.body method params requestId)
    (hids : ∀ corr, round.corr = some corr → corr = requestId)
    (hclaims : server.checkClaims jwt method params requestId round.msg.properties = .error e)
    (hanswer : Answers round.corr e answer) : Comes conn answer conn
  | raised {method requestId : Text} {params : PyVal} {e : Exc} {answer : Answer} {conn' : Conn}
    (hadmitted : Admitted stack jwt server round method params requestId)
    (hhandler : round.handler method params conn = .error e conn') (hanswer : Answers round.corr e answer) :
    Comes conn answer conn'
  | unwritable {method requestId : Text} {params result : PyVal} {conn' : Conn}
    (hadmitted : Admitted stack jwt server round method params requestId)
    (hhandler : round.handler method params conn = .ok result conn')
    (h : ¬Json.Encodes stack (resultReply result requestId)) : Comes conn (.reply (internalReply round.corr)) conn'
  | returned {method requestId : Text} {params result : PyVal} {conn' : Conn}
    (hadmitted : Admitted stack jwt server round method params requestId)
    (hhandler : round.handler method params conn = .ok result conn')
    (h : Json.Encodes stack (resultReply result requestId)) : Comes conn (.reply (resultReply result requestId)) conn'

def Settleable (conn : Conn) : Prop :=
  round.msg.deliveryTag < 2 ^ 64 ∧ HasRoom conn.frameMax server.channelId 13

/-- The queue and the correlation id are short strings, and the two frames before the body have room. -/
structure Publishable (conn : Conn) (replyTo : Text) (size : Nat) : Prop where
  unblocked : conn.publishBlocked = false
  queue : ∃ octets, ShortText replyTo octets ∧ HasRoom conn.frameMax server.channelId (octets + 9)
  size : size < 2 ^ 64
  header : HasRoom conn.frameMax server.channelId 31
  corr : ∀ c rest, round.corr = some (c :: rest) →
    ∃ octets, ShortText (c :: rest) octets ∧ HasRoom conn.frameMax server.channelId (octets + 32)

inductive Answer.Sendable (conn : Conn) : Answer → Prop
  | nacked {requeue : Bool} (hsettleable : Settleable server round conn) : Answer.Sendable conn (.nack requeue)
  | replied {value : PyVal} (hencodes : Json.Encodes stack value)
    (hreply : ∀ replyTo body, round.replyTo = some replyTo → IsWritten stack body value →
      Publishable server round conn replyTo body.length)
    (hsettleable : Settleable server round conn) : Answer.Sendable conn (.reply value)

/-- Whatever the delivery is to be answered with can be sent. -/
def Answerable (conn : Conn) : Prop :=
  ∃ answer conn', Comes stack jwt server round conn answer conn' ∧ answer.Sendable stack server round conn'

end Coming

section Exceptions

variable {e : Exc}

theorem coarse_of_conversionError (h : ConversionError e) : Coarse e := by
  refine ⟨?_, ?_, ?_⟩
  · rintro requeue rfl
    obtain ⟨⟨⟩⟩ := h
  · rintro ⟨error, rfl⟩
    exact h.foreign.2 error rfl
  · rintro rfl
    obtain ⟨⟨⟩⟩ := h

theorem raises_encodeObject (stack : Nat) (entries : Table) : Raises Coarse (encodeObject stack entries) := by
  refine raises_bind ((Json.raises_dumpValue stack _).mono fun e => coarse_of_conversionError) fun text _ => ?_
  unfold encodeUtf8
  split
  · exact raises_ok _
  · exact raises_error ⟨by simp, by rintro ⟨error, ⟨⟩⟩, by simp⟩

end Exceptions

/-! ## What the decoder makes of a body -/

section Decoding

variable {stack : Nat} {body : Bytes} {method requestId : Text} {params : PyVal}

theorem isCall_of_lookup {msg : Table} (hversion : lookup (Text.ofString "jsonrpc") msg = some (.str (Text.ofString "2.0")))
    (hmethod : lookup (Text.ofString "method") msg = some (.str method)) :
    IsCall msg method ((lookup (Text.ofString "params") msg).getD .none) := by
  refine ⟨hversion, hmethod, ?_⟩
  cases lookup (Text.ofString "params") msg with
  | none => exact .inr ⟨rfl, rfl⟩
  | some params => exact .inl rfl

theorem IsCall.getD_params {msg : Table} (h : IsCall msg method params) :
    (lookup (Text.ofString "params") msg).getD .none = params := by
  rcases h.params with hparams | ⟨hparams, rfl⟩
  · rw [hparams, Option.getD_some]
  · rw [hparams, Option.getD_none]

theorem decodeRequest_of_isRequest (h : IsRequest stack body method params requestId) :
    decodeRequest stack body = .ok (method, params, requestId) := by
  obtain ⟨text, msg, htext, hloads, hcall, hid⟩ := h
  rw [decodeRequest, decodeMessage_of_dict htext hloads hcall.version, ok_bind, hcall.method, hid]
  dsimp only
  rw [hcall.getD_params]
  rfl

theorem decodeRequest_of_noRequest {message : String} (h : NoRequest stack body message) :
    decodeRequest stack body = .error (invalidEnvelopeError message) := by
  cases h with
  | undecodable hnot =>
    have hutf8 : decodeUtf8 body = .error .unicodeDecodeError := by
      unfold decodeUtf8
      split
      · rename_i text htext
        exact absurd (by rw [decodeUtf8, htext]) (hnot text)
      · rfl
    have hload : loadBody stack body = .error (invalidEnvelopeError "invalid JSON-RPC body") := by rw [loadBody, hutf8, error_bind]
    rw [decodeRequest, decodeMessage, hload]
    rfl
  | unparsable htext hloads =>
    have hload : loadBody stack body = .error (invalidEnvelopeError "invalid JSON-RPC body") := by
      rw [loadBody, htext, ok_bind, hloads]
    rw [decodeRequest, decodeMessage, hload]
    rfl
  | unversioned htext hloads hnot =>
    rename_i text value
    have hload : loadBody stack body = .ok value := by rw [loadBody, htext, ok_bind, hloads]
    have hmessage : decodeMessage stack body = .error (invalidEnvelopeError "jsonrpc version must be 2.0") := by
      rw [decodeMessage, hload, ok_bind]
      split
      · rename_i msg
        split
        · rename_i version hversion
          have hne : version ≠ Text.ofString "2.0" := by
            rintro rfl
            exact hnot msg rfl hversion
          rw [raiseIf_of hne]
          rfl
        · rfl
      · rfl
    rw [decodeRequest, hmessage]
    rfl
  | uncalled htext hloads hversion hnot =>
    rw [decodeRequest, decodeMessage_of_dict htext hloads hversion, ok_bind]
    split
    · rename_i method requestId hmethod hid
      exact absurd hid (hnot method requestId hmethod)
    · rfl

theorem decodeRequest_of_unloadable (h : Unloadable stack body) : ∃ e, decodeRequest stack body = .error e ∧ Coarse e := by
  obtain ⟨text, e, htext, hloads, hjson⟩ := h
  have hread := Json.raises_loads stack text e hloads
  have hmessage := decodeMessage_of_loads htext hloads hjson hread.foreign.1
  exact ⟨e, by rw [decodeRequest, hmessage, error_bind], coarse_of_conversionError (.read hread)⟩

/-- A body is a request, or is none, or cannot be loaded. -/
theorem request_cases (stack : Nat) (body : Bytes) : (∃ method params requestId, IsRequest stack body method params requestId) ∨
    (∃ message, NoRequest stack body message) ∨ Unloadable stack body := by
  rcases ok_or_error (decodeUtf8 body) with ⟨text, htext⟩ | ⟨e, he⟩
  · rcases ok_or_error (Json.loads stack text) with ⟨value, hloads⟩ | ⟨e, hloads⟩
    · by_cases hversion : ∃ msg, value = .dict msg ∧
          lookup (Text.ofString "jsonrpc") msg = some (.str (Text.ofString "2.0"))
      · obtain ⟨msg, rfl, hversion⟩ := hversion
        by_cases hcall : ∃ method requestId, lookup (Text.ofString "method") msg = some (.str method) ∧
            lookup (Text.ofString "id") msg = some (.str requestId)
        · obtain ⟨method, requestId, hmethod, hid⟩ := hcall
          exact .inl ⟨method, _, requestId, text, msg, htext, hloads, isCall_of_lookup hversion hmethod, hid⟩
        · refine .inr (.inl ⟨_, .uncalled htext hloads hversion ?_⟩)
          intro method requestId hmethod hid
          exact hcall ⟨method, requestId, hmethod, hid⟩
      · refine .inr (.inl ⟨_, .unversioned htext hloads ?_⟩)
        rintro msg rfl hlookup
        exact hversion ⟨msg, rfl, hlookup⟩
    · by_cases hjson : e = .jsonDecodeError
      · subst hjson
        exact .inr (.inl ⟨_, .unparsable htext hloads⟩)
      · exact .inr (.inr ⟨text, e, htext, hloads, hjson⟩)
  · refine .inr (.inl ⟨_, .undecodable ?_⟩)
    intro text htext
    rw [htext] at he
    cases he

end Decoding

/-! ## What the exceptions become -/

section Replies

variable {stack : Nat} {corr : Option Text} {e : Exc}

/-- At most one answer is due. -/
theorem Answers.unique {answer answer' : Answer} (h : Answers corr e answer) (h' : Answers corr e answer') : answer = answer' := by
  have hcoarse {error : RpcError} (h : Coarse (.rpcError error)) : False := h.2.1 ⟨error, rfl⟩
  cases h with
  | nacked =>
    cases h' with
    | nacked => rfl
    | coarse h => exact absurd rfl (h.1 _)
  | plain hdata =>
    cases h' with
    | plain => rfl
    | detailed hdata' =>
      rw [hdata] at hdata'
      cases hdata'
    | coarse h => exact (hcoarse h).elim
  | detailed hdata =>
    cases h' with
    | plain hdata' =>
      rw [hdata] at hdata'
      cases hdata'
    | detailed hdata' =>
      rw [hdata] at hdata'
      cases hdata'
      rfl
    | coarse h => exact (hcoarse h).elim
  | coarse h =>
    cases h' with
    | nacked => exact absurd rfl (h.1 _)
    | plain => exact (hcoarse h).elim
    | detailed => exact (hcoarse h).elim
    | coarse => rfl

theorem answers_rpcError (corr : Option Text) (code : Int) (message : String) (retryable : Bool) (c method : Option Text)
    (id : PyVal) : Answers corr (rpcError code message retryable c method id)
      (.reply (errorReply code (.str (Text.ofString message)) (makeErrorData code retryable c method) (replyId corr id))) := by
  have hallowed : allowlisted (makeErrorData code retryable c method) = makeErrorData code retryable c method :=
    allowlisted_allowlisted _
  have hanswers : Answers corr (rpcError code message retryable c method id) (.reply (errorReply code
      (.str (Text.ofString message)) (allowlisted (makeErrorData code retryable c method)) (replyId corr id))) := .detailed rfl
  rw [hallowed] at hanswers
  exact hanswers

theorem answers_noRequest (corr : Option Text) (message : String) :
    Answers corr (invalidEnvelopeError message) (.reply (noRequestReply corr message)) := by
  have hanswers := answers_rpcError corr invalidEnvelope message false none none .none
  rw [makeErrorData_eq] at hanswers
  exact hanswers

theorem answers_diverged (c method : Text) :
    Answers (some c) (rpcError invalidEnvelope "correlation_id / jsonrpc id diverge" false (some c) (some method) .none)
      (.reply (divergedReply c method)) := by
  have hanswers := answers_rpcError (some c) invalidEnvelope "correlation_id / jsonrpc id diverge" false (some c) (some method) .none
  rw [makeErrorData_eq] at hanswers
  exact hanswers

theorem encodeError_plain (code : Int) (message id : PyVal) :
    encodeError stack code message id .none = (do encodeUtf8 (← Json.dumps stack (errorReply code message [] id))) := rfl

theorem encodeError_detailed (code : Int) (message id : PyVal) (data : Table) :
    encodeError stack code message id (.dict data) =
      (do encodeUtf8 (← Json.dumps stack (errorReply code message (allowlisted data) id))) := by
  rw [encodeError, errorObject, allowlistErrorData, ok_bind]
  cases allowlisted data <;> rfl

theorem encodeError_internal (corr : Option Text) :
    encodeError stack serverError (.str (Text.ofString "internal error")) (replyId corr .none)
        (.dict (makeErrorData serverError false corr none)) =
      (do encodeUtf8 (← Json.dumps stack (internalReply corr))) := by
  have hallowed : allowlisted (makeErrorData serverError false corr none) = makeErrorData serverError false corr none :=
    allowlisted_allowlisted _
  rw [encodeError_detailed, hallowed, makeErrorData_eq]
  cases corr <;> rfl

theorem data_of_allowlisted {data cleaned : PyVal} (h : allowlistErrorData data = .ok cleaned) :
    data = .none ∨ ∃ entries, data = .dict entries := by
  unfold allowlistErrorData at h
  split at h
  · exact .inl rfl
  · exact .inr ⟨_, rfl⟩
  · cases h

/-- What the `except` clauses make of an exception is the text of its answer. -/
theorem replyBody_iff {out : Bytes} (hnack : ∀ requeue, e ≠ .nackDelivery requeue) :
    replyBody stack corr (.error e) = .ok out ↔ ∃ value, Answers corr e (.reply value) ∧ IsWritten stack out value := by
  constructor
  · intro h
    unfold replyBody at h
    split at h
    · contradiction
    · rename_i error heq
      cases heq
      obtain ⟨object, hobject, -⟩ := bind_eq_ok.mp h
      obtain ⟨cleaned, hcleaned, -⟩ := bind_eq_ok.mp hobject
      rcases data_of_allowlisted hcleaned with hdata | ⟨data, hdata⟩
      · rw [hdata, encodeError_plain] at h
        exact ⟨_, .plain hdata, h⟩
      · rw [hdata, encodeError_detailed] at h
        exact ⟨_, .detailed hdata, h⟩
    · contradiction
    · rename_i hrpc hcancelled heq
      cases heq
      refine ⟨internalReply corr, .coarse ⟨hnack, ?_, ?_⟩, ?_⟩
      · rintro ⟨error, rfl⟩
        exact hrpc error rfl
      · rintro rfl
        exact hcancelled rfl
      · rw [IsWritten, ← encodeError_internal]
        exact h
  · rintro ⟨value, hanswers, hwritten⟩
    cases hanswers with
    | plain hdata =>
      rename_i error
      rw [replyBody, hdata]
      exact hwritten
    | detailed hdata =>
      rename_i error data
      rw [replyBody, hdata, encodeError_detailed]
      exact hwritten
    | coarse hcoarse =>
      unfold replyBody
      split
      · contradiction
      · rename_i error heq
        cases heq
        exact (hcoarse.2.1 ⟨error, rfl⟩).elim
      · rename_i heq
        cases heq
        exact (hcoarse.2.2 rfl).elim
      · rename_i hrpc hcancelled heq
        rw [IsWritten, ← encodeError_internal] at hwritten
        exact hwritten

end Replies

/-! ## What the `try` comes to -/

/-- The answer that is due once the `try` has ended. -/
inductive Becomes (stack : Nat) (corr : Option Text) : Except Exc Bytes → Answer → Prop
  | returned {body : Bytes} {value : PyVal} (hwritten : IsWritten stack body value) : Becomes stack corr (.ok body) (.reply value)
  | raised {e : Exc} {answer : Answer} (hanswers : Answers corr e answer) : Becomes stack corr (.error e) answer

section Coming

variable {stack : Nat} {jwt : JwtDecode} {server : RpcServer} {round : Round} {method requestId : Text} {params : PyVal}
  {answer : Answer} {conn' : Conn} {s ended : Serving}

theorem checkIds_of_same {corr : Option Text} (h : ∀ c, corr = some c → c = requestId) (method : Text) :
    checkIds corr requestId method = .ok () := by
  cases corr with
  | none => rfl
  | some c => exact raiseIf_of_not (not_not.mpr (h c rfl))

theorem getD_corr (h : ∀ c, round.corr = some c → c = requestId) : round.corr.getD requestId = requestId := by
  cases hcorr : round.corr with
  | none => rfl
  | some c => exact h c hcorr

theorem accept_of_same (hrequest : IsRequest stack round.msg.body method params requestId)
    (hids : ∀ corr, round.corr = some corr → corr = requestId) :
    server.accept stack jwt round =
      (do server.checkClaims jwt method params requestId round.msg.properties
          return (method, params, requestId)) := by
  rw [RpcServer.accept, decodeRequest_of_isRequest hrequest, ok_bind]
  dsimp only
  rw [checkIds_of_same hids, ok_bind, getD_corr hids]

theorem accept_of_admitted (h : Admitted stack jwt server round method params requestId) :
    server.accept stack jwt round = .ok (method, params, requestId) := by
  rw [accept_of_same h.request h.ids, h.claims]
  rfl

theorem admitted_of_accept (h : server.accept stack jwt round = .ok (method, params, requestId)) :
    Admitted stack jwt server round method params requestId := by
  obtain ⟨hdecode, hids, u, hclaims⟩ := accept_returns h
  rcases request_cases stack round.msg.body with ⟨method', params', requestId', hrequest⟩ | ⟨message, hno⟩ | hunloadable
  · rw [decodeRequest_of_isRequest hrequest] at hdecode
    cases hdecode
    exact ⟨hrequest, hids, hclaims⟩
  · rw [decodeRequest_of_noRequest hno] at hdecode
    cases hdecode
  · obtain ⟨e, he, -⟩ := decodeRequest_of_unloadable hunloadable
    rw [he] at hdecode
    cases hdecode

theorem comes_of_accept_error {e : Exc} (h : server.accept stack jwt round = .error e) (hanswers : Answers round.corr e answer)
    (conn : Conn) : Comes stack jwt server round conn answer conn := by
  rcases request_cases stack round.msg.body with ⟨method, params, requestId, hrequest⟩ | ⟨message, hno⟩ | hunloadable
  · by_cases hids : ∀ corr, round.corr = some corr → corr = requestId
    · rw [accept_of_same hrequest hids] at h
      rcases bind_eq_error.mp h with hclaims | ⟨u, -, hreturn⟩
      · exact .refused hrequest hids hclaims hanswers
      · cases hreturn
    · obtain ⟨corr, hids⟩ := not_forall.mp hids
      obtain ⟨hcorr, hne⟩ := Classical.not_imp.mp hids
      rw [RpcServer.accept, decodeRequest_of_isRequest hrequest, ok_bind] at h
      dsimp only at h
      have hdiverge : checkIds (some corr) requestId method =
          .error (rpcError invalidEnvelope "correlation_id / jsonrpc id diverge" false (some corr) (some method) .none) :=
        raiseIf_of hne
      rw [hcorr, hdiverge, error_bind] at h
      cases h
      rw [hcorr] at hanswers
      rw [hanswers.unique (answers_diverged corr method)]
      exact .diverged hrequest hcorr hne
  · rw [RpcServer.accept, decodeRequest_of_noRequest hno] at h
    cases h
    rw [hanswers.unique (answers_noRequest round.corr message)]
    exact .noRequest hno
  · obtain ⟨e', he', hcoarse⟩ := decodeRequest_of_unloadable hunloadable
    rw [RpcServer.accept, he'] at h
    cases h
    rw [hanswers.unique (.coarse hcoarse)]
    exact .unloadable hunloadable

theorem respond_of_refused {e : Exc} (h : server.accept stack jwt round = .error e) (s : Serving) :
    server.respond stack jwt round s = .error e s := by
  rw [RpcServer.respond, h]
  rfl

theorem callHandler_of_error {e : Exc} (h : round.handler method params s.conn = .error e conn') :
    callHandler round method params s = .error e { conn := conn', invoked := s.invoked ++ [(method, params)] } := by
  rw [callHandler, bind_run_ok (modify_run _ s), onConn, h]

theorem callHandler_of_ok {result : PyVal} (h : round.handler method params s.conn = .ok result conn') :
    callHandler round method params s = .ok result { conn := conn', invoked := s.invoked ++ [(method, params)] } := by
  rw [callHandler, bind_run_ok (modify_run _ s), onConn, h]

theorem respond_of_raised {e : Exc} (haccept : server.accept stack jwt round = .ok (method, params, requestId))
    (h : round.handler method params s.conn = .error e conn') : server.respond stack jwt round s =
      .error e { conn := conn', invoked := s.invoked ++ [(method, params)] } := by
  rw [RpcServer.respond, haccept, bind_run_ok (lift_ok _ s)]
  exact bind_run_error (callHandler_of_error h)

theorem respond_of_returned {result : PyVal} (haccept : server.accept stack jwt round = .ok (method, params, requestId))
    (h : round.handler method params s.conn = .ok result conn') : server.respond stack jwt round s =
      lift (encodeResult stack result (.str requestId)) { conn := conn', invoked := s.invoked ++ [(method, params)] } := by
  rw [RpcServer.respond, haccept, bind_run_ok (lift_ok _ s)]
  exact bind_run_ok (callHandler_of_ok h)

/-- The `try` comes to what is to be answered. -/
theorem observe_of_comes (h : Comes stack jwt server round s.conn answer conn') : ∃ outcome ended,
    observe (server.respond stack jwt round) s = .ok outcome ended ∧ ended.conn = conn' ∧
      Becomes stack round.corr outcome answer := by
  have hrefused {e : Exc} {answer : Answer} (haccept : server.accept stack jwt round = .error e)
      (hanswers : Answers round.corr e answer) : ∃ outcome ended,
        observe (server.respond stack jwt round) s = .ok outcome ended ∧ ended.conn = s.conn ∧
          Becomes stack round.corr outcome answer :=
    ⟨.error e, s, observe_of_error (respond_of_refused haccept s), rfl, .raised hanswers⟩
  cases h with
  | noRequest hbody =>
    refine hrefused ?_ (answers_noRequest round.corr _)
    rw [RpcServer.accept, decodeRequest_of_noRequest hbody, error_bind]
  | unloadable hbody =>
    obtain ⟨e, he, hcoarse⟩ := decodeRequest_of_unloadable hbody
    refine hrefused ?_ (.coarse hcoarse)
    rw [RpcServer.accept, he, error_bind]
  | diverged hrequest hcorr hne =>
    rename_i method requestId corr params
    have hanswers := answers_diverged corr method
    rw [← hcorr] at hanswers
    refine hrefused ?_ hanswers
    rw [RpcServer.accept, decodeRequest_of_isRequest hrequest, ok_bind]
    dsimp only
    rw [hcorr, checkIds, raiseIf_of hne, error_bind]
  | refused hrequest hids hclaims hanswer =>
    refine hrefused ?_ hanswer
    rw [accept_of_same hrequest hids, hclaims, error_bind]
  | raised hadmitted hhandler hanswer =>
    exact ⟨_, _, observe_of_error (respond_of_raised (accept_of_admitted hadmitted) hhandler), rfl, .raised hanswer⟩
  | unwritable hadmitted hhandler hnot =>
    rename_i method requestId params result
    have hrespond := respond_of_returned (accept_of_admitted hadmitted) hhandler
    rcases ok_or_error (encodeResult stack result (.str requestId)) with ⟨body, hbody⟩ | ⟨e, he⟩
    · exact absurd ((Json.encodes_iff _).mpr ⟨body, hbody⟩) hnot
    · rw [he, lift_error] at hrespond
      exact ⟨_, _, observe_of_error hrespond, rfl, .raised (.coarse (raises_encodeObject stack _ e he))⟩
  | returned hadmitted hhandler hencodes =>
    have hrespond := respond_of_returned (accept_of_admitted hadmitted) hhandler
    obtain ⟨body, hbody⟩ := (Json.encodes_iff _).mp hencodes
    have hresult := hbody
    rw [resultReply, ← encodeObject, ← encodeResult] at hresult
    rw [hresult, lift_ok] at hrespond
    exact ⟨_, _, observe_of_ok hrespond, rfl, .returned hbody⟩

theorem comes_of_raised {e : Exc} (h : server.respond stack jwt round s = .error e ended) (hanswers : Answers round.corr e answer) :
    Comes stack jwt server round s.conn answer ended.conn := by
  rcases ok_or_error (server.accept stack jwt round) with ⟨⟨method, params, requestId⟩, haccept⟩ | ⟨e', haccept⟩
  · have hadmitted := admitted_of_accept haccept
    cases hhandler : round.handler method params s.conn with
    | error e' conn' =>
      rw [respond_of_raised haccept hhandler] at h
      cases h
      exact .raised hadmitted hhandler hanswers
    | ok result conn' =>
      rw [respond_of_returned haccept hhandler] at h
      rcases ok_or_error (encodeResult stack result (.str requestId)) with ⟨body, hbody⟩ | ⟨e', he⟩
      · rw [hbody, lift_ok] at h
        cases h
      · rw [he, lift_error] at h
        cases h
        rw [hanswers.unique (.coarse (raises_encodeObject stack _ _ he))]
        refine .unwritable hadmitted hhandler ?_
        intro hencodes
        obtain ⟨body, hbody⟩ := (Json.encodes_iff _).mp hencodes
        rw [resultReply, ← encodeObject, ← encodeResult, he] at hbody
        cases hbody
  · rw [respond_of_refused haccept s] at h
    cases h
    exact comes_of_accept_error haccept hanswers s.conn

theorem comes_of_returned {body : Bytes} (h : server.respond stack jwt round s = .ok body ended) : ∃ value,
    Comes stack jwt server round s.conn (.reply value) ended.conn ∧ IsWritten stack body value := by
  rcases ok_or_error (server.accept stack jwt round) with ⟨⟨method, params, requestId⟩, haccept⟩ | ⟨e', haccept⟩
  · have hadmitted := admitted_of_accept haccept
    cases hhandler : round.handler method params s.conn with
    | error e' conn' =>
      rw [respond_of_raised haccept hhandler] at h
      cases h
    | ok result conn' =>
      rw [respond_of_returned haccept hhandler] at h
      obtain ⟨hbody, rfl⟩ := lift_returns.mp h
      exact ⟨_, .returned hadmitted hhandler ((Json.encodes_iff _).mpr ⟨body, hbody⟩), hbody⟩
  · rw [respond_of_refused haccept s] at h
    cases h

end Coming

end Nuropb.Patterns
