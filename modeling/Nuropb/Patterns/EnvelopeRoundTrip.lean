import Nuropb.Patterns.Envelope
import Nuropb.Python.JsonText

/-! # An envelope reads as what was put into it

What one side encodes the other side decodes. A value arrives as JSON has it, and is encoded again as it was.
-/
namespace Nuropb.Patterns

open Library

variable {stack : Nat} {body : Bytes}

theorem loadBody_encodeObject {entries : Table} (h : encodeObject stack entries = .ok body)
    (hkeyed : Json.keyed (.dict entries) = true) : loadBody stack body = .ok (.dict (Json.readEntries entries)) := by
  obtain ⟨text, htext, hbody⟩ := bind_eq_ok.mp h
  have hloads := Json.loads_dumps htext hkeyed
  rw [loadBody, decodeUtf8_of_encodeUtf8 hbody, ok_bind, hloads]
  rfl

/-- An object of this protocol is a message. -/
theorem decodeMessage_encodeObject {entries : Table}
    (h : encodeObject stack ((Text.ofString "jsonrpc", .str (Text.ofString "2.0")) :: entries) = .ok body)
    (hkeyed : Json.keyed (.dict ((Text.ofString "jsonrpc", .str (Text.ofString "2.0")) :: entries)) = true) :
    decodeMessage stack body =
      .ok ((Text.ofString "jsonrpc", .str (Text.ofString "2.0")) :: Json.readEntries entries) := by
  rw [decodeMessage, loadBody_encodeObject h hkeyed]
  rfl

/-- What has arrived is encoded as it was sent. -/
theorem encodeObject_readEntries (entries : Table) :
    encodeObject stack (Json.readEntries entries) = encodeObject stack entries := by
  have hdumps : Json.dumps stack (.dict (Json.readEntries entries)) = Json.dumps stack (.dict entries) :=
    Json.dumpValue_readBack (.dict entries)
  rw [encodeObject, hdumps]
  rfl

theorem decodeRequest_encoded {method requestId : Text} {params : PyVal}
    (h : encodeRequest stack method params requestId = .ok body) (hkeyed : Json.keyed params = true) :
    decodeRequest stack body = .ok (method, Json.readBack params, requestId) := by
  rw [decodeRequest, decodeMessage_encodeObject h]
  · rfl
  · simp [Json.keyed, Json.keyedEntries, hkeyed]
    decide

/-- A request arrives with its method and id, and with its params as JSON has them; sent on, it is the same bytes. -/
theorem request_roundTrip {method requestId : Text} {params : PyVal} (h : encodeRequest stack method params requestId = .ok body)
    (hkeyed : Json.keyed params = true) :
    decodeRequest stack body = .ok (method, Json.readBack params, requestId) ∧
      encodeRequest stack method (Json.readBack params) requestId = .ok body :=
  ⟨decodeRequest_encoded h hkeyed, (encodeObject_readEntries _).trans h⟩

theorem keyed_params {method : Text} {params : PyVal} (hkeyed : Json.keyed params = true) :
    Json.keyed (.dict [(Text.ofString "jsonrpc", .str (Text.ofString "2.0")), (Text.ofString "method", .str method),
      (Text.ofString "params", params)]) = true := by
  simp [Json.keyed, Json.keyedEntries, hkeyed]
  decide

/-- A tuple in the params arrives as a list. -/
theorem params_roundTrip : ∃ body,
    encodeRequest 10 (Text.ofString "orders.price") (.dict [(Text.ofString "vat", .float 0x3fb999999999999a),
      (Text.ofString "ids", .tuple [.int (-7), .str (Text.ofString "a\n")])]) (Text.ofString "r") = .ok body ∧
    decodeRequest 10 body = .ok (Text.ofString "orders.price", .dict [(Text.ofString "vat", .float 0x3fb999999999999a),
      (Text.ofString "ids", .list [.int (-7), .str (Text.ofString "a\n")])], Text.ofString "r") := by
  have hencodes : (encodeRequest 10 (Text.ofString "orders.price") (.dict [(Text.ofString "vat", .float 0x3fb999999999999a),
      (Text.ofString "ids", .tuple [.int (-7), .str (Text.ofString "a\n")])]) (Text.ofString "r")).toOption.isSome = true := rfl
  obtain ⟨body, hbody⟩ := Option.isSome_iff_exists.mp hencodes
  rw [toOption_eq_some] at hbody
  exact ⟨body, hbody, (request_roundTrip hbody (by decide)).1⟩

/-- A notification arrives with its method, and with its params as JSON has them. -/
theorem notification_roundTrip {method : Text} {params : PyVal} (h : encodeNotification stack method params = .ok body)
    (hkeyed : Json.keyed params = true) :
    decodeNotification stack body = .ok (method, Json.readBack params) ∧
      encodeNotification stack method (Json.readBack params) = .ok body := by
  unfold encodeNotification at h
  dsimp only at h
  split at h
  · refine ⟨?_, h⟩
    rw [decodeNotification, decodeMessage_encodeObject h rfl]
    rfl
  · rename_i hgiven
    refine ⟨?_, ?_⟩
    · rw [decodeNotification, decodeMessage_encodeObject h (keyed_params hkeyed)]
      rfl
    · rw [← h, List.cons_append, List.singleton_append]
      have hread := @encodeObject_readEntries stack [(Text.ofString "jsonrpc", .str (Text.ofString "2.0")),
        (Text.ofString "method", .str method), (Text.ofString "params", params)]
      rw [← hread]
      cases params with
      | none => exact absurd rfl hgiven
      | _ => rfl

theorem heartbeat_roundTrip : ∃ body, encodeNotification 10 (Text.ofString "heartbeat") .none = .ok body ∧
    decodeNotification 10 body = .ok (Text.ofString "heartbeat", .none) := by
  have hencodes : (encodeNotification 10 (Text.ofString "heartbeat") .none).toOption.isSome = true := rfl
  obtain ⟨body, hbody⟩ := Option.isSome_iff_exists.mp hencodes
  rw [toOption_eq_some] at hbody
  exact ⟨body, hbody, (notification_roundTrip hbody rfl).1⟩

theorem decodeResponse_encoded (builtins : Builtins) {result requestId : PyVal}
    (h : encodeResult stack result requestId = .ok body) (hresult : Json.keyed result = true)
    (hid : Json.keyed requestId = true) : decodeResponse builtins stack body = .ok (Json.readBack result) := by
  rw [decodeResponse, decodeMessage_encodeObject h]
  · rfl
  · simp [Json.keyed, Json.keyedEntries, hresult, hid]
    decide

theorem readEntries_allowlisted (data : Table) :
    Json.readEntries (allowlisted data) = allowlisted (Json.readEntries data) := by
  induction data with
  | nil => rfl
  | cons entry data ih =>
    obtain ⟨key, value⟩ := entry
    by_cases hkey : key ∈ allowedDataKeys
    · rw [allowlisted, Json.readEntries, allowlisted, List.filter_cons_of_pos (by simpa using hkey),
        List.filter_cons_of_pos (by simpa using hkey), Json.readEntries]
      exact congrArg _ ih
    · rw [allowlisted, Json.readEntries, allowlisted, List.filter_cons_of_neg (by simpa using hkey),
        List.filter_cons_of_neg (by simpa using hkey)]
      exact ih

theorem keyedEntries_allowlisted {data : Table} (h : Json.keyedEntries data = true) :
    Json.keyedEntries (allowlisted data) = true := by
  induction data with
  | nil => rfl
  | cons entry data ih =>
    obtain ⟨hvalue, hdata⟩ := Bool.and_eq_true_iff.mp h
    have htail : Json.keyedEntries (data.filter fun entry => entry.1 ∈ allowedDataKeys) = true := ih hdata
    rw [allowlisted, List.filter_cons]
    split
    · exact Bool.and_eq_true_iff.mpr ⟨hvalue, htail⟩
    · exact htail

theorem keyed_allowlisted {data : Table} (h : Json.keyed (.dict data) = true) :
    Json.keyed (.dict (allowlisted data)) = true := by
  obtain ⟨hkeys, hvalues⟩ := Bool.and_eq_true_iff.mp h
  exact Json.keyed_dict ((of_decide_eq_true hkeys).sublist (List.filter_sublist.map _)) (keyedEntries_allowlisted hvalues)

/-- The data of an error that arrives: none when all of it is left out. -/
def arrivedData : PyVal → PyVal
  | .dict data =>
    match allowlisted data with
    | [] => .none
    | data => .dict (Json.readEntries data)
  | _ => .none

theorem keyed_error {error : Table} {requestId : Option Text} (h : Json.keyed (.dict error) = true) :
    Json.keyed (.dict [(Text.ofString "jsonrpc", .str (Text.ofString "2.0")), (Text.ofString "error", .dict error),
      (Text.ofString "id", (requestId.map .str).getD .none)]) = true := by
  have hid : Json.keyed ((requestId.map .str).getD .none) = true := by cases requestId <;> rfl
  have hkeys : [Text.ofString "jsonrpc", Text.ofString "error", Text.ofString "id"].Nodup := by decide
  refine Json.keyed_dict hkeys ?_
  rw [Json.keyedEntries, Json.keyedEntries, Json.keyedEntries, hid, h]
  rfl

theorem decodeResponse_error (builtins : Builtins) {error : Table} {requestId : Option Text}
    (h : encodeObject stack [(Text.ofString "jsonrpc", .str (Text.ofString "2.0")), (Text.ofString "error", .dict error),
      (Text.ofString "id", (requestId.map .str).getD .none)] = .ok body) (hkeyed : Json.keyed (.dict error) = true) :
    decodeResponse builtins stack body = (do
      let error ← responseError builtins stack requestId (Json.readEntries error)
      .error (.rpcError error)) := by
  rw [decodeResponse, decodeMessage_encodeObject h (keyed_error hkeyed)]
  cases requestId <;> rfl

theorem errorObject_of_nil {code : Int} {message : PyVal} {data : Table} (h : allowlisted data = []) :
    errorObject code message (.dict data) = errorObject code message .none := by
  rw [errorObject, allowlistErrorData, h]
  rfl

theorem errorObject_of_cons {code : Int} {message : PyVal} {data : Table} {entry : Text × PyVal} {entries : Table}
    (h : allowlisted data = entry :: entries) :
    errorObject code message (.dict data) = .ok ([(Text.ofString "code", .int code), (Text.ofString "message", message)] ++
      [(Text.ofString "data", .dict (entry :: entries))]) := by
  rw [errorObject, allowlistErrorData, h]
  rfl

theorem decodeResponse_encodedError (builtins : Builtins) {code : Int} {message : Text} {requestId : Option Text} {data : PyVal}
    (h : encodeError stack code (.str message) ((requestId.map .str).getD .none) data = .ok body)
    (hkeyed : Json.keyed data = true) :
    decodeResponse builtins stack body = .error (.rpcError
      { code, message := .str message, data := arrivedData data, id := (requestId.map .str).getD .none }) := by
  obtain ⟨error, herror, h⟩ := bind_eq_ok.mp h
  have hplain (h : encodeObject stack [(Text.ofString "jsonrpc", .str (Text.ofString "2.0")),
      (Text.ofString "error", .dict [(Text.ofString "code", .int code), (Text.ofString "message", .str message)]),
      (Text.ofString "id", (requestId.map .str).getD .none)] = .ok body) :
      decodeResponse builtins stack body = .error (.rpcError
        { code, message := .str message, data := .none, id := (requestId.map .str).getD .none }) := by
    rw [decodeResponse_error builtins h (by rfl)]
    rfl
  cases data with
  | none =>
    cases herror
    exact hplain h
  | dict data =>
    cases hentries : allowlisted data with
    | nil =>
      rw [errorObject_of_nil hentries] at herror
      cases herror
      rw [arrivedData, hentries]
      exact hplain h
    | cons entry entries =>
      rw [errorObject_of_cons hentries] at herror
      cases herror
      have hallowed := keyed_allowlisted hkeyed
      rw [hentries] at hallowed
      have hkeys : [Text.ofString "code", Text.ofString "message", Text.ofString "data"].Nodup := by decide
      have herror : Json.keyed (.dict ([(Text.ofString "code", .int code), (Text.ofString "message", .str message)] ++
          [(Text.ofString "data", .dict (entry :: entries))])) = true := by
        refine Json.keyed_dict hkeys ?_
        change (true && (true && (Json.keyed (.dict (entry :: entries)) && true))) = true
        rw [hallowed]
        rfl
      have hkept : allowlisted (Json.readEntries (entry :: entries)) = Json.readEntries (entry :: entries) := by
        rw [← hentries, ← readEntries_allowlisted, allowlisted_allowlisted]
      rw [decodeResponse_error builtins h herror, arrivedData, hentries]
      change (do
        let error : RpcError ← (do
          let data ← Except.ok (PyVal.dict (allowlisted (Json.readEntries (entry :: entries))))
          return { code, message := .str message, data, id := (requestId.map PyVal.str).getD .none })
        Except.error (Exc.rpcError error)) = _
      rw [hkept]
      rfl
  | _ => cases herror

theorem allowlisted_readEntries_allowlisted (data : Table) :
    allowlisted (Json.readEntries (allowlisted data)) = Json.readEntries (allowlisted data) := by
  rw [← readEntries_allowlisted, allowlisted_allowlisted]

/-- The error that arrives is encoded as the one that was sent. -/
theorem encodeError_arrivedData {code : Int} {message requestId data : PyVal}
    (h : encodeError stack code message requestId data = .ok body) :
    encodeError stack code message requestId (arrivedData data) = .ok body := by
  cases data with
  | none => exact h
  | dict data =>
    cases hentries : allowlisted data with
    | nil =>
      rw [arrivedData, hentries]
      rwa [encodeError, errorObject_of_nil hentries] at h
    | cons entry entries =>
      have hkept : allowlisted (Json.readEntries (entry :: entries)) = Json.readEntries (entry :: entries) := by
        rw [← hentries, allowlisted_readEntries_allowlisted]
      rw [arrivedData, hentries]
      rw [encodeError, errorObject_of_cons hentries, ok_bind] at h
      rw [encodeError, errorObject_of_cons hkept, ok_bind, ← encodeObject_readEntries]
      rw [← encodeObject_readEntries] at h
      rw [← h]
      simp only [Json.readEntries, Json.readBack, List.cons_append, List.nil_append, Json.readBack_readBack,
        Json.readEntries_readEntries]
  | _ => cases h

/-- An error arrives with its code, message and id, and with the data that is allowed; sent on, it is the same bytes. -/
theorem error_roundTrip (builtins : Builtins) {code : Int} {message : Text} {requestId : Option Text} {data : PyVal}
    (h : encodeError stack code (.str message) ((requestId.map .str).getD .none) data = .ok body)
    (hkeyed : Json.keyed data = true) :
    decodeResponse builtins stack body = .error (.rpcError
      { code, message := .str message, data := arrivedData data, id := (requestId.map .str).getD .none }) ∧
      encodeError stack code (.str message) ((requestId.map .str).getD .none) (arrivedData data) = .ok body :=
  ⟨decodeResponse_encodedError builtins h hkeyed, encodeError_arrivedData h⟩

/-- Of the data only what is allowed arrives. -/
theorem refusal_roundTrip : ∃ body,
    encodeError 10 unauthorized (.str (Text.ofString "no")) (.str (Text.ofString "r"))
      (.dict [(Text.ofString "retryable", .bool false), (Text.ofString "claims", .int 1)]) = .ok body ∧
    decodeResponse .ascii 10 body = .error (.rpcError
      { code := unauthorized, message := .str (Text.ofString "no"),
        data := .dict [(Text.ofString "retryable", .bool false)], id := .str (Text.ofString "r") }) := by
  have hencodes : (encodeError 10 unauthorized (.str (Text.ofString "no")) (.str (Text.ofString "r"))
      (.dict [(Text.ofString "retryable", .bool false), (Text.ofString "claims", .int 1)])).toOption.isSome = true := rfl
  obtain ⟨body, hbody⟩ := Option.isSome_iff_exists.mp hencodes
  rw [toOption_eq_some] at hbody
  have hid : PyVal.str (Text.ofString "r") = ((some (Text.ofString "r")).map PyVal.str).getD .none := rfl
  rw [hid] at hbody ⊢
  exact ⟨body, hbody, (error_roundTrip .ascii hbody (by decide)).1⟩

end Nuropb.Patterns
