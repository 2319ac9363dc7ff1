import Nuropb.Patterns.Envelope
import Nuropb.Python.JsonValues

/-! # What the decoders raise

A body that cannot be read becomes an RPC error, and so does a response that brings an error. Its code is converted on
the way, which may raise on its own; its message is too, but what has been read has a text.
-/
namespace Nuropb.Patterns

open Library

def IsRpcError (e : Exc) : Prop := ∃ error, e = .rpcError error

instance IsRpcError.instDecidablePred : DecidablePred IsRpcError := fun e =>
  match e with
  | .rpcError error => .isTrue ⟨error, rfl⟩
  | .protocolError _ | .connectionLost _ | .connectionBlocked _ | .publishNack .. | .publishReturned _
  | .amqpCodecError _ | .nackDelivery _ | .unicodeEncodeError | .unicodeDecodeError | .jsonDecodeError | .overflowError
  | .valueError _ | .typeError | .attributeError | .indexError | .keyError | .decimalError | .runtimeError _
  | .timeoutError | .cancelledError | .osError | .other _ => .isFalse (by rintro ⟨error, ⟨⟩⟩)

/-- The data of the error holds only allowed keys. -/
def AllowedData (error : RpcError) : Prop :=
  error.data = .none ∨ ∃ entries, error.data = .dict entries ∧ ∀ entry ∈ entries, entry.1 ∈ allowedDataKeys

/-- `json.loads` of the body returns, or raises `JSONDecodeError`. -/
def LoadsWell (stack : Nat) (body : Bytes) : Prop :=
  ∀ text, decodeUtf8 body = .ok text → Raises (· = .jsonDecodeError) (Json.loads stack text)

/-- A response that brings an error and no result. -/
def BringsError (stack : Nat) (body : Bytes) (error : Table) : Prop :=
  ∃ text msg, decodeUtf8 body = .ok text ∧ Json.loads stack text = .ok (.dict msg) ∧
    lookup (Text.ofString "jsonrpc") msg = some (.str (Text.ofString "2.0")) ∧
    lookup (Text.ofString "result") msg = none ∧ lookup (Text.ofString "error") msg = some (.dict error)

/-- `int` takes the code of the error object, or what stands in for it. -/
def Converts (builtins : Builtins) (error : Table) : Prop :=
  builtins.Integral ((lookup (Text.ofString "code") error).getD (.int serverError))

/-- The decoders return or raise an RPC error. -/
structure DecodesWell (builtins : Builtins) (stack : Nat) (body : Bytes) : Prop where
  request : Raises IsRpcError (decodeRequest stack body)
  notification : Raises IsRpcError (decodeNotification stack body)
  response : Raises IsRpcError (decodeResponse builtins stack body)

/-! ## Reading a message -/

section Reading

variable {stack : Nat} {body : Bytes}

theorem isRpcError_invalidEnvelope (message : String) : IsRpcError (invalidEnvelopeError message) := ⟨_, rfl⟩

theorem raises_loadBody (hwell : LoadsWell stack body) : Raises IsRpcError (loadBody stack body) := by
  intro e he
  unfold loadBody at he
  split at he
  · cases he
    exact isRpcError_invalidEnvelope _
  · cases he
    exact isRpcError_invalidEnvelope _
  · rename_i hunicode hjson
    rcases bind_eq_error.mp he with hutf8 | ⟨text, htext, hloads⟩
    · unfold decodeUtf8 at hutf8
      split at hutf8
      · cases hutf8
      · cases hutf8
        exact absurd he hunicode
    · obtain rfl := hwell text htext e hloads
      exact absurd he hjson

theorem raises_decodeMessage (hwell : LoadsWell stack body) : Raises IsRpcError (decodeMessage stack body) := by
  refine raises_bind (raises_loadBody hwell) fun value _ => ?_
  split
  · split
    · refine raises_bind (raises_raiseIf (isRpcError_invalidEnvelope _)) ?_
      rintro u -
      exact raises_ok _
    · exact raises_error (isRpcError_invalidEnvelope _)
  · exact raises_error (isRpcError_invalidEnvelope _)

/-- What is raised while the body is loaded is passed on, unless it is one of the two that are caught. -/
theorem decodeMessage_of_loads {text : Text} {e : Exc} (htext : decodeUtf8 body = .ok text)
    (hloads : Json.loads stack text = .error e) (hjson : e ≠ .jsonDecodeError) (hunicode : e ≠ .unicodeDecodeError) :
    decodeMessage stack body = .error e := by
  have hload : loadBody stack body = .error e := by
    unfold loadBody
    rw [htext, ok_bind, hloads]
    split
    · rename_i heq
      cases heq
      exact absurd rfl hunicode
    · rename_i heq
      cases heq
      exact absurd rfl hjson
    · rfl
  rw [decodeMessage, hload]
  rfl

theorem loadsWell_of_raises (h : Raises IsRpcError (decodeMessage stack body)) : LoadsWell stack body := by
  intro text htext e hloads
  obtain ⟨hunicode, hforeign⟩ := (Json.raises_loads stack text e hloads).foreign
  by_contra hjson
  obtain ⟨error, rfl⟩ := h e (decodeMessage_of_loads htext hloads hjson hunicode)
  exact hforeign error rfl

theorem raises_decodeRequest (hwell : LoadsWell stack body) : Raises IsRpcError (decodeRequest stack body) := by
  refine raises_bind (raises_decodeMessage hwell) fun msg _ => ?_
  split
  · exact raises_ok _
  · exact raises_error (isRpcError_invalidEnvelope _)

theorem raises_decodeNotification (hwell : LoadsWell stack body) :
    Raises IsRpcError (decodeNotification stack body) := by
  refine raises_bind (raises_decodeMessage hwell) fun msg _ => ?_
  refine raises_bind (raises_raiseIf (isRpcError_invalidEnvelope _)) ?_
  rintro u -
  refine raises_bind (raises_raiseIf (isRpcError_invalidEnvelope _)) ?_
  rintro u -
  split
  · exact raises_ok _
  · exact raises_error (isRpcError_invalidEnvelope _)

end Reading

/-! ## The error of a response -/

section Converting

variable {builtins : Builtins} {stack : Nat} {body : Bytes} {rid : Option Text} {error : Table}

theorem responseError_eq_ok (rid : Option Text) {code : Int} {message : Text}
    (hcode : builtins.int ((lookup (Text.ofString "code") error).getD (.int serverError)) = .ok code)
    (hmessage : builtins.str stack ((lookup (Text.ofString "message") error).getD (.str (Text.ofString "error"))) =
      .ok message) :
    ∃ raised, responseError builtins stack rid error = .ok raised ∧ AllowedData raised := by
  unfold responseError
  rw [hcode, ok_bind, hmessage, ok_bind]
  split
  · rename_i data _
    refine ⟨_, rfl, .inr ⟨allowlisted data, rfl, ?_⟩⟩
    intro entry hentry
    exact mem_allowedDataKeys_of_allowlisted hentry
  · exact ⟨_, rfl, .inl rfl⟩

theorem foreign_responseError : Raises Foreign (responseError builtins stack rid error) := by
  refine raises_bind ((builtins.raises_int _).mono fun e he => he.foreign) fun code hcode => ?_
  refine raises_bind ((builtins.raises_str stack _).mono fun e he => he.foreign) fun message hmessage => ?_
  split
  · exact raises_ok _
  · exact raises_ok _

theorem converts_of_responseError {raised : RpcError} (h : responseError builtins stack rid error = .ok raised) :
    Converts builtins error := by
  obtain ⟨code, hcode, -⟩ := bind_eq_ok.mp h
  exact (builtins.int_iff _).mp ⟨code, hcode⟩

/-- The message of an error that has been read has a text. -/
theorem message_of_brings (builtins : Builtins) (h : BringsError stack body error) : ∃ t,
    builtins.str stack ((lookup (Text.ofString "message") error).getD (.str (Text.ofString "error"))) = .ok t := by
  obtain ⟨text, msg, -, hloads, -, -, herror⟩ := h
  have hread : Json.Loaded stack (.dict error) := Json.loaded_lookup (Json.loaded_of_loads hloads) herror
  cases hmessage : lookup (Text.ofString "message") error with
  | none => exact ⟨_, rfl⟩
  | some message => exact builtins.str_of_loaded (Json.loaded_lookup hread hmessage)

theorem decodeMessage_eq_ok {msg : Table} (h : decodeMessage stack body = .ok msg) :
    ∃ text, decodeUtf8 body = .ok text ∧ Json.loads stack text = .ok (.dict msg) ∧
      lookup (Text.ofString "jsonrpc") msg = some (.str (Text.ofString "2.0")) := by
  obtain ⟨value, hload, h⟩ := bind_eq_ok.mp h
  have hloads : (do Json.loads stack (← decodeUtf8 body) : Except Exc PyVal) = .ok value := by
    unfold loadBody at hload
    split at hload
    · contradiction
    · contradiction
    · exact hload
  obtain ⟨text, htext, hloads⟩ := bind_eq_ok.mp hloads
  split at h
  · split at h
    · rename_i hversion
      obtain ⟨u, hraise, h⟩ := bind_eq_ok.mp h
      cases h
      have hequal := Decidable.not_not.mp (raiseIf_eq_ok.mp hraise)
      exact ⟨text, htext, hloads, by rw [hversion, hequal]⟩
    · contradiction
  · contradiction

theorem decodeMessage_of_dict {text : Text} {msg : Table} (htext : decodeUtf8 body = .ok text)
    (hloads : Json.loads stack text = .ok (.dict msg))
    (hversion : lookup (Text.ofString "jsonrpc") msg = some (.str (Text.ofString "2.0"))) :
    decodeMessage stack body = .ok msg := by
  have hload : loadBody stack body = .ok (.dict msg) := by
    unfold loadBody
    rw [htext, ok_bind, hloads]
  rw [decodeMessage, hload, ok_bind]
  dsimp only
  rw [hversion]
  dsimp only
  rw [raiseIf_of_not (by simp)]
  rfl

theorem raises_decodeResponse (hwell : LoadsWell stack body)
    (hconverts : ∀ error, BringsError stack body error → Converts builtins error) :
    Raises IsRpcError (decodeResponse builtins stack body) := by
  refine raises_bind (raises_decodeMessage hwell) fun msg hmsg => ?_
  split
  · exact raises_ok _
  · rename_i error hresult herror
    obtain ⟨text, htext, hloads, hversion⟩ := decodeMessage_eq_ok hmsg
    have hbrings : BringsError stack body error := ⟨text, msg, htext, hloads, hversion, hresult, herror⟩
    obtain ⟨code, hcode⟩ := (builtins.int_iff _).mpr (hconverts error hbrings)
    obtain ⟨message, hmessage⟩ := message_of_brings builtins hbrings
    obtain ⟨raised, hraised, -⟩ := responseError_eq_ok (responseId msg) hcode hmessage
    rw [hraised, ok_bind]
    exact raises_error ⟨raised, rfl⟩
  · exact raises_error ⟨_, rfl⟩

theorem converts_of_decodeResponse (h : Raises IsRpcError (decodeResponse builtins stack body))
    (hbrings : BringsError stack body error) : Converts builtins error := by
  obtain ⟨text, msg, htext, hloads, hversion, hresult, herror⟩ := hbrings
  unfold decodeResponse at h
  rw [decodeMessage_of_dict htext hloads hversion, ok_bind, hresult, herror] at h
  dsimp only at h
  rcases ok_or_error (responseError builtins stack (responseId msg) error) with ⟨raised, hraised⟩ | ⟨e, he⟩
  · exact converts_of_responseError hraised
  · obtain ⟨raised, rfl⟩ := h e (by rw [he, error_bind])
    exact absurd rfl ((foreign_responseError (.rpcError raised) he).2 raised)

/-- With a body that JSON can read the decoders raise an RPC error at most, unless the code of the error that a response
brings does not convert. -/
theorem decodesWell_iff_converts (builtins : Builtins) (stack : Nat) (body : Bytes) :
    DecodesWell builtins stack body ↔
      LoadsWell stack body ∧ ∀ error, BringsError stack body error → Converts builtins error := by
  constructor
  · rintro ⟨hrequest, -, hresponse⟩
    constructor
    · apply loadsWell_of_raises
      intro e he
      exact hrequest e (bind_eq_error.mpr (.inl he))
    · intro error hbrings
      exact converts_of_decodeResponse hresponse hbrings
  · rintro ⟨hloads, hconverts⟩
    exact ⟨raises_decodeRequest hloads, raises_decodeNotification hloads, raises_decodeResponse hloads hconverts⟩

end Converting

/-- An error whose code is null. -/
def nullCode : Bytes := "\x7b\"jsonrpc\":\"2.0\",\"error\":\x7b\"code\":null\x7d\x7d".toUTF8.toList

theorem nullCode_not_decodesWell : LoadsWell 100 nullCode ∧ ¬DecodesWell Builtins.ascii 100 nullCode := by
  constructor
  · have hloads : (do Json.loads 100 (← decodeUtf8 nullCode) : Except Exc PyVal).isOk = true := by decide +kernel
    intro text htext e he
    rw [htext, ok_bind, he] at hloads
    contradiction
  · rintro ⟨-, -, hresponse⟩
    revert hresponse
    decide +kernel

end Nuropb.Patterns
