import Nuropb.Patterns.Errors
import Nuropb.Python.Conversion

/-! # The JSON-RPC envelope -/
namespace Nuropb.Patterns

open Library

section Encoding

variable (stack : Nat)

def encodeObject (entries : Table) : Except Exc Bytes := do
  let text ← Json.dumps stack (.dict entries)
  encodeUtf8 text

def encodeRequest (method : Text) (params : PyVal) (requestId : Text) : Except Exc Bytes :=
  encodeObject stack
    [(Text.ofString "jsonrpc", .str (Text.ofString "2.0")), (Text.ofString "method", .str method),
      (Text.ofString "params", params), (Text.ofString "id", .str requestId)]

/-- A request without an id; params that are not given are left out. -/
def encodeNotification (method : Text) (params : PyVal) : Except Exc Bytes :=
  let msg := [(Text.ofString "jsonrpc", PyVal.str (Text.ofString "2.0")), (Text.ofString "method", .str method)]
  encodeObject stack <| match params with
    | .none => msg
    | params => msg ++ [(Text.ofString "params", params)]

def encodeResult (result requestId : PyVal) : Except Exc Bytes :=
  encodeObject stack
    [(Text.ofString "jsonrpc", .str (Text.ofString "2.0")), (Text.ofString "result", result),
      (Text.ofString "id", requestId)]

/-- The error object; data that is left empty is left out. -/
def errorObject (code : Int) (message data : PyVal) : Except Exc Table := do
  let cleaned ← allowlistErrorData data
  let error := [(Text.ofString "code", .int code), (Text.ofString "message", message)]
  match cleaned with
  | .dict (entry :: entries) => return error ++ [(Text.ofString "data", .dict (entry :: entries))]
  | _ => return error

def encodeError (code : Int) (message requestId data : PyVal) : Except Exc Bytes := do
  let error ← errorObject code message data
  encodeObject stack
    [(Text.ofString "jsonrpc", .str (Text.ofString "2.0")), (Text.ofString "error", .dict error),
      (Text.ofString "id", requestId)]

end Encoding

def invalidEnvelopeError (message : String) : Exc := rpcError invalidEnvelope message false none none .none

/-- `UnicodeDecodeError` and `JSONDecodeError` become an RPC error; anything else is let through. -/
def loadBody (stack : Nat) (body : Bytes) : Except Exc PyVal :=
  match (do Json.loads stack (← decodeUtf8 body) : Except Exc PyVal) with
  | .error .unicodeDecodeError | .error .jsonDecodeError => .error (invalidEnvelopeError "invalid JSON-RPC body")
  | loaded => loaded

def decodeMessage (stack : Nat) (body : Bytes) : Except Exc Table := do
  match ← loadBody stack body with
  | .dict msg =>
    match lookup (Text.ofString "jsonrpc") msg with
    | some (.str version) => do
      raiseIf (version ≠ Text.ofString "2.0") (invalidEnvelopeError "jsonrpc version must be 2.0")
      return msg
    | _ => .error (invalidEnvelopeError "jsonrpc version must be 2.0")
  | _ => .error (invalidEnvelopeError "jsonrpc version must be 2.0")

def decodeRequest (stack : Nat) (body : Bytes) : Except Exc (Text × PyVal × Text) := do
  let msg ← decodeMessage stack body
  match lookup (Text.ofString "method") msg, lookup (Text.ofString "id") msg with
  | some (.str method), some (.str requestId) =>
    return (method, (lookup (Text.ofString "params") msg).getD .none, requestId)
  | _, _ => .error (invalidEnvelopeError "request requires string method and id")

/-- Method and params of a notification, which is no response and has no id. -/
def decodeNotification (stack : Nat) (body : Bytes) : Except Exc (Text × PyVal) := do
  let msg ← decodeMessage stack body
  raiseIf (lookup (Text.ofString "result") msg ≠ none ∨ lookup (Text.ofString "error") msg ≠ none)
    (invalidEnvelopeError "notification must not be a response")
  raiseIf (lookup (Text.ofString "id") msg ≠ none) (invalidEnvelopeError "notification must not include id")
  match lookup (Text.ofString "method") msg with
  | some (.str method) => return (method, (lookup (Text.ofString "params") msg).getD .none)
  | _ => .error (invalidEnvelopeError "notification requires string method")

def responseId (msg : Table) : Option Text :=
  match lookup (Text.ofString "id") msg with
  | some (.str rid) => some rid
  | _ => none

def responseError (builtins : Builtins) (stack : Nat) (rid : Option Text) (error : Table) : Except Exc RpcError := do
  let code ← builtins.int ((lookup (Text.ofString "code") error).getD (.int serverError))
  let message ← builtins.str stack ((lookup (Text.ofString "message") error).getD (.str (Text.ofString "error")))
  let data ← allowlistErrorData (match lookup (Text.ofString "data") error with
    | some (.dict data) => .dict data
    | _ => .none)
  return { code, message := .str message, data, id := (rid.map .str).getD .none }

def decodeResponse (builtins : Builtins) (stack : Nat) (body : Bytes) : Except Exc PyVal := do
  let msg ← decodeMessage stack body
  match lookup (Text.ofString "result") msg, lookup (Text.ofString "error") msg with
  | some result, _ => return result
  | none, some (.dict error) => do
    let error ← responseError builtins stack (responseId msg) error
    .error (.rpcError error)
  | none, _ => .error (rpcError invalidEnvelope "response missing result/error" false none none
      (((responseId msg).map .str).getD .none))

end Nuropb.Patterns
