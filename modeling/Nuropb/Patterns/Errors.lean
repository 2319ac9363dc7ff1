import Nuropb.Library.Dict
import Nuropb.Library.Outcome
import Nuropb.Python.Value

/-! # The error codes of an RPC and the data that goes with them -/
namespace Nuropb.Patterns

open Library

def invalidId : Int := -33001

def idCollision : Int := -33002

def invalidEnvelope : Int := -33003

def unauthorized : Int := -33100

def claimsMissing : Int := -33101

def claimsExpired : Int := -33102

def claimsUnbound : Int := -33103

def bindRefused : Int := -33201

def requestTimeout : Int := -33300

def connectionLost : Int := -33400

def connectionBlocked : Int := -33401

def publishNack : Int := -33402

def publishReturned : Int := -33403

def serverError : Int := -32000

def codeNames : List (Int × Text) :=
  [(invalidId, Text.ofString "INVALID_ID"), (idCollision, Text.ofString "ID_COLLISION"),
    (invalidEnvelope, Text.ofString "INVALID_ENVELOPE"), (unauthorized, Text.ofString "UNAUTHORIZED"),
    (claimsMissing, Text.ofString "CLAIMS_MISSING"), (claimsExpired, Text.ofString "CLAIMS_EXPIRED"),
    (claimsUnbound, Text.ofString "CLAIMS_UNBOUND"), (bindRefused, Text.ofString "BIND_REFUSED"),
    (requestTimeout, Text.ofString "REQUEST_TIMEOUT"), (connectionLost, Text.ofString "CONNECTION_LOST"),
    (connectionBlocked, Text.ofString "CONNECTION_BLOCKED"), (publishNack, Text.ofString "PUBLISH_NACK"),
    (publishReturned, Text.ofString "PUBLISH_RETURNED"), (serverError, Text.ofString "SERVER_ERROR")]

def allowedDataKeys : List Text :=
  [Text.ofString "code_name", Text.ofString "retryable", Text.ofString "correlation_id", Text.ofString "method"]

def allowlisted (data : Table) : Table := data.filter fun entry => entry.1 ∈ allowedDataKeys

/-- What has no `items` is no dictionary. -/
def allowlistErrorData : PyVal → Except Exc PyVal
  | .none => .ok .none
  | .dict data => .ok (.dict (allowlisted data))
  | _ => .error .attributeError

def makeErrorData (code : Int) (retryable : Bool) (correlationId method : Option Text) : Table :=
  let data := [(Text.ofString "code_name", .str ((lookup code codeNames).getD (Text.ofString "UNKNOWN"))),
    (Text.ofString "retryable", PyVal.bool retryable)]
  let data := data ++ (correlationId.map fun t => (Text.ofString "correlation_id", PyVal.str t)).toList
  allowlisted (data ++ (method.map fun t => (Text.ofString "method", PyVal.str t)).toList)

/-- An RPC error of this client, with the data that `make_error_data` gives it. -/
def rpcError (code : Int) (message : String) (retryable : Bool) (correlationId method : Option Text)
    (id : PyVal) : Exc :=
  .rpcError { code := code, message := .str (Text.ofString message),
              data := .dict (makeErrorData code retryable correlationId method), id := id }

theorem makeErrorData_eq (code : Int) (retryable : Bool) (correlationId method : Option Text) :
    makeErrorData code retryable correlationId method =
      [(Text.ofString "code_name", .str ((lookup code codeNames).getD (Text.ofString "UNKNOWN"))),
        (Text.ofString "retryable", .bool retryable)] ++
        (correlationId.map fun t => (Text.ofString "correlation_id", PyVal.str t)).toList ++
        (method.map fun t => (Text.ofString "method", PyVal.str t)).toList := by
  have hname : Text.ofString "code_name" ∈ allowedDataKeys := by decide
  have hretryable : Text.ofString "retryable" ∈ allowedDataKeys := by decide
  have hcorrelation : Text.ofString "correlation_id" ∈ allowedDataKeys := by decide
  have hmethod : Text.ofString "method" ∈ allowedDataKeys := by decide
  cases correlationId <;> cases method <;>
    simp [makeErrorData, allowlisted, hname, hretryable, hcorrelation, hmethod]

theorem allowlisted_allowlisted (data : Table) : allowlisted (allowlisted data) = allowlisted data := by
  simp [allowlisted]

theorem mem_allowedDataKeys_of_allowlisted {data : Table} {entry : Text × PyVal} (h : entry ∈ allowlisted data) :
    entry.1 ∈ allowedDataKeys := by
  simpa using (List.mem_filter.mp h).2

end Nuropb.Patterns
