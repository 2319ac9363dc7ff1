import Nuropb.Library.Future
import Nuropb.Patterns.Errors
import Nuropb.Transport.Connection

/-! # Outstanding requests

The table maps the id of an outstanding request to its future; the first reply wins. The futures
outlive their entries, since the requests wait on them.
-/
namespace Nuropb.Sessions

open Library Patterns Transport

abbrev RequestId := Nat

def isSafe : CodePoint → Bool
  | .scalar c => c.isAlphanum || c ∈ ['.', '_', ':', '-']
  | .surrogate _ => false

/-- A match of `_SAFE_ID`; its `$` lets a final newline pass. -/
def matchesSafeId (t : Text) : Bool :=
  let core := if t.getLast? = some (.scalar '\n') then t.dropLast else t
  1 ≤ core.length ∧ core.length ≤ 255 ∧ core.all isSafe

/-- Why `register` refuses an id. -/
inductive IdError
  | invalid (reason : String)
  | collision (id : Text)
  | encoding

def validateId (value : Text) : Except IdError Text :=
  match value.utf8 with
  | none => .error .encoding
  | some raw =>
    if raw.length = 0 ∨ raw.length > 255 then .error (.invalid "id must be 1..255 UTF-8 octets")
    else if matchesSafeId value then .ok value
    else .error (.invalid "id must be ASCII safe subset (A-Za-z0-9._:-)")

structure CorrelationTable where
  pending : Dict Text RequestId := .empty
  futures : RequestId → Future Exc IncomingMessage := fun _ => none

namespace CorrelationTable

def contains (table : CorrelationTable) (rid : Text) : Bool := table.pending.contains rid

def chooseId (table : CorrelationTable) (requestId : Option Text) (generated : Text) : Except IdError Text :=
  match requestId with
  | none => .ok generated
  | some value => do
    let rid ← validateId value
    raiseIf (table.contains rid) (.collision rid)
    return rid

def register (table : CorrelationTable) (rid : Text) (r : RequestId) : CorrelationTable :=
  { table with pending := table.pending.set rid r }

/-- `resolve` and `fail`: the entry goes, and its future gets the outcome unless it is done. -/
def complete (table : CorrelationTable) (rid : Text) (outcome : Except Exc IncomingMessage) : CorrelationTable where
  pending := table.pending.erase rid
  futures := settle table.futures (table.pending.get? rid).toList outcome

def resolve (table : CorrelationTable) (rid : Text) (msg : IncomingMessage) : CorrelationTable :=
  table.complete rid (.ok msg)

def fail (table : CorrelationTable) (rid : Text) (e : Exc) : CorrelationTable := table.complete rid (.error e)

def discardAll (table : CorrelationTable) (e : Exc) : CorrelationTable where
  pending := .empty
  futures := settle table.futures table.pending.values (.error e)

/-- A future is set from outside of the table: by a timer, or by the cancellation of its task. -/
def overtake (table : CorrelationTable) (r : RequestId) (e : Exc) : CorrelationTable :=
  { table with futures := fun other => if other = r then some (.error e) else table.futures other }

end CorrelationTable

end Nuropb.Sessions
