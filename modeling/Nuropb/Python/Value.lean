import Nuropb.Library.Text

/-! # Python values, content properties and exceptions

The values that properties, header tables and JSON bodies are made of, the fourteen basic
content properties, and the exceptions the client raises or lets through. A dictionary is
its entry list in insertion order; its keys are text, as AMQP tables and JSON require.
-/
namespace Nuropb

open Library

inductive PyVal
  | none
  | bool (b : Bool)
  | int (n : Int)
  /-- A double, by its IEEE 754 bits. -/
  | float (bits : UInt64)
  | str (t : Text)
  | bytes (b : Bytes)
  | dict (entries : List (Text × PyVal))
  | tuple (items : List PyVal)
  | list (items : List PyVal)
  | decimal (negative : Bool) (coefficient : Nat) (exponent : Int)
  | decimalSpecial (nan : Bool)
  /-- A datetime, by the whole seconds of its POSIX timestamp. -/
  | datetime (posix : Int)
  | object
  deriving Inhabited

/-- Induction over values, with the hypothesis for dictionary values and list items. -/
theorem PyVal.childrenInduction {P : PyVal → Prop}
    (h : ∀ v, (∀ entries, v = .dict entries → ∀ e ∈ entries, P e.2) →
      (∀ items, v = .list items → ∀ x ∈ items, P x) → P v) (v : PyVal) : P v := by
  refine h v ?_ ?_
  · rintro entries rfl ⟨key, value⟩ he
    have hsize := List.sizeOf_lt_of_mem he
    exact PyVal.childrenInduction h value
  · rintro items rfl x hx
    have hsize := List.sizeOf_lt_of_mem hx
    exact PyVal.childrenInduction h x
termination_by sizeOf v
decreasing_by all_goals (simp_all; omega)

abbrev Table := List (Text × PyVal)

/-- The keys of the basic content properties that the wire format knows. -/
inductive PropertyName
  | contentType
  | contentEncoding
  | headers
  | deliveryMode
  | priority
  | correlationId
  | replyTo
  | expiration
  | messageId
  | timestamp
  | type
  | userId
  | appId
  | clusterId
  deriving DecidableEq

/-- A properties dictionary; keys that the wire format does not know are left out. -/
abbrev Properties := PropertyName → Option PyVal

def Properties.empty : Properties := fun _ => none

def Properties.set (props : Properties) (name : PropertyName) (value : PyVal) : Properties :=
  fun other => if other = name then some value else props other

structure ReturnedMessage where
  replyCode : Nat
  replyText : Text
  exchange : Text
  routingKey : Text
  body : Bytes
  properties : Properties

structure RpcError where
  code : Int
  message : PyVal
  data : PyVal := .none
  id : PyVal := .none

inductive Exc
  | protocolError (reason : String)
  | connectionLost (reason : String)
  | connectionBlocked (reason : String)
  | publishNack (deliveryTag : Nat) (multiple : Bool)
  | publishReturned (message : ReturnedMessage)
  | amqpCodecError (reason : String)
  | rpcError (e : RpcError)
  | nackDelivery (requeue : Bool)
  | unicodeEncodeError
  | unicodeDecodeError
  | jsonDecodeError
  | overflowError
  | valueError (reason : String)
  | typeError
  | attributeError
  | indexError
  | keyError
  | decimalError
  | runtimeError (reason : String)
  | timeoutError
  | cancelledError
  | osError
  | other (name : String)

namespace Exc

/-- `ConnectionLost` and `ConnectionBlockedError` derive from `ProtocolError`. -/
def isProtocolError : Exc → Bool
  | .protocolError _ | .connectionLost _ | .connectionBlocked _ => true
  | _ => false

def isPublishRefusal : Exc → Bool
  | .publishNack .. | .publishReturned _ | .connectionBlocked _ => true
  | _ => false

end Exc

/-- The value of a run of ASCII digits, with single underscores between digits. -/
def digitsValue : (acc : Nat) → (afterDigit : Bool) → List Char → Option Nat
  | acc, afterDigit, [] => if afterDigit then some acc else none
  | acc, afterDigit, c :: cs =>
    if c.isDigit then digitsValue (acc * 10 + (c.toNat - '0'.toNat)) true cs
    else if c = '_' ∧ afterDigit then digitsValue acc false cs
    else none

/-- `int` of a double: truncation towards zero. -/
def truncFloat (bits : UInt64) : Except Exc Int :=
  let exponent := bits.toNat / 2 ^ 52 % 2 ^ 11
  let fraction := bits.toNat % 2 ^ 52
  if exponent = 2047 then
    .error (if fraction = 0 then .overflowError else .valueError "cannot convert float NaN to integer")
  else
    let mantissa := if exponent = 0 then fraction else fraction + 2 ^ 52
    let magnitude : Nat := mantissa * 2 ^ exponent / 2 ^ 1075
    .ok (if bits.toNat < 2 ^ 63 then (magnitude : Int) else -(magnitude : Int))

def truncDecimal (negative : Bool) (coefficient : Nat) (exponent : Int) : Int :=
  let magnitude : Nat := coefficient * 10 ^ exponent.toNat / 10 ^ (-exponent).toNat
  if negative then -(magnitude : Int) else magnitude

def pyInt : PyVal → Except Exc Int
  | .int n => .ok n
  | .bool b => .ok (if b then 1 else 0)
  | .float bits => truncFloat bits
  | .decimal negative coefficient exponent => .ok (truncDecimal negative coefficient exponent)
  | .decimalSpecial true => .error (.valueError "cannot convert NaN to integer")
  | .decimalSpecial false => .error .overflowError
  | _ => .error .typeError

def toBytes (width : Nat) (n : Int) : Except Exc Bytes :=
  if 0 ≤ n ∧ n < 256 ^ width then .ok (toBE width n.toNat) else .error .overflowError

def toBytesSigned (width : Nat) (n : Int) : Except Exc Bytes :=
  if -(256 ^ width : Int) ≤ 2 * n ∧ 2 * n < 256 ^ width then .ok (toBESigned width n)
  else .error .overflowError

def singleByte (n : Int) : Except Exc Bytes :=
  if 0 ≤ n ∧ n < 256 then .ok [UInt8.ofNat n.toNat]
  else .error (.valueError "bytes must be in range(0, 256)")

def encodeUtf8 (t : Text) : Except Exc Bytes :=
  match t.utf8 with
  | some bs => .ok bs
  | none => .error .unicodeEncodeError

def decodeUtf8 (bs : Bytes) : Except Exc Text :=
  match Text.ofUtf8 bs with
  | some t => .ok t
  | none => .error .unicodeDecodeError

theorem toBytes_natCast {width n : Nat} (h : n < 256 ^ width) :
    toBytes width n = .ok (toBE width n) := by
  have hlt : (n : Int) < 256 ^ width := by exact_mod_cast h
  simp [toBytes, hlt]

theorem toBytes_natCast_eq_ok {width n : Nat} {bs : Bytes} :
    toBytes width n = .ok bs ↔ n < 256 ^ width ∧ bs = toBE width n := by
  constructor
  · intro h
    unfold toBytes at h
    split at h
    · cases h
      exact ⟨by zify; exact (‹_ ∧ _› : _ ∧ _).2, rfl⟩
    · cases h
  · rintro ⟨hlt, rfl⟩
    exact toBytes_natCast hlt

theorem natCast_of_toBytes {width : Nat} {n : Int} {bs : Bytes} (h : toBytes width n = .ok bs) :
    ∃ k : Nat, n = k := by
  unfold toBytes at h
  split at h
  · exact ⟨n.toNat, by omega⟩
  · cases h

theorem toBytesSigned_eq_ok {width : Nat} {n : Int} {bs : Bytes} :
    toBytesSigned width n = .ok bs ↔
      -(256 ^ width : Int) ≤ 2 * n ∧ 2 * n < 256 ^ width ∧ bs = toBESigned width n := by
  unfold toBytesSigned
  split <;> grind

theorem length_of_toBytes {width : Nat} {n : Int} {bs : Bytes} (h : toBytes width n = .ok bs) :
    bs.length = width := by
  unfold toBytes at h
  split at h
  · cases h
    exact length_toBE width _
  · cases h

theorem utf8_of_encodeUtf8 {t : Text} {bs : Bytes} (h : encodeUtf8 t = .ok bs) :
    t.utf8 = some bs := by
  unfold encodeUtf8 at h
  split at h
  · cases h
    assumption
  · cases h

theorem decodeUtf8_of_encodeUtf8 {t : Text} {bs : Bytes} (h : encodeUtf8 t = .ok bs) :
    decodeUtf8 bs = .ok t := by
  rw [decodeUtf8, Text.ofUtf8_utf8 (utf8_of_encodeUtf8 h)]

theorem exists_encodeUtf8_iff (t : Text) : (∃ bs, encodeUtf8 t = .ok bs) ↔ t.isScalar = true := by
  rw [← Text.isSome_scalars, encodeUtf8, Text.utf8]
  cases t.scalars with
  | none => simp
  | some cs => simp

theorem utf8_of_decodeUtf8 {bs : Bytes} {t : Text} (h : decodeUtf8 bs = .ok t) : t.utf8 = some bs := by
  unfold decodeUtf8 at h
  split at h
  · cases h
    exact Text.utf8_of_ofUtf8 ‹_›
  · cases h

end Nuropb
