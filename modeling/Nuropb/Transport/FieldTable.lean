import Nuropb.Library.Dict
import Nuropb.Python.Decimal
import Nuropb.Transport.Frame

/-! # Field tables

Header values and tables are written with one type octet a value. Reading recurses on the
nesting levels left: with `room` levels left the source stands at depth
`max_depth + 1 - room`, and a table spends one level on itself and one on its values.
-/
namespace Nuropb.Transport

open Library

def nestingError : Exc :=
  .amqpCodecError s!"field-table nesting exceeds max_depth {defaultMaxTableDepth}"

def tagByte (c : Char) : UInt8 := UInt8.ofNat c.toNat

/-- `isinstance(value, int)`, which holds of booleans too. -/
def asInt : PyVal → Option Int
  | .int n => some n
  | .bool b => some (if b then 1 else 0)
  | _ => none

def decimalPair : List PyVal → Option (Int × Int)
  | [scale, value] => (asInt scale).bind fun s => (asInt value).map fun v => (s, v)
  | _ => none

def encodeInteger (n : Int) : Except Exc Bytes :=
  if -0x80000000 ≤ n ∧ n ≤ 0x7FFFFFFF then do
    let raw ← toBytesSigned 4 n
    return tagByte 'I' :: raw
  else do
    let raw ← toBytesSigned 8 n
    return tagByte 'L' :: raw

def encodeDecimalPair (scale value : Int) : Except Exc Bytes := do
  let raw ← toBytesSigned 4 value
  return tagByte 'D' :: UInt8.ofNat (scale % 256).toNat :: raw

/-- `int(value.scaleb(scale))` -/
def decimalInteger (context : Decimal.Context) (negative : Bool) (coefficient : Nat) (exponent : Int) : Except Exc Int := do
  let scaled ← context.scaleb negative coefficient exponent (-exponent).toNat
  pyInt scaled

def encodeDecimal (context : Decimal.Context) (negative : Bool) (coefficient : Nat) (exponent : Int) :
    Except Exc Bytes := do
  let value ← decimalInteger context negative coefficient exponent
  raiseIf (¬(-0x80000000 ≤ value ∧ value ≤ 0x7FFFFFFF))
    (.amqpCodecError "Decimal magnitude exceeds 32-bit AMQP decimal")
  encodeDecimalPair (-exponent).toNat value

def tableOf (depth : Nat) (entries : Except Exc Bytes) : Except Exc Bytes := do
  raiseIf (defaultMaxTableDepth < depth) nestingError
  let parts ← entries
  let size ← toBytes 4 parts.length
  return size ++ parts

section Writing

variable (context : Decimal.Context)

mutual

def encodeFieldValue (depth : Nat) (value : PyVal) : Except Exc Bytes := do
  raiseIf (defaultMaxTableDepth < depth) nestingError
  match value with
  | .none => return [tagByte 'V']
  | .bool b => return [tagByte 't', if b then 1 else 0]
  | .int n => encodeInteger n
  | .float bits => return tagByte 'd' :: toBE 8 bits.toNat
  | .str t => do
    let raw ← encodeUtf8 t
    let enc ← encodeLongstr raw
    return tagByte 'S' :: enc
  | .bytes b => do
    let enc ← encodeLongstr b
    return tagByte 'x' :: enc
  | .dict entries => do
    let enc ← tableOf (depth + 1) (encodeEntries (depth + 1) entries)
    return tagByte 'F' :: enc
  | .tuple items =>
    match decimalPair items with
    | some (scale, ival) => encodeDecimalPair scale ival
    | none => .error (.amqpCodecError "unsupported field type")
  | .list items => do
    let parts ← encodeItems (depth + 1) items
    raiseIf (defaultFrameMax < parts.length)
      (.amqpCodecError s!"array length {parts.length} exceeds ceiling")
    let size ← toBytes 4 parts.length
    return tagByte 'A' :: (size ++ parts)
  | .decimal negative coefficient exponent => encodeDecimal context negative coefficient exponent
  | .decimalSpecial _ =>
    .error (.amqpCodecError "Decimal infinity/NaN not supported in field tables")
  | .datetime posix => do
    let raw ← toBytes 8 posix
    return tagByte 'T' :: raw
  | .object => .error (.amqpCodecError "unsupported field type")

def encodeEntries (depth : Nat) : Table → Except Exc Bytes
  | [] => .ok []
  | (key, value) :: rest => do
    let rawKey ← encodeShortstr key
    let rawValue ← encodeFieldValue depth value
    let parts ← encodeEntries depth rest
    return rawKey ++ rawValue ++ parts

def encodeItems (depth : Nat) : List PyVal → Except Exc Bytes
  | [] => .ok []
  | item :: rest => do
    let raw ← encodeFieldValue depth item
    let parts ← encodeItems depth rest
    return raw ++ parts

end

def encodeTable (depth : Nat) (table : Table) : Except Exc Bytes :=
  tableOf depth (encodeEntries context depth table)

/-- `encode_table` on a property value: only a dictionary has items. -/
def encodeTableValue : PyVal → Except Exc Bytes
  | .dict entries => encodeTable context 0 entries
  | _ => .error .attributeError

end Writing

/-! ## Reading -/

/-- The double with the value of a single. -/
def widenFloat (bits : Nat) : UInt64 :=
  let sign := bits / 2 ^ 31
  let exponent := bits / 2 ^ 23 % 2 ^ 8
  let fraction := bits % 2 ^ 23
  let magnitude :=
    if exponent = 255 then
      -- A NaN comes out quiet.
      2047 * 2 ^ 52 + (if fraction = 0 then 0 else fraction ||| 2 ^ 22) * 2 ^ 29
    else if exponent ≠ 0 then (exponent + 896) * 2 ^ 52 + fraction * 2 ^ 29
    else if fraction = 0 then 0
    else (fraction.log2 + 874) * 2 ^ 52 + (fraction * 2 ^ (52 - fraction.log2) - 2 ^ 52)
  UInt64.ofNat (sign * 2 ^ 63 + magnitude)

def decodeFixed (data : Bytes) (offset n : Nat) (what : String) (f : Bytes → PyVal) :
    Except Exc (PyVal × Nat) := do
  raiseIf (data.length < offset + n) (.amqpCodecError s!"{what} truncated")
  return (f (slice data offset (offset + n)), offset + n)

def boolOf (bs : Bytes) : PyVal := .bool (ofBE bs ≠ 0)

def unsignedOf (bs : Bytes) : PyVal := .int (ofBE bs)

def signedOf (bs : Bytes) : PyVal := .int (ofBESigned bs)

def singleOf (bs : Bytes) : PyVal := .float (widenFloat (ofBE bs))

def doubleOf (bs : Bytes) : PyVal := .float (UInt64.ofNat (ofBE bs))

def decimalOf (bs : Bytes) : PyVal := .tuple [unsignedOf (bs.take 1), signedOf (bs.drop 1)]

/-- The declared length of a table or an array, and the offset its content ends at. -/
def decodeExtent (data : Bytes) (offset : Nat) (what : String) : Except Exc Nat := do
  raiseIf (data.length < offset + 4) (.amqpCodecError s!"{what} missing length")
  let n := ofBE (slice data offset (offset + 4))
  raiseIf (defaultFrameMax < n) (.amqpCodecError s!"{what} length {n} exceeds ceiling")
  let stop := offset + 4 + n
  raiseIf (data.length < stop) (.amqpCodecError s!"{what} truncated")
  return stop

/-- The loop over an array's items; an item takes an octet at least, so `stop - pos` rounds
are enough. -/
def decodeItems (decode : Nat → Except Exc (PyVal × Nat)) (stop : Nat) :
    (rounds pos : Nat) → (items : List PyVal) → Except Exc (List PyVal)
  | 0, _, items => .ok items
  | rounds + 1, pos, items =>
    if pos < stop then do
      let (item, next) ← decode pos
      decodeItems decode stop rounds next (items ++ [item])
    else .ok items

/-- The loop over a table's entries; a later entry of a key replaces the earlier. -/
def decodeEntries (data : Bytes) (decode : Nat → Except Exc (PyVal × Nat)) (stop : Nat) :
    (rounds pos : Nat) → (result : Table) → Except Exc Table
  | 0, _, result => .ok result
  | rounds + 1, pos, result =>
    if pos < stop then do
      let (key, afterKey) ← decodeShortstr data pos
      let (value, next) ← decode afterKey
      decodeEntries data decode stop rounds next (assign key value result)
    else .ok result

/-- The branches on the type octet, with readers for what lies one level deeper. -/
def decodeTagged (data : Bytes) (table : Nat → Except Exc (Table × Nat))
    (value : Nat → Except Exc (PyVal × Nat)) (tag : Char) (pos : Nat) : Except Exc (PyVal × Nat) :=
  match tag with
  | 'V' => .ok (.none, pos)
  | 't' => decodeFixed data pos 1 "bool" boolOf
  | 'b' => decodeFixed data pos 1 "byte" signedOf
  | 'B' => decodeFixed data pos 1 "ubyte" unsignedOf
  | 'U' => decodeFixed data pos 2 "ushort" unsignedOf
  | 'u' => decodeFixed data pos 2 "short" signedOf
  | 'i' => decodeFixed data pos 4 "uint" unsignedOf
  | 'I' => decodeFixed data pos 4 "int" signedOf
  | 'l' => decodeFixed data pos 8 "ulong" unsignedOf
  | 'L' => decodeFixed data pos 8 "long" signedOf
  | 'f' => decodeFixed data pos 4 "float" singleOf
  | 'd' => decodeFixed data pos 8 "double" doubleOf
  | 'D' => decodeFixed data pos 5 "decimal" decimalOf
  | 'T' => decodeFixed data pos 8 "timestamp" unsignedOf
  | 's' => do
    let (text, next) ← decodeShortstr data pos
    return (.str text, next)
  | 'S' => do
    let (raw, next) ← decodeLongstr data pos
    let text ← decodeUtf8 raw
    return (.str text, next)
  | 'x' => do
    let (raw, next) ← decodeLongstr data pos
    return (.bytes raw, next)
  | 'F' => do
    let (entries, next) ← table pos
    return (.dict entries, next)
  | 'A' => do
    let stop ← decodeExtent data pos "array"
    let start := pos + 4
    let items ← decodeItems value stop (stop - start) start []
    return (.list items, stop)
  | _ => .error (.amqpCodecError s!"unsupported field tag {tag}")

mutual

def decodeFieldValue (data : Bytes) : (room offset : Nat) → Except Exc (PyVal × Nat)
  | 0, _ => .error nestingError
  | room + 1, offset => do
    raiseIf (data.length ≤ offset) (.amqpCodecError "missing field value type")
    let tag := Char.ofNat (data.getD offset 0).toNat
    decodeTagged data (decodeTable data room) (decodeFieldValue data room) tag (offset + 1)

def decodeTable (data : Bytes) : (room offset : Nat) → Except Exc (Table × Nat)
  | 0, _ => .error nestingError
  | room + 1, offset => do
    let stop ← decodeExtent data offset "table"
    let start := offset + 4
    let table ← decodeEntries data (decodeFieldValue data room) stop (stop - start) start []
    return (table, stop)

end

def tableRoom : Nat := defaultMaxTableDepth + 1

end Nuropb.Transport
