import Nuropb.Library.Dict
import Nuropb.Library.Outcome
import Nuropb.Python.Double

/-! # JSON as the standard library reads and writes it

A container in a container takes one more level of the interpreter's stack, on which only so many
fit; what does not fit raises `RecursionError`, which is a `RuntimeError`.
-/
namespace Nuropb.Json

open Library

def recursionError : Exc := .runtimeError "maximum recursion depth exceeded"

/-- The most digits that are converted between `int` and `str`. -/
def maxStrDigits : Nat := 4300

def skipSpace : Text → Text
  | .scalar ' ' :: rest | .scalar '\t' :: rest | .scalar '\n' :: rest | .scalar '\r' :: rest => skipSpace rest
  | text => text

/-! ## Reading -/

def hexDigit : CodePoint → Option Nat
  | .scalar c =>
    if c.isDigit then some (c.toNat - '0'.toNat)
    else if 'a' ≤ c ∧ c ≤ 'f' then some (c.toNat - 'a'.toNat + 10)
    else if 'A' ≤ c ∧ c ≤ 'F' then some (c.toNat - 'A'.toNat + 10)
    else none
  | .surrogate _ => none

def hex4 : Text → Option (Nat × Text)
  | a :: b :: c :: d :: rest => do
    let a ← hexDigit a
    let b ← hexDigit b
    let c ← hexDigit c
    let d ← hexDigit d
    return (((a * 16 + b) * 16 + c) * 16 + d, rest)
  | _ => none

def codePoint (n : Nat) : CodePoint :=
  if h : 0xD800 ≤ n ∧ n < 0xE000 then .surrogate ⟨n - 0xD800, by omega⟩ else .scalar (Char.ofNat n)

/-- What follows `\u`: two escapes that are a surrogate pair are one character. -/
def unicodeEscape (text : Text) : Option (CodePoint × Text) := do
  let (high, rest) ← hex4 text
  match rest with
  | .scalar '\\' :: .scalar 'u' :: more =>
    match hex4 more with
    | some (low, rest') =>
      if 0xD800 ≤ high ∧ high < 0xDC00 ∧ 0xDC00 ≤ low ∧ low < 0xE000 then
        return (.scalar (Char.ofNat (0x10000 + (high - 0xD800) * 0x400 + (low - 0xDC00))), rest')
      else return (codePoint high, rest)
    | none => return (codePoint high, rest)
  | _ => return (codePoint high, rest)

def escape : Text → Option (CodePoint × Text)
  | .scalar '"' :: rest => some (.scalar '"', rest)
  | .scalar '\\' :: rest => some (.scalar '\\', rest)
  | .scalar '/' :: rest => some (.scalar '/', rest)
  | .scalar 'b' :: rest => some (.scalar (Char.ofNat 8), rest)
  | .scalar 'f' :: rest => some (.scalar (Char.ofNat 12), rest)
  | .scalar 'n' :: rest => some (.scalar '\n', rest)
  | .scalar 'r' :: rest => some (.scalar '\r', rest)
  | .scalar 't' :: rest => some (.scalar '\t', rest)
  | .scalar 'u' :: rest => unicodeEscape rest
  | _ => none

def isControl : CodePoint → Bool
  | .scalar c => c.toNat < 32
  | .surrogate _ => false

/-- A string after its opening quote; each round takes a character of the text or more. -/
def scanString : (rounds : Nat) → Text → Except Exc (Text × Text)
  | 0, _ => .error .jsonDecodeError
  | _ + 1, [] => .error .jsonDecodeError
  | _ + 1, .scalar '"' :: rest => .ok ([], rest)
  | rounds + 1, .scalar '\\' :: rest => do
    let (c, rest) ← orRaise .jsonDecodeError (escape rest)
    let (cs, rest) ← scanString rounds rest
    return (c :: cs, rest)
  | rounds + 1, c :: rest => do
    raiseIf (isControl c) .jsonDecodeError
    let (cs, rest) ← scanString rounds rest
    return (c :: cs, rest)

def isDigit : CodePoint → Bool
  | .scalar c => c.isDigit
  | .surrogate _ => false

def digitsOf (text : Text) : List Char :=
  text.filterMap fun
    | .scalar c => some c
    | .surrogate _ => none

def natOf (digits : List Char) : Nat := digits.foldl (fun n c => n * 10 + (c.toNat - '0'.toNat)) 0

def scanFraction : Text → Option (List Char) × Text
  | .scalar '.' :: rest =>
    match rest.span isDigit with
    | ([], _) => (none, .scalar '.' :: rest)
    | (digits, rest) => (some (digitsOf digits), rest)
  | text => (none, text)

def scanPower (text rest : Text) (negative : Bool) : Option Int × Text :=
  match rest.span isDigit with
  | ([], _) => (none, text)
  | (digits, rest) =>
    let power : Int := natOf (digitsOf digits)
    (some (if negative then -power else power), rest)

def scanExponent : Text → Option Int × Text
  | .scalar c :: rest =>
    if c = 'e' ∨ c = 'E' then
      match rest with
      | .scalar '-' :: more => scanPower (.scalar c :: rest) more true
      | .scalar '+' :: more => scanPower (.scalar c :: rest) more false
      | more => scanPower (.scalar c :: rest) more false
    else (none, .scalar c :: rest)
  | text => (none, text)

def scanNumber (negative : Bool) (text : Text) : Except Exc (PyVal × Text) := do
  let (whole, rest) ← match text with
    | .scalar '0' :: rest => .ok (['0'], rest)
    | text =>
      match text.span isDigit with
      | ([], _) => .error .jsonDecodeError
      | (digits, rest) => .ok (digitsOf digits, rest)
  let (fraction, rest) := scanFraction rest
  let (power, rest) := scanExponent rest
  match fraction, power with
  | none, none => do
    raiseIf (maxStrDigits < whole.length) (.valueError "Exceeds the limit (4300 digits) for integer string conversion")
    let n : Int := natOf whole
    return (.int (if negative then -n else n), rest)
  | fraction, power =>
    let decimals := fraction.getD []
    return (.float (Double.ofDecimal negative (natOf (whole ++ decimals)) (power.getD 0 - decimals.length)), rest)

def literals : List (Text × PyVal) :=
  [(Text.ofString "null", .none), (Text.ofString "true", .bool true), (Text.ofString "false", .bool false),
    (Text.ofString "NaN", .float 0x7ff8000000000000), (Text.ofString "Infinity", .float 0x7ff0000000000000),
    (Text.ofString "-Infinity", .float 0xfff0000000000000)]

def scanLiteral (text : Text) : Except Exc (PyVal × Text) :=
  match literals.find? fun literal => literal.1.isPrefixOf text with
  | some (spelling, value) => .ok (value, text.drop spelling.length)
  | none =>
    match text with
    | .scalar '-' :: rest => scanNumber true rest
    | text => scanNumber false text

def scanMembers (value : Text → Except Exc (PyVal × Text)) : (rounds : Nat) → Table → Text → Except Exc (PyVal × Text)
  | rounds + 1, entries, .scalar '"' :: rest => do
    let (key, rest) ← scanString rest.length rest
    match skipSpace rest with
    | .scalar ':' :: rest => do
      let (item, rest) ← value (skipSpace rest)
      let entries := assign key item entries
      match skipSpace rest with
      | .scalar '}' :: rest => .ok (.dict entries, rest)
      | .scalar ',' :: rest => scanMembers value rounds entries (skipSpace rest)
      | _ => .error .jsonDecodeError
    | _ => .error .jsonDecodeError
  | _, _, _ => .error .jsonDecodeError

def scanItems (value : Text → Except Exc (PyVal × Text)) : (rounds : Nat) → List PyVal → Text → Except Exc (PyVal × Text)
  | 0, _, _ => .error .jsonDecodeError
  | rounds + 1, items, text => do
    let (item, rest) ← value text
    match skipSpace rest with
    | .scalar ']' :: rest => .ok (.list (items ++ [item]), rest)
    | .scalar ',' :: rest => scanItems value rounds (items ++ [item]) (skipSpace rest)
    | _ => .error .jsonDecodeError

/-- A value, with the levels of the stack that are left. -/
def scanOnce : (stack : Nat) → Text → Except Exc (PyVal × Text)
  | stack, .scalar '{' :: rest =>
    match stack with
    | 0 => .error recursionError
    | stack + 1 =>
      match skipSpace rest with
      | .scalar '}' :: rest => .ok (.dict [], rest)
      | rest => scanMembers (scanOnce stack) rest.length [] rest
  | stack, .scalar '[' :: rest =>
    match stack with
    | 0 => .error recursionError
    | stack + 1 =>
      match skipSpace rest with
      | .scalar ']' :: rest => .ok (.list [], rest)
      | rest => scanItems (scanOnce stack) rest.length [] rest
  | _, .scalar '"' :: rest => do
    let (t, rest) ← scanString rest.length rest
    return (.str t, rest)
  | _, text => scanLiteral text

def loads (stack : Nat) (text : Text) : Except Exc PyVal := do
  raiseIf (text.head? = some (.scalar (Char.ofNat 0xFEFF))) .jsonDecodeError
  let (value, rest) ← scanOnce stack (skipSpace text)
  raiseIf (skipSpace rest ≠ []) .jsonDecodeError
  return value

/-! ## Writing -/

def hexChar (n : Nat) : Char := "0123456789abcdef".toList.getD n '0'

def quoteChar : CodePoint → Text
  | .scalar '"' => Text.ofChars ['\\', '"']
  | .scalar '\\' => Text.ofChars ['\\', '\\']
  | .scalar '\n' => Text.ofChars ['\\', 'n']
  | .scalar '\r' => Text.ofChars ['\\', 'r']
  | .scalar '\t' => Text.ofChars ['\\', 't']
  | .scalar c =>
    if c.toNat = 8 then Text.ofChars ['\\', 'b']
    else if c.toNat = 12 then Text.ofChars ['\\', 'f']
    else if c.toNat < 32 then Text.ofChars ['\\', 'u', '0', '0', hexChar (c.toNat / 16), hexChar (c.toNat % 16)]
    else [.scalar c]
  | .surrogate n => [.surrogate n]

/-- A quoted string; `ensure_ascii=False` leaves what is not ASCII as it is. -/
def quote (t : Text) : Text := .scalar '"' :: t.flatMap quoteChar ++ [.scalar '"']

def intText (n : Int) : Except Exc Text := do
  let digits := Nat.toDigits 10 n.natAbs
  raiseIf (maxStrDigits < digits.length) (.valueError "Exceeds the limit (4300 digits) for integer string conversion")
  return Text.ofChars (if n < 0 then '-' :: digits else digits)

def joined (opening closing : Char) (parts : List Text) : Text :=
  .scalar opening :: (parts.intersperse [.scalar ',']).flatten ++ [.scalar closing]

def dumpValue : (stack : Nat) → PyVal → Except Exc Text
  | _, .none => .ok (Text.ofString "null")
  | _, .bool b => .ok (Text.ofString (if b then "true" else "false"))
  | _, .int n => intText n
  | _, .float bits => .ok (Text.ofChars (Double.repr bits))
  | _, .str t => .ok (quote t)
  | 0, .dict _ | 0, .list _ | 0, .tuple _ => .error recursionError
  | stack + 1, .dict entries => do
    let parts ← entries.mapM fun (key, value) => do
      let text ← dumpValue stack value
      return quote key ++ .scalar ':' :: text
    return joined '{' '}' parts
  | stack + 1, .list items | stack + 1, .tuple items => do
    let parts ← items.mapM (dumpValue stack)
    return joined '[' ']' parts
  | _, .bytes _ | _, .decimal .. | _, .decimalSpecial _ | _, .datetime _ | _, .object => .error .typeError

/-- `json.dumps(value, separators=(",", ":"), ensure_ascii=False)` -/
def dumps (stack : Nat) (value : PyVal) : Except Exc Text := dumpValue stack value

end Nuropb.Json
