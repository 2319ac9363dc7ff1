import Nuropb.Python.Decimal
import Nuropb.Python.Json

/-! # Conversions between values and text

Digits and spaces of other scripts count in a number as those of ASCII do. What is asked of the Unicode database
is a parameter.
-/
namespace Nuropb

open Library

/-- What the conversions look up for a character that is not ASCII, and the `repr` of what JSON does not have. -/
structure Builtins where
  decimal : Char → Option (Fin 10)
  printable : Char → Bool
  reprOther : PyVal → Text

namespace Builtins

variable (builtins : Builtins)

/-! ## Numbers -/

def numeralChar : CodePoint → Option Char
  | .scalar c =>
    if c.toNat < 128 then some c
    else if Text.isSpace (.scalar c) then some ' '
    else (builtins.decimal c).map fun digit => Char.ofNat ('0'.toNat + digit)
  | .surrogate _ => none

def isCSpace (c : Char) : Bool := 9 ≤ c.toNat ∧ c.toNat ≤ 13 ∨ c = ' '

def strip (cs : List Char) : List Char := ((cs.dropWhile isCSpace).reverse.dropWhile isCSpace).reverse

def numeral (t : Text) : Option (List Char) := (t.mapM builtins.numeralChar).map strip

def signed : List Char → Bool × List Char
  | '-' :: rest => (true, rest)
  | '+' :: rest => (false, rest)
  | rest => (false, rest)

def intOfNumeral (numeral : Option (List Char)) : Except Exc Int := do
  let invalid := Exc.valueError "invalid literal for int() with base 10"
  let cs ← orRaise invalid numeral
  let (negative, digits) := signed cs
  let n ← orRaise invalid (digitsValue 0 false digits)
  raiseIf (Json.maxStrDigits < digits.countP Char.isDigit)
    (.valueError "Exceeds the limit (4300 digits) for integer string conversion")
  return if negative then -(n : Int) else n

def numeralOfBytes (b : Bytes) : Option (List Char) :=
  if b.all (· < 128) then some (strip (b.map fun x => Char.ofNat x.toNat)) else none

def int : PyVal → Except Exc Int
  | .str t => intOfNumeral (builtins.numeral t)
  | .bytes b => intOfNumeral (numeralOfBytes b)
  | value => pyInt value

/-- An underscore stands between two digits. -/
def dropUnderscores : (afterDigit : Bool) → List Char → Option (List Char)
  | _, [] => some []
  | afterDigit, '_' :: rest =>
    if afterDigit ∧ rest.head?.any Char.isDigit then dropUnderscores false rest else none
  | _, c :: rest => (dropUnderscores c.isDigit rest).map (c :: ·)

def spanFraction : List Char → List Char × List Char
  | '.' :: rest => rest.span Char.isDigit
  | rest => ([], rest)

def exponentOf : List Char → Option Int
  | [] => some 0
  | c :: rest =>
    if c = 'e' ∨ c = 'E' then
      let (negative, digits) := signed rest
      if digits ≠ [] ∧ digits.all Char.isDigit then
        some (if negative then -(Json.natOf digits : Int) else Json.natOf digits)
      else none
    else none

/-- The double that is nearest to a number, from behind its sign on. -/
def floatAfterSign (negative : Bool) (cs : List Char) : Option UInt64 :=
  let sign : UInt64 := if negative then 0x8000000000000000 else 0
  let word := cs.map Char.toLower
  if word = "inf".toList ∨ word = "infinity".toList then some (sign + 0x7ff0000000000000)
  else if word = "nan".toList then some (sign + 0x7ff8000000000000)
  else
    let (whole, rest) := cs.span Char.isDigit
    let (fraction, rest) := spanFraction rest
    if whole ++ fraction = [] then none
    else (exponentOf rest).map fun exponent =>
      Double.ofDecimal negative (Json.natOf (whole ++ fraction)) (exponent - fraction.length)

def floatOfText (t : Text) : Except Exc UInt64 :=
  orRaise (.valueError "could not convert string to float") (do
    let cs ← builtins.numeral t
    let cs ← dropUnderscores false cs
    let (negative, rest) := signed cs
    floatAfterSign negative rest)

def floatOfInt (n : Int) : Except Exc UInt64 := do
  let magnitude := Double.nearest n.natAbs 1
  raiseIf (magnitude = Double.infinity) .overflowError
  return UInt64.ofNat (if n < 0 then magnitude + 2 ^ 63 else magnitude)

/-- The builtin `float`, of a value that JSON has. -/
def float : PyVal → Except Exc UInt64
  | .float bits => .ok bits
  | .int n => floatOfInt n
  | .bool b => floatOfInt (if b then 1 else 0)
  | .str t => builtins.floatOfText t
  | _ => .error .typeError

/-! ## Text -/

def hexDigits (width n : Nat) : List Char :=
  (List.range width).reverse.map fun i => Json.hexChar (n / 16 ^ i % 16)

def reprChar (quote : Char) : CodePoint → List CodePoint
  | .surrogate n => Text.ofChars ('\\' :: 'u' :: hexDigits 4 (0xD800 + n))
  | .scalar c =>
    if c = quote ∨ c = '\\' then Text.ofChars ['\\', c]
    else if c = '\t' then Text.ofChars ['\\', 't']
    else if c = '\n' then Text.ofChars ['\\', 'n']
    else if c = '\r' then Text.ofChars ['\\', 'r']
    else if c.toNat < 32 ∨ c.toNat = 127 then Text.ofChars ('\\' :: 'x' :: hexDigits 2 c.toNat)
    else if c.toNat < 127 ∨ builtins.printable c then [.scalar c]
    else if c.toNat < 0x100 then Text.ofChars ('\\' :: 'x' :: hexDigits 2 c.toNat)
    else if c.toNat < 0x10000 then Text.ofChars ('\\' :: 'u' :: hexDigits 4 c.toNat)
    else Text.ofChars ('\\' :: 'U' :: hexDigits 8 c.toNat)

/-- `repr` of a text, which takes the other quotes when they save an escape. -/
def reprText (t : Text) : Text :=
  let quote := if t.contains (.scalar '\'') ∧ ¬t.contains (.scalar '"') then '"' else '\''
  .scalar quote :: t.flatMap (builtins.reprChar quote) ++ [.scalar quote]

def reprFloat (bits : UInt64) : Text :=
  let magnitude := bits.toNat % 2 ^ 63
  if Double.infinity < magnitude then Text.ofString "nan"
  else if magnitude = Double.infinity then Text.ofString (if bits.toNat < 2 ^ 63 then "inf" else "-inf")
  else Text.ofChars (Double.repr bits)

def commaSeparated (parts : List Text) : Text := (parts.intersperse (Text.ofString ", ")).flatten

/-- The builtin `repr`, with the levels of the stack that are left. -/
def repr : (stack : Nat) → PyVal → Except Exc Text
  | _, .none => .ok (Text.ofString "None")
  | _, .bool b => .ok (Text.ofString (if b then "True" else "False"))
  | _, .int n => Json.intText n
  | _, .float bits => .ok (reprFloat bits)
  | _, .str t => .ok (builtins.reprText t)
  | 0, .dict _ | 0, .list _ => .error Json.recursionError
  | stack + 1, .dict entries => do
    let parts ← entries.mapM fun (key, value) => do
      let text ← repr stack value
      return builtins.reprText key ++ Text.ofString ": " ++ text
    return .scalar '{' :: commaSeparated parts ++ [.scalar '}']
  | stack + 1, .list items => do
    let parts ← items.mapM (repr stack)
    return .scalar '[' :: commaSeparated parts ++ [.scalar ']']
  | _, value => .ok (builtins.reprOther value)

def str (stack : Nat) : PyVal → Except Exc Text
  | .str t => .ok t
  | value => builtins.repr stack value

def ascii : Builtins where
  decimal _ := none
  printable _ := false
  reprOther _ := []

end Builtins

structure Interpreter where
  decimals : Decimal.Context := .default
  builtins : Builtins := .ascii

end Nuropb
