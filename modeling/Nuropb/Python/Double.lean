import Mathlib.Data.Nat.Log
import Nuropb.Python.Value

/-! # Doubles and their decimal text

Reading rounds to the nearest double, ties to even. Writing takes the fewest digits that read back.
-/
namespace Nuropb.Double

def roundHalfEven (num den : Nat) : Nat :=
  let q := num / den
  let r := num % den
  if den < 2 * r ∨ 2 * r = den ∧ q % 2 = 1 then q + 1 else q

def infinity : Nat := 2047 * 2 ^ 52

/-- The bits of the double nearest to `num / den`, without a sign. -/
def nearest (num den : Nat) : Nat :=
  if num = 0 then 0
  else
    let guess : Int := (num.log2 : Int) - den.log2
    let top := if den * 2 ^ guess.toNat ≤ num * 2 ^ (-guess).toNat then guess else guess - 1
    let e := max (top - 52) (-1074)
    let bits := (e + 1074).toNat * 2 ^ 52 + roundHalfEven (num * 2 ^ (-e).toNat) (den * 2 ^ e.toNat)
    min bits infinity

/-- The double nearest to the digits times a power of ten. -/
def ofDecimal (negative : Bool) (digits : Nat) (exponent : Int) : UInt64 :=
  let magnitude := nearest (digits * 10 ^ exponent.toNat) (10 ^ (-exponent).toNat)
  UInt64.ofNat (if negative then magnitude + 2 ^ 63 else magnitude)

def toQuotient (magnitude : Nat) : Nat × Nat :=
  let exponent := magnitude / 2 ^ 52
  let fraction := magnitude % 2 ^ 52
  let mantissa := if exponent = 0 then fraction else fraction + 2 ^ 52
  (mantissa * 2 ^ (max exponent 1 - 1075), 2 ^ (1075 - max exponent 1))

def digitsOf (magnitude num den n : Nat) (point : Int) : Option Nat :=
  let shift := (n : Int) - point
  let scaled := num * 10 ^ shift.toNat
  let unit := den * 10 ^ (-shift).toNat
  let reads := fun digits : Nat =>
    nearest (digits * 10 ^ (-shift).toNat) (10 ^ shift.toNat) = magnitude
  let low := scaled / unit
  let first := roundHalfEven scaled unit
  if reads first then some first else [low, low + 1].find? fun digits => reads digits

def pointOf (num den : Nat) : Int :=
  if den ≤ num then (Nat.log 10 (num / den) : Int) + 1 else -(Nat.log 10 ((den - 1) / num) : Int)

def stripZeros (cs : List Char) : List Char := (cs.reverse.dropWhile (· = '0')).reverse

/-- The fewest digits that read back, and the position of the point before them. -/
def shortest (magnitude : Nat) : List Char × Int :=
  let (num, den) := toQuotient magnitude
  let point := pointOf num den
  match (List.range 17).findSome? fun n => (digitsOf magnitude num den (n + 1) point).map (·, n + 1) with
  | some (digits, n) =>
    let cs := Nat.toDigits 10 digits
    (stripZeros cs, point + ((cs.length : Int) - n))
  | none => ([], point)

def zeros (n : Nat) : List Char := List.replicate n '0'

/-- The digits with their point, in fixed notation or with an exponent. -/
def layout (digits : List Char) (point : Int) : List Char :=
  if point ≤ -4 ∨ 16 < point then
    let exponent := point - 1
    let power := Nat.toDigits 10 exponent.natAbs
    let fraction := digits.drop 1
    digits.take 1 ++ (if fraction = [] then [] else '.' :: fraction) ++
      ['e', if exponent < 0 then '-' else '+'] ++ zeros (2 - power.length) ++ power
  else if point ≤ 0 then ['0', '.'] ++ zeros (-point).toNat ++ digits
  else if digits.length ≤ point.toNat then digits ++ zeros (point.toNat - digits.length) ++ ['.', '0']
  else digits.take point.toNat ++ '.' :: digits.drop point.toNat

def repr (bits : UInt64) : List Char :=
  let magnitude := bits.toNat % 2 ^ 63
  let sign := if 2 ^ 63 ≤ bits.toNat then ['-'] else []
  if infinity < magnitude then "NaN".toList
  else if magnitude = infinity then sign ++ "Infinity".toList
  else if magnitude = 0 then sign ++ "0.0".toList
  else
    let (digits, point) := shortest magnitude
    sign ++ layout digits point

end Nuropb.Double
