import Nuropb.Python.Double

/-! # Arithmetic on doubles -/
namespace Nuropb

/-- A Python `float`, by its bits. -/
structure Float64 where
  bits : UInt64
  deriving DecidableEq

namespace Float64

def negative (x : Float64) : Bool := 2 ^ 63 ≤ x.bits.toNat

def magnitude (x : Float64) : Nat := x.bits.toNat % 2 ^ 63

def isNan (x : Float64) : Bool := Double.infinity < x.magnitude

def isInfinite (x : Float64) : Bool := x.magnitude = Double.infinity

def ofMagnitude (negative : Bool) (magnitude : Nat) : Float64 :=
  ⟨UInt64.ofNat (if negative then magnitude + 2 ^ 63 else magnitude)⟩

def nan : Float64 := ⟨0x7ff8000000000000⟩

/-- A finite double as a multiple of the smallest one. -/
def units (x : Float64) : Int :=
  let exponent := x.magnitude / 2 ^ 52
  let fraction := x.magnitude % 2 ^ 52
  let mantissa := if exponent = 0 then fraction else fraction + 2 ^ 52
  let value : Int := (mantissa * 2 ^ (max exponent 1 - 1) : Nat)
  if x.negative then -value else value

/-- The sum, rounded to the nearest double. -/
def add (x y : Float64) : Float64 :=
  if x.isNan ∨ y.isNan then nan
  else if x.isInfinite then if y.isInfinite ∧ x.negative ≠ y.negative then nan else x
  else if y.isInfinite then y
  else
    let sum := x.units + y.units
    if sum = 0 then ofMagnitude (x.negative ∧ y.negative) 0
    else ofMagnitude (sum < 0) (Double.nearest sum.natAbs (2 ^ 1074))

instance : Add Float64 := ⟨add⟩

/-- The place in the order of the doubles; both zeros have the same. -/
def place (x : Float64) : Int := if x.negative then -x.magnitude else x.magnitude

instance : LE Float64 := ⟨fun x y => x.isNan = false ∧ y.isNan = false ∧ x.place ≤ y.place⟩

instance : DecidableLE Float64 := fun x y =>
  inferInstanceAs (Decidable (x.isNan = false ∧ y.isNan = false ∧ x.place ≤ y.place))

example : (⟨0x3fb999999999999a⟩ + ⟨0x3fc999999999999a⟩ : Float64) = ⟨0x3fd3333333333334⟩ := by decide +kernel

end Float64

end Nuropb
