import Mathlib.Algebra.Order.Floor.Semifield
import Mathlib.Data.Int.Log
import Mathlib.Data.Rat.Floor
import Mathlib.Tactic.FieldSimp
import Mathlib.Tactic.Linarith
import Mathlib.Tactic.Ring

/-! # Rounding to a binary format

A format has the numbers `m * 2 ^ e` with a significand of a fixed number of binary digits and an exponent that is
not below the lowest one. Rounding takes the nearest of them, ties to even; a number of decimal digits that the
precision determines is enough to tell them apart.
-/
namespace Nuropb.Library

/-- The nearest natural number, ties to even. -/
def roundEven (x : ℚ) : ℕ :=
  if 1 < 2 * (x - ⌊x⌋₊) ∨ 2 * (x - ⌊x⌋₊) = 1 ∧ ⌊x⌋₊ % 2 = 1 then ⌊x⌋₊ + 1 else ⌊x⌋₊

theorem roundEven_error {x : ℚ} (hx : 0 ≤ x) : |(roundEven x : ℚ) - x| ≤ 1 / 2 := by
  have hle := Nat.floor_le hx
  have hlt := Nat.lt_floor_add_one x
  unfold roundEven
  split
  · rw [abs_le]
    push_cast
    constructor <;> grind
  · rw [abs_le]
    constructor <;> grind

theorem roundEven_of_near {x : ℚ} {n : ℕ} (hx : 0 ≤ x) (h : |x - n| < 1 / 2) : roundEven x = n := by
  have herror := roundEven_error hx
  have hclose : |((roundEven x : ℤ) - n : ℚ)| < 1 := by
    calc |((roundEven x : ℤ) - n : ℚ)| ≤ |(roundEven x : ℚ) - x| + |x - n| := by
          simpa using abs_sub_le (roundEven x : ℚ) x n
      _ < 1 := by linarith
  have hint : |(roundEven x : ℤ) - n| < 1 := by exact_mod_cast hclose
  have hzero := Int.abs_lt_one_iff.mp hint
  omega

/-- Digits of a significand, and the exponent of the last digit of the smallest numbers. -/
structure BinaryFormat where
  digits : ℕ
  lowest : ℤ

namespace BinaryFormat

variable (f : BinaryFormat)

def exponent (x : ℚ) : ℤ := max (Int.log 2 x - f.digits) f.lowest

/-- The place of a significand and its exponent in the order of the numbers; `2 ^ (digits + 1)` is the first of the
next exponent. -/
def code (m : ℕ) (e : ℤ) : ℕ := (e - f.lowest).toNat * 2 ^ f.digits + m

def round (x : ℚ) : ℕ := f.code (roundEven (x / 2 ^ f.exponent x)) (f.exponent x)

structure Normal (m : ℕ) (e : ℤ) : Prop where
  lowest : f.lowest ≤ e
  below : m < 2 ^ (f.digits + 1)
  leading : 2 ^ f.digits ≤ m ∨ e = f.lowest

/-- Nearer to the number than halfway to the next one on each side. -/
structure Near (m : ℕ) (e : ℤ) (x : ℚ) : Prop where
  close : |x - m * 2 ^ e| < 2 ^ e / 2
  border : m = 2 ^ f.digits → f.lowest < e → m * 2 ^ e - x < 2 ^ e / 4

variable {f}

theorem code_carry {e : ℤ} (h : f.lowest ≤ e) : f.code (2 ^ (f.digits + 1)) e = f.code (2 ^ f.digits) (e + 1) := by
  have hnext : (e + 1 - f.lowest).toNat = (e - f.lowest).toNat + 1 := by omega
  rw [code, code, hnext, pow_succ]
  ring

theorem two_zpow_pos (e : ℤ) : (0 : ℚ) < 2 ^ e := zpow_pos (by norm_num) e

theorem log_of_bounds {x : ℚ} {z : ℤ} (hle : 2 ^ z ≤ x) (hlt : x < 2 ^ (z + 1)) : Int.log 2 x = z := by
  have hx : 0 < x := (two_zpow_pos z).trans_le hle
  have hlower : z ≤ Int.log 2 x := (Int.zpow_le_iff_le_log (by norm_num) hx).mp (by exact_mod_cast hle)
  have hupper : Int.log 2 x < z + 1 := (Int.lt_zpow_iff_log_lt (by norm_num) hx).mp (by exact_mod_cast hlt)
  omega

theorem round_of_near {m : ℕ} {e : ℤ} {x : ℚ} (hx : 0 < x) (hm : f.Normal m e) (hnear : f.Near m e x) :
    f.round x = f.code m e := by
  have he := two_zpow_pos e
  have hscaled : |x / 2 ^ e - m| < 1 / 2 := by
    have heq : x / 2 ^ e - m = (x - m * 2 ^ e) / 2 ^ e := by field_simp
    rw [heq, abs_div, abs_of_pos he, div_lt_iff₀ he]
    linarith [hnear.close]
  have hbelow : x < 2 ^ (e + (f.digits + 1 : ℕ)) := by
    have hsig : (m : ℚ) + 1 ≤ 2 ^ (f.digits + 1) := by exact_mod_cast hm.below
    rw [zpow_add₀ (by norm_num), zpow_natCast]
    have := (abs_lt.mp hnear.close).2
    nlinarith
  have hlog : Int.log 2 x < e + (f.digits + 1 : ℕ) :=
    (Int.lt_zpow_iff_log_lt (by norm_num) hx).mp (by exact_mod_cast hbelow)
  by_cases hexp : f.exponent x = e
  · rw [round, hexp, roundEven_of_near (div_nonneg hx.le he.le) hscaled]
  · -- the number is the first of its exponent, and `x` is below it
    have hlow : f.exponent x < e := by
      have := hm.lowest
      unfold exponent at hexp ⊢
      omega
    have hmin : f.lowest < e := (le_max_right _ _).trans_lt hlow
    have hlead : (2 : ℚ) ^ f.digits ≤ m := by exact_mod_cast hm.leading.resolve_right hmin.ne'
    have hlt : x < 2 ^ f.digits * 2 ^ e := by
      have hlog' : Int.log 2 x < f.digits + e := by
        unfold exponent at hlow
        omega
      have hpow := (Int.lt_zpow_iff_log_lt (by norm_num) hx).mpr hlog'
      rw [zpow_add₀ (by norm_num), zpow_natCast] at hpow
      exact_mod_cast hpow
    have hfirst : m = 2 ^ f.digits := by
      have hclose := (abs_lt.mp hnear.close).1
      have hcast : (m : ℚ) < 2 ^ f.digits + 1 := by nlinarith
      have hnat : m < 2 ^ f.digits + 1 := by exact_mod_cast hcast
      have hle : 2 ^ f.digits ≤ m := hm.leading.resolve_right hmin.ne'
      omega
    have hborder := hnear.border hfirst hmin
    have hone : (1 : ℚ) ≤ 2 ^ f.digits := one_le_pow₀ (by norm_num)
    have hhalf : (2 : ℚ) ^ (e - 1) = 2 ^ e / 2 := by rw [zpow_sub_one₀ (by norm_num), div_eq_mul_inv]
    have hlogeq : Int.log 2 x = f.digits + (e - 1) := by
      refine log_of_bounds ?_ ?_
      · rw [zpow_add₀ (by norm_num), zpow_natCast, hhalf]
        rw [hfirst] at hborder
        push_cast at hborder
        nlinarith
      · rw [add_assoc, sub_add_cancel, zpow_add₀ (by norm_num), zpow_natCast]
        exact hlt
    have hexponent : f.exponent x = e - 1 := by
      unfold exponent
      omega
    have hcarry : roundEven (x / 2 ^ (e - 1)) = 2 ^ (f.digits + 1) := by
      refine roundEven_of_near (div_nonneg hx.le (two_zpow_pos _).le) ?_
      rw [hfirst] at hborder
      push_cast at hborder ⊢
      have heq : x / (2 ^ e / 2) - 2 ^ (f.digits + 1) = (x - 2 ^ f.digits * 2 ^ e) / (2 ^ e / 2) := by
        rw [pow_succ]
        field_simp
      rw [hhalf, heq, abs_div, abs_of_pos (half_pos he), div_lt_iff₀ (half_pos he), abs_lt]
      constructor <;> linarith
    rw [round, hexponent, hcarry, code_carry (by omega), sub_add_cancel, hfirst]

/-- A small relative error stays near. -/
theorem near_of_relative {m : ℕ} {e : ℤ} {x ε : ℚ} (hm : f.Normal m e) (hpos : 0 < m) (hε : 0 < ε)
    (hprecise : ε * 2 ^ (f.digits + 1) < 1) (h : |x - m * 2 ^ e| ≤ ε / 2 * (m * 2 ^ e)) : f.Near m e x := by
  have he := two_zpow_pos e
  have hbelow : (m : ℚ) < 2 ^ (f.digits + 1) := by exact_mod_cast hm.below
  have hm : (0 : ℚ) < m := by exact_mod_cast hpos
  refine ⟨h.trans_lt ?_, fun hfirst _ => ?_⟩
  · have hε' : ε * m < 1 := (mul_lt_mul_of_pos_left hbelow hε).trans hprecise
    nlinarith
  · have hclose := (abs_le.mp h).1
    have hcast : (m : ℚ) = 2 ^ f.digits := by exact_mod_cast hfirst
    rw [pow_succ, ← hcast] at hprecise
    nlinarith

/-- A number is told apart from all others by as many decimal digits as make `10 ^ (n - 1)` exceed its precision:
`x` is at least `10 ^ (k - 1)`, and `n` digits are kept. -/
theorem round_decimal {m : ℕ} {e k : ℤ} {n : ℕ} (hm : f.Normal m e) (hpos : 0 < m)
    (hdigits : 2 ^ (f.digits + 1) < 10 ^ n) (hk : (10 : ℚ) ^ (k - 1) ≤ m * 2 ^ e) :
    f.round (roundEven (m * 2 ^ e * 10 ^ (n + 1 - k)) / 10 ^ (n + 1 - k)) = f.code m e := by
  have hx : (0 : ℚ) < m * 2 ^ e := mul_pos (by exact_mod_cast hpos) (two_zpow_pos e)
  have hunit : (0 : ℚ) < 10 ^ (n + 1 - k) := zpow_pos (by norm_num) _
  have hε : (0 : ℚ) < ((10 : ℚ) ^ n)⁻¹ := by positivity
  have hprecise : ((10 : ℚ) ^ n)⁻¹ * 2 ^ (f.digits + 1) < 1 := by
    rw [inv_mul_lt_one₀ (by positivity)]
    exact_mod_cast hdigits
  have herror := roundEven_error (mul_pos hx hunit).le
  have hone : 1 ≤ ((10 : ℚ) ^ n)⁻¹ * (m * 2 ^ e) * 10 ^ (n + 1 - k) := by
    have hsplit : (10 : ℚ) ^ (n + 1 - k) = 10 ^ n * ((10 : ℚ) ^ (k - 1))⁻¹ := by
      rw [← zpow_neg, ← zpow_natCast, ← zpow_add₀ (by norm_num)]
      congr 1
      omega
    have hk' : (0 : ℚ) < 10 ^ (k - 1) := zpow_pos (by norm_num) _
    rw [hsplit]
    calc (1 : ℚ) ≤ m * 2 ^ e / 10 ^ (k - 1) := (one_le_div hk').mpr hk
      _ = _ := by field_simp
  have hclose : |(roundEven (m * 2 ^ e * 10 ^ (n + 1 - k)) / 10 ^ (n + 1 - k) - m * 2 ^ e : ℚ)| ≤
      ((10 : ℚ) ^ n)⁻¹ / 2 * (m * 2 ^ e) := by
    have heq : (roundEven (m * 2 ^ e * 10 ^ (n + 1 - k)) / 10 ^ (n + 1 - k) - m * 2 ^ e : ℚ) =
        (roundEven (m * 2 ^ e * 10 ^ (n + 1 - k)) - m * 2 ^ e * 10 ^ (n + 1 - k)) / 10 ^ (n + 1 - k) := by
      field_simp
    rw [heq, abs_div, abs_of_pos hunit, div_le_iff₀ hunit]
    refine herror.trans ?_
    calc (1 / 2 : ℚ) ≤ (((10 : ℚ) ^ n)⁻¹ * (m * 2 ^ e) * 10 ^ (n + 1 - k)) / 2 := by linarith
      _ = _ := by ring
  have hnear := near_of_relative hm hpos hε hprecise hclose
  refine round_of_near ?_ hm hnear
  have hsmall : ((10 : ℚ) ^ n)⁻¹ ≤ 1 := by
    have htwo : (1 : ℚ) ≤ 2 ^ (f.digits + 1) := one_le_pow₀ (by norm_num)
    nlinarith
  have hlower := (abs_le.mp hclose).1
  nlinarith

end BinaryFormat

end Nuropb.Library
