import Mathlib.Algebra.Field.Rat
import Mathlib.Algebra.Order.GroupWithZero.Basic
import Mathlib.Tactic.NormNum
import Mathlib.Tactic.Ring
import Nuropb.Transport.FieldRoundTrip

/-! # Decimals in field tables

A decimal is written as a pair of a scale, of which the lowest octet is kept, and an integer.
-/
namespace Nuropb.Transport

open Library

def decimalValue (negative : Bool) (coefficient : Nat) (exponent : Int) : ℚ :=
  (if negative then -(coefficient : ℚ) else coefficient) * 10 ^ exponent

def pairValue (scale value : Int) : ℚ := value * 10 ^ (-scale)

/-- What was written reads back as a pair of the same value. -/
def KeepsValue (negative : Bool) (coefficient : Nat) (exponent : Int) (enc : Bytes) : Prop :=
  ∃ scale value, decodeFieldValue enc tableRoom 0 = .ok (.tuple [.int scale, .int value], enc.length) ∧
    pairValue scale value = decimalValue negative coefficient exponent

section Values

variable {context : Decimal.Context} {negative : Bool} {coefficient n : Nat} {exponent : Int}

theorem decimalInteger_cases {value : Int} (h : decimalInteger context negative coefficient exponent = .ok value) :
    ∃ n, Decimal.Leaves context negative coefficient exponent.toNat n ∧ value = Decimal.signed negative n := by
  obtain ⟨result, hresult, hvalue⟩ := bind_eq_ok.mp h
  have hshift : exponent + (-exponent).toNat = exponent.toNat := by omega
  rw [Decimal.Context.scaleb] at hresult
  split at hresult
  · rw [Decimal.signal_eq_ok hresult] at hvalue
    cases hvalue
  · rw [hshift] at hresult
    exact Decimal.fix_cases hresult hvalue

theorem signed_cast (negative : Bool) (n : Nat) :
    ((Decimal.signed negative n : Int) : ℚ) = if negative then -(n : ℚ) else n := by
  rw [Decimal.signed]
  split <;> push_cast <;> rfl

/-- The integer beside the scale's octet stands for the decimal if what the octet has lost is made good. -/
theorem pairValue_eq_iff (negative : Bool) (coefficient n : Nat) (exponent : Int) :
    pairValue ((-exponent).toNat % 256 : Nat) (Decimal.signed negative n) = decimalValue negative coefficient exponent ↔
      n * 10 ^ (256 * ((-exponent).toNat / 256)) = coefficient * 10 ^ exponent.toNat := by
  have hscale := Nat.div_add_mod (-exponent).toNat 256
  generalize hlost : 256 * ((-exponent).toNat / 256) = lost at *
  have hpow : (0 : ℚ) < 10 ^ ((-exponent).toNat : Int) := zpow_pos (by norm_num) _
  have hleft : pairValue ((-exponent).toNat % 256 : Nat) (Decimal.signed negative n) * 10 ^ ((-exponent).toNat : Int) =
      (if negative then -(n : ℚ) else n) * 10 ^ lost := by
    have hsum : -(((-exponent).toNat % 256 : Nat) : Int) + ((-exponent).toNat : Int) = (lost : Int) := by omega
    rw [pairValue, signed_cast, mul_assoc, ← zpow_add₀ (by norm_num), hsum, zpow_natCast]
  have hright : decimalValue negative coefficient exponent * 10 ^ ((-exponent).toNat : Int) =
      (if negative then -(coefficient : ℚ) else coefficient) * 10 ^ exponent.toNat := by
    have hsum : exponent + ((-exponent).toNat : Int) = (exponent.toNat : Int) := by omega
    rw [decimalValue, mul_assoc, ← zpow_add₀ (by norm_num), hsum, zpow_natCast]
  rw [← mul_left_inj' (ne_of_gt hpow), hleft, hright]
  cases negative
  · simp only [Bool.false_eq_true, if_false]
    norm_cast
  · simp only [if_true, neg_mul, neg_inj]
    norm_cast

theorem digits_ne {kept drop lost scale : Nat} (hlost : ¬10 ^ drop ∣ coefficient) :
    kept * 10 ^ (scale + drop) * 10 ^ lost ≠ coefficient * 10 ^ scale := by
  intro heq
  have hexact : kept * 10 ^ drop * 10 ^ lost = coefficient := by
    apply Nat.eq_of_mul_eq_mul_right (Nat.pow_pos (by decide : 0 < 10))
    rw [← heq, Nat.pow_add]
    ring
  exact hlost ⟨kept * 10 ^ lost, by rw [← hexact]; ring⟩

theorem shifted_eq_iff {lost scale : Nat} (hcoefficient : coefficient ≠ 0) :
    coefficient * 10 ^ scale * 10 ^ (256 * lost) = coefficient * 10 ^ scale ↔ lost = 0 := by
  have hpos : 0 < coefficient * 10 ^ scale :=
    Nat.mul_pos (Nat.pos_of_ne_zero hcoefficient) (Nat.pow_pos (by decide))
  rw [Nat.mul_eq_left hpos.ne', Nat.pow_eq_one]
  omega

end Values

/-- An overflow is cut to the context's largest number, and what the scale's octet has lost makes that the decimal. -/
def CutToItself (context : Decimal.Context) (negative : Bool) (coefficient : Nat) (exponent : Int) : Prop :=
  context.rounding.cuts negative = true ∧ context.emax + 1 < exponent.toNat + Decimal.digitCount coefficient ∧
    context.largest * 10 ^ (256 * ((-exponent).toNat / 256)) = coefficient * 10 ^ exponent.toNat

/-- A decimal keeps its value exactly if it is zero, or the thread's context holds its integer and it has at most 255
digits behind the point. -/
theorem keepsValue_iff {context : Decimal.Context} {negative : Bool} {coefficient : Nat} {exponent : Int} {enc : Bytes}
    (h : encodeFieldValue context 0 (.decimal negative coefficient exponent) = .ok enc) :
    KeepsValue negative coefficient exponent enc ↔ coefficient = 0 ∨
      (-255 ≤ exponent ∧ context.Holds coefficient exponent.toNat) ∨ CutToItself context negative coefficient exponent := by
  rw [encodeFieldValue.eq_def] at h
  obtain ⟨-, -, h⟩ := bind_eq_ok.mp h
  obtain ⟨value, hvalue, henc⟩ := encodeDecimal_eq_ok h
  obtain ⟨n, hleaves, rfl⟩ := decimalInteger_cases hvalue
  have hread : decodeFieldValue ([] ++ (enc ++ [])) tableRoom 0 = .ok (.tuple [.int ((-exponent).toNat % 256),
      .int (Decimal.signed negative n)], 0 + enc.length) := decodeFieldValue_encodeDecimalPair [] [] henc
  rw [List.nil_append, List.append_nil, Nat.zero_add] at hread
  have hkept : KeepsValue negative coefficient exponent enc ↔
      n * 10 ^ (256 * ((-exponent).toNat / 256)) = coefficient * 10 ^ exponent.toNat := by
    rw [← pairValue_eq_iff]
    constructor
    · rintro ⟨scale, value, hpair, hkept⟩
      rw [hread] at hpair
      cases hpair
      exact hkept
    · exact fun hkept => ⟨_, _, hread, hkept⟩
  rw [hkept]
  cases hleaves with
  | all hholds =>
    rcases Nat.eq_zero_or_pos coefficient with rfl | hpos
    · simp
    · have hholds := hholds.resolve_left hpos.ne'
      rw [shifted_eq_iff hpos.ne']
      constructor
      · exact fun hlost => .inr (.inl ⟨by omega, hholds⟩)
      · rintro (hzero | ⟨hscale, -⟩ | ⟨-, hover, -⟩)
        · omega
        · omega
        · have hfits := hholds.1
          omega
  | digits kept drop hlost hkept hfits hnot =>
    refine iff_of_false (digits_ne hlost) ?_
    rintro (rfl | ⟨-, hholds⟩ | ⟨-, hover, -⟩)
    · exact hlost (Nat.dvd_zero _)
    · exact hnot hholds
    · omega
  | largest hcoefficient hcuts hover =>
    constructor
    · exact fun hsame => .inr (.inr ⟨hcuts, hover, hsame⟩)
    · rintro (hzero | ⟨-, hholds⟩ | ⟨-, -, hsame⟩)
      · exact absurd hzero hcoefficient
      · have hfits := hholds.1
        omega
      · exact hsame

theorem negativeDecimal_keepsValue : KeepsValue true 125 (-2) [68, 2, 255, 255, 255, 131] :=
  (keepsValue_iff (rfl : encodeFieldValue { Decimal.Context.default with prec := 6, prec_pos := by decide } 0
    (.decimal true 125 (-2)) = .ok [68, 2, 255, 255, 255, 131])).mpr (.inr (.inl ⟨by decide, by decide⟩))

/-- Of a scale of 256 nothing is left. -/
theorem smallDecimal_not_keepsValue : ¬∀ enc,
    encodeFieldValue .default 0 (.decimal false 1 (-256)) = .ok enc → KeepsValue false 1 (-256) enc := by
  intro h
  obtain ⟨scale, value, hread, hkept⟩ := h [68, 0, 0, 0, 0, 1] rfl
  have hlost : decodeFieldValue [68, 0, 0, 0, 0, 1] tableRoom 0 = .ok (.tuple [.int 0, .int 1], 6) :=
    decodeFieldValue_encodeDecimalPair [] [] (rfl : encodeDecimalPair 256 1 = .ok [68, 0, 0, 0, 0, 1])
  rw [hlost] at hread
  cases hread
  norm_num [pairValue, decimalValue] at hkept

end Nuropb.Transport
