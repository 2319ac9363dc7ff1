import Mathlib.Data.Nat.Log
import Nuropb.Library.Outcome
import Nuropb.Python.Value

/-! # Decimals

A finite decimal is a sign, a coefficient and an exponent. What comes of an operation is rounded under the
thread's context, which says which of the signals of an operation raise.
-/
namespace Nuropb.Decimal

open Library

inductive Rounding
  | up
  | down
  | ceiling
  | floor
  | halfUp
  | halfDown
  | halfEven
  | up05

inductive Signal
  | invalidOperation
  | overflow
  | inexact
  | rounded
  | clamped

/-- `Emin` is left out: no operation here comes near it. -/
structure Context where
  prec : Nat
  emax : Nat
  rounding : Rounding
  clamp : Bool
  traps : Signal → Bool
  prec_pos : 0 < prec

def digitCount (coefficient : Nat) : Nat := Nat.log 10 coefficient + 1

namespace Rounding

/-- Whether the digits that are kept go up by one, where `lost` of `unit` is cut off behind them. -/
def goesUp (negative : Bool) (kept lost unit : Nat) : Rounding → Bool
  | .up => lost ≠ 0
  | .down => false
  | .ceiling => !negative && lost ≠ 0
  | .floor => negative && lost ≠ 0
  | .halfUp => unit ≤ 2 * lost
  | .halfDown => unit < 2 * lost
  | .halfEven => unit < 2 * lost ∨ unit = 2 * lost ∧ kept % 2 = 1
  | .up05 => lost ≠ 0 ∧ kept % 5 = 0

/-- Whether an overflow gives the largest number, where it would give infinity. -/
def cuts (negative : Bool) : Rounding → Bool
  | .down | .up05 => true
  | .ceiling => negative
  | .floor => !negative
  | _ => false

end Rounding

namespace Context

def default : Context where
  prec := 28
  emax := 999999
  rounding := .halfEven
  clamp := false
  traps
    | .invalidOperation | .overflow => true
    | _ => false
  prec_pos := by decide

variable (context : Context)

def signal (signals : List Signal) (result : PyVal) : Except Exc PyVal := do
  raiseIf (signals.any context.traps) .decimalError
  return result

def etop : Int := context.emax - context.prec + 1

def overflowed (negative : Bool) : Except Exc PyVal :=
  context.signal [.overflow, .inexact, .rounded]
    (if context.rounding.cuts negative then .decimal negative (10 ^ context.prec - 1) context.etop
    else .decimalSpecial false)

def round (negative : Bool) (coefficient : Nat) (exponent : Int) : Except Exc PyVal :=
  let drop := digitCount coefficient - context.prec
  let lost := coefficient % 10 ^ drop
  let kept := coefficient / 10 ^ drop
  let signals := if lost = 0 then [.rounded] else [.rounded, .inexact]
  let kept := if context.rounding.goesUp negative kept lost (10 ^ drop) then kept + 1 else kept
  if kept < 10 ^ context.prec then context.signal signals (.decimal negative kept (exponent + drop))
  else if context.emax < exponent + drop + context.prec then context.overflowed negative
  else context.signal signals (.decimal negative (10 ^ (context.prec - 1)) (exponent + drop + 1))

/-- What the context makes of a number whose exponent is not negative. -/
def fix (negative : Bool) (coefficient : Nat) (exponent : Int) : Except Exc PyVal :=
  if context.emax + 1 < exponent + digitCount coefficient then
    if coefficient = 0 then
      context.signal [.clamped] (.decimal negative 0 (if context.clamp then context.etop else context.emax))
    else context.overflowed negative
  else if context.clamp ∧ context.etop < exponent then
    context.signal [.clamped]
      (.decimal negative (coefficient * 10 ^ (exponent - context.etop).toNat) context.etop)
  else if context.prec < digitCount coefficient then context.round negative coefficient exponent
  else return .decimal negative coefficient exponent

/-- `value.scaleb(n)`, where the exponent that comes of it is not negative. -/
def scaleb (negative : Bool) (coefficient : Nat) (exponent n : Int) : Except Exc PyVal :=
  if 2 * (context.emax + context.prec) < n.natAbs then context.signal [.invalidOperation] (.decimalSpecial true)
  else context.fix negative coefficient (exponent + n)

/-- The context has the number as it is: the digits behind its first `prec` are zeros, and it does not overflow. -/
def Holds (coefficient : Nat) (exponent : Int) : Prop :=
  exponent + digitCount coefficient ≤ context.emax + 1 ∧ 10 ^ (digitCount coefficient - context.prec) ∣ coefficient

instance (coefficient : Nat) (exponent : Int) : Decidable (context.Holds coefficient exponent) :=
  inferInstanceAs (Decidable (_ ∧ _))

def largest : Nat := (10 ^ context.prec - 1) * 10 ^ context.etop.toNat / 10 ^ (-context.etop).toNat

end Context

/-! ## What is left of a number -/

/-- The integer that a context leaves of a number: all of it, its first digits, or the largest number in its place. -/
inductive Leaves (context : Context) (negative : Bool) (coefficient exponent : Nat) : Nat → Prop
  | all (h : coefficient = 0 ∨ context.Holds coefficient exponent) :
    Leaves context negative coefficient exponent (coefficient * 10 ^ exponent)
  | digits (kept drop : Nat) (hlost : ¬10 ^ drop ∣ coefficient)
    (hkept : kept = coefficient / 10 ^ drop ∨ kept = coefficient / 10 ^ drop + 1)
    (hfits : exponent + digitCount coefficient ≤ context.emax + 1) (hholds : ¬context.Holds coefficient exponent) :
    Leaves context negative coefficient exponent (kept * 10 ^ (exponent + drop))
  | largest (hcoefficient : coefficient ≠ 0) (hcuts : context.rounding.cuts negative = true)
    (hover : context.emax + 1 < exponent + digitCount coefficient) :
    Leaves context negative coefficient exponent context.largest

def signed (negative : Bool) (n : Nat) : Int := if negative then -n else n

section Rounding

variable {context : Context} {negative : Bool} {coefficient exponent : Nat} {result : PyVal} {value : Int}

theorem truncDecimal_natCast (negative : Bool) (coefficient n : Nat) :
    truncDecimal negative coefficient n = signed negative (coefficient * 10 ^ n) := by
  have hscale : (-(n : Int)).toNat = 0 := by omega
  rw [truncDecimal, hscale, Nat.pow_zero, Nat.div_one, Int.toNat_natCast]
  rfl

theorem signal_eq_ok {signals : List Signal} {given : PyVal} (h : context.signal signals given = .ok result) :
    result = given := by
  obtain ⟨_, -, h⟩ := bind_eq_ok.mp h
  cases h
  rfl

theorem overflowed_cases (h : context.overflowed negative = .ok result) (hvalue : pyInt result = .ok value) :
    context.rounding.cuts negative = true ∧ value = signed negative context.largest := by
  cases hcuts : context.rounding.cuts negative with
  | false =>
    rw [Context.overflowed, hcuts] at h
    rw [signal_eq_ok h] at hvalue
    cases hvalue
  | true =>
    rw [Context.overflowed, hcuts] at h
    rw [signal_eq_ok h] at hvalue
    cases hvalue
    exact ⟨rfl, rfl⟩

theorem not_cuts_of_goesUp {mode : Rounding} {kept lost unit digits : Nat} (hdigits : 0 < digits)
    (h : mode.goesUp negative kept lost unit = true) (hcarry : kept + 1 = 10 ^ digits) : mode.cuts negative = false := by
  cases mode with
  | up05 =>
    obtain ⟨digits, rfl⟩ := Nat.exists_eq_succ_of_ne_zero (Nat.ne_of_gt hdigits)
    simp only [Rounding.goesUp, decide_eq_true_eq] at h
    rw [Nat.pow_succ] at hcarry
    omega
  | ceiling =>
    simp only [Rounding.goesUp, Bool.and_eq_true, Bool.not_eq_true'] at h
    exact h.1
  | floor =>
    simp only [Rounding.goesUp, Bool.and_eq_true] at h
    rw [Rounding.cuts, h.1]
    rfl
  | down => cases h
  | _ => rfl

theorem kept_lt (h : context.prec < digitCount coefficient) :
    coefficient / 10 ^ (digitCount coefficient - context.prec) < 10 ^ context.prec := by
  rw [Nat.div_lt_iff_lt_mul (Nat.pow_pos (by decide)), ← Nat.pow_add, Nat.add_sub_cancel' h.le]
  exact Nat.lt_pow_succ_log_self (by decide) coefficient

theorem not_goesUp_exact (mode : Rounding) (negative : Bool) (kept : Nat) {unit : Nat} (h : 0 < unit) :
    mode.goesUp negative kept 0 unit = false := by
  cases mode <;> simp [Rounding.goesUp] <;> omega

theorem leaves_of_signal {signals : List Signal} {kept scale n : Nat}
    (h : context.signal signals (.decimal negative kept scale) = .ok result) (hvalue : pyInt result = .ok value)
    (hleaves : Leaves context negative coefficient exponent n) (heq : kept * 10 ^ scale = n) :
    ∃ n, Leaves context negative coefficient exponent n ∧ value = signed negative n := by
  rw [signal_eq_ok h] at hvalue
  cases hvalue
  exact ⟨n, hleaves, by rw [truncDecimal_natCast, heq]⟩

theorem round_cases (hprec : context.prec < digitCount coefficient)
    (hfits : exponent + digitCount coefficient ≤ context.emax + 1)
    (h : context.round negative coefficient exponent = .ok result) (hvalue : pyInt result = .ok value) :
    ∃ n, Leaves context negative coefficient exponent n ∧ value = signed negative n := by
  have hlt := kept_lt hprec
  rw [Context.round] at h
  generalize hdrop : digitCount coefficient - context.prec = drop at *
  have hholds : context.Holds coefficient exponent ↔ 10 ^ drop ∣ coefficient := by
    rw [Context.Holds, hdrop]
    exact and_iff_right (by omega)
  rcases Nat.eq_zero_or_pos (coefficient % 10 ^ drop) with hlost | hlost
  · have hdvd := Nat.dvd_of_mod_eq_zero hlost
    rw [hlost, not_goesUp_exact _ _ _ (Nat.pow_pos (by decide)), if_neg Bool.false_ne_true, if_pos hlt, ← Nat.cast_add] at h
    apply leaves_of_signal h hvalue (.all (.inr (hholds.mpr hdvd)))
    rw [Nat.add_comm, Nat.pow_add, ← Nat.mul_assoc, Nat.div_mul_cancel hdvd]
  · have hdvd : ¬10 ^ drop ∣ coefficient := fun hdvd => Nat.ne_of_gt hlost (Nat.mod_eq_zero_of_dvd hdvd)
    have hleaves (kept : Nat) (hkept : kept = coefficient / 10 ^ drop ∨ kept = coefficient / 10 ^ drop + 1) :
        Leaves context negative coefficient exponent (kept * 10 ^ (exponent + drop)) :=
      .digits kept drop hdvd hkept hfits (mt hholds.mp hdvd)
    cases hup : context.rounding.goesUp negative (coefficient / 10 ^ drop) (coefficient % 10 ^ drop) (10 ^ drop) with
    | false =>
      rw [hup, if_neg Bool.false_ne_true, if_pos hlt, ← Nat.cast_add] at h
      exact leaves_of_signal h hvalue (hleaves _ (.inl rfl)) rfl
    | true =>
      rw [hup, if_pos rfl] at h
      rcases Nat.lt_or_ge (coefficient / 10 ^ drop + 1) (10 ^ context.prec) with hsmall | hcarry
      · rw [if_pos hsmall, ← Nat.cast_add] at h
        exact leaves_of_signal h hvalue (hleaves _ (.inr rfl)) rfl
      · -- The carry gives a one and zeros: one digit more than the context has.
        have hcarry : coefficient / 10 ^ drop + 1 = 10 ^ context.prec := by omega
        rw [if_neg (by omega)] at h
        split at h
        · have hcuts := (overflowed_cases h hvalue).1
          rw [not_cuts_of_goesUp context.prec_pos hup hcarry] at hcuts
          cases hcuts
        · have hscale : (exponent : Int) + drop + 1 = ((exponent + drop + 1 : Nat) : Int) := by push_cast; rfl
          rw [hscale] at h
          apply leaves_of_signal h hvalue (hleaves _ (.inr rfl))
          rw [hcarry, Nat.pow_succ', ← Nat.mul_assoc, ← Nat.pow_succ, Nat.succ_eq_add_one,
            Nat.sub_add_cancel context.prec_pos]

theorem truncDecimal_padded (negative : Bool) (coefficient : Nat) {top : Int} (h : top ≤ exponent) :
    truncDecimal negative (coefficient * 10 ^ ((exponent : Int) - top).toNat) top =
      signed negative (coefficient * 10 ^ exponent) := by
  have hscale : ((exponent : Int) - top).toNat + top.toNat = exponent + (-top).toNat := by omega
  rw [truncDecimal, Nat.mul_assoc, ← Nat.pow_add, hscale, Nat.pow_add, ← Nat.mul_assoc,
    Nat.mul_div_cancel _ (Nat.pow_pos (by decide))]
  rfl

/-- An integer that comes of a decimal is what its context leaves of it. -/
theorem fix_cases (h : context.fix negative coefficient exponent = .ok result) (hvalue : pyInt result = .ok value) :
    ∃ n, Leaves context negative coefficient exponent n ∧ value = signed negative n := by
  rw [Context.fix] at h
  split at h
  · split at h
    · subst coefficient
      rw [signal_eq_ok h] at hvalue
      cases hvalue
      refine ⟨_, .all (.inl rfl), ?_⟩
      simp [truncDecimal, signed]
    · obtain ⟨hcuts, rfl⟩ := overflowed_cases h hvalue
      exact ⟨_, .largest ‹_› hcuts (by omega), rfl⟩
  · have hfits : exponent + digitCount coefficient ≤ context.emax + 1 := by omega
    have hholds (hdigits : digitCount coefficient ≤ context.prec) : context.Holds coefficient exponent := by
      refine ⟨by omega, ?_⟩
      rw [Nat.sub_eq_zero_of_le hdigits, Nat.pow_zero]
      exact Nat.one_dvd coefficient
    split at h
    · rename_i hclamp
      rw [signal_eq_ok h] at hvalue
      cases hvalue
      have htop := hclamp.2
      refine ⟨_, .all (.inr (hholds (by rw [Context.etop] at htop; omega))), ?_⟩
      rw [truncDecimal_padded negative coefficient htop.le]
    · split at h
      · exact round_cases ‹_› hfits h hvalue
      · cases h
        cases hvalue
        exact ⟨_, .all (.inr (hholds (by omega))), truncDecimal_natCast negative coefficient exponent⟩

end Rounding

end Nuropb.Decimal
