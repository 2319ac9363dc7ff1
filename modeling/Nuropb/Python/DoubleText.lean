import Mathlib.Data.List.TakeWhile
import Nuropb.Library.Rounding
import Nuropb.Python.Json

/-! # A double reads back from its text

Seventeen decimal digits tell the doubles apart, so that there are digits to write; those that are written read back.
-/
namespace Nuropb.Double

open Library

/-- Significands of 53 binary digits. -/
def binary64 : BinaryFormat := ⟨52, -1074⟩

section Quotients

variable {num den : Nat}

theorem roundHalfEven_eq (hden : 0 < den) : roundHalfEven num den = roundEven ((num : ℚ) / den) := by
  have hpos : (0 : ℚ) < den := by exact_mod_cast hden
  have hfloor : ⌊(num : ℚ) / den⌋₊ = num / den := Nat.floor_div_eq_div num den
  have hsplit : (num : ℚ) = den * (num / den : ℕ) + (num % den : ℕ) := by
    exact_mod_cast (Nat.div_add_mod num den).symm
  have hrest : 2 * ((num : ℚ) / den - (num / den : ℕ)) = 2 * (num % den : ℕ) / den := by
    have hdiv : (num : ℚ) / den = (num / den : ℕ) + (num % den : ℕ) / den := by
      rw [div_eq_iff hpos.ne', add_mul, div_mul_cancel₀ _ hpos.ne', hsplit]
      ring
    rw [hdiv]
    ring
  have hgt : 1 < 2 * ((num : ℚ) / den - (num / den : ℕ)) ↔ den < 2 * (num % den) := by
    rw [hrest, one_lt_div hpos]
    exact_mod_cast Iff.rfl
  have heq : 2 * ((num : ℚ) / den - (num / den : ℕ)) = 1 ↔ 2 * (num % den) = den := by
    rw [hrest, div_eq_one_iff_eq hpos.ne']
    exact_mod_cast Iff.rfl
  unfold roundHalfEven roundEven
  simp only [hfloor, hgt, heq]

theorem zpow_eq_div (b : ℚ) (hb : b ≠ 0) (e : ℤ) : b ^ e = b ^ e.toNat / b ^ (-e).toNat := by
  rw [← zpow_natCast, ← zpow_natCast, ← zpow_sub₀ hb]
  congr 1
  omega

theorem two_zpow_le_iff (e : ℤ) (hden : 0 < den) :
    (2 : ℚ) ^ e ≤ num / den ↔ den * 2 ^ e.toNat ≤ num * 2 ^ (-e).toNat := by
  have hpos : (0 : ℚ) < den := by exact_mod_cast hden
  rw [zpow_eq_div 2 (by norm_num), div_le_div_iff₀ (by positivity) hpos, mul_comm]
  exact_mod_cast Iff.rfl

/-- The exponent of the first binary digit. -/
theorem log_eq (hnum : num ≠ 0) (hden : 0 < den) {guess : ℤ} (hguess : guess = num.log2 - den.log2) :
    Int.log 2 ((num : ℚ) / den) =
      if den * 2 ^ guess.toNat ≤ num * 2 ^ (-guess).toNat then guess else guess - 1 := by
  have hpos : (0 : ℚ) < den := by exact_mod_cast hden
  have hnumle : (2 : ℚ) ^ num.log2 ≤ num := by exact_mod_cast Nat.log2_self_le hnum
  have hnumlt : (num : ℚ) < 2 ^ (num.log2 + 1) := by exact_mod_cast Nat.lt_log2_self
  have hdenle : (2 : ℚ) ^ den.log2 ≤ den := by exact_mod_cast Nat.log2_self_le hden.ne'
  have hdenlt : (den : ℚ) < 2 ^ (den.log2 + 1) := by exact_mod_cast Nat.lt_log2_self
  have hlower : (2 : ℚ) ^ (guess - 1) ≤ num / den := by
    have hsplit : (2 : ℚ) ^ (guess - 1) * 2 ^ (den.log2 + 1) = 2 ^ num.log2 := by
      rw [← zpow_natCast, ← zpow_natCast, ← zpow_add₀ (by norm_num)]
      congr 1
      omega
    rw [le_div_iff₀ hpos]
    calc (2 : ℚ) ^ (guess - 1) * den ≤ 2 ^ (guess - 1) * 2 ^ (den.log2 + 1) :=
          mul_le_mul_of_nonneg_left hdenlt.le (BinaryFormat.two_zpow_pos _).le
      _ = 2 ^ num.log2 := hsplit
      _ ≤ num := hnumle
  have hupper : (num : ℚ) / den < 2 ^ (guess + 1) := by
    have hsplit : (2 : ℚ) ^ (guess + 1) * 2 ^ den.log2 = 2 ^ (num.log2 + 1) := by
      rw [← zpow_natCast, ← zpow_natCast, ← zpow_add₀ (by norm_num)]
      congr 1
      omega
    rw [div_lt_iff₀ hpos]
    calc (num : ℚ) < 2 ^ (num.log2 + 1) := hnumlt
      _ = 2 ^ (guess + 1) * 2 ^ den.log2 := hsplit.symm
      _ ≤ 2 ^ (guess + 1) * den := mul_le_mul_of_nonneg_left hdenle (BinaryFormat.two_zpow_pos _).le
  split
  · exact BinaryFormat.log_of_bounds ((two_zpow_le_iff guess hden).mpr ‹_›) hupper
  · rename_i hbelow
    refine BinaryFormat.log_of_bounds hlower ?_
    rw [sub_add_cancel]
    exact not_le.mp fun hle => hbelow ((two_zpow_le_iff guess hden).mp hle)

/-- Only the quotient matters. -/
theorem nearest_eq (hnum : num ≠ 0) (hden : 0 < den) :
    nearest num den = min (binary64.round ((num : ℚ) / den)) infinity := by
  have hpos : (0 : ℚ) < den := by exact_mod_cast hden
  unfold nearest
  rw [if_neg hnum]
  dsimp only
  rw [← log_eq hnum hden rfl]
  have hexponent : max (Int.log 2 ((num : ℚ) / den) - 52) (-1074) = binary64.exponent ((num : ℚ) / den) := rfl
  rw [hexponent, BinaryFormat.round, BinaryFormat.code]
  generalize binary64.exponent ((num : ℚ) / den) = e
  have hscaled : (((num * 2 ^ (-e).toNat : ℕ) : ℚ) / (den * 2 ^ e.toNat : ℕ)) = num / den / 2 ^ e := by
    rw [zpow_eq_div 2 (by norm_num) e]
    push_cast
    field_simp
  rw [roundHalfEven_eq (by positivity), hscaled]
  have hlowest : e - binary64.lowest = e + 1074 := sub_neg_eq_add e 1074
  rw [hlowest]
  rfl

theorem nearest_zero : nearest 0 den = 0 := if_pos rfl

theorem nearest_congr {num' den' : Nat} (hden : 0 < den) (hden' : 0 < den') (h : num * den' = num' * den) :
    nearest num den = nearest num' den' := by
  by_cases hnum : num = 0
  · subst hnum
    have hzero : num' = 0 := by simpa [hden.ne'] using h.symm
    rw [hzero, nearest_zero, nearest_zero]
  · have hnum' : num' ≠ 0 := by
      rintro rfl
      simp [hnum, hden'.ne'] at h
    have hdiv : (num : ℚ) / den = num' / den' := by
      rw [div_eq_div_iff (by exact_mod_cast hden.ne') (by exact_mod_cast hden'.ne')]
      exact_mod_cast h
    rw [nearest_eq hnum hden, nearest_eq hnum' hden', hdiv]

theorem nearest_decimal {a b : Nat} {e e' : ℤ} (h : (a : ℚ) * 10 ^ e = b * 10 ^ e') :
    nearest (a * 10 ^ e.toNat) (10 ^ (-e).toNat) = nearest (b * 10 ^ e'.toNat) (10 ^ (-e').toNat) := by
  refine nearest_congr (by positivity) (by positivity) ?_
  rw [zpow_eq_div 10 (by norm_num), zpow_eq_div 10 (by norm_num), ← mul_div_assoc, ← mul_div_assoc,
    div_eq_div_iff (by positivity) (by positivity)] at h
  exact_mod_cast h

end Quotients

/-! ## Enough digits -/

section Digits

variable {magnitude : Nat}

def significand (magnitude : Nat) : Nat :=
  if magnitude / 2 ^ 52 = 0 then magnitude % 2 ^ 52 else magnitude % 2 ^ 52 + 2 ^ 52

def lastExponent (magnitude : Nat) : ℤ := (max (magnitude / 2 ^ 52) 1 : ℕ) - 1075

theorem significand_pos (hpos : 0 < magnitude) : 0 < significand magnitude := by
  unfold significand
  split
  · rename_i hzero
    have hsplit := Nat.div_add_mod magnitude (2 ^ 52)
    rw [hzero, mul_zero, zero_add] at hsplit
    rwa [hsplit]
  · positivity

theorem normal_significand : binary64.Normal (significand magnitude) (lastExponent magnitude) := by
  have hfraction : magnitude % 2 ^ 52 < 2 ^ 52 := Nat.mod_lt _ (by positivity)
  unfold significand lastExponent
  refine ⟨?_, ?_, ?_⟩
  · change (-1074 : ℤ) ≤ _
    omega
  · change _ < 2 ^ 53
    split <;> omega
  · change 2 ^ 52 ≤ _ ∨ _ = (-1074 : ℤ)
    split <;> omega

theorem code_significand : binary64.code (significand magnitude) (lastExponent magnitude) = magnitude := by
  have hsplit := Nat.div_add_mod magnitude (2 ^ 52)
  have hplace : (lastExponent magnitude - binary64.lowest).toNat = max (magnitude / 2 ^ 52) 1 - 1 := by
    change ((max (magnitude / 2 ^ 52) 1 : ℕ) - 1075 - (-1074) : ℤ).toNat = _
    omega
  rw [BinaryFormat.code, hplace]
  change (max (magnitude / 2 ^ 52) 1 - 1) * 2 ^ 52 + significand magnitude = magnitude
  unfold significand
  split <;> omega

/-- A double as its significand and the exponent of the last digit of that. -/
theorem toQuotient_eq : ((toQuotient magnitude).1 : ℚ) / (toQuotient magnitude).2 =
    significand magnitude * 2 ^ lastExponent magnitude := by
  have hnum : (toQuotient magnitude).1 = significand magnitude * 2 ^ (lastExponent magnitude).toNat := by
    have hexp : max (magnitude / 2 ^ 52) 1 - 1075 = (lastExponent magnitude).toNat := by
      unfold lastExponent
      omega
    rw [← hexp]
    rfl
  have hden : (toQuotient magnitude).2 = 2 ^ (-lastExponent magnitude).toNat := by
    have hexp : 1075 - max (magnitude / 2 ^ 52) 1 = (-lastExponent magnitude).toNat := by
      unfold lastExponent
      omega
    rw [← hexp]
    rfl
  rw [hnum, hden, zpow_eq_div 2 (by norm_num)]
  push_cast
  ring

theorem toQuotient_pos (hpos : 0 < magnitude) : 0 < (toQuotient magnitude).1 ∧ 0 < (toQuotient magnitude).2 :=
  ⟨Nat.mul_pos (significand_pos hpos) (by positivity), by unfold toQuotient; positivity⟩

/-- The point stands at the first digit or before it. -/
theorem pow_pointOf_le {num den : Nat} (hnum : 0 < num) (hden : 0 < den) :
    (10 : ℚ) ^ (pointOf num den - 1) ≤ num / den := by
  have hpos : (0 : ℚ) < den := by exact_mod_cast hden
  unfold pointOf
  split
  · rename_i hle
    have hlog : 10 ^ Nat.log 10 (num / den) ≤ num / den := Nat.pow_log_le_self 10 (Nat.div_pos hle hden).ne'
    have hmul : 10 ^ Nat.log 10 (num / den) * den ≤ num := (Nat.le_div_iff_mul_le hden).mp hlog
    rw [add_sub_cancel_right, zpow_natCast, le_div_iff₀ hpos]
    exact_mod_cast hmul
  · have hlog : (den - 1) / num < 10 ^ (Nat.log 10 ((den - 1) / num) + 1) := Nat.lt_pow_succ_log_self (by norm_num) _
    generalize Nat.log 10 ((den - 1) / num) = l at hlog
    have hmul : den - 1 < 10 ^ (l + 1) * num := by
      have := (Nat.div_lt_iff_lt_mul hnum).mp hlog
      exact this
    have hle : den ≤ num * 10 ^ (l + 1) := by
      rw [mul_comm]
      omega
    have heq : (-(l : ℤ) - 1) = -((l + 1 : ℕ) : ℤ) := by omega
    rw [heq, zpow_neg, zpow_natCast, le_div_iff₀ hpos, inv_mul_le_iff₀ (by positivity)]
    rw [mul_comm]
    exact_mod_cast hle

/-- Seventeen digits read back. -/
theorem digitsOf_seventeen (hpos : 0 < magnitude) (hfinite : magnitude < infinity) :
    (digitsOf magnitude (toQuotient magnitude).1 (toQuotient magnitude).2 17
      (pointOf (toQuotient magnitude).1 (toQuotient magnitude).2)).isSome = true := by
  obtain ⟨hnum, hden⟩ := toQuotient_pos hpos
  have hquotient := @toQuotient_eq magnitude
  have hpoint := pow_pointOf_le hnum hden
  revert hnum hden hquotient hpoint
  generalize (toQuotient magnitude).1 = num
  generalize (toQuotient magnitude).2 = den
  generalize pointOf num den = point
  intro hnum hden hquotient hpoint
  set shift : ℤ := (17 : ℕ) - point with hshift
  set first := roundHalfEven (num * 10 ^ shift.toNat) (den * 10 ^ (-shift).toNat) with hfirst
  have hunit : (0 : ℚ) < 10 ^ shift := zpow_pos (by norm_num) _
  have hrounded : first = roundEven (significand magnitude * 2 ^ lastExponent magnitude * 10 ^ shift) := by
    rw [hfirst, roundHalfEven_eq (by positivity), ← hquotient, zpow_eq_div 10 (by norm_num)]
    push_cast
    congr 1
    field_simp
  have hround := BinaryFormat.round_decimal (n := 16) (@normal_significand magnitude) (significand_pos hpos)
    (by change 2 ^ 53 < 10 ^ 16; norm_num) (by rw [← hquotient]; exact hpoint)
  have hplace : ((16 : ℕ) + 1 - point : ℤ) = shift := by
    rw [hshift]
    norm_num
  rw [hplace, ← hrounded, code_significand] at hround
  have hnonzero : first ≠ 0 := by
    have hlarge : (1 : ℚ) ≤ significand magnitude * 2 ^ lastExponent magnitude * 10 ^ shift := by
      rw [← hquotient]
      calc (1 : ℚ) ≤ 10 ^ (point - 1) * 10 ^ shift := by
            rw [← zpow_add₀ (by norm_num), hshift]
            exact one_le_zpow₀ (by norm_num) (by omega)
        _ ≤ num / den * 10 ^ shift := mul_le_mul_of_nonneg_right hpoint hunit.le
    have herror := (abs_le.mp (roundEven_error (zero_le_one.trans hlarge))).1
    rw [← hrounded] at herror
    intro hzero
    rw [hzero] at herror
    norm_num at herror
    linarith
  have hreads : nearest (first * 10 ^ (-shift).toNat) (10 ^ shift.toNat) = magnitude := by
    rw [nearest_eq (by positivity) (by positivity)]
    have heq : (((first * 10 ^ (-shift).toNat : ℕ) : ℚ) / (10 ^ shift.toNat : ℕ)) = first / 10 ^ shift := by
      rw [zpow_eq_div 10 (by norm_num) shift]
      push_cast
      field_simp
    rw [heq, hround, min_eq_left hfinite.le]
  unfold digitsOf
  dsimp only
  rw [if_pos hreads]
  rfl

/-! ## The digits -/

theorem natOf_eq (cs : List Char) : Json.natOf cs = Nat.ofDigitChars 10 cs 0 := by
  rw [Json.natOf, Nat.ofDigitChars_eq_foldl]
  congr 1
  funext n c
  rw [mul_comm]

theorem natOf_append (cs ds : List Char) : Json.natOf (cs ++ ds) = Json.natOf cs * 10 ^ ds.length + Json.natOf ds := by
  rw [natOf_eq, natOf_eq, natOf_eq, Nat.ofDigitChars_append, Nat.ofDigitChars_eq_ofDigitChars_zero, mul_comm]

theorem natOf_zeros (k : Nat) : Json.natOf (zeros k) = 0 := by
  rw [natOf_eq, zeros, Nat.ofDigitChars_replicate_zero, mul_zero]

theorem natOf_toDigits (n : Nat) : Json.natOf (Nat.toDigits 10 n) = n := by rw [natOf_eq, Nat.ofDigitChars_ten_toDigits]

theorem length_zeros (k : Nat) : (zeros k).length = k := List.length_replicate

/-- Only zero begins with a zero. -/
theorem head_toDigits {n : Nat} (hn : 0 < n) : (Nat.toDigits 10 n).head? ≠ some '0' := by
  induction n using Nat.strongRecOn with
  | ind n ih =>
    by_cases hlt : n < 10
    · rw [Nat.toDigits_of_lt_base hlt]
      have hdigit : ∀ d < 10, 0 < d → d.digitChar ≠ '0' := by decide
      exact fun hhead => hdigit n hlt hn (Option.some.inj hhead)
    · have hle : 10 ≤ n := not_lt.mp hlt
      rw [Nat.toDigits_of_base_le (by norm_num) hle, List.head?_append_of_ne_nil _ Nat.toDigits_ne_nil]
      exact ih (n / 10) (Nat.div_lt_self hn (by norm_num)) (Nat.div_pos hle (by norm_num))

theorem stripZeros_append (cs : List Char) : ∃ k, cs = stripZeros cs ++ zeros k := by
  refine ⟨(cs.reverse.takeWhile (· = '0')).length, ?_⟩
  have hzeros : cs.reverse.takeWhile (· = '0') = zeros (cs.reverse.takeWhile (· = '0')).length := by
    refine List.eq_replicate_of_mem fun c hc => ?_
    have hzero := List.mem_takeWhile_imp hc
    exact of_decide_eq_true hzero
  have hsplit := congrArg List.reverse (List.takeWhile_append_dropWhile (p := (· = '0')) (l := cs.reverse))
  rw [List.reverse_append, List.reverse_reverse] at hsplit
  have hreversed : (cs.reverse.takeWhile (· = '0')).reverse = zeros (cs.reverse.takeWhile (· = '0')).length := by
    conv_lhs => rw [hzeros]
    exact List.reverse_replicate
  rw [hreversed] at hsplit
  exact hsplit.symm

/-- Digits that are written before or behind a point. -/
structure Digits (cs : List Char) : Prop where
  digits : ∀ c ∈ cs, c.isDigit = true
  nonempty : cs ≠ []

theorem digits_toDigits (n : Nat) : Digits (Nat.toDigits 10 n) :=
  ⟨fun _ hc => Nat.isDigit_of_mem_toDigits (by norm_num) (by norm_num) hc, Nat.toDigits_ne_nil⟩

/-- The digits that are written, with the place of the point, read back. -/
theorem shortest_reads (hpos : 0 < magnitude) (hfinite : magnitude < infinity) :
    ∃ digits point, shortest magnitude = (digits, point) ∧ Digits digits ∧ digits.head? ≠ some '0' ∧
      ∀ (n : Nat) (e : ℤ), (n : ℚ) * 10 ^ e = Json.natOf digits * 10 ^ (point - digits.length) →
        nearest (n * 10 ^ e.toNat) (10 ^ (-e).toNat) = magnitude := by
  have hreads {num den n : Nat} {point : ℤ} {digits : Nat} (h : digitsOf magnitude num den n point = some digits) :
      nearest (digits * 10 ^ (point - n).toNat) (10 ^ (-(point - n)).toNat) = magnitude := by
    unfold digitsOf at h
    dsimp only at h
    rw [neg_sub, ← neg_sub (n : ℤ) point]
    split at h
    · rename_i hfirst
      cases h
      exact hfirst
    · have hread := List.find?_some h
      exact of_decide_eq_true hread
  have hseventeen := digitsOf_seventeen hpos hfinite
  unfold shortest
  dsimp only
  split
  · rename_i digits n hfound
    obtain ⟨k, -, hk⟩ := List.exists_of_findSome?_eq_some hfound
    obtain ⟨found, hdigits, heq⟩ := Option.map_eq_some_iff.mp hk
    obtain ⟨rfl, rfl⟩ := Prod.mk.inj heq
    have hread := hreads hdigits
    have hnonzero : 0 < found := by
      refine Nat.pos_of_ne_zero ?_
      rintro rfl
      rw [zero_mul, nearest_zero] at hread
      omega
    obtain ⟨zs, hzs⟩ := stripZeros_append (Nat.toDigits 10 found)
    have hvalue : Json.natOf (stripZeros (Nat.toDigits 10 found)) * 10 ^ zs = found := by
      have hall := natOf_toDigits found
      rw [hzs, natOf_append, natOf_zeros, length_zeros, add_zero] at hall
      exact hall
    have hnonempty : stripZeros (Nat.toDigits 10 found) ≠ [] := by
      intro hempty
      rw [hempty] at hvalue
      change 0 * 10 ^ zs = found at hvalue
      omega
    have hlength := congrArg List.length hzs
    rw [List.length_append, length_zeros] at hlength
    refine ⟨_, _, rfl, ⟨fun c hc => (digits_toDigits found).digits c ?_, hnonempty⟩, fun hhead => ?_, fun a e heq => ?_⟩
    · rw [hzs]
      exact List.mem_append_left _ hc
    · refine head_toDigits hnonzero ?_
      rw [hzs, List.head?_append_of_ne_nil _ hnonempty]
      exact hhead
    · rw [← hread]
      refine nearest_decimal (heq.trans ?_)
      have hcast : (found : ℚ) = Json.natOf (stripZeros (Nat.toDigits 10 found)) * 10 ^ zs := by exact_mod_cast hvalue.symm
      rw [hcast, mul_assoc, ← zpow_natCast, ← zpow_add₀ (by norm_num), hlength]
      congr 2
      push_cast
      ring
  · rename_i hnone
    have hlast := List.findSome?_eq_none_iff.mp hnone 16 (by decide)
    rw [Option.map_eq_none_iff] at hlast
    rw [hlast] at hseventeen
    cases hseventeen

end Digits

end Nuropb.Double
