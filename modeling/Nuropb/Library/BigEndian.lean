import Mathlib.Data.List.Induction
import Mathlib.Tactic.Positivity
import Mathlib.Tactic.Zify

/-! # Big-endian integers of fixed width

`toBE w n` writes `n` modulo `256 ^ w` in `w` bytes, most significant byte first; signed
integers are written in two's complement. Reading back gives the number in range.
-/
namespace Nuropb.Library

abbrev Bytes := List UInt8

/-- The bytes from position `start` up to `stop`, cut off at the end of the data. -/
def slice (data : Bytes) (start stop : Nat) : Bytes := (data.drop start).take (stop - start)

def toBE : (w n : Nat) → Bytes
  | 0, _ => []
  | w + 1, n => toBE w (n / 256) ++ [UInt8.ofNat n]

def ofBE (bs : Bytes) : Nat := bs.foldl (fun acc b => acc * 256 + b.toNat) 0

def toBESigned (w : Nat) (i : Int) : Bytes := toBE w (i % 256 ^ w).toNat

def ofBESigned (bs : Bytes) : Int :=
  if 2 * ofBE bs < 256 ^ bs.length then ofBE bs else ofBE bs - 256 ^ bs.length

@[simp] theorem length_toBE (w n : Nat) : (toBE w n).length = w := by
  induction w generalizing n with
  | zero => rfl
  | succ w ih => simp [toBE, ih]

@[simp] theorem length_toBESigned (w : Nat) (i : Int) : (toBESigned w i).length = w :=
  length_toBE w _

@[simp] theorem ofBE_append_singleton (bs : Bytes) (b : UInt8) :
    ofBE (bs ++ [b]) = ofBE bs * 256 + b.toNat := by
  simp [ofBE]

theorem ofBE_toBE {w n : Nat} (h : n < 256 ^ w) : ofBE (toBE w n) = n := by
  induction w generalizing n with
  | zero =>
    have hn : n = 0 := by simpa using h
    subst hn
    rfl
  | succ w ih =>
    have hdiv : n / 256 < 256 ^ w := Nat.div_lt_of_lt_mul (by rwa [Nat.pow_succ, Nat.mul_comm] at h)
    rw [toBE, ofBE_append_singleton, ih hdiv]
    have hlast : (UInt8.ofNat n).toNat = n % 256 := by simp
    rw [hlast, Nat.mul_comm]
    exact Nat.div_add_mod n 256

theorem ofBE_lt (bs : Bytes) : ofBE bs < 256 ^ bs.length := by
  induction bs using List.reverseRec with
  | nil => decide
  | append_singleton bs b ih =>
    rw [ofBE_append_singleton, List.length_append, List.length_singleton, Nat.pow_succ]
    have hb : b.toNat < 256 := b.toNat_lt
    omega

theorem ofBESigned_toBESigned {w : Nat} {i : Int} (hlow : -(256 ^ w : Int) ≤ 2 * i)
    (hhigh : 2 * i < 256 ^ w) : ofBESigned (toBESigned w i) = i := by
  have hpow : (0 : Int) < 256 ^ w := by positivity
  have hmod : ((i % 256 ^ w).toNat : Int) = i % 256 ^ w :=
    Int.toNat_of_nonneg (Int.emod_nonneg _ hpow.ne')
  have hlt : (i % 256 ^ w).toNat < 256 ^ w := by
    have := Int.emod_lt_of_pos i hpow
    zify
    omega
  rw [ofBESigned, toBESigned, ofBE_toBE hlt, length_toBE]
  by_cases hi : 0 ≤ i
  · have hrem : i % 256 ^ w = i := Int.emod_eq_of_lt hi (by omega)
    have hsmall : 2 * (i % 256 ^ w).toNat < 256 ^ w := by
      zify
      rw [hmod, hrem]
      exact hhigh
    rw [if_pos hsmall, hmod, hrem]
  · have hrem : i % 256 ^ w = i + 256 ^ w := by
      rw [← Int.add_emod_right]
      exact Int.emod_eq_of_lt (by omega) (by omega)
    have hlarge : ¬2 * (i % 256 ^ w).toNat < 256 ^ w := by
      zify
      rw [hmod, hrem]
      omega
    rw [if_neg hlarge, hmod, hrem]
    omega

theorem ofBESigned_range (bs : Bytes) :
    -(256 ^ bs.length : Int) ≤ 2 * ofBESigned bs ∧ 2 * ofBESigned bs < 256 ^ bs.length := by
  have hlt : (ofBE bs : Int) < 256 ^ bs.length := by exact_mod_cast ofBE_lt bs
  unfold ofBESigned
  split
  · rename_i hsmall
    have hsmall : (2 * ofBE bs : Int) < 256 ^ bs.length := by exact_mod_cast hsmall
    omega
  · rename_i hlarge
    have hlarge : (256 ^ bs.length : Int) ≤ 2 * ofBE bs := by exact_mod_cast Nat.not_lt.mp hlarge
    omega

section Slices

variable (p m s : Bytes)

theorem slice_append : slice (p ++ (m ++ s)) p.length (p.length + m.length) = m := by
  simp [slice]

/-- The slice a reader takes at the end of a prefix, with the width it expects. -/
theorem slice_append_of_length {w : Nat} (h : m.length = w) :
    slice (p ++ (m ++ s)) p.length (p.length + w) = m := by
  rw [← h]
  exact slice_append p m s

theorem getElem?_append_cons (b : UInt8) : (p ++ b :: s)[p.length]? = some b := by
  simp

end Slices

end Nuropb.Library
