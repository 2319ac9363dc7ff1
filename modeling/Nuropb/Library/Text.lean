import Mathlib.Data.List.Basic
import Nuropb.Library.BigEndian

/-! # Text as a list of code points

A text may hold lone surrogates, which have no UTF-8 encoding. Decoding yields scalar
values only, so a text with a surrogate is never the result of a decoding.
-/
namespace Nuropb.Library

/-- A Unicode scalar value, or one of the 2048 surrogate code points. -/
inductive CodePoint
  | scalar (c : Char)
  | surrogate (n : Fin 2048)
  deriving DecidableEq

namespace CodePoint

/-- Its number in Unicode, by which Python orders characters. -/
def number : CodePoint → Nat
  | .scalar c => c.toNat
  | .surrogate n => 0xD800 + n

theorem toNat_ne_surrogate (c : Char) (n : Fin 2048) : c.toNat ≠ 0xD800 + n := by
  have hvalid : c.toNat < 0xD800 ∨ 0xDFFF < c.toNat ∧ c.toNat < 0x110000 := c.valid
  have hn := n.isLt
  omega

theorem number_injective : Function.Injective number := by
  rintro (c | m) (d | n) h
  · rw [Char.toNat_inj.mp h]
  · exact absurd h (toNat_ne_surrogate c n)
  · exact absurd h.symm (toNat_ne_surrogate d m)
  · have hmn : (m : Nat) = n := Nat.add_left_cancel h
    rw [Fin.val_injective hmn]

def isScalar : CodePoint → Bool
  | .scalar _ => true
  | .surrogate _ => false

end CodePoint

abbrev Text := List CodePoint

instance : LawfulBEq Text := inferInstance

namespace Text

def ofChars (cs : List Char) : Text := cs.map .scalar

def ofString (s : String) : Text := ofChars s.toList

/-- The scalar values of a text without surrogates. -/
def scalars : Text → Option (List Char)
  | [] => some []
  | .scalar c :: rest => (scalars rest).map (c :: ·)
  | .surrogate _ :: _ => none

/-- The characters that `str.split` takes for whitespace. -/
def isSpace : CodePoint → Bool
  | .scalar c =>
    let n := c.toNat
    9 ≤ n ∧ n ≤ 13 ∨ 28 ≤ n ∧ n ≤ 32 ∨ n = 133 ∨ n = 160 ∨ n = 5760 ∨ 8192 ≤ n ∧ n ≤ 8202 ∨
      n = 8232 ∨ n = 8233 ∨ n = 8239 ∨ n = 8287 ∨ n = 12288
  | .surrogate _ => false

/-- `str.split()`: the runs of other characters. -/
def words (t : Text) : List Text := (t.splitOnP isSpace).filter (· ≠ [])

/-- Strict UTF-8 encoding: none for a text with a surrogate. -/
def utf8 (t : Text) : Option Bytes := (scalars t).map fun cs => cs.flatMap String.utf8EncodeChar

def isScalar (t : Text) : Bool := t.all CodePoint.isScalar

/-- Strict UTF-8 decoding. -/
def ofUtf8 (bs : Bytes) : Option Text := bs.toByteArray.utf8Decode?.map fun cs => ofChars cs.toList

@[simp] theorem scalars_ofChars (cs : List Char) : scalars (ofChars cs) = some cs := by
  induction cs with
  | nil => rfl
  | cons c cs ih =>
    have htail : scalars (cs.map .scalar) = some cs := ih
    simp [ofChars, scalars, htail]

theorem eq_ofChars_of_scalars {t : Text} {cs : List Char} (h : scalars t = some cs) :
    t = ofChars cs := by
  induction t generalizing cs with
  | nil =>
    cases h
    rfl
  | cons p t ih =>
    cases p with
    | scalar c =>
      obtain ⟨rest, hrest, rfl⟩ := Option.map_eq_some_iff.mp h
      rw [ih hrest]
      rfl
    | surrogate n => cases h

theorem isScalar_cons (c : CodePoint) (t : Text) : isScalar (c :: t) = (c.isScalar && isScalar t) := rfl

theorem isScalar_append (s t : Text) : isScalar (s ++ t) = (isScalar s && isScalar t) := List.all_append

theorem isScalar_ofChars (cs : List Char) : isScalar (ofChars cs) = true := by
  rw [isScalar, ofChars, List.all_map]
  exact List.all_eq_true.mpr fun c _ => rfl

theorem isSome_scalars (t : Text) : t.scalars.isSome = isScalar t := by
  induction t with
  | nil => rfl
  | cons c t ih =>
    cases c with
    | scalar c => rw [scalars, Option.isSome_map, ih, isScalar_cons, CodePoint.isScalar, Bool.true_and]
    | surrogate n => rfl

theorem ofUtf8_utf8 {t : Text} {bs : Bytes} (h : utf8 t = some bs) : ofUtf8 bs = some t := by
  obtain ⟨cs, hcs, rfl⟩ := Option.map_eq_some_iff.mp h
  have hdecode : (cs.flatMap String.utf8EncodeChar).toByteArray.utf8Decode? = some cs.toArray :=
    List.utf8Decode?_utf8Encode
  rw [ofUtf8, hdecode, eq_ofChars_of_scalars hcs]
  simp

@[simp] theorem utf8_ofChars (cs : List Char) :
    utf8 (ofChars cs) = some (cs.flatMap String.utf8EncodeChar) := by
  rw [utf8, scalars_ofChars]
  rfl

/-- What was decoded encodes to the bytes it came from. -/
theorem utf8_of_ofUtf8 {bs : Bytes} {t : Text} (h : ofUtf8 bs = some t) : utf8 t = some bs := by
  obtain ⟨cs, hcs, rfl⟩ := Option.map_eq_some_iff.mp h
  have hget : bs.toByteArray.utf8Decode?.get (by simp [hcs]) = cs := by simp [hcs]
  have hencode : cs.toList.utf8Encode = bs.toByteArray := by
    rw [← hget]
    exact ByteArray.utf8Encode_get_utf8Decode?
  have hbytes := congrArg (fun b => b.data.toList) hencode
  rw [utf8_ofChars]
  simpa [List.utf8Encode] using hbytes

end Text

end Nuropb.Library
