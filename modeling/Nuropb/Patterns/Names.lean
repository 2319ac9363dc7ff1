import Nuropb.Patterns.Context
import Nuropb.Patterns.Mesh
import Nuropb.Sessions.Correlation

/-! # The grammars of ids and names

An id is measured in octets before it is matched, and a name only matched. The `$` of both patterns matches before a
newline at the end, too.
-/
namespace Nuropb.Patterns

open Library Sessions

/-- 1 to 255 characters of `A-Za-z0-9._:-`. -/
def IsId (v : Text) : Prop := 1 ≤ v.length ∧ v.length ≤ 255 ∧ ∀ c ∈ v, isSafe c = true

/-- 1 to 63 characters of `A-Za-z0-9._-`, the first of them a letter or a digit. -/
def IsName (v : Text) : Prop :=
  (∃ first rest, v = first :: rest ∧ isNameStart first = true) ∧ v.length ≤ 63 ∧ ∀ c ∈ v, isNameChar c = true

/-- The validators accept the text exactly when it is in their grammars, and refuse it as they should. -/
structure ValidatesWell (v : Text) : Prop where
  id : IsId v → validateId v = .ok v
  notId : ¬IsId v → ∃ reason, validateId v = .error (.invalid reason)
  service : IsName v → ∃ identity, ServiceIdentity.new v = .ok identity ∧ identity.service = v
  notService : ¬IsName v → ∃ reason, ServiceIdentity.new v = .error (.valueError reason)
  method : ∀ identity : ServiceIdentity, IsName v → identity.routingKey v = .ok (identity.service ++ dot :: v)
  notMethod : ∀ identity : ServiceIdentity, ¬IsName v → ∃ reason, identity.routingKey v = .error (.valueError reason)

section Characters

variable {v core : Text} {c : CodePoint}

theorem isSafe_newline : isSafe newline = false := by decide

theorem isNameChar_newline : isNameChar newline = false := by decide

theorem isSafe_of_isNameChar (h : isNameChar c = true) : isSafe c = true := by
  cases c with
  | surrogate n =>
    simp only [isNameChar, isNameStart, Bool.false_or, List.contains_eq_mem, decide_eq_true_eq, List.mem_cons,
      List.not_mem_nil, or_false] at h
    rcases h with h | h | h <;> cases h
  | scalar c =>
    simp only [isNameChar, isNameStart, dot, Bool.or_eq_true, List.contains_eq_mem, decide_eq_true_eq, List.mem_cons,
      CodePoint.scalar.injEq, List.not_mem_nil, or_false] at h
    simp only [isSafe, Bool.or_eq_true, decide_eq_true_eq, List.mem_cons, List.not_mem_nil, or_false]
    rcases h with h | h | h | h
    · exact .inl h
    · exact .inr (.inl h)
    · exact .inr (.inr (.inl h))
    · exact .inr (.inr (.inr (.inr h)))

theorem isNameChar_of_isNameStart (h : isNameStart c = true) : isNameChar c = true := by
  rw [isNameChar, h]
  rfl

theorem toNat_lt_of_isAlphanum {c : Char} (h : c.isAlphanum = true) : c.toNat < 128 := by
  -- the ranges of the capitals, the small letters and the digits
  change ((decide (65 ≤ c.val ∧ c.val ≤ 90) || decide (97 ≤ c.val) && decide (c.val ≤ 122)) ||
    decide (48 ≤ c.val) && decide (c.val ≤ 57)) = true at h
  simp only [Bool.or_eq_true, Bool.and_eq_true, decide_eq_true_eq, UInt32.le_iff_toNat_le, UInt32.reduceToNat] at h
  change c.val.toNat < 128
  omega

theorem isAscii_of_safe (h : ∀ c ∈ v, isSafe c = true) : isAscii v = true := by
  rw [isAscii, List.all_eq_true]
  intro c hc
  have hsafe := h c hc
  cases c with
  | surrogate n => cases hsafe
  | scalar c =>
    simp only [isSafe, Bool.or_eq_true, decide_eq_true_eq, List.mem_cons, List.not_mem_nil, or_false] at hsafe
    simp only [decide_eq_true_eq]
    rcases hsafe with halpha | rfl | rfl | rfl | rfl
    · exact toNat_lt_of_isAlphanum halpha
    · decide
    · decide
    · decide
    · decide

theorem length_utf8_of_isAscii (h : isAscii v = true) : ∃ raw, v.utf8 = some raw ∧ raw.length = v.length := by
  induction v with
  | nil => exact ⟨[], rfl, rfl⟩
  | cons c v ih =>
    simp only [isAscii, List.all_cons, Bool.and_eq_true] at h
    obtain ⟨raw, hraw, hlength⟩ := ih h.2
    cases c with
    | surrogate n => cases h.1
    | scalar c =>
      obtain ⟨cs, hcs, rfl⟩ := Option.map_eq_some_iff.mp hraw
      have hone : (String.utf8EncodeChar c).length = 1 := by
        have hsmall : c.toNat < 128 := by simpa using h.1
        rw [String.length_utf8EncodeChar, Char.utf8Size_eq_one_iff, UInt32.le_iff_toNat_le]
        exact Nat.le_of_lt_succ hsmall
      refine ⟨String.utf8EncodeChar c ++ cs.flatMap String.utf8EncodeChar, ?_, ?_⟩
      · rw [Text.utf8, Text.scalars, hcs]
        rfl
      · rw [List.length_append, hone, hlength, List.length_cons, Nat.add_comm]

theorem utf8_eq_none_iff : v.utf8 = none ↔ ∃ n, CodePoint.surrogate n ∈ v := by
  induction v with
  | nil => simp [Text.utf8, Text.scalars]
  | cons c v ih =>
    cases c with
    | surrogate n => simp [Text.utf8, Text.scalars]
    | scalar c =>
      have hsame : Text.utf8 (.scalar c :: v) = none ↔ Text.utf8 v = none := by
        simp [Text.utf8, Text.scalars]
      rw [hsame, ih]
      simp

end Characters

/-! ## What the patterns match -/

section Matching

variable {v core : Text}

/-- A pattern for texts without a newline lets one newline at the end pass. -/
theorem withoutFinalNewline_iff {P : Text → Prop} (hP : ∀ t, P t → newline ∉ t) :
    P (withoutFinalNewline v) ↔ P v ∨ ∃ core, v = core ++ [newline] ∧ P core := by
  have hkept (h : P v) : withoutFinalNewline v = v := if_neg fun hlast => hP v h (List.mem_of_getLast? hlast)
  constructor
  · intro h
    unfold withoutFinalNewline at h
    split at h
    · rename_i hlast
      exact .inr ⟨v.dropLast, (List.dropLast_append_getLast? _ hlast).symm, h⟩
    · exact .inl h
  · rintro (h | ⟨core, rfl, h⟩)
    · rwa [hkept h]
    · have hdropped : withoutFinalNewline (core ++ [newline]) = core := by
        rw [withoutFinalNewline_append core (by simp)]
        exact List.append_nil core
      rwa [hdropped]

theorem not_mem_of_isId (h : IsId v) : newline ∉ v := by
  intro hmem
  have hsafe := h.2.2 _ hmem
  rw [isSafe_newline] at hsafe
  cases hsafe

theorem not_mem_of_isName (h : IsName v) : newline ∉ v := by
  intro hmem
  have hchar := h.2.2 _ hmem
  rw [isNameChar_newline] at hchar
  cases hchar

theorem matchesSafeId_iff : matchesSafeId v = true ↔ IsId v ∨ ∃ core, v = core ++ [newline] ∧ IsId core := by
  rw [← withoutFinalNewline_iff fun _ => not_mem_of_isId]
  simp only [matchesSafeId, IsId, withoutFinalNewline, newline, Bool.decide_and, Bool.and_eq_true, decide_eq_true_eq,
    List.all_eq_true]
  exact Iff.rfl

theorem safeName_iff : safeName v = true ↔ IsName v ∨ ∃ core, v = core ++ [newline] ∧ IsName core := by
  rw [← withoutFinalNewline_iff fun _ => not_mem_of_isName]
  cases v with
  | nil => simp [safeName, withoutFinalNewline, IsName]
  | cons first rest =>
    by_cases hstart : isNameStart first = true
    · rw [withoutFinalNewline_cons (ne_newline_of_isNameStart hstart)]
      have hlength : (withoutFinalNewline rest).length ≤ 62 ↔ (withoutFinalNewline rest).length < 63 := by omega
      simp [safeName, IsName, hstart, isNameChar_of_isNameStart hstart, hlength]
    · have hnot : safeName (first :: rest) = false := by simp [safeName, hstart]
      rw [hnot]
      refine iff_of_false (by simp) ?_
      rintro ⟨⟨c, tail, heq, hc⟩, -⟩
      have hhead : withoutFinalNewline (first :: rest) <+: first :: rest := by
        unfold withoutFinalNewline
        split
        · exact List.dropLast_prefix _
        · exact List.prefix_rfl
      rw [heq] at hhead
      obtain ⟨more, hmore⟩ := hhead
      rw [← (List.cons.inj hmore).1] at hstart
      exact hstart hc

theorem isId_of_isName (h : IsName v) : IsId v ∧ v.length < 255 := by
  obtain ⟨⟨first, rest, rfl, -⟩, hlength, hchars⟩ := h
  refine ⟨⟨by simp, by omega, fun c hc => isSafe_of_isNameChar (hchars c hc)⟩, by omega⟩

theorem validateId_of_isId (h : IsId v) : validateId v = .ok v := by
  obtain ⟨raw, hraw, hlength⟩ := length_utf8_of_isAscii (isAscii_of_safe h.2.2)
  have hpos := h.1
  have hle := h.2.1
  unfold validateId
  rw [hraw]
  dsimp only
  rw [if_neg (by omega), if_pos (matchesSafeId_iff.mpr (.inl h))]

theorem validateId_of_newline (h : IsId core) : validateId (core ++ [newline]) = .ok (core ++ [newline]) ↔ core.length < 255 := by
  have hascii : isAscii (core ++ [newline]) = true := by
    rw [isAscii, List.all_append, Bool.and_eq_true]
    exact ⟨isAscii_of_safe h.2.2, by decide⟩
  obtain ⟨raw, hraw, hlength⟩ := length_utf8_of_isAscii hascii
  rw [List.length_append, List.length_singleton] at hlength
  unfold validateId
  rw [hraw]
  dsimp only
  constructor
  · intro hok
    split at hok
    · cases hok
    · omega
  · intro hlt
    rw [if_neg (by omega), if_pos (matchesSafeId_iff.mpr (.inr ⟨core, rfl, h⟩))]

end Matching

/-- The validators keep to their grammars on a text exactly when it holds no lone surrogate, and is no id of at most 254
characters with a newline behind it. -/
theorem validatesWell_iff (v : Text) : ValidatesWell v ↔
    (∀ n, CodePoint.surrogate n ∉ v) ∧ ¬∃ core, v = core ++ [newline] ∧ IsId core ∧ core.length < 255 := by
  constructor
  · intro h
    constructor
    · intro n hmem
      have hnotId : ¬IsId v := by
        intro hid
        cases hid.2.2 _ hmem
      obtain ⟨reason, hreason⟩ := h.notId hnotId
      have hencoding : validateId v = .error .encoding := by
        rw [validateId, utf8_eq_none_iff.mpr ⟨n, hmem⟩]
      rw [hencoding] at hreason
      cases hreason
    · rintro ⟨core, rfl, hcore, hlength⟩
      have hnotId : ¬IsId (core ++ [newline]) := fun hid => not_mem_of_isId hid (by simp)
      obtain ⟨reason, hreason⟩ := h.notId hnotId
      rw [(validateId_of_newline hcore).mpr hlength] at hreason
      cases hreason
  · rintro ⟨hscalars, hnewline⟩
    have hsafe : IsName v ↔ safeName v = true := by
      rw [safeName_iff]
      constructor
      · exact .inl
      · rintro (hname | ⟨core, rfl, hcore⟩)
        · exact hname
        · exact absurd ⟨core, rfl, isId_of_isName hcore⟩ hnewline
    refine ⟨validateId_of_isId, ?_, ?_, ?_, ?_, ?_⟩
    · intro hnotId
      unfold validateId
      split
      · rename_i hutf8
        obtain ⟨n, hmem⟩ := utf8_eq_none_iff.mp hutf8
        exact absurd hmem (hscalars n)
      · split
        · exact ⟨_, rfl⟩
        · split
          · rename_i raw hutf8 hlength hmatches
            rcases matchesSafeId_iff.mp hmatches with hid | ⟨core, rfl, hcore⟩
            · exact absurd hid hnotId
            · have hok : validateId (core ++ [newline]) = .ok (core ++ [newline]) := by
                unfold validateId
                rw [hutf8]
                dsimp only
                rw [if_neg hlength, if_pos hmatches]
              exact absurd ⟨core, rfl, hcore, (validateId_of_newline hcore).mp hok⟩ hnewline
          · exact ⟨_, rfl⟩
    · intro hname
      exact ⟨⟨v, hsafe.mp hname⟩, dif_pos (hsafe.mp hname), rfl⟩
    · intro hnotName
      exact ⟨_, dif_neg fun h => hnotName (hsafe.mpr h)⟩
    · intro identity hname
      exact routingKey_eq_ok.mpr ⟨hsafe.mp hname, rfl⟩
    · intro identity hnotName
      have hunsafe : safeName v = false := by
        rw [← Bool.not_eq_true, ← hsafe]
        exact hnotName
      exact ⟨_, by rw [ServiceIdentity.routingKey, raiseIf_of hunsafe]; rfl⟩

/-- `a` and a newline pass for an id and for a name, and a lone surrogate is no `InvalidIdError`. -/
theorem newline_not_validatesWell : ¬ValidatesWell [.scalar 'a', newline] ∧ ¬ValidatesWell [.surrogate 0] := by
  constructor
  · intro h
    obtain ⟨reason, hreason⟩ := h.notId fun hid => absurd (hid.2.2 newline (by decide)) (by decide)
    cases hreason
  · intro h
    obtain ⟨reason, hreason⟩ := h.notId fun hid => absurd (hid.2.2 (.surrogate 0) (by decide)) (by decide)
    cases hreason

end Nuropb.Patterns
