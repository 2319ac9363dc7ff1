import Nuropb.Python.DoubleText
import Nuropb.Python.Raising

/-! # The values that JSON takes

A value is written exactly if it has only what JSON has, no integer with too many digits, and no more levels than the
stack. What has been read is such a value, and any of them has a `repr`.
-/
namespace Nuropb

open Library

namespace Json

/-- What `json.dumps` takes on so many levels of the stack, with texts that are `ok`. -/
def writable (ok : Text → Bool) : (stack : Nat) → PyVal → Bool
  | _, .none | _, .bool _ | _, .float _ => true
  | _, .int n => (Nat.toDigits 10 n.natAbs).length ≤ maxStrDigits
  | _, .str t => ok t
  | stack + 1, .dict entries => entries.all fun entry => ok entry.1 && writable ok stack entry.2
  | stack + 1, .list items | stack + 1, .tuple items => items.all (writable ok stack)
  | _, _ => false

/-- A value that has been read, with any text in it. -/
def Loaded (stack : Nat) (v : PyVal) : Prop := writable (fun _ => true) stack v = true

/-- A value that is written as UTF-8: there are no surrogates in its texts. -/
def Encodes (stack : Nat) (v : PyVal) : Prop := writable Text.isScalar stack v = true

section Writing

variable {stack : Nat}

theorem isScalar_quoteChar (c : CodePoint) : Text.isScalar (quoteChar c) = c.isScalar := by
  unfold quoteChar
  split
  · rfl
  · rfl
  · rfl
  · rfl
  · rfl
  · split
    · rfl
    · split
      · rfl
      · split <;> rfl
  · rfl

theorem isScalar_quote (t : Text) : Text.isScalar (quote t) = Text.isScalar t := by
  have hchars : Text.isScalar (t.flatMap quoteChar) = Text.isScalar t := by
    induction t with
    | nil => rfl
    | cons c t ih => rw [List.flatMap_cons, Text.isScalar_append, isScalar_quoteChar, ih, Text.isScalar_cons]
  rw [quote, List.cons_append, Text.isScalar_cons, Text.isScalar_append, hchars, Text.isScalar_cons]
  simp [CodePoint.isScalar, Text.isScalar]

theorem isScalar_joined (opening closing : Char) (parts : List Text) :
    Text.isScalar (joined opening closing parts) = true ↔ ∀ part ∈ parts, Text.isScalar part = true := by
  have hparts : Text.isScalar (parts.intersperse [.scalar ',']).flatten = true ↔ ∀ part ∈ parts, Text.isScalar part = true := by
    induction parts with
    | nil => exact iff_of_true rfl (by simp)
    | cons part parts ih =>
      rw [List.forall_mem_cons, ← ih]
      cases parts with
      | nil => simp [Text.isScalar]
      | cons next parts =>
        rw [List.intersperse_cons_cons, List.flatten_cons, List.flatten_cons, Text.isScalar_append, Text.isScalar_append]
        simp [Text.isScalar, CodePoint.isScalar]
  rw [← hparts, joined, Text.isScalar_append, Text.isScalar_cons]
  simp [Text.isScalar, CodePoint.isScalar]

/-- The parts of a container are written if each of its members is. -/
theorem forall_iff_parts {α : Type} {f : α → Except Exc Text} {P : α → Prop} {xs : List α}
    (h : ∀ a ∈ xs, P a ↔ ∃ text, f a = .ok text ∧ Text.isScalar text = true) (opening closing : Char) :
    (∀ a ∈ xs, P a) ↔
      ∃ text, (do return joined opening closing (← xs.mapM f) : Except Exc Text) = .ok text ∧ Text.isScalar text = true := by
  have hparts : (∀ a ∈ xs, P a) ↔ ∃ parts, xs.mapM f = .ok parts ∧ ∀ part ∈ parts, Text.isScalar part = true := by
    rw [exists_mapM_iff]
    exact forall₂_congr h
  rw [hparts]
  constructor
  · rintro ⟨parts, hmap, hscalar⟩
    exact ⟨_, by rw [hmap]; rfl, (isScalar_joined _ _ _).mpr hscalar⟩
  · rintro ⟨text, htext, hscalar⟩
    obtain ⟨parts, hmap, hjoined⟩ := bind_eq_ok.mp htext
    cases hjoined
    exact ⟨parts, hmap, (isScalar_joined _ _ _).mp hscalar⟩

theorem exists_ok_iff {text : Text} :
    (∃ t, (Except.ok text : Except Exc Text) = .ok t ∧ Text.isScalar t = true) ↔ Text.isScalar text = true := by
  constructor
  · rintro ⟨t, h, hscalar⟩
    cases h
    exact hscalar
  · intro hscalar
    exact ⟨text, rfl, hscalar⟩

theorem not_exists_error {e : Exc} : ¬∃ t, (Except.error e : Except Exc Text) = .ok t ∧ Text.isScalar t = true := by
  rintro ⟨t, h, -⟩
  cases h

theorem member_iff {v : PyVal} (key : Text)
    (h : writable Text.isScalar stack v = true ↔ ∃ text, dumpValue stack v = .ok text ∧ Text.isScalar text = true) :
    (Text.isScalar key && writable Text.isScalar stack v) = true ↔
      ∃ text, (do return quote key ++ .scalar ':' :: (← dumpValue stack v) : Except Exc Text) = .ok text ∧
        Text.isScalar text = true := by
  have hmember (text : Text) :
      Text.isScalar (quote key ++ .scalar ':' :: text) = (Text.isScalar key && Text.isScalar text) := by
    rw [Text.isScalar_append, Text.isScalar_cons, isScalar_quote]
    rfl
  rw [Bool.and_eq_true, h]
  constructor
  · rintro ⟨hkey, text, htext, hscalar⟩
    refine ⟨quote key ++ .scalar ':' :: text, by rw [htext]; rfl, ?_⟩
    rw [hmember, hkey, hscalar]
    rfl
  · rintro ⟨member, hdump, hscalar⟩
    obtain ⟨text, htext, hjoined⟩ := bind_eq_ok.mp hdump
    cases hjoined
    rw [hmember, Bool.and_eq_true] at hscalar
    exact ⟨hscalar.1, text, htext, hscalar.2⟩

theorem intText_iff (n : Int) : (Nat.toDigits 10 n.natAbs).length ≤ maxStrDigits ↔
    ∃ text, intText n = .ok text ∧ Text.isScalar text = true := by
  unfold intText
  dsimp only
  by_cases h : maxStrDigits < (Nat.toDigits 10 n.natAbs).length
  · rw [raiseIf_of h]
    exact iff_of_false (by omega) not_exists_error
  · rw [raiseIf_of_not h]
    exact iff_of_true (by omega) (exists_ok_iff.mpr (Text.isScalar_ofChars _))

/-- The value is written as a text without surrogates exactly if it has none itself. -/
theorem encodes_iff_dumpValue (v : PyVal) :
    Encodes stack v ↔ ∃ text, dumpValue stack v = .ok text ∧ Text.isScalar text = true := by
  unfold Encodes
  induction stack generalizing v with
  | zero =>
    cases v with
    | none => exact iff_of_true rfl (exists_ok_iff.mpr rfl)
    | bool b => exact iff_of_true rfl (exists_ok_iff.mpr (Text.isScalar_ofChars _))
    | int n => exact decide_eq_true_iff.trans (intText_iff n)
    | float bits => exact iff_of_true rfl (exists_ok_iff.mpr (Text.isScalar_ofChars _))
    | str t => exact (Bool.eq_iff_iff.mp (isScalar_quote t).symm).trans exists_ok_iff.symm
    | _ => exact iff_of_false Bool.false_ne_true not_exists_error
  | succ stack ih =>
    cases v with
    | none => exact iff_of_true rfl (exists_ok_iff.mpr rfl)
    | bool b => exact iff_of_true rfl (exists_ok_iff.mpr (Text.isScalar_ofChars _))
    | int n => exact decide_eq_true_iff.trans (intText_iff n)
    | float bits => exact iff_of_true rfl (exists_ok_iff.mpr (Text.isScalar_ofChars _))
    | str t => exact (Bool.eq_iff_iff.mp (isScalar_quote t).symm).trans exists_ok_iff.symm
    | dict entries =>
      rw [writable, List.all_eq_true, dumpValue]
      refine forall_iff_parts ?_ '{' '}'
      rintro ⟨key, value⟩ -
      exact member_iff key (ih value)
    | list items =>
      rw [writable, List.all_eq_true, dumpValue]
      exact forall_iff_parts (fun item _ => ih item) '[' ']'
    | tuple items =>
      rw [writable, List.all_eq_true, dumpValue]
      exact forall_iff_parts (fun item _ => ih item) '[' ']'
    | _ => exact iff_of_false Bool.false_ne_true not_exists_error

/-- `json.dumps` of the value with the encoding of its text. -/
theorem encodes_iff (v : PyVal) : Encodes stack v ↔ ∃ body, (do encodeUtf8 (← dumps stack v) : Except Exc Bytes) = .ok body := by
  rw [encodes_iff_dumpValue]
  constructor
  · rintro ⟨text, htext, hscalar⟩
    obtain ⟨body, hbody⟩ := (exists_encodeUtf8_iff text).mpr hscalar
    exact ⟨body, by rw [dumps, htext, ok_bind, hbody]⟩
  · rintro ⟨body, h⟩
    obtain ⟨text, htext, hbody⟩ := bind_eq_ok.mp h
    exact ⟨text, htext, (exists_encodeUtf8_iff text).mp ⟨body, hbody⟩⟩

end Writing

/-! ## What is read -/

section Reading

variable {stack : Nat} {v : PyVal} {text rest : Text}

theorem natOf_lt {cs : List Char} (hcs : ∀ c ∈ cs, c.isDigit = true) : natOf cs < 10 ^ cs.length := by
  rw [Double.natOf_eq]
  induction cs with
  | nil => decide
  | cons c cs ih =>
    obtain ⟨hc, hrest⟩ := List.forall_mem_cons.mp hcs
    have hdigit : c.toNat - '0'.toNat ≤ 9 := by
      have hrange := (Char.isDigit_iff_toNat.mp hc).2
      have hvalues : '0'.toNat = 48 ∧ '9'.toNat = 57 := ⟨rfl, rfl⟩
      omega
    rw [Nat.ofDigitChars_cons, Nat.ofDigitChars_eq_ofDigitChars_zero, List.length_cons, pow_succ]
    have htail := ih hrest
    nlinarith

/-- The digits of a number are what has been scanned. -/
theorem loaded_int {cs : List Char} (hcs : ∀ c ∈ cs, c.isDigit = true) (hlength : cs.length ≤ maxStrDigits) (negative : Bool) :
    Loaded stack (.int (if negative then -(natOf cs : Int) else natOf cs)) := by
  have habs : (if negative then -(natOf cs : Int) else natOf cs).natAbs = natOf cs := by
    cases negative <;> simp
  have hlt : natOf cs < 10 ^ maxStrDigits := (natOf_lt hcs).trans_le (Nat.pow_le_pow_right (by decide) hlength)
  have hdigits := (Nat.length_toDigits_le_iff (by decide) (by decide)).mpr hlt
  unfold Loaded writable
  rw [habs]
  exact decide_eq_true hdigits

theorem isDigit_digitsOf {digits : Text} (h : ∀ c ∈ digits, isDigit c = true) : ∀ c ∈ digitsOf digits, c.isDigit = true := by
  intro c hc
  obtain ⟨p, hp, hpc⟩ := List.mem_filterMap.mp hc
  cases p with
  | scalar d =>
    cases hpc
    exact h _ hp
  | surrogate n => cases hpc

theorem loaded_scanNumber {negative : Bool} (h : scanNumber negative text = .ok (v, rest)) : Loaded stack v := by
  unfold scanNumber at h
  generalize hrest : (fun p : List Char × Text => _) = number at h
  dsimp only at h
  have hnumber : ∀ p, (∀ c ∈ p.1, c.isDigit = true) → number p = .ok (v, rest) → Loaded stack v := by
    rintro ⟨whole, more⟩ hwhole hp
    rw [← hrest] at hp
    dsimp only at hp
    split at hp
    · obtain ⟨u, hraise, hp⟩ := bind_eq_ok.mp hp
      cases hp
      exact loaded_int hwhole (not_lt.mp (raiseIf_eq_ok.mp hraise)) negative
    · cases hp
      rw [Loaded, writable]
  split at h
  · exact hnumber _ (by simp) h
  · split at h
    · cases h
    · rename_i hspan
      refine hnumber _ (isDigit_digitsOf ?_) h
      intro c hc
      rw [List.span_eq_takeWhile_dropWhile] at hspan
      cases hspan
      exact List.mem_takeWhile_imp hc

theorem loaded_scanLiteral (h : scanLiteral text = .ok (v, rest)) : Loaded stack v := by
  unfold scanLiteral at h
  split at h
  · rename_i spelling value hfind
    have hliterals : ∀ literal ∈ literals, Loaded stack literal.2 := by
      simp [literals, Loaded, writable]
    cases h
    exact hliterals _ (List.mem_of_find?_eq_some hfind)
  · split at h
    · exact loaded_scanNumber h
    · exact loaded_scanNumber h

theorem loaded_assign {entries : Table} (key : Text) (hentries : ∀ entry ∈ entries, Loaded stack entry.2) (hv : Loaded stack v) :
    ∀ entry ∈ assign key v entries, Loaded stack entry.2 := by
  intro entry hentry
  rcases mem_of_mem_assign hentry with rfl | hentry
  · exact hv
  · exact hentries entry hentry

variable {value : Text → Except Exc (PyVal × Text)}

theorem loaded_scanMembers (hvalue : ∀ text v rest, value text = .ok (v, rest) → Loaded stack v) (rounds : Nat)
    {entries : Table} (hentries : ∀ entry ∈ entries, Loaded stack entry.2)
    (h : scanMembers value rounds entries text = .ok (v, rest)) : Loaded (stack + 1) v := by
  induction rounds generalizing entries text with
  | zero =>
    rw [scanMembers] at h
    · cases h
    · intros
      contradiction
  | succ rounds ih =>
    unfold scanMembers at h
    split at h
    · rename_i heq
      cases heq
      obtain ⟨⟨key, more⟩, hkey, h⟩ := bind_eq_ok.mp h
      dsimp only at h
      split at h
      · obtain ⟨⟨item, more⟩, hitem, h⟩ := bind_eq_ok.mp h
        have hassigned := loaded_assign key hentries (hvalue _ _ _ hitem)
        dsimp only at h
        split at h
        · cases h
          rw [Loaded, writable, List.all_eq_true]
          exact hassigned
        · exact ih hassigned h
        · cases h
      · cases h
    · cases h

theorem loaded_scanItems (hvalue : ∀ text v rest, value text = .ok (v, rest) → Loaded stack v) (rounds : Nat)
    {items : List PyVal} (hitems : ∀ item ∈ items, Loaded stack item)
    (h : scanItems value rounds items text = .ok (v, rest)) : Loaded (stack + 1) v := by
  induction rounds generalizing items text with
  | zero =>
    rw [scanItems] at h
    cases h
  | succ rounds ih =>
    rw [scanItems] at h
    obtain ⟨⟨item, more⟩, hitem, h⟩ := bind_eq_ok.mp h
    have hall : ∀ x ∈ items ++ [item], Loaded stack x := by
      intro x hx
      rcases List.mem_append.mp hx with hx | hx
      · exact hitems x hx
      · obtain rfl := List.mem_singleton.mp hx
        exact hvalue _ _ _ hitem
    dsimp only at h
    split at h
    · cases h
      rw [Loaded, writable, List.all_eq_true]
      exact hall
    · exact ih hall h
    · cases h

theorem loaded_scanOnce (h : scanOnce stack text = .ok (v, rest)) : Loaded stack v := by
  induction stack generalizing text v rest with
  | zero =>
    unfold scanOnce at h
    split at h
    · cases h
    · cases h
    · obtain ⟨⟨t, more⟩, ht, h⟩ := bind_eq_ok.mp h
      cases h
      rw [Loaded, writable]
    · exact loaded_scanLiteral h
  | succ stack ih =>
    unfold scanOnce at h
    split at h
    · dsimp only at h
      split at h
      · cases h
        rfl
      · exact loaded_scanMembers (fun _ _ _ => ih) _ (by simp) h
    · dsimp only at h
      split at h
      · cases h
        rfl
      · exact loaded_scanItems (fun _ _ _ => ih) _ (by simp) h
    · obtain ⟨⟨t, more⟩, ht, h⟩ := bind_eq_ok.mp h
      cases h
      rw [Loaded, writable]
    · exact loaded_scanLiteral h

theorem loaded_of_loads (h : loads stack text = .ok v) : Loaded stack v := by
  obtain ⟨u, -, h⟩ := bind_eq_ok.mp h
  obtain ⟨⟨value, more⟩, hscan, h⟩ := bind_eq_ok.mp h
  obtain ⟨u, -, h⟩ := bind_eq_ok.mp h
  cases h
  exact loaded_scanOnce hscan

/-- More of the stack does no harm. -/
theorem loaded_succ (h : Loaded stack v) : Loaded (stack + 1) v := by
  unfold Loaded at h ⊢
  induction stack generalizing v with
  | zero =>
    cases v with
    | dict entries => cases h
    | list items => cases h
    | tuple items => cases h
    | _ => exact h
  | succ stack ih =>
    cases v with
    | dict entries =>
      rw [writable, List.all_eq_true] at h ⊢
      exact fun entry hentry => ih (h entry hentry)
    | list items =>
      rw [writable, List.all_eq_true] at h ⊢
      exact fun item hitem => ih (h item hitem)
    | tuple items =>
      rw [writable, List.all_eq_true] at h ⊢
      exact fun item hitem => ih (h item hitem)
    | _ => exact h

theorem loaded_lookup {entries : Table} {key : Text} (h : Loaded stack (.dict entries)) (hv : lookup key entries = some v) :
    Loaded stack v := by
  cases stack with
  | zero => cases h
  | succ stack =>
    rw [Loaded, writable, List.all_eq_true] at h
    exact loaded_succ (h (key, v) (mem_of_lookup hv))

end Reading

end Json

namespace Builtins

variable (builtins : Builtins) {stack : Nat} {v : PyVal}

theorem exists_map_of_forall {α : Type} {f : α → Except Exc Text} {xs : List α} (h : ∀ x ∈ xs, ∃ t, f x = .ok t)
    {join : List Text → Text} : ∃ t, (do return join (← xs.mapM f) : Except Exc Text) = .ok t := by
  obtain ⟨parts, hparts, -⟩ := exists_mapM_iff.mpr fun x hx => (h x hx).imp fun t ht => ⟨ht, trivial⟩
  exact ⟨join parts, by rw [hparts]; rfl⟩

/-- The text of an integer, with no more digits than are converted. -/
def IsInteger (numeral : Option (List Char)) : Prop :=
  ∃ cs, numeral = some cs ∧ digitsValue 0 false (signed cs).2 ≠ none ∧ (signed cs).2.countP Char.isDigit ≤ Json.maxStrDigits

/-- What `int` takes. -/
def Integral : PyVal → Prop
  | .int _ | .bool _ | .decimal .. => True
  | .float bits => bits.toNat / 2 ^ 52 % 2 ^ 11 ≠ 2047
  | .str t => IsInteger (builtins.numeral t)
  | .bytes b => IsInteger (numeralOfBytes b)
  | _ => False

theorem intOfNumeral_iff (numeral : Option (List Char)) : (∃ n, intOfNumeral numeral = .ok n) ↔ IsInteger numeral := by
  constructor
  · rintro ⟨n, h⟩
    obtain ⟨cs, hcs, h⟩ := bind_eq_ok.mp h
    refine ⟨cs, orRaise_eq_ok.mp hcs, ?_⟩
    generalize signed cs = parts at h ⊢
    obtain ⟨negative, digits⟩ := parts
    obtain ⟨m, hm, h⟩ := bind_eq_ok.mp h
    obtain ⟨u, hlimit, -⟩ := bind_eq_ok.mp h
    rw [orRaise_eq_ok.mp hm]
    exact ⟨Option.some_ne_none m, not_lt.mp (raiseIf_eq_ok.mp hlimit)⟩
  · rintro ⟨cs, rfl, hdigits, hlimit⟩
    obtain ⟨m, hm⟩ := Option.ne_none_iff_exists'.mp hdigits
    refine ⟨if (signed cs).1 then -(m : Int) else m, ?_⟩
    rw [intOfNumeral, orRaise_some, ok_bind]
    dsimp only
    rw [hm, orRaise_some, ok_bind, raiseIf_of_not (not_lt.mpr hlimit)]
    rfl

theorem int_iff (v : PyVal) : (∃ n, builtins.int v = .ok n) ↔ builtins.Integral v := by
  cases v with
  | int n => exact iff_of_true ⟨n, rfl⟩ trivial
  | bool b => exact iff_of_true ⟨_, rfl⟩ trivial
  | decimal negative coefficient exponent => exact iff_of_true ⟨_, rfl⟩ trivial
  | str t => exact intOfNumeral_iff _
  | bytes b => exact intOfNumeral_iff _
  | float bits =>
    change (∃ n, truncFloat bits = .ok n) ↔ bits.toNat / 2 ^ 52 % 2 ^ 11 ≠ 2047
    unfold truncFloat
    dsimp only
    split
    · rename_i hexponent
      exact iff_of_false (by rintro ⟨n, ⟨⟩⟩) (not_not.mpr hexponent)
    · rename_i hexponent
      exact iff_of_true ⟨_, rfl⟩ hexponent
  | decimalSpecial nan => cases nan <;> exact iff_of_false (by rintro ⟨n, ⟨⟩⟩) not_false
  | _ => exact iff_of_false (by rintro ⟨n, ⟨⟩⟩) not_false

/-- What has been read has a `repr` on the stack it was read on. -/
theorem repr_of_loaded (h : Json.Loaded stack v) : ∃ t, builtins.repr stack v = .ok t := by
  unfold Json.Loaded at h
  induction stack generalizing v with
  | zero =>
    cases v with
    | int n => exact (Json.intText_iff n).mp (of_decide_eq_true h) |>.imp fun t ht => ht.1
    | dict entries => cases h
    | list items => cases h
    | _ => exact ⟨_, rfl⟩
  | succ stack ih =>
    cases v with
    | int n => exact (Json.intText_iff n).mp (of_decide_eq_true h) |>.imp fun t ht => ht.1
    | dict entries =>
      rw [Json.writable, List.all_eq_true] at h
      rw [repr]
      refine exists_map_of_forall ?_
      rintro ⟨key, value⟩ hentry
      obtain ⟨t, ht⟩ : ∃ t, builtins.repr stack value = .ok t := ih (h (key, value) hentry)
      dsimp only
      exact ⟨builtins.reprText key ++ Text.ofString ": " ++ t, by rw [ht]; rfl⟩
    | list items =>
      rw [Json.writable, List.all_eq_true] at h
      rw [repr]
      exact exists_map_of_forall fun item hitem => ih (h item hitem)
    | _ => exact ⟨_, rfl⟩

theorem str_of_loaded (h : Json.Loaded stack v) : ∃ t, builtins.str stack v = .ok t := by
  cases v with
  | str t => exact ⟨t, rfl⟩
  | _ => exact builtins.repr_of_loaded h

end Builtins

end Nuropb
