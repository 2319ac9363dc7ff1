import Nuropb.Python.DoubleText

/-! # What is written in JSON reads back

A tuple reads back as a list, and a NaN as the one that JSON spells; every other value reads back as it was. What
follows a value ends it, so that the parts of a container are read one after the other.
-/
namespace Nuropb.Json

open Library Double

/-- The double that a double reads back as: JSON spells one NaN. -/
def readFloat (bits : UInt64) : UInt64 := if Double.infinity < bits.toNat % 2 ^ 63 then 0x7ff8000000000000 else bits

mutual

/-- The value that a value reads back as. -/
def readBack : PyVal → PyVal
  | .float bits => .float (readFloat bits)
  | .dict entries => .dict (readEntries entries)
  | .tuple items | .list items => .list (readItems items)
  | v => v

def readEntries : Table → Table
  | [] => []
  | (key, value) :: entries => (key, readBack value) :: readEntries entries

def readItems : List PyVal → List PyVal
  | [] => []
  | item :: items => readBack item :: readItems items

end

mutual

/-- No dictionary in the value has a key twice. -/
def keyed : PyVal → Bool
  | .dict entries => (entries.map Prod.fst).Nodup && keyedEntries entries
  | .tuple items | .list items => keyedItems items
  | _ => true

def keyedEntries : Table → Bool
  | [] => true
  | (_, value) :: entries => keyed value && keyedEntries entries

def keyedItems : List PyVal → Bool
  | [] => true
  | item :: items => keyed item && keyedItems items

end

/-- What may follow a value. -/
def closes : Text → Bool
  | [] | .scalar ',' :: _ | .scalar ']' :: _ | .scalar '}' :: _ => true
  | _ => false

theorem keyed_dict {entries : Table} (hkeys : (entries.map Prod.fst).Nodup) (hvalues : keyedEntries entries = true) :
    keyed (.dict entries) = true := by
  rw [keyed, decide_eq_true hkeys, hvalues]
  rfl

section Scanning

variable {rest : Text}

theorem closes_cases (h : closes rest = true) :
    rest = [] ∨ ∃ c tail, rest = .scalar c :: tail ∧ (c = ',' ∨ c = ']' ∨ c = '}') := by
  unfold closes at h
  split at h
  · exact .inl rfl
  · exact .inr ⟨_, _, rfl, .inl rfl⟩
  · exact .inr ⟨_, _, rfl, .inr (.inl rfl)⟩
  · exact .inr ⟨_, _, rfl, .inr (.inr rfl)⟩
  · cases h

theorem skipSpace_closes (h : closes rest = true) : skipSpace rest = rest := by
  rcases closes_cases h with rfl | ⟨c, tail, rfl, rfl | rfl | rfl⟩ <;> rfl

/-- The next character, if there is one, is no digit. -/
def stops (rest : Text) : Bool := rest.head?.all fun c => !isDigit c

theorem stops_closes (h : closes rest = true) : stops rest = true := by
  rcases closes_cases h with rfl | ⟨c, tail, rfl, rfl | rfl | rfl⟩ <;> rfl

theorem scanFraction_closes (h : closes rest = true) : scanFraction rest = (none, rest) := by
  rcases closes_cases h with rfl | ⟨c, tail, rfl, rfl | rfl | rfl⟩ <;> rfl

theorem scanExponent_closes (h : closes rest = true) : scanExponent rest = (none, rest) := by
  rcases closes_cases h with rfl | ⟨c, tail, rfl, rfl | rfl | rfl⟩ <;> rfl

/-! ## Numbers -/

theorem span_digits {cs : List Char} (hcs : ∀ c ∈ cs, c.isDigit = true) (hrest : stops rest = true) :
    (Text.ofChars cs ++ rest).span isDigit = (Text.ofChars cs, rest) := by
  have hdigits : ∀ c ∈ Text.ofChars cs, isDigit c = true := by
    intro c hc
    obtain ⟨d, hd, rfl⟩ := List.mem_map.mp hc
    exact hcs d hd
  rw [List.span_eq_takeWhile_dropWhile, List.takeWhile_append_of_pos hdigits, List.dropWhile_append_of_pos hdigits]
  have hstop : rest.takeWhile isDigit = [] ∧ rest.dropWhile isDigit = rest := by
    cases rest with
    | nil => exact ⟨rfl, rfl⟩
    | cons c tail =>
      have hc : isDigit c = false := (Bool.not_eq_true' _).mp hrest
      exact ⟨List.takeWhile_cons_of_neg (by simp [hc]), List.dropWhile_cons_of_neg (by simp [hc])⟩
  rw [hstop.1, hstop.2, List.append_nil]

@[simp] theorem digitsOf_ofChars (cs : List Char) : digitsOf (Text.ofChars cs) = cs := by
  rw [digitsOf, Text.ofChars, List.filterMap_map]
  exact List.filterMap_some

theorem ofChars_eq_nil {cs : List Char} : Text.ofChars cs = [] ↔ cs = [] := List.map_eq_nil_iff

theorem scanFraction_digits {cs : List Char} (hcs : Digits cs) (hrest : stops rest = true) :
    scanFraction (.scalar '.' :: (Text.ofChars cs ++ rest)) = (some cs, rest) := by
  rw [scanFraction, span_digits hcs.digits hrest]
  split
  · rename_i heq
    exact absurd (ofChars_eq_nil.mp (Prod.mk.inj heq).1) hcs.nonempty
  · rename_i heq
    obtain ⟨rfl, rfl⟩ := Prod.mk.inj heq
    rw [digitsOf_ofChars]

theorem scanPower_digits {cs : List Char} (hcs : Digits cs) (hrest : stops rest = true) (text : Text) (negative : Bool) :
    scanPower text (Text.ofChars cs ++ rest) negative =
      (some (if negative then -(natOf cs : Int) else natOf cs), rest) := by
  rw [scanPower, span_digits hcs.digits hrest]
  split
  · rename_i heq
    exact absurd (ofChars_eq_nil.mp (Prod.mk.inj heq).1) hcs.nonempty
  · rename_i heq
    obtain ⟨rfl, rfl⟩ := Prod.mk.inj heq
    rw [digitsOf_ofChars]

/-- Digits before a point: a zero stands alone. -/
structure Whole (cs : List Char) : Prop where
  digits : Digits cs
  leading : cs.head? = some '0' → cs = ['0']

/-- A number is its whole part, fraction and exponent. -/
theorem scanNumber_whole {cs : List Char} (hcs : Whole cs) (hrest : stops rest = true) (negative : Bool) :
    scanNumber negative (Text.ofChars cs ++ rest) =
      match (scanFraction rest).1, (scanExponent (scanFraction rest).2).1 with
      | none, none => do
        raiseIf (maxStrDigits < cs.length) (.valueError "Exceeds the limit (4300 digits) for integer string conversion")
        let n : Int := natOf cs
        return (.int (if negative then -n else n), (scanExponent (scanFraction rest).2).2)
      | fraction, power =>
        let decimals := fraction.getD []
        return (.float (Double.ofDecimal negative (natOf (cs ++ decimals)) (power.getD 0 - decimals.length)),
          (scanExponent (scanFraction rest).2).2) := by
  have hspan := span_digits hcs.digits.digits hrest
  cases cs with
  | nil => exact absurd rfl hcs.digits.nonempty
  | cons c tail =>
    unfold scanNumber
    by_cases hc : c = '0'
    · subst hc
      obtain rfl : tail = [] := (List.cons.inj (hcs.leading rfl)).2
      rfl
    · generalize hnumber : (fun p : List Char × Text => _) = number
      dsimp only
      split
      · rename_i heq
        exact absurd (CodePoint.scalar.inj (List.cons.inj heq).1) hc
      · rw [hspan]
        split
        · rename_i heq
          cases heq
        · rename_i heq
          obtain ⟨rfl, rfl⟩ := Prod.mk.inj heq
          rw [digitsOf_ofChars, ← hnumber]
          rfl

theorem scanNumber_int {cs : List Char} (hcs : Whole cs) (hlength : cs.length ≤ maxStrDigits) (hrest : closes rest = true)
    (negative : Bool) : scanNumber negative (Text.ofChars cs ++ rest) =
      .ok (.int (if negative then -(natOf cs : Int) else natOf cs), rest) := by
  rw [scanNumber_whole hcs (stops_closes hrest), scanFraction_closes hrest, scanExponent_closes hrest]
  dsimp only
  rw [raiseIf, if_neg (not_lt.mpr hlength)]
  rfl

/-- A number with a point. -/
theorem scanNumber_fraction {cs ds : List Char} (hcs : Whole cs) (hds : Digits ds) {power : Option Int} {tail : Text}
    (htail : stops tail = true) (hpower : scanExponent tail = (power, rest)) (negative : Bool) :
    scanNumber negative (Text.ofChars cs ++ .scalar '.' :: (Text.ofChars ds ++ tail)) =
      .ok (.float (Double.ofDecimal negative (natOf (cs ++ ds)) (power.getD 0 - ds.length)), rest) := by
  rw [scanNumber_whole hcs rfl, scanFraction_digits hds htail]
  dsimp only
  rw [hpower]
  rfl

/-- A number with an exponent and no point. -/
theorem scanNumber_power {cs : List Char} (hcs : Whole cs) {power : Int} {tail : Text}
    (hpower : scanExponent (.scalar 'e' :: tail) = (some power, rest)) (negative : Bool) :
    scanNumber negative (Text.ofChars cs ++ .scalar 'e' :: tail) =
      .ok (.float (Double.ofDecimal negative (natOf cs) power), rest) := by
  have hfraction : scanFraction (.scalar 'e' :: tail) = (none, .scalar 'e' :: tail) := rfl
  rw [scanNumber_whole hcs rfl, hfraction]
  dsimp only
  rw [hpower]
  change Except.ok _ = Except.ok _
  rw [Option.getD_none, List.append_nil, Option.getD_some, List.length_nil, Nat.cast_zero, sub_zero]

theorem ofChars_append (cs ds : List Char) : Text.ofChars (cs ++ ds) = Text.ofChars cs ++ Text.ofChars ds := List.map_append

theorem ofChars_nil : Text.ofChars [] = [] := rfl

theorem ofChars_cons (c : Char) (cs : List Char) : Text.ofChars (c :: cs) = .scalar c :: Text.ofChars cs := rfl

theorem digits_append {cs ds : List Char} (hcs : ∀ c ∈ cs, c.isDigit = true) (hds : Digits ds) : Digits (cs ++ ds) :=
  ⟨fun c hc => (List.mem_append.mp hc).elim (hcs c) (hds.digits c), by simp [hds.nonempty]⟩

theorem isDigit_zeros {k : Nat} : ∀ c ∈ zeros k, c.isDigit = true := fun c hc => by
  rw [List.eq_of_mem_replicate hc]
  rfl

theorem whole_zero : Whole ['0'] := ⟨⟨by simp, by simp⟩, fun _ => rfl⟩

theorem whole_of_head {cs : List Char} (hcs : Digits cs) (hhead : cs.head? ≠ some '0') : Whole cs :=
  ⟨hcs, fun h => absurd h hhead⟩

/-- The exponent as it is written, with two digits at least. -/
theorem scanExponent_written (exponent : Int) (hrest : stops rest = true) :
    scanExponent (.scalar 'e' :: .scalar (if exponent < 0 then '-' else '+') ::
      (Text.ofChars (zeros (2 - (Nat.toDigits 10 exponent.natAbs).length) ++ Nat.toDigits 10 exponent.natAbs) ++ rest)) =
      (some exponent, rest) := by
  have hdigits := digits_append (isDigit_zeros (k := 2 - (Nat.toDigits 10 exponent.natAbs).length))
    (digits_toDigits exponent.natAbs)
  have hvalue : natOf (zeros (2 - (Nat.toDigits 10 exponent.natAbs).length) ++ Nat.toDigits 10 exponent.natAbs) =
      exponent.natAbs := by rw [natOf_append, natOf_zeros, zero_mul, zero_add, natOf_toDigits]
  generalize zeros (2 - (Nat.toDigits 10 exponent.natAbs).length) ++ Nat.toDigits 10 exponent.natAbs = cs at hdigits hvalue ⊢
  by_cases hneg : exponent < 0
  · rw [if_pos hneg]
    change scanPower _ (Text.ofChars cs ++ rest) true = _
    rw [scanPower_digits hdigits hrest, hvalue, if_pos rfl]
    congr 2
    omega
  · rw [if_neg hneg]
    change scanPower _ (Text.ofChars cs ++ rest) false = _
    rw [scanPower_digits hdigits hrest, hvalue, if_neg (by simp)]
    congr 2
    omega

/-- What is laid out reads as the same multiple of a power of ten. -/
theorem scanNumber_layout {digits : List Char} (hdigits : Digits digits) (hhead : digits.head? ≠ some '0') (point : Int)
    (hrest : closes rest = true) (negative : Bool) :
    ∃ (n : Nat) (e : Int), scanNumber negative (Text.ofChars (layout digits point) ++ rest) =
        .ok (.float (Double.ofDecimal negative n e), rest) ∧
      (n : ℚ) * 10 ^ e = natOf digits * 10 ^ (point - digits.length) := by
  have hstops := stops_closes hrest
  have hnone := scanExponent_closes hrest
  unfold layout
  split
  · obtain ⟨d, fraction, rfl⟩ := List.exists_cons_of_ne_nil hdigits.nonempty
    have hone : Whole [d] := whole_of_head ⟨fun c hc => hdigits.digits c (by simp_all), by simp⟩ hhead
    have hpower := @scanExponent_written rest (point - 1) hstops
    dsimp only
    by_cases hfraction : fraction = []
    · subst hfraction
      refine ⟨natOf [d], point - 1, ?_, by simp⟩
      rw [← scanNumber_power hone hpower negative]
      simp [ofChars_append, ofChars_nil, ofChars_cons]
    · have htail : Digits fraction := ⟨fun c hc => hdigits.digits c (List.mem_cons_of_mem d hc), hfraction⟩
      refine ⟨natOf ([d] ++ fraction), (some (point - 1)).getD 0 - fraction.length, ?_, ?_⟩
      · rw [← scanNumber_fraction hone htail rfl hpower negative]
        simp [ofChars_append, ofChars_nil, ofChars_cons, hfraction]
      · rw [List.singleton_append, Option.getD_some, List.length_cons]
        congr 2
        push_cast
        ring
  · split
    · have hfraction := digits_append (isDigit_zeros (k := (-point).toNat)) hdigits
      refine ⟨natOf (['0'] ++ (zeros (-point).toNat ++ digits)),
        (none : Option Int).getD 0 - (zeros (-point).toNat ++ digits).length, ?_, ?_⟩
      · rw [← scanNumber_fraction whole_zero hfraction hstops hnone negative]
        simp [ofChars_append, ofChars_nil, ofChars_cons]
      · have hvalue : natOf (['0'] ++ (zeros (-point).toNat ++ digits)) = natOf digits := by
          have hzero : natOf ['0'] = 0 := rfl
          rw [natOf_append, natOf_append, natOf_zeros, hzero, zero_mul, zero_mul, zero_add, zero_add]
        rw [hvalue, List.length_append, length_zeros, Option.getD_none]
        congr 2
        omega
    · split
      · rename_i hpoint hlength
        have hwhole : Whole (digits ++ zeros (point.toNat - digits.length)) := by
          refine whole_of_head ⟨fun c hc => (List.mem_append.mp hc).elim (hdigits.digits c) (isDigit_zeros c),
            by simp [hdigits.nonempty]⟩ ?_
          rwa [List.head?_append_of_ne_nil _ hdigits.nonempty]
        refine ⟨natOf (digits ++ zeros (point.toNat - digits.length) ++ ['0']), (none : Option Int).getD 0 - ['0'].length,
          ?_, ?_⟩
        · rw [← scanNumber_fraction hwhole whole_zero.digits hstops hnone negative]
          simp [ofChars_append, ofChars_nil, ofChars_cons]
        · have hzero : natOf ['0'] = 0 := rfl
          rw [natOf_append, natOf_append, natOf_zeros, hzero, length_zeros, add_zero, add_zero]
          push_cast
          rw [mul_assoc, mul_assoc, ← zpow_natCast, ← zpow_natCast, ← zpow_add₀ (by norm_num), ← zpow_add₀ (by norm_num)]
          congr 2
          simp
          omega
      · rename_i hpoint hlength
        have htake : digits.take point.toNat ≠ [] := by
          simp [hdigits.nonempty]
          omega
        have hwhole : Whole (digits.take point.toNat) := by
          refine whole_of_head ⟨fun c hc => hdigits.digits c (List.mem_of_mem_take hc), htake⟩ ?_
          have happ := @List.head?_append_of_ne_nil _ _ (digits.drop point.toNat) htake
          rw [List.take_append_drop] at happ
          rwa [← happ]
        have hdrop : Digits (digits.drop point.toNat) :=
          ⟨fun c hc => hdigits.digits c (List.mem_of_mem_drop hc), by simp; omega⟩
        refine ⟨natOf (digits.take point.toNat ++ digits.drop point.toNat),
          (none : Option Int).getD 0 - (digits.drop point.toNat).length, ?_, ?_⟩
        · rw [← scanNumber_fraction hwhole hdrop hstops hnone negative]
          simp [ofChars_append, ofChars_cons]
        · rw [List.take_append_drop, List.length_drop, Option.getD_none]
          congr 2
          omega

/-! ## Strings -/

theorem hexDigit_hexChar : ∀ d < 16, hexDigit (.scalar (hexChar d)) = some d := by decide

/-- An escape of a character below the surrogates stands for itself. -/
theorem unicodeEscape_low {text : Text} {high : Nat} (hhex : hex4 text = some (high, rest)) (hlow : high < 0xD800) :
    unicodeEscape text = some (codePoint high, rest) := by
  unfold unicodeEscape
  rw [hhex, Option.bind_eq_bind, Option.bind_some]
  dsimp only
  split
  · split
    · rw [if_neg fun h => absurd h.1 (not_le.mpr hlow)]
      rfl
    · rfl
  · rfl

theorem codePoint_toNat (c : Char) (hlow : c.toNat < 0xD800) : codePoint c.toNat = .scalar c := by
  rw [codePoint, dif_neg fun h => absurd h.1 (not_le.mpr hlow), Char.ofNat_toNat]

theorem eq_ofNat {c : Char} {n : Nat} (h : c.toNat = n) : c = Char.ofNat n := by rw [← h, Char.ofNat_toNat]

/-- Each quoted character takes a round. -/
theorem scanString_quoteChar (rounds : Nat) (c : CodePoint) (text : Text) :
    scanString (rounds + 1) (quoteChar c ++ text) = (do
      let (cs, rest) ← scanString rounds text
      return (c :: cs, rest)) := by
  have hescaped (body : Text) {d : CodePoint} (h : escape (body ++ text) = some (d, text)) :
      scanString (rounds + 1) (.scalar '\\' :: (body ++ text)) = (do
        let (cs, rest) ← scanString rounds text
        return (d :: cs, rest)) := by
    rw [scanString, h]
    rfl
  cases c with
  | surrogate n => rfl
  | scalar c =>
    unfold quoteChar
    split
    · rename_i heq
      cases heq
      exact hescaped [.scalar '"'] rfl
    · rename_i heq
      cases heq
      exact hescaped [.scalar '\\'] rfl
    · rename_i heq
      cases heq
      exact hescaped [.scalar 'n'] rfl
    · rename_i heq
      cases heq
      exact hescaped [.scalar 'r'] rfl
    · rename_i heq
      cases heq
      exact hescaped [.scalar 't'] rfl
    · rename_i d hquote hslash _ _ _ heq
      cases heq
      split
      · rename_i hback
        rw [eq_ofNat hback]
        exact hescaped [.scalar 'b'] rfl
      · split
        · rename_i hfeed
          rw [eq_ofNat hfeed]
          exact hescaped [.scalar 'f'] rfl
        · split
          · rename_i hcontrol
            refine hescaped (Text.ofChars ['u', '0', '0', hexChar (c.toNat / 16), hexChar (c.toNat % 16)]) ?_
            have hhex : hex4 (Text.ofChars ['0', '0', hexChar (c.toNat / 16), hexChar (c.toNat % 16)] ++ text) =
                some (c.toNat, text) := by
              have hhigh := hexDigit_hexChar (c.toNat / 16) (by omega)
              have hlow := hexDigit_hexChar (c.toNat % 16) (by omega)
              have hzero : hexDigit (.scalar '0') = some 0 := rfl
              have hvalue : ((0 * 16 + 0) * 16 + c.toNat / 16) * 16 + c.toNat % 16 = c.toNat := by omega
              simp only [Text.ofChars, List.map_cons, List.map_nil, List.cons_append, List.nil_append, hex4, hzero, hhigh,
                hlow, Option.bind_eq_bind, Option.bind_some, hvalue]
              rfl
            exact (unicodeEscape_low hhex (by omega)).trans (by rw [codePoint_toNat c (by omega)])
          · rename_i hcontrol
            have hplain : isControl (.scalar c) = false := decide_eq_false hcontrol
            change scanString (rounds + 1) (.scalar c :: text) = _
            rw [scanString, hplain]
            · rfl
            · exact fun heq => hquote (CodePoint.scalar.inj heq)
            · exact fun heq => hslash (CodePoint.scalar.inj heq)
    · rename_i heq
      cases heq

theorem length_quoteChar_pos (c : CodePoint) : 0 < (quoteChar c).length := by
  unfold quoteChar
  repeat' split
  all_goals exact Nat.succ_pos _

theorem length_le_quoted (t : Text) : t.length ≤ (t.flatMap quoteChar).length := by
  induction t with
  | nil => exact le_rfl
  | cons c t ih =>
    rw [List.flatMap_cons, List.length_append, List.length_cons, add_comm]
    exact Nat.add_le_add (length_quoteChar_pos c) ih

/-- A quoted string reads back, with a round for each of its characters and one for the quote. -/
theorem scanString_quoted (t rest : Text) {rounds : Nat} (hrounds : t.length < rounds) :
    scanString rounds (t.flatMap quoteChar ++ CodePoint.scalar '"' :: rest) = .ok (t, rest) := by
  induction t generalizing rounds with
  | nil =>
    obtain ⟨rounds, rfl⟩ := Nat.exists_eq_succ_of_ne_zero (Nat.ne_of_gt hrounds)
    rfl
  | cons c t ih =>
    obtain ⟨rounds, rfl⟩ := Nat.exists_eq_succ_of_ne_zero (Nat.ne_of_gt (Nat.zero_lt_of_lt hrounds))
    rw [List.flatMap_cons, List.append_assoc, scanString_quoteChar, ih (Nat.lt_of_succ_lt_succ hrounds)]
    rfl

/-- A string from behind its opening quote on, with a round for each character of the text. -/
theorem scanString_quote (t rest : Text) :
    scanString ((t.flatMap quoteChar ++ [CodePoint.scalar '"']) ++ rest).length ((t.flatMap quoteChar ++ [CodePoint.scalar '"']) ++ rest) =
      .ok (t, rest) := by
  rw [List.append_assoc]
  refine scanString_quoted t rest ?_
  have hquoted := length_le_quoted t
  rw [List.length_append, List.length_append, List.length_singleton]
  omega

/-! ## Literals -/

theorem spellings : literals.map Prod.fst = [Text.ofChars ['n', 'u', 'l', 'l'], Text.ofChars ['t', 'r', 'u', 'e'],
    Text.ofChars ['f', 'a', 'l', 's', 'e'], Text.ofChars ['N', 'a', 'N'],
    Text.ofChars ['I', 'n', 'f', 'i', 'n', 'i', 't', 'y'],
    Text.ofChars ['-', 'I', 'n', 'f', 'i', 'n', 'i', 't', 'y']] := by decide

/-- A text that begins like a number is no other literal. -/
theorem find_number {d : Char} (hd : d.isDigit = true) (text : Text) :
    (literals.find? fun literal => literal.1.isPrefixOf (.scalar d :: text)) = none ∧
      (literals.find? fun literal => literal.1.isPrefixOf (.scalar '-' :: .scalar d :: text)) = none := by
  have hne {c : Char} (hc : c.isDigit = false) : (CodePoint.scalar c == CodePoint.scalar d) = false := by
    refine beq_eq_false_iff_ne.mpr fun heq => ?_
    rw [CodePoint.scalar.inj heq, hd] at hc
    cases hc
  have hfirst {spelling : Text} {c : Char} (hc : c.isDigit = false) (more : Text) :
      ¬(List.isPrefixOf (.scalar c :: spelling) (.scalar d :: more)) = true := by
    rw [List.isPrefixOf, hne hc, Bool.false_and]
    simp
  have hnone {text : Text} (h : ∀ spelling ∈ literals.map Prod.fst, ¬spelling.isPrefixOf text = true) :
      (literals.find? fun literal => literal.1.isPrefixOf text) = none :=
    List.find?_eq_none.mpr fun literal hliteral => h _ (List.mem_map_of_mem hliteral)
  refine ⟨hnone fun spelling hspelling => ?_, hnone fun spelling hspelling => ?_⟩
  · simp only [spellings, List.mem_cons, List.not_mem_nil, or_false] at hspelling
    rcases hspelling with rfl | rfl | rfl | rfl | rfl | rfl
    all_goals exact hfirst rfl _
  · simp only [spellings, List.mem_cons, List.not_mem_nil, or_false] at hspelling
    rcases hspelling with rfl | rfl | rfl | rfl | rfl | rfl
    on_goal 6 =>
      change ¬(List.isPrefixOf (.scalar 'I' :: _) (.scalar d :: text)) = true
      exact hfirst rfl _
    all_goals exact Bool.false_ne_true

theorem scanLiteral_digit {d : Char} (hd : d.isDigit = true) (text : Text) :
    scanLiteral (.scalar d :: text) = scanNumber false (.scalar d :: text) := by
  unfold scanLiteral
  rw [(find_number hd text).1]
  dsimp only
  split
  · rename_i heq
    rw [CodePoint.scalar.inj (List.cons.inj heq).1] at hd
    cases hd
  · rfl

theorem scanLiteral_minus {d : Char} (hd : d.isDigit = true) (text : Text) :
    scanLiteral (.scalar '-' :: .scalar d :: text) = scanNumber true (.scalar d :: text) := by
  unfold scanLiteral
  rw [(find_number hd text).2]
  rfl

/-- A number with its sign. -/
theorem scanLiteral_number {cs : List Char} (hcs : cs.head?.any Char.isDigit = true) (text : Text) (negative : Bool) :
    scanLiteral (Text.ofChars ((if negative then ['-'] else []) ++ cs) ++ text) =
      scanNumber negative (Text.ofChars cs ++ text) := by
  cases cs with
  | nil => cases hcs
  | cons d tail =>
    cases negative with
    | false => exact scanLiteral_digit hcs _
    | true => exact scanLiteral_minus hcs _

theorem head_digits {cs : List Char} (hcs : Digits cs) : cs.head?.any Char.isDigit = true := by
  obtain ⟨d, tail, rfl⟩ := List.exists_cons_of_ne_nil hcs.nonempty
  exact hcs.digits d List.mem_cons_self

theorem scanLiteral_int {n : Int} {text : Text} (h : intText n = .ok text) (hrest : closes rest = true) :
    scanLiteral (text ++ rest) = .ok (.int n, rest) := by
  obtain ⟨u, hlength, h⟩ := bind_eq_ok.mp h
  cases h
  have hdigits := digits_toDigits n.natAbs
  have hwhole : Whole (Nat.toDigits 10 n.natAbs) := by
    by_cases hzero : n.natAbs = 0
    · rw [hzero]
      exact whole_zero
    · exact whole_of_head hdigits (head_toDigits (Nat.pos_of_ne_zero hzero))
  have hscan := scanNumber_int hwhole (not_lt.mp (raiseIf_eq_ok.mp hlength)) hrest (decide (n < 0))
  rw [natOf_toDigits] at hscan
  have hnumber := scanLiteral_number (head_digits hdigits) rest (decide (n < 0))
  rw [hscan] at hnumber
  by_cases hneg : n < 0
  · have hvalue : -(n.natAbs : Int) = n := by omega
    rw [decide_eq_true hneg, if_pos rfl, if_pos rfl, hvalue] at hnumber
    rw [if_pos hneg]
    exact hnumber
  · have hvalue : (n.natAbs : Int) = n := by omega
    rw [decide_eq_false hneg, if_neg (by simp), if_neg (by simp), hvalue] at hnumber
    rw [if_neg hneg]
    exact hnumber

theorem head_layout {digits : List Char} (hdigits : Digits digits) (point : Int) :
    (layout digits point).head?.any Char.isDigit = true := by
  obtain ⟨d, tail, rfl⟩ := List.exists_cons_of_ne_nil hdigits.nonempty
  have hd := hdigits.digits d List.mem_cons_self
  unfold layout
  split
  · exact hd
  · split
    · rfl
    · split
      · exact hd
      · have hpoint : ∃ k, point.toNat = k + 1 := Nat.exists_eq_succ_of_ne_zero (by omega)
        obtain ⟨k, hk⟩ := hpoint
        rw [hk]
        exact hd

/-- The literals that are spelled out, in their order. -/
theorem scanLiteral_spelled (rest : Text) :
    scanLiteral (Text.ofString "null" ++ rest) = .ok (.none, rest) ∧
      scanLiteral (Text.ofString "true" ++ rest) = .ok (.bool true, rest) ∧
      scanLiteral (Text.ofString "false" ++ rest) = .ok (.bool false, rest) ∧
      scanLiteral (Text.ofChars "NaN".toList ++ rest) = .ok (.float 0x7ff8000000000000, rest) ∧
      scanLiteral (Text.ofChars "Infinity".toList ++ rest) = .ok (.float 0x7ff0000000000000, rest) ∧
      scanLiteral (Text.ofChars "-Infinity".toList ++ rest) = .ok (.float 0xfff0000000000000, rest) :=
  ⟨rfl, rfl, rfl, rfl, rfl, rfl⟩

theorem bits_of_magnitude {bits : UInt64} {negative : Bool} (hsign : negative = decide (2 ^ 63 ≤ bits.toNat)) :
    UInt64.ofNat (if negative then bits.toNat % 2 ^ 63 + 2 ^ 63 else bits.toNat % 2 ^ 63) = bits := by
  have hlt := bits.toNat_lt
  have hvalue : (if negative then bits.toNat % 2 ^ 63 + 2 ^ 63 else bits.toNat % 2 ^ 63) = bits.toNat := by
    rw [hsign]
    split
    · rename_i hle
      have hle := of_decide_eq_true hle
      omega
    · rename_i hle
      have hle := of_decide_eq_false ((Bool.not_eq_true _).mp hle)
      omega
  rw [hvalue, UInt64.ofNat_toNat]

theorem scanLiteral_float (bits : UInt64) (hrest : closes rest = true) :
    scanLiteral (Text.ofChars (Double.repr bits) ++ rest) = .ok (.float (readFloat bits), rest) := by
  obtain ⟨-, -, -, hnan, hinf, hneginf⟩ := scanLiteral_spelled rest
  obtain ⟨negative, hsign⟩ : ∃ negative, negative = decide (2 ^ 63 ≤ bits.toNat) := ⟨_, rfl⟩
  have hbits := bits_of_magnitude hsign
  have hminus : (if 2 ^ 63 ≤ bits.toNat then ['-'] else []) = if negative then ['-'] else [] := by
    rw [hsign]
    simp only [decide_eq_true_eq]
  unfold Double.repr readFloat
  dsimp only
  rw [hminus]
  generalize bits.toNat % 2 ^ 63 = magnitude at hbits ⊢
  split
  · exact hnan
  · rename_i hnotnan
    have hreads {n : Nat} {e : Int} (hread : nearest (n * 10 ^ e.toNat) (10 ^ (-e).toNat) = magnitude) :
        ofDecimal negative n e = bits := by
      rw [ofDecimal, hread]
      exact hbits
    split
    · rename_i hinfinite
      rw [hinfinite] at hbits
      rw [← hbits]
      cases negative with
      | false => exact hinf
      | true => exact hneginf
    · rename_i hfinite
      split
      · rename_i hzero
        have hnumber := @scanLiteral_number "0.0".toList rfl rest negative
        have hfraction := scanNumber_fraction whole_zero whole_zero.digits (stops_closes hrest)
          (scanExponent_closes hrest) negative
        rw [hreads (by rw [hzero]; exact nearest_zero)] at hfraction
        exact hnumber.trans hfraction
      · rename_i hzero
        obtain ⟨digits, point, hshortest, hdigits, hhead, hread⟩ :=
          shortest_reads (Nat.pos_of_ne_zero hzero) (lt_of_le_of_ne (not_lt.mp hnotnan) hfinite)
        obtain ⟨n, e, hscan, hvalue⟩ := scanNumber_layout hdigits hhead point hrest negative
        rw [hreads (hread n e hvalue)] at hscan
        rw [hshortest]
        exact (scanLiteral_number (head_layout hdigits point) rest negative).trans hscan

end Scanning

/-! ## Values -/

section Values

variable {stack : Nat} {rest : Text}

/-- A text that begins with no space, no end of a container and no byte order mark. -/
def begins (text : Text) : Bool :=
  match text with
  | .scalar c :: _ => c ≠ ' ' ∧ c ≠ '\t' ∧ c ≠ '\n' ∧ c ≠ '\r' ∧ c ≠ ']' ∧ c ≠ '}' ∧ c ≠ Char.ofNat 0xFEFF
  | _ => false

theorem begins_cases {text : Text} (h : begins text = true) :
    ∃ c tail, text = .scalar c :: tail ∧ c ≠ ' ' ∧ c ≠ '\t' ∧ c ≠ '\n' ∧ c ≠ '\r' ∧ c ≠ ']' ∧ c ≠ '}' ∧
      c ≠ Char.ofNat 0xFEFF := by
  unfold begins at h
  split at h
  · exact ⟨_, _, rfl, of_decide_eq_true h⟩
  · cases h

theorem skipSpace_begins {text : Text} (h : begins text = true) : skipSpace (text ++ rest) = text ++ rest := by
  obtain ⟨c, tail, rfl, hspace, htab, hline, hreturn, -⟩ := begins_cases h
  rw [List.cons_append, skipSpace]
  all_goals simp_all

theorem begins_append {text : Text} (h : begins text = true) : begins (text ++ rest) = true := by
  obtain ⟨c, tail, rfl, hc⟩ := begins_cases h
  exact decide_eq_true hc

/-- The text reads as the value, whatever follows it. -/
structure Reads (stack : Nat) (text : Text) (v : PyVal) : Prop where
  begins : Json.begins text = true
  reads : ∀ rest, closes rest = true → scanOnce stack (text ++ rest) = .ok (v, rest)

theorem scanItems_joined {parts : List Text} {items : List PyVal} (h : List.Forall₂ (Reads stack) parts items)
    (hparts : parts ≠ []) (before : List PyVal) {rounds : Nat} (hrounds : parts.length ≤ rounds) (rest : Text) :
    scanItems (scanOnce stack) rounds before ((parts.intersperse [.scalar ',']).flatten ++ .scalar ']' :: rest) =
      .ok (.list (before ++ items), rest) := by
  induction h generalizing before rounds with
  | nil => exact absurd rfl hparts
  | @cons part item parts items hpart htail ih =>
    obtain ⟨rounds, rfl⟩ := Nat.exists_eq_succ_of_ne_zero (Nat.ne_of_gt (Nat.zero_lt_of_lt hrounds))
    cases htail with
    | nil =>
      have hsplit : ([part].intersperse [.scalar ',']).flatten ++ .scalar ']' :: rest = part ++ .scalar ']' :: rest := by
        simp
      rw [hsplit, scanItems, hpart.reads _ rfl]
      rfl
    | @cons next _ parts items hnext htail =>
      have hsplit : ((part :: next :: parts).intersperse [.scalar ',']).flatten ++ .scalar ']' :: rest =
          part ++ .scalar ',' :: (((next :: parts).intersperse [.scalar ',']).flatten ++ .scalar ']' :: rest) := by
        simp
      have hbegins : begins ((next :: parts).intersperse [.scalar ',']).flatten = true := by
        cases parts with
        | nil => simpa using hnext.begins
        | cons after parts => simpa using begins_append hnext.begins
      rw [hsplit, scanItems, hpart.reads _ rfl]
      change scanItems (scanOnce stack) rounds (before ++ [item]) (skipSpace _) = _
      rw [skipSpace_begins hbegins, ih (by simp) (before ++ [item]) (Nat.le_of_succ_le_succ hrounds), List.append_assoc]
      rfl

/-- A member of an object reads as its key and value. -/
def ReadsMember (stack : Nat) (part : Text) (entry : Text × PyVal) : Prop :=
  ∃ text, part = quote entry.1 ++ .scalar ':' :: text ∧ Reads stack text entry.2

theorem begins_member {part : Text} {entry : Text × PyVal} (h : ReadsMember stack part entry) : begins part = true := by
  obtain ⟨text, rfl, -⟩ := h
  rfl

theorem scanMembers_of_key {value : Text → Except Exc (PyVal × Text)} {key text : Text}
    (hkey : scanString text.length text = .ok (key, .scalar ':' :: rest)) (rounds : Nat) (before : Table) :
    scanMembers value (rounds + 1) before (.scalar '"' :: text) = (do
      let (item, rest) ← value (skipSpace rest)
      match skipSpace rest with
      | .scalar '}' :: rest => .ok (.dict (assign key item before), rest)
      | .scalar ',' :: rest => scanMembers value rounds (assign key item before) (skipSpace rest)
      | _ => .error .jsonDecodeError) := by
  rw [scanMembers, hkey]
  rfl

/-- A member that is followed by another one, or by the end of the object. -/
theorem scanMembers_member {part : Text} {key : Text} {value : PyVal} (hpart : ReadsMember stack part (key, value))
    (rounds : Nat) (before : Table) : closes rest = true → scanMembers (scanOnce stack) (rounds + 1) before (part ++ rest) =
      match rest with
      | .scalar '}' :: rest => .ok (.dict (assign key value before), rest)
      | .scalar ',' :: rest => scanMembers (scanOnce stack) rounds (assign key value before) (skipSpace rest)
      | _ => .error .jsonDecodeError := by
  intro hrest
  obtain ⟨text, rfl, hvalue⟩ := hpart
  have htext : quote key ++ .scalar ':' :: text ++ rest =
      .scalar '"' :: ((key.flatMap quoteChar ++ [.scalar '"']) ++ .scalar ':' :: (text ++ rest)) := by
    simp [quote]
  rw [htext, scanMembers_of_key (scanString_quote key _), skipSpace_begins hvalue.begins, hvalue.reads rest hrest]
  conv_rhs => rw [← skipSpace_closes hrest]
  rfl

theorem scanMembers_joined {parts : List Text} {entries : Table} (h : List.Forall₂ (ReadsMember stack) parts entries)
    (hparts : parts ≠ []) (before : Table) (hkeys : ((before ++ entries).map Prod.fst).Nodup) {rounds : Nat}
    (hrounds : parts.length ≤ rounds) (rest : Text) :
    scanMembers (scanOnce stack) rounds before ((parts.intersperse [.scalar ',']).flatten ++ .scalar '}' :: rest) =
      .ok (.dict (before ++ entries), rest) := by
  induction h generalizing before rounds with
  | nil => exact absurd rfl hparts
  | @cons part entry parts entries hpart htail ih =>
    obtain ⟨key, value⟩ := entry
    obtain ⟨rounds, rfl⟩ := Nat.exists_eq_succ_of_ne_zero (Nat.ne_of_gt (Nat.zero_lt_of_lt hrounds))
    have hassign : assign key value before = before ++ [(key, value)] := by
      refine assign_eq_append fun hmem => ?_
      rw [List.map_append, List.map_cons, List.nodup_append] at hkeys
      exact hkeys.2.2 _ hmem _ List.mem_cons_self rfl
    cases htail with
    | nil =>
      have hsplit : ([part].intersperse [.scalar ',']).flatten ++ .scalar '}' :: rest = part ++ .scalar '}' :: rest := by
        simp
      rw [hsplit, scanMembers_member hpart _ _ rfl, hassign]
      rfl
    | @cons next _ parts entries hnext htail =>
      have hsplit : ((part :: next :: parts).intersperse [.scalar ',']).flatten ++ .scalar '}' :: rest =
          part ++ .scalar ',' :: (((next :: parts).intersperse [.scalar ',']).flatten ++ .scalar '}' :: rest) := by
        simp
      have hbegins : begins ((next :: parts).intersperse [.scalar ',']).flatten = true := by
        cases parts with
        | nil => simpa using begins_member hnext
        | cons after parts => simpa using begins_append (begins_member hnext)
      rw [hsplit, scanMembers_member hpart _ _ rfl, hassign]
      change scanMembers (scanOnce stack) rounds _ (skipSpace _) = _
      rw [skipSpace_begins hbegins, ih (by simp) _ (by simpa using hkeys) (Nat.le_of_succ_le_succ hrounds), List.append_assoc]
      rfl

theorem scanOnce_literal {c : Char} (hbrace : c ≠ '{') (hbracket : c ≠ '[') (hquote : c ≠ '"') (text : Text) :
    scanOnce stack (.scalar c :: text) = scanLiteral (.scalar c :: text) := by
  cases stack with
  | zero =>
    unfold scanOnce
    split <;> simp_all
  | succ stack =>
    unfold scanOnce
    split <;> simp_all

/-- A literal begins with a letter, a sign or a digit. -/
def spells (text : Text) : Bool :=
  match text with
  | .scalar c :: _ => c = '-' ∨ c.isAlphanum = true
  | _ => false

theorem reads_literal {text : Text} {v : PyVal} (hspells : spells text = true)
    (h : ∀ rest, closes rest = true → scanLiteral (text ++ rest) = .ok (v, rest)) : Reads stack text v := by
  unfold spells at hspells
  split at hspells
  · rename_i c tail
    have hne {d : Char} (hd : d ≠ '-' ∧ d.isAlphanum = false) : c ≠ d := by
      rintro rfl
      rcases of_decide_eq_true hspells with hminus | hletter
      · exact hd.1 hminus
      · rw [hd.2] at hletter
        cases hletter
    refine ⟨decide_eq_true ?_, fun rest hrest => ?_⟩
    · exact ⟨hne (by decide), hne (by decide), hne (by decide), hne (by decide), hne (by decide), hne (by decide), hne (by decide)⟩
    · exact (scanOnce_literal (hne (by decide)) (hne (by decide)) (hne (by decide)) _).trans (h rest hrest)
  · cases hspells

theorem spells_number {cs : List Char} (hcs : cs.head?.any Char.isDigit = true) (negative : Bool) :
    spells (Text.ofChars ((if negative then ['-'] else []) ++ cs)) = true := by
  cases cs with
  | nil => cases hcs
  | cons d tail =>
    cases negative with
    | false => exact decide_eq_true (.inr (by rw [Char.isAlphanum, show d.isDigit = true from hcs, Bool.or_true]))
    | true => rfl

theorem reads_int {n : Int} {text : Text} (h : intText n = .ok text) : Reads stack text (.int n) := by
  refine reads_literal ?_ fun rest hrest => scanLiteral_int h hrest
  obtain ⟨u, -, h⟩ := bind_eq_ok.mp h
  cases h
  have hspells := spells_number (head_digits (digits_toDigits n.natAbs)) (decide (n < 0))
  by_cases hneg : n < 0
  · rw [decide_eq_true hneg] at hspells
    rw [if_pos hneg]
    exact hspells
  · rw [decide_eq_false hneg] at hspells
    rw [if_neg hneg]
    exact hspells

theorem spells_repr (bits : UInt64) : spells (Text.ofChars (Double.repr bits)) = true := by
  have hsigned {cs : List Char} (hcs : cs.head?.any Char.isAlphanum = true) :
      spells (Text.ofChars ((if 2 ^ 63 ≤ bits.toNat then ['-'] else []) ++ cs)) = true := by
    split
    · rfl
    · cases cs with
      | nil => cases hcs
      | cons d tail => exact decide_eq_true (.inr hcs)
  have hdigit {cs : List Char} (hcs : cs.head?.any Char.isDigit = true) : cs.head?.any Char.isAlphanum = true := by
    cases cs with
    | nil => cases hcs
    | cons d tail =>
      have hd : d.isDigit = true := hcs
      change d.isAlphanum = true
      rw [Char.isAlphanum, hd, Bool.or_true]
  unfold Double.repr
  dsimp only
  split
  · rfl
  · split
    · exact hsigned rfl
    · split
      · exact hsigned rfl
      · rename_i hnotnan hfinite hzero
        obtain ⟨digits, point, hshortest, hdigits, -⟩ :=
          shortest_reads (Nat.pos_of_ne_zero hzero) (lt_of_le_of_ne (not_lt.mp hnotnan) hfinite)
        rw [hshortest]
        exact hsigned (hdigit (head_layout hdigits point))

theorem reads_float (bits : UInt64) : Reads stack (Text.ofChars (Double.repr bits)) (.float (readFloat bits)) :=
  reads_literal (spells_repr bits) fun _ hrest => scanLiteral_float bits hrest

theorem reads_str (t : Text) : Reads stack (quote t) (.str t) := by
  refine ⟨rfl, fun rest hrest => ?_⟩
  have htext : quote t ++ rest = .scalar '"' :: ((t.flatMap quoteChar ++ [.scalar '"']) ++ rest) := rfl
  cases stack with
  | zero =>
    rw [htext, scanOnce, scanString_quote]
    rfl
  | succ stack =>
    rw [htext, scanOnce, scanString_quote]
    rfl

/-- The parts of an array. -/
theorem forall₂_items {items : List PyVal} {parts : List Text}
    (ih : ∀ v text, dumpValue stack v = .ok text → keyed v = true → Reads stack text (readBack v))
    (h : List.Forall₂ (fun item part => dumpValue stack item = .ok part) items parts) (hkeyed : keyedItems items = true) :
    List.Forall₂ (Reads stack) parts (readItems items) := by
  induction h with
  | nil => exact .nil
  | cons hpart _ hrest =>
    obtain ⟨hitem, hitems⟩ := Bool.and_eq_true_iff.mp hkeyed
    exact .cons (ih _ _ hpart hitem) (hrest hitems)

/-- The parts of an object. -/
theorem forall₂_members {entries : Table} {parts : List Text}
    (ih : ∀ v text, dumpValue stack v = .ok text → keyed v = true → Reads stack text (readBack v))
    (h : List.Forall₂ (fun entry part => (do
      let text ← dumpValue stack entry.2
      return quote entry.1 ++ CodePoint.scalar ':' :: text) = .ok part) entries parts) (hkeyed : keyedEntries entries = true) :
    List.Forall₂ (ReadsMember stack) parts (readEntries entries) := by
  induction h with
  | nil => exact .nil
  | @cons entry part _ _ hpart _ hrest =>
    obtain ⟨key, value⟩ := entry
    obtain ⟨hvalue, hentries⟩ := Bool.and_eq_true_iff.mp hkeyed
    obtain ⟨text, htext, hpart⟩ := bind_eq_ok.mp hpart
    cases hpart
    exact .cons ⟨text, rfl, ih _ _ htext hvalue⟩ (hrest hentries)

theorem keys_readEntries (entries : Table) : (readEntries entries).map Prod.fst = entries.map Prod.fst := by
  induction entries with
  | nil => rfl
  | cons entry entries ih => exact congrArg (entry.1 :: ·) ih

theorem begins_flatten {part : Text} (parts : List Text) (h : begins part = true) (rest : Text) :
    begins (((part :: parts).intersperse [.scalar ',']).flatten ++ rest) = true := by
  refine begins_append ?_
  cases parts with
  | nil => simpa using h
  | cons next parts => simpa using begins_append h

/-- Each part takes a character or more. -/
theorem length_le_flatten {parts : List Text} (h : ∀ part ∈ parts, begins part = true) (rest : Text) :
    parts.length ≤ ((parts.intersperse [.scalar ',']).flatten ++ rest).length := by
  rw [List.length_append]
  refine Nat.le_add_right_of_le ?_
  induction parts with
  | nil => exact le_rfl
  | cons part parts ih =>
    obtain ⟨c, tail, hpart, -⟩ := begins_cases (h part List.mem_cons_self)
    have htail := ih fun part hmem => h part (List.mem_cons_of_mem _ hmem)
    cases parts with
    | nil => simp [hpart]
    | cons next parts =>
      simp only [List.intersperse, List.flatten_cons, List.length_append, List.length_cons, hpart] at htail ⊢
      omega

theorem scanOnce_array {text : Text} (h : begins text = true) :
    scanOnce (stack + 1) (.scalar '[' :: text) = scanItems (scanOnce stack) text.length [] text := by
  have hskip := @skipSpace_begins [] _ h
  rw [List.append_nil] at hskip
  rw [scanOnce, hskip]
  obtain ⟨c, tail, rfl, -, -, -, -, hbracket, -⟩ := begins_cases h
  split
  · rename_i heq
    exact absurd (CodePoint.scalar.inj (List.cons.inj heq).1) hbracket
  · rfl

theorem scanOnce_object {text : Text} (h : begins text = true) :
    scanOnce (stack + 1) (.scalar '{' :: text) = scanMembers (scanOnce stack) text.length [] text := by
  have hskip := @skipSpace_begins [] _ h
  rw [List.append_nil] at hskip
  rw [scanOnce, hskip]
  obtain ⟨c, tail, rfl, -, -, -, -, -, hbrace, -⟩ := begins_cases h
  split
  · rename_i heq
    exact absurd (CodePoint.scalar.inj (List.cons.inj heq).1) hbrace
  · rfl

theorem joined_append (opening closing : Char) (parts : List Text) (rest : Text) :
    joined opening closing parts ++ rest =
      .scalar opening :: ((parts.intersperse [.scalar ',']).flatten ++ .scalar closing :: rest) := by
  simp [joined]

theorem reads_array {parts : List Text} {items : List PyVal} (h : List.Forall₂ (Reads stack) parts items) :
    Reads (stack + 1) (joined '[' ']' parts) (.list items) := by
  refine ⟨rfl, fun rest hrest => ?_⟩
  have hbegins := ((List.forall₂_and_left _ _).mp (h.imp fun _ _ hpart => ⟨hpart.begins, hpart⟩)).1
  rw [joined_append]
  cases h with
  | nil => rfl
  | cons hpart htail =>
    rw [scanOnce_array (begins_flatten _ hpart.begins _)]
    exact scanItems_joined (.cons hpart htail) (by simp) [] (length_le_flatten hbegins _) rest

theorem reads_object {parts : List Text} {entries : Table} (h : List.Forall₂ (ReadsMember stack) parts entries)
    (hkeys : (entries.map Prod.fst).Nodup) : Reads (stack + 1) (joined '{' '}' parts) (.dict entries) := by
  refine ⟨rfl, fun rest hrest => ?_⟩
  have hbegins := ((List.forall₂_and_left _ _).mp (h.imp fun _ _ hpart => ⟨begins_member hpart, hpart⟩)).1
  rw [joined_append]
  cases h with
  | nil => rfl
  | cons hpart htail =>
    rw [scanOnce_object (begins_flatten _ (begins_member hpart) _)]
    exact scanMembers_joined (.cons hpart htail) (by simp) [] hkeys (length_le_flatten hbegins _) rest

theorem reads_scalar {v : PyVal} {text : Text} (h : dumpValue stack v = .ok text) (hdict : ∀ entries, v ≠ .dict entries)
    (htuple : ∀ items, v ≠ .tuple items) (hlist : ∀ items, v ≠ .list items) : Reads stack text (readBack v) := by
  cases v with
  | none =>
    rw [dumpValue] at h
    cases h
    exact reads_literal rfl fun rest _ => (scanLiteral_spelled rest).1
  | bool b =>
    rw [dumpValue] at h
    cases h
    cases b with
    | true => exact reads_literal rfl fun rest _ => (scanLiteral_spelled rest).2.1
    | false => exact reads_literal rfl fun rest _ => (scanLiteral_spelled rest).2.2.1
  | int n =>
    rw [dumpValue] at h
    exact reads_int h
  | float bits =>
    rw [dumpValue] at h
    cases h
    exact reads_float bits
  | str t =>
    rw [dumpValue] at h
    cases h
    exact reads_str t
  | dict entries => exact absurd rfl (hdict entries)
  | tuple items => exact absurd rfl (htuple items)
  | list items => exact absurd rfl (hlist items)
  | _ =>
    rw [dumpValue] at h
    cases h

/-- What is written reads back, whatever follows it. -/
theorem reads_dumpValue {v : PyVal} {text : Text} (h : dumpValue stack v = .ok text) (hkeyed : keyed v = true) :
    Reads stack text (readBack v) := by
  induction stack generalizing v text with
  | zero =>
    refine reads_scalar h ?_ ?_ ?_
    all_goals
      rintro children rfl
      rw [dumpValue] at h
      cases h
  | succ stack ih =>
    have hitems {items : List PyVal} {parts : List Text} (hparts : items.mapM (dumpValue stack) = .ok parts)
        (hkeyed : keyedItems items = true) : Reads (stack + 1) (joined '[' ']' parts) (.list (readItems items)) :=
      reads_array (forall₂_items (fun _ _ => ih) (forall₂_of_mapM hparts) hkeyed)
    cases v with
    | dict entries =>
      obtain ⟨parts, hparts, h⟩ := bind_eq_ok.mp h
      cases h
      obtain ⟨hkeys, hvalues⟩ := Bool.and_eq_true_iff.mp hkeyed
      refine reads_object (forall₂_members (fun _ _ => ih) (forall₂_of_mapM hparts) hvalues) ?_
      rw [keys_readEntries]
      exact of_decide_eq_true hkeys
    | tuple items =>
      obtain ⟨parts, hparts, h⟩ := bind_eq_ok.mp h
      cases h
      exact hitems hparts hkeyed
    | list items =>
      obtain ⟨parts, hparts, h⟩ := bind_eq_ok.mp h
      cases h
      exact hitems hparts hkeyed
    | _ => exact reads_scalar h (by simp) (by simp) (by simp)

theorem loads_of_reads {v : PyVal} {text : Text} (h : Reads stack text v) : loads stack text = .ok v := by
  have hskip := @skipSpace_begins [] _ h.begins
  have hscan := h.reads [] rfl
  rw [List.append_nil] at hskip hscan
  have hmark : ¬text.head? = some (.scalar (Char.ofNat 0xFEFF)) := by
    obtain ⟨c, tail, rfl, -, -, -, -, -, -, hmark⟩ := begins_cases h.begins
    exact fun hhead => hmark (CodePoint.scalar.inj (Option.some.inj hhead))
  rw [loads, raiseIf_of_not hmark, ok_bind, hskip, hscan]
  rfl

/-- What `json.dumps` writes `json.loads` reads back. -/
theorem loads_dumps {v : PyVal} {text : Text} (h : dumps stack v = .ok text) (hkeyed : keyed v = true) :
    loads stack text = .ok (readBack v) :=
  loads_of_reads (reads_dumpValue h hkeyed)

theorem readFloat_readFloat (bits : UInt64) : readFloat (readFloat bits) = readFloat bits := by
  unfold readFloat
  split
  · rfl
  · rfl

mutual

/-- What has been read back reads back as itself. -/
theorem readBack_readBack (v : PyVal) : readBack (readBack v) = readBack v := by
  cases v with
  | float bits => rw [readBack, readBack, readFloat_readFloat]
  | dict entries => rw [readBack, readBack, readEntries_readEntries]
  | tuple items => rw [readBack, readBack, readItems_readItems]
  | list items => rw [readBack, readBack, readItems_readItems]
  | _ => rfl

theorem readEntries_readEntries (entries : Table) : readEntries (readEntries entries) = readEntries entries := by
  cases entries with
  | nil => rfl
  | cons entry entries => rw [readEntries, readEntries, readBack_readBack, readEntries_readEntries]

theorem readItems_readItems (items : List PyVal) : readItems (readItems items) = readItems items := by
  cases items with
  | nil => rfl
  | cons item items => rw [readItems, readItems, readBack_readBack, readItems_readItems]

end

theorem repr_readFloat (bits : UInt64) : Double.repr (readFloat bits) = Double.repr bits := by
  unfold readFloat
  split
  · rename_i hnan
    unfold Double.repr
    dsimp only
    rw [if_pos hnan]
    rfl
  · rfl

theorem mapM_readItems {items : List PyVal} (ih : ∀ v, dumpValue stack (readBack v) = dumpValue stack v) :
    (readItems items).mapM (dumpValue stack) = items.mapM (dumpValue stack) := by
  induction items with
  | nil => rfl
  | cons item items hrest => rw [readItems, List.mapM_cons, List.mapM_cons, ih, hrest]

/-- What has been read back is written as the value was. -/
theorem dumpValue_readBack (v : PyVal) : dumpValue stack (readBack v) = dumpValue stack v := by
  induction stack generalizing v with
  | zero =>
    cases v with
    | float bits => rw [readBack, dumpValue, dumpValue, repr_readFloat]
    | dict entries => rw [readBack, dumpValue, dumpValue]
    | tuple items => rw [readBack, dumpValue, dumpValue]
    | list items => rw [readBack, dumpValue, dumpValue]
    | _ => rfl
  | succ stack ih =>
    cases v with
    | float bits => rw [readBack, dumpValue, dumpValue, repr_readFloat]
    | dict entries =>
      rw [readBack, dumpValue, dumpValue]
      congr 1
      induction entries with
      | nil => rfl
      | cons entry entries hrest =>
        obtain ⟨key, value⟩ := entry
        rw [readEntries, List.mapM_cons, List.mapM_cons, hrest]
        dsimp only
        rw [ih]
    | tuple items => rw [readBack, dumpValue, dumpValue, mapM_readItems ih]
    | list items => rw [readBack, dumpValue, dumpValue, mapM_readItems ih]
    | _ => rfl

end Values

end Nuropb.Json
