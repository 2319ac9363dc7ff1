import Nuropb.Python.JsonText

/-! # JSON in ASCII

What is not ASCII is escaped by its UTF-16 code units. A text reads back with each two surrogates that make a pair as
one character.
-/
namespace Nuropb.Json

open Library

/-- A code unit in hexadecimal. -/
def hexText (n : Nat) : Text :=
  Text.ofChars [hexChar (n / 4096 % 16), hexChar (n / 256 % 16), hexChar (n / 16 % 16), hexChar (n % 16)]

def escapeUnit (n : Nat) : Text := .scalar '\\' :: .scalar 'u' :: hexText n

/-- A character as ASCII: what is beyond the first plane is a surrogate pair. -/
def asciiChar (c : CodePoint) : Text :=
  let n := c.number
  if 32 ≤ n ∧ n < 127 then [c]
  else if n < 0x10000 then escapeUnit n
  else escapeUnit (0xD800 + (n - 0x10000) / 0x400) ++ escapeUnit (0xDC00 + (n - 0x10000) % 0x400)

/-- `json.dumps(value, separators=(",", ":"))`: outside of its strings the text is ASCII. -/
def dumpsAscii (stack : Nat) (value : PyVal) : Except Exc Text := do
  let text ← dumps stack value
  return text.flatMap asciiChar

/-- Each high surrogate that a low one follows, as one character with it. -/
def pairUp : Text → Text
  | .surrogate high :: .surrogate low :: rest =>
    if high.val < 0x400 ∧ 0x400 ≤ low.val then
      .scalar (Char.ofNat (0x10000 + high * 0x400 + (low - 0x400))) :: pairUp rest
    else .surrogate high :: pairUp (.surrogate low :: rest)
  | c :: rest => c :: pairUp rest
  | [] => []

variable {n : Nat} {rest : Text}

theorem hex4_hexText (hn : n < 0x10000) (rest : Text) : hex4 (hexText n ++ rest) = some (n, rest) := by
  have h1 := hexDigit_hexChar (n / 4096 % 16) (by omega)
  have h2 := hexDigit_hexChar (n / 256 % 16) (by omega)
  have h3 := hexDigit_hexChar (n / 16 % 16) (by omega)
  have h4 := hexDigit_hexChar (n % 16) (by omega)
  have hvalue : ((n / 4096 % 16 * 16 + n / 256 % 16) * 16 + n / 16 % 16) * 16 + n % 16 = n := by omega
  simp only [hexText, Text.ofChars, List.map_cons, List.map_nil, List.cons_append, List.nil_append, hex4, h1, h2, h3, h4,
    Option.bind_eq_bind, Option.bind_some, hvalue]
  rfl

/-- The text goes on with the escape of a low surrogate. -/
def lowAhead (text : Text) : Bool :=
  match text with
  | .scalar '\\' :: .scalar 'u' :: more => (hex4 more).any fun low => 0xDC00 ≤ low.1 ∧ low.1 < 0xE000
  | _ => false

/-- An escape that is not the first of a pair. -/
theorem unicodeEscape_unit (hn : n < 0x10000) (hsingle : 0xD800 ≤ n → n < 0xDC00 → lowAhead rest = false) :
    unicodeEscape (hexText n ++ rest) = some (codePoint n, rest) := by
  unfold unicodeEscape
  rw [hex4_hexText hn]
  change (match rest with
    | .scalar '\\' :: .scalar 'u' :: more => _
    | _ => _) = _
  split
  · rename_i more
    split
    · rename_i low rest' hmore
      rw [if_neg]
      · rfl
      · rintro ⟨hhigh, hhigh', hlow, hlow'⟩
        have hahead := hsingle hhigh hhigh'
        simp [lowAhead, hmore, hlow, hlow'] at hahead
    · rfl
  · rfl

/-- Two escapes that are a pair. -/
theorem unicodeEscape_pair {high low : Nat} (hhigh : high < 0x400) (hlow : low < 0x400) (rest : Text) :
    unicodeEscape (hexText (0xD800 + high) ++ (escapeUnit (0xDC00 + low) ++ rest)) =
      some (.scalar (Char.ofNat (0x10000 + high * 0x400 + low)), rest) := by
  unfold unicodeEscape
  rw [hex4_hexText (by omega), Option.bind_eq_bind, Option.bind_some, escapeUnit]
  simp only [List.cons_append]
  rw [hex4_hexText (by omega)]
  dsimp only
  rw [if_pos (by omega), Nat.add_sub_cancel_left, Nat.add_sub_cancel_left]
  rfl

theorem surrogate_of_number {c : CodePoint} (h : 0xD800 ≤ c.number) (h' : c.number < 0xE000) : ∃ n, c = .surrogate n := by
  cases c with
  | surrogate n => exact ⟨n, rfl⟩
  | scalar c =>
    have hvalid : c.toNat < 0xD800 ∨ 0xDFFF < c.toNat ∧ c.toNat < 0x110000 := c.valid
    rw [CodePoint.number] at h h'
    omega

theorem codePoint_number (c : CodePoint) : codePoint c.number = c := by
  cases c with
  | surrogate n =>
    have hn := n.isLt
    rw [codePoint, CodePoint.number, dif_pos (by omega)]
    exact congrArg CodePoint.surrogate (Fin.ext (Nat.add_sub_cancel_left ..))
  | scalar c =>
    have hvalid : c.toNat < 0xD800 ∨ 0xDFFF < c.toNat ∧ c.toNat < 0x110000 := c.valid
    rw [codePoint, CodePoint.number, dif_neg (by omega), Char.ofNat_toNat]

/-- A text in ASCII, as it was. -/
def Plain (text : Text) : Prop := ∀ c ∈ text, asciiChar c = [c]

instance : DecidablePred Plain := fun text => inferInstanceAs (Decidable (∀ c ∈ text, asciiChar c = [c]))

theorem ascii_plain {text : Text} (h : Plain text) : text.flatMap asciiChar = text := by
  induction text with
  | nil => rfl
  | cons c text ih =>
    rw [List.flatMap_cons, h c List.mem_cons_self, ih fun d hd => h d (List.mem_cons_of_mem _ hd)]
    rfl

/-- The characters are written as they are. -/
def printable (cs : List Char) : Bool := cs.all fun c => decide (32 ≤ c.toNat) && decide (c.toNat < 127)

theorem plain_ofChars {cs : List Char} (h : printable cs = true) : Plain (Text.ofChars cs) := by
  intro c hc
  obtain ⟨d, hd, rfl⟩ := List.mem_map.mp hc
  obtain ⟨hlow, hhigh⟩ := Bool.and_eq_true_iff.mp (List.all_eq_true.mp h d hd)
  exact if_pos ⟨of_decide_eq_true hlow, of_decide_eq_true hhigh⟩

theorem printable_digits {cs : List Char} (h : ∀ c ∈ cs, c.isDigit = true) : printable cs = true := by
  refine List.all_eq_true.mpr fun c hc => ?_
  obtain ⟨hlow, hhigh⟩ := Char.isDigit_iff_toNat.mp (h c hc)
  exact Bool.and_eq_true_iff.mpr ⟨decide_eq_true (le_trans (by decide) hlow),
    decide_eq_true (lt_of_le_of_lt hhigh (by decide))⟩

theorem printable_append {cs ds : List Char} (hcs : printable cs = true) (hds : printable ds = true) :
    printable (cs ++ ds) = true := by
  rw [printable, List.all_append]
  exact Bool.and_eq_true_iff.mpr ⟨hcs, hds⟩

/-- A quoted character in ASCII. -/
def asciiQuoted (c : CodePoint) : Text := (quoteChar c).flatMap asciiChar

theorem hexChar_printable : ∀ d < 16, printable [hexChar d] = true := by decide

/-- What is quoted below the end of ASCII is in ASCII. -/
theorem asciiQuoted_low {c : CodePoint} (h : c.number < 127) : asciiQuoted c = quoteChar c := by
  refine ascii_plain ?_
  cases c with
  | surrogate n => exact absurd h (by rw [CodePoint.number]; omega)
  | scalar c =>
    rw [CodePoint.number] at h
    unfold quoteChar
    split <;> rename_i heq <;> cases heq
    · exact plain_ofChars rfl
    · exact plain_ofChars rfl
    · exact plain_ofChars rfl
    · exact plain_ofChars rfl
    · exact plain_ofChars rfl
    · split
      · exact plain_ofChars rfl
      · split
        · exact plain_ofChars rfl
        · split
          · have hhigh := hexChar_printable (c.toNat / 16) (by omega)
            have hlow := hexChar_printable (c.toNat % 16) (by omega)
            exact plain_ofChars (@printable_append ['\\', 'u', '0', '0'] _ rfl (@printable_append [_] [_] hhigh hlow))
          · have hplain : printable [c] = true := by
              simp only [printable, List.all_cons, List.all_nil, Bool.and_true, Bool.and_eq_true, decide_eq_true_eq]
              omega
            exact plain_ofChars hplain

theorem quoteChar_high {c : CodePoint} (h : 127 ≤ c.number) : quoteChar c = [c] := by
  cases c with
  | surrogate n => rfl
  | scalar c =>
    rw [CodePoint.number] at h
    unfold quoteChar
    split <;> rename_i heq <;> cases heq
    · exact absurd h (by decide)
    · exact absurd h (by decide)
    · exact absurd h (by decide)
    · exact absurd h (by decide)
    · exact absurd h (by decide)
    · rw [if_neg (by omega), if_neg (by omega), if_neg (by omega)]

theorem asciiQuoted_unit {c : CodePoint} (h : 127 ≤ c.number) (hunit : c.number < 0x10000) :
    asciiQuoted c = escapeUnit c.number := by
  rw [asciiQuoted, quoteChar_high h, List.flatMap_singleton, asciiChar, if_neg (by omega), if_pos hunit]

theorem asciiQuoted_pair {c : CodePoint} (h : 0x10000 ≤ c.number) :
    asciiQuoted c = escapeUnit (0xD800 + (c.number - 0x10000) / 0x400) ++
      escapeUnit (0xDC00 + (c.number - 0x10000) % 0x400) := by
  rw [asciiQuoted, quoteChar_high (by omega), List.flatMap_singleton, asciiChar, if_neg (by omega), if_neg (by omega)]

theorem asciiQuoted_surrogate (n : Fin 2048) : asciiQuoted (.surrogate n) = escapeUnit (0xD800 + n) :=
  asciiQuoted_unit (by rw [CodePoint.number]; omega) (by rw [CodePoint.number]; omega)

theorem lowAhead_escapeUnit (hn : n < 0x10000) (rest : Text) :
    lowAhead (escapeUnit n ++ rest) = decide (0xDC00 ≤ n ∧ n < 0xE000) := by
  change ((hex4 (hexText n ++ rest)).any fun low => 0xDC00 ≤ low.1 ∧ low.1 < 0xE000) = _
  rw [hex4_hexText hn]
  rfl

theorem lowAhead_of_ne {c : Char} (hc : c ≠ '\\') (rest : Text) : lowAhead (.scalar c :: rest) = false := by
  unfold lowAhead
  split
  · rename_i heq
    exact absurd (CodePoint.scalar.inj (List.cons.inj heq).1) hc
  · rfl

/-- What a character is written as goes on with a low surrogate exactly if it is one. -/
theorem lowAhead_asciiQuoted (c : CodePoint) (rest : Text) :
    lowAhead (asciiQuoted c ++ rest) = decide (0xDC00 ≤ c.number ∧ c.number < 0xE000) := by
  by_cases hlow : c.number < 127
  · rw [asciiQuoted_low hlow, decide_eq_false (by omega)]
    cases c with
    | surrogate n => exact absurd hlow (by rw [CodePoint.number]; omega)
    | scalar c =>
      unfold quoteChar
      split <;> rename_i heq <;> cases heq
      · rfl
      · rfl
      · rfl
      · rfl
      · rfl
      · rename_i hslash _ _ _
        split
        · rfl
        · split
          · rfl
          · split
            · rename_i hcontrol
              have hcode : Text.ofChars ['\\', 'u', '0', '0', hexChar (c.toNat / 16), hexChar (c.toNat % 16)] =
                  escapeUnit c.toNat := by
                have h1 : c.toNat / 4096 % 16 = 0 := by omega
                have h2 : c.toNat / 256 % 16 = 0 := by omega
                have h3 : c.toNat / 16 % 16 = c.toNat / 16 := by omega
                rw [escapeUnit, hexText, h1, h2, h3]
                rfl
              rw [hcode, lowAhead_escapeUnit (by omega), decide_eq_false (by omega)]
            · exact lowAhead_of_ne hslash _
  · by_cases hunit : c.number < 0x10000
    · rw [asciiQuoted_unit (by omega) hunit, lowAhead_escapeUnit hunit]
    · have hvalid : c.number < 0x110000 := by
        cases c with
        | surrogate n => exact absurd hunit (by rw [CodePoint.number]; omega)
        | scalar c =>
          have hvalid : c.toNat < 0xD800 ∨ 0xDFFF < c.toNat ∧ c.toNat < 0x110000 := c.valid
          rw [CodePoint.number]
          omega
      rw [asciiQuoted_pair (by omega), List.append_assoc, lowAhead_escapeUnit (by omega), decide_eq_false (by omega),
        decide_eq_false (by omega)]

theorem scanString_unicode {text : Text} {c : CodePoint} (h : unicodeEscape text = some (c, rest)) (rounds : Nat) :
    scanString (rounds + 1) (.scalar '\\' :: .scalar 'u' :: text) = (do
      let (cs, rest) ← scanString rounds rest
      return (c :: cs, rest)) := by
  have hescape : escape (.scalar 'u' :: text) = some (c, rest) := h
  rw [scanString, hescape]
  rfl

/-- A character that is not the first of a pair takes a round. -/
theorem scanString_single (rounds : Nat) {c : CodePoint} {text : Text}
    (hsingle : 0xD800 ≤ c.number → c.number < 0xDC00 → lowAhead text = false) :
    scanString (rounds + 1) (asciiQuoted c ++ text) = (do
      let (cs, rest) ← scanString rounds text
      return (c :: cs, rest)) := by
  by_cases hlow : c.number < 127
  · rw [asciiQuoted_low hlow, scanString_quoteChar]
  · by_cases hunit : c.number < 0x10000
    · have hescape := unicodeEscape_unit hunit hsingle
      rw [codePoint_number] at hescape
      rw [asciiQuoted_unit (by omega) hunit]
      exact scanString_unicode hescape rounds
    · cases c with
      | surrogate n => exact absurd hunit (by rw [CodePoint.number]; omega)
      | scalar c =>
        have hvalid : c.toNat < 0xD800 ∨ 0xDFFF < c.toNat ∧ c.toNat < 0x110000 := c.valid
        rw [CodePoint.number] at hunit hsingle
        have hescape := @unicodeEscape_pair ((c.toNat - 0x10000) / 0x400) ((c.toNat - 0x10000) % 0x400) (by omega) (by omega)
          text
        have hvalue : 0x10000 + (c.toNat - 0x10000) / 0x400 * 0x400 + (c.toNat - 0x10000) % 0x400 = c.toNat := by omega
        rw [hvalue, Char.ofNat_toNat] at hescape
        rw [asciiQuoted_pair (by rw [CodePoint.number]; omega), List.append_assoc]
        exact scanString_unicode hescape rounds

/-- A string reads back as its characters, with the surrogates that make a pair as one. -/
theorem scanString_ascii (t rest : Text) {rounds : Nat} (hrounds : t.length < rounds) :
    scanString rounds (t.flatMap asciiQuoted ++ CodePoint.scalar '"' :: rest) = .ok (pairUp t, rest) := by
  induction t using pairUp.induct generalizing rounds with
  | case1 high low t hpair ih =>
    obtain ⟨rounds, rfl⟩ := Nat.exists_eq_succ_of_ne_zero (Nat.ne_of_gt (Nat.zero_lt_of_lt hrounds))
    have hlow := low.isLt
    have hescape := @unicodeEscape_pair high (low - 0x400) hpair.1 (by omega)
      (t.flatMap asciiQuoted ++ .scalar '"' :: rest)
    have hunit : 0xDC00 + (low.val - 0x400) = 0xD800 + low := by omega
    rw [hunit] at hescape
    rw [List.flatMap_cons, List.flatMap_cons, asciiQuoted_surrogate, asciiQuoted_surrogate, List.append_assoc,
      List.append_assoc, pairUp, if_pos hpair]
    rw [List.length_cons, List.length_cons] at hrounds
    refine (scanString_unicode hescape rounds).trans ?_
    rw [ih (by omega)]
    rfl
  | case2 high low t hsingle ih =>
    obtain ⟨rounds, rfl⟩ := Nat.exists_eq_succ_of_ne_zero (Nat.ne_of_gt (Nat.zero_lt_of_lt hrounds))
    rw [List.flatMap_cons, List.append_assoc, scanString_single, ih (Nat.lt_of_succ_lt_succ hrounds), pairUp, if_neg hsingle]
    · rfl
    · intro hhigh hhigh'
      rw [CodePoint.number] at hhigh'
      rw [List.flatMap_cons, List.append_assoc, lowAhead_asciiQuoted, CodePoint.number, decide_eq_false (by omega)]
  | case3 c t hother ih =>
    obtain ⟨rounds, rfl⟩ := Nat.exists_eq_succ_of_ne_zero (Nat.ne_of_gt (Nat.zero_lt_of_lt hrounds))
    rw [List.flatMap_cons, List.append_assoc, scanString_single, ih (Nat.lt_of_succ_lt_succ hrounds), pairUp]
    · rfl
    · exact hother
    · intro hhigh hhigh'
      cases t with
      | nil => exact lowAhead_of_ne (by decide) rest
      | cons d t =>
        rw [List.flatMap_cons, List.append_assoc, lowAhead_asciiQuoted]
        refine decide_eq_false fun hlow => ?_
        obtain ⟨m, rfl⟩ := surrogate_of_number hhigh (hhigh'.trans (by decide))
        obtain ⟨n, rfl⟩ := surrogate_of_number (le_trans (by decide) hlow.1) hlow.2
        exact hother m n t rfl rfl
  | case4 =>
    obtain ⟨rounds, rfl⟩ := Nat.exists_eq_succ_of_ne_zero (Nat.ne_of_gt hrounds)
    rfl

theorem length_asciiQuoted_pos (c : CodePoint) : 0 < (asciiQuoted c).length := by
  by_cases hlow : c.number < 127
  · rw [asciiQuoted_low hlow]
    exact length_quoteChar_pos c
  · by_cases hunit : c.number < 0x10000
    · rw [asciiQuoted_unit (by omega) hunit]
      exact Nat.succ_pos _
    · rw [asciiQuoted_pair (by omega)]
      exact Nat.succ_pos _

theorem length_le_asciiQuoted (t : Text) : t.length ≤ (t.flatMap asciiQuoted).length := by
  induction t with
  | nil => exact le_rfl
  | cons c t ih =>
    rw [List.flatMap_cons, List.length_append, List.length_cons, add_comm]
    exact Nat.add_le_add (length_asciiQuoted_pos c) ih

theorem escapeUnit_ofChars (n : Nat) : ∃ cs, escapeUnit n = Text.ofChars cs :=
  ⟨['\\', 'u', hexChar (n / 4096 % 16), hexChar (n / 256 % 16), hexChar (n / 16 % 16), hexChar (n % 16)], rfl⟩

theorem asciiChar_ofChars (c : CodePoint) : ∃ cs, asciiChar c = Text.ofChars cs := by
  rw [asciiChar]
  split
  · rename_i hplain
    cases c with
    | scalar c => exact ⟨[c], rfl⟩
    | surrogate n => exact absurd hplain.2 (by rw [CodePoint.number]; omega)
  · split
    · exact escapeUnit_ofChars _
    · obtain ⟨cs, hcs⟩ := escapeUnit_ofChars (0xD800 + (c.number - 0x10000) / 0x400)
      obtain ⟨ds, hds⟩ := escapeUnit_ofChars (0xDC00 + (c.number - 0x10000) % 0x400)
      exact ⟨cs ++ ds, by rw [hcs, hds, ofChars_append]⟩

theorem ascii_ofChars (text : Text) : ∃ cs, text.flatMap asciiChar = Text.ofChars cs := by
  induction text with
  | nil => exact ⟨[], rfl⟩
  | cons c text ih =>
    obtain ⟨cs, hcs⟩ := asciiChar_ofChars c
    obtain ⟨ds, hds⟩ := ih
    exact ⟨cs ++ ds, by rw [List.flatMap_cons, hcs, hds, ofChars_append]⟩

/-- There are no surrogates in ASCII. -/
theorem encodeUtf8_ascii (text : Text) : ∃ body, encodeUtf8 (text.flatMap asciiChar) = .ok body := by
  obtain ⟨cs, hcs⟩ := ascii_ofChars text
  rw [hcs, encodeUtf8, Text.utf8_ofChars]
  exact ⟨_, rfl⟩

theorem ascii_quote (t : Text) :
    (quote t).flatMap asciiChar = .scalar '"' :: t.flatMap asciiQuoted ++ [.scalar '"'] := by
  have hquote : asciiChar (.scalar '"') = [.scalar '"'] := by decide
  rw [quote, List.flatMap_append, List.flatMap_cons, List.flatMap_assoc, List.flatMap_singleton, hquote]
  rfl

theorem ascii_joined {opening closing : Char} (hopening : asciiChar (.scalar opening) = [.scalar opening])
    (hclosing : asciiChar (.scalar closing) = [.scalar closing]) (parts : List Text) :
    (joined opening closing parts).flatMap asciiChar = joined opening closing (parts.map (·.flatMap asciiChar)) := by
  have hcomma : asciiChar (.scalar ',') = [.scalar ','] := by decide
  have hparts : (parts.intersperse [.scalar ',']).flatten.flatMap asciiChar =
      ((parts.map (·.flatMap asciiChar)).intersperse [.scalar ',']).flatten := by
    induction parts with
    | nil => rfl
    | cons part parts ih =>
      cases parts with
      | nil => simp
      | cons next parts =>
        simp only [List.intersperse, List.flatten_cons, List.flatMap_append, List.map_cons, List.flatMap_singleton, hcomma]
          at ih ⊢
        rw [ih]
  rw [joined, List.flatMap_append, List.flatMap_cons, hopening, hparts, List.flatMap_singleton, hclosing]
  rfl

theorem printable_layout {digits : List Char} (hdigits : Double.Digits digits) (point : Int) :
    printable (Double.layout digits point) = true := by
  have hall := printable_digits hdigits.digits
  have hzeros (n : Nat) : printable (Double.zeros n) = true := printable_digits isDigit_zeros
  have hpoint {cs : List Char} (hcs : printable cs = true) : printable ('.' :: cs) = true :=
    @printable_append ['.'] cs rfl hcs
  have hdrop (n : Nat) : printable (digits.drop n) = true :=
    printable_digits fun c hc => hdigits.digits c (List.mem_of_mem_drop hc)
  have htake (n : Nat) : printable (digits.take n) = true :=
    printable_digits fun c hc => hdigits.digits c (List.mem_of_mem_take hc)
  unfold Double.layout
  dsimp only
  split
  · refine printable_append (printable_append (printable_append (printable_append (htake 1) ?_) ?_) (hzeros _)) ?_
    · split
      · rfl
      · exact hpoint (hdrop 1)
    · split <;> rfl
    · exact printable_digits (Double.digits_toDigits _).digits
  · split
    · exact printable_append (printable_append rfl (hzeros _)) hall
    · split
      · exact printable_append (printable_append hall (hzeros _)) rfl
      · exact printable_append (htake _) (hpoint (hdrop _))

theorem plain_repr (bits : UInt64) : Plain (Text.ofChars (Double.repr bits)) := by
  refine plain_ofChars ?_
  have hsign : printable (if 2 ^ 63 ≤ bits.toNat then ['-'] else []) = true := by split <;> rfl
  unfold Double.repr
  dsimp only
  split
  · rfl
  · split
    · exact printable_append hsign rfl
    · split
      · exact printable_append hsign rfl
      · rename_i hnotnan hfinite hzero
        obtain ⟨digits, point, hshortest, hdigits, -⟩ :=
          Double.shortest_reads (Nat.pos_of_ne_zero hzero) (lt_of_le_of_ne (not_lt.mp hnotnan) hfinite)
        rw [hshortest]
        exact printable_append hsign (printable_layout hdigits point)

variable {stack : Nat}

theorem reads_ascii (t : Text) : Reads stack ((quote t).flatMap asciiChar) (.str (pairUp t)) := by
  rw [ascii_quote]
  refine ⟨rfl, fun rest hrest => ?_⟩
  have hscan : scanString (t.flatMap asciiQuoted ++ .scalar '"' :: rest).length
      (t.flatMap asciiQuoted ++ .scalar '"' :: rest) = .ok (pairUp t, rest) := by
    refine scanString_ascii t rest ?_
    have hlength := length_le_asciiQuoted t
    rw [List.length_append, List.length_cons]
    omega
  have htext : (CodePoint.scalar '"' :: t.flatMap asciiQuoted ++ [.scalar '"']) ++ rest =
      .scalar '"' :: (t.flatMap asciiQuoted ++ .scalar '"' :: rest) := by
    simp
  cases stack with
  | zero =>
    rw [htext, scanOnce, hscan]
    rfl
  | succ stack =>
    rw [htext, scanOnce, hscan]
    rfl

theorem reads_float_ascii (bits : UInt64) :
    Reads stack ((Text.ofChars (Double.repr bits)).flatMap asciiChar) (.float (readFloat bits)) := by
  rw [ascii_plain (plain_repr bits)]
  exact reads_float bits

/-- A member whose key is plain. -/
theorem readsMember_ascii {key text : Text} {value : PyVal} (hkey : Plain (quote key))
    (h : Reads stack (text.flatMap asciiChar) value) :
    ReadsMember stack ((quote key ++ .scalar ':' :: text).flatMap asciiChar) (key, value) := by
  have hcolon : asciiChar (.scalar ':') = [.scalar ':'] := by decide
  refine ⟨text.flatMap asciiChar, ?_, h⟩
  rw [List.flatMap_append, ascii_plain hkey, List.flatMap_cons, hcolon]
  rfl

end Nuropb.Json
