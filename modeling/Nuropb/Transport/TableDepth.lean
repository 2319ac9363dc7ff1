import Nuropb.Transport.FieldRoundTrip

/-! # How deep a table may nest

The writer spends one level on a nested table, the reader two: one on the value and one on the
table. A table of plain fields reads back exactly when the reader has levels enough.
-/
namespace Nuropb.Transport

open Library

variable {context : Decimal.Context}

mutual

/-- None, booleans, signed 64-bit integers, text, bytes, decimal pairs, lists and tables of these. -/
def isField (value : PyVal) : Bool :=
  match value with
  | .none | .bool _ | .str _ | .bytes _ => true
  | .int n => -2 ^ 63 ≤ n ∧ n < 2 ^ 63
  | .tuple [.int scale, .int n] => (0 ≤ scale ∧ scale < 256) ∧ -2 ^ 31 ≤ n ∧ n < 2 ^ 31
  | .list items => areFields items
  | .dict entries => decide (entries.map Prod.fst).Nodup && entriesAreFields entries
  | _ => false

def entriesAreFields : Table → Bool
  | [] => true
  | (_, value) :: rest => isField value && entriesAreFields rest

def areFields : List PyVal → Bool
  | [] => true
  | item :: rest => isField item && areFields rest

end

theorem entriesAreFields_iff {entries : Table} :
    entriesAreFields entries = true ↔ ∀ e ∈ entries, isField e.2 = true := by
  induction entries with
  | nil => simp [entriesAreFields]
  | cons entry rest ih => simp [entriesAreFields, ih]

theorem areFields_iff {items : List PyVal} : areFields items = true ↔ ∀ v ∈ items, isField v = true := by
  induction items with
  | nil => simp [areFields]
  | cons item rest ih => simp [areFields, ih]

/-- A table of fields; a dictionary has every key once. -/
def isFieldTable (table : Table) : Bool := isField (.dict table)

mutual

/-- The levels that a reader spends on a value. -/
def fieldLevels : PyVal → Nat
  | .dict entries => entriesLevels entries + 2
  | .list items => itemsLevels items + 1
  | _ => 1

def entriesLevels : Table → Nat
  | [] => 0
  | (_, value) :: rest => max (fieldLevels value) (entriesLevels rest)

def itemsLevels : List PyVal → Nat
  | [] => 0
  | item :: rest => max (fieldLevels item) (itemsLevels rest)

end

def tableLevels (table : Table) : Nat := entriesLevels table + 1

/-- A field that was written within the size limit reads back when its levels are left. -/
def BacksOnLevels (context : Decimal.Context) (value : PyVal) : Prop :=
  ∀ depth room enc, isField value = true → encodeFieldValue context depth value = .ok enc →
    enc.length ≤ defaultFrameMax → (readsBack context depth room value = true ↔ fieldLevels value ≤ room)

section Levels

variable {depth : Nat} (room : Nat)

theorem entriesReadBack_iff_levels {entries : Table} {parts : Bytes} (h : ∀ e ∈ entries, BacksOnLevels context e.2)
    (hfields : entriesAreFields entries = true) (henc : encodeEntries context depth entries = .ok parts)
    (hsize : parts.length ≤ defaultFrameMax) :
    entriesReadBack context depth room entries = true ↔ entriesLevels entries ≤ room := by
  induction entries generalizing parts with
  | nil => simp [entriesReadBack, entriesLevels]
  | cons entry rest ih =>
    obtain ⟨key, value⟩ := entry
    rw [entriesAreFields, Bool.and_eq_true] at hfields
    rw [encodeEntries] at henc
    obtain ⟨rawKey, -, henc⟩ := bind_eq_ok.mp henc
    obtain ⟨raw, hraw, henc⟩ := bind_eq_ok.mp henc
    obtain ⟨tail, htail, henc⟩ := bind_eq_ok.mp henc
    cases henc
    simp only [List.length_append] at hsize
    have hvalue := h (key, value) List.mem_cons_self depth room raw hfields.1 hraw (by omega)
    have hrest := ih (fun e he => h e (List.mem_cons_of_mem _ he)) hfields.2 htail (by omega)
    rw [entriesReadBack, entriesLevels, Bool.and_eq_true, hvalue, hrest, max_le_iff]

theorem itemsReadBack_iff_levels {items : List PyVal} {parts : Bytes} (h : ∀ v ∈ items, BacksOnLevels context v)
    (hfields : areFields items = true) (henc : encodeItems context depth items = .ok parts)
    (hsize : parts.length ≤ defaultFrameMax) :
    itemsReadBack context depth room items = true ↔ itemsLevels items ≤ room := by
  induction items generalizing parts with
  | nil => simp [itemsReadBack, itemsLevels]
  | cons item rest ih =>
    rw [areFields, Bool.and_eq_true] at hfields
    rw [encodeItems] at henc
    obtain ⟨raw, hraw, henc⟩ := bind_eq_ok.mp henc
    obtain ⟨tail, htail, henc⟩ := bind_eq_ok.mp henc
    cases henc
    rw [List.length_append] at hsize
    have hitem := h item List.mem_cons_self depth room raw hfields.1 hraw (by omega)
    have hrest := ih (fun v hv => h v (List.mem_cons_of_mem _ hv)) hfields.2 htail (by omega)
    rw [itemsReadBack, itemsLevels, Bool.and_eq_true, hitem, hrest, max_le_iff]

theorem tableReadsBack_iff_levels {entries : Table} {enc : Bytes} (h : ∀ e ∈ entries, BacksOnLevels context e.2)
    (hfields : isFieldTable entries = true) (henc : tableOf depth (encodeEntries context depth entries) = .ok enc)
    (hsize : enc.length ≤ defaultFrameMax) :
    tableReadsBack context depth room entries = true ↔ tableLevels entries ≤ room := by
  rw [isFieldTable, isField, Bool.and_eq_true, decide_eq_true_eq] at hfields
  obtain ⟨-, -, henc⟩ := bind_eq_ok.mp henc
  obtain ⟨parts, hparts, henc⟩ := bind_eq_ok.mp henc
  obtain ⟨size, -, henc⟩ := bind_eq_ok.mp henc
  cases henc
  rw [List.length_append] at hsize
  have hentries := entriesReadBack_iff_levels (room - 1) h hfields.2 hparts (by omega)
  rw [tableReadsBack, fitsTable, hparts, toOption_ok, Option.getD_some, Bool.and_eq_true, hentries, tableLevels,
    decide_eq_true hfields.1, decide_eq_true (show parts.length ≤ defaultFrameMax by omega), Bool.and_true,
    Bool.and_true, decide_eq_true_eq]
  omega

end Levels

theorem backsOnLevels (value : PyVal) : BacksOnLevels context value := by
  induction value using PyVal.childrenInduction with
  | h v hentries hitems =>
    intro depth room enc hfield henc hsize
    rw [readsBack.eq_def]
    rw [encodeFieldValue.eq_def] at henc
    obtain ⟨-, -, henc⟩ := bind_eq_ok.mp henc
    cases v with
    | dict entries =>
      obtain ⟨table, htable, henc⟩ := bind_eq_ok.mp henc
      cases henc
      rw [List.length_cons] at hsize
      have hread := tableReadsBack_iff_levels (room - 1) (hentries entries rfl) hfield htable (by omega)
      rw [tableReadsBack, Nat.sub_sub, tableLevels] at hread
      rw [Bool.and_eq_true, decide_eq_true_eq, hread, fieldLevels]
      omega
    | list items =>
      obtain ⟨parts, hparts, henc⟩ := bind_eq_ok.mp henc
      obtain ⟨-, -, henc⟩ := bind_eq_ok.mp henc
      obtain ⟨size, -, henc⟩ := bind_eq_ok.mp henc
      cases henc
      rw [List.length_cons, List.length_append] at hsize
      have hread := itemsReadBack_iff_levels (room - 1) (hitems items rfl) hfield hparts (by omega)
      rw [Bool.and_eq_true, decide_eq_true_eq, hread, fieldLevels]
      omega
    | tuple items =>
      unfold isField at hfield
      split at hfield <;> simp_all [fieldLevels, Nat.succ_le_iff]
    | str t =>
      obtain ⟨raw, hraw, henc⟩ := bind_eq_ok.mp henc
      obtain ⟨long, hlong, henc⟩ := bind_eq_ok.mp henc
      cases henc
      obtain ⟨-, rfl⟩ := encodeLongstr_eq_ok.mp hlong
      rw [List.length_cons, List.length_append] at hsize
      have hle : raw.length ≤ defaultFrameMax := by omega
      simp [utf8_of_encodeUtf8 hraw, hle, fieldLevels, Nat.succ_le_iff]
    | bytes b =>
      obtain ⟨long, hlong, henc⟩ := bind_eq_ok.mp henc
      cases henc
      obtain ⟨-, rfl⟩ := encodeLongstr_eq_ok.mp hlong
      rw [List.length_cons, List.length_append] at hsize
      have hle : b.length ≤ defaultFrameMax := by omega
      simp [hle, fieldLevels, Nat.succ_le_iff]
    | none => simp [fieldLevels, Nat.succ_le_iff]
    | bool b => simp [fieldLevels, Nat.succ_le_iff]
    | int n => simp [fieldLevels, Nat.succ_le_iff]
    | float bits => cases hfield
    | decimal negative coefficient exponent => cases hfield
    | decimalSpecial nan => cases hfield
    | datetime posix => cases hfield
    | object => cases hfield

/-- What a table of fields within the limit of a frame was encoded to reads back, wherever it
stands, exactly when the reader's levels are enough. -/
theorem fieldTable_roundTrip_iff {table : Table} {enc : Bytes} (hfields : isFieldTable table = true)
    (henc : encodeTable context 0 table = .ok enc) (hsize : enc.length ≤ defaultFrameMax - 8) :
    (∀ p s, decodeTable (p ++ (enc ++ s)) tableRoom p.length = .ok (table, p.length + enc.length)) ↔
      tableLevels table ≤ tableRoom := by
  have hread (p s : Bytes) :
      decodeTable (p ++ (enc ++ s)) tableRoom p.length = .ok (table, p.length + enc.length) ↔
        wireTable context 0 tableRoom table = some table := by
    rw [← toOption_eq_some, toOption_decodeTable henc]
    cases wireTable context 0 tableRoom table <;> simp
  rw [← tableReadsBack_iff_levels tableRoom (fun e _ => backsOnLevels e.2) hfields henc (by omega),
    ← wireTable_eq_some_iff]
  exact ⟨fun h => (hread [] []).mp (h [] []), fun h p s => (hread p s).mpr h⟩

def nestedTable : Nat → Table
  | 0 => []
  | n + 1 => [(Text.ofString "k", .dict (nestedTable n))]

theorem nestedSixteen_roundTrip : ∃ enc, encodeTable .default 0 (nestedTable 16) = .ok enc ∧
    ∀ p s, decodeTable (p ++ (enc ++ s)) tableRoom p.length = .ok (nestedTable 16, p.length + enc.length) := by
  obtain ⟨enc, henc⟩ : ∃ enc, (encodeTable .default 0 (nestedTable 16)).toOption = some enc :=
    Option.isSome_iff_exists.mp (by decide +kernel)
  have hsize : ((encodeTable .default 0 (nestedTable 16)).toOption.getD []).length ≤ defaultFrameMax - 8 := by
    decide +kernel
  rw [henc] at hsize
  have hok := toOption_eq_some.mp henc
  exact ⟨enc, hok, (fieldTable_roundTrip_iff (by decide +kernel) hok hsize).mpr (by decide +kernel)⟩

/-- The writer takes one more table, the reader does not. -/
theorem nestedSeventeen_not_roundTrip : ¬∀ table enc, isFieldTable table = true →
    encodeTable .default 0 table = .ok enc → enc.length ≤ defaultFrameMax - 8 →
      ∀ p s, decodeTable (p ++ (enc ++ s)) tableRoom p.length = .ok (table, p.length + enc.length) := by
  intro hroundTrip
  obtain ⟨enc, henc⟩ : ∃ enc, (encodeTable .default 0 (nestedTable 17)).toOption = some enc :=
    Option.isSome_iff_exists.mp (by decide +kernel)
  have hread : ((encodeTable .default 0 (nestedTable 17)).toOption.getD []).length ≤ defaultFrameMax - 8 ∧
      (decodeTable ([] ++ ((encodeTable .default 0 (nestedTable 17)).toOption.getD [] ++ [])) tableRoom 0).toOption.isNone =
        true := by
    decide +kernel
  rw [henc] at hread
  have hok := hroundTrip _ _ (by decide +kernel) (toOption_eq_some.mp henc) hread.1 [] []
  have hnone := hread.2
  rw [Option.getD_some, show (0 : Nat) = ([] : Bytes).length from rfl, hok] at hnone
  cases hnone

end Nuropb.Transport
