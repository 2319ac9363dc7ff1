import Nuropb.Transport.Extents
import Nuropb.Transport.TableDepth

/-! # Sending on what was received

A table that was read can be written again, unless an integer in it or the whole of it has become too large for the
forms that the writer chooses.
-/
namespace Nuropb.Transport

open Library

variable {context : Decimal.Context}

mutual

/-- A property of a value and of all values inside of it. -/
def everywhere (p : PyVal → Bool) (value : PyVal) : Bool :=
  p value && match value with
    | .dict entries => everywhereInEntries p entries
    | .list items => everywhereInItems p items
    | _ => true

def everywhereInEntries (p : PyVal → Bool) : Table → Bool
  | [] => true
  | (_, value) :: rest => everywhere p value && everywhereInEntries p rest

def everywhereInItems (p : PyVal → Bool) : List PyVal → Bool
  | [] => true
  | item :: rest => everywhere p item && everywhereInItems p rest

end

def notFloat : PyVal → Bool
  | .float _ => false
  | _ => true

/-- No integer beyond the signed 64-bit ones. -/
def withinSigned : PyVal → Bool
  | .int n => n < 2 ^ 63
  | _ => true

/-- What the reader yields, whatever it holds. -/
def yielded : PyVal → Bool
  | .none | .bool _ | .float _ | .bytes _ | .list _ => true
  | .int n => -2 ^ 63 ≤ n ∧ n < 2 ^ 64
  | .str t => t.utf8.isSome
  | .tuple [.int scale, .int n] => (0 ≤ scale ∧ scale < 256) ∧ -2 ^ 31 ≤ n ∧ n < 2 ^ 31
  | .dict entries => decide (entries.map Prod.fst).Nodup && entries.all fun e => (encodeShortstr e.1).toOption.isSome
  | _ => false

mutual

/-- The octets that the writer takes for a value. -/
def fieldSize : PyVal → Nat
  | .none => 1
  | .bool _ => 2
  | .int n => if -0x80000000 ≤ n ∧ n ≤ 0x7FFFFFFF then 5 else 9
  | .float _ | .datetime _ => 9
  | .str t => 5 + (t.utf8.getD []).length
  | .bytes b => 5 + b.length
  | .dict entries => 5 + entriesSize entries
  | .list items => 5 + itemsSize items
  | .tuple _ | .decimal .. => 6
  | .decimalSpecial _ | .object => 0

def entriesSize : Table → Nat
  | [] => 0
  | (key, value) :: rest => 1 + (key.utf8.getD []).length + fieldSize value + entriesSize rest

def itemsSize : List PyVal → Nat
  | [] => 0
  | item :: rest => fieldSize item + itemsSize rest

end

section Everywhere

variable {p : PyVal → Bool} {value : PyVal} {entries : Table} {items : List PyVal}

theorem everywhereInEntries_iff : everywhereInEntries p entries = true ↔ ∀ e ∈ entries, everywhere p e.2 = true := by
  induction entries with
  | nil => simp [everywhereInEntries]
  | cons entry rest ih => simp [everywhereInEntries, ih]

theorem everywhereInItems_iff : everywhereInItems p items = true ↔ ∀ v ∈ items, everywhere p v = true := by
  induction items with
  | nil => simp [everywhereInItems]
  | cons item rest ih => simp [everywhereInItems, ih]

/-- A property of a value and of what it holds itself is one of all inside of it. -/
theorem everywhere_iff : everywhere p value = true ↔ p value = true ∧
    (∀ entries, value = .dict entries → ∀ e ∈ entries, everywhere p e.2 = true) ∧
      ∀ items, value = .list items → ∀ v ∈ items, everywhere p v = true := by
  rw [everywhere.eq_def, Bool.and_eq_true]
  cases value <;> simp [everywhereInEntries_iff, everywhereInItems_iff]

end Everywhere

/-! ## What is written -/

theorem length_of_encodeInteger {n : Int} {enc : Bytes} (h : encodeInteger n = .ok enc) :
    enc.length = fieldSize (.int n) := by
  rw [fieldSize]
  unfold encodeInteger at h
  split at h
  all_goals
    obtain ⟨raw, hraw, henc⟩ := bind_eq_ok.mp h
    obtain ⟨-, -, rfl⟩ := toBytesSigned_eq_ok.mp hraw
    cases henc
    simp_all

theorem length_of_encodeDecimalPair {scale value : Int} {enc : Bytes} (h : encodeDecimalPair scale value = .ok enc) :
    enc.length = 6 := by
  obtain ⟨raw, hraw, henc⟩ := bind_eq_ok.mp h
  obtain ⟨-, -, rfl⟩ := toBytesSigned_eq_ok.mp hraw
  cases henc
  simp

theorem length_of_encodeShortstr {t : Text} {enc : Bytes} (h : encodeShortstr t = .ok enc) :
    enc.length = 1 + (t.utf8.getD []).length := by
  obtain ⟨raw, hraw, -, rfl⟩ := encodeShortstr_eq_ok.mp h
  rw [utf8_of_encodeUtf8 hraw, Option.getD_some, List.length_cons, Nat.add_comm]

section Sizes

variable {depth : Nat}

theorem length_of_encodeEntries {entries : Table} {parts : Bytes}
    (h : ∀ e ∈ entries, ∀ enc, encodeFieldValue context depth e.2 = .ok enc → enc.length = fieldSize e.2)
    (henc : encodeEntries context depth entries = .ok parts) : parts.length = entriesSize entries := by
  induction entries generalizing parts with
  | nil =>
    cases henc
    rfl
  | cons entry rest ih =>
    obtain ⟨key, value⟩ := entry
    rw [encodeEntries] at henc
    obtain ⟨rawKey, hkey, henc⟩ := bind_eq_ok.mp henc
    obtain ⟨raw, hraw, henc⟩ := bind_eq_ok.mp henc
    obtain ⟨tail, htail, henc⟩ := bind_eq_ok.mp henc
    cases henc
    have hfirst := h (key, value) List.mem_cons_self raw hraw
    have hrest := ih (fun e he => h e (List.mem_cons_of_mem _ he)) htail
    rw [List.length_append, List.length_append, length_of_encodeShortstr hkey, hfirst, hrest, entriesSize]

theorem length_of_encodeItems {items : List PyVal} {parts : Bytes}
    (h : ∀ v ∈ items, ∀ enc, encodeFieldValue context depth v = .ok enc → enc.length = fieldSize v)
    (henc : encodeItems context depth items = .ok parts) : parts.length = itemsSize items := by
  induction items generalizing parts with
  | nil =>
    cases henc
    rfl
  | cons item rest ih =>
    rw [encodeItems] at henc
    obtain ⟨raw, hraw, henc⟩ := bind_eq_ok.mp henc
    obtain ⟨tail, htail, henc⟩ := bind_eq_ok.mp henc
    cases henc
    have hfirst := h item List.mem_cons_self raw hraw
    have hrest := ih (fun v hv => h v (List.mem_cons_of_mem _ hv)) htail
    rw [List.length_append, hfirst, hrest, itemsSize]

theorem encodeEntries_isOk_iff {entries : Table} : (∃ parts, encodeEntries context depth entries = .ok parts) ↔
    ∀ e ∈ entries, (∃ raw, encodeShortstr e.1 = .ok raw) ∧ ∃ enc, encodeFieldValue context depth e.2 = .ok enc := by
  induction entries with
  | nil => simp [encodeEntries]
  | cons entry rest ih =>
    obtain ⟨key, value⟩ := entry
    rw [List.forall_mem_cons, ← ih, encodeEntries]
    constructor
    · rintro ⟨parts, h⟩
      obtain ⟨rawKey, hkey, h⟩ := bind_eq_ok.mp h
      obtain ⟨raw, hraw, h⟩ := bind_eq_ok.mp h
      obtain ⟨tail, htail, -⟩ := bind_eq_ok.mp h
      exact ⟨⟨⟨rawKey, hkey⟩, raw, hraw⟩, tail, htail⟩
    · rintro ⟨⟨⟨rawKey, hkey⟩, raw, hraw⟩, tail, htail⟩
      exact ⟨rawKey ++ raw ++ tail, by rw [hkey, ok_bind, hraw, ok_bind, htail, ok_bind, pure_eq_ok]⟩

theorem encodeItems_isOk_iff {items : List PyVal} : (∃ parts, encodeItems context depth items = .ok parts) ↔
    ∀ v ∈ items, ∃ enc, encodeFieldValue context depth v = .ok enc := by
  induction items with
  | nil => simp [encodeItems]
  | cons item rest ih =>
    rw [List.forall_mem_cons, ← ih, encodeItems]
    constructor
    · rintro ⟨parts, h⟩
      obtain ⟨raw, hraw, h⟩ := bind_eq_ok.mp h
      obtain ⟨tail, htail, -⟩ := bind_eq_ok.mp h
      exact ⟨⟨raw, hraw⟩, tail, htail⟩
    · rintro ⟨⟨raw, hraw⟩, tail, htail⟩
      exact ⟨raw ++ tail, by rw [hraw, ok_bind, htail, ok_bind, pure_eq_ok]⟩

end Sizes

theorem tableOf_eq_ok {depth : Nat} {content : Except Exc Bytes} {enc : Bytes} (h : tableOf depth content = .ok enc) :
    ∃ parts, content = .ok parts ∧ enc.length = 4 + parts.length := by
  obtain ⟨-, -, h⟩ := bind_eq_ok.mp h
  obtain ⟨parts, hparts, h⟩ := bind_eq_ok.mp h
  obtain ⟨size, hsize, h⟩ := bind_eq_ok.mp h
  cases h
  exact ⟨parts, hparts, by rw [List.length_append, length_of_toBytes hsize]⟩

theorem length_of_encodeFieldValue (value : PyVal) :
    ∀ depth enc, encodeFieldValue context depth value = .ok enc → enc.length = fieldSize value := by
  induction value using PyVal.childrenInduction with
  | h v hentries hitems =>
    intro depth enc h
    rw [encodeFieldValue.eq_def] at h
    obtain ⟨-, -, h⟩ := bind_eq_ok.mp h
    cases v with
    | none =>
      cases h
      rfl
    | bool b =>
      cases h
      rfl
    | int n => exact length_of_encodeInteger h
    | float bits =>
      cases h
      simp [fieldSize]
    | str t =>
      obtain ⟨raw, hraw, h⟩ := bind_eq_ok.mp h
      obtain ⟨long, hlong, h⟩ := bind_eq_ok.mp h
      obtain ⟨-, rfl⟩ := encodeLongstr_eq_ok.mp hlong
      cases h
      simp only [fieldSize, utf8_of_encodeUtf8 hraw, Option.getD_some, List.length_cons, List.length_append, length_toBE]
      omega
    | bytes b =>
      obtain ⟨long, hlong, h⟩ := bind_eq_ok.mp h
      obtain ⟨-, rfl⟩ := encodeLongstr_eq_ok.mp hlong
      cases h
      simp only [fieldSize, List.length_cons, List.length_append, length_toBE]
      omega
    | dict entries =>
      obtain ⟨table, htable, h⟩ := bind_eq_ok.mp h
      cases h
      obtain ⟨parts, hparts, hlength⟩ := tableOf_eq_ok htable
      have hsize := length_of_encodeEntries (fun e he => hentries entries rfl e he (depth + 1)) hparts
      rw [fieldSize, List.length_cons, hlength, hsize]
      omega
    | tuple items =>
      cases hpair : decimalPair items with
      | none => simp [hpair] at h
      | some d =>
        simp only [hpair] at h
        exact length_of_encodeDecimalPair h
    | list items =>
      obtain ⟨parts, hparts, h⟩ := bind_eq_ok.mp h
      obtain ⟨-, -, h⟩ := bind_eq_ok.mp h
      obtain ⟨size, hsize, h⟩ := bind_eq_ok.mp h
      cases h
      have hlength := length_of_encodeItems (fun v hv => hitems items rfl v hv (depth + 1)) hparts
      rw [fieldSize, List.length_cons, List.length_append, length_of_toBytes hsize, hlength]
      omega
    | decimal negative coefficient exponent =>
      obtain ⟨value, -, henc⟩ := encodeDecimal_eq_ok h
      exact length_of_encodeDecimalPair henc
    | decimalSpecial nan => cases h
    | datetime posix =>
      obtain ⟨raw, hraw, h⟩ := bind_eq_ok.mp h
      cases h
      rw [List.length_cons, length_of_toBytes hraw, fieldSize]
    | object => cases h

theorem withinSigned_of_encodeInteger {n : Int} {enc : Bytes} (h : encodeInteger n = .ok enc) : n < 2 ^ 63 := by
  unfold encodeInteger at h
  split at h
  · omega
  · obtain ⟨raw, hraw, -⟩ := bind_eq_ok.mp h
    obtain ⟨-, hhigh, -⟩ := toBytesSigned_eq_ok.mp hraw
    omega

theorem withinSigned_of_encodeFieldValue (value : PyVal) :
    ∀ depth enc, encodeFieldValue context depth value = .ok enc → everywhere withinSigned value = true := by
  induction value using PyVal.childrenInduction with
  | h v hentries hitems =>
    intro depth enc h
    rw [encodeFieldValue.eq_def] at h
    obtain ⟨-, -, h⟩ := bind_eq_ok.mp h
    refine everywhere_iff.mpr ⟨?_, ?_, ?_⟩
    · cases v with
      | int n => exact decide_eq_true (withinSigned_of_encodeInteger h)
      | _ => rfl
    · rintro entries rfl e he
      obtain ⟨table, htable, -⟩ := bind_eq_ok.mp h
      obtain ⟨parts, hparts, -⟩ := tableOf_eq_ok htable
      obtain ⟨-, raw, hraw⟩ := encodeEntries_isOk_iff.mp ⟨parts, hparts⟩ e he
      exact hentries entries rfl e he _ raw hraw
    · rintro items rfl x hx
      obtain ⟨parts, hparts, -⟩ := bind_eq_ok.mp h
      obtain ⟨raw, hraw⟩ := encodeItems_isOk_iff.mp ⟨parts, hparts⟩ x hx
      exact hitems items rfl x hx _ raw hraw

/-! ## What is read -/

/-- A value that was read with this many levels. -/
def Yields (room : Nat) (value : PyVal) : Prop := everywhere yielded value = true ∧ fieldLevels value ≤ room

theorem entriesLevels_le_iff {entries : Table} {room : Nat} :
    entriesLevels entries ≤ room ↔ ∀ e ∈ entries, fieldLevels e.2 ≤ room := by
  induction entries with
  | nil => simp [entriesLevels]
  | cons entry rest ih => rw [entriesLevels, max_le_iff, ih, List.forall_mem_cons]

theorem itemsLevels_le_iff {items : List PyVal} {room : Nat} :
    itemsLevels items ≤ room ↔ ∀ v ∈ items, fieldLevels v ≤ room := by
  induction items with
  | nil => simp [itemsLevels]
  | cons item rest ih => rw [itemsLevels, max_le_iff, ih, List.forall_mem_cons]

section Leaves

variable {room : Nat} {bs : Bytes}

theorem yields_leaf {value : PyVal} (hvalue : yielded value = true) (hdict : ∀ entries, value ≠ .dict entries)
    (hlist : ∀ items, value ≠ .list items) : Yields (room + 1) value := by
  refine ⟨everywhere_iff.mpr ⟨hvalue, fun entries h => absurd h (hdict entries), fun items h => absurd h (hlist items)⟩,
    ?_⟩
  cases value with
  | dict entries => exact absurd rfl (hdict entries)
  | list items => exact absurd rfl (hlist items)
  | _ => exact Nat.succ_le_succ (Nat.zero_le room)

theorem yields_int {n : Int} (hlow : -2 ^ 63 ≤ n) (hhigh : n < 2 ^ 64) : Yields (room + 1) (.int n) := by
  refine yields_leaf ?_ nofun nofun
  rw [yielded, decide_eq_true_eq]
  exact ⟨hlow, hhigh⟩

theorem yields_pair {scale n : Int} (hpos : 0 ≤ scale) (hscale : scale < 256) (hlow : -2 ^ 31 ≤ n) (hhigh : n < 2 ^ 31) :
    Yields (room + 1) (.tuple [.int scale, .int n]) := by
  refine yields_leaf ?_ nofun nofun
  rw [yielded, decide_eq_true_eq]
  exact ⟨⟨hpos, hscale⟩, hlow, hhigh⟩

theorem yields_unsignedOf (h : bs.length ≤ 8) : Yields (room + 1) (unsignedOf bs) := by
  have hlt : ofBE bs < 256 ^ 8 := (ofBE_lt bs).trans_le (Nat.pow_le_pow_right (by decide) h)
  exact yields_int (by omega) (by omega)

theorem yields_signedOf (h : bs.length ≤ 8) : Yields (room + 1) (signedOf bs) := by
  have hpow : (256 ^ bs.length : Int) ≤ 256 ^ 8 := by exact_mod_cast Nat.pow_le_pow_right (by decide) h
  obtain ⟨hlow, hhigh⟩ := ofBESigned_range bs
  exact yields_int (by omega) (by omega)

theorem yields_decimalOf (h : bs.length ≤ 5) : Yields (room + 1) (decimalOf bs) := by
  have hscale : ofBE (bs.take 1) < 256 ^ 1 :=
    (ofBE_lt _).trans_le (Nat.pow_le_pow_right (by decide) (List.length_take_le 1 bs))
  have hpow : (256 ^ (bs.drop 1).length : Int) ≤ 256 ^ 4 := by
    exact_mod_cast Nat.pow_le_pow_right (by decide) (by rw [List.length_drop]; omega)
  obtain ⟨hlow, hhigh⟩ := ofBESigned_range (bs.drop 1)
  exact yields_pair (by omega) (by omega) (by omega) (by omega)

theorem yields_str {t : Text} (h : decodeUtf8 bs = .ok t) : Yields (room + 1) (.str t) := by
  refine yields_leaf ?_ nofun nofun
  rw [yielded, utf8_of_decodeUtf8 h, Option.isSome_some]

theorem yields_fixed {data : Bytes} {pos n next : Nat} {what : String} {f : Bytes → PyVal} {value : PyVal}
    (hok : decodeFixed data pos n what f = .ok (value, next)) (h : ∀ bs, bs.length ≤ n → Yields (room + 1) (f bs)) :
    Yields (room + 1) value := by
  obtain ⟨-, rfl, -⟩ := decodeFixed_eq_ok.mp hok
  refine h _ ?_
  rw [slice]
  exact (List.length_take_le _ _).trans (by omega)

end Leaves

theorem encodeShortstr_of_decodeShortstr {data : Bytes} {offset next : Nat} {t : Text}
    (h : decodeShortstr data offset = .ok (t, next)) : ∃ raw, encodeShortstr t = .ok raw := by
  obtain ⟨-, -, ht, hnext⟩ := decodeShortstr_eq_ok.mp h
  have hutf8 : encodeUtf8 t = .ok (slice data (offset + 1) next) := by rw [encodeUtf8, utf8_of_decodeUtf8 ht]
  have hlength : (slice data (offset + 1) next).length ≤ 255 := by
    have hoctet := (data.getD offset 0).toNat_lt
    have htake := List.length_take_le (next - (offset + 1)) (data.drop (offset + 1))
    rw [slice]
    omega
  exact ⟨_, encodeShortstr_eq_ok.mpr ⟨_, hutf8, hlength, rfl⟩⟩

section Loops

variable {decode : Nat → Except Exc (PyVal × Nat)} {stop rounds pos : Nat} {P : PyVal → Prop}

theorem decodeItems_all (hread : ∀ offset value next, decode offset = .ok (value, next) → P value)
    {items result : List PyVal} (hok : decodeItems decode stop rounds pos items = .ok result) (hitems : ∀ v ∈ items, P v) :
    ∀ v ∈ result, P v := by
  induction rounds generalizing pos items with
  | zero =>
    cases hok
    exact hitems
  | succ rounds ih =>
    rw [decodeItems] at hok
    split at hok
    · obtain ⟨⟨item, next⟩, hitem, hrest⟩ := bind_eq_ok.mp hok
      refine ih hrest fun v hv => ?_
      rcases List.mem_append.mp hv with hv | hv
      · exact hitems v hv
      · rw [List.mem_singleton.mp hv]
        exact hread pos item next hitem
    · cases hok
      exact hitems

/-- The keys of a table that was read differ, and can be written. -/
structure KeysYielded (entries : Table) : Prop where
  nodup : (entries.map Prod.fst).Nodup
  short : ∀ e ∈ entries, ∃ raw, encodeShortstr e.1 = .ok raw

theorem decodeEntries_all {data : Bytes} (hread : ∀ offset value next, decode offset = .ok (value, next) → P value)
    {entries result : Table} (hok : decodeEntries data decode stop rounds pos entries = .ok result)
    (hkeys : KeysYielded entries) (hentries : ∀ e ∈ entries, P e.2) : KeysYielded result ∧ ∀ e ∈ result, P e.2 := by
  induction rounds generalizing pos entries with
  | zero =>
    cases hok
    exact ⟨hkeys, hentries⟩
  | succ rounds ih =>
    rw [decodeEntries] at hok
    split at hok
    · obtain ⟨⟨key, afterKey⟩, hkey, hok⟩ := bind_eq_ok.mp hok
      obtain ⟨⟨value, next⟩, hvalue, hrest⟩ := bind_eq_ok.mp hok
      refine ih hrest ⟨nodup_assign hkeys.nodup, fun e he => ?_⟩ fun e he => ?_
      · rcases mem_of_mem_assign he with rfl | he
        · exact encodeShortstr_of_decodeShortstr hkey
        · exact hkeys.short e he
      · rcases mem_of_mem_assign he with rfl | he
        · exact hread afterKey value next hvalue
        · exact hentries e he
    · cases hok
      exact ⟨hkeys, hentries⟩

end Loops

theorem yielded_dict {entries : Table} : yielded (.dict entries) = true ↔ KeysYielded entries := by
  have hall : (entries.all fun e => (encodeShortstr e.1).toOption.isSome) = true ↔
      ∀ e ∈ entries, ∃ raw, encodeShortstr e.1 = .ok raw := by
    simp only [List.all_eq_true, Option.isSome_iff_exists, toOption_eq_some]
  rw [yielded, Bool.and_eq_true, decide_eq_true_eq, hall]
  exact ⟨fun h => ⟨h.1, h.2⟩, fun h => ⟨h.nodup, h.short⟩⟩

theorem yielded_tuple {items : List PyVal} (h : yielded (.tuple items) = true) :
    ∃ scale n : Int, items = [.int scale, .int n] ∧ (0 ≤ scale ∧ scale < 256) ∧ -2 ^ 31 ≤ n ∧ n < 2 ^ 31 := by
  unfold yielded at h
  split at h <;> grind

/-- The branches on the type octet, from what the readers one level deeper yield. -/
theorem yields_decodeTagged {data : Bytes} {room pos next : Nat} {tag : Char} {value : PyVal}
    (htable : ∀ offset t next, decodeTable data room offset = .ok (t, next) → Yields (room + 1) (.dict t))
    (hvalue : ∀ offset v next, decodeFieldValue data room offset = .ok (v, next) → Yields room v)
    (hok : decodeTagged data (decodeTable data room) (decodeFieldValue data room) tag pos = .ok (value, next)) :
    Yields (room + 1) value := by
  unfold decodeTagged at hok
  split at hok
  · cases hok
    exact yields_leaf rfl nofun nofun
  · exact yields_fixed hok fun bs _ => yields_leaf rfl nofun nofun
  · exact yields_fixed hok fun bs h => yields_signedOf (by omega)
  · exact yields_fixed hok fun bs h => yields_unsignedOf (by omega)
  · exact yields_fixed hok fun bs h => yields_unsignedOf (by omega)
  · exact yields_fixed hok fun bs h => yields_signedOf (by omega)
  · exact yields_fixed hok fun bs h => yields_unsignedOf (by omega)
  · exact yields_fixed hok fun bs h => yields_signedOf (by omega)
  · exact yields_fixed hok fun bs h => yields_unsignedOf (by omega)
  · exact yields_fixed hok fun bs h => yields_signedOf (by omega)
  · exact yields_fixed hok fun bs _ => yields_leaf rfl nofun nofun
  · exact yields_fixed hok fun bs _ => yields_leaf rfl nofun nofun
  · exact yields_fixed hok fun bs h => yields_decimalOf h
  · exact yields_fixed hok fun bs h => yields_unsignedOf (by omega)
  · obtain ⟨⟨t, stop⟩, ht, hstr⟩ := bind_eq_ok.mp hok
    cases hstr
    exact yields_str (decodeShortstr_eq_ok.mp ht).2.2.1
  · obtain ⟨⟨raw, stop⟩, -, hrest⟩ := bind_eq_ok.mp hok
    obtain ⟨t, ht, hstr⟩ := bind_eq_ok.mp hrest
    cases hstr
    exact yields_str ht
  · obtain ⟨⟨raw, stop⟩, -, hbytes⟩ := bind_eq_ok.mp hok
    cases hbytes
    exact yields_leaf rfl nofun nofun
  · obtain ⟨⟨entries, stop⟩, hentries, hdict⟩ := bind_eq_ok.mp hok
    cases hdict
    exact htable pos entries _ hentries
  · obtain ⟨stop, -, hrest⟩ := bind_eq_ok.mp hok
    obtain ⟨items, hitems, hlist⟩ := bind_eq_ok.mp hrest
    cases hlist
    have hall := decodeItems_all hvalue hitems nofun
    refine ⟨everywhere_iff.mpr ⟨rfl, nofun, ?_⟩, ?_⟩
    · rintro _ ⟨⟩ v hv
      exact (hall v hv).1
    · rw [fieldLevels, Nat.add_le_add_iff_right, itemsLevels_le_iff]
      exact fun v hv => (hall v hv).2
  · cases hok

/-- What is read can be told from a table that was read, and has taken no more levels than there were. -/
theorem decode_yields (data : Bytes) (room : Nat) :
    (∀ offset v next, decodeFieldValue data room offset = .ok (v, next) → Yields room v) ∧
      ∀ offset t next, decodeTable data room offset = .ok (t, next) → Yields (room + 1) (.dict t) := by
  induction room with
  | zero =>
    constructor
    · intro offset v next hok
      cases hok
    · intro offset t next hok
      cases hok
  | succ room ih =>
    constructor
    · intro offset v next hok
      rw [decodeFieldValue] at hok
      obtain ⟨-, -, hok⟩ := bind_eq_ok.mp hok
      exact yields_decodeTagged ih.2 ih.1 hok
    · intro offset t next hok
      rw [decodeTable] at hok
      obtain ⟨stop, -, hok⟩ := bind_eq_ok.mp hok
      obtain ⟨table, htable, hok⟩ := bind_eq_ok.mp hok
      cases hok
      obtain ⟨hkeys, hall⟩ := decodeEntries_all ih.1 htable ⟨List.nodup_nil, by simp⟩ (by simp)
      refine ⟨everywhere_iff.mpr ⟨yielded_dict.mpr hkeys, ?_, ?_⟩, ?_⟩
      · rintro _ ⟨⟩ e he
        exact (hall e he).1
      · intro items hitems
        cases hitems
      · rw [fieldLevels]
        have hlevels := entriesLevels_le_iff.mpr fun e he => (hall e he).2
        omega

/-! ## What was read is written again -/

theorem encodeInteger_of_range {n : Int} (hlow : -2 ^ 63 ≤ n) (hhigh : n < 2 ^ 63) :
    ∃ enc, encodeInteger n = .ok enc := by
  unfold encodeInteger
  split
  · exact ⟨_, bind_eq_ok.mpr ⟨_, toBytesSigned_eq_ok.mpr ⟨by omega, by omega, rfl⟩, rfl⟩⟩
  · exact ⟨_, bind_eq_ok.mpr ⟨_, toBytesSigned_eq_ok.mpr ⟨by omega, by omega, rfl⟩, rfl⟩⟩

theorem encodeDecimalPair_of_range {n : Int} (scale : Int) (hlow : -2 ^ 31 ≤ n) (hhigh : n < 2 ^ 31) :
    ∃ enc, encodeDecimalPair scale n = .ok enc :=
  ⟨_, bind_eq_ok.mpr ⟨_, toBytesSigned_eq_ok.mpr ⟨by omega, by omega, rfl⟩, rfl⟩⟩

theorem tableOf_of_size {depth : Nat} {content : Except Exc Bytes} {parts : Bytes} (hcontent : content = .ok parts)
    (hdepth : depth ≤ defaultMaxTableDepth) (hsize : parts.length ≤ defaultFrameMax) :
    ∃ enc, tableOf depth content = .ok enc := by
  have hwidth : parts.length < 256 ^ 4 := hsize.trans_lt (by decide)
  rw [tableOf, raiseIf_of_not (Nat.not_lt.mpr hdepth), ok_bind, hcontent, ok_bind, toBytes_natCast hwidth]
  exact ⟨_, rfl⟩

theorem fieldSize_le_of_entry {entries : Table} {e : Text × PyVal} (he : e ∈ entries) :
    fieldSize e.2 ≤ entriesSize entries := by
  induction entries with
  | nil => cases he
  | cons entry rest ih =>
    rw [entriesSize]
    rcases List.mem_cons.mp he with rfl | hrest
    · omega
    · have hle := ih hrest
      omega

theorem fieldSize_le_of_item {items : List PyVal} {v : PyVal} (hv : v ∈ items) : fieldSize v ≤ itemsSize items := by
  induction items with
  | nil => cases hv
  | cons item rest ih =>
    rw [itemsSize]
    rcases List.mem_cons.mp hv with rfl | hrest
    · omega
    · have hle := ih hrest
      omega

/-- The writer spends no more levels than the reader has. -/
def Writable (context : Decimal.Context) (depth : Nat) (value : PyVal) : Prop :=
  Yields (tableRoom - depth) value → everywhere withinSigned value = true → fieldSize value ≤ defaultFrameMax →
    ∃ enc, encodeFieldValue context depth value = .ok enc

theorem encodeEntries_of_yields {depth : Nat} {entries : Table} (hwritable : ∀ e ∈ entries, Writable context depth e.2)
    (hyields : everywhere yielded (.dict entries) = true) (hlevels : entriesLevels entries ≤ tableRoom - depth)
    (hsigned : everywhere withinSigned (.dict entries) = true) (hsize : entriesSize entries ≤ defaultFrameMax) :
    ∃ parts, encodeEntries context depth entries = .ok parts ∧ parts.length = entriesSize entries := by
  obtain ⟨hkeys, hyields, -⟩ := everywhere_iff.mp hyields
  obtain ⟨-, hsigned, -⟩ := everywhere_iff.mp hsigned
  obtain ⟨parts, hparts⟩ := encodeEntries_isOk_iff.mpr fun e he => ⟨(yielded_dict.mp hkeys).short e he,
    hwritable e he ⟨hyields entries rfl e he, entriesLevels_le_iff.mp hlevels e he⟩ (hsigned entries rfl e he)
      ((fieldSize_le_of_entry he).trans hsize)⟩
  exact ⟨parts, hparts, length_of_encodeEntries (fun e _ => length_of_encodeFieldValue e.2 depth) hparts⟩

theorem encodeItems_of_yields {depth : Nat} {items : List PyVal} (hwritable : ∀ v ∈ items, Writable context depth v)
    (hyields : everywhere yielded (.list items) = true) (hlevels : itemsLevels items ≤ tableRoom - depth)
    (hsigned : everywhere withinSigned (.list items) = true) (hsize : itemsSize items ≤ defaultFrameMax) :
    ∃ parts, encodeItems context depth items = .ok parts ∧ parts.length = itemsSize items := by
  obtain ⟨-, -, hyields⟩ := everywhere_iff.mp hyields
  obtain ⟨-, -, hsigned⟩ := everywhere_iff.mp hsigned
  obtain ⟨parts, hparts⟩ := encodeItems_isOk_iff.mpr fun v hv =>
    hwritable v hv ⟨hyields items rfl v hv, itemsLevels_le_iff.mp hlevels v hv⟩ (hsigned items rfl v hv)
      ((fieldSize_le_of_item hv).trans hsize)
  exact ⟨parts, hparts, length_of_encodeItems (fun v _ => length_of_encodeFieldValue v depth) hparts⟩

theorem writable (value : PyVal) : ∀ depth, Writable context depth value := by
  induction value using PyVal.childrenInduction with
  | h v hentries hitems =>
    intro depth hyields hsigned hsize
    have hlevel : 1 ≤ tableRoom - depth := by
      refine le_trans ?_ hyields.2
      cases v <;> simp [fieldLevels]
    have hdepth : ¬defaultMaxTableDepth < depth := by
      rw [tableRoom] at hlevel
      omega
    rw [encodeFieldValue.eq_def, raiseIf_of_not hdepth, ok_bind]
    have hleaf := (everywhere_iff.mp hyields.1).1
    cases v with
    | none => exact ⟨_, rfl⟩
    | bool b => exact ⟨_, rfl⟩
    | int n =>
      rw [yielded, decide_eq_true_eq] at hleaf
      exact encodeInteger_of_range hleaf.1 (of_decide_eq_true (everywhere_iff.mp hsigned).1)
    | float bits => exact ⟨_, rfl⟩
    | str t =>
      obtain ⟨raw, hraw⟩ := Option.isSome_iff_exists.mp hleaf
      have hutf8 : encodeUtf8 t = .ok raw := by rw [encodeUtf8, hraw]
      rw [fieldSize, hraw, Option.getD_some] at hsize
      have hwidth : raw.length < 256 ^ 4 := lt_of_le_of_lt (by omega) defaultFrameMax_lt
      exact ⟨_, bind_eq_ok.mpr ⟨raw, hutf8, bind_eq_ok.mpr ⟨_, encodeLongstr_eq_ok.mpr ⟨hwidth, rfl⟩, rfl⟩⟩⟩
    | bytes b =>
      rw [fieldSize] at hsize
      have hwidth : b.length < 256 ^ 4 := lt_of_le_of_lt (by omega) defaultFrameMax_lt
      exact ⟨_, bind_eq_ok.mpr ⟨_, encodeLongstr_eq_ok.mpr ⟨hwidth, rfl⟩, rfl⟩⟩
    | dict entries =>
      have hlevels := hyields.2
      rw [fieldLevels, tableRoom] at hlevels
      rw [fieldSize] at hsize
      obtain ⟨parts, hparts, hlength⟩ := encodeEntries_of_yields (fun e he => hentries entries rfl e he (depth + 1))
        hyields.1 (by rw [tableRoom]; omega) hsigned (by omega)
      obtain ⟨table, htable⟩ := tableOf_of_size hparts (show depth + 1 ≤ defaultMaxTableDepth by omega) (by omega)
      exact ⟨_, bind_eq_ok.mpr ⟨table, htable, rfl⟩⟩
    | tuple items =>
      obtain ⟨scale, n, rfl, -, hlow, hhigh⟩ := yielded_tuple hleaf
      exact encodeDecimalPair_of_range scale hlow hhigh
    | list items =>
      have hlevels := hyields.2
      rw [fieldLevels] at hlevels
      rw [fieldSize] at hsize
      obtain ⟨parts, hparts, hlength⟩ := encodeItems_of_yields (fun v hv => hitems items rfl v hv (depth + 1))
        hyields.1 (by omega) hsigned (by omega)
      have hwidth : parts.length < 256 ^ 4 := lt_of_le_of_lt (by omega) defaultFrameMax_lt
      refine ⟨tagByte 'A' :: (toBE 4 parts.length ++ parts), bind_eq_ok.mpr ⟨parts, hparts, ?_⟩⟩
      rw [raiseIf_of_not (by omega), ok_bind, toBytes_natCast hwidth]
      rfl
    | decimal negative coefficient exponent => cases hleaf
    | decimalSpecial nan => cases hleaf
    | datetime posix => cases hleaf
    | object => cases hleaf

/-- A value that was read, with no float and no integer beyond the signed ones, is a field. -/
theorem isField_of_yielded (value : PyVal) : everywhere yielded value = true → everywhere notFloat value = true →
    everywhere withinSigned value = true → isField value = true := by
  induction value using PyVal.childrenInduction with
  | h v hentries hitems =>
    intro hyielded hfloat hsigned
    obtain ⟨hleaf, hyieldedEntries, hyieldedItems⟩ := everywhere_iff.mp hyielded
    obtain ⟨hfloatLeaf, hfloatEntries, hfloatItems⟩ := everywhere_iff.mp hfloat
    obtain ⟨hsignedLeaf, hsignedEntries, hsignedItems⟩ := everywhere_iff.mp hsigned
    cases v with
    | none => rfl
    | bool b => rfl
    | int n =>
      rw [yielded, decide_eq_true_eq] at hleaf
      rw [isField, decide_eq_true_eq]
      exact ⟨hleaf.1, of_decide_eq_true hsignedLeaf⟩
    | float bits => cases hfloatLeaf
    | str t => rfl
    | bytes b => rfl
    | dict entries =>
      rw [isField, Bool.and_eq_true, decide_eq_true_eq, entriesAreFields_iff]
      refine ⟨(yielded_dict.mp hleaf).nodup, fun e he => hentries entries rfl e he ?_ ?_ ?_⟩
      · exact hyieldedEntries entries rfl e he
      · exact hfloatEntries entries rfl e he
      · exact hsignedEntries entries rfl e he
    | tuple items =>
      obtain ⟨scale, n, rfl, hrange⟩ := yielded_tuple hleaf
      rw [isField, decide_eq_true_eq]
      exact hrange
    | list items =>
      rw [isField, areFields_iff]
      refine fun x hx => hitems items rfl x hx ?_ ?_ ?_
      · exact hyieldedItems items rfl x hx
      · exact hfloatItems items rfl x hx
      · exact hsignedItems items rfl x hx
    | decimal negative coefficient exponent => cases hleaf
    | decimalSpecial nan => cases hleaf
    | datetime posix => cases hleaf
    | object => cases hleaf

/-- The table can be written, and what is written reads back as it. -/
def Resends (context : Decimal.Context) (t : Table) : Prop :=
  ∃ enc, encodeTable context 0 t = .ok enc ∧ decodeTable enc tableRoom 0 = .ok (t, enc.length)

/-- A table that was read, without floats, can be sent on exactly if its integers are signed 64-bit ones and the
writer's forms of its entries stay below the reader's ceiling. -/
theorem resends_iff {context : Decimal.Context} {data : Bytes} {offset next : Nat} {t : Table}
    (h : decodeTable data tableRoom offset = .ok (t, next)) (hfloat : everywhere notFloat (.dict t) = true) :
    Resends context t ↔ everywhere withinSigned (.dict t) = true ∧ entriesSize t ≤ defaultFrameMax := by
  obtain ⟨hyielded, hlevels⟩ := (decode_yields data tableRoom).2 offset t next h
  rw [fieldLevels, Nat.succ_le_succ_iff] at hlevels
  have hread {enc : Bytes} (henc : encodeTable context 0 t = .ok enc) :
      decodeTable enc tableRoom 0 = .ok (t, enc.length) ↔ tableReadsBack context 0 tableRoom t = true := by
    have himage := toOption_decodeTable henc tableRoom [] []
    rw [List.nil_append, List.append_nil, List.length_nil, Nat.zero_add] at himage
    rw [← wireTable_eq_some_iff, ← toOption_eq_some, himage]
    cases wireTable context 0 tableRoom t <;> simp
  constructor
  · rintro ⟨enc, henc, hback⟩
    have hback := (hread henc).mp hback
    obtain ⟨parts, hparts, -⟩ := tableOf_eq_ok henc
    have hlength := length_of_encodeEntries (fun e _ => length_of_encodeFieldValue e.2 0) hparts
    rw [tableReadsBack, fitsTable, hparts, Bool.and_eq_true, Bool.and_eq_true, decide_eq_true_eq, toOption_ok,
      Option.getD_some, hlength] at hback
    refine ⟨everywhere_iff.mpr ⟨rfl, ?_, ?_⟩, hback.1.2⟩
    · rintro _ ⟨⟩ e he
      obtain ⟨-, raw, hraw⟩ := encodeEntries_isOk_iff.mp ⟨parts, hparts⟩ e he
      exact withinSigned_of_encodeFieldValue e.2 0 raw hraw
    · intro items hitems
      cases hitems
  · rintro ⟨hsigned, hsize⟩
    obtain ⟨parts, hparts, hlength⟩ := encodeEntries_of_yields (fun e _ => writable e.2 0) hyielded
      (by rw [tableRoom] at *; omega) hsigned hsize
    obtain ⟨enc, henc⟩ := tableOf_of_size hparts (Nat.zero_le _) (hlength.trans_le hsize)
    have hfields := isField_of_yielded (.dict t) hyielded hfloat hsigned
    rw [isField, Bool.and_eq_true, decide_eq_true_eq] at hfields
    refine ⟨enc, henc, (hread henc).mpr ?_⟩
    rw [tableReadsBack, fitsTable, hparts, Bool.and_eq_true, Bool.and_eq_true, Bool.and_eq_true, decide_eq_true_eq,
      decide_eq_true_eq, decide_eq_true_eq, toOption_ok, Option.getD_some, hlength,
      entriesReadBack_iff_levels _ (fun e _ => backsOnLevels e.2) hfields.2 hparts (hlength.trans_le hsize)]
    refine ⟨⟨⟨by decide, hfields.1⟩, hsize⟩, ?_⟩
    omega

/-- One entry, a signed octet. -/
def octetTable : Bytes := [0, 0, 0, 4, 1, 107, 98, 255]

theorem octetTable_resends : ∃ t next, decodeTable octetTable tableRoom 0 = .ok (t, next) ∧ Resends .default t := by
  have hread : ((decodeTable octetTable tableRoom 0).toOption.map fun r => (everywhere notFloat (.dict r.1),
      everywhere withinSigned (.dict r.1), decide (entriesSize r.1 ≤ defaultFrameMax))) = some (true, true, true) := by
    decide +kernel
  obtain ⟨⟨t, next⟩, ht, hfacts⟩ := Option.map_eq_some_iff.mp hread
  have ht := toOption_eq_some.mp ht
  simp only [Prod.mk.injEq, decide_eq_true_eq] at hfacts
  exact ⟨t, next, ht, (resends_iff ht hfacts.1).mpr hfacts.2⟩

/-- One entry, an unsigned long of `2 ^ 63`. -/
def longTable : Bytes := [0, 0, 0, 11, 1, 107, 108, 128, 0, 0, 0, 0, 0, 0, 0]

theorem longTable_not_resends : ¬∀ data offset t next, decodeTable data tableRoom offset = .ok (t, next) →
    everywhere notFloat (.dict t) = true → Resends .default t := by
  intro h
  have hread : ((decodeTable longTable tableRoom 0).toOption.map fun r => (everywhere notFloat (.dict r.1),
      (encodeTable .default 0 r.1).toOption.isSome)) = some (true, false) := by
    decide +kernel
  obtain ⟨⟨t, next⟩, ht, hfacts⟩ := Option.map_eq_some_iff.mp hread
  simp only [Prod.mk.injEq] at hfacts
  obtain ⟨enc, henc, -⟩ := h longTable 0 t next (toOption_eq_some.mp ht) hfacts.1
  rw [henc] at hfacts
  cases hfacts.2

end Nuropb.Transport
