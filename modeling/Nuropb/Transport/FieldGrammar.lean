import Nuropb.Transport.FieldRoundTrip

/-! # The grammar of field values

The value trees of the protocol's grammar, how they are serialised, and what the decoder makes of them.
It has the two 16-bit types the wrong way round.
-/
namespace Nuropb.Transport

open Library

/-- A text of 255 octets at most. -/
structure ShortString where
  chars : List Char
  fits : (chars.flatMap String.utf8EncodeChar).length ≤ 255

def ShortString.text (s : ShortString) : Text := Text.ofChars s.chars

def ShortString.raw (s : ShortString) : Bytes := s.chars.flatMap String.utf8EncodeChar

inductive FieldValue
  | boolean (octet : UInt8)
  | shortShortInt (n : Int8)
  | shortShortUint (n : UInt8)
  | shortInt (n : Int16)
  | shortUint (n : UInt16)
  | longInt (n : Int32)
  | longUint (n : UInt32)
  | longLongInt (n : Int64)
  | longLongUint (n : UInt64)
  | decimalValue (scale : UInt8) (n : Int32)
  | timestamp (seconds : UInt64)
  | shortString (s : ShortString)
  | longString (chars : List Char)
  | fieldTable (entries : List (ShortString × FieldValue))
  | fieldArray (items : List FieldValue)
  | noField

namespace FieldValue

/-- Induction over values, with the hypothesis for the values of entries and for items. -/
theorem childrenInduction {P : FieldValue → Prop}
    (h : ∀ v, (∀ entries, v = .fieldTable entries → ∀ e ∈ entries, P e.2) →
      (∀ items, v = .fieldArray items → ∀ x ∈ items, P x) → P v) (v : FieldValue) : P v := by
  refine h v ?_ ?_
  · rintro entries rfl ⟨key, value⟩ he
    have hsize := List.sizeOf_lt_of_mem he
    exact childrenInduction h value
  · rintro items rfl x hx
    have hsize := List.sizeOf_lt_of_mem hx
    exact childrenInduction h x
termination_by sizeOf v
decreasing_by all_goals (simp_all; omega)

/-! ## The grammar -/

/-- Octets behind their length. -/
def sized (content : Bytes) : Bytes := toBE 4 content.length ++ content

def shortOctets (s : ShortString) : Bytes := UInt8.ofNat s.raw.length :: s.raw

mutual

def serialise : FieldValue → Bytes
  | boolean octet => [tagByte 't', octet]
  | shortShortInt n => tagByte 'b' :: toBESigned 1 n.toInt
  | shortShortUint n => tagByte 'B' :: toBE 1 n.toNat
  | shortInt n => tagByte 'U' :: toBESigned 2 n.toInt
  | shortUint n => tagByte 'u' :: toBE 2 n.toNat
  | longInt n => tagByte 'I' :: toBESigned 4 n.toInt
  | longUint n => tagByte 'i' :: toBE 4 n.toNat
  | longLongInt n => tagByte 'L' :: toBESigned 8 n.toInt
  | longLongUint n => tagByte 'l' :: toBE 8 n.toNat
  | decimalValue scale n => tagByte 'D' :: scale :: toBESigned 4 n.toInt
  | timestamp seconds => tagByte 'T' :: toBE 8 seconds.toNat
  | shortString s => tagByte 's' :: shortOctets s
  | longString chars => tagByte 'S' :: sized (chars.flatMap String.utf8EncodeChar)
  | fieldTable entries => tagByte 'F' :: sized (serialiseEntries entries)
  | fieldArray items => tagByte 'A' :: sized (serialiseItems items)
  | noField => [tagByte 'V']

def serialiseEntries : List (ShortString × FieldValue) → Bytes
  | [] => []
  | (key, value) :: rest => shortOctets key ++ value.serialise ++ serialiseEntries rest

def serialiseItems : List FieldValue → Bytes
  | [] => []
  | item :: rest => item.serialise ++ serialiseItems rest

end

section Values

variable (short : Int16 → Int) (ushort : UInt16 → Int)

mutual

/-- The value of a tree, with the 16-bit integers as `short` and `ushort` take them. -/
def valueBy : FieldValue → PyVal
  | boolean octet => .bool (octet ≠ 0)
  | shortShortInt n => .int n.toInt
  | shortShortUint n => .int n.toNat
  | shortInt n => .int (short n)
  | shortUint n => .int (ushort n)
  | longInt n => .int n.toInt
  | longUint n => .int n.toNat
  | longLongInt n => .int n.toInt
  | longLongUint n => .int n.toNat
  | decimalValue scale n => .tuple [.int scale.toNat, .int n.toInt]
  | timestamp seconds => .int seconds.toNat
  | shortString s => .str s.text
  | longString chars => .str (Text.ofChars chars)
  | fieldTable entries => .dict (valueEntries entries)
  | fieldArray items => .list (valueItems items)
  | noField => .none

def valueEntries : List (ShortString × FieldValue) → Table
  | [] => []
  | (key, value) :: rest => (key.text, value.valueBy) :: valueEntries rest

def valueItems : List FieldValue → List PyVal
  | [] => []
  | item :: rest => item.valueBy :: valueItems rest

end

end Values

/-- The value that the grammar assigns. -/
def value (t : FieldValue) : PyVal := t.valueBy (·.toInt) (·.toNat)

mutual

/-- The keys of every table differ. -/
def distinct : FieldValue → Bool
  | fieldTable entries => decide ((entries.map fun e => e.1.chars).Nodup) && distinctEntries entries
  | fieldArray items => distinctItems items
  | _ => true

def distinctEntries : List (ShortString × FieldValue) → Bool
  | [] => true
  | (_, value) :: rest => value.distinct && distinctEntries rest

def distinctItems : List FieldValue → Bool
  | [] => true
  | item :: rest => item.distinct && distinctItems rest

end

mutual

/-- The levels that the decoder goes down: one for a value, and one more for a table. -/
def levels : FieldValue → Nat
  | fieldTable entries => 2 + levelsOfEntries entries
  | fieldArray items => 1 + levelsOfItems items
  | _ => 1

def levelsOfEntries : List (ShortString × FieldValue) → Nat
  | [] => 0
  | (_, value) :: rest => max value.levels (levelsOfEntries rest)

def levelsOfItems : List FieldValue → Nat
  | [] => 0
  | item :: rest => max item.levels (levelsOfItems rest)

end

mutual

/-- No 16-bit integer of either type has its upper bit set. -/
def noUpperBit : FieldValue → Bool
  | shortInt n => decide (0 ≤ n.toInt)
  | shortUint n => decide (n.toNat < 2 ^ 15)
  | fieldTable entries => noUpperBitEntries entries
  | fieldArray items => noUpperBitItems items
  | _ => true

def noUpperBitEntries : List (ShortString × FieldValue) → Bool
  | [] => true
  | (_, value) :: rest => value.noUpperBit && noUpperBitEntries rest

def noUpperBitItems : List FieldValue → Bool
  | [] => true
  | item :: rest => item.noUpperBit && noUpperBitItems rest

end

/-! ## What the decoder makes of a tree -/

/-- `U` is read unsigned. -/
def shortAsRead (n : Int16) : Int := n.toInt % 2 ^ 16

/-- `u` is read signed. -/
def ushortAsRead (n : UInt16) : Int := if n.toNat < 2 ^ 15 then n.toNat else n.toNat - 2 ^ 16

def asRead (t : FieldValue) : PyVal := t.valueBy shortAsRead ushortAsRead

def entriesAsRead (entries : List (ShortString × FieldValue)) : Table := valueEntries shortAsRead ushortAsRead entries

def itemsAsRead (items : List FieldValue) : List PyVal := valueItems shortAsRead ushortAsRead items

section Reading

variable (p s : Bytes)

theorem decodeShortstr_shortOctets (key : ShortString) :
    decodeShortstr (p ++ (shortOctets key ++ s)) p.length = .ok (key.text, p.length + (shortOctets key).length) := by
  have hutf8 : encodeUtf8 key.text = .ok key.raw := by
    rw [encodeUtf8, ShortString.text, Text.utf8_ofChars]
    rfl
  exact decodeShortstr_encodeShortstr (encodeShortstr_eq_ok.mpr ⟨key.raw, hutf8, key.fits, rfl⟩) p s

theorem decodeExtent_sized {content : Bytes} (hsize : content.length ≤ defaultFrameMax) (what : String) :
    decodeExtent (p ++ (sized content ++ s)) p.length what = .ok (p.length + (sized content).length) := by
  have hlt : content.length < 256 ^ 4 := hsize.trans_lt (by decide)
  have hextent := toOption_decodeExtent p s hlt what
  rw [if_pos hsize, toOption_eq_some] at hextent
  rw [sized, List.append_assoc, hextent, List.length_append, length_toBE, Nat.add_assoc]

theorem sized_append (content : Bytes) :
    p ++ (sized content ++ s) = p ++ toBE 4 content.length ++ (content ++ s) ∧
      p.length + 4 = (p ++ toBE 4 content.length).length ∧
        p.length + (sized content).length = (p ++ toBE 4 content.length).length + content.length := by
  refine ⟨?_, ?_, ?_⟩
  · simp only [sized, List.append_assoc]
  · rw [List.length_append, length_toBE]
  · simp only [sized, List.length_append, length_toBE]
    omega

/-- The decoder reads the tree as such, and consumes exactly its octets. -/
def ReadsAsSuch (room : Nat) (t : FieldValue) : Prop :=
  ∀ p s, decodeFieldValue (p ++ (t.serialise ++ s)) room p.length = .ok (t.asRead, p.length + t.serialise.length)

theorem length_pos_serialise (t : FieldValue) : 0 < t.serialise.length := by
  cases t <;> simp [serialise]

theorem decodeItems_serialise {room rounds : Nat} {items : List FieldValue} (hreads : ∀ t ∈ items, ReadsAsSuch room t)
    (hrounds : (serialiseItems items).length ≤ rounds) (acc : List PyVal) :
    decodeItems (decodeFieldValue (p ++ (serialiseItems items ++ s)) room) (p.length + (serialiseItems items).length) rounds
      p.length acc = .ok (acc ++ itemsAsRead items) := by
  induction items generalizing rounds p acc with
  | nil => cases rounds <;> simp [decodeItems, serialiseItems, itemsAsRead, valueItems]
  | cons item rest ih =>
    have hpos := length_pos_serialise item
    rw [serialiseItems, List.length_append] at hrounds
    obtain ⟨rounds, rfl⟩ : ∃ n, rounds = n + 1 := ⟨rounds - 1, by omega⟩
    have hitem := hreads item List.mem_cons_self p (serialiseItems rest ++ s)
    have hrest := ih (p ++ item.serialise) (fun t ht => hreads t (List.mem_cons_of_mem _ ht))
      (show (serialiseItems rest).length ≤ rounds by omega) (acc ++ [item.asRead])
    rw [List.append_assoc, List.length_append, List.append_assoc acc] at hrest
    rw [serialiseItems, List.append_assoc, List.length_append, ← Nat.add_assoc, decodeItems, if_pos (by omega), hitem, ok_bind]
    exact hrest

theorem decodeEntries_serialise {room rounds : Nat} {entries : List (ShortString × FieldValue)}
    (hreads : ∀ e ∈ entries, ReadsAsSuch room e.2) (hrounds : (serialiseEntries entries).length ≤ rounds) (acc : Table) :
    decodeEntries (p ++ (serialiseEntries entries ++ s)) (decodeFieldValue (p ++ (serialiseEntries entries ++ s)) room)
      (p.length + (serialiseEntries entries).length) rounds p.length acc = .ok (assignAll acc (entriesAsRead entries)) := by
  induction entries generalizing rounds p acc with
  | nil => cases rounds <;> simp [decodeEntries, serialiseEntries, entriesAsRead, valueEntries]
  | cons entry rest ih =>
    obtain ⟨key, value⟩ := entry
    have hpos := length_pos_serialise value
    rw [serialiseEntries, List.length_append, List.length_append] at hrounds
    obtain ⟨rounds, rfl⟩ : ∃ n, rounds = n + 1 := ⟨rounds - 1, by omega⟩
    have hkey := decodeShortstr_shortOctets p (value.serialise ++ (serialiseEntries rest ++ s)) key
    have hvalue := hreads _ List.mem_cons_self (p ++ shortOctets key) (serialiseEntries rest ++ s)
    have hrest := ih (p ++ shortOctets key ++ value.serialise) (fun e he => hreads e (List.mem_cons_of_mem _ he))
      (show (serialiseEntries rest).length ≤ rounds by omega) (assign key.text value.asRead acc)
    simp only [List.append_assoc, List.length_append, ← Nat.add_assoc] at hkey hvalue hrest ⊢
    simp only [serialiseEntries, List.append_assoc, List.length_append, ← Nat.add_assoc]
    rw [decodeEntries, if_pos (by omega), hkey, ok_bind]
    dsimp only
    rw [hvalue, ok_bind]
    dsimp only
    rw [hrest]
    rfl

theorem decodeTable_serialise {room : Nat} {entries : List (ShortString × FieldValue)}
    (hreads : ∀ e ∈ entries, ReadsAsSuch room e.2) (hsize : (serialiseEntries entries).length ≤ defaultFrameMax)
    (hkeys : ((entriesAsRead entries).map Prod.fst).Nodup) :
    decodeTable (p ++ (sized (serialiseEntries entries) ++ s)) (room + 1) p.length =
      .ok (entriesAsRead entries, p.length + (sized (serialiseEntries entries)).length) := by
  obtain ⟨hbuffer, hstart, hend⟩ := sized_append p s (serialiseEntries entries)
  have hentries := decodeEntries_serialise (p ++ toBE 4 (serialiseEntries entries).length) s hreads le_rfl []
  rw [decodeTable, decodeExtent_sized p s hsize, ok_bind]
  dsimp only
  rw [hbuffer, hstart, hend, Nat.add_sub_cancel_left, hentries, ok_bind, pure_eq_ok, assignAll_of_nodup (by simpa using hkeys),
    List.nil_append]

theorem decodeFieldValue_fixedAsSuch (c : Char) (hc : c.toNat < 256) {room n : Nat} {what : String} {f : Bytes → PyVal}
    {raw : Bytes} {v : PyVal} (htag : ∀ data table value pos, decodeTagged data table value c pos = decodeFixed data pos n what f)
    (hraw : raw.length = n) (hv : f raw = v) :
    decodeFieldValue (p ++ (tagByte c :: raw ++ s)) (room + 1) p.length = .ok (v, p.length + (tagByte c :: raw).length) := by
  rw [decodeFieldValue_fixed p s c hc htag hraw, hv]

end Reading

theorem unsignedOf_toBE {w n : Nat} (h : n < 256 ^ w) : unsignedOf (toBE w n) = .int n := by
  rw [unsignedOf, ofBE_toBE h]

theorem signedOf_toBESigned {w : Nat} {i : Int} (hlow : -(256 ^ w : Int) ≤ 2 * i) (hhigh : 2 * i < 256 ^ w) :
    signedOf (toBESigned w i) = .int i := by
  rw [signedOf, ofBESigned_toBESigned hlow hhigh]

theorem unsignedOf_short (n : Int16) : unsignedOf (toBESigned 2 n.toInt) = .int (shortAsRead n) := by
  have hlow : 0 ≤ n.toInt % 2 ^ 16 := Int.emod_nonneg _ (by decide)
  have hhigh : n.toInt % 2 ^ 16 < 2 ^ 16 := Int.emod_lt_of_pos _ (by decide)
  have hpow : (256 ^ 2 : Int) = 2 ^ 16 := by decide
  rw [unsignedOf, toBESigned, ofBE_toBE (by omega), shortAsRead, hpow, Int.toNat_of_nonneg hlow]

theorem signedOf_ushort (n : UInt16) : signedOf (toBE 2 n.toNat) = .int (ushortAsRead n) := by
  have hlt := n.toNat_lt
  rw [signedOf, ofBESigned, ofBE_toBE hlt, length_toBE, ushortAsRead]
  congr 1
  split <;> split <;> omega

theorem map_fst_entriesAsRead (entries : List (ShortString × FieldValue)) :
    (entriesAsRead entries).map Prod.fst = entries.map fun e => e.1.text := by
  induction entries with
  | nil => rfl
  | cons entry rest ih => exact congrArg (entry.1.text :: ·) ih

/-! ## The children of a tree -/

section Children

variable {e : ShortString × FieldValue} {t : FieldValue} {entries : List (ShortString × FieldValue)} {items : List FieldValue}

theorem levels_le_of_entry (he : e ∈ entries) : e.2.levels ≤ levelsOfEntries entries := by
  induction entries with
  | nil => cases he
  | cons entry rest ih =>
    rw [levelsOfEntries]
    rcases List.mem_cons.mp he with rfl | hrest
    · exact le_max_left _ _
    · exact (ih hrest).trans (le_max_right _ _)

theorem levels_le_of_item (ht : t ∈ items) : t.levels ≤ levelsOfItems items := by
  induction items with
  | nil => cases ht
  | cons item rest ih =>
    rw [levelsOfItems]
    rcases List.mem_cons.mp ht with rfl | hrest
    · exact le_max_left _ _
    · exact (ih hrest).trans (le_max_right _ _)

theorem length_le_of_entry (he : e ∈ entries) : e.2.serialise.length ≤ (serialiseEntries entries).length := by
  induction entries with
  | nil => cases he
  | cons entry rest ih =>
    rw [serialiseEntries, List.length_append, List.length_append]
    rcases List.mem_cons.mp he with rfl | hrest
    · omega
    · have htail := ih hrest
      omega

theorem length_le_of_item (ht : t ∈ items) : t.serialise.length ≤ (serialiseItems items).length := by
  induction items with
  | nil => cases ht
  | cons item rest ih =>
    rw [serialiseItems, List.length_append]
    rcases List.mem_cons.mp ht with rfl | hrest
    · omega
    · have htail := ih hrest
      omega

theorem distinctEntries_iff : distinctEntries entries = true ↔ ∀ e ∈ entries, e.2.distinct = true := by
  induction entries with
  | nil => simp [distinctEntries]
  | cons entry rest ih => simp [distinctEntries, ih]

theorem distinctItems_iff : distinctItems items = true ↔ ∀ t ∈ items, t.distinct = true := by
  induction items with
  | nil => simp [distinctItems]
  | cons item rest ih => simp [distinctItems, ih]

end Children

/-- The trees of the grammar that a decoder with `room` levels left can take. -/
structure Decodable (room : Nat) (t : FieldValue) : Prop where
  distinct : t.distinct = true
  size : t.serialise.length ≤ defaultFrameMax
  levels : t.levels ≤ room

theorem ofChars_injective : Function.Injective Text.ofChars :=
  List.map_injective_iff.mpr fun _ _ h => CodePoint.scalar.inj h

theorem Decodable.ofEntry {room : Nat} {entries : List (ShortString × FieldValue)} (h : Decodable (room + 2) (.fieldTable entries)) :
    (∀ e ∈ entries, Decodable room e.2) ∧ (serialiseEntries entries).length ≤ defaultFrameMax ∧
      ((entriesAsRead entries).map Prod.fst).Nodup := by
  obtain ⟨hdistinct, hsize, hlevels⟩ := h
  simp only [FieldValue.distinct, Bool.and_eq_true, decide_eq_true_eq, distinctEntries_iff] at hdistinct
  simp only [serialise, sized, List.length_cons, List.length_append, length_toBE] at hsize
  rw [FieldValue.levels] at hlevels
  refine ⟨fun e he => ⟨hdistinct.2 e he, ?_, ?_⟩, by omega, ?_⟩
  · have hlength := length_le_of_entry he
    omega
  · have hentry := levels_le_of_entry he
    omega
  · rw [map_fst_entriesAsRead]
    have hnodup := hdistinct.1.map ofChars_injective
    rwa [List.map_map] at hnodup

theorem Decodable.ofItem {room : Nat} {items : List FieldValue} (h : Decodable (room + 1) (.fieldArray items)) :
    (∀ t ∈ items, Decodable room t) ∧ (serialiseItems items).length ≤ defaultFrameMax := by
  obtain ⟨hdistinct, hsize, hlevels⟩ := h
  rw [FieldValue.distinct, distinctItems_iff] at hdistinct
  simp only [serialise, sized, List.length_cons, List.length_append, length_toBE] at hsize
  rw [FieldValue.levels] at hlevels
  refine ⟨fun t ht => ⟨hdistinct t ht, ?_, ?_⟩, by omega⟩
  · have hlength := length_le_of_item ht
    omega
  · have hitem := levels_le_of_item ht
    omega

/-! ## The decoder and the grammar -/

theorem readsAsSuch_of_children {room : Nat} {t : FieldValue} (h : Decodable room t)
    (hentries : ∀ entries, t = .fieldTable entries → ∀ e ∈ entries, ∀ room, Decodable room e.2 → ReadsAsSuch room e.2)
    (hitems : ∀ items, t = .fieldArray items → ∀ x ∈ items, ∀ room, Decodable room x → ReadsAsSuch room x) :
    ReadsAsSuch room t := by
  intro p s
  obtain ⟨room, rfl⟩ : ∃ n, room = n + 1 := by
    have hlevels := h.levels
    refine ⟨room - 1, ?_⟩
    cases t <;> simp only [FieldValue.levels] at hlevels <;> omega
  cases t with
  | boolean octet =>
    refine decodeFieldValue_fixedAsSuch p s 't' (by decide) (fun _ _ _ _ => rfl) rfl ?_
    simp [boolOf, ofBE, asRead, valueBy, ← UInt8.toNat_inj]
  | shortShortInt n =>
    have hlow := n.le_toInt
    have hhigh := n.toInt_lt
    exact decodeFieldValue_fixedAsSuch p s 'b' (by decide) (fun _ _ _ _ => rfl) (length_toBESigned 1 _)
      (signedOf_toBESigned (by omega) (by omega))
  | shortShortUint n =>
    exact decodeFieldValue_fixedAsSuch p s 'B' (by decide) (fun _ _ _ _ => rfl) (length_toBE 1 _) (unsignedOf_toBE n.toNat_lt)
  | shortInt n =>
    exact decodeFieldValue_fixedAsSuch p s 'U' (by decide) (fun _ _ _ _ => rfl) (length_toBESigned 2 _) (unsignedOf_short n)
  | shortUint n =>
    exact decodeFieldValue_fixedAsSuch p s 'u' (by decide) (fun _ _ _ _ => rfl) (length_toBE 2 _) (signedOf_ushort n)
  | longInt n =>
    have hlow := n.le_toInt
    have hhigh := n.toInt_lt
    exact decodeFieldValue_fixedAsSuch p s 'I' (by decide) (fun _ _ _ _ => rfl) (length_toBESigned 4 _)
      (signedOf_toBESigned (by omega) (by omega))
  | longUint n =>
    exact decodeFieldValue_fixedAsSuch p s 'i' (by decide) (fun _ _ _ _ => rfl) (length_toBE 4 _) (unsignedOf_toBE n.toNat_lt)
  | longLongInt n =>
    have hlow := n.le_toInt
    have hhigh := n.toInt_lt
    exact decodeFieldValue_fixedAsSuch p s 'L' (by decide) (fun _ _ _ _ => rfl) (length_toBESigned 8 _)
      (signedOf_toBESigned (by omega) (by omega))
  | longLongUint n =>
    exact decodeFieldValue_fixedAsSuch p s 'l' (by decide) (fun _ _ _ _ => rfl) (length_toBE 8 _) (unsignedOf_toBE n.toNat_lt)
  | decimalValue scale n =>
    have hlow := n.le_toInt
    have hhigh := n.toInt_lt
    refine decodeFieldValue_fixedAsSuch p s 'D' (by decide) (fun _ _ _ _ => rfl) (by simp) ?_
    rw [decimalOf, List.take_one, List.drop_one]
    change PyVal.tuple [unsignedOf [scale], signedOf (toBESigned 4 n.toInt)] = _
    rw [signedOf_toBESigned (by omega) (by omega)]
    simp [unsignedOf, ofBE, asRead, valueBy]
  | timestamp seconds =>
    exact decodeFieldValue_fixedAsSuch p s 'T' (by decide) (fun _ _ _ _ => rfl) (length_toBE 8 _)
      (unsignedOf_toBE seconds.toNat_lt)
  | shortString key =>
    rw [serialise, decodeFieldValue_cons p s 's' (by decide), ← length_snoc_tag]
    simp only [decodeTagged, decodeShortstr_shortOctets, ok_bind, pure_eq_ok]
    rfl
  | longString chars =>
    have hsize : (chars.flatMap String.utf8EncodeChar).length ≤ defaultFrameMax := by
      have hsize := h.size
      simp only [serialise, sized, List.length_cons, List.length_append, length_toBE] at hsize
      omega
    have hlong : encodeLongstr (chars.flatMap String.utf8EncodeChar) = .ok (sized (chars.flatMap String.utf8EncodeChar)) :=
      encodeLongstr_eq_ok.mpr ⟨hsize.trans_lt (by decide), rfl⟩
    have hutf8 : encodeUtf8 (Text.ofChars chars) = .ok (chars.flatMap String.utf8EncodeChar) := by
      rw [encodeUtf8, Text.utf8_ofChars]
    rw [serialise, decodeFieldValue_cons p s 'S' (by decide), ← length_snoc_tag]
    simp only [decodeTagged, decodeLongstr_encodeLongstr hlong, if_pos hsize, ok_bind, decodeUtf8_of_encodeUtf8 hutf8, pure_eq_ok]
    rfl
  | fieldTable entries =>
    obtain ⟨room, rfl⟩ : ∃ n, room = n + 1 := by
      have hlevels := h.levels
      refine ⟨room - 1, ?_⟩
      rw [FieldValue.levels] at hlevels
      omega
    obtain ⟨hchildren, hsize, hkeys⟩ := h.ofEntry
    have hreads : ∀ e ∈ entries, ReadsAsSuch room e.2 := fun e he => hentries entries rfl e he room (hchildren e he)
    rw [serialise, decodeFieldValue_cons p s 'F' (by decide), ← length_snoc_tag]
    simp only [decodeTagged, decodeTable_serialise _ s hreads hsize hkeys, ok_bind, pure_eq_ok]
    rfl
  | fieldArray items =>
    obtain ⟨hchildren, hsize⟩ := h.ofItem
    have hreads : ∀ t ∈ items, ReadsAsSuch room t := fun t ht => hitems items rfl t ht room (hchildren t ht)
    obtain ⟨hbuffer, hstart, hend⟩ := sized_append (p ++ [tagByte 'A']) s (serialiseItems items)
    have hread := decodeItems_serialise (p ++ [tagByte 'A'] ++ toBE 4 (serialiseItems items).length) s hreads le_rfl []
    rw [serialise, decodeFieldValue_cons p s 'A' (by decide), ← length_snoc_tag]
    simp only [decodeTagged, decodeExtent_sized _ s hsize, ok_bind]
    rw [hbuffer, hstart, hend, Nat.add_sub_cancel_left, hread]
    rfl
  | noField => exact congrArg id (decodeFieldValue_append p 'V' (by decide) s room)

/-- The decoder takes every tree that it can, and consumes exactly its octets. -/
theorem readsAsSuch (t : FieldValue) : ∀ room, Decodable room t → ReadsAsSuch room t := by
  induction t using childrenInduction with
  | h t hentries hitems =>
    intro room h
    exact readsAsSuch_of_children h hentries hitems

theorem shortAsRead_eq_iff (n : Int16) : shortAsRead n = n.toInt ↔ 0 ≤ n.toInt := by
  have hlow := n.le_toInt
  have hhigh := n.toInt_lt
  unfold shortAsRead
  omega

theorem ushortAsRead_eq_iff (n : UInt16) : ushortAsRead n = n.toNat ↔ n.toNat < 2 ^ 15 := by
  unfold ushortAsRead
  split <;> omega

theorem entriesAsRead_eq_iff {entries : List (ShortString × FieldValue)}
    (h : ∀ e ∈ entries, e.2.asRead = e.2.value ↔ e.2.noUpperBit = true) :
    entriesAsRead entries = valueEntries (·.toInt) (·.toNat) entries ↔ noUpperBitEntries entries = true := by
  induction entries with
  | nil => simp [entriesAsRead, valueEntries, noUpperBitEntries]
  | cons entry rest ih =>
    have hfirst := h entry List.mem_cons_self
    have hrest := ih fun e he => h e (List.mem_cons_of_mem _ he)
    rw [noUpperBitEntries, Bool.and_eq_true, ← hfirst, ← hrest]
    simp [entriesAsRead, valueEntries, asRead, value]

theorem itemsAsRead_eq_iff {items : List FieldValue} (h : ∀ t ∈ items, t.asRead = t.value ↔ t.noUpperBit = true) :
    itemsAsRead items = valueItems (·.toInt) (·.toNat) items ↔ noUpperBitItems items = true := by
  induction items with
  | nil => simp [itemsAsRead, valueItems, noUpperBitItems]
  | cons item rest ih =>
    have hfirst := h item List.mem_cons_self
    have hrest := ih fun t ht => h t (List.mem_cons_of_mem _ ht)
    rw [noUpperBitItems, Bool.and_eq_true, ← hfirst, ← hrest]
    simp [itemsAsRead, valueItems, asRead, value]

/-- A tree is read as the grammar has it exactly when none of its 16-bit integers has its upper bit set. -/
theorem asRead_eq_value_iff (t : FieldValue) : t.asRead = t.value ↔ t.noUpperBit = true := by
  induction t using childrenInduction with
  | h t hentries hitems =>
    cases t with
    | shortInt n => simp [asRead, value, valueBy, noUpperBit, shortAsRead_eq_iff]
    | shortUint n => simp [asRead, value, valueBy, noUpperBit, ushortAsRead_eq_iff]
    | fieldTable entries =>
      rw [noUpperBit, ← entriesAsRead_eq_iff (hentries entries rfl)]
      simp [asRead, value, valueBy, entriesAsRead]
    | fieldArray items =>
      rw [noUpperBit, ← itemsAsRead_eq_iff (hitems items rfl)]
      simp [asRead, value, valueBy, itemsAsRead]
    | _ => simp [asRead, value, valueBy, noUpperBit]

/-- The decoder follows the grammar on a tree that it can take exactly when no `U` in it is negative and no `u` is
`2 ^ 15` or more. -/
theorem decodeFieldValue_grammar_iff {room : Nat} {t : FieldValue} (h : Decodable room t) :
    (∀ p s, decodeFieldValue (p ++ (t.serialise ++ s)) room p.length = .ok (t.value, p.length + t.serialise.length)) ↔
      t.noUpperBit = true := by
  have hreads := readsAsSuch t room h
  rw [← asRead_eq_value_iff]
  constructor
  · intro hgrammar
    have hboth := (hreads [] []).symm.trans (hgrammar [] [])
    exact congrArg Prod.fst (Except.ok.inj hboth)
  · intro heq p s
    rw [← heq]
    exact hreads p s

/-- A table with an array of both 16-bit types. -/
def bothShorts : FieldValue :=
  .fieldTable [(⟨['k'], by decide⟩, .fieldArray [.shortInt 5, .shortUint 7]), (⟨[], by decide⟩, .boolean 2)]

theorem bothShorts_decoded :
    Decodable tableRoom bothShorts ∧ ∀ p s, decodeFieldValue (p ++ (bothShorts.serialise ++ s)) tableRoom p.length =
      .ok (bothShorts.value, p.length + bothShorts.serialise.length) := by
  have hdecodable : Decodable tableRoom bothShorts := ⟨by decide, by decide +kernel, by decide⟩
  exact ⟨hdecodable, (decodeFieldValue_grammar_iff hdecodable).mpr (by decide)⟩

/-- `U` with the octets of -1. -/
theorem negativeShort_not_decoded : ¬∀ t, Decodable tableRoom t → ∀ p s,
    decodeFieldValue (p ++ (t.serialise ++ s)) tableRoom p.length = .ok (t.value, p.length + t.serialise.length) := by
  intro h
  have hdecodable : Decodable tableRoom (.shortInt (-1)) := ⟨by decide, by decide, by decide⟩
  have hboth := (readsAsSuch _ tableRoom hdecodable [] []).symm.trans (h _ hdecodable [] [])
  have hvalue := (asRead_eq_value_iff _).mp (congrArg Prod.fst (Except.ok.inj hboth))
  revert hvalue
  decide

end FieldValue

end Nuropb.Transport
