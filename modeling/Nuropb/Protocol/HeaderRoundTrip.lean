import Nuropb.Protocol.ContentHeader
import Nuropb.Transport.TableDepth

/-! # Headers read back

Any subset of the fourteen properties, each within the range of its format, is written and read back.
A headers table may nest ten levels deep, which is far from where the reader stops.
-/
namespace Nuropb

open Library Transport

namespace Transport

mutual

/-- The tables and lists around the innermost value. -/
def nesting : PyVal → Nat
  | .dict entries => entriesNesting entries + 1
  | .list items => itemsNesting items + 1
  | _ => 0

def entriesNesting : Table → Nat
  | [] => 0
  | (_, value) :: rest => max (nesting value) (entriesNesting rest)

def itemsNesting : List PyVal → Nat
  | [] => 0
  | item :: rest => max (nesting item) (itemsNesting rest)

end

theorem entriesLevels_le {entries : Table} (h : ∀ e ∈ entries, fieldLevels e.2 ≤ 2 * nesting e.2 + 1) :
    entriesLevels entries ≤ 2 * entriesNesting entries + 1 := by
  induction entries with
  | nil => exact Nat.zero_le _
  | cons entry rest ih =>
    obtain ⟨key, value⟩ := entry
    have hvalue : fieldLevels value ≤ 2 * nesting value + 1 := h (key, value) List.mem_cons_self
    have hrest := ih fun e he => h e (List.mem_cons_of_mem _ he)
    simp only [entriesLevels, entriesNesting]
    omega

theorem itemsLevels_le {items : List PyVal} (h : ∀ v ∈ items, fieldLevels v ≤ 2 * nesting v + 1) :
    itemsLevels items ≤ 2 * itemsNesting items + 1 := by
  induction items with
  | nil => exact Nat.zero_le _
  | cons item rest ih =>
    have hitem := h item List.mem_cons_self
    have hrest := ih fun v hv => h v (List.mem_cons_of_mem _ hv)
    simp only [itemsLevels, itemsNesting]
    omega

theorem fieldLevels_le (value : PyVal) : fieldLevels value ≤ 2 * nesting value + 1 := by
  induction value using PyVal.childrenInduction with
  | h v hentries hitems =>
    cases v with
    | dict entries =>
      have hinner := entriesLevels_le (hentries entries rfl)
      rw [fieldLevels, nesting]
      omega
    | list items =>
      have hinner := itemsLevels_le (hitems items rfl)
      rw [fieldLevels, nesting]
      omega
    | _ => exact Nat.le_refl 1

theorem tableLevels_le (entries : Table) : tableLevels entries ≤ 2 * entriesNesting entries + 2 := by
  have hinner : entriesLevels entries ≤ 2 * entriesNesting entries + 1 :=
    entriesLevels_le fun e _ => fieldLevels_le e.2
  rw [tableLevels]
  omega

end Transport

namespace Protocol

/-- What a header may carry under a format: text of at most 255 octets, an octet, a 64-bit timestamp, or a
table of fields that nests at most ten levels deep and fits the limit of a frame. -/
def PropertyFits (python : Interpreter) : PropertyFormat → PyVal → Prop
  | .shortstr, .str t => ∃ raw, t.utf8 = some raw ∧ raw.length ≤ 255
  | .octet, .int n => 0 ≤ n ∧ n ≤ 255
  | .timestamp, .int n => 0 ≤ n ∧ n ≤ 2 ^ 64 - 1
  | .table, .dict entries => isFieldTable entries = true ∧ entriesNesting entries ≤ 10 ∧
      ∃ enc, encodeTable python.decimals 0 entries = .ok enc ∧ enc.length ≤ defaultFrameMax
  | _, _ => False

section Properties

variable {python : Interpreter} {format : PropertyFormat} {value : PyVal} {props : Properties}

theorem encodeProperty_of_fits (h : PropertyFits python format value) : ∃ raw, encodeProperty python format value = .ok raw := by
  unfold PropertyFits at h
  split at h
  · rename_i t
    obtain ⟨raw, hraw, hlen⟩ := h
    exact ⟨_, encodeShortstr_eq_ok.mpr ⟨raw, by rw [encodeUtf8, hraw], hlen, rfl⟩⟩
  · rename_i n
    exact ⟨[UInt8.ofNat n.toNat], if_pos ⟨h.1, Int.lt_add_one_of_le h.2⟩⟩
  · rename_i n
    exact ⟨toBE 8 n.toNat, if_pos ⟨h.1, Int.lt_of_le_sub_one h.2⟩⟩
  · obtain ⟨-, -, enc, henc, -⟩ := h
    exact ⟨enc, henc⟩
  · exact h.elim

theorem readsBack_of_fits (h : PropertyFits python format value) : propertyReadsBack python format value = true := by
  unfold PropertyFits at h
  split at h
  · rfl
  · rfl
  · rfl
  · rename_i entries
    obtain ⟨hfields, hnesting, enc, henc, hsize⟩ := h
    have hlevels : tableLevels entries ≤ tableRoom := by
      have hle := tableLevels_le entries
      have hroom : tableRoom = 33 := rfl
      omega
    exact (tableReadsBack_iff_levels tableRoom (fun e _ => backsOnLevels e.2) hfields henc hsize).mpr hlevels
  · exact h.elim

theorem encodeProperties_of_fits (h : ∀ name value, props name = some value → PropertyFits python name.format value)
    (names : List PropertyName) : ∃ out, encodeProperties python props names = .ok out := by
  induction names with
  | nil => exact ⟨_, rfl⟩
  | cons name rest ih =>
    obtain ⟨out, hout⟩ := ih
    rw [encodeProperties]
    split
    · exact ⟨out, hout⟩
    · rename_i value hvalue
      obtain ⟨raw, hraw⟩ := encodeProperty_of_fits (h name value hvalue)
      rw [hraw, ok_bind, hout]
      exact ⟨_, rfl⟩

theorem flags_lt {names : List PropertyName} {flags : Nat} {body : Bytes}
    (h : encodeProperties python props names = .ok (flags, body)) : flags < 256 ^ 2 := by
  refine Nat.lt_pow_two_of_testBit (n := 16) flags ?_
  intro i hi
  rw [← Bool.not_eq_true, testBit_flags h]
  rintro ⟨name, -, -, rfl⟩
  exact absurd name.bit_lt (Nat.not_lt.mpr hi)

end Properties

/-- Every class id, body size and dictionary of properties within their ranges is written, and what was
written is read as the same. -/
theorem contentHeader_roundTrip {python : Interpreter} {classId bodySize : Nat} {props : Properties} (hclass : classId < 2 ^ 16)
    (hsize : bodySize < 2 ^ 64) (hprops : ∀ name value, props name = some value → PropertyFits python name.format value) :
    ∃ header, encodeContentHeader python classId bodySize props = .ok header ∧
      decodeContentHeader header = .ok ⟨classId, bodySize, props⟩ := by
  obtain ⟨⟨flags, body⟩, hbody⟩ := encodeProperties_of_fits hprops PropertyName.all
  have hwritten : encodeContentHeader python classId bodySize props =
      .ok (toBE 2 classId ++ toBE 2 0 ++ toBE 8 bodySize ++ toBE 2 flags ++ body) := by
    rw [encodeContentHeader, hbody, ok_bind]
    have hrawClass : toBytes 2 classId = .ok (toBE 2 classId) := toBytes_natCast_eq_ok.mpr ⟨hclass, rfl⟩
    have hrawSize : toBytes 8 bodySize = .ok (toBE 8 bodySize) := toBytes_natCast_eq_ok.mpr ⟨hsize, rfl⟩
    have hrawFlags : toBytes 2 flags = .ok (toBE 2 flags) := toBytes_natCast_eq_ok.mpr ⟨flags_lt hbody, rfl⟩
    simp only [hrawClass, hrawSize, hrawFlags, ok_bind, pure_eq_ok]
  refine ⟨_, hwritten, ?_⟩
  have hback : propertiesReadBack python props = true := by
    rw [propertiesReadBack, List.all_eq_true]
    intro name _
    split
    · rfl
    · exact readsBack_of_fits (hprops name _ ‹_›)
  rw [← toOption_eq_some, toOption_decodeContentHeader hwritten,
    (imageProperties_eq_some_iff_readsBack hbody).mpr hback, Option.map_some]

/-- A table in a list in a table. -/
def nestedHeaders : Table := [(Text.ofString "k", .list [.none, .dict [(Text.ofString "n", .int (-1))]])]

/-- A header with text, a table, an octet and a timestamp. -/
def fullHeader : Properties :=
  (((Properties.empty.set .contentType (.str (Text.ofString "text/plain"))).set .headers (.dict nestedHeaders)).set
    .deliveryMode (.int 2)).set .timestamp (.int (2 ^ 64 - 1))

theorem fullHeader_roundTrip : ∃ header, encodeContentHeader {} 60 5 fullHeader = .ok header ∧
    decodeContentHeader header = .ok ⟨60, 5, fullHeader⟩ := by
  refine contentHeader_roundTrip (by decide) (by decide) ?_
  intro name value hvalue
  cases name <;> cases hvalue
  · exact ⟨_, rfl, by decide +kernel⟩
  · have hsize : (encodeTable .default 0 nestedHeaders).toOption.any (fun enc => enc.length ≤ defaultFrameMax) = true := by
      decide +kernel
    obtain ⟨enc, henc, hle⟩ := (Option.any_eq_true _ _).mp hsize
    exact ⟨by decide +kernel, by decide +kernel, enc, toOption_eq_some.mp henc, of_decide_eq_true hle⟩
  · exact ⟨by decide, by decide⟩
  · exact ⟨by decide, by decide⟩

end Protocol

end Nuropb
