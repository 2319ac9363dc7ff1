import Nuropb.Transport.FieldTable

/-! # What a reader gets for a written table

`wireImage` is the value that reading yields for a value that was written, or none where the
reader refuses it. Most values are their own image; decimals and times are not, and deep or
long values are refused.
-/
namespace Nuropb.Transport

open Library

/-- A table reads back when a level is left for it and its content is not too long. -/
def imageOfTable (room : Nat) (parts : Except Exc Bytes) (image : Option Table) : Option Table :=
  if 0 < room ∧ (parts.toOption.getD []).length ≤ defaultFrameMax then image.map (assignAll [])
  else none

section Images

variable (context : Decimal.Context)

mutual

/-- The image of a value written at `depth`, for a reader with `room` levels left. -/
def wireImage (depth room : Nat) (value : PyVal) : Option PyVal :=
  if room = 0 then none
  else match value with
    | .str t => if (t.utf8.getD []).length ≤ defaultFrameMax then some (.str t) else none
    | .bytes b => if b.length ≤ defaultFrameMax then some (.bytes b) else none
    | .dict entries =>
      (imageOfTable (room - 1) (encodeEntries context (depth + 1) entries)
        (wireEntries (depth + 1) (room - 2) entries)).map .dict
    | .list items => (wireItems (depth + 1) (room - 1) items).map .list
    | .tuple items => (decimalPair items).map fun d => .tuple [.int (d.1 % 256), .int d.2]
    | .decimal negative coefficient exponent =>
      (decimalInteger context negative coefficient exponent).toOption.map fun value =>
        .tuple [.int ((-exponent).toNat % 256 : Nat), .int value]
    | .datetime posix => some (.int posix)
    | _ => some value

def wireEntries (depth room : Nat) : Table → Option Table
  | [] => some []
  | (key, value) :: rest =>
    (wireImage depth room value).bind fun v =>
      (wireEntries depth room rest).map ((key, v) :: ·)

def wireItems (depth room : Nat) : List PyVal → Option (List PyVal)
  | [] => some []
  | item :: rest =>
    (wireImage depth room item).bind fun v => (wireItems depth room rest).map (v :: ·)

end

def wireTable (depth room : Nat) (entries : Table) : Option Table :=
  imageOfTable room (encodeEntries context depth entries) (wireEntries context depth (room - 1) entries)

end Images

variable {context : Decimal.Context}

section Reading

variable (p s : Bytes)

theorem decodeFixed_append {raw : Bytes} {n : Nat} (h : raw.length = n) (what : String)
    (f : Bytes → PyVal) :
    decodeFixed (p ++ (raw ++ s)) p.length n what f = .ok (f raw, p.length + n) := by
  have hlen : ¬(p ++ (raw ++ s)).length < p.length + n := by
    simp only [List.length_append]
    omega
  simp only [decodeFixed, raiseIf_of_not hlen, ok_bind, slice_append_of_length p raw s h, pure_eq_ok]

theorem decodeFieldValue_append (c : Char) (hc : c.toNat < 256) (rest : Bytes) (room : Nat) :
    decodeFieldValue (p ++ tagByte c :: rest) (room + 1) p.length =
      decodeTagged (p ++ tagByte c :: rest) (decodeTable (p ++ tagByte c :: rest) room)
        (decodeFieldValue (p ++ tagByte c :: rest) room) c (p.length + 1) := by
  have hlen : ¬(p ++ tagByte c :: rest).length ≤ p.length := by simp
  have htag : Char.ofNat ((p ++ tagByte c :: rest).getD p.length 0).toNat = c := by
    have hbyte : (tagByte c).toNat = c.toNat := by
      simpa [tagByte] using Nat.mod_eq_of_lt hc
    simp [hbyte]
  simp only [decodeFieldValue, raiseIf_of_not hlen, ok_bind, htag]

theorem toOption_decodeExtent {parts : Bytes} (h : parts.length < 256 ^ 4) (what : String) :
    (decodeExtent (p ++ (toBE 4 parts.length ++ (parts ++ s))) p.length what).toOption =
      if parts.length ≤ defaultFrameMax then some (p.length + 4 + parts.length) else none := by
  have hcount : ofBE (slice (p ++ (toBE 4 parts.length ++ (parts ++ s))) p.length (p.length + 4)) =
      parts.length := by
    rw [slice_append_of_length p _ _ (length_toBE 4 _), ofBE_toBE h]
  have hsize : (p ++ (toBE 4 parts.length ++ (parts ++ s))).length =
      p.length + 4 + parts.length + s.length := by
    simp only [List.length_append, length_toBE]
    omega
  simp only [decodeExtent, hsize, hcount, ok_bind, pure_eq_ok,
    raiseIf_of_not (show ¬p.length + 4 + parts.length + s.length < p.length + 4 by omega),
    raiseIf_of_not (show ¬p.length + 4 + parts.length + s.length < p.length + 4 + parts.length by
      omega)]
  by_cases hle : parts.length ≤ defaultFrameMax
  · rw [raiseIf_of_not (Nat.not_lt.mpr hle), if_pos hle]
    rfl
  · rw [raiseIf_of (Nat.lt_of_not_le hle), if_neg hle]
    rfl

end Reading

/-! ## A written value takes at least its type octet -/

theorem length_pos_of_encodeInteger {n : Int} {enc : Bytes} (h : encodeInteger n = .ok enc) :
    0 < enc.length := by
  unfold encodeInteger at h
  split at h
  all_goals
    obtain ⟨raw, -, henc⟩ := bind_eq_ok.mp h
    cases henc
    simp

theorem length_pos_of_encodeDecimalPair {scale value : Int} {enc : Bytes}
    (h : encodeDecimalPair scale value = .ok enc) : 0 < enc.length := by
  obtain ⟨raw, -, henc⟩ := bind_eq_ok.mp h
  cases henc
  simp

theorem encodeDecimal_eq_ok {context : Decimal.Context} {negative : Bool} {coefficient : Nat} {exponent : Int} {enc : Bytes}
    (h : encodeDecimal context negative coefficient exponent = .ok enc) :
    ∃ value, decimalInteger context negative coefficient exponent = .ok value ∧
      encodeDecimalPair (-exponent).toNat value = .ok enc := by
  obtain ⟨value, hvalue, h⟩ := bind_eq_ok.mp h
  obtain ⟨_, -, henc⟩ := bind_eq_ok.mp h
  exact ⟨value, hvalue, henc⟩

theorem length_pos_of_encodeFieldValue {depth : Nat} {value : PyVal} {enc : Bytes}
    (h : encodeFieldValue context depth value = .ok enc) : 0 < enc.length := by
  rw [encodeFieldValue.eq_def] at h
  obtain ⟨-, -, h⟩ := bind_eq_ok.mp h
  cases value with
  | int n => exact length_pos_of_encodeInteger h
  | decimal negative coefficient exponent =>
    obtain ⟨value, -, henc⟩ := encodeDecimal_eq_ok h
    exact length_pos_of_encodeDecimalPair henc
  | tuple items =>
    cases hpair : decimalPair items with
    | none => simp [hpair] at h
    | some d =>
      simp only [hpair] at h
      exact length_pos_of_encodeDecimalPair h
  | decimalSpecial nan => cases h
  | object => cases h
  | _ =>
    simp only [bind_eq_ok, pure_eq_ok, Except.ok.injEq] at h
    grind

/-! ## Loops over what was written -/

/-- Reading yields the image of every value that a list of values was written from. -/
def ReadsImages (context : Decimal.Context) (depth room : Nat) (value : PyVal) : Prop :=
  ∀ enc p s, encodeFieldValue context depth value = .ok enc →
    (decodeFieldValue (p ++ (enc ++ s)) room p.length).toOption =
      (wireImage context depth room value).map fun w => (w, p.length + enc.length)

theorem toOption_decodeItems {depth room rounds : Nat} {items : List PyVal} {parts : Bytes}
    (hreads : ∀ v ∈ items, ReadsImages context depth room v) (henc : encodeItems context depth items = .ok parts)
    (hrounds : parts.length ≤ rounds) (p s : Bytes) (acc : List PyVal) :
    (decodeItems (decodeFieldValue (p ++ (parts ++ s)) room) (p.length + parts.length) rounds
      p.length acc).toOption = (wireItems context depth room items).map (acc ++ ·) := by
  induction items generalizing parts rounds p acc with
  | nil =>
    cases henc
    cases rounds <;> simp [decodeItems, wireItems]
  | cons item rest ih =>
    rw [encodeItems] at henc
    obtain ⟨raw, hraw, henc⟩ := bind_eq_ok.mp henc
    obtain ⟨tail, htail, henc⟩ := bind_eq_ok.mp henc
    cases henc
    have hpos := length_pos_of_encodeFieldValue hraw
    rw [List.length_append] at hrounds
    obtain ⟨rounds, rfl⟩ : ∃ n, rounds = n + 1 := ⟨rounds - 1, by omega⟩
    have hitem := hreads item List.mem_cons_self raw p (tail ++ s) hraw
    rw [decodeItems, if_pos (by rw [List.length_append]; omega), toOption_bind, wireItems,
      List.append_assoc, hitem]
    cases wireImage context depth room item with
    | none => rfl
    | some w =>
      have hrest := ih (fun v hv => hreads v (List.mem_cons_of_mem _ hv)) htail
        (show tail.length ≤ rounds by omega) (p ++ raw) (acc ++ [w])
      rw [List.append_assoc, List.length_append] at hrest
      simp only [Option.map_some, Option.bind_some, List.length_append, ← Nat.add_assoc, hrest,
        Option.map_map, Function.comp_def, List.append_assoc, List.singleton_append]

theorem toOption_decodeEntries {depth room rounds : Nat} {entries : Table} {parts : Bytes}
    (hreads : ∀ e ∈ entries, ReadsImages context depth room e.2)
    (henc : encodeEntries context depth entries = .ok parts) (hrounds : parts.length ≤ rounds)
    (p s : Bytes) (acc : Table) :
    (decodeEntries (p ++ (parts ++ s)) (decodeFieldValue (p ++ (parts ++ s)) room)
      (p.length + parts.length) rounds p.length acc).toOption =
      (wireEntries context depth room entries).map (assignAll acc) := by
  induction entries generalizing parts rounds p acc with
  | nil =>
    cases henc
    cases rounds <;> simp [decodeEntries, wireEntries]
  | cons entry rest ih =>
    obtain ⟨key, value⟩ := entry
    rw [encodeEntries] at henc
    obtain ⟨rawKey, hkey, henc⟩ := bind_eq_ok.mp henc
    obtain ⟨raw, hraw, henc⟩ := bind_eq_ok.mp henc
    obtain ⟨tail, htail, henc⟩ := bind_eq_ok.mp henc
    cases henc
    have hpos := length_pos_of_encodeFieldValue hraw
    simp only [List.length_append] at hrounds
    obtain ⟨rounds, rfl⟩ : ∃ n, rounds = n + 1 := ⟨rounds - 1, by omega⟩
    have hdecoded := decodeShortstr_encodeShortstr hkey p (raw ++ (tail ++ s))
    have hvalue := hreads _ List.mem_cons_self raw (p ++ rawKey) (tail ++ s) hraw
    simp only [List.append_assoc, List.length_append] at hvalue
    rw [decodeEntries, if_pos (by simp only [List.length_append]; omega), wireEntries]
    simp only [List.append_assoc, hdecoded, ok_bind, toOption_bind, hvalue]
    cases wireImage context depth room value with
    | none => rfl
    | some w =>
      have hrest := ih (fun e he => hreads e (List.mem_cons_of_mem _ he)) htail
        (show tail.length ≤ rounds by omega) (p ++ (rawKey ++ raw)) (assign key w acc)
      simp only [List.append_assoc, List.length_append, ← Nat.add_assoc] at hrest
      simp only [Option.map_some, Option.bind_some, List.length_append, ← Nat.add_assoc, hrest,
        Option.map_map, Function.comp_def, assignAll_cons]

/-! ## The round trip -/

theorem toOption_decodeTable_of_entries {depth room : Nat} {entries : Table} {enc : Bytes}
    (hreads : ∀ e ∈ entries, ReadsImages context depth (room - 1) e.2)
    (henc : tableOf depth (encodeEntries context depth entries) = .ok enc) (p s : Bytes) :
    (decodeTable (p ++ (enc ++ s)) room p.length).toOption =
      (wireTable context depth room entries).map fun t => (t, p.length + enc.length) := by
  obtain ⟨-, -, henc⟩ := bind_eq_ok.mp henc
  obtain ⟨parts, hparts, henc⟩ := bind_eq_ok.mp henc
  obtain ⟨size, hsize, henc⟩ := bind_eq_ok.mp henc
  cases henc
  obtain ⟨hlt, rfl⟩ := toBytes_natCast_eq_ok.mp hsize
  cases room with
  | zero => rfl
  | succ room =>
    have hextent := toOption_decodeExtent p s hlt "table"
    have hentries := toOption_decodeEntries hreads hparts le_rfl (p ++ toBE 4 parts.length) s []
    simp only [List.append_assoc, List.length_append, length_toBE] at hentries
    simp only [decodeTable, toOption_bind, List.append_assoc, hextent, wireTable, imageOfTable,
      hparts, toOption_ok, Option.getD_some, Nat.zero_lt_succ, true_and]
    split
    · simp only [Nat.add_sub_cancel] at hentries ⊢
      rw [Option.bind_some, Nat.add_sub_cancel_left, hentries]
      cases wireEntries context depth room entries <;> simp [Nat.add_assoc]
    · rfl

section Values

variable {depth room : Nat} {enc : Bytes} (p s : Bytes)

theorem length_snoc_tag (c : Char) (raw : Bytes) :
    (p ++ [tagByte c]).length + raw.length = p.length + (tagByte c :: raw).length := by
  simp
  omega

theorem decodeFieldValue_cons (c : Char) (hc : c.toNat < 256) (raw : Bytes) :
    decodeFieldValue (p ++ (tagByte c :: raw ++ s)) (room + 1) p.length =
      decodeTagged (p ++ [tagByte c] ++ (raw ++ s))
        (decodeTable (p ++ [tagByte c] ++ (raw ++ s)) room)
        (decodeFieldValue (p ++ [tagByte c] ++ (raw ++ s)) room) c (p ++ [tagByte c]).length := by
  have hassoc : p ++ [tagByte c] ++ (raw ++ s) = p ++ tagByte c :: (raw ++ s) := by simp
  rw [List.cons_append, decodeFieldValue_append p c hc, hassoc, List.length_append,
    List.length_singleton]

theorem decodeFieldValue_fixed (c : Char) (hc : c.toNat < 256) {n : Nat} {what : String}
    {f : Bytes → PyVal} (htag : ∀ data table value pos,
      decodeTagged data table value c pos = decodeFixed data pos n what f)
    {raw : Bytes} (hraw : raw.length = n) :
    decodeFieldValue (p ++ (tagByte c :: raw ++ s)) (room + 1) p.length =
      .ok (f raw, p.length + (tagByte c :: raw).length) := by
  rw [decodeFieldValue_cons p s c hc, htag, decodeFixed_append _ s hraw, ← hraw, length_snoc_tag]

theorem decodeFieldValue_encodeDecimalPair {scale value : Int}
    (henc : encodeDecimalPair scale value = .ok enc) :
    decodeFieldValue (p ++ (enc ++ s)) (room + 1) p.length =
      .ok (.tuple [.int (scale % 256), .int value], p.length + enc.length) := by
  obtain ⟨raw, hraw, henc⟩ := bind_eq_ok.mp henc
  obtain ⟨hlow, hhigh, rfl⟩ := toBytesSigned_eq_ok.mp hraw
  cases henc
  rw [decodeFieldValue_fixed p s 'D' (by decide) (fun _ _ _ _ => rfl) (by simp)]
  have hscale : max (scale % 256) 0 % 256 = scale % 256 := by omega
  simp [decimalOf, unsignedOf, signedOf, ofBE, hscale, ofBESigned_toBESigned hlow hhigh]

theorem decodeFieldValue_encodeInteger {n : Int} (henc : encodeInteger n = .ok enc) :
    decodeFieldValue (p ++ (enc ++ s)) (room + 1) p.length =
      .ok (.int n, p.length + enc.length) := by
  unfold encodeInteger at henc
  split at henc
  · obtain ⟨raw, hraw, henc⟩ := bind_eq_ok.mp henc
    obtain ⟨hlow, hhigh, rfl⟩ := toBytesSigned_eq_ok.mp hraw
    cases henc
    rw [decodeFieldValue_fixed p s 'I' (by decide) (fun _ _ _ _ => rfl) (length_toBESigned 4 n),
      signedOf, ofBESigned_toBESigned hlow hhigh]
  · obtain ⟨raw, hraw, henc⟩ := bind_eq_ok.mp henc
    obtain ⟨hlow, hhigh, rfl⟩ := toBytesSigned_eq_ok.mp hraw
    cases henc
    rw [decodeFieldValue_fixed p s 'L' (by decide) (fun _ _ _ _ => rfl) (length_toBESigned 8 n),
      signedOf, ofBESigned_toBESigned hlow hhigh]

end Values

theorem readsImages_of_children {value : PyVal} {depth room : Nat}
    (hentries : ∀ entries, value = .dict entries →
      ∀ e ∈ entries, ReadsImages context (depth + 1) (room - 2) e.2)
    (hitems : ∀ items, value = .list items → ∀ v ∈ items, ReadsImages context (depth + 1) (room - 1) v) :
    ReadsImages context depth room value := by
  intro enc p s henc
  rw [wireImage.eq_def]
  rw [encodeFieldValue.eq_def] at henc
  obtain ⟨-, -, henc⟩ := bind_eq_ok.mp henc
  cases room with
  | zero => rfl
  | succ room =>
    rw [if_neg (Nat.succ_ne_zero room)]
    cases value with
    | none =>
      cases henc
      exact congrArg Except.toOption (decodeFieldValue_append p 'V' (by decide) s room)
    | bool b =>
      cases henc
      rw [decodeFieldValue_fixed p s 't' (by decide) (fun _ _ _ _ => rfl) rfl]
      cases b <;> rfl
    | int n =>
      rw [decodeFieldValue_encodeInteger p s henc]
      rfl
    | float bits =>
      cases henc
      rw [decodeFieldValue_fixed p s 'd' (by decide) (fun _ _ _ _ => rfl) (length_toBE 8 _), doubleOf,
        ofBE_toBE bits.toNat_lt, UInt64.ofNat_toNat]
      rfl
    | str t =>
      obtain ⟨raw, hraw, henc⟩ := bind_eq_ok.mp henc
      obtain ⟨long, hlong, henc⟩ := bind_eq_ok.mp henc
      cases henc
      rw [decodeFieldValue_cons p s 'S' (by decide), ← length_snoc_tag]
      simp only [decodeTagged, decodeLongstr_encodeLongstr hlong, toOption_bind, toOption_ite,
        utf8_of_encodeUtf8 hraw, Option.getD_some]
      split
      · simp [decodeUtf8_of_encodeUtf8 hraw]
      · rfl
    | bytes b =>
      obtain ⟨long, hlong, henc⟩ := bind_eq_ok.mp henc
      cases henc
      rw [decodeFieldValue_cons p s 'x' (by decide), ← length_snoc_tag]
      simp only [decodeTagged, decodeLongstr_encodeLongstr hlong, toOption_bind, toOption_ite]
      split <;> rfl
    | dict entries =>
      obtain ⟨table, htable, henc⟩ := bind_eq_ok.mp henc
      cases henc
      have hchildren : ∀ e ∈ entries, ReadsImages context (depth + 1) (room - 1) e.2 := hentries entries rfl
      rw [decodeFieldValue_cons p s 'F' (by decide), ← length_snoc_tag]
      simp only [decodeTagged, toOption_bind, toOption_decodeTable_of_entries hchildren htable]
      change _ = ((wireTable context (depth + 1) room entries).map PyVal.dict).map _
      cases wireTable context (depth + 1) room entries <;> rfl
    | tuple items =>
      cases hpair : decimalPair items with
      | none => simp [hpair] at henc
      | some d =>
        simp only [hpair] at henc
        rw [decodeFieldValue_encodeDecimalPair p s henc]
        simp [hpair]
    | list items =>
      obtain ⟨parts, hparts, henc⟩ := bind_eq_ok.mp henc
      obtain ⟨_, hceiling, henc⟩ := bind_eq_ok.mp henc
      obtain ⟨size, hsize, henc⟩ := bind_eq_ok.mp henc
      obtain ⟨hlt, rfl⟩ := toBytes_natCast_eq_ok.mp hsize
      cases henc
      rw [decodeFieldValue_cons p s 'A' (by decide), ← length_snoc_tag]
      have hextent := toOption_decodeExtent (p ++ [tagByte 'A']) s hlt "array"
      have hread := toOption_decodeItems (hitems items rfl) hparts le_rfl
        (p ++ [tagByte 'A'] ++ toBE 4 parts.length) s []
      rw [if_pos (Nat.not_lt.mp (raiseIf_eq_ok.mp hceiling))] at hextent
      have hstart : (p ++ [tagByte 'A'] ++ toBE 4 parts.length).length =
          (p ++ [tagByte 'A']).length + 4 := by
        rw [List.length_append, length_toBE]
      rw [List.append_assoc _ _ (parts ++ s), hstart] at hread
      simp only [decodeTagged, toOption_bind, List.append_assoc (toBE 4 _), hextent,
        Option.bind_some, Nat.add_sub_cancel_left]
      simp only [Nat.add_sub_cancel] at hread ⊢
      rw [hread]
      have hend : (p ++ [tagByte 'A']).length + 4 + parts.length =
          (p ++ [tagByte 'A']).length + (toBE 4 parts.length ++ parts).length := by
        simp only [List.length_append, length_toBE, Nat.add_assoc]
      rw [hend]
      cases wireItems context (depth + 1) room items <;> rfl
    | decimal negative coefficient exponent =>
      obtain ⟨value, hvalue, henc⟩ := encodeDecimal_eq_ok henc
      rw [decodeFieldValue_encodeDecimalPair p s henc]
      simp [hvalue]
    | decimalSpecial nan => cases henc
    | datetime posix =>
      obtain ⟨raw, hraw, henc⟩ := bind_eq_ok.mp henc
      obtain ⟨n, rfl⟩ := natCast_of_toBytes hraw
      obtain ⟨hlt, rfl⟩ := toBytes_natCast_eq_ok.mp hraw
      cases henc
      rw [decodeFieldValue_fixed p s 'T' (by decide) (fun _ _ _ _ => rfl) (length_toBE 8 _),
        unsignedOf, ofBE_toBE hlt]
      rfl
    | object => cases henc

/-- Reading what was written yields the image of the value, at every depth. -/
theorem readsImages (value : PyVal) : ∀ depth room, ReadsImages context depth room value := by
  induction value using PyVal.childrenInduction with
  | h v hentries hitems =>
    intro depth room
    refine readsImages_of_children ?_ ?_
    · intro entries heq e he
      exact hentries entries heq e he (depth + 1) (room - 2)
    · intro items heq x hx
      exact hitems items heq x hx (depth + 1) (room - 1)

theorem toOption_decodeTable {entries : Table} {enc : Bytes} (henc : encodeTable context 0 entries = .ok enc)
    (room : Nat) (p s : Bytes) :
    (decodeTable (p ++ (enc ++ s)) room p.length).toOption =
      (wireTable context 0 room entries).map fun t => (t, p.length + enc.length) :=
  toOption_decodeTable_of_entries (fun e _ => readsImages e.2 0 (room - 1)) henc p s

/-! ## The values that read back as they were written -/

/-- A level is left for the table, its keys differ, and its content is not too long. -/
def fitsTable (room : Nat) (entries : Table) (parts : Except Exc Bytes) : Bool :=
  decide (0 < room) && decide ((entries.map Prod.fst).Nodup) &&
    decide ((parts.toOption.getD []).length ≤ defaultFrameMax)

section Backs

variable (context)

mutual

/-- Neither a decimal nor a time, an exact decimal pair at most, nothing too long, no deeper than
the reader has levels. -/
def readsBack (depth room : Nat) (value : PyVal) : Bool :=
  decide (0 < room) && match value with
    | .str t => decide ((t.utf8.getD []).length ≤ defaultFrameMax)
    | .bytes b => decide (b.length ≤ defaultFrameMax)
    | .dict entries =>
      fitsTable (room - 1) entries (encodeEntries context (depth + 1) entries) &&
        entriesReadBack (depth + 1) (room - 2) entries
    | .list items => itemsReadBack (depth + 1) (room - 1) items
    | .tuple [.int scale, .int _] => decide (0 ≤ scale ∧ scale < 256)
    | .tuple _ | .decimal .. | .datetime _ => false
    | _ => true

def entriesReadBack (depth room : Nat) : Table → Bool
  | [] => true
  | (_, value) :: rest => readsBack depth room value && entriesReadBack depth room rest

def itemsReadBack (depth room : Nat) : List PyVal → Bool
  | [] => true
  | item :: rest => readsBack depth room item && itemsReadBack depth room rest

end

def tableReadsBack (depth room : Nat) (entries : Table) : Bool :=
  fitsTable room entries (encodeEntries context depth entries) && entriesReadBack context depth (room - 1) entries

end Backs

theorem wireEntries_keys {depth room : Nat} {entries image : Table}
    (h : wireEntries context depth room entries = some image) :
    image.map Prod.fst = entries.map Prod.fst := by
  induction entries generalizing image with
  | nil =>
    cases h
    rfl
  | cons entry rest ih =>
    obtain ⟨w, -, hrest⟩ := Option.bind_eq_some_iff.mp h
    obtain ⟨tail, htail, rfl⟩ := Option.map_eq_some_iff.mp hrest
    simp [ih htail]

/-- Entries come back when their keys are distinct and their values come back. -/
theorem assignAll_wireEntries_iff {depth room : Nat} {entries : Table} :
    (wireEntries context depth room entries).map (assignAll []) = some entries ↔
      (entries.map Prod.fst).Nodup ∧ wireEntries context depth room entries = some entries := by
  constructor
  · intro h
    obtain ⟨image, himage, hassign⟩ := Option.map_eq_some_iff.mp h
    have hkeys := wireEntries_keys himage
    have hnodup : (entries.map Prod.fst).Nodup := by
      rw [← hassign]
      exact nodup_assignAll List.nodup_nil
    have hsame : assignAll [] image = image :=
      assignAll_of_nodup (by rwa [List.nil_append, hkeys])
    exact ⟨hnodup, by rw [himage, ← hassign, hsame]⟩
  · rintro ⟨hnodup, h⟩
    rw [h, Option.map_some, assignAll_of_nodup (by simpa using hnodup), List.nil_append]

section Children

variable {depth room : Nat}

theorem wireEntries_eq_some_iff {entries : Table}
    (h : ∀ e ∈ entries, wireImage context depth room e.2 = some e.2 ↔ readsBack context depth room e.2) :
    wireEntries context depth room entries = some entries ↔ entriesReadBack context depth room entries := by
  induction entries with
  | nil => simp [wireEntries, entriesReadBack]
  | cons entry rest ih =>
    have hrest := ih fun e he => h e (List.mem_cons_of_mem _ he)
    have hfirst := h entry List.mem_cons_self
    rw [wireEntries, entriesReadBack, Bool.and_eq_true, ← hrest, ← hfirst]
    cases wireImage context depth room entry.2 <;> cases wireEntries context depth room rest <;> simp [Prod.ext_iff]

theorem wireItems_eq_some_iff {items : List PyVal}
    (h : ∀ v ∈ items, wireImage context depth room v = some v ↔ readsBack context depth room v) :
    wireItems context depth room items = some items ↔ itemsReadBack context depth room items := by
  induction items with
  | nil => simp [wireItems, itemsReadBack]
  | cons item rest ih =>
    have hrest := ih fun v hv => h v (List.mem_cons_of_mem _ hv)
    have hfirst := h item List.mem_cons_self
    rw [wireItems, itemsReadBack, Bool.and_eq_true, ← hrest, ← hfirst]
    cases wireImage context depth room item <;> cases wireItems context depth room rest <;> simp

theorem wireTable_eq_some_iff_of_children {entries : Table}
    (h : ∀ e ∈ entries, wireImage context depth (room - 1) e.2 = some e.2 ↔
      readsBack context depth (room - 1) e.2) :
    wireTable context depth room entries = some entries ↔ tableReadsBack context depth room entries := by
  simp only [wireTable, imageOfTable, tableReadsBack, fitsTable, Bool.and_eq_true, decide_eq_true_eq,
    ← wireEntries_eq_some_iff h]
  split
  · rename_i hroom
    rw [assignAll_wireEntries_iff]
    tauto
  · simp
    tauto

end Children

theorem tuple_image_iff {items : List PyVal} :
    ((decimalPair items).map fun d => PyVal.tuple [.int (d.1 % 256), .int d.2]) =
      some (.tuple items) ↔ ∃ scale value, items = [.int scale, .int value] ∧ 0 ≤ scale ∧ scale < 256 := by
  constructor
  · intro h
    obtain ⟨⟨scale, value⟩, hpair, heq⟩ := Option.map_eq_some_iff.mp h
    cases heq
    exact ⟨scale % 256, value, rfl, by omega, by omega⟩
  · rintro ⟨scale, value, rfl, hlow, hhigh⟩
    simp [decimalPair, asInt, Int.emod_eq_of_lt hlow hhigh]

/-- A value is its own image exactly when it is one that reads back. -/
theorem wireImage_eq_some_iff (value : PyVal) :
    ∀ depth room, wireImage context depth room value = some value ↔ readsBack context depth room value := by
  induction value using PyVal.childrenInduction with
  | h v hentries hitems =>
    intro depth room
    rw [wireImage.eq_def, readsBack.eq_def]
    cases room with
    | zero => simp
    | succ room =>
      rw [if_neg (Nat.succ_ne_zero room), decide_eq_true (Nat.succ_pos room), Bool.true_and]
      cases v with
      | dict entries =>
        have h := wireTable_eq_some_iff_of_children fun e he =>
          hentries entries rfl e he (depth + 1) (room - 1)
        change (wireTable context (depth + 1) room entries).map PyVal.dict = _ ↔
          tableReadsBack context (depth + 1) room entries = true
        rw [← h]
        simp
      | list items =>
        have h := wireItems_eq_some_iff fun x hx => hitems items rfl x hx (depth + 1) room
        simpa using h
      | tuple items =>
        rw [tuple_image_iff]
        constructor
        · rintro ⟨scale, value, rfl, hrange⟩
          exact decide_eq_true hrange
        · intro h
          split at h <;> grind
      | _ => simp

theorem wireTable_eq_some_iff {depth room : Nat} {entries : Table} :
    wireTable context depth room entries = some entries ↔ tableReadsBack context depth room entries :=
  wireTable_eq_some_iff_of_children fun e _ => wireImage_eq_some_iff e.2 depth (room - 1)

end Nuropb.Transport
