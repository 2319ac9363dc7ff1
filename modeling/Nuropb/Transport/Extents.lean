import Nuropb.Transport.FieldLayout

/-! # What a declared extent confines

The readers bound an inner read by the whole buffer and not by the table or array around it. Two
buffers that share a declared extent are read alike when nothing in it runs past its end.
-/
namespace Nuropb.Transport

open Library

/-! ## Buffers that share octets -/

/-- Both buffers reach to `hi`, and hold the same octets from `lo` to `hi`. -/
structure Shares (a b : Bytes) (lo hi : Nat) : Prop where
  left : hi ≤ a.length
  right : hi ≤ b.length
  octets : slice a lo hi = slice b lo hi

theorem slice_slice (data : Bytes) {lo hi i j : Nat} (hlo : lo ≤ i) (hhi : j ≤ hi) :
    slice (slice data lo hi) (i - lo) (j - lo) = slice data i j := by
  unfold slice
  rw [List.drop_take, List.drop_drop, List.take_take]
  congr 1
  · omega
  · congr 1
    omega

theorem getD_eq_slice (data : Bytes) {i : Nat} (h : i < data.length) : data.getD i 0 = (slice data i (i + 1)).getD 0 0 := by
  simp [slice, List.getD, h]

section Sharing

variable {a b : Bytes} {lo hi i j : Nat}

theorem Shares.slice (h : Shares a b lo hi) (hlo : lo ≤ i) (hhi : j ≤ hi) :
    Library.slice a i j = Library.slice b i j := by
  rw [← slice_slice a hlo hhi, h.octets, slice_slice b hlo hhi]

theorem Shares.getD (h : Shares a b lo hi) (hlo : lo ≤ i) (hhi : i < hi) : a.getD i 0 = b.getD i 0 := by
  have hleft := h.left
  have hright := h.right
  rw [getD_eq_slice a (by omega), getD_eq_slice b (by omega), h.slice hlo hhi]

theorem Shares.symm (h : Shares a b lo hi) : Shares b a lo hi := ⟨h.right, h.left, h.octets.symm⟩

end Sharing

/-! ## What the readers have looked at -/

section Readers

variable {data : Bytes} {offset next : Nat}

theorem decodeFixed_eq_ok {n : Nat} {what : String} {f : Bytes → PyVal} {value : PyVal} :
    decodeFixed data offset n what f = .ok (value, next) ↔
      offset + n ≤ data.length ∧ f (slice data offset (offset + n)) = value ∧ offset + n = next := by
  simp only [decodeFixed, bind_eq_ok, raiseIf_eq_ok, exists_const, Nat.not_lt, pure_eq_ok, Except.ok.injEq, Prod.mk.injEq]

theorem decodeShortstr_eq_ok {t : Text} :
    decodeShortstr data offset = .ok (t, next) ↔
      offset < data.length ∧ next ≤ data.length ∧ decodeUtf8 (slice data (offset + 1) next) = .ok t ∧
        offset + 1 + (data.getD offset 0).toNat = next := by
  simp only [decodeShortstr, bind_eq_ok, raiseIf_eq_ok, exists_const, Nat.not_lt, Nat.not_le, pure_eq_ok, Except.ok.injEq,
    Prod.mk.injEq]
  constructor
  · rintro ⟨hoffset, hnext, _, ht, rfl, rfl⟩
    exact ⟨hoffset, hnext, ht, rfl⟩
  · rintro ⟨hoffset, hnext, ht, rfl⟩
    exact ⟨hoffset, hnext, _, ht, rfl, rfl⟩

theorem decodeLongstr_eq_ok {raw : Bytes} :
    decodeLongstr data offset = .ok (raw, next) ↔
      next ≤ data.length ∧ ofBE (slice data offset (offset + 4)) ≤ defaultFrameMax ∧ slice data (offset + 4) next = raw ∧
        offset + 4 + ofBE (slice data offset (offset + 4)) = next := by
  simp only [decodeLongstr, bind_eq_ok, raiseIf_eq_ok, exists_const, Nat.not_lt, pure_eq_ok, Except.ok.injEq, Prod.mk.injEq]
  constructor
  · rintro ⟨-, hsize, hnext, rfl, rfl⟩
    exact ⟨hnext, hsize, rfl, rfl⟩
  · rintro ⟨hnext, hsize, rfl, rfl⟩
    exact ⟨by omega, hsize, hnext, rfl, rfl⟩

theorem decodeExtent_eq_ok {what : String} :
    decodeExtent data offset what = .ok next ↔
      next ≤ data.length ∧ ofBE (slice data offset (offset + 4)) ≤ defaultFrameMax ∧
        offset + 4 + ofBE (slice data offset (offset + 4)) = next := by
  simp only [decodeExtent, bind_eq_ok, raiseIf_eq_ok, exists_const, Nat.not_lt, pure_eq_ok, Except.ok.injEq]
  constructor
  · rintro ⟨-, hsize, hnext, rfl⟩
    exact ⟨hnext, hsize, rfl⟩
  · rintro ⟨hnext, hsize, rfl⟩
    exact ⟨by omega, hsize, hnext, rfl⟩

end Readers

section Locality

variable {a b : Bytes} {lo hi offset next : Nat}

theorem decodeFixed_shared (h : Shares a b lo hi) (hlo : lo ≤ offset) (hhi : next ≤ hi) {n : Nat} {what : String}
    {f : Bytes → PyVal} {value : PyVal} (hok : decodeFixed a offset n what f = .ok (value, next)) :
    decodeFixed b offset n what f = .ok (value, next) := by
  have hright := h.right
  obtain ⟨-, hvalue, rfl⟩ := decodeFixed_eq_ok.mp hok
  rw [h.slice hlo hhi] at hvalue
  exact decodeFixed_eq_ok.mpr ⟨by omega, hvalue, rfl⟩

theorem decodeShortstr_shared (h : Shares a b lo hi) (hlo : lo ≤ offset) (hhi : next ≤ hi) {t : Text}
    (hok : decodeShortstr a offset = .ok (t, next)) : decodeShortstr b offset = .ok (t, next) := by
  have hright := h.right
  obtain ⟨-, -, ht, hnext⟩ := decodeShortstr_eq_ok.mp hok
  rw [h.slice (Nat.le_succ_of_le hlo) hhi] at ht
  rw [h.getD hlo (by omega)] at hnext
  exact decodeShortstr_eq_ok.mpr ⟨by omega, by omega, ht, hnext⟩

theorem decodeLongstr_shared (h : Shares a b lo hi) (hlo : lo ≤ offset) (hhi : next ≤ hi) {raw : Bytes}
    (hok : decodeLongstr a offset = .ok (raw, next)) : decodeLongstr b offset = .ok (raw, next) := by
  have hright := h.right
  obtain ⟨-, hsize, hraw, hnext⟩ := decodeLongstr_eq_ok.mp hok
  rw [h.slice hlo (by omega)] at hsize hnext
  rw [h.slice (by omega) hhi] at hraw
  exact decodeLongstr_eq_ok.mpr ⟨by omega, hsize, hraw, hnext⟩

theorem decodeExtent_shared (h : Shares a b lo hi) (hlo : lo ≤ offset) (hhi : next ≤ hi) {what : String}
    (hok : decodeExtent a offset what = .ok next) : decodeExtent b offset what = .ok next := by
  have hright := h.right
  obtain ⟨-, hsize, hnext⟩ := decodeExtent_eq_ok.mp hok
  rw [h.slice hlo (by omega)] at hsize hnext
  exact decodeExtent_eq_ok.mpr ⟨by omega, hsize, hnext⟩

end Locality

/-! ## Walks in which nothing runs past its end -/

theorem exact_andThen {w : Walk} {f : Nat → Walk} {next : Nat} (h : w.next = some next) :
    (w.andThen f).exact = (w.exact && (f next).exact) := by
  simp [Walk.andThen, h, Walk.exact]

theorem le_of_walkItems_exact {walk : Nat → Walk} {stop rounds pos : Nat}
    (h : (walkItems walk stop rounds pos).exact = true) : pos ≤ stop := by
  cases rounds with
  | zero =>
    have heq : pos = stop := by simpa [walkItems, Walk.exact, Mark.exact] using h
    exact heq.le
  | succ rounds =>
    rw [walkItems] at h
    split at h
    · omega
    · have heq : pos = stop := by simpa [Walk.exact, Mark.exact] using h
      exact heq.le

theorem le_of_walkEntries_exact {data : Bytes} {walk : Nat → Walk} {stop rounds pos : Nat}
    (h : (walkEntries data walk stop rounds pos).exact = true) : pos ≤ stop := by
  cases rounds with
  | zero =>
    have heq : pos = stop := by simpa [walkEntries, Walk.exact, Mark.exact] using h
    exact heq.le
  | succ rounds =>
    rw [walkEntries] at h
    split at h
    · omega
    · have heq : pos = stop := by simpa [Walk.exact, Mark.exact] using h
      exact heq.le

/-- A reader that has returned within `hi`, with nothing that runs past its end, returns the same of the
other buffer. -/
def ReadsAlike {α : Type} (lo hi : Nat) (read other : Nat → Except Exc (α × Nat)) (walk : Nat → Walk) : Prop :=
  ∀ offset value next, read offset = .ok (value, next) → (walk offset).exact = true → lo ≤ offset → next ≤ hi →
    other offset = .ok (value, next)

section Loops

variable {a b : Bytes} {lo hi stop rounds pos : Nat} {read other : Nat → Except Exc (PyVal × Nat)} {walk : Nat → Walk}

theorem decodeItems_alike (hread : ∀ offset, Follows EndsAt (read offset) (walk offset))
    (hmoves : ∀ offset next, (walk offset).next = some next → offset < next) (halike : ReadsAlike lo hi read other walk)
    {items result : List PyVal} (hok : decodeItems read stop rounds pos items = .ok result)
    (hexact : (walkItems walk stop rounds pos).exact = true) (hlo : lo ≤ pos) (hhi : stop ≤ hi) :
    decodeItems other stop rounds pos items = .ok result := by
  induction rounds generalizing pos items with
  | zero => exact hok
  | succ rounds ih =>
    rw [decodeItems] at hok ⊢
    rw [walkItems] at hexact
    split
    · rename_i hlt
      rw [if_pos hlt] at hok hexact
      obtain ⟨⟨item, next⟩, hitem, hrest⟩ := bind_eq_ok.mp hok
      obtain ⟨-, _, hnext, rfl⟩ := (hread pos).of_ok hitem
      have hafter := hmoves pos _ hnext
      rw [exact_andThen hnext, Bool.and_eq_true] at hexact
      have hwithin := le_of_walkItems_exact hexact.2
      rw [halike pos item next hitem hexact.1 hlo (hwithin.trans hhi)]
      exact ih hrest hexact.2 (by omega)
    · rename_i hend
      rwa [if_neg hend] at hok

theorem decodeEntries_alike (hshares : Shares a b lo hi) (hread : ∀ offset, Follows EndsAt (read offset) (walk offset))
    (hmoves : ∀ offset next, (walk offset).next = some next → offset < next) (halike : ReadsAlike lo hi read other walk)
    {entries result : Table} (hok : decodeEntries a read stop rounds pos entries = .ok result)
    (hexact : (walkEntries a walk stop rounds pos).exact = true) (hlo : lo ≤ pos) (hhi : stop ≤ hi) :
    decodeEntries b other stop rounds pos entries = .ok result := by
  induction rounds generalizing pos entries with
  | zero => exact hok
  | succ rounds ih =>
    rw [decodeEntries] at hok ⊢
    rw [walkEntries] at hexact
    split
    · rename_i hlt
      rw [if_pos hlt] at hok hexact
      obtain ⟨⟨key, afterKey⟩, hkey, hentry⟩ := bind_eq_ok.mp hok
      obtain ⟨⟨value, next⟩, hvalue, hrest⟩ := bind_eq_ok.mp hentry
      obtain ⟨-, _, hnextKey, rfl⟩ := (decodeShortstr_follows a pos).of_ok hkey
      obtain ⟨-, _, hnext, rfl⟩ := (hread _).of_ok hvalue
      have hafterKey := next_walkShortstr hnextKey
      have hafter := hmoves _ _ hnext
      rw [exact_andThen hnextKey, exact_andThen hnext, Bool.and_eq_true, Bool.and_eq_true] at hexact
      have hwithin := le_of_walkEntries_exact hexact.2.2
      dsimp only at hafterKey hafter
      rw [decodeShortstr_shared hshares hlo (by omega) hkey, ok_bind]
      dsimp only
      rw [halike afterKey value next hvalue hexact.2.1 (by omega) (hwithin.trans hhi)]
      exact ih hrest hexact.2.2 (by omega)
    · rename_i hend
      rwa [if_neg hend] at hok

end Loops

theorem decodeTagged_alike {a b : Bytes} {lo hi room offset next : Nat} {tag : Char} {value : PyVal} (hshares : Shares a b lo hi)
    (htable : ReadsAlike lo hi (decodeTable a room) (decodeTable b room) (walkTable a room))
    (hvalue : ReadsAlike lo hi (decodeFieldValue a room) (decodeFieldValue b room) (walkValue a room))
    (hok : decodeTagged a (decodeTable a room) (decodeFieldValue a room) tag offset = .ok (value, next))
    (hexact : (walkTagged a (walkTable a room) (walkValue a room) tag offset).exact = true) (hlo : lo ≤ offset)
    (hhi : next ≤ hi) : decodeTagged b (decodeTable b room) (decodeFieldValue b room) tag offset = .ok (value, next) := by
  unfold decodeTagged at hok ⊢
  split at hok
  all_goals first | exact decodeFixed_shared hshares hlo hhi hok | skip
  · exact hok
  · obtain ⟨⟨t, stop⟩, ht, hvalue⟩ := bind_eq_ok.mp hok
    cases hvalue
    rw [decodeShortstr_shared hshares hlo hhi ht]
    rfl
  · obtain ⟨⟨raw, stop⟩, hraw, hrest⟩ := bind_eq_ok.mp hok
    obtain ⟨t, ht, hvalue⟩ := bind_eq_ok.mp hrest
    cases hvalue
    rw [decodeLongstr_shared hshares hlo hhi hraw, ok_bind]
    dsimp only
    rw [ht]
    rfl
  · obtain ⟨⟨raw, stop⟩, hraw, hvalue⟩ := bind_eq_ok.mp hok
    cases hvalue
    rw [decodeLongstr_shared hshares hlo hhi hraw]
    rfl
  · obtain ⟨⟨entries, stop⟩, hentries, hvalue⟩ := bind_eq_ok.mp hok
    cases hvalue
    rw [htable offset entries next hentries hexact hlo hhi]
    rfl
  · obtain ⟨stop, hstop, hrest⟩ := bind_eq_ok.mp hok
    obtain ⟨items, hitems, hlist⟩ := bind_eq_ok.mp hrest
    obtain ⟨-, ended, hnext, hended⟩ := (decodeExtent_follows a offset "array").of_ok hstop
    subst hended
    cases hlist
    have hexact : (walkItems (walkValue a room) next (next - (offset + 4)) (offset + 4)).exact = true := by
      change ((walkExtent a offset).andThen _).exact = true at hexact
      rw [exact_andThen hnext, Bool.and_eq_true] at hexact
      exact hexact.2
    rw [decodeExtent_shared hshares hlo hhi hstop, ok_bind]
    dsimp only
    rw [decodeItems_alike (decodeFieldValue_follows a room) (fun _ _ h => (next_walkValue h).1) hvalue hitems hexact
      (by omega) hhi]
    rfl
  · cases hok

/-- What lies within the octets that both buffers hold is read alike. -/
theorem decode_alike {a b : Bytes} {lo hi : Nat} (hshares : Shares a b lo hi) (room : Nat) :
    ReadsAlike lo hi (decodeFieldValue a room) (decodeFieldValue b room) (walkValue a room) ∧
      ReadsAlike lo hi (decodeTable a room) (decodeTable b room) (walkTable a room) := by
  induction room with
  | zero => exact ⟨fun _ _ _ hok => (nomatch hok), fun _ _ _ hok => (nomatch hok)⟩
  | succ room ih =>
    constructor
    · intro offset value next hok hexact hlo hhi
      obtain ⟨-, _, hnext, rfl⟩ := (decodeFieldValue_follows a (room + 1) offset).of_ok hok
      have hmoves := next_walkValue hnext
      rw [decodeFieldValue] at hok ⊢
      obtain ⟨_, hthere, hrest⟩ := bind_eq_ok.mp hok
      rw [raiseIf_eq_ok] at hthere
      rw [walkValue, if_neg hthere] at hexact
      have hright := hshares.right
      dsimp only at hmoves hhi
      rw [raiseIf_of_not (by omega), ok_bind, ← hshares.getD hlo (by omega)]
      exact decodeTagged_alike hshares ih.2 ih.1 hrest hexact (by omega) hhi
    · intro offset entries next hok hexact hlo hhi
      rw [decodeTable] at hok ⊢
      obtain ⟨stop, hstop, hrest⟩ := bind_eq_ok.mp hok
      obtain ⟨table, htable, hvalue⟩ := bind_eq_ok.mp hrest
      cases hvalue
      obtain ⟨-, _, hnext, rfl⟩ := (decodeExtent_follows a offset "table").of_ok hstop
      rw [walkTable, exact_andThen hnext, Bool.and_eq_true] at hexact
      rw [decodeExtent_shared hshares hlo hhi hstop, ok_bind]
      dsimp only
      rw [decodeEntries_alike hshares (decodeFieldValue_follows a room) (fun _ _ h => (next_walkValue h).1) ih.1 htable hexact.2
        (by omega) hhi]
      rfl

/-! ## Confinement -/

/-- Where the content ends that is declared at `offset`. -/
def extentEnd (data : Bytes) (offset : Nat) : Nat := offset + 4 + ofBE (slice data offset (offset + 4))

/-- The buffers hold the same length and the same content at `offset`. -/
def SharesExtent (a b : Bytes) (offset : Nat) : Prop := Shares a b offset (extentEnd a offset)

/-- Both readers return the same or both fail, and what is returned ends where it is declared to. -/
structure ReadConfined {α : Type} (x y : Except Exc α) (v w : Walk) : Prop where
  same : x.toOption = y.toOption
  left : x.isOk = true → v.exact = true
  right : y.isOk = true → w.exact = true

/-- Nothing runs past its end where everything is there and can be read. -/
def Walk.Contained (w : Walk) : Prop := w.readable = true → w.next ≠ none → w.exact = true

theorem contained_of_exact {α : Type} {p : α → Nat → Prop} {x : Except Exc α} {w : Walk} (h : Follows p x w) :
    w.Contained ↔ (x.isOk = true → w.exact = true) := by
  constructor
  · intro hcontained hok
    cases x with
    | error e => cases hok
    | ok value =>
      obtain ⟨hread, next, hnext, -⟩ := h.of_ok rfl
      exact hcontained hread (by simp [hnext])
  · intro hexact hread hnext
    obtain ⟨next, hnext⟩ := Option.ne_none_iff_exists'.mp hnext
    obtain ⟨value, rfl, -⟩ := h.returns hread next hnext
    exact hexact rfl

/-- Two readers are confined exactly when both of their walks are contained, if they read alike. -/
theorem readConfined_iff {α : Type} {p : α → Nat → Prop} {x y : Except Exc α} {v w : Walk} (hx : Follows p x v) (hy : Follows p y w)
    (hxy : ∀ value, x = .ok value → v.exact = true → y = .ok value)
    (hyx : ∀ value, y = .ok value → w.exact = true → x = .ok value) :
    ReadConfined x y v w ↔ v.Contained ∧ w.Contained := by
  rw [contained_of_exact hx, contained_of_exact hy]
  constructor
  · rintro ⟨-, hleft, hright⟩
    exact ⟨hleft, hright⟩
  · rintro ⟨hleft, hright⟩
    refine ⟨?_, hleft, hright⟩
    cases x with
    | ok value => rw [hxy value rfl (hleft rfl)]
    | error e =>
      cases y with
      | ok value => cases hyx value rfl (hright rfl)
      | error e' => rfl

section Containers

variable {a b : Bytes} {offset next : Nat}

theorem extentEnd_shared (h : SharesExtent a b offset) : extentEnd b offset = extentEnd a offset := by
  unfold extentEnd
  rw [h.slice le_rfl (Nat.le_add_right _ _)]

theorem sharesExtent_symm (h : SharesExtent a b offset) : SharesExtent b a offset := by
  unfold SharesExtent
  rw [extentEnd_shared h]
  exact Shares.symm h

theorem next_eq_extentEnd (h : (walkExtent a offset).next = some next) : next = extentEnd a offset := by
  unfold walkExtent at h
  split at h
  · cases h
  · dsimp only at h
    split at h
    · cases h
    · split at h
      · cases h
      · exact (Option.some.inj h).symm

theorem decodeTable_alike (h : SharesExtent a b offset) {room : Nat} {result : Table × Nat}
    (hok : decodeTable a room offset = .ok result) (hexact : (walkTable a room offset).exact = true) :
    decodeTable b room offset = .ok result := by
  obtain ⟨-, _, hnext, rfl⟩ := (decodeTable_follows a room offset).of_ok hok
  have hend := next_eq_extentEnd (next_walkTable hnext)
  exact (decode_alike h room).2 offset result.1 result.2 hok hexact le_rfl hend.le

/-- An array behind its type octet. -/
structure SharesArray (a b : Bytes) (offset : Nat) : Prop where
  left : a[offset]? = some (tagByte 'A')
  right : b[offset]? = some (tagByte 'A')
  content : SharesExtent a b (offset + 1)

theorem slice_of_getElem? {data : Bytes} {stop : Nat} {octet : UInt8} (h : data[offset]? = some octet) (hstop : offset < stop) :
    slice data offset stop = octet :: slice data (offset + 1) stop := by
  obtain ⟨hlt, rfl⟩ := List.getElem?_eq_some_iff.mp h
  unfold slice
  rw [List.drop_eq_getElem_cons hlt, show stop - offset = stop - (offset + 1) + 1 by omega, List.take_succ_cons]

theorem SharesArray.shares (h : SharesArray a b offset) : Shares a b offset (extentEnd a (offset + 1)) := by
  have hbehind : offset < extentEnd a (offset + 1) := by
    unfold extentEnd
    omega
  refine ⟨h.content.left, h.content.right, ?_⟩
  rw [slice_of_getElem? h.left hbehind, slice_of_getElem? h.right hbehind, h.content.octets]

theorem next_walkArray (hocc : a[offset]? = some (tagByte 'A')) {room : Nat} (h : (walkValue a room offset).next = some next) :
    next = extentEnd a (offset + 1) := by
  obtain ⟨hlt, -⟩ := List.getElem?_eq_some_iff.mp hocc
  cases room with
  | zero => cases h
  | succ room =>
    have hoctet : Char.ofNat (a.getD offset 0).toNat = 'A' := by
      rw [List.getD, hocc]
      decide
    rw [walkValue, if_neg (Nat.not_le_of_lt hlt)] at h
    dsimp only at h
    rw [hoctet] at h
    obtain ⟨stop, hstop, hitems⟩ := next_andThen_eq_some.mp h
    cases next_walkItems hitems
    exact next_eq_extentEnd hstop

theorem decodeArray_alike (h : SharesArray a b offset) {room : Nat} {result : PyVal × Nat}
    (hok : decodeFieldValue a room offset = .ok result) (hexact : (walkValue a room offset).exact = true) :
    decodeFieldValue b room offset = .ok result := by
  obtain ⟨-, _, hnext, rfl⟩ := (decodeFieldValue_follows a room offset).of_ok hok
  have hend := next_walkArray h.left hnext
  exact (decode_alike h.shares room).1 offset result.1 result.2 hok hexact le_rfl hend.le

theorem SharesArray.symm (h : SharesArray a b offset) : SharesArray b a offset :=
  ⟨h.right, h.left, sharesExtent_symm h.content⟩

end Containers

/-- Tables and arrays are confined to the octets that they declare exactly when, in either buffer, nothing runs past
its end or something else is not well formed. -/
theorem containers_confined_iff (a b : Bytes) (room offset : Nat) :
    (SharesExtent a b offset →
      (ReadConfined (decodeTable a room offset) (decodeTable b room offset) (walkTable a room offset) (walkTable b room offset) ↔
        (walkTable a room offset).Contained ∧ (walkTable b room offset).Contained)) ∧
    (SharesArray a b offset →
      (ReadConfined (decodeFieldValue a room offset) (decodeFieldValue b room offset) (walkValue a room offset)
          (walkValue b room offset) ↔
        (walkValue a room offset).Contained ∧ (walkValue b room offset).Contained)) := by
  constructor
  · intro h
    apply readConfined_iff (decodeTable_follows a room offset) (decodeTable_follows b room offset)
    · exact fun _ => decodeTable_alike h
    · exact fun _ => decodeTable_alike (sharesExtent_symm h)
  · intro h
    apply readConfined_iff (decodeFieldValue_follows a room offset) (decodeFieldValue_follows b room offset)
    · exact fun _ => decodeArray_alike h
    · exact fun _ => decodeArray_alike h.symm

/-- A table with one entry, which is void, before octets that differ. -/
theorem voidEntry_confined :
    SharesExtent [0, 0, 0, 3, 1, 107, 86, 1] [0, 0, 0, 3, 1, 107, 86, 0] 0 ∧
      ReadConfined (decodeTable [0, 0, 0, 3, 1, 107, 86, 1] tableRoom 0) (decodeTable [0, 0, 0, 3, 1, 107, 86, 0] tableRoom 0)
        (walkTable [0, 0, 0, 3, 1, 107, 86, 1] tableRoom 0) (walkTable [0, 0, 0, 3, 1, 107, 86, 0] tableRoom 0) := by
  have hshares : SharesExtent [0, 0, 0, 3, 1, 107, 86, 1] [0, 0, 0, 3, 1, 107, 86, 0] 0 :=
    ⟨by decide, by decide, by decide⟩
  refine ⟨hshares, ((containers_confined_iff _ _ tableRoom 0).1 hshares).mpr ⟨?_, ?_⟩⟩
  · exact fun _ _ => by decide
  · exact fun _ _ => by decide

/-- The value of the only entry lies behind the end of the table. -/
theorem overrun_not_confined :
    ¬∀ a b : Bytes, ∀ offset, SharesExtent a b offset →
      ReadConfined (decodeTable a tableRoom offset) (decodeTable b tableRoom offset) (walkTable a tableRoom offset)
        (walkTable b tableRoom offset) := by
  intro h
  have hshares : SharesExtent [0, 0, 0, 3, 1, 107, 116, 1] [0, 0, 0, 3, 1, 107, 116, 0] 0 :=
    ⟨by decide, by decide, by decide⟩
  have hsame := (h _ _ 0 hshares).same
  have hkeys := congrArg (Option.map fun result => result.1.map fun entry => asInt entry.2) hsame
  revert hkeys
  decide +kernel

end Nuropb.Transport
