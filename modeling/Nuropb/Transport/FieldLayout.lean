import Nuropb.Transport.FieldTable

/-! # The layout of wire values

A walk goes over the octets of a value without reading them: it notes the texts that it comes to and
where the content of each table and array ends, and it stops at the first fault of the structure. The
decoders follow it.
-/
namespace Nuropb.Transport

open Library

/-- What a reader comes to. -/
inductive Mark
  | text (raw : Bytes)
  /-- An octet that is read by its index is not there. -/
  | missing
  /-- The last entry or item ends at `pos`; its table or array is declared to end at `stop`. -/
  | closes (pos stop : Nat)

/-- The text is UTF-8, or the octet is there. -/
def Mark.readable : Mark → Bool
  | text raw => (Text.ofUtf8 raw).isSome
  | missing => false
  | closes .. => true

def Mark.exact : Mark → Bool
  | closes pos stop => pos = stop
  | _ => true

/-- What is come to, and where that ends unless there is a fault. -/
structure Walk where
  marks : List Mark
  next : Option Nat

namespace Walk

def fault : Walk := ⟨[], none⟩

def upTo (next : Nat) : Walk := ⟨[], some next⟩

def andThen (w : Walk) (f : Nat → Walk) : Walk :=
  match w.next with
  | some next => ⟨w.marks ++ (f next).marks, (f next).next⟩
  | none => w

/-- Everything that is come to can be read. -/
def readable (w : Walk) : Bool := w.marks.all Mark.readable

/-- No entry and no item runs past its table or array. -/
def exact (w : Walk) : Bool := w.marks.all Mark.exact

end Walk

/-! ## Walking -/

def walkFixed (data : Bytes) (offset n : Nat) : Walk :=
  if data.length < offset + n then .fault else .upTo (offset + n)

def walkShortstr (data : Bytes) (offset : Nat) : Walk :=
  if data.length ≤ offset then .fault
  else
    let stop := offset + 1 + (data.getD offset 0).toNat
    if data.length < stop then .fault else ⟨[.text (slice data (offset + 1) stop)], some stop⟩

/-- A length of four octets, and what it announces. -/
def walkExtent (data : Bytes) (offset : Nat) : Walk :=
  if data.length < offset + 4 then .fault
  else
    let n := ofBE (slice data offset (offset + 4))
    if defaultFrameMax < n then .fault
    else if data.length < offset + 4 + n then .fault else .upTo (offset + 4 + n)

/-- A long string that is text. -/
def walkText (data : Bytes) (offset : Nat) : Walk :=
  (walkExtent data offset).andThen fun stop => ⟨[.text (slice data (offset + 4) stop)], some stop⟩

def walkItems (walk : Nat → Walk) (stop : Nat) : (rounds pos : Nat) → Walk
  | 0, pos => ⟨[.closes pos stop], some stop⟩
  | rounds + 1, pos =>
    if pos < stop then (walk pos).andThen fun next => walkItems walk stop rounds next
    else ⟨[.closes pos stop], some stop⟩

def walkEntries (data : Bytes) (walk : Nat → Walk) (stop : Nat) : (rounds pos : Nat) → Walk
  | 0, pos => ⟨[.closes pos stop], some stop⟩
  | rounds + 1, pos =>
    if pos < stop then
      (walkShortstr data pos).andThen fun afterKey =>
        (walk afterKey).andThen fun next => walkEntries data walk stop rounds next
    else ⟨[.closes pos stop], some stop⟩

def walkTagged (data : Bytes) (table value : Nat → Walk) (tag : Char) (pos : Nat) : Walk :=
  match tag with
  | 'V' => .upTo pos
  | 't' | 'b' | 'B' => walkFixed data pos 1
  | 'U' | 'u' => walkFixed data pos 2
  | 'i' | 'I' | 'f' => walkFixed data pos 4
  | 'l' | 'L' | 'd' | 'T' => walkFixed data pos 8
  | 'D' => walkFixed data pos 5
  | 's' => walkShortstr data pos
  | 'S' => walkText data pos
  | 'x' => walkExtent data pos
  | 'F' => table pos
  | 'A' => (walkExtent data pos).andThen fun stop => walkItems value stop (stop - (pos + 4)) (pos + 4)
  | _ => .fault

mutual

def walkValue (data : Bytes) : (room offset : Nat) → Walk
  | 0, _ => .fault
  | room + 1, offset =>
    if data.length ≤ offset then .fault
    else
      let tag := Char.ofNat (data.getD offset 0).toNat
      walkTagged data (walkTable data room) (walkValue data room) tag (offset + 1)

def walkTable (data : Bytes) : (room offset : Nat) → Walk
  | 0, _ => .fault
  | room + 1, offset =>
    (walkExtent data offset).andThen fun stop =>
      walkEntries data (walkValue data room) stop (stop - (offset + 4)) (offset + 4)

end

/-! ## Following -/

/-- The reader returns where the walk ends and raises a codec error at its fault, but another exception
where something cannot be read. -/
structure Follows {β : Type} (ends : β → Nat → Prop) (x : Except Exc β) (w : Walk) : Prop where
  returns : w.readable = true → ∀ next, w.next = some next → ∃ b, x = .ok b ∧ ends b next
  faults : w.readable = true → w.next = none → ∃ reason, x = .error (.amqpCodecError reason)
  raises : w.readable = false → ∃ e, x = .error e ∧ ∀ reason, e ≠ .amqpCodecError reason

/-- The reader returns, or raises a codec error. -/
def FailsWell {β : Type} (x : Except Exc β) : Prop := ∀ e, x = .error e → ∃ reason, e = .amqpCodecError reason

/-- The reader returns its value and the offset behind it. -/
def EndsAt {α : Type} (result : α × Nat) (next : Nat) : Prop := result.2 = next

section Rules

variable {α β : Type} {p : α → Nat → Prop} {q : β → Nat → Prop}

theorem follows_fault (q : β → Nat → Prop) (reason : String) : Follows q (.error (.amqpCodecError reason)) .fault where
  returns _ _ h := nomatch h
  faults _ _ := ⟨reason, rfl⟩
  raises h := nomatch h

theorem follows_upTo {b : β} {next : Nat} (h : q b next) : Follows q (.ok b) (.upTo next) where
  returns _ _ hnext := by
    cases hnext
    exact ⟨b, rfl, h⟩
  faults _ h := nomatch h
  raises h := nomatch h

theorem follows_raiseIf {c : Prop} [Decidable c] {f : Unit → Except Exc β} {w : Walk} (reason : String)
    (h : ¬c → Follows q (f ()) w) :
    Follows q (raiseIf c (.amqpCodecError reason) >>= f) (if c then .fault else w) := by
  by_cases hc : c
  · rw [raiseIf_of hc, error_bind, if_pos hc]
    exact follows_fault q reason
  · rw [raiseIf_of_not hc, ok_bind, if_neg hc]
    exact h hc

theorem readable_andThen {w : Walk} {f : Nat → Walk} {next : Nat} (h : w.next = some next) :
    (w.andThen f).readable = (w.readable && (f next).readable) := by
  simp [Walk.andThen, h, Walk.readable]

theorem next_andThen {w : Walk} {f : Nat → Walk} {next : Nat} (h : w.next = some next) :
    (w.andThen f).next = (f next).next := by
  simp [Walk.andThen, h]

theorem andThen_of_fault {w : Walk} (f : Nat → Walk) (h : w.next = none) : w.andThen f = w := by
  simp [Walk.andThen, h]

theorem andThen_assoc (w : Walk) (f g : Nat → Walk) : (w.andThen f).andThen g = w.andThen fun next => (f next).andThen g := by
  cases hnext : w.next with
  | none => rw [andThen_of_fault f hnext, andThen_of_fault g hnext, andThen_of_fault _ hnext]
  | some next =>
    cases hmid : (f next).next with
    | none => simp [Walk.andThen, hnext, hmid]
    | some mid => simp [Walk.andThen, hnext, hmid]

theorem follows_bind {x : Except Exc α} {f : α → Except Exc β} {w : Walk} {g : Nat → Walk} (hx : Follows p x w)
    (hf : ∀ a next, w.next = some next → p a next → Follows q (f a) (g next)) :
    Follows q (x >>= f) (w.andThen g) := by
  cases hnext : w.next with
  | none =>
    rw [andThen_of_fault g hnext]
    refine ⟨fun _ next h => (nomatch hnext.symm.trans h), fun hread _ => ?_, fun hread => ?_⟩
    · obtain ⟨reason, rfl⟩ := hx.faults hread hnext
      exact ⟨reason, rfl⟩
    · obtain ⟨e, rfl, he⟩ := hx.raises hread
      exact ⟨e, rfl, he⟩
  | some next =>
    have hboth := readable_andThen (f := g) hnext
    have hrest (hread : w.readable = true) : Follows q (x >>= f) (g next) := by
      obtain ⟨a, rfl, ha⟩ := hx.returns hread next hnext
      exact hf a next hnext ha
    refine ⟨fun h => ?_, fun h => ?_, fun h => ?_⟩
    · rw [hboth, Bool.and_eq_true] at h
      rw [next_andThen hnext]
      exact (hrest h.1).returns h.2
    · rw [hboth, Bool.and_eq_true] at h
      rw [next_andThen hnext]
      exact (hrest h.1).faults h.2
    · rw [hboth, Bool.and_eq_false_iff] at h
      cases hread : w.readable with
      | false =>
        obtain ⟨e, rfl, he⟩ := hx.raises hread
        exact ⟨e, rfl, he⟩
      | true => exact (hrest hread).raises (h.resolve_left (by simp [hread]))

theorem follows_map {x : Except Exc α} {f : α → Except Exc β} {w : Walk} (hx : Follows p x w)
    (hf : ∀ a next, p a next → ∃ b, f a = .ok b ∧ q b next) : Follows q (x >>= f) w where
  returns hread next hnext := by
    obtain ⟨a, rfl, ha⟩ := hx.returns hread next hnext
    exact hf a next ha
  faults hread hnext := by
    obtain ⟨reason, rfl⟩ := hx.faults hread hnext
    exact ⟨reason, rfl⟩
  raises hread := by
    obtain ⟨e, rfl, he⟩ := hx.raises hread
    exact ⟨e, rfl, he⟩

theorem decodeUtf8_follows (raw : Bytes) (stop : Nat) :
    Follows (fun _ next => next = stop) (decodeUtf8 raw) ⟨[.text raw], some stop⟩ := by
  unfold decodeUtf8
  cases htext : Text.ofUtf8 raw with
  | some t =>
    refine ⟨fun _ n hn => ?_, fun _ hn => (nomatch hn), fun hread => ?_⟩
    · cases hn
      exact ⟨t, rfl, rfl⟩
    · simp [Walk.readable, Mark.readable, htext] at hread
  | none =>
    refine ⟨fun hread => ?_, fun hread => ?_, fun _ => ⟨_, rfl, fun _ he => nomatch he⟩⟩
    · simp [Walk.readable, Mark.readable, htext] at hread
    · simp [Walk.readable, Mark.readable, htext] at hread

theorem follows_text (raw : Bytes) {f : Text → β} {stop : Nat} (h : ∀ t, q (f t) stop) :
    Follows q (do let t ← decodeUtf8 raw
                  return f t) ⟨[.text raw], some stop⟩ :=
  follows_map (decodeUtf8_follows raw stop) fun t _ hnext => ⟨f t, rfl, hnext ▸ h t⟩

/-- The reader fails only with codec errors exactly where everything it comes to can be read. -/
theorem Follows.iff_readable {x : Except Exc β} {w : Walk} (h : Follows q x w) :
    FailsWell x ↔ w.readable = true := by
  constructor
  · intro hcodec
    cases hread : w.readable with
    | true => rfl
    | false =>
      obtain ⟨e, he, hne⟩ := h.raises hread
      obtain ⟨reason, rfl⟩ := hcodec e he
      exact absurd rfl (hne reason)
  · intro hread e he
    cases hnext : w.next with
    | some next =>
      obtain ⟨b, hb, -⟩ := h.returns hread next hnext
      cases he.symm.trans hb
    | none =>
      obtain ⟨reason, hreason⟩ := h.faults hread hnext
      cases he.symm.trans hreason
      exact ⟨reason, rfl⟩

theorem Follows.of_ok {x : Except Exc β} {w : Walk} (h : Follows q x w) {b : β} (hok : x = .ok b) :
    w.readable = true ∧ ∃ next, w.next = some next ∧ q b next := by
  cases hread : w.readable with
  | false =>
    obtain ⟨e, he, -⟩ := h.raises hread
    cases hok.symm.trans he
  | true =>
    cases hnext : w.next with
    | none =>
      obtain ⟨reason, hreason⟩ := h.faults hread hnext
      cases hok.symm.trans hreason
    | some next =>
      obtain ⟨b', hb', hq⟩ := h.returns hread next hnext
      cases hok.symm.trans hb'
      exact ⟨rfl, next, rfl, hq⟩

end Rules

section Decoders

variable (data : Bytes)

theorem decodeFixed_follows (offset n : Nat) (what : String) (f : Bytes → PyVal) :
    Follows EndsAt (decodeFixed data offset n what f) (walkFixed data offset n) :=
  follows_raiseIf _ fun _ => follows_upTo rfl

theorem decodeShortstr_follows (offset : Nat) : Follows EndsAt (decodeShortstr data offset) (walkShortstr data offset) :=
  follows_raiseIf _ fun _ => follows_raiseIf _ fun _ => follows_text _ fun _ => rfl

theorem decodeLongstr_follows (offset : Nat) :
    Follows (fun result next => result.2 = next ∧ result.1 = slice data (offset + 4) next) (decodeLongstr data offset)
      (walkExtent data offset) :=
  follows_raiseIf _ fun _ => follows_raiseIf _ fun _ => follows_raiseIf _ fun _ => follows_upTo ⟨rfl, rfl⟩

theorem decodeExtent_follows (offset : Nat) (what : String) :
    Follows Eq (decodeExtent data offset what) (walkExtent data offset) :=
  follows_raiseIf _ fun _ => follows_raiseIf _ fun _ => follows_raiseIf _ fun _ => follows_upTo rfl

/-- A long string is read as text, and the reader goes on behind it. -/
theorem decodeText_bind_follows {β : Type} {q : β → Nat → Prop} (offset : Nat) (f : Text → Nat → Except Exc β)
    {g : Nat → Walk} (h : ∀ t next, Follows q (f t next) (g next)) :
    Follows q (do let (raw, next) ← decodeLongstr data offset
                  let t ← decodeUtf8 raw
                  f t next) ((walkText data offset).andThen g) := by
  rw [walkText, andThen_assoc]
  refine follows_bind (decodeLongstr_follows data offset) ?_
  rintro ⟨raw, stop⟩ next - ⟨hstop, hraw⟩
  dsimp only at hstop hraw
  subst hstop hraw
  refine follows_bind (decodeUtf8_follows _ _) ?_
  rintro t _ - rfl
  exact h t _

theorem decodeText_follows {β : Type} {q : β → Nat → Prop} (offset : Nat) {f : Text → Nat → β}
    (h : ∀ t next, q (f t next) next) :
    Follows q (do let (raw, next) ← decodeLongstr data offset
                  let t ← decodeUtf8 raw
                  return f t next) (walkText data offset) := by
  refine follows_bind (decodeLongstr_follows data offset) ?_
  rintro ⟨raw, stop⟩ next - ⟨hstop, hraw⟩
  dsimp only at hstop hraw
  subst hstop hraw
  exact follows_text _ fun t => h t _

theorem decodeItems_follows {decode : Nat → Except Exc (PyVal × Nat)} {walk : Nat → Walk}
    (h : ∀ pos, Follows EndsAt (decode pos) (walk pos)) (stop rounds pos : Nat) (items : List PyVal) :
    Follows (fun _ next => next = stop) (decodeItems decode stop rounds pos items) (walkItems walk stop rounds pos) := by
  have hends (items : List PyVal) (pos : Nat) :
      Follows (fun _ next => next = stop) (.ok items : Except Exc (List PyVal)) ⟨[.closes pos stop], some stop⟩ :=
    ⟨fun _ _ hnext => ⟨items, rfl, (Option.some.inj hnext).symm⟩, fun _ hnext => (nomatch hnext), fun hread => (nomatch hread)⟩
  induction rounds generalizing pos items with
  | zero => exact hends items pos
  | succ rounds ih =>
    rw [decodeItems, walkItems]
    split
    · refine follows_bind (h pos) ?_
      rintro ⟨item, next⟩ _ - rfl
      exact ih next _
    · exact hends items pos

theorem decodeEntries_follows {decode : Nat → Except Exc (PyVal × Nat)} {walk : Nat → Walk}
    (h : ∀ pos, Follows EndsAt (decode pos) (walk pos)) (stop rounds pos : Nat) (result : Table) :
    Follows (fun _ next => next = stop) (decodeEntries data decode stop rounds pos result)
      (walkEntries data walk stop rounds pos) := by
  have hends (result : Table) (pos : Nat) :
      Follows (fun _ next => next = stop) (.ok result : Except Exc Table) ⟨[.closes pos stop], some stop⟩ :=
    ⟨fun _ _ hnext => ⟨result, rfl, (Option.some.inj hnext).symm⟩, fun _ hnext => (nomatch hnext), fun hread => (nomatch hread)⟩
  induction rounds generalizing pos result with
  | zero => exact hends result pos
  | succ rounds ih =>
    rw [decodeEntries, walkEntries]
    split
    · refine follows_bind (decodeShortstr_follows data pos) ?_
      rintro ⟨key, afterKey⟩ _ - rfl
      refine follows_bind (h afterKey) ?_
      rintro ⟨value, next⟩ _ - rfl
      exact ih next _
    · exact hends result pos

theorem decodeTagged_follows {decodeT : Nat → Except Exc (Table × Nat)} {decodeV : Nat → Except Exc (PyVal × Nat)}
    {walkT walkV : Nat → Walk} (htable : ∀ pos, Follows EndsAt (decodeT pos) (walkT pos))
    (hvalue : ∀ pos, Follows EndsAt (decodeV pos) (walkV pos)) (tag : Char) (pos : Nat) :
    Follows EndsAt (decodeTagged data decodeT decodeV tag pos) (walkTagged data walkT walkV tag pos) := by
  unfold decodeTagged
  split
  all_goals first | exact decodeFixed_follows data pos _ _ _ | skip
  · exact follows_upTo rfl
  · exact follows_map (decodeShortstr_follows data pos) fun a _ h => ⟨_, rfl, h⟩
  · exact decodeText_follows data pos fun _ _ => rfl
  · exact follows_map (decodeLongstr_follows data pos) fun a _ h => ⟨_, rfl, h.1⟩
  · exact follows_map (htable pos) fun a _ h => ⟨_, rfl, h⟩
  · refine follows_bind (decodeExtent_follows data pos "array") ?_
    rintro stop _ - rfl
    exact follows_map (decodeItems_follows hvalue stop _ _ []) fun a next h => ⟨_, rfl, h.symm⟩
  · have hfault : walkTagged data walkT walkV tag pos = .fault := by
      unfold walkTagged
      split <;> first | rfl | contradiction
    rw [hfault]
    exact follows_fault EndsAt _

theorem decode_follows (room : Nat) :
    (∀ offset, Follows EndsAt (decodeFieldValue data room offset) (walkValue data room offset)) ∧
      ∀ offset, Follows EndsAt (decodeTable data room offset) (walkTable data room offset) := by
  induction room with
  | zero => exact ⟨fun _ => follows_fault EndsAt _, fun _ => follows_fault EndsAt _⟩
  | succ room ih =>
    constructor
    · intro offset
      rw [decodeFieldValue, walkValue]
      exact follows_raiseIf _ fun _ => decodeTagged_follows data ih.2 ih.1 _ _
    · intro offset
      rw [decodeTable, walkTable]
      refine follows_bind (decodeExtent_follows data offset "table") ?_
      rintro stop _ - rfl
      exact follows_map (decodeEntries_follows data ih.1 stop _ _ []) fun a next h => ⟨_, rfl, h.symm⟩

theorem decodeFieldValue_follows (room offset : Nat) :
    Follows EndsAt (decodeFieldValue data room offset) (walkValue data room offset) :=
  (decode_follows data room).1 offset

theorem decodeTable_follows (room offset : Nat) :
    Follows EndsAt (decodeTable data room offset) (walkTable data room offset) :=
  (decode_follows data room).2 offset

end Decoders

/-! ## Progress -/

section Progress

variable {data : Bytes} {room offset next : Nat}

theorem next_andThen_eq_some {w : Walk} {f : Nat → Walk} :
    (w.andThen f).next = some next ↔ ∃ mid, w.next = some mid ∧ (f mid).next = some next := by
  cases hnext : w.next with
  | none => simp [andThen_of_fault f hnext, hnext]
  | some mid => simp [next_andThen hnext]

theorem next_walkFixed {n : Nat} (h : (walkFixed data offset n).next = some next) :
    next = offset + n ∧ next ≤ data.length := by
  unfold walkFixed at h
  split at h
  · cases h
  · cases h
    omega

theorem next_walkShortstr (h : (walkShortstr data offset).next = some next) : offset < next ∧ next ≤ data.length := by
  unfold walkShortstr at h
  split at h
  · cases h
  · dsimp only at h
    split at h
    · cases h
    · cases h
      omega

theorem next_walkExtent (h : (walkExtent data offset).next = some next) : offset + 4 ≤ next ∧ next ≤ data.length := by
  unfold walkExtent at h
  split at h
  · cases h
  · dsimp only at h
    split at h
    · cases h
    · split at h
      · cases h
      · cases h
        omega

theorem next_walkText (h : (walkText data offset).next = some next) : offset + 4 ≤ next ∧ next ≤ data.length := by
  obtain ⟨stop, hstop, hnext⟩ := next_andThen_eq_some.mp h
  cases hnext
  exact next_walkExtent hstop

theorem next_walkItems {walk : Nat → Walk} {stop rounds pos : Nat}
    (h : (walkItems walk stop rounds pos).next = some next) : next = stop := by
  induction rounds generalizing pos with
  | zero => exact (Option.some.inj h).symm
  | succ rounds ih =>
    rw [walkItems] at h
    split at h
    · obtain ⟨mid, -, hnext⟩ := next_andThen_eq_some.mp h
      exact ih hnext
    · exact (Option.some.inj h).symm

theorem next_walkEntries {walk : Nat → Walk} {stop rounds pos : Nat}
    (h : (walkEntries data walk stop rounds pos).next = some next) : next = stop := by
  induction rounds generalizing pos with
  | zero => exact (Option.some.inj h).symm
  | succ rounds ih =>
    rw [walkEntries] at h
    split at h
    · obtain ⟨key, -, hkey⟩ := next_andThen_eq_some.mp h
      obtain ⟨mid, -, hnext⟩ := next_andThen_eq_some.mp hkey
      exact ih hnext
    · exact (Option.some.inj h).symm

theorem next_walkTable (h : (walkTable data room offset).next = some next) :
    (walkExtent data offset).next = some next := by
  cases room with
  | zero => cases h
  | succ room =>
    rw [walkTable] at h
    obtain ⟨stop, hstop, hnext⟩ := next_andThen_eq_some.mp h
    cases next_walkEntries hnext
    exact hstop

theorem next_walkValue (h : (walkValue data room offset).next = some next) : offset < next ∧ next ≤ data.length := by
  cases room with
  | zero => cases h
  | succ room =>
    rw [walkValue] at h
    split at h
    · cases h
    · rename_i hoffset
      dsimp only at h
      unfold walkTagged at h
      split at h
      all_goals first | (have hfixed := next_walkFixed h; omega) | skip
      · cases h
        omega
      · have hstr := next_walkShortstr h
        omega
      · have htext := next_walkText h
        omega
      · have hextent := next_walkExtent h
        omega
      · have hextent := next_walkExtent (next_walkTable h)
        omega
      · obtain ⟨stop, hstop, hitems⟩ := next_andThen_eq_some.mp h
        cases next_walkItems hitems
        have hextent := next_walkExtent hstop
        omega
      · cases h

theorem decodeFieldValue_progress {value : PyVal} (h : decodeFieldValue data room offset = .ok (value, next)) :
    offset < next := by
  obtain ⟨-, _, hnext, rfl⟩ := (decodeFieldValue_follows data room offset).of_ok h
  exact (next_walkValue hnext).1

theorem decodeShortstr_progress {key : Text} (h : decodeShortstr data offset = .ok (key, next)) : offset < next := by
  obtain ⟨-, _, hnext, rfl⟩ := (decodeShortstr_follows data offset).of_ok h
  exact (next_walkShortstr hnext).1

/-- The loop over items ends by itself: more rounds change nothing. -/
theorem decodeItems_rounds {decode : Nat → Except Exc (PyVal × Nat)}
    (h : ∀ pos item next, decode pos = .ok (item, next) → pos < next) {stop rounds pos : Nat}
    (hrounds : stop - pos ≤ rounds) (more : Nat) (items : List PyVal) :
    decodeItems decode stop (rounds + more) pos items = decodeItems decode stop rounds pos items := by
  induction rounds generalizing pos items with
  | zero =>
    have hend : ¬pos < stop := by omega
    cases more with
    | zero => rfl
    | succ more => rw [Nat.zero_add, decodeItems, decodeItems, if_neg hend]
  | succ rounds ih =>
    rw [Nat.succ_add, decodeItems, decodeItems]
    split
    · cases hitem : decode pos with
      | error e => rfl
      | ok result =>
        obtain ⟨item, next⟩ := result
        have hnext := h pos item next hitem
        exact ih (by omega) (items ++ [item])
    · rfl

/-- The loop over entries ends by itself: more rounds change nothing. -/
theorem decodeEntries_rounds {decode : Nat → Except Exc (PyVal × Nat)}
    (h : ∀ pos value next, decode pos = .ok (value, next) → pos < next) {stop rounds pos : Nat}
    (hrounds : stop - pos ≤ rounds) (more : Nat) (result : Table) :
    decodeEntries data decode stop (rounds + more) pos result = decodeEntries data decode stop rounds pos result := by
  induction rounds generalizing pos result with
  | zero =>
    have hend : ¬pos < stop := by omega
    cases more with
    | zero => rfl
    | succ more => rw [Nat.zero_add, decodeEntries, decodeEntries, if_neg hend]
  | succ rounds ih =>
    rw [Nat.succ_add, decodeEntries, decodeEntries]
    split
    · cases hkey : decodeShortstr data pos with
      | error e => rfl
      | ok result' =>
        obtain ⟨key, afterKey⟩ := result'
        have hafter := decodeShortstr_progress hkey
        rw [ok_bind, ok_bind]
        dsimp only
        cases hvalue : decode afterKey with
        | error e => rfl
        | ok result'' =>
          obtain ⟨value, next⟩ := result''
          have hnext := h afterKey value next hvalue
          exact ih (by omega) (assign key value result)
    · rfl

end Progress

end Nuropb.Transport
