import Nuropb.Protocol.ContentHeader
import Nuropb.Protocol.Methods
import Nuropb.Transport.FieldLayout

/-! # What the decoders raise

Frames fail only with codec errors. The other decoders let a text that is not UTF-8 raise by itself, and
read some octets by their index without a look at the length.
-/
namespace Nuropb.Protocol

open Library Transport

/-! ## Walking over methods and headers -/

/-- An octet that is read by its index. -/
def walkOctet (payload : Bytes) (offset : Nat) : Walk :=
  if offset < payload.length then .upTo (offset + 1) else ⟨[.missing], none⟩

def walkMethod (payload : Bytes) : Walk :=
  if payload.length < 4 then .fault
  else match (field payload 0 2, field payload 2 2) with
    | (10, 10) =>
      (walkOctet payload 4).andThen fun _ =>
        (walkOctet payload 5).andThen fun _ =>
          (walkTable payload tableRoom 6).andThen fun offset =>
            (walkText payload offset).andThen fun offset => walkText payload offset
    | (10, 20) | (20, 11) => walkExtent payload 4
    | (10, 41) | (10, 60) | (50, 11) | (60, 21) | (60, 31) => walkShortstr payload 4
    | (10, 50) | (20, 40) => walkShortstr payload 6
    | (60, 50) =>
      (walkShortstr payload 6).andThen fun offset =>
        (walkShortstr payload offset).andThen fun offset => walkShortstr payload offset
    | (60, 60) =>
      (walkShortstr payload 4).andThen fun offset =>
        (walkOctet payload (offset + 8)).andThen fun next =>
          (walkShortstr payload next).andThen fun next => walkShortstr payload next
    | _ => .upTo payload.length

def walkProperty (payload : Bytes) (offset : Nat) : PropertyFormat → Walk
  | .shortstr => walkShortstr payload offset
  | .table => walkTable payload tableRoom offset
  | .octet => walkOctet payload offset
  | .timestamp => walkFixed payload offset 8

def walkProperties (payload : Bytes) (flags : Nat) : List PropertyName → (offset : Nat) → Walk
  | [], offset => .upTo offset
  | name :: rest, offset =>
    if flags.testBit name.bit then
      (walkProperty payload offset name.format).andThen fun next => walkProperties payload flags rest next
    else walkProperties payload flags rest offset

def walkHeader (payload : Bytes) : Walk :=
  if payload.length < 14 then .fault
  else walkProperties payload (ofBE (slice payload 12 14)) PropertyName.all 14

/-! ## Following them -/

section Follow

variable (payload : Bytes)

/-- Nothing is said of what is returned. -/
def Anything {β : Type} (_ : β) (_ : Nat) : Prop := True

theorem octet_follows (offset : Nat) :
    Follows (fun _ next => next = offset + 1) (orRaise .indexError payload[offset]?) (walkOctet payload offset) := by
  unfold walkOctet
  split
  · rename_i hlt
    rw [List.getElem?_eq_getElem hlt, orRaise_some]
    exact follows_upTo rfl
  · rename_i hge
    rw [List.getElem?_eq_none (Nat.le_of_not_lt hge), orRaise_none]
    exact ⟨fun h => (nomatch h), fun h => (nomatch h), fun _ => ⟨.indexError, rfl, fun _ h => nomatch h⟩⟩

theorem decodeCloseArgs_follows : Follows Anything (decodeCloseArgs payload) (walkShortstr payload 6) :=
  follows_map (decodeShortstr_follows payload 6) fun _ _ _ => ⟨_, rfl, trivial⟩

theorem decodeMethod_follows : Follows Anything (decodeMethod payload) (walkMethod payload) := by
  refine follows_raiseIf _ fun _ => ?_
  have hshortstr {β : Type} (offset : Nat) {f : Text × Nat → Except Exc β} (hf : ∀ a, ∃ b, f a = .ok b) :
      Follows Anything (decodeShortstr payload offset >>= f) (walkShortstr payload offset) := by
    refine follows_map (decodeShortstr_follows payload offset) fun a _ _ => ?_
    obtain ⟨b, hb⟩ := hf a
    exact ⟨b, hb, trivial⟩
  have hlongstr {β : Type} (offset : Nat) {f : Bytes × Nat → Except Exc β} (hf : ∀ a, ∃ b, f a = .ok b) :
      Follows Anything (decodeLongstr payload offset >>= f) (walkExtent payload offset) := by
    refine follows_map (decodeLongstr_follows payload offset) fun a _ _ => ?_
    obtain ⟨b, hb⟩ := hf a
    exact ⟨b, hb, trivial⟩
  generalize (field payload 0 2, field payload 2 2) = ids
  split
  · refine follows_bind (octet_follows payload 4) fun versionMajor _ _ _ => ?_
    refine follows_bind (octet_follows payload 5) fun versionMinor _ _ _ => ?_
    refine follows_bind (decodeTable_follows payload tableRoom 6) ?_
    rintro ⟨serverProperties, offset⟩ _ - rfl
    exact decodeText_bind_follows (q := Anything) payload offset _ fun mechanisms offset =>
      decodeText_follows (q := Anything) payload offset (f := fun locales _ => Method.connectionStart
        versionMajor.toNat versionMinor.toNat serverProperties mechanisms locales) fun _ _ => trivial
  all_goals first
    | exact hshortstr _ fun _ => ⟨_, rfl⟩
    | exact hlongstr _ fun _ => ⟨_, rfl⟩
    | exact follows_upTo trivial
    | exact follows_map (decodeCloseArgs_follows payload) fun _ _ _ => ⟨_, rfl, trivial⟩
    | skip
  · refine follows_bind (decodeShortstr_follows payload 6) ?_
    rintro ⟨replyText, offset⟩ _ - rfl
    refine follows_bind (decodeShortstr_follows payload offset) ?_
    rintro ⟨exchange, offset⟩ _ - rfl
    exact hshortstr offset fun _ => ⟨_, rfl⟩
  · refine follows_bind (decodeShortstr_follows payload 4) ?_
    rintro ⟨consumerTag, offset⟩ _ - rfl
    refine follows_bind (octet_follows payload (offset + 8)) ?_
    rintro redelivered _ - rfl
    refine follows_bind (decodeShortstr_follows payload (offset + 9)) ?_
    rintro ⟨exchange, next⟩ _ - rfl
    exact hshortstr next fun _ => ⟨_, rfl⟩
  · -- a method that the decoder does not know is not walked over either
    split
    all_goals first
      | exact follows_upTo trivial
      | (rename_i heq
         obtain ⟨hclass, hmethod⟩ := Prod.mk.inj heq
         exfalso
         solve_by_elim)

theorem decodeProperty_follows (offset : Nat) (format : PropertyFormat) :
    Follows EndsAt (decodeProperty payload offset format) (walkProperty payload offset format) := by
  cases format with
  | shortstr => exact follows_map (decodeShortstr_follows payload offset) fun _ _ h => ⟨_, rfl, h⟩
  | table => exact follows_map (decodeTable_follows payload tableRoom offset) fun _ _ h => ⟨_, rfl, h⟩
  | octet => exact follows_map (octet_follows payload offset) fun _ _ h => ⟨_, rfl, h.symm⟩
  | timestamp => exact follows_raiseIf _ fun _ => follows_upTo rfl

theorem decodeProperties_follows (flags : Nat) (names : List PropertyName) (offset : Nat) (props : Properties) :
    Follows Anything (decodeProperties payload flags names offset props) (walkProperties payload flags names offset) := by
  induction names generalizing offset props with
  | nil => exact follows_upTo trivial
  | cons name rest ih =>
    rw [decodeProperties, walkProperties]
    split
    · refine follows_bind (decodeProperty_follows payload offset name.format) ?_
      rintro ⟨value, next⟩ _ - rfl
      exact ih next _
    · exact ih offset props

theorem decodeContentHeader_follows : Follows Anything (decodeContentHeader payload) (walkHeader payload) :=
  follows_raiseIf _ fun _ =>
    follows_map (decodeProperties_follows payload _ PropertyName.all 14 .empty) fun _ _ _ => ⟨_, rfl, trivial⟩

end Follow

/-! ## Frames -/

section Rules

variable {α β : Type}

theorem failsWell_ok (b : β) : FailsWell (.ok b : Except Exc β) := fun _ h => nomatch h

theorem failsWell_bind {x : Except Exc α} {f : α → Except Exc β} (hx : FailsWell x) (hf : ∀ a, FailsWell (f a)) :
    FailsWell (x >>= f) := by
  intro e he
  rcases bind_eq_error.mp he with he | ⟨a, -, he⟩
  · exact hx e he
  · exact hf a e he

theorem failsWell_raiseIf (c : Prop) [Decidable c] (reason : String) :
    FailsWell (raiseIf c (.amqpCodecError reason)) := by
  intro e he
  unfold raiseIf at he
  split at he
  · cases he
    exact ⟨reason, rfl⟩
  · cases he

theorem failsWell_orRaise (reason : String) (o : Option α) : FailsWell (orRaise (.amqpCodecError reason) o) := by
  intro e he
  cases o with
  | some a => cases he
  | none =>
    cases he
    exact ⟨reason, rfl⟩

end Rules

theorem decodeFrame_failsWell (frameMax : Nat) (data : Bytes) (offset : Nat) :
    FailsWell (decodeFrame frameMax data offset) := by
  have hmax : FailsWell (maxFramePayload frameMax) := failsWell_bind (failsWell_raiseIf _ _) fun _ => failsWell_ok _
  refine failsWell_bind (failsWell_raiseIf _ _) fun _ => ?_
  refine failsWell_bind (failsWell_orRaise _ _) fun _ => ?_
  refine failsWell_bind hmax fun _ => ?_
  refine failsWell_bind (failsWell_raiseIf _ _) fun _ => ?_
  refine failsWell_bind (failsWell_raiseIf _ _) fun _ => ?_
  exact failsWell_bind (failsWell_raiseIf _ _) fun _ => failsWell_ok _

/-- The decoders of frames fail only with codec errors; the others do so exactly where every text that they
come to is UTF-8 and no octet is missing that they read by its index. Their loops end by themselves. -/
theorem decoders_failWell_iff (data : Bytes) :
    (∀ frameMax offset, FailsWell (decodeFrame frameMax data offset)) ∧
      (∀ room offset, FailsWell (decodeFieldValue data room offset) ↔ (walkValue data room offset).readable = true) ∧
      (∀ room offset, FailsWell (decodeTable data room offset) ↔ (walkTable data room offset).readable = true) ∧
      (FailsWell (decodeMethod data) ↔ (walkMethod data).readable = true) ∧
      (FailsWell (decodeContentHeader data) ↔ (walkHeader data).readable = true) ∧
      (∀ room stop pos more items, decodeItems (decodeFieldValue data room) stop (stop - pos + more) pos items =
        decodeItems (decodeFieldValue data room) stop (stop - pos) pos items) ∧
      ∀ room stop pos more result, decodeEntries data (decodeFieldValue data room) stop (stop - pos + more) pos result =
        decodeEntries data (decodeFieldValue data room) stop (stop - pos) pos result := by
  refine ⟨fun frameMax offset => decodeFrame_failsWell frameMax data offset, ?_, ?_, ?_, ?_, ?_, ?_⟩
  · exact fun room offset => (decodeFieldValue_follows data room offset).iff_readable
  · exact fun room offset => (decodeTable_follows data room offset).iff_readable
  · exact (decodeMethod_follows data).iff_readable
  · exact (decodeContentHeader_follows data).iff_readable
  · exact fun room stop pos more items => decodeItems_rounds (fun _ _ _ => decodeFieldValue_progress) le_rfl more items
  · exact fun room stop pos more result => decodeEntries_rounds (fun _ _ _ => decodeFieldValue_progress) le_rfl more result

/-- A connection.start without its version octets. -/
theorem shortStart_not_failsWell : ¬FailsWell (decodeMethod [0, 10, 0, 10]) := by
  rw [(decodeMethod_follows _).iff_readable]
  decide

end Nuropb.Protocol
