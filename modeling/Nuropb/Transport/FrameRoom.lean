import Nuropb.Protocol.HeaderRoundTrip
import Nuropb.Transport.Publish

/-! # The room that frames take

Whether a settlement, a publish or the header of its content fits a frame depends on the sizes of their texts alone.
-/
namespace Nuropb.Transport

open Library Protocol

/-- A text of so many octets in UTF-8, within the limit of a short string. -/
def ShortText (t : Text) (octets : Nat) : Prop := t.isScalar = true ∧ (t.utf8.getD []).length = octets ∧ octets ≤ 255

structure HasRoom (frameMax : Nat) (channel : Int) (octets : Nat) : Prop where
  channel_nonneg : 0 ≤ channel
  channel_le : channel ≤ 0xFFFF
  size : octets + frameOverhead ≤ frameMax

section Room

variable {frameMax : Nat} {frameType : FrameType} {channel : Int}

theorem fits_iff_hasRoom (hlt : frameMax < 2 ^ 32) {raw : Bytes} :
    Frame.Fits frameMax ⟨frameType, channel, raw⟩ ↔ HasRoom frameMax channel raw.length := by
  constructor
  · rintro ⟨hlow, hhigh, hsize, -⟩
    exact ⟨hlow, hhigh, hsize⟩
  · rintro ⟨hlow, hhigh, hsize⟩
    exact ⟨hlow, hhigh, hsize, lt_of_le_of_lt (Nat.le_trans (Nat.le_add_right _ _) hsize) hlt⟩

theorem isSome_frameOf_iff (hlt : frameMax < 2 ^ 32) {payload : Except Exc Bytes} :
    (frameOf frameMax frameType channel payload).isSome = true ↔
      ∃ raw, payload = .ok raw ∧ HasRoom frameMax channel raw.length := by
  rw [Option.isSome_iff_exists]
  constructor
  · rintro ⟨frame, hframe⟩
    obtain ⟨raw, hraw, rfl, hfits⟩ := frameOf_eq_some_iff.mp hframe
    exact ⟨raw, hraw, (fits_iff_hasRoom hlt).mp hfits⟩
  · rintro ⟨raw, hraw, hroom⟩
    exact ⟨_, frameOf_eq_some_iff.mpr ⟨raw, hraw, rfl, (fits_iff_hasRoom hlt).mpr hroom⟩⟩

theorem exists_shortstr_iff {t : Text} {P : Nat → Prop} :
    (∃ enc, encodeShortstr t = .ok enc ∧ P enc.length) ↔ ∃ octets, ShortText t octets ∧ P (octets + 1) := by
  constructor
  · rintro ⟨enc, henc, hP⟩
    obtain ⟨raw, hraw, hlength, rfl⟩ := encodeShortstr_eq_ok.mp henc
    have hutf8 := utf8_of_encodeUtf8 hraw
    exact ⟨raw.length, ⟨(exists_encodeUtf8_iff t).mp ⟨raw, hraw⟩, by rw [hutf8, Option.getD_some], hlength⟩, hP⟩
  · rintro ⟨octets, ⟨hscalar, hoctets, hlength⟩, hP⟩
    obtain ⟨raw, hraw⟩ := (exists_encodeUtf8_iff t).mpr hscalar
    rw [utf8_of_encodeUtf8 hraw, Option.getD_some] at hoctets
    subst hoctets
    exact ⟨_, encodeShortstr_eq_ok.mpr ⟨raw, hraw, hlength, rfl⟩, hP⟩

end Room

section Payloads

theorem encodeMethod_settlement {method : Method} {classId methodId : Nat} {tag : Nat} {bits : UInt8} {P : Nat → Prop}
    (hids : method.ids = (classId, methodId)) (hclass : classId < 256 ^ 2) (hmethod : methodId < 256 ^ 2)
    (hargs : encodeArgs method = (do
      let raw ← toBytes 8 tag
      return raw ++ [bits])) :
    (∃ raw, encodeMethod method = .ok raw ∧ P raw.length) ↔ tag < 2 ^ 64 ∧ P 13 := by
  have hrawClass : toBytes 2 classId = .ok (toBE 2 classId) := toBytes_natCast hclass
  have hrawMethod : toBytes 2 methodId = .ok (toBE 2 methodId) := toBytes_natCast hmethod
  rw [encodeMethod, hids, hrawClass, ok_bind, hrawMethod, ok_bind, hargs]
  constructor
  · rintro ⟨raw, hraw, hP⟩
    obtain ⟨args, hargs, hraw⟩ := bind_eq_ok.mp hraw
    obtain ⟨rawTag, htag, hargs⟩ := bind_eq_ok.mp hargs
    cases hargs
    cases hraw
    have hlength := length_of_toBytes htag
    refine ⟨(toBytes_natCast_eq_ok.mp htag).1, ?_⟩
    simpa [hlength] using hP
  · rintro ⟨htag, hP⟩
    have hrawTag : toBytes 8 (tag : Int) = .ok (toBE 8 tag) := toBytes_natCast htag
    rw [hrawTag]
    exact ⟨_, rfl, by simpa using hP⟩

/-- An ack takes thirteen octets. -/
theorem exists_ack_iff {tag : Nat} {P : Nat → Prop} :
    (∃ raw, encodeMethod (.basicAck tag false) = .ok raw ∧ P raw.length) ↔ tag < 2 ^ 64 ∧ P 13 :=
  encodeMethod_settlement rfl (by decide) (by decide) rfl

theorem exists_nack_iff {tag : Nat} {requeue : Bool} {P : Nat → Prop} :
    (∃ raw, encodeMethod (.basicNack tag false requeue) = .ok raw ∧ P raw.length) ↔ tag < 2 ^ 64 ∧ P 13 :=
  encodeMethod_settlement rfl (by decide) (by decide) rfl

/-- A publish to the default exchange takes nine octets and those of the queue's name. -/
theorem exists_publish_iff {queue : Text} {mandatory : Bool} {P : Nat → Prop} :
    (∃ raw, encodeMethod (.basicPublish { exchange := [], routingKey := queue, mandatory }) = .ok raw ∧ P raw.length) ↔
      ∃ octets, ShortText queue octets ∧ P (octets + 9) := by
  have hpublish : (∃ raw, encodeMethod (.basicPublish { exchange := [], routingKey := queue, mandatory }) = .ok raw ∧
      P raw.length) ↔ ∃ enc, encodeShortstr queue = .ok enc ∧ P (enc.length + 8) := by
    have hids : toBytes 2 ((60 : Nat) : Int) = .ok (toBE 2 60) ∧ toBytes 2 ((40 : Nat) : Int) = .ok (toBE 2 40) :=
      ⟨toBytes_natCast (by decide), toBytes_natCast (by decide)⟩
    have hticket : toBytes 2 0 = .ok [0, 0] := rfl
    have hempty : encodeShortstr [] = .ok [0] := rfl
    simp only [encodeMethod, Method.ids, hids.1, hids.2, encodeArgs, hticket, hempty, ok_bind]
    constructor
    · rintro ⟨raw, hraw, hP⟩
      obtain ⟨args, hargs, hraw⟩ := bind_eq_ok.mp hraw
      obtain ⟨enc, henc, hargs⟩ := bind_eq_ok.mp hargs
      cases hargs
      cases hraw
      refine ⟨enc, henc, ?_⟩
      simpa [Nat.add_comm, Nat.add_left_comm] using hP
    · rintro ⟨enc, henc, hP⟩
      rw [henc]
      exact ⟨_, rfl, by simpa [Nat.add_comm, Nat.add_left_comm] using hP⟩
  rw [hpublish]
  exact exists_shortstr_iff (P := fun length => P (length + 8))

/-- A header takes fourteen octets and those of its properties. -/
theorem exists_header_iff {python : Interpreter} {size : Nat} {props : Properties} {P : Nat → Prop} :
    (∃ raw, encodeContentHeader python 60 size props = .ok raw ∧ P raw.length) ↔
      size < 2 ^ 64 ∧ ∃ encoded, encodeProperties python props PropertyName.all = .ok encoded ∧ P (encoded.2.length + 14) := by
  have hclass : toBytes 2 ((60 : Nat) : Int) = .ok (toBE 2 60) := toBytes_natCast (by decide)
  rw [encodeContentHeader]
  constructor
  · rintro ⟨raw, hraw, hP⟩
    obtain ⟨⟨flags, body⟩, hbody, hraw⟩ := bind_eq_ok.mp hraw
    obtain ⟨rawClass, hrawClass, hraw⟩ := bind_eq_ok.mp hraw
    obtain ⟨rawSize, hsize, hraw⟩ := bind_eq_ok.mp hraw
    obtain ⟨rawFlags, hflags, hraw⟩ := bind_eq_ok.mp hraw
    cases hraw
    have hlength : (rawClass ++ toBE 2 0 ++ rawSize ++ rawFlags ++ body).length = body.length + 14 := by
      simp only [List.length_append, length_of_toBytes hrawClass, length_of_toBytes hsize, length_of_toBytes hflags,
        length_toBE]
      omega
    rw [hlength] at hP
    exact ⟨(toBytes_natCast_eq_ok.mp hsize).1, (flags, body), hbody, hP⟩
  · rintro ⟨hsize, ⟨flags, body⟩, hbody, hP⟩
    have hrawSize : toBytes 8 (size : Int) = .ok (toBE 8 size) := toBytes_natCast hsize
    have hrawFlags : toBytes 2 (flags : Int) = .ok (toBE 2 flags) := toBytes_natCast (flags_lt hbody)
    have hlength : (toBE 2 60 ++ toBE 2 0 ++ toBE 8 size ++ toBE 2 flags ++ body).length = body.length + 14 := by
      simp only [List.length_append, length_toBE]
      omega
    refine ⟨_, ?_, by rw [hlength]; exact hP⟩
    rw [hbody, ok_bind, hclass]
    dsimp only
    rw [ok_bind, hrawSize, ok_bind, hrawFlags]
    rfl

theorem isSome_contentFrames_iff {frameMax : Nat} {args : PublishArgs} {props : Properties} :
    (contentFrames frameMax args props).isSome = true ↔
      (methodFrame frameMax args).isSome = true ∧ (headerFrame frameMax args props).isSome = true := by
  rw [contentFrames]
  cases methodFrame frameMax args with
  | none => simp
  | some method => simp

end Payloads

end Nuropb.Transport
