import Nuropb.Library.Outcome
import Nuropb.Python.Value

/-! # Frames and wire strings

One frame is type, channel, payload size, payload and an end octet. The size is checked
against the negotiated maximum before the payload is taken.
-/
namespace Nuropb.Transport

open Library

def frameEnd : UInt8 := 0xCE

def defaultFrameMax : Nat := 131072

theorem defaultFrameMax_lt : defaultFrameMax < 2 ^ 32 := by decide

def defaultMaxTableDepth : Nat := 32

def frameOverhead : Nat := 8

inductive FrameType
  | method
  | header
  | body
  | heartbeat
  deriving DecidableEq

def FrameType.code : FrameType → UInt8
  | .method => 1
  | .header => 2
  | .body => 3
  | .heartbeat => 8

def FrameType.ofCode : UInt8 → Option FrameType
  | 1 => some .method
  | 2 => some .header
  | 3 => some .body
  | 8 => some .heartbeat
  | _ => none

@[simp] theorem FrameType.ofCode_code (t : FrameType) : FrameType.ofCode t.code = some t := by
  cases t <;> rfl

structure Frame where
  frameType : FrameType
  channel : Int
  payload : Bytes
  deriving DecidableEq

def maxFramePayload (frameMax : Nat) : Except Exc Nat := do
  raiseIf (frameMax < frameOverhead)
    (.amqpCodecError s!"frame_max {frameMax} smaller than FRAME_OVERHEAD")
  return frameMax - frameOverhead

def encodeFrame (frameMax : Nat) (frame : Frame) : Except Exc Bytes := do
  raiseIf (frame.channel < 0 ∨ 0xFFFF < frame.channel)
    (.amqpCodecError s!"channel out of range: {frame.channel}")
  let size := frame.payload.length
  let payloadMax ← maxFramePayload frameMax
  raiseIf (payloadMax < size) (.amqpCodecError
    s!"frame payload {size} exceeds max payload {payloadMax} (frame_max={frameMax})")
  raiseIf (2 ^ 32 ≤ size) (.other "struct.error")
  return frame.frameType.code :: toBE 2 frame.channel.toNat ++ toBE 4 size ++ frame.payload ++ [frameEnd]

/-- An octet as two hexadecimal digits. -/
def hexByte (b : UInt8) : String :=
  String.ofList [Nat.digitChar (b.toNat / 16), Nat.digitChar (b.toNat % 16)]

/-- Decode the frame at `offset`; the result carries the offset just past it. -/
def decodeFrame (frameMax : Nat) (data : Bytes) (offset : Nat) : Except Exc (Frame × Nat) := do
  raiseIf (data.length - offset < 7) (.amqpCodecError "incomplete frame header")
  let code := data.getD offset 0
  let frameType ← orRaise (.amqpCodecError s!"unknown frame type {code}") (FrameType.ofCode code)
  let channel := ofBE (slice data (offset + 1) (offset + 3))
  let size := ofBE (slice data (offset + 3) (offset + 7))
  let payloadMax ← maxFramePayload frameMax
  raiseIf (payloadMax < size)
    (.amqpCodecError s!"frame size {size} exceeds max payload {payloadMax} (frame_max={frameMax})")
  let stop := offset + 7 + size
  raiseIf (data.length < stop + 1) (.amqpCodecError "incomplete frame payload")
  raiseIf (data.getD stop 0 ≠ frameEnd)
    (.amqpCodecError s!"bad frame end byte 0x{hexByte (data.getD stop 0)}")
  return (⟨frameType, channel, slice data (offset + 7) stop⟩, stop + 1)

/-- What `encode_frame` asks of a frame. -/
def Frame.Fits (frameMax : Nat) (frame : Frame) : Prop :=
  0 ≤ frame.channel ∧ frame.channel ≤ 0xFFFF ∧
    frame.payload.length + frameOverhead ≤ frameMax ∧ frame.payload.length < 2 ^ 32

instance (frameMax : Nat) (frame : Frame) : Decidable (frame.Fits frameMax) := by
  unfold Frame.Fits
  infer_instance

theorem maxFramePayload_eq_ok {frameMax n : Nat} :
    maxFramePayload frameMax = .ok n ↔ frameOverhead ≤ frameMax ∧ n = frameMax - frameOverhead := by
  simp only [maxFramePayload, bind_eq_ok, raiseIf_eq_ok, pure_eq_ok, Except.ok.injEq, exists_const,
    not_lt]
  exact and_congr_right fun _ => eq_comm

theorem encodeFrame_of_fits {frameMax : Nat} {frame : Frame} (h : frame.Fits frameMax) :
    ∃ bytes, encodeFrame frameMax frame = .ok bytes := by
  obtain ⟨hlow, hhigh, hsize, hwidth⟩ := h
  have hmax : maxFramePayload frameMax = .ok (frameMax - frameOverhead) :=
    maxFramePayload_eq_ok.mpr ⟨by omega, rfl⟩
  simp only [encodeFrame, hmax, ok_bind,
    raiseIf_of_not (show ¬(frame.channel < 0 ∨ 0xFFFF < frame.channel) by omega),
    raiseIf_of_not (show ¬frameMax - frameOverhead < frame.payload.length by omega),
    raiseIf_of_not (show ¬2 ^ 32 ≤ frame.payload.length by omega)]
  exact ⟨_, rfl⟩

theorem fits_of_encodeFrame {frameMax : Nat} {frame : Frame} {bytes : Bytes}
    (h : encodeFrame frameMax frame = .ok bytes) : frame.Fits frameMax := by
  simp only [encodeFrame, bind_eq_ok, raiseIf_eq_ok, maxFramePayload_eq_ok, exists_const] at h
  obtain ⟨hchan, _, ⟨hroom, rfl⟩, hpay, hwidth, -⟩ := h
  exact ⟨by omega, by omega, by omega, by omega⟩

/-! ## Wire strings -/

def encodeShortstr (value : Text) : Except Exc Bytes := do
  let raw ← encodeUtf8 value
  raiseIf (255 < raw.length) (.amqpCodecError "shortstr exceeds 255 octets")
  return UInt8.ofNat raw.length :: raw

/-- `encode_shortstr` on a value of any type: only text has an `encode` method. -/
def encodeShortstrValue : PyVal → Except Exc Bytes
  | .str t => encodeShortstr t
  | _ => .error .attributeError

def decodeShortstr (data : Bytes) (offset : Nat) : Except Exc (Text × Nat) := do
  raiseIf (data.length ≤ offset) (.amqpCodecError "shortstr missing length")
  let start := offset + 1
  let stop := start + (data.getD offset 0).toNat
  raiseIf (data.length < stop) (.amqpCodecError "shortstr truncated")
  let value ← decodeUtf8 (slice data start stop)
  return (value, stop)

def encodeLongstr (raw : Bytes) : Except Exc Bytes := do
  let size ← toBytes 4 raw.length
  return size ++ raw

def decodeLongstr (data : Bytes) (offset : Nat) : Except Exc (Bytes × Nat) := do
  raiseIf (data.length < offset + 4) (.amqpCodecError "longstr missing length")
  let n := ofBE (slice data offset (offset + 4))
  raiseIf (defaultFrameMax < n) (.amqpCodecError s!"longstr length {n} exceeds ceiling")
  let start := offset + 4
  let stop := start + n
  raiseIf (data.length < stop) (.amqpCodecError "longstr truncated")
  return (slice data start stop, stop)

theorem encodeShortstr_eq_ok {t : Text} {enc : Bytes} :
    encodeShortstr t = .ok enc ↔
      ∃ raw, encodeUtf8 t = .ok raw ∧ raw.length ≤ 255 ∧ enc = UInt8.ofNat raw.length :: raw := by
  simp only [encodeShortstr, bind_eq_ok, raiseIf_eq_ok, pure_eq_ok, Except.ok.injEq, exists_const,
    not_lt]
  exact exists_congr fun _ => and_congr_right fun _ => and_congr_right fun _ => eq_comm

theorem encodeLongstr_eq_ok {raw enc : Bytes} :
    encodeLongstr raw = .ok enc ↔ raw.length < 256 ^ 4 ∧ enc = toBE 4 raw.length ++ raw := by
  simp only [encodeLongstr, toBytes, bind_eq_ok, pure_eq_ok, Except.ok.injEq]
  constructor
  · rintro ⟨size, hsize, rfl⟩
    split at hsize
    · cases hsize
      exact ⟨by omega, rfl⟩
    · cases hsize
  · rintro ⟨hlt, rfl⟩
    exact ⟨_, if_pos ⟨by omega, by omega⟩, rfl⟩

theorem decodeShortstr_encodeShortstr {t : Text} {enc : Bytes} (h : encodeShortstr t = .ok enc)
    (p s : Bytes) :
    decodeShortstr (p ++ (enc ++ s)) p.length = .ok (t, p.length + enc.length) := by
  obtain ⟨raw, hraw, hlen, rfl⟩ := encodeShortstr_eq_ok.mp h
  have hcount : (UInt8.ofNat raw.length).toNat = raw.length := by
    simpa using Nat.mod_eq_of_lt (show raw.length < 256 by omega)
  have hslice : slice (p ++ (UInt8.ofNat raw.length :: raw ++ s)) (p.length + 1)
      (p.length + 1 + raw.length) = raw := by
    have h := slice_append (p ++ [UInt8.ofNat raw.length]) raw s
    simpa [List.append_assoc] using h
  have hfirst : (p ++ (UInt8.ofNat raw.length :: raw ++ s)).getD p.length 0 =
      UInt8.ofNat raw.length := by
    simp
  have hsize : (p ++ (UInt8.ofNat raw.length :: raw ++ s)).length =
      p.length + 1 + raw.length + s.length := by
    simp
    omega
  simp only [decodeShortstr, hsize, hfirst, hcount, hslice, decodeUtf8_of_encodeUtf8 hraw,
    raiseIf_of_not (show ¬p.length + 1 + raw.length + s.length ≤ p.length by omega),
    raiseIf_of_not (show ¬p.length + 1 + raw.length + s.length < p.length + 1 + raw.length by omega),
    ok_bind, pure_eq_ok, List.length_cons]
  congr 2
  omega

/-- A longstr reads back unless it is longer than the decoder's ceiling. -/
theorem decodeLongstr_encodeLongstr {raw enc : Bytes} (h : encodeLongstr raw = .ok enc)
    (p s : Bytes) :
    decodeLongstr (p ++ (enc ++ s)) p.length =
      if raw.length ≤ defaultFrameMax then .ok (raw, p.length + enc.length)
      else .error (.amqpCodecError s!"longstr length {raw.length} exceeds ceiling") := by
  obtain ⟨hlt, rfl⟩ := encodeLongstr_eq_ok.mp h
  have hcount : ofBE (slice (p ++ (toBE 4 raw.length ++ raw ++ s)) p.length (p.length + 4)) =
      raw.length := by
    rw [List.append_assoc (toBE 4 raw.length),
      slice_append_of_length p _ (raw ++ s) (length_toBE 4 _), ofBE_toBE hlt]
  have hslice : slice (p ++ (toBE 4 raw.length ++ raw ++ s)) (p.length + 4)
      (p.length + 4 + raw.length) = raw := by
    have h := slice_append (p ++ toBE 4 raw.length) raw s
    simpa [List.append_assoc] using h
  have hsize : (p ++ (toBE 4 raw.length ++ raw ++ s)).length =
      p.length + 4 + raw.length + s.length := by
    simp
    omega
  simp only [decodeLongstr, hsize, hcount, hslice,
    raiseIf_of_not (show ¬p.length + 4 + raw.length + s.length < p.length + 4 by omega),
    raiseIf_of_not (show ¬p.length + 4 + raw.length + s.length < p.length + 4 + raw.length by omega),
    ok_bind, pure_eq_ok, List.length_append, length_toBE]
  by_cases hle : raw.length ≤ defaultFrameMax
  · rw [raiseIf_of_not (Nat.not_lt.mpr hle), if_pos hle, ok_bind, Nat.add_assoc]
  · rw [raiseIf_of (Nat.lt_of_not_le hle), if_neg hle, error_bind]

end Nuropb.Transport
