import Nuropb.Library.Chunked
import Nuropb.Transport.ReadLoop

/-! # From chunks to frames

The read loop appends what it reads to its buffer and takes frames from the front. It tells a
frame that is still incomplete from a malformed one by the text of the error.
-/
namespace Nuropb.Transport

open Library

/-- `needle in text` -/
def mentions (needle text : String) : Bool := decide (needle.toList <:+: text.toList)

/-- One round of the buffer loop: `decode_frame`, and what is made of its error. -/
def nextFrame (frameMax : Nat) (buffer : Bytes) : Next Frame String :=
  match decodeFrame frameMax buffer 0 with
  | .ok (frame, nxt) => .item frame nxt
  | .error e => if mentions "incomplete" (excText e) then .more else .fail (excText e)

section Stable

variable {frameMax : Nat} {data : Bytes}

theorem slice_append_left (more : Bytes) {start stop : Nat} (h : stop ≤ data.length) :
    slice (data ++ more) start stop = slice data start stop := by
  unfold slice
  by_cases hle : start ≤ stop
  · rw [List.drop_append_of_le_length (hle.trans h), List.take_append_of_le_length]
    rw [List.length_drop]
    omega
  · rw [Nat.sub_eq_zero_of_le (Nat.le_of_not_le hle), List.take_zero, List.take_zero]

theorem getD_append_left (more : Bytes) {i : Nat} (h : i < data.length) :
    (data ++ more).getD i 0 = data.getD i 0 := by
  rw [List.getD_eq_getElem?_getD, List.getD_eq_getElem?_getD, List.getElem?_append_left h]

theorem decodeFrame_append_of_ok {frame : Frame} {nxt : Nat} (h : decodeFrame frameMax data 0 = .ok (frame, nxt))
    (more : Bytes) :
    decodeFrame frameMax (data ++ more) 0 = .ok (frame, nxt) ∧ 0 < nxt ∧ nxt ≤ data.length := by
  simp only [decodeFrame, bind_eq_ok, raiseIf_eq_ok, pure_eq_ok, exists_const] at h ⊢
  obtain ⟨hheader, frameType, htype, payloadMax, hmax, hsize, hlength, hend, hframe⟩ := h
  have hfirst (i : Nat) (hi : i < data.length) := getD_append_left more hi
  simp only [Nat.zero_add] at hsize hlength hend hframe ⊢
  rw [slice_append_left more (show 3 ≤ data.length by omega),
    slice_append_left more (show 7 ≤ data.length by omega), hfirst 0 (by omega), hfirst _ (by omega),
    slice_append_left more (by omega), List.length_append]
  obtain ⟨-, rfl⟩ := Prod.mk.inj (Except.ok.inj hframe)
  exact ⟨⟨by omega, frameType, htype, payloadMax, hmax, hsize, by omega, hend, hframe⟩, by omega, by omega⟩

theorem decodeFrame_append_of_error {e : Exc} (h : decodeFrame frameMax data 0 = .error e)
    (hfinal : mentions "incomplete" (excText e) = false) (more : Bytes) :
    decodeFrame frameMax (data ++ more) 0 = .error e := by
  have hincomplete {reason : String} (hreason : mentions "incomplete" reason = true) :
      e ≠ .amqpCodecError reason := by
    rintro rfl
    rw [excText, hreason] at hfinal
    cases hfinal
  have hfirst (i : Nat) (hi : i < data.length) := getD_append_left more hi
  unfold decodeFrame at h ⊢
  by_cases hheader : data.length - 0 < 7
  · rw [raiseIf_of hheader, error_bind] at h
    cases h
    exact absurd rfl (hincomplete (by decide))
  · have hmore : ¬(data ++ more).length - 0 < 7 := by
      rw [List.length_append]
      omega
    rw [raiseIf_of_not hheader, ok_bind] at h
    rw [raiseIf_of_not hmore, ok_bind]
    simp only [Nat.zero_add] at h ⊢
    rw [slice_append_left more (show 3 ≤ data.length by omega),
      slice_append_left more (show 7 ≤ data.length by omega), hfirst 0 (by omega)]
    rcases bind_eq_error.mp h with htype | ⟨frameType, htype, h⟩
    · exact bind_eq_error.mpr (.inl htype)
    rcases bind_eq_error.mp h with hmax | ⟨payloadMax, hmax, h⟩
    · exact bind_eq_error.mpr (.inr ⟨frameType, htype, bind_eq_error.mpr (.inl hmax)⟩)
    refine bind_eq_error.mpr (.inr ⟨frameType, htype, bind_eq_error.mpr (.inr ⟨payloadMax, hmax, ?_⟩)⟩)
    rcases bind_eq_error.mp h with hsize | ⟨u, hsize, h⟩
    · exact bind_eq_error.mpr (.inl hsize)
    refine bind_eq_error.mpr (.inr ⟨u, hsize, ?_⟩)
    by_cases hlength : data.length < 7 + ofBE (slice data 3 7) + 1
    · rw [raiseIf_of hlength, error_bind] at h
      cases h
      exact absurd rfl (hincomplete (by decide))
    · have hmore : ¬(data ++ more).length < 7 + ofBE (slice data 3 7) + 1 := by
        rw [List.length_append]
        omega
      rw [raiseIf_of_not hlength, ok_bind] at h
      rw [raiseIf_of_not hmore, ok_bind, hfirst _ (by omega), slice_append_left more (by omega)]
      exact h

end Stable

theorem nextFrame_eq_item {frameMax : Nat} {buffer : Bytes} {frame : Frame} {nxt : Nat} :
    nextFrame frameMax buffer = .item frame nxt ↔ decodeFrame frameMax buffer 0 = .ok (frame, nxt) := by
  unfold nextFrame
  split
  · rename_i heq
    simp [heq]
  · rename_i heq
    split <;> simp [heq]

theorem nextFrame_eq_fail {frameMax : Nat} {buffer : Bytes} {reason : String} :
    nextFrame frameMax buffer = .fail reason ↔ ∃ e, decodeFrame frameMax buffer 0 = .error e ∧
      mentions "incomplete" (excText e) = false ∧ excText e = reason := by
  unfold nextFrame
  split
  · rename_i heq
    simp [heq]
  · rename_i e heq
    cases hmentions : mentions "incomplete" (excText e) <;> simp [heq, hmentions]

/-- The buffer loop as a decoder of frames. -/
def frameDecoder (frameMax : Nat) : Decoder UInt8 Frame String where
  next := nextFrame frameMax
  used_pos h := (decodeFrame_append_of_ok (nextFrame_eq_item.mp h) []).2.1
  used_le h := (decodeFrame_append_of_ok (nextFrame_eq_item.mp h) []).2.2
  item_append more h := nextFrame_eq_item.mpr (decodeFrame_append_of_ok (nextFrame_eq_item.mp h) more).1
  fail_append more h := by
    obtain ⟨e, he, hfinal, rfl⟩ := nextFrame_eq_fail.mp h
    exact nextFrame_eq_fail.mpr ⟨e, decodeFrame_append_of_error he hfinal more, hfinal, rfl⟩

/-- `_read_loop` up to the processing of frames: an empty read is the end of the stream. -/
def receiveChunk (frameMax : Nat) (received : Decoded UInt8 Frame String) (chunk : Bytes) :
    Decoded UInt8 Frame String :=
  match received.failure, chunk with
  | none, [] => { received with failure := some "broker closed connection" }
  | _, chunk => (frameDecoder frameMax).feed received chunk

def receiveChunks (frameMax : Nat) (chunks : List Bytes) : Decoded UInt8 Frame String :=
  chunks.foldl (receiveChunk frameMax) {}

/-! ## Encoded frames -/

theorem decodeFrame_encodeFrame {frameMax : Nat} {frame : Frame} {bytes : Bytes}
    (h : encodeFrame frameMax frame = .ok bytes) (more : Bytes) :
    decodeFrame frameMax (bytes ++ more) 0 = .ok (frame, bytes.length) := by
  obtain ⟨hlow, hhigh, hsize, hwidth⟩ := fits_of_encodeFrame h
  simp only [encodeFrame, bind_eq_ok, raiseIf_eq_ok, pure_eq_ok, exists_const, Except.ok.injEq] at h
  obtain ⟨-, payloadMax, hmax, hpayload, -, rfl⟩ := h
  have hchannel : (slice ([frame.frameType.code] ++ (toBE 2 frame.channel.toNat ++
      (toBE 4 frame.payload.length ++ (frame.payload ++ frameEnd :: more)))) 1 3) = toBE 2 frame.channel.toNat :=
    slice_append_of_length [frame.frameType.code] _ _ (length_toBE 2 _)
  have hlength : (slice ((frame.frameType.code :: toBE 2 frame.channel.toNat) ++
      (toBE 4 frame.payload.length ++ (frame.payload ++ frameEnd :: more))) 3 7) =
      toBE 4 frame.payload.length := by
    have hslice := slice_append_of_length (frame.frameType.code :: toBE 2 frame.channel.toNat)
      (toBE 4 frame.payload.length) (frame.payload ++ frameEnd :: more) (length_toBE 4 _)
    rwa [List.length_cons, length_toBE] at hslice
  have hcontent : (slice ((frame.frameType.code :: toBE 2 frame.channel.toNat ++ toBE 4 frame.payload.length) ++
      (frame.payload ++ frameEnd :: more)) 7 (7 + frame.payload.length)) = frame.payload := by
    have hslice := slice_append (frame.frameType.code :: toBE 2 frame.channel.toNat ++ toBE 4 frame.payload.length)
      frame.payload (frameEnd :: more)
    rwa [List.length_append, List.length_cons, length_toBE, length_toBE] at hslice
  have hend : ((frame.frameType.code :: toBE 2 frame.channel.toNat ++ toBE 4 frame.payload.length ++
      frame.payload) ++ frameEnd :: more).getD (7 + frame.payload.length) 0 = frameEnd := by
    have hlen : (frame.frameType.code :: toBE 2 frame.channel.toNat ++ toBE 4 frame.payload.length ++
        frame.payload).length = 7 + frame.payload.length := by
      simp
      omega
    rw [List.getD_eq_getElem?_getD, ← hlen, getElem?_append_cons]
    rfl
  have hcount : ofBE (toBE 4 frame.payload.length) = frame.payload.length := ofBE_toBE hwidth
  have hnumber : (ofBE (toBE 2 frame.channel.toNat) : Int) = frame.channel := by
    rw [ofBE_toBE (by omega)]
    omega
  simp only [List.append_assoc, List.cons_append, List.nil_append] at hchannel hlength hcontent hend ⊢
  have htotal : (frame.frameType.code :: (toBE 2 frame.channel.toNat ++ (toBE 4 frame.payload.length ++
      (frame.payload ++ frameEnd :: more)))).length = 7 + frame.payload.length + 1 + more.length := by
    simp
    omega
  simp only [decodeFrame, Nat.zero_add, htotal, List.getD_cons_zero, FrameType.ofCode_code, orRaise_some, ok_bind,
    hchannel, hlength, hcount, hmax, hend, hcontent, hnumber, pure_eq_ok,
    raiseIf_of_not (show ¬7 + frame.payload.length + 1 + more.length - 0 < 7 by omega),
    raiseIf_of_not hpayload,
    raiseIf_of_not (show ¬7 + frame.payload.length + 1 + more.length < 7 + frame.payload.length + 1 by omega),
    raiseIf_of_not (show ¬frameEnd ≠ frameEnd from fun h => h rfl)]
  simp
  omega

theorem receiveChunk_of_ne_nil {frameMax : Nat} {chunk : Bytes} (h : chunk ≠ [])
    (received : Decoded UInt8 Frame String) :
    receiveChunk frameMax received chunk = (frameDecoder frameMax).feed received chunk := by
  unfold receiveChunk
  split
  · exact absurd rfl h
  · rfl

theorem nextFrame_nil (frameMax : Nat) : nextFrame frameMax [] = .more := by
  have hshort : decodeFrame frameMax [] 0 = .error (.amqpCodecError "incomplete frame header") := by
    unfold decodeFrame
    rw [raiseIf_of (by simp), error_bind]
  rw [nextFrame, hshort]
  exact if_pos (by decide)

theorem forall₂_of_mapM {frameMax : Nat} {frames : List Frame} {encoded : List Bytes}
    (h : frames.mapM (encodeFrame frameMax) = .ok encoded) :
    List.Forall₂ (fun frame bytes => encodeFrame frameMax frame = .ok bytes) frames encoded := by
  induction frames generalizing encoded with
  | nil =>
    cases h
    exact .nil
  | cons frame rest ih =>
    rw [List.mapM_cons] at h
    obtain ⟨bytes, hbytes, h⟩ := bind_eq_ok.mp h
    obtain ⟨tail, htail, h⟩ := bind_eq_ok.mp h
    cases h
    exact .cons hbytes (ih htail)

/-- Frames and outcome of the receive path do not depend on how the stream is cut, and frames that
were encoded come out as they were, with nothing left. -/
theorem chunking_independent (frameMax : Nat) (chunks : List Bytes) (hchunks : ∀ chunk ∈ chunks, chunk ≠ []) :
    (receiveChunks frameMax chunks).SameOutcome ((frameDecoder frameMax).drain chunks.flatten) ∧
      ∀ frames encoded, frames.mapM (encodeFrame frameMax) = .ok encoded →
        chunks.flatten = encoded.flatten → receiveChunks frameMax chunks = { items := frames } := by
  have hempty : (frameDecoder frameMax).drain [] = {} := Decoder.drain_of_more (nextFrame_nil frameMax)
  have hstart : ({} : Decoded UInt8 Frame String).SameOutcome ((frameDecoder frameMax).drain []) :=
    hempty ▸ ⟨rfl, rfl, fun _ => rfl⟩
  have hfold : receiveChunks frameMax chunks = chunks.foldl (frameDecoder frameMax).feed {} := by
    refine List.foldl_ext _ _ _ fun received chunk hmem => ?_
    exact receiveChunk_of_ne_nil (hchunks chunk hmem) received
  have hsame := Decoder.foldl_feed hstart chunks
  rw [← hfold, List.nil_append] at hsame
  refine ⟨hsame, fun frames encoded hencoded hflatten => ?_⟩
  have hparts : (frameDecoder frameMax).drain chunks.flatten = { items := frames } := by
    rw [hflatten]
    refine Decoder.drain_items ((forall₂_of_mapM hencoded).imp fun frame bytes h more => ?_)
      (nextFrame_nil frameMax)
    exact nextFrame_eq_item.mpr (decodeFrame_encodeFrame h more)
  rw [hparts] at hsame
  exact hsame.eq_of_none rfl

/-- A heartbeat that comes in two chunks. -/
theorem heartbeat_inTwo : receiveChunks defaultFrameMax [[8, 0, 0], [0, 0, 0, 0, 206]] =
    { items := [⟨.heartbeat, 0, []⟩] } :=
  (chunking_independent defaultFrameMax [[8, 0, 0], [0, 0, 0, 0, 206]] (by decide)).2 [⟨.heartbeat, 0, []⟩]
    [[8, 0, 0, 0, 0, 0, 0, 206]] rfl rfl

end Nuropb.Transport
