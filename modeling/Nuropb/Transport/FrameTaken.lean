import Nuropb.Transport.ReadLoop

/-! # What a frame can come to

Every frame that the read loop takes does one of a few things to the connection: it settles
confirms or a waiter, moves a slot, or ends the loop.
-/
namespace Nuropb.Transport

open Library Protocol

/-- The methods that the loop itself handles. -/
def Handled : Method → Bool
  | .connectionSecure _ | .connectionBlocked _ | .connectionUnblocked | .basicDeliver _
  | .basicReturn _ | .connectionClose _ => true
  | _ => false

/-- An ack or nack: its tag, its `multiple` bit, and the outcome of the confirms it covers. -/
def confirmOf : Method → Option (Nat × Bool × Except Exc Unit)
  | .basicAck deliveryTag multiple => some (deliveryTag.toNat, multiple, .ok ())
  | .basicNack deliveryTag multiple _ =>
    some (deliveryTag.toNat, multiple, .error (.publishNack deliveryTag.toNat multiple))
  | _ => none

/-- The slot that a frame opens or continues. -/
inductive SlotReached (conn : Conn) (f : Frame) : Slot → Prop
  | delivered {args : BasicDeliverArgs} (htype : f.frameType = .method)
    (hmethod : decodeMethod f.payload = .ok (.basicDeliver args)) :
    SlotReached conn f { method := .deliver args }
  | returned {args : BasicReturnArgs} (htype : f.frameType = .method)
    (hmethod : decodeMethod f.payload = .ok (.basicReturn args)) :
    SlotReached conn f { method := .returned args }
  | header {slot : Slot} {header : ContentHeader} (htype : f.frameType = .header)
    (hheader : decodeContentHeader f.payload = .ok header)
    (hslot : conn.pendingContent.get? f.channel = some slot) :
    SlotReached conn f { slot with properties := header.properties, remaining := some header.bodySize }
  | body {slot : Slot} {remaining : Nat} (htype : f.frameType = .body)
    (hslot : conn.pendingContent.get? f.channel = some slot) (hremaining : slot.remaining = some remaining)
    (hle : f.payload.length ≤ remaining) :
    SlotReached conn f { slot with
      body := slot.body ++ f.payload, remaining := some (remaining - f.payload.length) }

inductive FrameTaken (conn : Conn) (f : Frame) : Conn → Prop
  | heartbeat (htype : f.frameType = .heartbeat) : FrameTaken conn f conn
  | confirmed {method : Method} {deliveryTag : Nat} {multiple : Bool} {outcome : Except Exc Unit}
    (htype : f.frameType = .method) (hmethod : decodeMethod f.payload = .ok method)
    (hconfirm : confirmOf method = some (deliveryTag, multiple, outcome))
    (henabled : (conn.trackerOf f.channel).enabled = true) :
    FrameTaken conn f ((conn.clearMandatoryTags f.channel deliveryTag multiple).settleConfirms
      f.channel deliveryTag multiple outcome)
  | replied {method : Method} (htype : f.frameType = .method)
    (hmethod : decodeMethod f.payload = .ok method) (hhandled : Handled method = false)
    (hconfirm : confirmOf method ≠ none → (conn.trackerOf f.channel).enabled = false) :
    FrameTaken conn f (conn.settleWaiter f.channel method)
  | blocked {method : Method} (publishBlocked : Bool) (htype : f.frameType = .method)
    (hmethod : decodeMethod f.payload = .ok method) (hhandled : Handled method = true) :
    FrameTaken conn f { conn with publishBlocked }
  | closing {args : CloseArgs} {frame : Frame} (htype : f.frameType = .method)
    (hmethod : decodeMethod f.payload = .ok (.connectionClose args))
    (hframe : frameOf conn.frameMax .method 0 (encodeMethod .connectionCloseOk) = some frame) :
    FrameTaken conn f { conn.append none [frame] with reader := .closing "broker closed" }
  | continued {slot : Slot} (hslot : SlotReached conn f slot)
    (hremaining : slot.remaining ≠ some 0) : FrameTaken conn f (conn.setSlot f.channel slot)
  | finished {slot : Slot} (hslot : SlotReached conn f slot)
    (hremaining : slot.remaining = some 0) : FrameTaken conn f (conn.finishDelivery f.channel slot)
  | ended {e : Exc} (hhandled : f.frameType = .method → ∀ method, decodeMethod f.payload = .ok method →
      Handled method = true) : FrameTaken conn f (conn.endReader e)

section Taken

variable {conn : Conn} {f : Frame}

theorem readFrame_of_ok {conn' : Conn} (h : processFrame f conn = .ok () conn') :
    conn.readFrame f = conn' := by
  rw [Conn.readFrame, h]

theorem readFrame_of_error {conn' : Conn} {e : Exc} (h : processFrame f conn = .error e conn') :
    conn.readFrame f = conn'.endReader e := by
  rw [Conn.readFrame, h]

theorem endReader_rejected (conn : Conn) (e : Exc) :
    Conn.endReader { conn with sm := .error } e = conn.endReader e := by
  cases h : conn.lost <;> simp [Conn.endReader, Conn.notifyLoss, h]

theorem taken_of_reject {reason : String} (h : processFrame f conn = reject reason conn)
    (hhandled : f.frameType = .method → ∀ method, decodeMethod f.payload = .ok method →
      Handled method = true) : FrameTaken conn f (conn.readFrame f) := by
  rw [readFrame_of_error h, endReader_rejected]
  exact .ended hhandled

theorem answerClose_taken {args : CloseArgs} (htype : f.frameType = .method)
    (hmethod : decodeMethod f.payload = .ok (.connectionClose args))
    (hrun : processFrame f conn = answerClose conn) : FrameTaken conn f (conn.readFrame f) := by
  cases hframe : frameOf conn.frameMax .method 0 (encodeMethod .connectionCloseOk) with
  | some frame =>
    have hdone : processFrame f conn =
        .ok () { conn.append none [frame] with reader := .closing "broker closed" } := by
      rw [hrun]
      unfold answerClose sendMethod
      rw [writePayload_of_some hframe]
    rw [readFrame_of_ok hdone]
    exact .closing htype hmethod hframe
  | none =>
    obtain ⟨e, he⟩ := writePayload_of_none none hframe
    have hreject : processFrame f conn = reject "broker closed" conn := by
      rw [hrun]
      unfold answerClose sendMethod
      rw [he]
    refine taken_of_reject hreject fun _ method h => ?_
    rw [hmethod] at h
    cases h
    rfl

theorem processConfirm_taken {method : Method} {deliveryTag : Nat} {multiple : Bool}
    {outcome : Except Exc Unit} (htype : f.frameType = .method)
    (hmethod : decodeMethod f.payload = .ok method) (hhandled : Handled method = false)
    (hconfirm : confirmOf method = some (deliveryTag, multiple, outcome))
    (hrun : processFrame f conn = processConfirm f.channel method deliveryTag multiple outcome conn) :
    FrameTaken conn f (conn.readFrame f) := by
  rw [processConfirm, modify_run] at hrun
  rw [readFrame_of_ok hrun]
  cases henabled : (conn.trackerOf f.channel).enabled with
  | true =>
    rw [if_pos rfl]
    exact .confirmed htype hmethod hconfirm henabled
  | false =>
    rw [if_neg Bool.false_ne_true]
    exact .replied htype hmethod hhandled fun _ => henabled

theorem processMethod_taken (htype : f.frameType = .method) :
    FrameTaken conn f (conn.readFrame f) := by
  have hprocess : processFrame f conn = processMethod f.channel f.payload conn := by
    rw [processFrame, htype]
  rw [processMethod] at hprocess
  obtain ⟨method, hmethod⟩ | ⟨e, he⟩ := ok_or_error (decodeMethod f.payload)
  · rw [hmethod, bind_run_ok (lift_ok _ _)] at hprocess
    have hreplied (hhandled : Handled method = false) (hconfirm : confirmOf method = none)
        (hrun : processFrame f conn = .ok () (conn.settleWaiter f.channel method)) :
        FrameTaken conn f (conn.readFrame f) := by
      rw [readFrame_of_ok hrun]
      exact .replied htype hmethod hhandled fun hne => absurd hconfirm hne
    cases method
    case connectionSecure challenge =>
      refine taken_of_reject hprocess fun _ method h => ?_
      rw [hmethod] at h
      cases h
      rfl
    case connectionBlocked reason =>
      rw [readFrame_of_ok hprocess]
      exact .blocked true htype hmethod rfl
    case connectionUnblocked =>
      rw [readFrame_of_ok hprocess]
      exact .blocked false htype hmethod rfl
    case basicDeliver args =>
      rw [readFrame_of_ok hprocess]
      exact .continued (.delivered htype hmethod) (by simp)
    case basicReturn args =>
      rw [readFrame_of_ok hprocess]
      exact .continued (.returned htype hmethod) (by simp)
    case basicAck deliveryTag multiple => exact processConfirm_taken htype hmethod rfl rfl hprocess
    case basicNack deliveryTag multiple requeue =>
      exact processConfirm_taken htype hmethod rfl rfl hprocess
    case connectionClose args => exact answerClose_taken htype hmethod hprocess
    all_goals exact hreplied rfl rfl hprocess
  · rw [he, bind_run_error (lift_error _ _)] at hprocess
    rw [readFrame_of_error hprocess]
    refine .ended fun _ method h => ?_
    rw [he] at h
    cases h

theorem processHeader_taken (htype : f.frameType = .header) :
    FrameTaken conn f (conn.readFrame f) := by
  have hprocess : processFrame f conn = processHeader f.channel f.payload conn := by
    rw [processFrame, htype]
  rw [processHeader] at hprocess
  obtain ⟨header, hheader⟩ | ⟨e, he⟩ := ok_or_error (decodeContentHeader f.payload)
  · rw [hheader, bind_run_ok (lift_ok _ _), bind_run_ok (get_run _)] at hprocess
    cases hslot : conn.pendingContent.get? f.channel with
    | none =>
      rw [hslot] at hprocess
      exact taken_of_reject hprocess fun hmethod => by simp [htype] at hmethod
    | some slot =>
      simp only [hslot] at hprocess
      by_cases hzero : header.bodySize = 0
      · rw [if_pos hzero] at hprocess
        rw [readFrame_of_ok hprocess]
        exact .finished (.header htype hheader hslot) (by simp [hzero])
      · rw [if_neg hzero] at hprocess
        rw [readFrame_of_ok hprocess]
        exact .continued (.header htype hheader hslot) (by simp [hzero])
  · rw [he, bind_run_error (lift_error _ _)] at hprocess
    rw [readFrame_of_error hprocess]
    exact .ended fun hmethod => by simp [htype] at hmethod

theorem processBody_taken (htype : f.frameType = .body) : FrameTaken conn f (conn.readFrame f) := by
  have hprocess : processFrame f conn = processBody f.channel f.payload conn := by
    rw [processFrame, htype]
  rw [processBody, bind_run_ok (get_run _)] at hprocess
  cases hpending : (conn.pendingContent.get? f.channel).bind fun slot =>
      slot.remaining.map fun n => (slot, n) with
  | none =>
    rw [hpending] at hprocess
    exact taken_of_reject hprocess fun hmethod => by simp [htype] at hmethod
  | some pending =>
    obtain ⟨slot, hslot, hmap⟩ := Option.bind_eq_some_iff.mp hpending
    obtain ⟨remaining, hremaining, rfl⟩ := Option.map_eq_some_iff.mp hmap
    simp only [hpending] at hprocess
    by_cases hover : remaining < f.payload.length
    · rw [if_pos hover] at hprocess
      exact taken_of_reject hprocess fun hmethod => by simp [htype] at hmethod
    · have hle : f.payload.length ≤ remaining := Nat.le_of_not_lt hover
      rw [if_neg hover] at hprocess
      by_cases hlast : remaining = f.payload.length
      · rw [if_pos hlast] at hprocess
        rw [readFrame_of_ok hprocess]
        exact .finished (.body htype hslot hremaining hle) (by simp [hlast])
      · rw [if_neg hlast] at hprocess
        rw [readFrame_of_ok hprocess]
        exact .continued (.body htype hslot hremaining hle) (by simp; omega)

theorem readFrame_taken (conn : Conn) (f : Frame) : FrameTaken conn f (conn.readFrame f) := by
  cases htype : f.frameType with
  | heartbeat =>
    have hprocess : processFrame f conn = .ok () conn := by
      rw [processFrame, htype]
      rfl
    rw [readFrame_of_ok hprocess]
    exact .heartbeat htype
  | method => exact processMethod_taken htype
  | header => exact processHeader_taken htype
  | body => exact processBody_taken htype

end Taken

end Nuropb.Transport
