import Nuropb.Transport.Connection

/-! # The read loop

What one inbound frame does to the connection: content is assembled in a slot for each
channel, acks and nacks settle confirms, other methods settle the waiter of their channel and
ids. Whatever the loop raises ends it and loses the connection.
-/
namespace Nuropb.Transport

open Library Protocol

def excText : Exc → String
  | .protocolError reason | .connectionLost reason | .connectionBlocked reason
  | .amqpCodecError reason | .valueError reason | .runtimeError reason => reason
  | _ => ""

/-- The loss that tasks observe is a `ConnectionLost`. -/
def asLoss : Exc → Exc
  | .connectionLost reason => .connectionLost reason
  | e => .connectionLost (excText e)

namespace Conn

/-- `_notify_loss`: only the first loss counts. -/
def notifyLoss (conn : Conn) (exc : Exc) : Conn :=
  match conn.lost with
  | some _ => conn
  | none =>
    { conn with
      lost := some (asLoss exc)
      replies := settle conn.replies conn.waiters.values (.error (asLoss exc))
      confirms := settle conn.confirms (conn.confirm.values.flatMap fun t => t.failAll.1)
        (.error (asLoss exc))
      confirm := conn.confirm.mapValues fun t => t.failAll.2
      mandatoryTags := .empty
      returnByTag := .empty }

/-- `_clear_mandatory_tags`: drop tags that were confirmed without a preceding return. -/
def clearMandatoryTags (conn : Conn) (channel : Int) (deliveryTag : Nat) (multiple : Bool) : Conn :=
  match conn.mandatoryTags.get? channel with
  | none => conn
  | some tags =>
    let remaining :=
      if multiple then tags.filter fun t => deliveryTag < t else tags.erase deliveryTag
    { conn with mandatoryTags := conn.mandatoryTags.set channel remaining }

def settleConfirms (conn : Conn) (channel : Int) (deliveryTag : Nat) (multiple : Bool)
    (outcome : Except Exc Unit) : Conn :=
  let (futs, tracker) := (conn.trackerOf channel).resolve deliveryTag multiple
  { conn.setTracker channel tracker with confirms := settle conn.confirms futs outcome }

/-- `fut = self._waiters.get(key)`, which is given the method unless it is done. -/
def settleWaiter (conn : Conn) (channel : Int) (method : Method) : Conn :=
  match conn.waiters.get? (channel, method.ids) with
  | none => conn
  | some fut => { conn with replies := settle conn.replies [fut] (.ok method) }

def setSlot (conn : Conn) (channel : Int) (slot : Slot) : Conn :=
  { conn with pendingContent := conn.pendingContent.set channel slot }

/-- `_finish_return`: the return is attributed to the oldest unconfirmed mandatory tag. -/
def finishReturn (conn : Conn) (channel : Int) (args : BasicReturnArgs) (body : Bytes)
    (properties : Properties) : Conn :=
  let returned : ReturnedMessage :=
    { replyCode := args.replyCode.toNat, replyText := args.replyText, exchange := args.exchange,
      routingKey := args.routingKey, body, properties }
  let attributed := match conn.mandatoryTags.get? channel with
    | some (tag :: rest) =>
      { conn with
        mandatoryTags := conn.mandatoryTags.set channel rest
        returnByTag := conn.returnByTag.set channel
          (((conn.returnByTag.get? channel).getD .empty).set tag returned) }
    | _ => conn
  { attributed with returns := attributed.returns ++ [returned] }

def finishDelivery (conn : Conn) (channel : Int) (slot : Slot) : Conn :=
  let conn := { conn with pendingContent := conn.pendingContent.erase channel }
  match slot.method with
  | .returned args => conn.finishReturn channel args slot.body slot.properties
  | .deliver args =>
    { conn with deliveries := conn.deliveries ++
        [{ deliveryTag := args.deliveryTag, exchange := args.exchange, routingKey := args.routingKey,
           body := slot.body, properties := slot.properties, redelivered := args.redelivered,
           consumerTag := args.consumerTag }] }

/-! What the helpers leave alone. -/

theorem clearMandatoryTags_eq (conn : Conn) (channel : Int) (deliveryTag : Nat) (multiple : Bool) :
    ∃ mandatoryTags, conn.clearMandatoryTags channel deliveryTag multiple = { conn with mandatoryTags } := by
  unfold clearMandatoryTags
  split
  · exact ⟨conn.mandatoryTags, rfl⟩
  · exact ⟨_, rfl⟩

theorem settleWaiter_eq (conn : Conn) (channel : Int) (method : Method) :
    ∃ replies, conn.settleWaiter channel method = { conn with replies } := by
  unfold settleWaiter
  split
  · exact ⟨conn.replies, rfl⟩
  · exact ⟨_, rfl⟩

theorem finishReturn_eq (conn : Conn) (channel : Int) (args : BasicReturnArgs) (body : Bytes)
    (properties : Properties) : ∃ mandatoryTags returnByTag returns,
      conn.finishReturn channel args body properties =
        { conn with mandatoryTags, returnByTag, returns } := by
  unfold finishReturn
  split
  · exact ⟨_, _, _, rfl⟩
  · exact ⟨_, _, _, rfl⟩

theorem finishDelivery_eq (conn : Conn) (channel : Int) (slot : Slot) :
    ∃ mandatoryTags returnByTag returns deliveries, conn.finishDelivery channel slot =
      { conn with pendingContent := conn.pendingContent.erase channel, mandatoryTags, returnByTag,
                  returns, deliveries } := by
  cases hslot : slot.method with
  | returned args =>
    obtain ⟨mandatoryTags, returnByTag, returns, heq⟩ := finishReturn_eq
      { conn with pendingContent := conn.pendingContent.erase channel } channel args slot.body
      slot.properties
    exact ⟨mandatoryTags, returnByTag, returns, conn.deliveries, by simp only [finishDelivery, hslot, heq]⟩
  | deliver args =>
    exact ⟨conn.mandatoryTags, conn.returnByTag, conn.returns, _, by simp only [finishDelivery, hslot]; rfl⟩

end Conn

def reject {α : Type} (reason : String) : ConnM α := do
  modify fun conn => { conn with sm := .error }
  throw (.protocolError reason)

/-- Acks and nacks go to a confirming tracker, else to the waiters like any other method. -/
def processConfirm (channel : Int) (method : Method) (deliveryTag : Nat) (multiple : Bool)
    (outcome : Except Exc Unit) : ConnM Unit :=
  modify fun conn =>
    if (conn.trackerOf channel).enabled then
      (conn.clearMandatoryTags channel deliveryTag multiple).settleConfirms channel deliveryTag
        multiple outcome
    else conn.settleWaiter channel method

/-- The reply to a close is written and drained first; `finally` rejects even when it cannot be
written. -/
def answerClose : ConnM Unit := fun conn =>
  match sendMethod none 0 .connectionCloseOk conn with
  | .ok _ conn' => .ok () { conn' with reader := .closing "broker closed" }
  | .error _ conn' => reject "broker closed" conn'

def processMethod (channel : Int) (payload : Bytes) : ConnM Unit := do
  let method ← lift (decodeMethod payload)
  match method with
  | .connectionSecure _ =>
    reject "connection.secure not supported (unexpected SASL challenge after start-ok)"
  | .connectionBlocked _ => modify fun conn => { conn with publishBlocked := true }
  | .connectionUnblocked => modify fun conn => { conn with publishBlocked := false }
  | .basicDeliver args => modify fun conn => conn.setSlot channel { method := .deliver args }
  | .basicReturn args => modify fun conn => conn.setSlot channel { method := .returned args }
  | .basicAck deliveryTag multiple =>
    processConfirm channel method deliveryTag.toNat multiple (.ok ())
  | .basicNack deliveryTag multiple _ =>
    processConfirm channel method deliveryTag.toNat multiple
      (.error (.publishNack deliveryTag.toNat multiple))
  | .connectionClose _ => answerClose
  | _ => modify fun conn => conn.settleWaiter channel method

def processHeader (channel : Int) (payload : Bytes) : ConnM Unit := do
  let header ← lift (decodeContentHeader payload)
  let conn ← get
  match conn.pendingContent.get? channel with
  | none => reject "content header without deliver or return"
  | some slot =>
    let slot := { slot with properties := header.properties, remaining := some header.bodySize }
    if header.bodySize = 0 then modify fun conn => conn.finishDelivery channel slot
    else modify fun conn => conn.setSlot channel slot

def processBody (channel : Int) (payload : Bytes) : ConnM Unit := do
  let conn ← get
  match (conn.pendingContent.get? channel).bind fun slot => slot.remaining.map fun n => (slot, n) with
  | none => reject "body frame without header"
  | some (slot, remaining) =>
    -- A body in one frame takes its payload as it is; else the payloads are collected.
    let slot := { slot with body := slot.body ++ payload, remaining := some (remaining - payload.length) }
    if remaining < payload.length then reject "body exceeded content header size"
    else if remaining = payload.length then modify fun conn => conn.finishDelivery channel slot
    else modify fun conn => conn.setSlot channel slot

def processFrame (frame : Frame) : ConnM Unit :=
  match frame.frameType with
  | .heartbeat => return ()
  | .method => processMethod frame.channel frame.payload
  | .header => processHeader frame.channel frame.payload
  | .body => processBody frame.channel frame.payload

/-- The loop ends with a loss: what was raised is recorded and the machine is in error. -/
def Conn.endReader (conn : Conn) (exc : Exc) : Conn :=
  { conn.notifyLoss exc with sm := .error, reader := .stopped }

def Conn.readFrame (conn : Conn) (frame : Frame) : Conn :=
  match processFrame frame conn with
  | .ok _ conn' => conn'
  | .error e conn' => conn'.endReader e

def processFrames : List Frame → ConnM Unit
  | [] => return ()
  | frame :: rest => do
    processFrame frame
    processFrames rest

end Nuropb.Transport
