import Nuropb.Transport.Publish
import Nuropb.Transport.FrameTaken

/-! # Tasks on one connection

Any number of tasks run operations of one connection next to its read loop. A task runs
without interruption from one await to the next; an event resumes one task, gives the read
loop a frame, or lets time or the transport intervene. Tasks wait in a drain, for the reply to
a request, or for a publisher confirm.
-/
namespace Nuropb.Transport

open Library Protocol

/-- The synchronous operations: each writes one request and awaits one reply. -/
inductive SyncRequest
  | queueDeclare (channel : Int) (args : QueueDeclareArgs)
  | exchangeDeclare (channel : Int) (args : ExchangeDeclareArgs)
  | queueBind (channel : Int) (args : QueueBindArgs)
  | basicConsume (channel : Int) (queue consumerTag : Text)
  | basicCancel (channel : Int) (consumerTag : Text)
  | confirmSelect (channel : Int)
  | updateSecret (newSecret : Text ⊕ Bytes) (reason : Text)

namespace SyncRequest

def channel : SyncRequest → Int
  | queueDeclare channel _ | exchangeDeclare channel _ | queueBind channel _
  | basicConsume channel _ _ | basicCancel channel _ | confirmSelect channel => channel
  | updateSecret _ _ => 0

def method : SyncRequest → Method
  | queueDeclare _ args => .queueDeclare args
  | exchangeDeclare _ args => .exchangeDeclare args
  | queueBind _ args => .queueBind args
  | basicConsume _ queue consumerTag => .basicConsume { queue, consumerTag }
  | basicCancel _ consumerTag => .basicCancel consumerTag false
  | confirmSelect _ => .confirmSelect false
  | updateSecret newSecret reason => .connectionUpdateSecret newSecret reason

def replyIds (r : SyncRequest) : MethodId := (r.method.ids.1, r.method.ids.2 + 1)

/-- What `_expect` registers the future under. -/
def key (r : SyncRequest) : WaiterKey := (r.channel, r.replyIds)

def start (caller : CallId) : SyncRequest → ConnM Bool
  | confirmSelect channel => startConfirmSelect caller channel
  | updateSecret newSecret reason => do
    let conn ← get
    throwIf (¬conn.sm.isOpen) (.protocolError "connection not open")
    sendMethod caller 0 (updateSecret newSecret reason).method
    return true
  | r => do
    assertOpenForOps r.channel
    sendMethod caller r.channel r.method
    return true

def result : SyncRequest → Method → Except Exc (Option Text)
  | queueDeclare .., .queueDeclareOk queue _ _ => .ok (some queue)
  | basicConsume .., .basicConsumeOk consumerTag => .ok (some consumerTag)
  | basicCancel .., .basicCancelOk consumerTag => .ok (some consumerTag)
  | queueDeclare .., _ | basicConsume .., _ | basicCancel .., _ => .error .keyError
  | updateSecret (.inr raw) _, _ => (decodeUtf8 raw).map fun _ => none
  | _, _ => .ok none

/-- The operation from its reply on. -/
def finish (r : SyncRequest) (reply : Method) : ConnM (Option Text) :=
  match r with
  | confirmSelect channel => do
    finishConfirmSelect channel
    return none
  | r => lift (r.result reply)

theorem finish_of_ne_select {r : SyncRequest} (h : ¬∃ channel, r = confirmSelect channel) (reply : Method) :
    r.finish reply = lift (r.result reply) := by
  cases r <;> first | rfl | exact absurd ⟨_, rfl⟩ h

inductive Reached (caller : CallId) (r : SyncRequest) (conn : Conn) :
    EStateM.Result Exc Conn Bool → Prop
  | refused {e : Exc} {conn' : Conn} (hrefused : conn.Refused conn') : Reached caller r conn (.error e conn')
  | immediate {channel : Int} {conn' : Conn} (hselect : r = confirmSelect channel)
    (hrefused : conn.Refused conn') : Reached caller r conn (.ok false conn')
  | asked {conn' : Conn} {frame : Frame} (hrefused : conn.Refused conn')
    (hframe : frameOf conn.frameMax .method r.channel (encodeMethod r.method) = some frame) :
    Reached caller r conn (.ok true (conn'.append caller [frame]))

section Start

variable {caller : CallId} {r : SyncRequest} {conn : Conn}

theorem sendMethod_reached (caller : CallId) (r : SyncRequest) (conn : Conn) :
    Reached caller r conn ((do sendMethod caller r.channel r.method
                               return true) conn) := by
  cases hframe : frameOf conn.frameMax .method r.channel (encodeMethod r.method) with
  | some frame =>
    rw [sendMethod, bind_run_ok (writePayload_of_some hframe)]
    exact .asked (.refl conn) hframe
  | none =>
    obtain ⟨e, he⟩ := writePayload_of_none (some caller) hframe
    rw [sendMethod, bind_run_error he]
    exact .refused (.refl conn)

theorem checked_reached (caller : CallId) (r : SyncRequest) (conn : Conn) :
    Reached caller r conn ((do assertOpenForOps r.channel
                               sendMethod caller r.channel r.method
                               return true) conn) := by
  cases hcheck : assertOpenForOps r.channel conn with
  | error e conn' =>
    rw [bind_run_error hcheck]
    exact .refused (assertOpenForOps_raises hcheck).2
  | ok u conn' =>
    obtain ⟨-, rfl⟩ := assertOpenForOps_returns.mp hcheck
    rw [bind_run_ok hcheck]
    exact sendMethod_reached caller r conn'

theorem start_reached (caller : CallId) (r : SyncRequest) (conn : Conn) :
    Reached caller r conn (r.start caller conn) := by
  cases r with
  | confirmSelect channel =>
    rw [start]
    cases hstart : startConfirmSelect caller channel conn with
    | error e conn' => exact .refused (startConfirmSelect_raises hstart)
    | ok requested conn' =>
      obtain ⟨-, ⟨-, rfl, rfl⟩ | ⟨-, rfl, frame, hframe, rfl⟩⟩ := startConfirmSelect_returns hstart
      · exact .immediate rfl ⟨_, _, rfl, fun c => Conn.trackerOf_setTracker_same conn channel c⟩
      · exact .asked ⟨_, _, rfl, fun c => Conn.trackerOf_setTracker_same conn channel c⟩ hframe
  | updateSecret newSecret reason =>
    rw [start, bind_run_ok (get_run _)]
    by_cases hopen : conn.sm.isOpen = true
    · rw [bind_run_ok (throwIf_of_not (not_not.mpr hopen) _ _)]
      exact sendMethod_reached caller (updateSecret newSecret reason) conn
    · rw [bind_run_error (throwIf_of hopen _ _)]
      exact .refused (.refl conn)
  | _ => exact checked_reached caller _ conn

end Start

end SyncRequest

/-- Where a task stands. A tag is that of the confirm that a publish awaits or has awaited; a
request on behalf of a publish carries what is to be published. -/
inductive Phase
  | draining (request : SyncRequest) (next : Option (PublishArgs × Properties))
  | expecting (request : SyncRequest) (next : Option (PublishArgs × Properties))
  | publishDraining (args : PublishArgs) (tag : Option Nat)
  | confirming (args : PublishArgs) (tag : Nat)
  | done (confirm : Option (PublishArgs × Nat)) (outcome : Except Exc (Option Text))

namespace Phase

def confirm : Phase → Option (PublishArgs × Nat)
  | .publishDraining args tag => tag.map fun t => (args, t)
  | .confirming args tag => some (args, tag)
  | .done confirm _ => confirm
  | _ => none

def next : Phase → Option (PublishArgs × Properties)
  | .draining _ next | .expecting _ next => next
  | _ => none

def request : Phase → Option SyncRequest
  | .draining r _ | .expecting r _ => some r
  | _ => none

end Phase

inductive Interrupt
  | connectionReset
  | cancelled

def Interrupt.exc : Interrupt → Exc
  | .connectionReset => .osError
  | .cancelled => .cancelledError

structure Machine where
  conn : Conn
  calls : CallId → Option Phase := fun _ => none
  asked : CallId → Option SyncRequest := fun _ => none
  received : List Frame := []
  /-- How many frames it had taken when the deadline of a call's wait passed. -/
  expired : CallId → Option Nat := fun _ => none
  ended : CallId → Option (Except Exc (Option Text)) := fun _ => none

inductive Event
  | request (id : CallId) (r : SyncRequest)
  | publish (id : CallId) (args : PublishArgs)
  | drained (id : CallId) (failure : Option Interrupt)
  | wake (id : CallId)
  /-- The ten seconds of a wait for a reply are over. -/
  | deadline (id : CallId)
  | cancel (id : CallId)
  | frame (f : Frame)
  /-- The reply to the peer's close is drained. -/
  | closeDrained
  | eof
  /-- The heartbeat or an I/O error reports the loss. -/
  | lose (exc : Exc)

/-- `self._return_by_tag.get(channel_id, {}).pop(tag, None)` -/
def Conn.popReturn (conn : Conn) (channel : Int) (tag : Nat) : Option ReturnedMessage × Conn :=
  match conn.returnByTag.get? channel with
  | none => (none, conn)
  | some byTag =>
    (byTag.get? tag, { conn with returnByTag := conn.returnByTag.set channel (byTag.erase tag) })

namespace Machine

def setCall (m : Machine) (id : CallId) (phase : Phase) : Machine :=
  { m with calls := fun other => if other = id then some phase else m.calls other }

def setConn (m : Machine) (conn : Conn) : Machine := { m with conn }

def ask (m : Machine) (id : CallId) (r : SyncRequest) (next : Option (PublishArgs × Properties)) :
    Machine :=
  { m.setCall id (.draining r next) with
    asked := fun other => if other = id then some r else m.asked other }

/-- The end of a publish whose confirm has come: `PublishReturned` if the message came back. -/
def finishConfirm (m : Machine) (id : CallId) (args : PublishArgs) (tag : Nat) : Machine :=
  if args.mandatory then
    match m.conn.popReturn args.channel tag with
    | (some returned, conn) =>
      (m.setConn conn).setCall id (.done (some (args, tag)) (.error (.publishReturned returned)))
    | (none, conn) => (m.setConn conn).setCall id (.done (some (args, tag)) (.ok none))
  else m.setCall id (.done (some (args, tag)) (.ok none))

/-- `await confirm_fut`, which does not suspend when the future is done. -/
def awaitConfirm (m : Machine) (id : CallId) (args : PublishArgs) (tag : Nat) : Machine :=
  match m.conn.confirms id with
  | none => m.setCall id (.confirming args tag)
  | some (.error e) => m.setCall id (.done (some (args, tag)) (.error e))
  | some (.ok _) => m.finishConfirm id args tag

def afterDrain (m : Machine) (id : CallId) (args : PublishArgs) : Option Nat → Machine
  | none => m.setCall id (.done none (.ok none))
  | some tag => m.awaitConfirm id args tag

def publishReached (m : Machine) (id : CallId) (args : PublishArgs) :
    EStateM.Result Exc Conn PublishStep → Machine
  | .ok (.selecting props) conn =>
    (m.setConn conn).ask id (.confirmSelect args.channel) (some (args, props))
  | .ok (.written tag) conn =>
    if args.drain then (m.setConn conn).setCall id (.publishDraining args tag)
    else (m.setConn conn).afterDrain id args tag
  | .error e conn => (m.setConn conn).setCall id (.done none (.error e))

def requestReached (m : Machine) (id : CallId) (r : SyncRequest) :
    EStateM.Result Exc Conn Bool → Machine
  | .ok true conn => (m.setConn conn).ask id r none
  | .ok false conn => (m.setConn conn).setCall id (.done none (.ok none))
  | .error e conn => (m.setConn conn).setCall id (.done none (.error e))

def endRequest (m : Machine) (id : CallId) (outcome : Except Exc (Option Text)) : Machine :=
  { m with ended := fun other => if other = id then some outcome else m.ended other }

/-- A request from its reply on; a publish goes on to register and to write its content. -/
def answered (m : Machine) (id : CallId) (r : SyncRequest) (next : Option (PublishArgs × Properties))
    (reply : Method) : Machine :=
  match r.finish reply m.conn with
  | .error e conn => ((m.setConn conn).endRequest id (.error e)).setCall id (.done none (.error e))
  | .ok result conn =>
    match next with
    | none => ((m.setConn conn).endRequest id (.ok result)).setCall id (.done none (.ok result))
    | some (args, props) => ((m.setConn conn).endRequest id (.ok result)).publishReached id args
        (publishSegment id args (.afterSelect props) conn)

/-- The `finally` of `_expect`. -/
def forgetWaiter (m : Machine) (key : WaiterKey) : Machine :=
  m.setConn { m.conn with waiters := m.conn.waiters.erase key }

def expected (m : Machine) (id : CallId) (r : SyncRequest) (next : Option (PublishArgs × Properties)) :
    Except Exc Method → Machine
  | .ok reply => (m.forgetWaiter r.key).answered id r next reply
  | .error e => ((m.forgetWaiter r.key).endRequest id (.error e)).setCall id (.done none (.error e))

/-- `_expect` up to its await. -/
def expect (m : Machine) (id : CallId) (r : SyncRequest) (next : Option (PublishArgs × Properties)) :
    Machine :=
  (m.setConn { m.conn with waiters := m.conn.waiters.set r.key id }).setCall id (.expecting r next)

def settleReply (m : Machine) (id : CallId) (outcome : Except Exc Method) : Machine :=
  m.setConn { m.conn with
    replies := fun other => if other = id then some outcome else m.conn.replies other }

def settleConfirm (m : Machine) (id : CallId) (outcome : Except Exc Unit) : Machine :=
  m.setConn { m.conn with
    confirms := fun other => if other = id then some outcome else m.conn.confirms other }

def drained (m : Machine) (id : CallId) (failure : Option Interrupt) : Option Machine :=
  match m.calls id, failure with
  | some (.draining r next), none => some (m.expect id r next)
  | some (.draining _ _), some i => some (m.setCall id (.done none (.error i.exc)))
  | some (.publishDraining args tag), none => some (m.afterDrain id args tag)
  | some (.publishDraining args tag), some i =>
    some (m.setCall id (.done (tag.map fun t => (args, t)) (.error i.exc)))
  | _, _ => none

def wake (m : Machine) (id : CallId) : Option Machine :=
  match m.calls id with
  | some (.expecting r next) => (m.conn.replies id).map (m.expected id r next)
  | some (.confirming args tag) =>
    if (m.conn.confirms id).isSome then some (m.awaitConfirm id args tag) else none
  | _ => none

/-- The timer cancels a future that is pending; a done one has its task resumed first. -/
def deadline (m : Machine) (id : CallId) : Option Machine :=
  match m.calls id, m.conn.replies id with
  | some (.expecting _ _), none =>
    some { m.settleReply id (.error .timeoutError) with
      expired := fun other => if other = id then some m.received.length else m.expired other }
  | _, _ => none

def cancel (m : Machine) (id : CallId) : Option Machine :=
  match m.calls id with
  | some (.expecting _ _) => some (m.settleReply id (.error .cancelledError))
  | some (.confirming _ _) => some (m.settleConfirm id (.error .cancelledError))
  | _ => none

def readFrame (m : Machine) (f : Frame) : Machine :=
  { m.setConn (m.conn.readFrame f) with received := m.received ++ [f] }

def step (m : Machine) : Event → Option Machine
  | .request id r =>
    if m.calls id = none then some (m.requestReached id r (r.start id m.conn)) else none
  | .publish id args =>
    if m.calls id = none then some (m.publishReached id args (publishSegment id args .call m.conn))
    else none
  | .drained id failure => m.drained id failure
  | .wake id => m.wake id
  | .deadline id => m.deadline id
  | .cancel id => m.cancel id
  | .frame f => if m.conn.reader = .running then some (m.readFrame f) else none
  | .closeDrained =>
    match m.conn.reader with
    | .closing reason => some (m.setConn (m.conn.endReader (.protocolError reason)))
    | _ => none
  | .eof =>
    if m.conn.reader = .running then
      some (m.setConn (m.conn.endReader (.protocolError "broker closed connection")))
    else none
  | .lose exc => some (m.setConn (m.conn.notifyLoss exc))

end Machine

def Conn.opened (frameMax : Nat) (h : frameMax < 2 ^ 32) (channels : List Int) : Conn where
  frameMax
  frameMax_lt := h
  channels := Dict.fill channels .open
  confirm := Dict.fill channels {}
  mandatoryTags := Dict.fill channels []
  returnByTag := Dict.fill channels .empty

def Machine.opened (frameMax : Nat) (h : frameMax < 2 ^ 32) (channels : List Int) : Machine where
  conn := Conn.opened frameMax h channels

def openedOne : Machine := Machine.opened defaultFrameMax defaultFrameMax_lt [1]

end Nuropb.Transport
