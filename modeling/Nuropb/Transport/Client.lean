import Nuropb.Library.AsyncQueue
import Nuropb.Transport.Handshake
import Nuropb.Transport.Tasks

/-! # The life of a connection

The tasks of an open connection, next to those that connect it, open its channels, settle and
receive its messages, and close or drop it. What the read loop emits is put into two queues, and a
loss puts one sentinel into each.
-/
namespace Nuropb.Transport

open Library Protocol

/-- The operations that settle a delivery: each writes one method and awaits at most its drain. -/
inductive Settlement
  | basicAck (channel : Int) (deliveryTag : Int)
  | basicNack (channel : Int) (deliveryTag : Int) (requeue multiple : Bool)
  | basicReject (channel : Int) (deliveryTag : Int) (requeue : Bool)

namespace Settlement

def channel : Settlement → Int
  | basicAck channel _ | basicNack channel _ _ _ | basicReject channel _ _ => channel

def method : Settlement → Method
  | basicAck _ deliveryTag => .basicAck deliveryTag false
  | basicNack _ deliveryTag requeue multiple => .basicNack deliveryTag multiple requeue
  | basicReject _ deliveryTag requeue => .basicReject deliveryTag requeue

def start (caller : CallId) (op : Settlement) : ConnM Unit := do
  assertOpenForOps op.channel
  sendMethod caller op.channel op.method

end Settlement

def channelTransition (channel : Int) (f : ChanState.Transition) : ConnM Unit := do
  let conn ← get
  let state ← lift (orRaise .keyError (conn.channels.get? channel))
  match f state with
  | .ok s => modify fun conn => { conn with channels := conn.channels.set channel s }
  | .error reason => do
    modify fun conn => { conn with channels := conn.channels.set channel .error }
    throw (.protocolError reason)

def startOpenChannel (caller : CallId) (channel : Int) : ConnM Unit := do
  let conn ← get
  throwIf (¬conn.sm.isOpen) (.protocolError "connection not open")
  throwIf (conn.channels.contains channel) (.protocolError s!"channel {channel} already exists")
  modify fun conn => { conn with
    channels := conn.channels.set channel .closed
    confirm := conn.confirm.set channel {}
    mandatoryTags := conn.mandatoryTags.set channel []
    returnByTag := conn.returnByTag.set channel .empty }
  channelTransition channel ChanState.onOpenSent
  sendMethod caller channel (.channelOpen [])

/-- The part of `close` that runs on an open connection, up to its drain. -/
def startClose (caller : CallId) : ConnM Unit := do
  transition ConnState.beginClose
  sendMethod caller 0 (.connectionClose { replyText := Text.ofString "bye" })

namespace Conn

def expect (conn : Conn) (key : WaiterKey) (id : CallId) : Conn :=
  { conn with
    waiters := conn.waiters.set key id
    replies := fun other => if other = id then none else conn.replies other }

def forget (conn : Conn) (key : WaiterKey) : Conn := { conn with waiters := conn.waiters.erase key }

def settleReply (conn : Conn) (id : CallId) (outcome : Except Exc Method) : Conn :=
  { conn with replies := fun other => if other = id then some outcome else conn.replies other }

/-- A reader that waits for bytes takes its cancellation at once; one that answers a close ends with
its rejection. -/
def cancelReader (conn : Conn) : Conn :=
  if conn.reader = .running then { conn with reader := .stopped } else conn

end Conn

/-- Where `close` waits. In its `finally` it carries what it is to raise. -/
inductive CloseStep
  | draining
  | expecting
  | reader (failure : Option Exc)
  | writer (failure : Option Exc)

inductive DropStep
  | writer
  | reader

/-- What a task is doing that does not run one of the synchronous operations or a publish. -/
inductive Job
  | connecting (step : Handshake)
  | openDraining (channel : Int)
  | openExpecting (channel : Int)
  | settling
  | receiving (timeout : Bool)
  | receivingReturn (timeout : Bool)
  | closing (step : CloseStep)
  | dropping (step : DropStep)
  | ended (outcome : Except Exc Unit)

def Job.key : Job → Option WaiterKey
  | .connecting step => step.expects.map fun ids => (0, ids)
  | .openExpecting channel => some (channel, (20, 11))
  | .closing .expecting => some (0, (10, 51))
  | _ => none

structure Client where
  config : ConnectionConfig := {}
  tasks : Machine
  closed : Bool := false
  beating : Bool := false
  /-- The queues; nothing for the sentinel of a loss. -/
  deliveries : AsyncQueue CallId (Option IncomingMessage) := {}
  returns : AsyncQueue CallId (Option ReturnedMessage) := {}
  jobs : CallId → Option Job := fun _ => none
  closeReturned : Bool := false

inductive ClientEvent
  | task (e : Event)
  | connect (id : CallId)
  | openChannel (id : CallId) (channel : Int)
  | settle (id : CallId) (op : Settlement) (drain : Bool)
  | receive (id : CallId) (timeout : Bool)
  | receiveReturn (id : CallId) (timeout : Bool)
  | close (id : CallId)
  | forceDrop (id : CallId)
  /-- What a job awaits of the transport, or of the end of the reader, returns or raises; a
  cancellation of the wait for the reader is taken for its end. -/
  | resumed (id : CallId) (failure : Option Exc)
  | wakeJob (id : CallId)
  | expire (id : CallId)
  | cancelJob (id : CallId)
  | heartbeat
  | readerStops

namespace Client

def conn (c : Client) : Conn := c.tasks.conn

def expectsAt (c : Client) (id : CallId) : Option WaiterKey :=
  match c.tasks.calls id with
  | some (.expecting r _) => some r.key
  | some _ => none
  | none => (c.jobs id).bind Job.key

/-- The task awaits a future that is pending: a method, a confirm, or an item without a timeout. -/
def waiting (c : Client) (id : CallId) : Bool :=
  (c.expectsAt id).isSome && (c.conn.replies id).isNone ||
    match c.tasks.calls id, c.jobs id with
    | some (.confirming _ _), _ => (c.conn.confirms id).isNone
    | none, some (.receiving timeout) => !timeout && c.deliveries.getters.contains id
    | none, some (.receivingReturn timeout) => !timeout && c.returns.getters.contains id
    | _, _ => false

def fresh (c : Client) (id : CallId) : Bool := (c.tasks.calls id).isNone && (c.jobs id).isNone

def absorb (c : Client) (tasks : Machine) : Client :=
  let emitted := tasks.conn.deliveries.drop c.conn.deliveries.length
  let returned := tasks.conn.returns.drop c.conn.returns.length
  let deliveries := emitted.foldl (fun q m => q.put (some m)) c.deliveries
  let returns := returned.foldl (fun q m => q.put (some m)) c.returns
  if c.conn.lost.isNone ∧ tasks.conn.lost.isSome then
    { c with tasks, deliveries := deliveries.put none, returns := returns.put none }
  else { c with tasks, deliveries, returns }

def setConn (c : Client) (conn : Conn) : Client := c.absorb (c.tasks.setConn conn)

def setJob (c : Client) (id : CallId) (job : Job) : Client :=
  { c with jobs := fun other => if other = id then some job else c.jobs other }

def expectJob (c : Client) (id : CallId) (key : WaiterKey) (job : Job) : Client :=
  (c.setConn (c.conn.expect key id)).setJob id job

/-- `connect` from the end of a wait on. -/
def handshake (c : Client) (id : CallId) : EStateM.Result Exc Conn (Option Handshake) → Client
  | .error e conn => (c.setConn conn).setJob id (.ended (.error e))
  | .ok none conn => { (c.setConn conn).setJob id (.ended (.ok ())) with beating := true }
  | .ok (some step) conn =>
    match step.expects with
    | none => (c.setConn conn).setJob id (.connecting step)
    | some ids => (c.setConn conn).expectJob id (0, ids) (.connecting step)

def openChannel (c : Client) (id : CallId) (channel : Int) : Client :=
  match startOpenChannel id channel c.conn with
  | .ok _ conn => (c.setConn conn).setJob id (.openDraining channel)
  | .error e conn => (c.setConn conn).setJob id (.ended (.error e))

def openReplied (c : Client) (id : CallId) (channel : Int) : Client :=
  match channelTransition channel ChanState.onOpenOk c.conn with
  | .ok _ conn => (c.setConn conn).setJob id (.ended (.ok ()))
  | .error e conn => (c.setConn conn).setJob id (.ended (.error e))

def settle (c : Client) (id : CallId) (op : Settlement) (drain : Bool) : Client :=
  match op.start id c.conn with
  | .ok _ conn => (c.setConn conn).setJob id (if drain then .settling else .ended (.ok ()))
  | .error e conn => (c.setConn conn).setJob id (.ended (.error e))

/-- What `receive` makes of an item: the sentinel raises the loss. -/
def received {α : Type} (c : Client) : Option α → Except Exc Unit
  | some _ => .ok ()
  | none => .error (c.conn.lost.getD (.connectionLost "connection lost"))

/-- `receive` from a look at the queue on. -/
def looked (c : Client) (id : CallId) (timeout : Bool) :
    Option (Option IncomingMessage) × AsyncQueue CallId (Option IncomingMessage) → Client
  | (some item, deliveries) => { c with deliveries }.setJob id (.ended (c.received item))
  | (none, deliveries) => { c with deliveries }.setJob id (.receiving timeout)

def lookedReturn (c : Client) (id : CallId) (timeout : Bool) :
    Option (Option ReturnedMessage) × AsyncQueue CallId (Option ReturnedMessage) → Client
  | (some item, returns) => { c with returns }.setJob id (.ended (c.received item))
  | (none, returns) => { c with returns }.setJob id (.receivingReturn timeout)

def receive (c : Client) (id : CallId) (timeout : Bool) : Client :=
  match c.conn.lost with
  | some e => c.setJob id (.ended (.error e))
  | none => c.looked id timeout (c.deliveries.get id)

def receiveReturn (c : Client) (id : CallId) (timeout : Bool) : Client :=
  match c.conn.lost with
  | some e => c.setJob id (.ended (.error e))
  | none => c.lookedReturn id timeout (c.returns.get id)

def finishClose (c : Client) (id : CallId) : Option Exc → Client
  | none => { c.setJob id (.ended (.ok ())) with closeReturned := true }
  | some e => c.setJob id (.ended (.error e))

/-- The `finally` of `close` up to the end of the reader. -/
def closeReader (c : Client) (id : CallId) (failure : Option Exc) : Client :=
  (c.setConn c.conn.cancelReader).setJob id (.closing (.reader failure))

def close (c : Client) (id : CallId) : Client :=
  if c.closed then c.finishClose id none
  else
    let c := { c with closed := true, beating := false }
    if c.conn.sm.isOpen then
      match startClose id c.conn with
      | .ok _ conn => (c.setConn conn).setJob id (.closing .draining)
      | .error e conn => (c.setConn conn).closeReader id (some e)
    else c.closeReader id none

/-- `except (TimeoutError, ProtocolError, AmqpCodecError)` -/
def closeForgives (e : Exc) : Bool :=
  match e with
  | .timeoutError | .amqpCodecError _ => true
  | e => e.isProtocolError

/-- `close` from the outcome of its wait for close-ok on. -/
def closeReplied (c : Client) (id : CallId) (outcome : Except Exc Method) : Client :=
  let confirmed := (c.setConn { c.conn with sm := .closed }).closeReader id none
  match outcome with
  | .ok _ => confirmed
  | .error e => if closeForgives e then confirmed else c.closeReader id (some e)

def forceDrop (c : Client) (id : CallId) : Client :=
  { c with closed := true, beating := false }.setJob id (.dropping .writer)

def dropped (c : Client) (id : CallId) : Client :=
  (c.setConn (c.conn.notifyLoss (.connectionLost "connection dropped"))).setJob id (.ended (.ok ()))

/-- `except Exception: pass` around a wait for the transport. -/
def escapes (failure : Option Exc) : Bool :=
  match failure with
  | some .cancelledError => true
  | _ => false

def resumed (c : Client) (id : CallId) (failure : Option Exc) : Option Client :=
  match c.jobs id, failure with
  | some (.connecting step), none =>
    if step.expects = none then some (c.handshake id (c.config.advance id none step c.conn)) else none
  | some (.connecting step), some e =>
    if step.expects = none then some (c.setJob id (.ended (.error e))) else none
  | some (.openDraining channel), none => some (c.expectJob id (channel, (20, 11)) (.openExpecting channel))
  | some (.openDraining _), some e => some (c.setJob id (.ended (.error e)))
  | some .settling, none => some (c.setJob id (.ended (.ok ())))
  | some .settling, some e => some (c.setJob id (.ended (.error e)))
  | some (.closing .draining), none => some (c.expectJob id (0, (10, 51)) (.closing .expecting))
  | some (.closing .draining), some e => some (c.closeReader id (some e))
  | some (.closing (.reader raised)), some .cancelledError => some (c.setJob id (.closing (.writer raised)))
  | some (.closing (.reader raised)), none =>
    if c.conn.reader = .stopped then some (c.setJob id (.closing (.writer raised))) else none
  | some (.closing (.reader _)), some e =>
    if c.conn.reader = .stopped then some (c.setJob id (.ended (.error e))) else none
  | some (.closing (.writer raised)), failure =>
    some (if escapes failure then c.finishClose id failure else c.finishClose id raised)
  | some (.dropping .writer), failure =>
    if escapes failure then some (c.setJob id (.ended (.error .cancelledError)))
    else if c.conn.reader = .stopped then some (c.dropped id)
    else some ((c.setConn c.conn.cancelReader).setJob id (.dropping .reader))
  | some (.dropping .reader), some .cancelledError => some (c.dropped id)
  | some (.dropping .reader), none => if c.conn.reader = .stopped then some (c.dropped id) else none
  | some (.dropping .reader), some e =>
    if c.conn.reader = .stopped then some (c.setJob id (.ended (.error e))) else none
  | _, _ => none

def replied (c : Client) (id : CallId) (key : WaiterKey) (job : Job) (outcome : Except Exc Method) : Client :=
  let c := c.setConn (c.conn.forget key)
  match job, outcome with
  | .connecting step, .ok reply => c.handshake id (c.config.advance id (some reply) step c.conn)
  | .openExpecting channel, .ok _ => c.openReplied id channel
  | .closing _, outcome => c.closeReplied id outcome
  | _, .ok _ => c
  | _, .error e => c.setJob id (.ended (.error e))

def wakeJob (c : Client) (id : CallId) : Option Client :=
  match c.jobs id with
  | some (.receiving timeout) =>
    if id ∈ c.deliveries.woken then some (c.looked id timeout (c.deliveries.resume id)) else none
  | some (.receivingReturn timeout) =>
    if id ∈ c.returns.woken then some (c.lookedReturn id timeout (c.returns.resume id)) else none
  | some job => job.key.bind fun key => (c.conn.replies id).map (c.replied id key job)
  | none => none

def leave (c : Client) (id : CallId) (job : Job) (e : Exc) : Client :=
  match job with
  | .receiving _ => { c with deliveries := c.deliveries.cancel id }.setJob id (.ended (.error e))
  | .receivingReturn _ => { c with returns := c.returns.cancel id }.setJob id (.ended (.error e))
  | _ => c

def expire (c : Client) (id : CallId) : Option Client :=
  match c.jobs id with
  | some (.receiving timeout) => if timeout then some (c.leave id (.receiving timeout) .timeoutError) else none
  | some (.receivingReturn timeout) =>
    if timeout then some (c.leave id (.receivingReturn timeout) .timeoutError) else none
  | some job =>
    if job.key.isSome ∧ (c.conn.replies id).isNone then
      some (c.setConn (c.conn.settleReply id (.error .timeoutError)))
    else none
  | none => none

def cancelJob (c : Client) (id : CallId) : Option Client :=
  match c.jobs id with
  | some (.receiving timeout) => some (c.leave id (.receiving timeout) .cancelledError)
  | some (.receivingReturn timeout) => some (c.leave id (.receivingReturn timeout) .cancelledError)
  | some job =>
    if job.key.isSome then some (c.setConn (c.conn.settleReply id (.error .cancelledError))) else none
  | none => none

def beat (c : Client) : Client :=
  match writeFrame none ⟨.heartbeat, 0, []⟩ c.conn with
  | .ok _ conn => c.setConn conn
  | .error e conn => c.setConn (conn.notifyLoss e)

/-- A task starts under an id of its own, and only a beating heart reports a loss. -/
def admits (c : Client) : Event → Bool
  | .request id _ | .publish id _ => c.fresh id
  | .lose _ => c.beating && c.conn.lost.isNone
  | _ => true

def step (c : Client) : ClientEvent → Option Client
  | .task e => if c.admits e then (c.tasks.step e).map c.absorb else none
  | .connect id => if c.fresh id then some (c.handshake id (c.config.start id c.conn)) else none
  | .openChannel id channel => if c.fresh id then some (c.openChannel id channel) else none
  | .settle id op drain => if c.fresh id then some (c.settle id op drain) else none
  | .receive id timeout => if c.fresh id then some (c.receive id timeout) else none
  | .receiveReturn id timeout => if c.fresh id then some (c.receiveReturn id timeout) else none
  | .close id => if c.fresh id then some (c.close id) else none
  | .forceDrop id => if c.fresh id then some (c.forceDrop id) else none
  | .resumed id failure => c.resumed id failure
  | .wakeJob id => c.wakeJob id
  | .expire id => c.expire id
  | .cancelJob id => c.cancelJob id
  | .heartbeat => if c.beating ∧ c.conn.lost = none then some c.beat else none
  | .readerStops =>
    if c.closed ∧ c.conn.reader = .running then some (c.setConn c.conn.cancelReader) else none

end Client

def ConnectionConfig.newConn (config : ConnectionConfig) : Conn where
  sm := .init
  frameMax := config.frameMax
  frameMax_lt := config.frameMax_lt
  reader := .stopped

def Client.new (config : ConnectionConfig) : Client where
  config := config
  tasks := { conn := config.newConn }

end Nuropb.Transport
