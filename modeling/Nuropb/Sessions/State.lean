import Nuropb.Sessions.Calls
import Nuropb.Sessions.Correlation

/-! # The state of a session

A session holds one connection at a time, with the table of its outstanding requests and the
publishes it keeps for a reconnect. Requests, reply loops and workers run next to each other; a
worker is a task inside of `start`, `reconnect` or `close`.
-/
namespace Nuropb.Sessions

open Library Patterns Protocol Transport Config

abbrev LoopId := Nat

abbrev WorkerId := Nat

structure ReconnectPolicy where
  maxAttempts : Nat := 5
  failOutstanding : Bool := false
  attempts_pos : 1 ≤ maxAttempts := by decide

/-- What a session is made with, the ids that it draws, and what `str` makes of an exception. -/
structure Settings where
  config : ConnectionConfig := {}
  brokerTimeout : Bool := true
  policy : ReconnectPolicy := {}
  /-- The hexadecimal digits of the id of each epoch. -/
  connectionId : Nat → Text
  text : Exc → Text
  stack : Nat

def channelId : Int := 1

structure ParkedPublish where
  exchange : Text
  routingKey : Text
  body : Bytes
  properties : Properties
  queueProfile : Option QueueProfile := none
  mandatory : Bool := true
  confirm : Option Bool := none

namespace ParkedPublish

def args (envelope : ParkedPublish) : PublishArgs where
  channel := channelId
  body := envelope.body
  exchange := envelope.exchange
  routingKey := envelope.routingKey
  properties := envelope.properties
  queueProfile := envelope.queueProfile
  confirm := envelope.confirm
  mandatory := envelope.mandatory

/-- The publish under the reply queue of a new epoch. -/
def readdressed (envelope : ParkedPublish) (replyQueue : Option Text) (rid : Text) : ParkedPublish :=
  { envelope with
    properties := (envelope.properties.set .replyTo ((replyQueue.map .str).getD .none)).set .correlationId
      (.str rid) }

end ParkedPublish

/-- Where a request waits. -/
inductive RequestStage
  | publishing (call : CallId) (envelope : ParkedPublish)
  | replying
  | ended (outcome : Except Exc IncomingMessage)

def RequestStage.awaits : RequestStage → Option CallId
  | publishing call _ => some call
  | _ => none

structure Request where
  rid : Text
  method : Text
  stage : RequestStage

inductive LoopStage
  | created
  | receiving (call : CallId)
  | acking (call : CallId)
  | ended (raised : Exc)

def LoopStage.awaits : LoopStage → Option CallId
  | receiving call | acking call => some call
  | _ => none

inductive Opening
  | connecting
  | openingChannel
  | declaring
  | consuming
  deriving DecidableEq

/-- Where a worker waits. -/
inductive Stage
  | created
  | locking
  | awaitingAuto (auto : WorkerId)
  | stoppingReply (loop : LoopId)
  | closingConn (call : CallId)
  | opening (call : CallId) (step : Opening)
  | republishing (call : CallId) (rid : Text) (envelope : ParkedPublish) (rest : List (Text × ParkedPublish))
  | sleeping
  | ended (outcome : Except Exc Unit)

def Stage.awaits : Stage → Option CallId
  | closingConn call | opening call _ | republishing call .. => some call
  | _ => none

/-- What the worker was called for; an attempt counts the calls of `Session.reconnect`. -/
inductive Purpose
  | start
  | reconnect
  | coordinate (attempt maxAttempts : Nat)
  | auto (attempt : Nat)
  | close
  deriving DecidableEq

structure Worker where
  purpose : Purpose
  stage : Stage

inductive Owner
  | request (r : RequestId)
  | loop (l : LoopId)
  | worker (w : WorkerId)
  deriving DecidableEq

/-- A connection, and whether it calls `_on_connection_lost`. -/
structure Link where
  client : Client
  wired : Bool := false

structure Session where
  settings : Settings
  link : Link
  previous : List Link := []
  correlation : CorrelationTable := {}
  parked : Dict Text ParkedPublish := .empty
  replyQueue : Option Text := none
  started : Bool := false
  lossHandled : Bool := false
  replyTask : Option LoopId := none
  autoTask : Option WorkerId := none
  lock : Option WorkerId := none
  lockLine : List WorkerId := []
  requests : RequestId → Option Request := fun _ => none
  loops : LoopId → Option LoopStage := fun _ => none
  workers : WorkerId → Option Worker := fun _ => none
  /-- A cancellation that has not yet come to its task. -/
  cancelled : Owner → Bool := fun _ => false
  owners : CallId → Option Owner := fun _ => none
  nextCall : CallId := 0
  nextRequest : RequestId := 0
  nextLoop : LoopId := 0
  nextWorker : WorkerId := 0
  /-- The publishes that have returned, with the epoch of their connection. -/
  published : List (Nat × PublishArgs) := []

def Session.new (settings : Settings) : Session where
  settings := settings
  link := { client := Client.new settings.config }

def connectionLostError (message : Text) : Exc :=
  .rpcError { code := connectionLost, message := .str message,
              data := .dict (makeErrorData connectionLost true none none) }

def refusalError (settings : Settings) (rid : Text) (method : Option Text) (e : Exc) : Exc :=
  let code :=
    match e with
    | .publishReturned _ => publishReturned
    | .publishNack .. => publishNack
    | _ => connectionBlocked
  .rpcError { code, message := .str (settings.text e), data := .dict (makeErrorData code true (some rid) method),
              id := .str rid }

namespace Session

def epoch (s : Session) : Nat := s.previous.length

def replyQueueOpen (s : Session) : Bool := s.replyQueue.isSome && s.started

def setRequest (s : Session) (r : RequestId) (request : Request) : Session :=
  { s with requests := fun other => if other = r then some request else s.requests other }

def setLoop (s : Session) (l : LoopId) (stage : LoopStage) : Session :=
  { s with loops := fun other => if other = l then some stage else s.loops other }

def setWorker (s : Session) (w : WorkerId) (worker : Worker) : Session :=
  { s with workers := fun other => if other = w then some worker else s.workers other }

def setStage (s : Session) (w : WorkerId) (stage : Stage) : Session :=
  match s.workers w with
  | some worker => s.setWorker w { worker with stage }
  | none => s

def setCancelled (s : Session) (owner : Owner) (cancelled : Bool) : Session :=
  { s with cancelled := fun other => if other = owner then cancelled else s.cancelled other }

def setClient (s : Session) (client : Client) : Session := { s with link := { s.link with client } }

def loopEnded (s : Session) (l : LoopId) : Bool :=
  match s.loops l with
  | some (.ended _) | none => true
  | _ => false

def workerEnded (s : Session) (w : WorkerId) : Bool :=
  match s.workers w with
  | some { stage := .ended _, .. } | none => true
  | _ => false

def call (s : Session) (owner : Option Owner) (op : Operation) : Session :=
  { s.setClient ((s.link.client.step (op.event s.nextCall)).getD s.link.client) with
    owners := fun id => if id = s.nextCall then owner else s.owners id
    nextCall := s.nextCall + 1 }

def forgetPublish (s : Session) (rid : Text) : Session := { s with parked := s.parked.erase rid }

/-- `correlation.fail` and `forget_publish` -/
def failPublish (s : Session) (rid : Text) (e : Exc) : Session :=
  { s with correlation := s.correlation.fail rid e }.forgetPublish rid

def recordPublish (s : Session) (epoch : Nat) (envelope : ParkedPublish) : Session :=
  { s with published := s.published ++ [(epoch, envelope.args)] }

def discardAll (s : Session) (e : Exc) : Session :=
  { s with correlation := s.correlation.discardAll e, parked := .empty }

def failOutstanding (s : Session) (message : Text) : Session := s.discardAll (connectionLostError message)

def autoRunning (s : Session) : Bool := s.autoTask.any fun w => !s.workerEnded w

def createAuto (s : Session) : Session :=
  { s.setWorker s.nextWorker ⟨.auto 1, .created⟩ with
    autoTask := some s.nextWorker
    nextWorker := s.nextWorker + 1 }

def onConnectionLost (s : Session) (e : Exc) : Session :=
  if s.lossHandled then s
  else
    let s := { s with lossHandled := true, started := false, replyQueue := none }
    if s.settings.policy.failOutstanding then s.failOutstanding (s.settings.text e)
    else if s.autoRunning then s
    else s.createAuto

/-! ## The reply loop -/

/-- What leaves the body of `_reply_loop`. -/
def loopRaised (s : Session) (l : LoopId) (e : Exc) : Session :=
  match e with
  | .cancelledError => s.setLoop l (.ended e)
  | .connectionLost _ => (s.onConnectionLost e).setLoop l (.ended e)
  | e => (s.failOutstanding (s.settings.text e)).setLoop l (.ended e)

/-- `_on_reply` up to the drain of its ack. -/
def onReply (s : Session) (l : LoopId) (msg : IncomingMessage) : Session :=
  let s :=
    match msg.properties .correlationId with
    | some (.str cid) => { s with correlation := s.correlation.resolve cid msg }.forgetPublish cid
    | _ => s
  let id := s.nextCall
  let s := s.call (some (.loop l)) (.settle (.basicAck channelId msg.deliveryTag))
  match s.link.client.outcome id with
  | some (.error e) => s.loopRaised l e
  | _ => s.setLoop l (.acking id)

def receiveNext (s : Session) (l : LoopId) : Session :=
  let id := s.nextCall
  let taken := s.link.client.taken (.receive id false)
  let s := s.call (some (.loop l)) (.receive false)
  match taken, s.link.client.outcome id with
  | some msg, _ => s.onReply l msg
  | none, some (.error e) => s.loopRaised l e
  | none, _ => s.setLoop l (.receiving id)

/-- The call that the loop awaits has ended; `receive` has brought a message, unless it raised. -/
def loopResumed (s : Session) (l : LoopId) (outcome : Except Exc (Option Text)) (taken : Option IncomingMessage) :
    Session :=
  match s.loops l, outcome, taken with
  | some (.receiving _), .ok _, some msg => s.onReply l msg
  | some (.acking _), .ok _, _ => s.receiveNext l
  | some (.receiving _), .error e, _ | some (.acking _), .error e, _ => s.loopRaised l e
  | _, _, _ => s

def createLoop (s : Session) : Session :=
  { s.setLoop s.nextLoop .created with
    replyTask := some s.nextLoop
    nextLoop := s.nextLoop + 1 }

end Session

end Nuropb.Sessions
