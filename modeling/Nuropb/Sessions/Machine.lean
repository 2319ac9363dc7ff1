import Nuropb.Sessions.Requests
import Nuropb.Sessions.Workers

/-! # Runs of a session

An event calls a coroutine, lets a connection take a step, or resumes a task from something that it
awaits of the session. A connection's step resumes the coroutine of at most one call, and the task
that awaits this call goes on when it has ended.
-/
namespace Nuropb.Sessions

open Library Transport

inductive SessionEvent
  | start
  | reconnect
  | coordinate (policy : ReconnectPolicy)
  | close
  /-- `generated` is the id that is drawn last when the caller gives none. -/
  | request (args : RequestArgs) (generated : Text)
  | operate (op : Operation)
  | conn (epoch : Nat) (e : ClientEvent)
  /-- A cancelled task runs that awaits a call of the connection. -/
  | interrupt (epoch : Nat) (id : CallId)
  | runWorker (w : WorkerId)
  | runLoop (l : LoopId)
  | wakeRequest (r : RequestId)
  | expireRequest (r : RequestId)
  | cancelRequest (r : RequestId)

namespace Session

def linkAt (s : Session) (epoch : Nat) : Option Link :=
  if epoch = s.epoch then some s.link else s.previous[epoch]?

def setLink (s : Session) (epoch : Nat) (link : Link) : Session :=
  if epoch = s.epoch then { s with link } else { s with previous := s.previous.set epoch link }

/-- Only a cancelled task takes a cancellation, and it goes on with nothing else. -/
def allows (s : Session) (e : ClientEvent) : Bool :=
  match e.addressee.bind s.owners with
  | some owner => !s.cancelled owner && !e.cancels
  | none => true

def heard (s : Session) (wired : Bool) (c c' : Client) : Session :=
  match c.conn.lost, c'.conn.lost with
  | none, some e => if wired then s.onConnectionLost e else s
  | _, _ => s

def awaits (s : Session) : Owner → Option CallId
  | .request r => (s.requests r).bind fun request => request.stage.awaits
  | .loop l => (s.loops l).bind LoopStage.awaits
  | .worker w => (s.workers w).bind fun worker => worker.stage.awaits

/-- A call has ended, and the task that awaits it goes on. -/
def resume (s : Session) (epoch : Nat) (id : CallId) (outcome : Except Exc (Option Text))
    (taken : Option IncomingMessage) : Session :=
  match (s.owners id).filter fun owner => s.awaits owner = some id with
  | some (.request r) => s.publishEnded r epoch outcome
  | some (.loop l) => s.loopResumed l outcome taken
  | some (.worker w) => s.workerResumed w epoch outcome
  | none => s

/-- What the session makes of a step of a connection in which the coroutine of a call may have run. -/
def moved (s : Session) (epoch : Nat) (link : Link) (c' : Client) (call : Option CallId)
    (taken : Option IncomingMessage) : Session :=
  let s := (s.setLink epoch { link with client := c' }).heard link.wired link.client c'
  match call with
  | none => s
  | some id =>
    match c'.outcome id with
    | some outcome => s.resume epoch id outcome taken
    | none => s

def stepConn (s : Session) (epoch : Nat) (e : ClientEvent) : Option Session :=
  if e.begins ∨ s.allows e = false then none
  else
    (s.linkAt epoch).bind fun link => (link.client.step e).map fun c' =>
      s.moved epoch link c' e.addressee (link.client.taken e)

def interrupt (s : Session) (epoch : Nat) (id : CallId) : Option Session :=
  (s.owners id).bind fun owner =>
    if s.cancelled owner ∧ s.awaits owner = some id then
      (s.linkAt epoch).bind fun link => (link.client.interrupt id).map fun c' =>
        (s.setCancelled owner false).moved epoch link c' (some id) none
    else none

def runLoop (s : Session) (l : LoopId) : Option Session :=
  match s.loops l with
  | some .created =>
    some (if s.cancelled (.loop l) then (s.setCancelled (.loop l) false).loopRaised l .cancelledError
      else s.receiveNext l)
  | _ => none

def step (s : Session) : SessionEvent → Option Session
  | .start => some s.start
  | .reconnect => some s.reconnect
  | .coordinate policy => some (s.coordinate policy)
  | .close => some s.close
  | .request args generated =>
    if args.requestId = none ∧ s.correlation.contains generated then none else some (s.request args generated)
  | .operate op => some (s.call none op)
  | .conn epoch e => s.stepConn epoch e
  | .interrupt epoch id => s.interrupt epoch id
  | .runWorker w => s.runWorker w
  | .runLoop l => s.runLoop l
  | .wakeRequest r => s.wakeRequest r
  | .expireRequest r => s.expireRequest r
  | .cancelRequest r => s.cancelRequest r

end Session

end Nuropb.Sessions
