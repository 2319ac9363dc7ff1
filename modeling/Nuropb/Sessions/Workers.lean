import Nuropb.Sessions.State

/-! # Opening, reconnecting and closing

A worker runs without interruption from one await to the next. What `Session.reconnect` raises is
taken by the coordinator, if there is one, which sleeps before the next attempt.
-/
namespace Nuropb.Sessions

open Library Transport Protocol

namespace Session

def release (s : Session) (w : WorkerId) : Session := if s.lock = some w then { s with lock := none } else s

def returned (s : Session) (w : WorkerId) : Session := (s.release w).setStage w (.ended (.ok ()))

/-- An exception leaves the coroutine of the worker, or only its attempt to reconnect. The last one of
the auto-reconnect task fails what is outstanding. -/
def raised (s : Session) (w : WorkerId) (e : Exc) : Session :=
  let s := s.release w
  match (s.workers w).map Worker.purpose, e with
  | some (.coordinate ..), .cancelledError | some (.auto _), .cancelledError => s.setStage w (.ended (.error e))
  | some (.coordinate attempt maxAttempts), e =>
    s.setStage w (if maxAttempts ≤ attempt then .ended (.error e) else .sleeping)
  | some (.auto attempt), e =>
    if s.settings.policy.maxAttempts ≤ attempt then
      (s.failOutstanding (s.settings.text e)).setStage w (.ended (.error e))
    else s.setStage w .sleeping
  | _, e => s.setStage w (.ended (.error e))

/-- `_republish_parked` over what is left of its list. -/
def republish (s : Session) (w : WorkerId) : List (Text × ParkedPublish) → Session
  | [] => s.returned w
  | (rid, parked) :: rest =>
    if s.correlation.contains rid then
      let envelope := parked.readdressed s.replyQueue rid
      let id := s.nextCall
      let s := s.call (some (.worker w)) (.publish envelope.args)
      match s.link.client.outcome id with
      | none => s.setStage w (.republishing id rid envelope rest)
      | some (.ok _) => (s.recordPublish s.epoch envelope).republish w rest
      | some (.error e) =>
        if e.isPublishRefusal then (s.failPublish rid (refusalError s.settings rid none e)).republish w rest
        else s.raised w e
    else (s.forgetPublish rid).republish w rest

def republished (s : Session) (w : WorkerId) (epoch : Nat) (rid : Text) (envelope : ParkedPublish)
    (rest : List (Text × ParkedPublish)) : Except Exc (Option Text) → Session
  | .ok _ => (s.recordPublish epoch envelope).republish w rest
  | .error e =>
    if e.isPublishRefusal then (s.failPublish rid (refusalError s.settings rid none e)).republish w rest
    else s.raised w e

def opened (s : Session) (w : WorkerId) : Session :=
  match (s.workers w).map Worker.purpose with
  | some .start => s.returned w
  | _ =>
    if s.settings.policy.failOutstanding ∨ s.replyQueue = none then s.returned w
    else s.republish w s.parked.entries

def opens (s : Session) (w : WorkerId) (op : Operation) (step : Opening) : Session :=
  let id := s.nextCall
  let s := s.call (some (.worker w)) op
  match s.link.client.outcome id with
  | some (.error e) => s.raised w e
  | _ => s.setStage w (.opening id step)

def startConn (s : Session) (w : WorkerId) : Session :=
  let s := { s with lossHandled := false, link := { s.link with wired := true } }
  s.opens w .connect .connecting

def replyQueueArgs (s : Session) : QueueDeclareArgs where
  queue := Text.ofString "nr.reply." ++ s.settings.connectionId s.epoch
  exclusive := true
  autoDelete := true

/-- `start` from the end of one of its operations on. -/
def openingEnded (s : Session) (w : WorkerId) : Opening → Except Exc (Option Text) → Session
  | _, .error e => s.raised w e
  | .connecting, .ok _ => s.opens w (.openChannel channelId) .openingChannel
  | .openingChannel, .ok _ => s.opens w (.request (.queueDeclare channelId s.replyQueueArgs)) .declaring
  | .declaring, .ok queue =>
    { s with replyQueue := queue }.opens w (.request (.basicConsume channelId (queue.getD []) [])) .consuming
  | .consuming, .ok _ => ({ s with started := true }.createLoop).opened w

def newConnection (s : Session) : Session :=
  { s with
    previous := s.previous ++ [s.link]
    link := { client := Client.new s.settings.config } }

/-- `conn.close()` has ended: for `close`, or in the teardown, which takes an `Exception`. -/
def closed (s : Session) (w : WorkerId) (outcome : Except Exc (Option Text)) : Session :=
  match (s.workers w).map Worker.purpose, outcome with
  | some .close, outcome => s.setStage w (.ended (outcome.map fun _ => ()))
  | _, .error .cancelledError => s.raised w .cancelledError
  | _, _ => s.newConnection.startConn w

/-- From the end of `_stop_reply_task` on. -/
def replyStopped (s : Session) (w : WorkerId) : Session :=
  let id := s.nextCall
  let s := { s with replyTask := none, replyQueue := none }.call (some (.worker w)) .close
  match s.link.client.outcome id with
  | some outcome => s.closed w outcome
  | none => s.setStage w (.closingConn id)

/-- `_stop_reply_task`: the loop is cancelled and awaited. -/
def stopReply (s : Session) (w : WorkerId) : Session :=
  match s.replyTask with
  | none => s.replyStopped w
  | some l =>
    if s.loopEnded l then s.replyStopped w
    else (s.setCancelled (.loop l) true).setStage w (.stoppingReply l)

def reconnectLocked (s : Session) (w : WorkerId) : Session :=
  if s.replyQueueOpen then s.returned w
  else
    let s := { s with started := false }
    let s := if s.settings.policy.failOutstanding then s.failOutstanding (Text.ofString "connection lost") else s
    s.stopReply w

def reconnectFrom (s : Session) (w : WorkerId) : Session :=
  if s.lock = none ∧ s.lockLine = [] then { s with lock := some w }.reconnectLocked w
  else { s with lockLine := s.lockLine ++ [w] }.setStage w .locking

def nextAttempt (s : Session) (w : WorkerId) : Session :=
  match (s.workers w).map Worker.purpose with
  | some (.coordinate attempt maxAttempts) =>
    (s.setWorker w ⟨.coordinate (attempt + 1) maxAttempts, .sleeping⟩).reconnectFrom w
  | some (.auto attempt) => (s.setWorker w ⟨.auto (attempt + 1), .sleeping⟩).reconnectFrom w
  | _ => s

/-- `task.cancel()`; a worker that awaits another task passes over its cancellation. -/
def cancelWorker (s : Session) (w : WorkerId) : Session :=
  match (s.workers w).map Worker.stage with
  | none | some (.ended _) | some (.stoppingReply _) | some (.awaitingAuto _) => s
  | _ => s.setCancelled (.worker w) true

def newWorker (s : Session) (purpose : Purpose) : Session :=
  { s.setWorker s.nextWorker ⟨purpose, .created⟩ with nextWorker := s.nextWorker + 1 }

def start (s : Session) : Session := (s.newWorker .start).startConn s.nextWorker

def reconnect (s : Session) : Session := (s.newWorker .reconnect).reconnectFrom s.nextWorker

def coordinate (s : Session) (policy : ReconnectPolicy) : Session :=
  (s.newWorker (.coordinate 1 policy.maxAttempts)).reconnectFrom s.nextWorker

def close (s : Session) : Session :=
  let w := s.nextWorker
  let s := ({ s with started := false }.discardAll .osError).newWorker .close
  match s.autoTask with
  | some auto => if s.workerEnded auto then s.stopReply w else (s.cancelWorker auto).setStage w (.awaitingAuto auto)
  | none => s.stopReply w

def workerResumed (s : Session) (w : WorkerId) (epoch : Nat) (outcome : Except Exc (Option Text)) : Session :=
  match (s.workers w).map Worker.stage with
  | some (.closingConn _) => s.closed w outcome
  | some (.opening _ step) => s.openingEnded w step outcome
  | some (.republishing _ rid envelope rest) => s.republished w epoch rid envelope rest outcome
  | _ => s

/-- A worker runs that waited neither for an operation nor in its own coroutine. -/
def runWorker (s : Session) (w : WorkerId) : Option Session :=
  let cancelled := s.cancelled (.worker w)
  let cleared := s.setCancelled (.worker w) false
  match (s.workers w).map Worker.stage with
  | some .created => some (if cancelled then cleared.raised w .cancelledError else s.reconnectFrom w)
  | some .sleeping => some (if cancelled then cleared.raised w .cancelledError else s.nextAttempt w)
  | some .locking =>
    if cancelled then some ({ cleared with lockLine := s.lockLine.filter (· ≠ w) }.raised w .cancelledError)
    else if s.lock = none ∧ s.lockLine.head? = some w then
      some ({ s with lock := some w, lockLine := s.lockLine.tail }.reconnectLocked w)
    else none
  | some (.awaitingAuto auto) => if s.workerEnded auto then some ({ s with autoTask := none }.stopReply w) else none
  | some (.stoppingReply l) => if s.loopEnded l then some (s.replyStopped w) else none
  | _ => none

end Session

end Nuropb.Sessions
