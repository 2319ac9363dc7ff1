import Nuropb.Transport.Client

/-! # Calls of a connection

A task awaits one operation of its connection at a time. An event of the connection begins an
operation, resumes the coroutine of a call, or is nobody's own.
-/
namespace Nuropb.Transport

open Library

namespace ClientEvent

def begins : ClientEvent → Bool
  | .task (.request ..) | .task (.publish ..) | .connect _ | .openChannel .. | .settle .. | .receive ..
  | .receiveReturn .. | .close _ | .forceDrop _ => true
  | _ => false

/-- The call whose coroutine runs in the event, or that is cancelled by it. -/
def addressee : ClientEvent → Option CallId
  | .task (.drained id _) | .task (.wake id) | .task (.cancel id) | .resumed id _ | .wakeJob id
  | .cancelJob id => some id
  | _ => none

def cancels : ClientEvent → Bool
  | .task (.cancel _) | .task (.drained _ (some .cancelled)) | .resumed _ (some .cancelledError)
  | .cancelJob _ => true
  | _ => false

end ClientEvent

namespace Client

def outcome (c : Client) (id : CallId) : Option (Except Exc (Option Text)) :=
  match c.tasks.calls id, c.jobs id with
  | some (.done _ outcome), _ => some outcome
  | none, some (.ended outcome) => some (outcome.map fun _ => none)
  | _, _ => none

def interrupt (c : Client) (id : CallId) : Option Client :=
  match c.tasks.calls id, c.jobs id with
  | some (.draining ..), _ | some (.publishDraining ..), _ => c.step (.task (.drained id (some .cancelled)))
  | some _, _ => (c.step (.task (.cancel id))).bind fun c => c.step (.task (.wake id))
  | none, some (.receiving _) | none, some (.receivingReturn _) => c.step (.cancelJob id)
  | none, some job =>
    if job.key.isSome then (c.step (.cancelJob id)).bind fun c => c.step (.wakeJob id)
    else c.step (.resumed id (some .cancelledError))
  | none, none => none

/-- The message that `receive` returns in the event. -/
def taken (c : Client) : ClientEvent → Option IncomingMessage
  | .receive id _ => if c.conn.lost.isNone then (c.deliveries.get id).1.join else none
  | .wakeJob id =>
    match c.jobs id with
    | some (.receiving _) => (c.deliveries.resume id).1.join
    | _ => none
  | _ => none

end Client

end Nuropb.Transport

namespace Nuropb.Sessions

open Library Transport

inductive Operation
  | connect
  | openChannel (channel : Int)
  | request (r : SyncRequest)
  | publish (args : PublishArgs)
  | settle (op : Settlement)
  | receive (timeout : Bool)
  | receiveReturn (timeout : Bool)
  | close
  | forceDrop

def Operation.event (id : CallId) : Operation → ClientEvent
  | connect => .connect id
  | openChannel channel => .openChannel id channel
  | request r => .task (.request id r)
  | publish args => .task (.publish id args)
  | settle op => .settle id op true
  | receive timeout => .receive id timeout
  | receiveReturn timeout => .receiveReturn id timeout
  | close => .close id
  | forceDrop => .forceDrop id

end Nuropb.Sessions
