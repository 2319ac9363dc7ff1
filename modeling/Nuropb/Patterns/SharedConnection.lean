import Nuropb.Library.AsyncQueue
import Nuropb.Patterns.RpcServer
import Nuropb.Transport.Numbering

/-! # Servers that share a connection

The messages of a connection go through one queue, without the channel that they came on. The loop
of each server takes the next one, and settles it on the channel of the server.
-/
namespace Nuropb.Patterns

open Library Protocol Transport

/-- A message in the queue, next to the channel that `_finish_delivery` leaves out. -/
structure Delivered where
  channel : Int
  msg : IncomingMessage

/-- An `RpcServer` on the shared connection. Its `basic_consume` is the call with its number. -/
structure Host where
  server : RpcServer
  queue : Text

/-- Where the loop of a server stands. `basic_consume` was answered with the consumer tag. -/
inductive LoopState
  | idle
  | looking (consumerTag : Text)
  | receiving (consumerTag : Text)
  | handling (consumerTag : Text) (delivered : Delivered)
  | draining (consumerTag : Text)
  | ended (exc : Exc)

structure Dispatch where
  host : Nat
  consumerTag : Text
  delivered : Delivered

structure HandlerCall where
  host : Nat
  method : Text
  params : PyVal

structure Settled where
  dispatch : Dispatch
  frame : Frame

structure Shared where
  tasks : Machine
  deliveries : AsyncQueue Nat (Option Delivered) := {}
  loops : Nat → LoopState := fun _ => .idle
  arrived : List Delivered := []
  handled : List Dispatch := []
  calls : List HandlerCall := []
  settled : List Settled := []

inductive SharedEvent
  | task (e : Event)
  | start (k : Nat)
  | look (k : Nat)
  | wake (k : Nat)
  | handled (k : Nat) (result : Except Exc PyVal)
  | drained (k : Nat) (failure : Option Interrupt)
  | cancel (k : Nat)

def channelOf : Event → Int
  | .frame f => f.channel
  | _ => 0

def isSettlement (f : Frame) : Bool :=
  f.methodIds = some (60, 80) || f.methodIds = some (60, 90) || f.methodIds = some (60, 120)

def settlementsSince (conn conn' : Conn) : List Frame :=
  ((conn'.written.drop conn.written.length).map Sent.frame).filter isSettlement

/-- The round of `_handle` whose handler comes to the result. -/
def Delivered.round (d : Delivered) (result : Except Exc PyVal) : Round where
  receive := pure ()
  msg := d.msg
  handler := fun _ _ => lift result
  drain := pure ()

namespace Shared

variable (stack : Nat) (jwt : JwtDecode) (hosts : Nat → Host)

def setLoop (s : Shared) (k : Nat) (loop : LoopState) : Shared :=
  { s with loops := fun other => if other = k then loop else s.loops other }

def absorb (s : Shared) (channel : Int) (tasks : Machine) : Shared :=
  let emitted := (tasks.conn.deliveries.drop s.tasks.conn.deliveries.length).map (Delivered.mk channel)
  let deliveries := emitted.foldl (fun q d => q.put (some d)) s.deliveries
  let arrived := s.arrived ++ emitted
  if s.tasks.conn.lost.isNone ∧ tasks.conn.lost.isSome then { s with tasks, arrived, deliveries := deliveries.put none }
  else { s with tasks, arrived, deliveries }

/-- `_handle` with the result of its handler, up to the drain of its settlement. -/
def serve (s : Shared) (k : Nat) (consumerTag : Text) (d : Delivered) (result : Except Exc PyVal) : Shared :=
  let run := (hosts k).server.handle stack jwt k (d.round result) ⟨s.tasks.conn, []⟩
  let conn := (resultState run).conn
  let served := { s with
    tasks := s.tasks.setConn conn
    settled := s.settled ++ (settlementsSince s.tasks.conn conn).map (Settled.mk ⟨k, consumerTag, d⟩) }
  match run with
  | .ok _ _ => served.setLoop k (.draining consumerTag)
  | .error e _ => served.setLoop k (.ended e)

/-- `_handle` up to its handler; what is not admitted never gets there. -/
def take (s : Shared) (k : Nat) (consumerTag : Text) (d : Delivered) : Shared :=
  let taken := { s with handled := s.handled ++ [Dispatch.mk k consumerTag d] }
  match (hosts k).server.accept stack jwt (d.round (.ok .none)) with
  | .ok (method, params, _) =>
    { taken with calls := taken.calls ++ [HandlerCall.mk k method params] }.setLoop k (.handling consumerTag d)
  | .error _ => taken.serve stack jwt hosts k consumerTag d (.ok .none)

/-- `receive` from a look at the queue on. -/
def looked (s : Shared) (k : Nat) (consumerTag : Text) :
    Option (Option Delivered) × AsyncQueue Nat (Option Delivered) → Shared
  | (some (some d), deliveries) => { s with deliveries }.take stack jwt hosts k consumerTag d
  | (some none, deliveries) =>
    { s with deliveries }.setLoop k (.ended (s.tasks.conn.lost.getD (.connectionLost "connection lost")))
  | (none, deliveries) => { s with deliveries }.setLoop k (.receiving consumerTag)

def started (s : Shared) (k : Nat) : Option Shared :=
  match s.loops k, s.tasks.asked k, s.tasks.calls k with
  | .idle, some (.basicConsume channel queue []), some (.done none (.ok (some consumerTag))) =>
    if channel = (hosts k).server.channelId ∧ queue = (hosts k).queue then
      some (s.setLoop k (.looking consumerTag))
    else none
  | _, _, _ => none

def step (s : Shared) : SharedEvent → Option Shared
  | .task e => (s.tasks.step e).map (s.absorb (channelOf e))
  | .start k => s.started hosts k
  | .look k =>
    match s.loops k, s.tasks.conn.lost with
    | .looking _, some e => some (s.setLoop k (.ended e))
    | .looking consumerTag, none => some (s.looked stack jwt hosts k consumerTag (s.deliveries.get k))
    | _, _ => none
  | .wake k =>
    match s.loops k with
    | .receiving consumerTag =>
      if k ∈ s.deliveries.woken then some (s.looked stack jwt hosts k consumerTag (s.deliveries.resume k)) else none
    | _ => none
  | .handled k result =>
    match s.loops k with
    | .handling consumerTag d => some (s.serve stack jwt hosts k consumerTag d result)
    | _ => none
  | .drained k failure =>
    match s.loops k, failure with
    | .draining consumerTag, none => some (s.setLoop k (.looking consumerTag))
    | .draining _, some i => some (s.setLoop k (.ended i.exc))
    | _, _ => none
  | .cancel k =>
    match s.loops k with
    | .receiving _ => some ({ s with deliveries := s.deliveries.cancel k }.setLoop k (.ended .cancelledError))
    | _ => none

end Shared

def Shared.opened (frameMax : Nat) (h : frameMax < 2 ^ 32) (channels : List Int) : Shared where
  tasks := Machine.opened frameMax h channels

end Nuropb.Patterns
