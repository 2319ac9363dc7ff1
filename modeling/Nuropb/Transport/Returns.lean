import Nuropb.Transport.ConfirmSoundness

/-! # A broker that returns messages

`basic.return` names no delivery tag. The ledger records which publish each return is about: the
broker knows, the client has to guess.
-/
namespace Nuropb.Transport

open Library Protocol

/-- What the broker has returned, by the numbers of the publishes. -/
structure Ledger where
  /-- The return that is on its way on a channel: its number and the frames still to come. -/
  sending : Int → Option (Nat × List Frame) := fun _ => none
  returned : Int → List Nat := fun _ => []

structure Exchange where
  machine : Machine
  ledger : Ledger

inductive ExchangeEvent
  | local (e : Event)
  /-- The first frame of the return of a call's publish, and those to follow. -/
  | returns (id : CallId) (f : Frame) (rest : List Frame)

namespace Ledger

def setSending (ledger : Ledger) (channel : Int) (sending : Option (Nat × List Frame)) : Ledger :=
  { ledger with
    sending := fun other => if other = channel then sending else ledger.sending other }

def addReturned (ledger : Ledger) (channel : Int) (number : Nat) : Ledger :=
  { ledger with
    returned := fun other =>
      if other = channel then ledger.returned other ++ [number] else ledger.returned other }

def advance (ledger : Ledger) (channel : Int) : Ledger :=
  match ledger.sending channel with
  | some (number, _ :: next :: rest) => ledger.setSending channel (some (number, next :: rest))
  | some (number, _) => (ledger.setSending channel none).addReturned channel number
  | none => ledger

end Ledger

/-- The number of a call's publish, if the broker may return it: a mandatory one whose confirm the
call awaits or has awaited. -/
def Machine.mandatoryNumber (m : Machine) (channel : Int) (id : CallId) : Option Nat :=
  (m.awaited id).bind fun (args, _) =>
    if args.mandatory = true ∧ args.channel = channel then publishNumber channel m.conn.written id else none

namespace Exchange

def step (x : Exchange) : ExchangeEvent → Option Exchange
  | .local (.frame f) => (x.machine.step (.frame f)).map fun m => ⟨m, x.ledger.advance f.channel⟩
  | .local e => (x.machine.step e).map fun m => ⟨m, x.ledger⟩
  | .returns id f rest => (x.machine.mandatoryNumber f.channel id).bind fun number =>
    (x.machine.step (.frame f)).map fun m => ⟨m, x.ledger.setSending f.channel (some (number, rest))⟩

end Exchange

def Frame.confirms (channel : Int) (number : Nat) (f : Frame) : Bool :=
  if f.frameType = .method ∧ f.channel = channel then
    match decodeMethod f.payload with
    | .ok method => (confirmOf method).any fun (deliveryTag, multiple, _) => covers deliveryTag multiple number
    | .error _ => false
  else false

def confirmed (received : List Frame) (channel : Int) (number : Nat) : Bool :=
  received.any (Frame.confirms channel number)

def carryBody (channel : Int) (body : Bytes) (frames : List Frame) : Bool :=
  frames.all (fun f => f.frameType = .body ∧ f.channel = channel ∧ f.payload ≠ []) ∧
    (frames.flatMap Frame.payload) = body

def announces (length : Nat) (f : Frame) : Bool :=
  match decodeContentHeader f.payload with
  | .ok header => header.bodySize = length
  | .error _ => false

/-- The frames after `basic.return`: the header and the body of the publish. -/
def carryContent (args : PublishArgs) : List Frame → Bool
  | [] => false
  | header :: bodies => header.frameType = .header ∧ header.channel = args.channel ∧
      announces args.body.length header ∧ carryBody args.channel args.body bodies

def opensReturn (args : PublishArgs) (f : Frame) : Bool :=
  match decodeMethod f.payload with
  | .ok (.basicReturn returned) => f.frameType = .method ∧ f.channel = args.channel ∧
      returned.exchange = args.exchange ∧ returned.routingKey = args.routingKey
  | _ => false

def Frame.isReturn (f : Frame) : Bool :=
  if f.frameType = .method then
    match decodeMethod f.payload with
    | .ok (.basicReturn _) => true
    | _ => false
  else false

def Frame.isNack (f : Frame) : Bool :=
  match decodeMethod f.payload with
  | .ok (.basicNack ..) => true
  | _ => false

/-! ## Conditions on a step -/

def staysUp (m : Machine) (e : Event) : Bool :=
  (m.step e).all fun m' => m'.conn.lost.isNone ∧ m'.conn.reader = .running

def Ledger.expects (ledger : Ledger) (f : Frame) : Bool :=
  match ledger.sending f.channel with
  | some (_, next :: _) => f = next
  | _ => !f.isReturn

def returnsPublish (m : Machine) (id : CallId) (f : Frame) (rest : List Frame) : Bool :=
  match m.awaited id with
  | some (args, _) => opensReturn args f ∧ carryContent args rest
  | none => false

/-- Its return can still be sent: later publishes were not returned, itself not confirmed. -/
def stillReturnable (x : Exchange) (channel : Int) (id : CallId) : Bool :=
  match x.machine.mandatoryNumber channel id with
  | some number => (x.ledger.returned channel).all (· < number) ∧
      confirmed x.machine.received channel number = false
  | none => false

/-- The broker keeps to the protocol: the contents of a channel are contiguous, a message is
returned in publish order and before its own ack, and a returned message is not nacked. -/
def keepsProtocol (x : Exchange) : ExchangeEvent → Bool
  | .local (.frame f) => staysUp x.machine (.frame f) ∧ confirmsNumbered x.machine (.frame f) ∧
    x.ledger.expects f ∧
    (f.isNack → (x.ledger.returned f.channel).all fun number => !f.confirms f.channel number)
  | .local e => staysUp x.machine e
  | .returns id f rest => staysUp x.machine (.frame f) ∧ (x.ledger.sending f.channel).isNone ∧
    stillReturnable x f.channel id ∧ returnsPublish x.machine id f rest

/-- The publish behind a written frame is not a mandatory one of the channel with a lower number,
or it was returned or confirmed. -/
def settledBefore (x : Exchange) (channel : Int) (number : Nat) (s : Sent) : Bool :=
  match s.caller.bind (x.machine.mandatoryNumber channel) with
  | some earlier => number ≤ earlier ∨ earlier ∈ x.ledger.returned channel ∨
      confirmed x.machine.received channel earlier
  | none => true

/-- When the last frame of a return is taken, every earlier mandatory publish of the channel was
returned or confirmed. -/
def returnsOldest (x : Exchange) : ExchangeEvent → Bool
  | .local (.frame f) =>
    match x.ledger.sending f.channel with
    | some (number, [_]) =>
      (numbered f.channel x.machine.conn.written).all (settledBefore x f.channel number)
    | _ => true
  | _ => true

def countsPublishes (x : Exchange) : ExchangeEvent → Bool
  | .local e => encodes x.machine e ∧ keepsCount x.machine e
  | .returns .. => true

/-! ## Attribution -/

/-- How a mandatory publish may end that awaited its confirm: as the broker said of its own
number, unless its task was interrupted. -/
def Attributed (m : Machine) (ledger : Ledger) (args : PublishArgs) (number : Nat) :
    Except Exc (Option Text) → Prop
  | .ok _ => Acks m.received args.channel number ∧ number ∉ ledger.returned args.channel
  | .error (.publishReturned returned) => number ∈ ledger.returned args.channel ∧
    returned.routingKey = args.routingKey ∧ returned.body = args.body
  | .error (.publishNack ..) =>
    Nacks m.received args.channel number ∧ number ∉ ledger.returned args.channel
  | .error e => e = .osError ∨ e = .cancelledError

structure ReturnsAttributed (x : Exchange) : Prop where
  ended : ∀ id args tag outcome, x.machine.calls id = some (.done (some (args, tag)) outcome) →
    args.mandatory = true → ∃ number, publishNumber args.channel x.machine.conn.written id = some number ∧
      Attributed x.machine x.ledger args number outcome
  ready : ∀ id args tag number, x.machine.calls id = some (.confirming args tag) →
    publishNumber args.channel x.machine.conn.written id = some number →
    confirmed x.machine.received args.channel number = true → (x.machine.step (.wake id)).isSome = true

end Nuropb.Transport
