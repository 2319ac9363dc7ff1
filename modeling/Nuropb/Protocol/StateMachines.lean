import Nuropb.Library.Outcome
import Nuropb.Python.Value

/-! # Connection and channel state machines

Both fail closed: an operation in the wrong state moves the machine to `error` and raises. A
transition is a partial function: the next state, or the reason of the rejection.
-/
namespace Nuropb.Protocol

inductive ConnState
  | init
  | tcpConnected
  | tlsHandshaking
  | tlsVerified
  | start
  | startOk
  | tune
  | tuneOk
  | open
  | openOk
  | closing
  | closed
  | error
  deriving DecidableEq, Repr

inductive ChanState
  | closed
  | opening
  | open
  | closing
  | error
  deriving DecidableEq, Repr

namespace ConnState

def isOpen : ConnState → Bool
  | .openOk => true
  | _ => false

/-- How an f-string shows the state. -/
def text : ConnState → String
  | .init => "ConnState.INIT"
  | .tcpConnected => "ConnState.TCP_CONNECTED"
  | .tlsHandshaking => "ConnState.TLS_HANDSHAKING"
  | .tlsVerified => "ConnState.TLS_VERIFIED"
  | .start => "ConnState.START"
  | .startOk => "ConnState.START_OK"
  | .tune => "ConnState.TUNE"
  | .tuneOk => "ConnState.TUNE_OK"
  | .open => "ConnState.OPEN"
  | .openOk => "ConnState.OPEN_OK"
  | .closing => "ConnState.CLOSING"
  | .closed => "ConnState.CLOSED"
  | .error => "ConnState.ERROR"

/-- `_TERMINAL` -/
def terminal : ConnState → Bool
  | .closed | .error => true
  | _ => false

abbrev Transition := ConnState → Except String ConnState

def onTcpConnected (tls : Bool) : Transition := fun s =>
  if s ≠ .init then .error s!"tcp connect in state {s.text}"
  else .ok (if tls then .tlsHandshaking else .tcpConnected)

def onTlsVerified : Transition := fun s =>
  if s ≠ .tlsHandshaking then .error s!"tls verified in state {s.text}" else .ok .tlsVerified

/-- Negotiation starts only after TCP or verified TLS. -/
def allowAmqpHeader : Transition := fun s =>
  if s = .tlsHandshaking then .error "AMQP header before TLS verified"
  else if s ≠ .tcpConnected ∧ s ≠ .tlsVerified then .error s!"AMQP header in state {s.text}"
  else .ok s

def onConnectionStart : Transition := fun s =>
  if s ≠ .tcpConnected ∧ s ≠ .tlsVerified then .error s!"connection.start in state {s.text}"
  else .ok .start

def onConnectionStartOkSent : Transition := fun s =>
  if s ≠ .start then .error s!"connection.start-ok in state {s.text}" else .ok .startOk

def onConnectionTune : Transition := fun s =>
  if s ≠ .startOk then .error s!"connection.tune in state {s.text}" else .ok .tune

def onConnectionTuneOkSent (heartbeat : Int) : Transition := fun s =>
  if s ≠ .tune then .error s!"connection.tune-ok in state {s.text}"
  else if heartbeat ≤ 0 ∨ heartbeat > 60 then .error s!"invalid heartbeat {heartbeat}"
  else .ok .tuneOk

def onConnectionOpenSent : Transition := fun s =>
  if s ≠ .tuneOk then .error s!"connection.open in state {s.text}" else .ok .open

def onConnectionOpenOk : Transition := fun s =>
  if s ≠ .open then .error s!"connection.open-ok in state {s.text}" else .ok .openOk

def beginClose : Transition := fun s =>
  if s.terminal then .error s!"close in terminal state {s.text}" else .ok .closing

/-- The states in which a connection method may be sent, by its id. -/
def legal : Nat → Option (List ConnState)
  | 11 => some [.start]
  | 31 => some [.tune]
  | 40 => some [.tuneOk]
  | 50 => some [.openOk, .open, .tuneOk, .tune, .startOk, .start]
  | 51 => some [.closing]
  | 70 => some [.openOk]
  | _ => none

def assertCanSendConnectionMethod (methodId : Nat) : Transition := fun s =>
  match legal methodId with
  | none => .error s!"unknown connection method {methodId}"
  | some allowed =>
    if s ∈ allowed then .ok s else .error s!"connection method {methodId} illegal in {s.text}"

end ConnState

namespace ChanState

/-- How an f-string shows the state. -/
def text : ChanState → String
  | .closed => "ChanState.CLOSED"
  | .opening => "ChanState.OPENING"
  | .open => "ChanState.OPEN"
  | .closing => "ChanState.CLOSING"
  | .error => "ChanState.ERROR"

abbrev Transition := ChanState → Except String ChanState

def onOpenSent : Transition := fun s =>
  if s ≠ .closed then .error s!"channel.open in state {s.text}" else .ok .opening

def onOpenOk : Transition := fun s =>
  if s ≠ .opening then .error s!"channel.open-ok in state {s.text}" else .ok .open

end ChanState

end Nuropb.Protocol
