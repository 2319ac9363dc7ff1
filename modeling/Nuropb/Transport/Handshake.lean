import Nuropb.Transport.ReadLoop

/-! # The handshake

`connect` waits for the transport and for three replies; between two waits it runs without
interruption, and every rejected transition ends it.
-/
namespace Nuropb.Transport

open Library Protocol

structure ConnectionConfig where
  virtualHost : Text := Text.ofString "/"
  username : Text := Text.ofString "guest"
  password : Text := Text.ofString "guest"
  heartbeat : Int := 60
  frameMax : Nat := defaultFrameMax
  frameMax_lt : frameMax < 2 ^ 32 := by first | exact defaultFrameMax_lt | decide
  tls : Bool := false
  hasClientCert : Bool := false

/-- Where `connect` waits. -/
inductive Handshake
  | resolving
  | opening
  | header
  | start
  | startOk
  | tune
  | tuneOk (heartbeat : Int)
  | open (heartbeat : Int)
  | openOk (heartbeat : Int)

/-- The ids of the method that a step expects on channel 0; the others wait for the transport. -/
def Handshake.expects : Handshake → Option MethodId
  | .start => some (10, 10)
  | .tune => some (10, 30)
  | .openOk _ => some (10, 41)
  | _ => none

def transition (f : ConnState.Transition) : ConnM Unit := fun conn =>
  match f conn.sm with
  | .ok s => .ok () { conn with sm := s }
  | .error reason => reject reason conn

def mechanismsOf : Option Method → Text
  | some (.connectionStart _ _ _ mechanisms _) => mechanisms
  | _ => []

def tuneOf : Option Method → Nat × Nat × Nat
  | some (.connectionTune channelMax frameMax heartbeat) => (channelMax, frameMax, heartbeat)
  | _ => (0, 0, 0)

def orElse (value default : Nat) : Nat := if value = 0 then default else value

namespace ConnectionConfig

def selectSasl (config : ConnectionConfig) (mechanisms : Text) : ConnM (Text × Bytes) :=
  let offered := mechanisms.words
  if Text.ofString "EXTERNAL" ∈ offered ∧ config.hasClientCert then
    return (Text.ofString "EXTERNAL", [])
  else if Text.ofString "PLAIN" ∉ offered then reject "no supported SASL mechanism"
  else do
    let user ← lift (encodeUtf8 config.username)
    let password ← lift (encodeUtf8 config.password)
    return (Text.ofString "PLAIN", [0] ++ user ++ [0] ++ password)

/-- `heartbeat = min(int(tune.args.get("heartbeat") or hb_cfg), hb_cfg)` and its bounds. -/
def negotiate (config : ConnectionConfig) (tuned : Nat) : Int :=
  let heartbeat := min (if tuned = 0 then config.heartbeat else tuned) config.heartbeat
  min (if heartbeat ≤ 0 then config.heartbeat else heartbeat) 60

def clientProperties : Table :=
  [(Text.ofString "product", .str (Text.ofString "nuropb-rmq")),
   (Text.ofString "version", .str (Text.ofString "1.0.0"))]

def agreeFrameMax (config : ConnectionConfig) (tuned : Nat) (conn : Conn) : Conn :=
  { conn with
    frameMax := min (orElse tuned config.frameMax) config.frameMax
    frameMax_lt := Nat.lt_of_le_of_lt (Nat.min_le_right _ _) config.frameMax_lt }

/-- `connect` from the end of one wait to the next; it returns when there is none. -/
def advance (config : ConnectionConfig) (caller : CallId) (reply : Option Method) :
    Handshake → ConnM (Option Handshake)
  | .resolving => do
    transition (ConnState.onTcpConnected config.tls)
    return some .opening
  | .opening => do
    if config.tls then transition ConnState.onTlsVerified
    transition ConnState.allowAmqpHeader
    return some .header
  | .header => do
    modify fun conn => { conn with reader := .running }
    return some .start
  | .start => do
    transition ConnState.onConnectionStart
    let (mechanism, response) ← config.selectSasl (mechanismsOf reply)
    transition (ConnState.assertCanSendConnectionMethod 11)
    sendMethod caller 0
      (.connectionStartOk clientProperties mechanism response (Text.ofString "en_US"))
    return some .startOk
  | .startOk => do
    transition ConnState.onConnectionStartOkSent
    return some .tune
  | .tune => do
    transition ConnState.onConnectionTune
    let (channelMax, frameMax, tuned) := tuneOf reply
    modify (config.agreeFrameMax frameMax)
    let heartbeat := config.negotiate tuned
    transition (ConnState.assertCanSendConnectionMethod 31)
    let conn ← get
    sendMethod caller 0 (.connectionTuneOk (orElse channelMax 2047) conn.frameMax heartbeat)
    return some (.tuneOk heartbeat)
  | .tuneOk heartbeat => do
    transition (ConnState.onConnectionTuneOkSent heartbeat)
    transition (ConnState.assertCanSendConnectionMethod 40)
    sendMethod caller 0 (.connectionOpen config.virtualHost [] false)
    return some (.open heartbeat)
  | .open heartbeat => do
    transition ConnState.onConnectionOpenSent
    return some (.openOk heartbeat)
  | .openOk _ => do
    transition ConnState.onConnectionOpenOk
    return none

def start (config : ConnectionConfig) (caller : CallId) : ConnM (Option Handshake) := do
  throwIf (config.heartbeat ≤ 0 ∨ config.heartbeat > 60)
    (.valueError s!"heartbeat must be 1..60, got {config.heartbeat}")
  if config.tls then return some .resolving else config.advance caller none .resolving

end ConnectionConfig

end Nuropb.Transport
