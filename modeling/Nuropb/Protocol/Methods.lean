import Nuropb.Transport.FieldTable

/-! # Methods

A method payload is its class and method ids and its arguments. Each method that the client
writes or reads is a constructor; the argument records carry the defaults of the encoder.
-/
namespace Nuropb.Protocol

open Library Transport

/-- The arguments of `connection.close` and `channel.close`. -/
structure CloseArgs where
  replyCode : Int := 200
  replyText : Text := []
  classId : Int := 0
  methodId : Int := 0

structure QueueDeclareArgs where
  ticket : Int := 0
  queue : Text := []
  passive : Bool := false
  durable : Bool := false
  exclusive : Bool := false
  autoDelete : Bool := false
  nowait : Bool := false
  arguments : Table := []

structure ExchangeDeclareArgs where
  ticket : Int := 0
  exchange : Text
  type : Text := Text.ofString "direct"
  passive : Bool := false
  durable : Bool := false
  autoDelete : Bool := false
  internal : Bool := false
  nowait : Bool := false
  arguments : Table := []

structure QueueBindArgs where
  ticket : Int := 0
  queue : Text := []
  exchange : Text := []
  routingKey : Text := []
  nowait : Bool := false
  arguments : Table := []

structure BasicPublishArgs where
  ticket : Int := 0
  exchange : Text := []
  routingKey : Text := []
  mandatory : Bool := false
  immediate : Bool := false

structure BasicConsumeArgs where
  ticket : Int := 0
  queue : Text := []
  consumerTag : Text := []
  noLocal : Bool := false
  noAck : Bool := false
  exclusive : Bool := false
  nowait : Bool := false
  arguments : Table := []

structure BasicReturnArgs where
  replyCode : Int := 312
  replyText : Text := []
  exchange : Text := []
  routingKey : Text := []

structure BasicDeliverArgs where
  consumerTag : Text
  deliveryTag : Nat
  redelivered : Bool
  exchange : Text
  routingKey : Text

inductive Method
  | connectionStart (versionMajor versionMinor : Nat) (serverProperties : Table)
      (mechanisms locales : Text)
  | connectionStartOk (clientProperties : Table) (mechanism : Text) (response : Bytes) (locale : Text)
  | connectionSecure (challenge : Bytes)
  | connectionTune (channelMax frameMax heartbeat : Nat)
  | connectionTuneOk (channelMax frameMax heartbeat : Int)
  | connectionOpen (virtualHost capabilities : Text) (insist : Bool)
  | connectionOpenOk (reserved1 : Text)
  | connectionClose (args : CloseArgs)
  | connectionCloseOk
  | connectionBlocked (reason : Text)
  | connectionUnblocked
  | connectionUpdateSecret (newSecret : Text ⊕ Bytes) (reason : Text)
  | connectionUpdateSecretOk
  | channelOpen (outOfBand : Text)
  | channelOpenOk (channelId : Bytes)
  | channelClose (args : CloseArgs)
  | channelCloseOk
  | exchangeDeclare (args : ExchangeDeclareArgs)
  | exchangeDeclareOk
  | queueDeclare (args : QueueDeclareArgs)
  | queueDeclareOk (queue : Text) (messageCount consumerCount : Nat)
  | queueBind (args : QueueBindArgs)
  | queueBindOk
  | basicQos (prefetchSize prefetchCount : Int) (global : Bool)
  | basicQosOk
  | basicConsume (args : BasicConsumeArgs)
  | basicConsumeOk (consumerTag : Text)
  | basicCancel (consumerTag : Text) (nowait : Bool)
  | basicCancelOk (consumerTag : Text)
  | basicPublish (args : BasicPublishArgs)
  | basicReturn (args : BasicReturnArgs)
  | basicDeliver (args : BasicDeliverArgs)
  | basicAck (deliveryTag : Int) (multiple : Bool)
  | basicReject (deliveryTag : Int) (requeue : Bool)
  | basicNack (deliveryTag : Int) (multiple requeue : Bool)
  | confirmSelect (nowait : Bool)
  | confirmSelectOk
  /-- A method that the client does not know; the connection is left to judge it. -/
  | unknown (classId methodId : Nat) (raw : Bytes)

/-- Class and method id; a caller waits for a reply under this pair and its channel. -/
abbrev MethodId := Nat × Nat

def Method.ids : Method → MethodId
  | .connectionStart .. => (10, 10)
  | .connectionStartOk .. => (10, 11)
  | .connectionSecure _ => (10, 20)
  | .connectionTune .. => (10, 30)
  | .connectionTuneOk .. => (10, 31)
  | .connectionOpen .. => (10, 40)
  | .connectionOpenOk _ => (10, 41)
  | .connectionClose _ => (10, 50)
  | .connectionCloseOk => (10, 51)
  | .connectionBlocked _ => (10, 60)
  | .connectionUnblocked => (10, 61)
  | .connectionUpdateSecret .. => (10, 70)
  | .connectionUpdateSecretOk => (10, 71)
  | .channelOpen _ => (20, 10)
  | .channelOpenOk _ => (20, 11)
  | .channelClose _ => (20, 40)
  | .channelCloseOk => (20, 41)
  | .exchangeDeclare _ => (40, 10)
  | .exchangeDeclareOk => (40, 11)
  | .queueDeclare _ => (50, 10)
  | .queueDeclareOk .. => (50, 11)
  | .queueBind _ => (50, 20)
  | .queueBindOk => (50, 21)
  | .basicQos .. => (60, 10)
  | .basicQosOk => (60, 11)
  | .basicConsume _ => (60, 20)
  | .basicConsumeOk _ => (60, 21)
  | .basicCancel .. => (60, 30)
  | .basicCancelOk _ => (60, 31)
  | .basicPublish _ => (60, 40)
  | .basicReturn _ => (60, 50)
  | .basicDeliver _ => (60, 60)
  | .basicAck .. => (60, 80)
  | .basicReject .. => (60, 90)
  | .basicNack .. => (60, 120)
  | .confirmSelect _ => (85, 10)
  | .confirmSelectOk => (85, 11)
  | .unknown classId methodId _ => (classId, methodId)

/-- The octet whose bit `i` is the `i`-th flag. -/
def flagBits (flags : List Bool) : UInt8 :=
  UInt8.ofNat (flags.foldr (fun flag acc => (if flag then 1 else 0) + 2 * acc) 0)

def encodeCloseArgs (args : CloseArgs) : Except Exc Bytes := do
  let code ← toBytes 2 args.replyCode
  let text ← encodeShortstr args.replyText
  let classId ← toBytes 2 args.classId
  let methodId ← toBytes 2 args.methodId
  return code ++ text ++ classId ++ methodId

def encodeArgs : Method → Except Exc Bytes
  | .connectionStartOk clientProperties mechanism response locale => do
    let table ← encodeTable .default 0 clientProperties
    let mechanism ← encodeShortstr mechanism
    let response ← encodeLongstr response
    let locale ← encodeShortstr locale
    return table ++ mechanism ++ response ++ locale
  | .connectionTuneOk channelMax frameMax heartbeat => do
    let channelMax ← toBytes 2 channelMax
    let frameMax ← toBytes 4 frameMax
    let heartbeat ← toBytes 2 heartbeat
    return channelMax ++ frameMax ++ heartbeat
  | .connectionOpen virtualHost capabilities insist => do
    let virtualHost ← encodeShortstr virtualHost
    let capabilities ← encodeShortstr capabilities
    return virtualHost ++ capabilities ++ [flagBits [insist]]
  | .connectionClose args => encodeCloseArgs args
  | .connectionCloseOk => .ok []
  | .connectionUpdateSecret newSecret reason => do
    let secret ← match newSecret with
      | .inl text => encodeUtf8 text
      | .inr raw => .ok raw
    let secret ← encodeLongstr secret
    let reason ← encodeShortstr reason
    return secret ++ reason
  | .channelOpen outOfBand => encodeShortstr outOfBand
  | .channelOpenOk channelId => encodeLongstr channelId
  | .channelClose args => encodeCloseArgs args
  | .channelCloseOk => .ok []
  | .queueDeclare args => do
    let ticket ← toBytes 2 args.ticket
    let queue ← encodeShortstr args.queue
    let bits := flagBits [args.passive, args.durable, args.exclusive, args.autoDelete, args.nowait]
    let arguments ← encodeTable .default 0 args.arguments
    return ticket ++ queue ++ [bits] ++ arguments
  | .exchangeDeclare args => do
    let ticket ← toBytes 2 args.ticket
    let exchange ← encodeShortstr args.exchange
    let type ← encodeShortstr args.type
    let bits := flagBits [args.passive, args.durable, args.autoDelete, args.internal, args.nowait]
    let arguments ← encodeTable .default 0 args.arguments
    return ticket ++ exchange ++ type ++ [bits] ++ arguments
  | .queueBind args => do
    let ticket ← toBytes 2 args.ticket
    let queue ← encodeShortstr args.queue
    let exchange ← encodeShortstr args.exchange
    let routingKey ← encodeShortstr args.routingKey
    let arguments ← encodeTable .default 0 args.arguments
    return ticket ++ queue ++ exchange ++ routingKey ++ [flagBits [args.nowait]] ++ arguments
  | .basicPublish args => do
    let ticket ← toBytes 2 args.ticket
    let exchange ← encodeShortstr args.exchange
    let routingKey ← encodeShortstr args.routingKey
    return ticket ++ exchange ++ routingKey ++ [flagBits [args.mandatory, args.immediate]]
  | .basicReturn args => do
    let code ← toBytes 2 args.replyCode
    let text ← encodeShortstr args.replyText
    let exchange ← encodeShortstr args.exchange
    let routingKey ← encodeShortstr args.routingKey
    return code ++ text ++ exchange ++ routingKey
  | .basicConsume args => do
    let ticket ← toBytes 2 args.ticket
    let queue ← encodeShortstr args.queue
    let consumerTag ← encodeShortstr args.consumerTag
    let bits := flagBits [args.noLocal, args.noAck, args.exclusive, args.nowait]
    let arguments ← encodeTable .default 0 args.arguments
    return ticket ++ queue ++ consumerTag ++ [bits] ++ arguments
  | .basicAck deliveryTag multiple => do
    let tag ← toBytes 8 deliveryTag
    return tag ++ [flagBits [multiple]]
  | .basicReject deliveryTag requeue => do
    let tag ← toBytes 8 deliveryTag
    return tag ++ [flagBits [requeue]]
  | .basicNack deliveryTag multiple requeue => do
    let tag ← toBytes 8 deliveryTag
    return tag ++ [flagBits [multiple, requeue]]
  | .basicCancel consumerTag nowait => do
    let consumerTag ← encodeShortstr consumerTag
    return consumerTag ++ [flagBits [nowait]]
  | .basicQos prefetchSize prefetchCount global => do
    let prefetchSize ← toBytes 4 prefetchSize
    let prefetchCount ← toBytes 2 prefetchCount
    return prefetchSize ++ prefetchCount ++ [flagBits [global]]
  | .confirmSelect nowait => .ok [flagBits [nowait]]
  | method =>
    .error (.amqpCodecError s!"encode unsupported method {method.ids.1}.{method.ids.2}")

def encodeMethod (method : Method) : Except Exc Bytes := do
  let classId ← toBytes 2 method.ids.1
  let methodId ← toBytes 2 method.ids.2
  let args ← encodeArgs method
  return classId ++ methodId ++ args

/-! ## Reading -/

/-- A big-endian field; like a Python slice it is short at the end of the payload. -/
def field (payload : Bytes) (offset width : Nat) : Nat :=
  ofBE (slice payload offset (offset + width))

def decodeCloseArgs (payload : Bytes) : Except Exc CloseArgs := do
  let (replyText, offset) ← decodeShortstr payload 6
  return { replyCode := field payload 4 2, replyText, classId := field payload offset 2,
           methodId := field payload (offset + 2) 2 }

def decodeMethod (payload : Bytes) : Except Exc Method := do
  raiseIf (payload.length < 4) (.amqpCodecError "method payload too short")
  match (field payload 0 2, field payload 2 2) with
  | (10, 10) => do
    let versionMajor ← orRaise .indexError payload[4]?
    let versionMinor ← orRaise .indexError payload[5]?
    let (serverProperties, offset) ← decodeTable payload tableRoom 6
    let (mechanisms, offset) ← decodeLongstr payload offset
    let mechanisms ← decodeUtf8 mechanisms
    let (locales, _) ← decodeLongstr payload offset
    let locales ← decodeUtf8 locales
    return .connectionStart versionMajor.toNat versionMinor.toNat serverProperties mechanisms locales
  | (10, 20) => do
    let (challenge, _) ← decodeLongstr payload 4
    return .connectionSecure challenge
  | (10, 30) => return .connectionTune (field payload 4 2) (field payload 6 4) (field payload 10 2)
  | (10, 41) => do
    let (reserved1, _) ← decodeShortstr payload 4
    return .connectionOpenOk reserved1
  | (10, 50) => do
    let args ← decodeCloseArgs payload
    return .connectionClose args
  | (10, 51) => return .connectionCloseOk
  | (10, 60) => do
    let (reason, _) ← decodeShortstr payload 4
    return .connectionBlocked reason
  | (10, 61) => return .connectionUnblocked
  | (10, 71) => return .connectionUpdateSecretOk
  | (20, 11) => do
    let (channelId, _) ← decodeLongstr payload 4
    return .channelOpenOk channelId
  | (20, 40) => do
    let args ← decodeCloseArgs payload
    return .channelClose args
  | (20, 41) => return .channelCloseOk
  | (40, 11) => return .exchangeDeclareOk
  | (50, 11) => do
    let (queue, offset) ← decodeShortstr payload 4
    return .queueDeclareOk queue (field payload offset 4) (field payload (offset + 4) 4)
  | (50, 21) => return .queueBindOk
  | (60, 11) => return .basicQosOk
  | (60, 21) => do
    let (consumerTag, _) ← decodeShortstr payload 4
    return .basicConsumeOk consumerTag
  | (60, 31) => do
    let (consumerTag, _) ← decodeShortstr payload 4
    return .basicCancelOk consumerTag
  | (60, 50) => do
    let (replyText, offset) ← decodeShortstr payload 6
    let (exchange, offset) ← decodeShortstr payload offset
    let (routingKey, _) ← decodeShortstr payload offset
    return .basicReturn { replyCode := field payload 4 2, replyText, exchange, routingKey }
  | (60, 60) => do
    let (consumerTag, offset) ← decodeShortstr payload 4
    let redelivered ← orRaise .indexError payload[offset + 8]?
    let (exchange, next) ← decodeShortstr payload (offset + 9)
    let (routingKey, _) ← decodeShortstr payload next
    return .basicDeliver { consumerTag, deliveryTag := field payload offset 8,
                           redelivered := redelivered ≠ 0, exchange, routingKey }
  | (60, 80) => return .basicAck (field payload 4 8) (payload.getD 12 0 ≠ 0)
  | (60, 120) =>
    let bits := (payload.getD 12 0).toNat
    return .basicNack (field payload 4 8) (bits.testBit 0) (bits.testBit 1)
  | (85, 11) => return .confirmSelectOk
  | (classId, methodId) => return .unknown classId methodId (payload.drop 4)

end Nuropb.Protocol
