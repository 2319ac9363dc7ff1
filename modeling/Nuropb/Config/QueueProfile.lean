import Nuropb.Python.Conversion

/-! # Queue profiles

The declare and delivery settings of a queue, validated as one unit: a profile carries the
proof that its settings passed the checks.
-/
namespace Nuropb.Config

open Library

inductive QueueType
  | quorum
  | classic
  deriving DecidableEq

def deliveryNonPersistent : Int := 1

def deliveryPersistent : Int := 2

inductive QueueArgument
  | queueType
  | messageTtl
  | deadLetterExchange
  | deadLetterRoutingKey
  | deliveryLimit
  deriving DecidableEq

namespace QueueArgument

def key : QueueArgument → Text
  | queueType => Text.ofString "x-queue-type"
  | messageTtl => Text.ofString "x-message-ttl"
  | deadLetterExchange => Text.ofString "x-dead-letter-exchange"
  | deadLetterRoutingKey => Text.ofString "x-dead-letter-routing-key"
  | deliveryLimit => Text.ofString "x-delivery-limit"

theorem key_inj {a b : QueueArgument} : a.key = b.key ↔ a = b := by
  cases a <;> cases b <;> decide

def put (a : QueueArgument) (value : Option PyVal) (args : Table) : Table :=
  match value with
  | none => args
  | some v => assign a.key v args

theorem lookup_put (a b : QueueArgument) (value : Option PyVal) (args : Table) :
    lookup a.key (b.put value args) = if b = a then value.or (lookup a.key args) else lookup a.key args := by
  cases value with
  | none => simp [put]
  | some v => simp [put, lookup_assign, key_inj]

end QueueArgument

structure ProfileSettings where
  name : Text
  queueType : QueueType
  durable : Bool
  deliveryMode : Int
  messageTtlMs : Option Int := none
  deadLetterExchange : Option Text := none
  deadLetterRoutingKey : Option Text := none
  deliveryLimit : Option Int := none

namespace ProfileSettings

/-- `bool(self.dead_letter_exchange)` -/
def requiresDlx (p : ProfileSettings) : Bool := !(p.deadLetterExchange.getD []).isEmpty

/-- `f"profile {self.name!r}: ..."`; what is not ASCII in the name is escaped. -/
def refusal (p : ProfileSettings) (reason : String) : Exc :=
  let name := String.ofList ((Builtins.ascii.reprText p.name).scalars.getD [])
  .valueError s!"profile {name}: {reason}"

/-- `__post_init__` -/
def check (p : ProfileSettings) : Except Exc Unit := do
  raiseIf (p.deliveryMode ≠ deliveryNonPersistent ∧ p.deliveryMode ≠ deliveryPersistent)
    (.valueError s!"delivery_mode must be 1 or 2, got {p.deliveryMode}")
  raiseIf (p.durable ∧ p.deliveryMode ≠ deliveryPersistent)
    (p.refusal "durable queues require delivery_mode=2 (refuse non-persistent)")
  raiseIf (¬p.durable ∧ p.deliveryMode = deliveryPersistent) (p.refusal
    "non-durable queue with persistent messages is refused (likely misconfiguration)")
  raiseIf (p.queueType = .quorum ∧ p.deliveryLimit.isNone)
    (p.refusal "quorum requires x-delivery-limit")
  raiseIf (p.queueType = .classic ∧ p.deliveryLimit.isSome)
    (p.refusal "x-delivery-limit is forbidden on classic queues")
  raiseIf (p.deliveryLimit.any (· < 1)) (.valueError "delivery_limit must be >= 1")
  raiseIf (p.messageTtlMs.any (· < 1)) (.valueError "message_ttl_ms must be >= 1")
  raiseIf (p.messageTtlMs.isSome ≠ p.requiresDlx)
    (p.refusal "TTL and dead-letter exchange must be set together")
  raiseIf (p.deadLetterRoutingKey.isSome ∧ ¬p.requiresDlx)
    (p.refusal "dead_letter_routing_key requires dead_letter_exchange")

def declareArguments (p : ProfileSettings) : Table :=
  let args : Table := []
  let args := QueueArgument.queueType.put
    (if p.queueType = .quorum then some (.str (Text.ofString "quorum")) else none) args
  let args := QueueArgument.messageTtl.put (p.messageTtlMs.map .int) args
  let args := match p.deadLetterExchange with
    | none => args
    | some exchange =>
      let args := QueueArgument.deadLetterExchange.put (some (.str exchange)) args
      QueueArgument.deadLetterRoutingKey.put ((p.deadLetterRoutingKey.filter (¬·.isEmpty)).map .str) args
  QueueArgument.deliveryLimit.put (p.deliveryLimit.map .int) args

def argument (p : ProfileSettings) : QueueArgument → Option PyVal
  | .queueType => if p.queueType = .quorum then some (.str (Text.ofString "quorum")) else none
  | .messageTtl => p.messageTtlMs.map .int
  | .deadLetterExchange => p.deadLetterExchange.map .str
  | .deadLetterRoutingKey =>
    p.deadLetterExchange.bind fun _ => (p.deadLetterRoutingKey.filter (¬·.isEmpty)).map .str
  | .deliveryLimit => p.deliveryLimit.map .int

theorem lookup_declareArguments (p : ProfileSettings) (a : QueueArgument) :
    lookup a.key p.declareArguments = p.argument a := by
  unfold declareArguments
  cases hexchange : p.deadLetterExchange with
  | none => cases a <;> simp [QueueArgument.lookup_put, argument, hexchange, lookup]
  | some exchange => cases a <;> simp [QueueArgument.lookup_put, argument, hexchange, lookup]

end ProfileSettings

structure QueueProfile extends ProfileSettings where
  valid : toProfileSettings.check = .ok ()

namespace QueueProfile

theorem durable_iff (profile : QueueProfile) : profile.durable ↔ profile.deliveryMode = deliveryPersistent := by
  have hvalid := profile.valid
  simp only [ProfileSettings.check, bind_eq_ok, raiseIf_eq_ok, exists_const] at hvalid
  obtain ⟨-, hdurable, htransient, -⟩ := hvalid
  tauto

theorem limited_iff (profile : QueueProfile) : profile.deliveryLimit.isSome ↔ profile.queueType = .quorum := by
  have hvalid := profile.valid
  simp only [ProfileSettings.check, bind_eq_ok, raiseIf_eq_ok, exists_const] at hvalid
  obtain ⟨-, -, -, hquorum, hclassic, -⟩ := hvalid
  cases htype : profile.queueType <;> simp_all [Option.isSome_iff_ne_none]

theorem expires_iff (profile : QueueProfile) : profile.messageTtlMs.isSome = profile.requiresDlx := by
  have hvalid := profile.valid
  simp only [ProfileSettings.check, bind_eq_ok, raiseIf_eq_ok, exists_const] at hvalid
  obtain ⟨-, -, -, -, -, -, -, hexpires, -⟩ := hvalid
  exact not_not.mp hexpires

/-- The effective delivery mode of a publish, or a refusal when it disagrees with the profile. -/
def assertDeliveryMode (builtins : Builtins) (profile : QueueProfile) (deliveryMode : Option PyVal) : Except Exc Int :=
  match deliveryMode with
  | none | some .none => .ok profile.deliveryMode
  | some value => do
    let mode ← builtins.int value
    raiseIf (profile.durable ∧ mode ≠ deliveryPersistent) (profile.refusal
      s!"refusing non-persistent publish (delivery_mode={mode}) to a durable queue")
    raiseIf (¬profile.durable ∧ mode = deliveryPersistent)
      (profile.refusal "refusing persistent publish to a non-durable queue")
    raiseIf (mode ≠ profile.deliveryMode) (profile.refusal
      s!"delivery_mode {mode} disagrees with profile delivery_mode {profile.deliveryMode}")
    return mode

/-- A mode given as a keyword goes before the one among the properties. -/
def applyPublishProperties (builtins : Builtins) (profile : QueueProfile) (properties : Properties) (deliveryMode : Option Int := none) :
    Except Exc Properties := do
  let mode ← profile.assertDeliveryMode builtins ((deliveryMode.map PyVal.int).or (properties .deliveryMode))
  return properties.set .deliveryMode (.int mode)

/-- A publish under a profile always goes out with the profile's own delivery mode. -/
theorem assertDeliveryMode_eq {builtins : Builtins} {profile : QueueProfile} {deliveryMode : Option PyVal} {mode : Int}
    (h : profile.assertDeliveryMode builtins deliveryMode = .ok mode) : mode = profile.deliveryMode := by
  unfold assertDeliveryMode at h
  split at h
  · cases h
    rfl
  · cases h
    rfl
  · obtain ⟨n, -, h⟩ := bind_eq_ok.mp h
    simp only [bind_eq_ok, raiseIf_eq_ok, exists_const, pure_eq_ok, Except.ok.injEq] at h
    obtain ⟨-, -, hmode, rfl⟩ := h
    exact not_not.mp hmode

theorem deliveryMode_of_apply {builtins : Builtins} {profile : QueueProfile} {properties props : Properties}
    {deliveryMode : Option Int} (h : profile.applyPublishProperties builtins properties deliveryMode = .ok props) :
    props .deliveryMode = some (.int profile.deliveryMode) := by
  obtain ⟨mode, hmode, h⟩ := bind_eq_ok.mp h
  cases h
  rw [← assertDeliveryMode_eq hmode]
  rfl

end QueueProfile

/-- Quorum, persistent, with a dead-letter exchange for expired messages and a delivery limit. -/
def durableAtLeastOnce : QueueProfile where
  name := Text.ofString "durable-at-least-once"
  queueType := .quorum
  durable := true
  deliveryMode := deliveryPersistent
  messageTtlMs := some 60000
  deadLetterExchange := some (Text.ofString "nr.dlx")
  deadLetterRoutingKey := some (Text.ofString "timeout")
  deliveryLimit := some 10
  valid := by rfl

end Nuropb.Config
