import Nuropb.Library.Stateful
import Nuropb.Protocol.ContentHeader
import Nuropb.Protocol.Methods
import Nuropb.Protocol.StateMachines
import Nuropb.Transport.Confirm

/-! # The connection

State of an open connection and the operations that run without an await: the frame writer,
the channel check and the parts of `confirm_select`. Every written frame is logged with the
call that wrote it.
-/
namespace Nuropb.Transport

open Library Protocol

structure IncomingMessage where
  deliveryTag : Nat
  exchange : Text
  routingKey : Text
  body : Bytes
  properties : Properties
  redelivered : Bool
  consumerTag : Text

/-- A written frame and the call that wrote it, if it was not the read loop. -/
structure Sent where
  caller : Option CallId
  frame : Frame
  deriving DecidableEq

/-- The method that opened a content: a delivery or a returned publish. -/
inductive ContentMethod
  | deliver (args : BasicDeliverArgs)
  | returned (args : BasicReturnArgs)

/-- The content that the read loop is assembling on a channel. -/
structure Slot where
  method : ContentMethod
  properties : Properties := .empty
  body : Bytes := []
  remaining : Option Nat := none

/-- The read loop reads, or has answered a close and waits in the drain, or has ended. -/
inductive ReaderState
  | running
  | closing (reason : String)
  | stopped
  deriving DecidableEq

/-- What `_waiters` is keyed by. -/
abbrev WaiterKey := Int × MethodId

structure Conn where
  sm : ConnState := .openOk
  frameMax : Nat := defaultFrameMax
  /-- `connect` has written it into `connection.tune-ok` as four octets. -/
  frameMax_lt : frameMax < 2 ^ 32 := by first | exact defaultFrameMax_lt | decide
  channels : Dict Int ChanState := .empty
  confirm : Dict Int ConfirmTracker := .empty
  mandatoryTags : Dict Int (List Nat) := .empty
  returnByTag : Dict Int (Dict Nat ReturnedMessage) := .empty
  waiters : Dict WaiterKey CallId := .empty
  /-- The futures of `_expect`, by the call that waits. -/
  replies : CallId → Future Exc Method := fun _ => none
  /-- The futures of the confirm trackers, by the call that waits. -/
  confirms : CallId → Future Exc Unit := fun _ => none
  publishBlocked : Bool := false
  lost : Option Exc := none
  reader : ReaderState := .running
  pendingContent : Dict Int Slot := .empty
  deliveries : List IncomingMessage := []
  returns : List ReturnedMessage := []
  written : List Sent := []

abbrev ConnM := EStateM Exc Conn

namespace Conn

/-- `self._confirm.setdefault(channel_id, ConfirmTracker())` -/
def trackerOf (conn : Conn) (channel : Int) : ConfirmTracker := (conn.confirm.get? channel).getD {}

def mandatoryOf (conn : Conn) (channel : Int) : List Nat := (conn.mandatoryTags.get? channel).getD []

def setTracker (conn : Conn) (channel : Int) (tracker : ConfirmTracker) : Conn :=
  { conn with confirm := conn.confirm.set channel tracker }

def append (conn : Conn) (caller : Option CallId) (frames : List Frame) : Conn :=
  { conn with written := conn.written ++ frames.map (Sent.mk caller) }

@[simp] theorem append_written (conn : Conn) (caller : Option CallId) (frames : List Frame) :
    (conn.append caller frames).written = conn.written ++ frames.map (Sent.mk caller) := rfl

@[simp] theorem append_frameMax (conn : Conn) (caller : Option CallId) (frames : List Frame) :
    (conn.append caller frames).frameMax = conn.frameMax := rfl

@[simp] theorem append_nil (conn : Conn) (caller : Option CallId) : conn.append caller [] = conn := by
  simp [append]

theorem append_append (conn : Conn) (caller : Option CallId) (a b : List Frame) :
    (conn.append caller a).append caller b = conn.append caller (a ++ b) := by
  simp [append, List.append_assoc]

@[simp] theorem trackerOf_setTracker (conn : Conn) (channel : Int) (tracker : ConfirmTracker) :
    (conn.setTracker channel tracker).trackerOf channel = tracker := by
  simp [trackerOf, setTracker]

theorem trackerOf_setTracker_of_ne (conn : Conn) {channel other : Int} (h : channel ≠ other)
    (tracker : ConfirmTracker) :
    (conn.setTracker channel tracker).trackerOf other = conn.trackerOf other := by
  simp [trackerOf, setTracker, Dict.get?_set_of_ne _ h]

@[simp] theorem trackerOf_setTracker_same (conn : Conn) (channel other : Int) :
    (conn.setTracker channel (conn.trackerOf channel)).trackerOf other = conn.trackerOf other := by
  by_cases h : channel = other
  · rw [h, trackerOf_setTracker]
  · exact trackerOf_setTracker_of_ne conn h _

/-- What a refused operation may have changed: a channel state, a tracker that was missing. -/
def Refused (conn conn' : Conn) : Prop :=
  ∃ channels confirm, conn' = { conn with channels, confirm } ∧
    ∀ channel, conn'.trackerOf channel = conn.trackerOf channel

theorem Refused.refl (conn : Conn) : Refused conn conn := ⟨_, _, rfl, fun _ => rfl⟩

end Conn

/-! ## Operations without an await -/

/-- `self._channels[channel_id].assert_open_for_ops()` -/
def assertOpenForOps (channel : Int) : ConnM Unit := do
  let conn ← get
  let state ← lift (orRaise .keyError (conn.channels.get? channel))
  if state ≠ .open then do
    modify fun conn => { conn with channels := conn.channels.set channel .error }
    throw (.protocolError s!"channel op requires OPEN, got {state.text}")

def writeFrame (caller : Option CallId) (frame : Frame) : ConnM Unit := do
  let conn ← get
  let _ ← lift (encodeFrame conn.frameMax frame)
  modify fun conn => conn.append caller [frame]

/-- Encode a payload and write its frame. -/
def writePayload (caller : Option CallId) (frameType : FrameType) (channel : Int)
    (payload : Except Exc Bytes) : ConnM Unit := do
  let raw ← lift payload
  writeFrame caller ⟨frameType, channel, raw⟩

/-- `_send_method` up to its drain. -/
def sendMethod (caller : Option CallId) (channel : Int) (method : Method) : ConnM Unit :=
  writePayload caller .method channel (encodeMethod method)

/-- `confirm_select` up to its drain; false when the channel already confirms. -/
def startConfirmSelect (caller : Option CallId) (channel : Int) : ConnM Bool := do
  assertOpenForOps channel
  let conn ← get
  let tracker := conn.trackerOf channel
  modify fun conn => conn.setTracker channel tracker
  if tracker.enabled then return false
  sendMethod caller channel (.confirmSelect false)
  return true

/-- `confirm_select` from its reply on. -/
def finishConfirmSelect (channel : Int) : ConnM Unit :=
  modify fun conn => conn.setTracker channel (conn.trackerOf channel).enable

theorem writeFrame_of_fits {caller : Option CallId} {frame : Frame} {conn : Conn}
    (h : frame.Fits conn.frameMax) : writeFrame caller frame conn = .ok () (conn.append caller [frame]) := by
  obtain ⟨bytes, hbytes⟩ := encodeFrame_of_fits h
  simp [writeFrame, bind_run, hbytes]

theorem writeFrame_of_not_fits (caller : Option CallId) {frame : Frame} {conn : Conn}
    (h : ¬frame.Fits conn.frameMax) : ∃ e, writeFrame caller frame conn = .error e conn := by
  obtain ⟨bytes, hbytes⟩ | ⟨e, he⟩ := ok_or_error (encodeFrame conn.frameMax frame)
  · exact absurd (fits_of_encodeFrame hbytes) h
  · exact ⟨e, by simp [writeFrame, bind_run, he]⟩

theorem writeFrame_raises {caller : Option CallId} {frame : Frame} {conn conn' : Conn} {e : Exc}
    (h : writeFrame caller frame conn = .error e conn') :
    ¬frame.Fits conn.frameMax ∧ conn' = conn := by
  by_cases hfits : frame.Fits conn.frameMax
  · rw [writeFrame_of_fits hfits] at h
    cases h
  · obtain ⟨e', he⟩ := writeFrame_of_not_fits caller hfits
    rw [he] at h
    cases h
    exact ⟨hfits, rfl⟩

/-- The frame around an encoded payload, if both the payload and the frame encode. -/
def frameOf (frameMax : Nat) (frameType : FrameType) (channel : Int) (payload : Except Exc Bytes) :
    Option Frame :=
  payload.toOption.bind fun raw =>
    if Frame.Fits frameMax ⟨frameType, channel, raw⟩ then some ⟨frameType, channel, raw⟩ else none

section Payloads

variable {caller : Option CallId} {conn : Conn} {frameType : FrameType} {channel : Int}
  {payload : Except Exc Bytes}

theorem frameOf_eq_some_iff {frameMax : Nat} {frame : Frame} :
    frameOf frameMax frameType channel payload = some frame ↔
      ∃ raw, payload = .ok raw ∧ frame = ⟨frameType, channel, raw⟩ ∧ frame.Fits frameMax := by
  simp only [frameOf, Option.bind_eq_some_iff, toOption_eq_some, Option.ite_none_right_eq_some,
    Option.some.injEq]
  refine exists_congr fun raw => and_congr_right fun _ => ?_
  constructor
  · rintro ⟨hfits, rfl⟩
    exact ⟨rfl, hfits⟩
  · rintro ⟨rfl, hfits⟩
    exact ⟨hfits, rfl⟩

theorem writePayload_of_some {frame : Frame}
    (h : frameOf conn.frameMax frameType channel payload = some frame) :
    writePayload caller frameType channel payload conn = .ok () (conn.append caller [frame]) := by
  obtain ⟨raw, rfl, rfl, hfits⟩ := frameOf_eq_some_iff.mp h
  rw [writePayload, bind_run_ok (lift_ok raw conn), writeFrame_of_fits hfits]

theorem writePayload_of_none (caller : Option CallId)
    (h : frameOf conn.frameMax frameType channel payload = none) :
    ∃ e, writePayload caller frameType channel payload conn = .error e conn := by
  obtain ⟨raw, rfl⟩ | ⟨e, rfl⟩ := ok_or_error payload
  · have hfits : ¬Frame.Fits conn.frameMax ⟨frameType, channel, raw⟩ := by
      intro hfits
      simp [frameOf, hfits] at h
    obtain ⟨e, he⟩ := writeFrame_of_not_fits caller hfits
    exact ⟨e, by rw [writePayload, bind_run_ok (lift_ok raw conn), he]⟩
  · exact ⟨e, by rw [writePayload, bind_run_error (lift_error e conn)]⟩

end Payloads

theorem assertOpenForOps_of_open {channel : Int} {conn : Conn}
    (h : conn.channels.get? channel = some .open) : assertOpenForOps channel conn = .ok () conn := by
  simp [assertOpenForOps, bind_run, h]

theorem assertOpenForOps_returns {channel : Int} {conn conn' : Conn} {u : Unit} :
    assertOpenForOps channel conn = .ok u conn' ↔
      conn.channels.get? channel = some .open ∧ conn' = conn := by
  by_cases h : conn.channels.get? channel = some .open
  · simp [assertOpenForOps_of_open h, h, eq_comm]
  · cases hstate : conn.channels.get? channel with
    | none => simp [assertOpenForOps, bind_run, hstate]
    | some state =>
      have hne : state ≠ .open := fun heq => h (by rw [hstate, heq])
      simp [assertOpenForOps, bind_run, hstate, hne]

theorem assertOpenForOps_raises {channel : Int} {conn conn' : Conn} {e : Exc}
    (h : assertOpenForOps channel conn = .error e conn') :
    conn.channels.get? channel ≠ some .open ∧ conn.Refused conn' := by
  by_cases hopen : conn.channels.get? channel = some .open
  · rw [assertOpenForOps_of_open hopen] at h
    cases h
  · refine ⟨hopen, ?_⟩
    cases hstate : conn.channels.get? channel with
    | none =>
      simp only [assertOpenForOps, bind_run, get_run, hstate, orRaise_none, lift_error] at h
      cases h
      exact ⟨_, _, rfl, fun _ => rfl⟩
    | some state =>
      have hne : state ≠ .open := fun heq => hopen (by rw [hstate, heq])
      simp only [assertOpenForOps, bind_run, get_run, hstate, orRaise_some, lift_ok, ne_eq, hne,
        not_false_eq_true, if_true, modify_run, throw_run] at h
      cases h
      exact ⟨_, _, rfl, fun _ => rfl⟩

section ConfirmSelect

variable {caller : Option CallId} {channel : Int} {conn conn' : Conn}

def selectFrame (frameMax : Nat) (channel : Int) : Option Frame :=
  frameOf frameMax .method channel (encodeMethod (.confirmSelect false))

theorem startConfirmSelect_of_enabled (hopen : conn.channels.get? channel = some .open)
    (h : (conn.trackerOf channel).enabled = true) : startConfirmSelect caller channel conn =
      .ok false (conn.setTracker channel (conn.trackerOf channel)) := by
  rw [startConfirmSelect, bind_run_ok (assertOpenForOps_of_open hopen), bind_run_ok (get_run _),
    bind_run_ok (modify_run _ _), if_pos h]
  rfl

theorem startConfirmSelect_of_not_enabled (hopen : conn.channels.get? channel = some .open)
    (h : (conn.trackerOf channel).enabled = false) :
    startConfirmSelect caller channel conn =
      (do sendMethod caller channel (.confirmSelect false)
          return true) (conn.setTracker channel (conn.trackerOf channel)) := by
  rw [startConfirmSelect, bind_run_ok (assertOpenForOps_of_open hopen), bind_run_ok (get_run _),
    bind_run_ok (modify_run _ _), h, if_neg Bool.false_ne_true]

theorem startConfirmSelect_returns {requested : Bool}
    (h : startConfirmSelect caller channel conn = .ok requested conn') :
    conn.channels.get? channel = some .open ∧
      ((conn.trackerOf channel).enabled = true ∧ requested = false ∧
          conn' = conn.setTracker channel (conn.trackerOf channel) ∨
        (conn.trackerOf channel).enabled = false ∧ requested = true ∧
          ∃ frame, selectFrame conn.frameMax channel = some frame ∧
            conn' = (conn.setTracker channel (conn.trackerOf channel)).append caller [frame]) := by
  obtain ⟨_, t, hopen, -⟩ := bind_returns.mp h
  obtain ⟨hopen, rfl⟩ := assertOpenForOps_returns.mp hopen
  refine ⟨hopen, ?_⟩
  cases henabled : (t.trackerOf channel).enabled with
  | true =>
    rw [startConfirmSelect_of_enabled hopen henabled] at h
    cases h
    exact .inl ⟨rfl, rfl, rfl⟩
  | false =>
    rw [startConfirmSelect_of_not_enabled hopen henabled] at h
    cases hframe : selectFrame t.frameMax channel with
    | none =>
      have hnone : frameOf (t.setTracker channel (t.trackerOf channel)).frameMax .method channel
          (encodeMethod (.confirmSelect false)) = none := hframe
      obtain ⟨e, he⟩ := writePayload_of_none caller hnone
      rw [sendMethod, bind_run_error he] at h
      cases h
    | some frame =>
      have hsome : frameOf (t.setTracker channel (t.trackerOf channel)).frameMax .method channel
          (encodeMethod (.confirmSelect false)) = some frame := hframe
      rw [sendMethod, bind_run_ok (writePayload_of_some hsome)] at h
      cases h
      exact .inr ⟨rfl, rfl, frame, rfl, rfl⟩

/-- A `confirm_select` that raises at its start has written nothing. -/
theorem startConfirmSelect_raises {e : Exc}
    (h : startConfirmSelect caller channel conn = .error e conn') : conn.Refused conn' := by
  by_cases hopen : conn.channels.get? channel = some .open
  · cases henabled : (conn.trackerOf channel).enabled with
    | true =>
      rw [startConfirmSelect_of_enabled hopen henabled] at h
      cases h
    | false =>
      rw [startConfirmSelect_of_not_enabled hopen henabled] at h
      cases hframe : selectFrame conn.frameMax channel with
      | none =>
        have hnone : frameOf (conn.setTracker channel (conn.trackerOf channel)).frameMax .method
            channel (encodeMethod (.confirmSelect false)) = none := hframe
        obtain ⟨e', he⟩ := writePayload_of_none caller hnone
        rw [sendMethod, bind_run_error he] at h
        cases h
        exact ⟨_, _, rfl, fun c => Conn.trackerOf_setTracker_same conn channel c⟩
      | some frame =>
        have hsome : frameOf (conn.setTracker channel (conn.trackerOf channel)).frameMax .method
            channel (encodeMethod (.confirmSelect false)) = some frame := hframe
        rw [sendMethod, bind_run_ok (writePayload_of_some hsome)] at h
        cases h
  · rcases bind_raises.mp h with hcheck | ⟨_, t, hcheck, -⟩
    · exact (assertOpenForOps_raises hcheck).2
    · exact absurd (assertOpenForOps_returns.mp hcheck).1 hopen

end ConfirmSelect

end Nuropb.Transport
