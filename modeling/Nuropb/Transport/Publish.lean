import Nuropb.Config.QueueProfile
import Nuropb.Transport.Connection

/-! # Publishing

`basic_publish` runs from the call, or from the reply to its own `confirm.select`, to its drain
without an await: it registers a tag, then writes the METHOD frame, the HEADER frame and the
BODY frames.
-/
namespace Nuropb.Transport

open Library Protocol Config

structure PublishArgs where
  channel : Int
  body : Bytes
  exchange : Text := []
  routingKey : Text := []
  properties : Properties := .empty
  drain : Bool := true
  queueProfile : Option QueueProfile := none
  confirm : Option Bool := none
  mandatory : Bool := false
  python : Interpreter := {}

namespace PublishArgs

def method (args : PublishArgs) : Method :=
  .basicPublish { exchange := args.exchange, routingKey := args.routingKey,
                  mandatory := args.mandatory }

/-- The properties after the queue profile, if any, has been applied. -/
def effectiveProperties (args : PublishArgs) : Except Exc Properties :=
  match args.queueProfile with
  | none => .ok args.properties
  | some profile => profile.applyPublishProperties args.python.builtins args.properties

/-- Without an explicit choice a durable profile and a confirming channel ask for confirms. -/
def wantConfirm (args : PublishArgs) (tracker : ConfirmTracker) : Bool :=
  match args.confirm with
  | some choice => choice
  | none => args.queueProfile.any (·.durable) || tracker.enabled

end PublishArgs

/-- How far a publish has come at its next await. -/
inductive PublishStep
  | selecting (props : Properties)
  | written (tag : Option Nat)

def registerConfirm (caller : CallId) (channel : Int) : ConnM Nat := do
  let conn ← get
  let (tag, tracker) ← lift ((conn.trackerOf channel).register caller)
  modify fun conn => conn.setTracker channel tracker
  return tag

def Conn.recordMandatory (conn : Conn) (channel : Int) (tag : Nat) : Conn :=
  { conn with mandatoryTags := conn.mandatoryTags.set channel (conn.mandatoryOf channel ++ [tag]) }

def Conn.recordTag (conn : Conn) (args : PublishArgs) (tag : Option Nat) : Conn :=
  match tag with
  | some t => if args.mandatory then conn.recordMandatory args.channel t else conn
  | none => conn

/-- The loop that cuts the body: one round a frame. A round takes an octet at least as long as
the payload limit is positive, so the body's length is enough rounds. -/
def writeChunks (caller : CallId) (channel : Int) (payloadMax : Nat) :
    (rounds : Nat) → (rest : Bytes) → ConnM Unit
  | _, [] => return ()
  | 0, _ :: _ => throw (.other "no rounds left")
  | rounds + 1, b :: rest => do
    writeFrame caller ⟨.body, channel, (b :: rest).take payloadMax⟩
    writeChunks caller channel payloadMax rounds ((b :: rest).drop payloadMax)

def writeContent (caller : CallId) (args : PublishArgs) (props : Properties) (tag : Option Nat) :
    ConnM Unit := do
  modify fun conn => conn.recordTag args tag
  sendMethod caller args.channel args.method
  writePayload caller .header args.channel (encodeContentHeader args.python 60 args.body.length props)
  let conn ← get
  let payloadMax ← lift (maxFramePayload conn.frameMax)
  if args.body = [] then writeFrame caller ⟨.body, args.channel, []⟩
  else writeChunks caller args.channel payloadMax args.body.length args.body

/-- From the reply to `confirm.select`, or at once on a confirming channel. -/
def publishRegistered (caller : CallId) (args : PublishArgs) (props : Properties) :
    ConnM PublishStep := do
  let tag ← registerConfirm caller args.channel
  writeContent caller args props (some tag)
  return .written (some tag)

def publishChecked (caller : CallId) (args : PublishArgs) (props : Properties)
    (tracker : ConfirmTracker) : ConnM PublishStep :=
  if args.wantConfirm tracker then
    if tracker.enabled then publishRegistered caller args props
    else do
      let requested ← startConfirmSelect caller args.channel
      if requested then return .selecting props else publishRegistered caller args props
  else do
    writeContent caller args props none
    return .written none

/-- `basic_publish` up to its first await. -/
def startPublish (caller : CallId) (args : PublishArgs) : ConnM PublishStep := do
  assertOpenForOps args.channel
  let conn ← get
  throwIf conn.publishBlocked (.connectionBlocked "connection.blocked — publish refused")
  let props ← lift args.effectiveProperties
  publishChecked caller args props (conn.trackerOf args.channel)

/-! ## What is written -/

def bodyChunks (payloadMax : Nat) : (rounds : Nat) → (rest : Bytes) → List Bytes
  | _, [] => []
  | 0, _ :: _ => []
  | rounds + 1, b :: rest =>
    (b :: rest).take payloadMax :: bodyChunks payloadMax rounds ((b :: rest).drop payloadMax)

def bodyPayloads (payloadMax : Nat) (body : Bytes) : List Bytes :=
  if body = [] then [[]] else bodyChunks payloadMax body.length body

section Chunks

variable {payloadMax rounds : Nat} {rest : Bytes}

theorem length_drop_le {b : UInt8} (hpos : 0 < payloadMax) (hlen : (b :: rest).length ≤ rounds + 1) :
    ((b :: rest).drop payloadMax).length ≤ rounds := by
  rw [List.length_drop]
  simp only [List.length_cons] at hlen ⊢
  omega

theorem flatten_bodyChunks (hpos : 0 < payloadMax) (hlen : rest.length ≤ rounds) :
    (bodyChunks payloadMax rounds rest).flatten = rest := by
  induction rounds, rest using bodyChunks.induct payloadMax with
  | case1 rounds => simp [bodyChunks]
  | case2 b rest => simp at hlen
  | case3 rounds b rest ih =>
    rw [bodyChunks, List.flatten_cons, ih (length_drop_le hpos hlen), List.take_append_drop]

theorem mem_bodyChunks (hpos : 0 < payloadMax) {chunk : Bytes}
    (hchunk : chunk ∈ bodyChunks payloadMax rounds rest) :
    chunk ≠ [] ∧ chunk.length ≤ payloadMax := by
  induction rounds, rest using bodyChunks.induct payloadMax with
  | case1 rounds => simp [bodyChunks] at hchunk
  | case2 b rest => simp [bodyChunks] at hchunk
  | case3 rounds b rest ih =>
    rw [bodyChunks] at hchunk
    rcases List.mem_cons.mp hchunk with rfl | hrest
    · refine ⟨?_, List.length_take_le _ _⟩
      simp [List.take_eq_nil_iff, hpos.ne']
    · exact ih hrest

/-- The number of chunks is the length divided by the limit, rounded up. -/
theorem length_bodyChunks (hpos : 0 < payloadMax) (hlen : rest.length ≤ rounds) :
    (bodyChunks payloadMax rounds rest).length = (rest.length + (payloadMax - 1)) / payloadMax := by
  induction rounds, rest using bodyChunks.induct payloadMax with
  | case1 rounds =>
    have hzero : (0 + (payloadMax - 1)) / payloadMax = 0 := Nat.div_eq_of_lt (by omega)
    simpa [bodyChunks] using hzero.symm
  | case2 b rest => simp at hlen
  | case3 rounds b rest ih =>
    rw [bodyChunks, List.length_cons, ih (length_drop_le hpos hlen), List.length_drop]
    by_cases hlong : payloadMax ≤ (b :: rest).length
    · rw [← Nat.add_div_right _ hpos]
      congr 1
      omega
    · have hsmall : ((b :: rest).length - payloadMax + (payloadMax - 1)) / payloadMax = 0 :=
        Nat.div_eq_of_lt (by omega)
      have hone : ((b :: rest).length + (payloadMax - 1)) / payloadMax = 1 := by
        rw [Nat.div_eq_iff hpos]
        simp only [List.length_cons] at hlong ⊢
        omega
      rw [hsmall, hone]

theorem writeChunks_run {caller : CallId} {channel : Int} {conn : Conn} (hpos : 0 < payloadMax)
    (hlen : rest.length ≤ rounds)
    (hfits : ∀ chunk : Bytes, chunk.length ≤ payloadMax →
      Frame.Fits conn.frameMax ⟨.body, channel, chunk⟩) :
    writeChunks caller channel payloadMax rounds rest conn =
      .ok () (conn.append caller ((bodyChunks payloadMax rounds rest).map (Frame.mk .body channel))) := by
  induction rounds, rest using bodyChunks.induct payloadMax generalizing conn with
  | case1 rounds => simp [writeChunks, bodyChunks]
  | case2 b rest => simp at hlen
  | case3 rounds b rest ih =>
    rw [writeChunks, bind_run_ok (writeFrame_of_fits (hfits _ (List.length_take_le _ _))),
      ih (length_drop_le hpos hlen) (by simpa using hfits), Conn.append_append]
    rfl

end Chunks

section Content

variable (frameMax : Nat) (args : PublishArgs) (props : Properties)

def methodFrame : Option Frame := frameOf frameMax .method args.channel (encodeMethod args.method)

def headerFrame : Option Frame :=
  frameOf frameMax .header args.channel (encodeContentHeader args.python 60 args.body.length props)

def bodyFrames : List Frame :=
  (bodyPayloads (frameMax - frameOverhead) args.body).map (Frame.mk .body args.channel)

def contentFrames : Option (List Frame) :=
  (methodFrame frameMax args).bind fun method =>
    (headerFrame frameMax args props).map fun header => method :: header :: bodyFrames frameMax args

end Content

theorem length_of_encodeMethod {method : Method} {payload : Bytes}
    (h : encodeMethod method = .ok payload) : 4 ≤ payload.length := by
  obtain ⟨classId, hclass, h⟩ := bind_eq_ok.mp h
  obtain ⟨methodId, hmethod, h⟩ := bind_eq_ok.mp h
  obtain ⟨rest, -, h⟩ := bind_eq_ok.mp h
  cases h
  simp only [List.length_append, length_of_toBytes hclass, length_of_toBytes hmethod]
  omega

section Sending

variable {caller : CallId} {args : PublishArgs} {props : Properties} {conn : Conn} {tag : Option Nat}

@[simp] theorem recordTag_frameMax (conn : Conn) (args : PublishArgs) (tag : Option Nat) :
    (conn.recordTag args tag).frameMax = conn.frameMax := by
  cases tag with
  | none => rfl
  | some t => by_cases h : args.mandatory <;> simp [Conn.recordTag, h, Conn.recordMandatory]

@[simp] theorem recordTag_trackerOf (conn : Conn) (args : PublishArgs) (tag : Option Nat)
    (channel : Int) : (conn.recordTag args tag).trackerOf channel = conn.trackerOf channel := by
  cases tag with
  | none => rfl
  | some t => by_cases h : args.mandatory <;> simp [Conn.recordTag, h, Conn.recordMandatory,
      Conn.trackerOf]

@[simp] theorem recordTag_written (conn : Conn) (args : PublishArgs) (tag : Option Nat) :
    (conn.recordTag args tag).written = conn.written := by
  cases tag with
  | none => rfl
  | some t => by_cases h : args.mandatory <;> simp [Conn.recordTag, h, Conn.recordMandatory]

theorem fits_chunk {frame : Frame} (h : methodFrame conn.frameMax args = some frame) :
    0 < conn.frameMax - frameOverhead ∧ ∀ chunk : Bytes,
      chunk.length ≤ conn.frameMax - frameOverhead →
        Frame.Fits conn.frameMax ⟨.body, args.channel, chunk⟩ := by
  obtain ⟨raw, hraw, rfl, hlow, hhigh, hsize, -⟩ := frameOf_eq_some_iff.mp h
  have hlen := length_of_encodeMethod hraw
  have hlt := conn.frameMax_lt
  simp only at hsize
  refine ⟨by omega, fun chunk hchunk => ⟨hlow, hhigh, ?_, ?_⟩⟩ <;> simp only <;> omega

theorem writeContent_of_some {frames : List Frame}
    (h : contentFrames conn.frameMax args props = some frames) :
    writeContent caller args props tag conn =
      .ok () ((conn.recordTag args tag).append caller frames) := by
  obtain ⟨method, hmethod, h⟩ := Option.bind_eq_some_iff.mp h
  obtain ⟨header, hheader, rfl⟩ := Option.map_eq_some_iff.mp h
  obtain ⟨hroom, hchunks⟩ := fits_chunk hmethod
  have hmax : maxFramePayload conn.frameMax = .ok (conn.frameMax - frameOverhead) :=
    maxFramePayload_eq_ok.mpr ⟨by omega, rfl⟩
  have hfirst : sendMethod caller args.channel args.method (conn.recordTag args tag) =
      .ok () ((conn.recordTag args tag).append caller [method]) :=
    writePayload_of_some (by rw [recordTag_frameMax]; exact hmethod)
  have hsecond : writePayload caller .header args.channel
      (encodeContentHeader args.python 60 args.body.length props)
      ((conn.recordTag args tag).append caller [method]) =
      .ok () (((conn.recordTag args tag).append caller [method]).append caller [header]) :=
    writePayload_of_some (by rw [Conn.append_frameMax, recordTag_frameMax]; exact hheader)
  rw [writeContent, bind_run_ok (modify_run _ _), bind_run_ok hfirst, bind_run_ok hsecond,
    bind_run_ok (get_run _), Conn.append_append, Conn.append_frameMax, recordTag_frameMax, hmax,
    bind_run_ok (lift_ok _ _)]
  by_cases hbody : args.body = []
  · rw [if_pos hbody, writeFrame_of_fits (by simpa using hchunks [] (Nat.zero_le _)),
      Conn.append_append]
    simp [bodyFrames, bodyPayloads, hbody]
  · rw [if_neg hbody, writeChunks_run hroom le_rfl (by simpa using hchunks), Conn.append_append]
    simp [bodyFrames, bodyPayloads, hbody]

theorem writeContent_of_none (caller : CallId) (tag : Option Nat)
    (h : contentFrames conn.frameMax args props = none) :
    ∃ e, writeContent caller args props tag conn =
      .error e ((conn.recordTag args tag).append caller (methodFrame conn.frameMax args).toList) := by
  cases hmethod : methodFrame conn.frameMax args with
  | none =>
    have hnone : frameOf (conn.recordTag args tag).frameMax .method args.channel
        (encodeMethod args.method) = none := by
      rw [recordTag_frameMax]
      exact hmethod
    obtain ⟨e, he⟩ := writePayload_of_none caller hnone
    refine ⟨e, ?_⟩
    rw [writeContent, bind_run_ok (modify_run _ _), sendMethod, bind_run_error he]
    simp
  | some method =>
    have hheader : headerFrame conn.frameMax args props = none := by
      simpa [contentFrames, hmethod] using h
    have hfirst : sendMethod caller args.channel args.method (conn.recordTag args tag) =
        .ok () ((conn.recordTag args tag).append caller [method]) :=
      writePayload_of_some (by rw [recordTag_frameMax]; exact hmethod)
    have hnone : frameOf ((conn.recordTag args tag).append caller [method]).frameMax .header
        args.channel (encodeContentHeader args.python 60 args.body.length props) = none := by
      rw [Conn.append_frameMax, recordTag_frameMax]
      exact hheader
    obtain ⟨e, he⟩ := writePayload_of_none caller hnone
    refine ⟨e, ?_⟩
    rw [writeContent, bind_run_ok (modify_run _ _), bind_run_ok hfirst, bind_run_error he]
    rfl

end Sending

/-! ## The segments of a publish -/

def Conn.handOut (conn : Conn) (caller : CallId) (channel : Int) : Conn :=
  conn.setTracker channel ((conn.trackerOf channel).handOut caller)

/-- The next tag handed out, and recorded if the publish is mandatory. -/
def Conn.registered (conn : Conn) (caller : CallId) (args : PublishArgs) : Conn :=
  (conn.handOut caller args.channel).recordTag args (some (conn.trackerOf args.channel).nextTag)

section Segments

variable {caller : CallId} {args : PublishArgs} {props : Properties} {conn conn' : Conn}

@[simp] theorem registered_frameMax (conn : Conn) (caller : CallId) (args : PublishArgs) :
    (conn.registered caller args).frameMax = conn.frameMax := by
  simp [Conn.registered, Conn.handOut, Conn.setTracker]

@[simp] theorem registered_written (conn : Conn) (caller : CallId) (args : PublishArgs) :
    (conn.registered caller args).written = conn.written := by
  simp [Conn.registered, Conn.handOut, Conn.setTracker]

theorem registerConfirm_run (henabled : (conn.trackerOf args.channel).enabled = true) :
    registerConfirm caller args.channel conn =
      .ok (conn.trackerOf args.channel).nextTag (conn.handOut caller args.channel) := by
  rw [registerConfirm, bind_run_ok (get_run _), ConfirmTracker.register_of_enabled henabled]
  rfl

theorem publishRegistered_of_some {frames : List Frame}
    (henabled : (conn.trackerOf args.channel).enabled = true)
    (h : contentFrames conn.frameMax args props = some frames) :
    publishRegistered caller args props conn =
      .ok (.written (some (conn.trackerOf args.channel).nextTag))
        ((conn.registered caller args).append caller frames) := by
  have hsome : contentFrames (conn.handOut caller args.channel).frameMax args props = some frames := h
  rw [publishRegistered, bind_run_ok (registerConfirm_run henabled),
    bind_run_ok (writeContent_of_some hsome)]
  rfl

theorem publishRegistered_of_none (caller : CallId)
    (henabled : (conn.trackerOf args.channel).enabled = true)
    (h : contentFrames conn.frameMax args props = none) :
    ∃ e, publishRegistered caller args props conn = .error e
      ((conn.registered caller args).append caller (methodFrame conn.frameMax args).toList) := by
  have hnone : contentFrames (conn.handOut caller args.channel).frameMax args props = none := h
  obtain ⟨e, he⟩ := writeContent_of_none caller (some (conn.trackerOf args.channel).nextTag) hnone
  refine ⟨e, ?_⟩
  rw [publishRegistered, bind_run_ok (registerConfirm_run henabled), bind_run_error he]
  rfl

/-- The segments that run without an await. -/
inductive PublishEntry
  | call
  | afterSelect (props : Properties)

def publishSegment (caller : CallId) (args : PublishArgs) : PublishEntry → ConnM PublishStep
  | .call => startPublish caller args
  | .afterSelect props => publishRegistered caller args props

/-- The properties of the content that a segment goes on to write, and whether under a tag: none
when the segment raises or asks for `confirm.select` first. -/
def contentOf (conn : Conn) (args : PublishArgs) : PublishEntry → Option (Properties × Bool)
  | .call =>
    if conn.channels.get? args.channel = some .open ∧ conn.publishBlocked = false then
      args.effectiveProperties.toOption.bind fun props =>
        if args.wantConfirm (conn.trackerOf args.channel) then
          if (conn.trackerOf args.channel).enabled then some (props, true) else none
        else some (props, false)
    else none
  | .afterSelect props =>
    if (conn.trackerOf args.channel).enabled then some (props, true) else none

theorem startPublish_of_checked (hopen : conn.channels.get? args.channel = some .open)
    (hblocked : conn.publishBlocked = false) (hprops : args.effectiveProperties = .ok props) :
    startPublish caller args conn =
      publishChecked caller args props (conn.trackerOf args.channel) conn := by
  rw [startPublish, bind_run_ok (assertOpenForOps_of_open hopen), bind_run_ok (get_run _),
    bind_run_ok (throwIf_of_not (by simp [hblocked]) _ _), hprops, bind_run_ok (lift_ok _ _)]

def runContent (caller : CallId) (args : PublishArgs) (props : Properties) (confirmed : Bool) :
    ConnM PublishStep :=
  if confirmed then publishRegistered caller args props
  else do
    writeContent caller args props none
    return .written none

theorem publishSegment_of_content {entry : PublishEntry} {confirmed : Bool}
    (h : contentOf conn args entry = some (props, confirmed)) :
    publishSegment caller args entry conn = runContent caller args props confirmed conn := by
  cases entry with
  | afterSelect p =>
    simp only [contentOf, Option.ite_none_right_eq_some, Option.some.injEq, Prod.mk.injEq] at h
    obtain ⟨-, rfl, rfl⟩ := h
    rfl
  | call =>
    simp only [contentOf, Option.ite_none_right_eq_some, Option.bind_eq_some_iff,
      toOption_eq_some] at h
    obtain ⟨⟨hopen, hblocked⟩, p, hprops, h⟩ := h
    rw [publishSegment, startPublish_of_checked hopen hblocked hprops, publishChecked]
    split at h
    · rw [if_pos ‹_›]
      split at h
      · cases h
        rw [if_pos ‹_›]
        rfl
      · cases h
    · rw [if_neg ‹_›]
      cases h
      rfl

theorem enabled_of_contentOf {entry : PublishEntry} {confirmed : Bool}
    (h : contentOf conn args entry = some (props, confirmed)) :
    confirmed = true → (conn.trackerOf args.channel).enabled = true := by
  rintro rfl
  cases entry with
  | afterSelect p =>
    simp only [contentOf, Option.ite_none_right_eq_some] at h
    exact h.1
  | call =>
    simp only [contentOf, Option.ite_none_right_eq_some, Option.bind_eq_some_iff] at h
    grind

def Conn.beforeContent (conn : Conn) (caller : CallId) (args : PublishArgs) (confirmed : Bool) : Conn :=
  if confirmed then conn.registered caller args else conn

@[simp] theorem beforeContent_written (conn : Conn) (caller : CallId) (args : PublishArgs)
    (confirmed : Bool) : (conn.beforeContent caller args confirmed).written = conn.written := by
  cases confirmed <;> simp [Conn.beforeContent]

/-- Handing out a tag changes the tracker, and the mandatory tags if the publish is mandatory. -/
theorem beforeContent_eq (conn : Conn) (caller : CallId) (args : PublishArgs) (confirmed : Bool) :
    ∃ confirm mandatoryTags,
      conn.beforeContent caller args confirmed = { conn with confirm, mandatoryTags } := by
  cases confirmed with
  | false => exact ⟨conn.confirm, conn.mandatoryTags, rfl⟩
  | true =>
    rw [Conn.beforeContent, if_pos rfl, Conn.registered]
    simp only [Conn.recordTag]
    split
    · exact ⟨_, _, rfl⟩
    · exact ⟨_, conn.mandatoryTags, rfl⟩

def contentTag (conn : Conn) (args : PublishArgs) (confirmed : Bool) : Option Nat :=
  if confirmed then some (conn.trackerOf args.channel).nextTag else none

theorem publishSegment_of_some (caller : CallId) {entry : PublishEntry} {confirmed : Bool} {frames : List Frame}
    (hcontent : contentOf conn args entry = some (props, confirmed))
    (hframes : contentFrames conn.frameMax args props = some frames) :
    publishSegment caller args entry conn = .ok (.written (contentTag conn args confirmed))
      ((conn.beforeContent caller args confirmed).append caller frames) := by
  rw [publishSegment_of_content hcontent, runContent]
  cases confirmed with
  | true =>
    rw [if_pos rfl, publishRegistered_of_some (enabled_of_contentOf hcontent rfl) hframes]
    rfl
  | false =>
    rw [if_neg Bool.false_ne_true, bind_run_ok (writeContent_of_some hframes)]
    rfl

theorem publishSegment_of_none (caller : CallId) {entry : PublishEntry} {confirmed : Bool}
    (hcontent : contentOf conn args entry = some (props, confirmed))
    (hframes : contentFrames conn.frameMax args props = none) :
    ∃ e, publishSegment caller args entry conn = .error e
      ((conn.beforeContent caller args confirmed).append caller (methodFrame conn.frameMax args).toList) := by
  rw [publishSegment_of_content hcontent, runContent]
  cases confirmed with
  | true =>
    obtain ⟨e, he⟩ := publishRegistered_of_none caller (enabled_of_contentOf hcontent rfl) hframes
    exact ⟨e, by rw [if_pos rfl, he]; rfl⟩
  | false =>
    obtain ⟨e, he⟩ := writeContent_of_none caller none hframes
    exact ⟨e, by rw [if_neg Bool.false_ne_true, bind_run_error he]; rfl⟩

/-- A segment that does not get to its content asks for `confirm.select`, or it is refused. -/
theorem publishSegment_of_no_content (caller : CallId) {entry : PublishEntry}
    (h : contentOf conn args entry = none) :
    (∃ p frame, entry = .call ∧ args.effectiveProperties = .ok p ∧
      selectFrame conn.frameMax args.channel = some frame ∧ publishSegment caller args entry conn = .ok (.selecting p)
        ((conn.setTracker args.channel (conn.trackerOf args.channel)).append caller [frame])) ∨
    ∃ e conn', publishSegment caller args entry conn = .error e conn' ∧ conn.Refused conn' := by
  cases entry with
  | afterSelect p =>
    simp only [contentOf, ite_eq_right_iff, reduceCtorEq, imp_false, Bool.not_eq_true] at h
    refine .inr ⟨.runtimeError "confirm mode not enabled", conn, ?_, .refl conn⟩
    have hregister : registerConfirm caller args.channel conn =
        .error (.runtimeError "confirm mode not enabled") conn := by
      rw [registerConfirm, bind_run_ok (get_run _), ConfirmTracker.register_of_not_enabled h]
      rfl
    rw [publishSegment, publishRegistered, bind_run_error hregister]
  | call =>
    by_cases hopen : conn.channels.get? args.channel = some .open
    · cases hblocked : conn.publishBlocked with
      | true =>
        refine .inr ⟨.connectionBlocked "connection.blocked — publish refused", conn, ?_, .refl conn⟩
        rw [publishSegment, startPublish, bind_run_ok (assertOpenForOps_of_open hopen),
          bind_run_ok (get_run _), bind_run_error (throwIf_of hblocked _ _)]
      | false =>
        obtain ⟨p, hprops⟩ | ⟨e, he⟩ := ok_or_error args.effectiveProperties
        · have hwant : args.wantConfirm (conn.trackerOf args.channel) = true ∧
              (conn.trackerOf args.channel).enabled = false := by
            simp only [contentOf, hopen, hblocked, hprops, and_self, if_true, toOption_ok,
              Option.bind_some] at h
            grind
          rw [publishSegment, startPublish_of_checked hopen hblocked hprops, publishChecked,
            if_pos hwant.1, hwant.2, if_neg Bool.false_ne_true]
          cases hselect : startConfirmSelect caller args.channel conn with
          | ok requested conn' =>
            obtain ⟨-, ⟨henabled, -⟩ | ⟨-, rfl, frame, hframe, rfl⟩⟩ :=
              startConfirmSelect_returns hselect
            · rw [hwant.2] at henabled
              cases henabled
            · exact .inl ⟨p, frame, rfl, hprops, hframe, by rw [bind_run_ok hselect]; rfl⟩
          | error e conn' =>
            exact .inr ⟨e, conn', by rw [bind_run_error hselect], startConfirmSelect_raises hselect⟩
        · refine .inr ⟨e, conn, ?_, .refl conn⟩
          rw [publishSegment, startPublish, bind_run_ok (assertOpenForOps_of_open hopen),
            bind_run_ok (get_run _), bind_run_ok (throwIf_of_not (by simp [hblocked]) _ _), he,
            bind_run_error (lift_error _ _)]
    · cases hcheck : assertOpenForOps args.channel conn with
      | ok u conn' => exact absurd (assertOpenForOps_returns.mp hcheck).1 hopen
      | error e conn' =>
        exact .inr ⟨e, conn', by rw [publishSegment, startPublish, bind_run_error hcheck],
          (assertOpenForOps_raises hcheck).2⟩

/-- What a segment can come to. -/
inductive SegmentReached (caller : CallId) (args : PublishArgs) (entry : PublishEntry) (conn : Conn) :
    EStateM.Result Exc Conn PublishStep → Prop
  | refused {e : Exc} {conn' : Conn} (hrefused : conn.Refused conn') :
    SegmentReached caller args entry conn (.error e conn')
  | selecting {props : Properties} {frame : Frame}
    (hentry : entry = .call) (hprops : args.effectiveProperties = .ok props)
    (hframe : selectFrame conn.frameMax args.channel = some frame) :
    SegmentReached caller args entry conn (.ok (.selecting props)
      ((conn.setTracker args.channel (conn.trackerOf args.channel)).append caller [frame]))
  | written {props : Properties} {confirmed : Bool} {frames : List Frame}
    (hcontent : contentOf conn args entry = some (props, confirmed))
    (hframes : contentFrames conn.frameMax args props = some frames) :
    SegmentReached caller args entry conn (.ok (.written (contentTag conn args confirmed))
      ((conn.beforeContent caller args confirmed).append caller frames))
  | broken {props : Properties} {confirmed : Bool} {e : Exc}
    (hcontent : contentOf conn args entry = some (props, confirmed))
    (hframes : contentFrames conn.frameMax args props = none) :
    SegmentReached caller args entry conn (.error e
      ((conn.beforeContent caller args confirmed).append caller
        (methodFrame conn.frameMax args).toList))

theorem publishSegment_reached (caller : CallId) (args : PublishArgs) (entry : PublishEntry)
    (conn : Conn) : SegmentReached caller args entry conn (publishSegment caller args entry conn) := by
  cases hcontent : contentOf conn args entry with
  | none =>
    obtain ⟨p, frame, hentry, hprops, hframe, hrun⟩ | ⟨e, conn', hrun, hrefused⟩ :=
      publishSegment_of_no_content caller hcontent
    · rw [hrun]
      exact .selecting hentry hprops hframe
    · rw [hrun]
      exact .refused hrefused
  | some content =>
    obtain ⟨props, confirmed⟩ := content
    cases hframes : contentFrames conn.frameMax args props with
    | some frames =>
      rw [publishSegment_of_some caller hcontent hframes]
      exact .written hcontent hframes
    | none =>
      obtain ⟨e, he⟩ := publishSegment_of_none caller hcontent hframes
      rw [he]
      exact .broken hcontent hframes

end Segments

end Nuropb.Transport
