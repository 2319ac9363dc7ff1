import Nuropb.Python.Raising
import Nuropb.Transport.Client

/-! # What the encoders raise

No encoder raises what the broker or another task brings: a refusal to publish or a cancellation.
-/
namespace Nuropb

open Library Transport Protocol Config

/-- Neither a refusal to publish nor a cancellation. -/
def Internal (e : Exc) : Prop := e.isPublishRefusal = false ∧ e ≠ .cancelledError

theorem ReadError.internal {e : Exc} (h : ReadError e) : Internal e := by
  cases h <;> exact ⟨rfl, nofun⟩

theorem ConversionError.internal {e : Exc} (h : ConversionError e) : Internal e := by
  cases h with
  | read h => exact h.internal
  | overflow => exact ⟨rfl, nofun⟩
  | type => exact ⟨rfl, nofun⟩

section Encoders

@[simp] theorem internal_codecError (reason : String) : Internal (.amqpCodecError reason) := ⟨rfl, nofun⟩

@[simp] theorem internal_toBytes (width : Nat) (n : Int) : Raises Internal (toBytes width n) := by
  unfold toBytes
  split
  · exact raises_ok _
  · exact raises_error ⟨rfl, nofun⟩

@[simp] theorem internal_toBytesSigned (width : Nat) (n : Int) : Raises Internal (toBytesSigned width n) := by
  unfold toBytesSigned
  split
  · exact raises_ok _
  · exact raises_error ⟨rfl, nofun⟩

@[simp] theorem internal_singleByte (n : Int) : Raises Internal (singleByte n) := by
  unfold singleByte
  split
  · exact raises_ok _
  · exact raises_error ⟨rfl, nofun⟩

@[simp] theorem internal_encodeUtf8 (t : Text) : Raises Internal (encodeUtf8 t) := by
  unfold encodeUtf8
  split
  · exact raises_ok _
  · exact raises_error ⟨rfl, nofun⟩

@[simp] theorem internal_encodeShortstr (value : Text) : Raises Internal (encodeShortstr value) :=
  raises_bind (internal_encodeUtf8 value) fun _ _ => raises_bind (raises_raiseIf (internal_codecError _)) fun _ _ => raises_ok _

@[simp] theorem internal_encodeLongstr (raw : Bytes) : Raises Internal (encodeLongstr raw) :=
  raises_bind (internal_toBytes 4 _) fun _ _ => raises_ok _

/-! ### Field tables -/

theorem internal_encodeInteger (n : Int) : Raises Internal (encodeInteger n) := by
  unfold encodeInteger
  split
  · exact raises_bind (internal_toBytesSigned 4 n) fun _ _ => raises_ok _
  · exact raises_bind (internal_toBytesSigned 8 n) fun _ _ => raises_ok _

theorem internal_encodeDecimalPair (scale value : Int) : Raises Internal (encodeDecimalPair scale value) :=
  raises_bind (internal_toBytesSigned 4 value) fun _ _ => raises_ok _

theorem internal_signal (context : Decimal.Context) (signals : List Decimal.Signal) (result : PyVal) :
    Raises Internal (context.signal signals result) :=
  raises_bind (raises_raiseIf ⟨rfl, nofun⟩) fun _ _ => raises_ok _

theorem internal_round (context : Decimal.Context) (negative : Bool) (coefficient : Nat) (exponent : Int) :
    Raises Internal (context.round negative coefficient exponent) := by
  unfold Decimal.Context.round
  extract_lets drop lost kept signals kept'
  split
  · exact internal_signal context _ _
  · split
    · exact internal_signal context _ _
    · exact internal_signal context _ _

theorem internal_fix (context : Decimal.Context) (negative : Bool) (coefficient : Nat) (exponent : Int) :
    Raises Internal (context.fix negative coefficient exponent) := by
  unfold Decimal.Context.fix
  split
  · split
    · exact internal_signal context _ _
    · exact internal_signal context _ _
  · split
    · exact internal_signal context _ _
    · split
      · exact internal_round context _ _ _
      · exact raises_ok _

theorem internal_encodeDecimal (context : Decimal.Context) (negative : Bool) (coefficient : Nat) (exponent : Int) :
    Raises Internal (encodeDecimal context negative coefficient exponent) := by
  refine raises_bind (raises_bind ?_ fun scaled _ => (raises_pyInt scaled).mono fun _ => ConversionError.internal)
    fun value _ => raises_bind (raises_raiseIf (internal_codecError _)) fun _ _ => internal_encodeDecimalPair _ value
  unfold Decimal.Context.scaleb
  split
  · exact internal_signal context _ _
  · exact internal_fix context _ _ _

theorem internal_tableOf (depth : Nat) {entries : Except Exc Bytes} (h : Raises Internal entries) :
    Raises Internal (tableOf depth entries) :=
  raises_bind (raises_raiseIf (internal_codecError _)) fun _ _ => raises_bind h fun _ _ =>
    raises_bind (internal_toBytes 4 _) fun _ _ => raises_ok _

variable (context : Decimal.Context)

mutual

theorem internal_encodeFieldValue (depth : Nat) (value : PyVal) : Raises Internal (encodeFieldValue context depth value) := by
  unfold encodeFieldValue
  refine raises_bind (raises_raiseIf (internal_codecError _)) fun _ _ => ?_
  cases value with
  | none => exact raises_ok _
  | bool b => exact raises_ok _
  | int n => exact internal_encodeInteger n
  | float bits => exact raises_ok _
  | str t =>
    exact raises_bind (internal_encodeUtf8 t) fun _ _ => raises_bind (internal_encodeLongstr _) fun _ _ => raises_ok _
  | bytes b => exact raises_bind (internal_encodeLongstr b) fun _ _ => raises_ok _
  | dict entries =>
    exact raises_bind (internal_tableOf (depth + 1) (internal_encodeEntries (depth + 1) entries)) fun _ _ => raises_ok _
  | tuple items =>
    dsimp only
    split
    · exact internal_encodeDecimalPair _ _
    · exact raises_error (internal_codecError _)
  | list items =>
    exact raises_bind (internal_encodeItems (depth + 1) items) fun _ _ => raises_bind (raises_raiseIf (internal_codecError _))
      fun _ _ => raises_bind (internal_toBytes 4 _) fun _ _ => raises_ok _
  | decimal negative coefficient exponent => exact internal_encodeDecimal context negative coefficient exponent
  | decimalSpecial invalid => exact raises_error (internal_codecError _)
  | datetime posix => exact raises_bind (internal_toBytes 8 posix) fun _ _ => raises_ok _
  | object => exact raises_error (internal_codecError _)

theorem internal_encodeEntries (depth : Nat) (entries : Table) : Raises Internal (encodeEntries context depth entries) := by
  unfold encodeEntries
  cases entries with
  | nil => exact raises_ok _
  | cons entry rest =>
    exact raises_bind (internal_encodeShortstr _) fun _ _ => raises_bind (internal_encodeFieldValue depth _) fun _ _ =>
      raises_bind (internal_encodeEntries depth rest) fun _ _ => raises_ok _

theorem internal_encodeItems (depth : Nat) (items : List PyVal) : Raises Internal (encodeItems context depth items) := by
  unfold encodeItems
  cases items with
  | nil => exact raises_ok _
  | cons item rest =>
    exact raises_bind (internal_encodeFieldValue depth item) fun _ _ =>
      raises_bind (internal_encodeItems depth rest) fun _ _ => raises_ok _

end

@[simp] theorem internal_encodeTable (depth : Nat) (table : Table) : Raises Internal (encodeTable context depth table) :=
  internal_tableOf depth (internal_encodeEntries context depth table)

/-! ### Methods and headers -/

@[simp] theorem internal_encodeCloseArgs (args : CloseArgs) : Raises Internal (encodeCloseArgs args) := by
  simp [encodeCloseArgs, raises_bind_iff, raises_ok]

theorem internal_encodeArgs (method : Method) : Raises Internal (encodeArgs method) := by
  unfold encodeArgs
  split
  case h_6 secret reason =>
    have hencoded (raw : Bytes) : Raises Internal (do
        let secret ← encodeLongstr raw
        let reason ← encodeShortstr reason
        return secret ++ reason) := by
      simp [raises_bind_iff, raises_ok]
    cases secret with
    | inl text => exact raises_bind (internal_encodeUtf8 text) fun raw _ => hencoded raw
    | inr raw => exact raises_bind (raises_ok raw) fun raw _ => hencoded raw
  case h_23 => exact raises_error (internal_codecError _)
  all_goals simp [raises_bind_iff, raises_ok]

theorem internal_encodeMethod (method : Method) : Raises Internal (encodeMethod method) :=
  raises_bind (internal_toBytes 2 _) fun _ _ => raises_bind (internal_toBytes 2 _) fun _ _ =>
    raises_bind (internal_encodeArgs method) fun _ _ => raises_ok _

theorem internal_encodeProperty (python : Interpreter) (format : PropertyFormat) (value : PyVal) :
    Raises Internal (encodeProperty python format value) := by
  have hint : Raises Internal (python.builtins.int value) :=
    (python.builtins.raises_int value).mono fun _ => ConversionError.internal
  unfold encodeProperty
  split
  · unfold encodeShortstrValue
    split
    · exact internal_encodeShortstr _
    · exact raises_error ⟨rfl, nofun⟩
  · unfold encodeTableValue
    split
    · exact internal_encodeTable _ 0 _
    · exact raises_error ⟨rfl, nofun⟩
  · exact raises_bind hint fun n _ => internal_singleByte n
  · exact internal_toBytes 8 _
  · exact raises_bind hint fun n _ => internal_toBytes 8 n

theorem internal_encodeProperties (python : Interpreter) (props : Properties) (names : List PropertyName) :
    Raises Internal (encodeProperties python props names) := by
  induction names with
  | nil => exact raises_ok _
  | cons name rest ih =>
    unfold encodeProperties
    split
    · exact ih
    · exact raises_bind (internal_encodeProperty python _ _) fun _ _ => raises_bind ih fun _ _ => raises_ok _

theorem internal_encodeContentHeader (python : Interpreter) (classId bodySize : Nat) (props : Properties) :
    Raises Internal (encodeContentHeader python classId bodySize props) :=
  raises_bind (internal_encodeProperties python props _) fun _ _ => raises_bind (internal_toBytes 2 _) fun _ _ =>
    raises_bind (internal_toBytes 8 _) fun _ _ => raises_bind (internal_toBytes 2 _) fun _ _ => raises_ok _

theorem internal_maxFramePayload (frameMax : Nat) : Raises Internal (maxFramePayload frameMax) :=
  raises_bind (raises_raiseIf (internal_codecError _)) fun _ _ => raises_ok _

theorem internal_encodeFrame (frameMax : Nat) (frame : Frame) : Raises Internal (encodeFrame frameMax frame) :=
  raises_bind (raises_raiseIf (internal_codecError _)) fun _ _ => raises_bind (internal_maxFramePayload frameMax) fun _ _ =>
    raises_bind (raises_raiseIf (internal_codecError _)) fun _ _ =>
      raises_bind (raises_raiseIf ⟨rfl, nofun⟩) fun _ _ => raises_ok _

theorem internal_effectiveProperties (args : PublishArgs) : Raises Internal args.effectiveProperties := by
  unfold PublishArgs.effectiveProperties
  split
  · exact raises_ok _
  · refine raises_bind ?_ fun _ _ => raises_ok _
    unfold QueueProfile.assertDeliveryMode
    split
    · exact raises_ok _
    · exact raises_ok _
    · exact raises_bind ((args.python.builtins.raises_int _).mono fun _ => ConversionError.internal) fun _ _ =>
        raises_bind (raises_raiseIf ⟨rfl, nofun⟩) fun _ _ => raises_bind (raises_raiseIf ⟨rfl, nofun⟩) fun _ _ =>
          raises_bind (raises_raiseIf ⟨rfl, nofun⟩) fun _ _ => raises_ok _

end Encoders

/-! ## Operations up to their first await -/

section Operations

variable {caller : Option CallId} {channel : Int}

theorem internal_assertOpenForOps (channel : Int) : Throws Internal (assertOpenForOps channel) :=
  throws_bind throws_get fun _ => throws_bind (throws_lift (raises_orRaise ⟨rfl, nofun⟩)) fun _ =>
    throws_ite (throws_bind (throws_modify _) fun _ => throws_throw ⟨rfl, nofun⟩) (throws_pure _)

theorem internal_writeFrame (caller : Option CallId) (frame : Frame) : Throws Internal (writeFrame caller frame) :=
  throws_bind throws_get fun _ => throws_bind (throws_lift (internal_encodeFrame _ frame)) fun _ => throws_modify _

theorem internal_writePayload {frameType : FrameType} {payload : Except Exc Bytes} (h : Raises Internal payload) :
    Throws Internal (writePayload caller frameType channel payload) :=
  throws_bind (throws_lift h) fun _ => internal_writeFrame caller _

theorem internal_sendMethod (caller : Option CallId) (channel : Int) (method : Method) :
    Throws Internal (sendMethod caller channel method) := internal_writePayload (internal_encodeMethod method)

theorem internal_startConfirmSelect (caller : Option CallId) (channel : Int) :
    Throws Internal (startConfirmSelect caller channel) :=
  throws_bind (internal_assertOpenForOps channel) fun _ => throws_bind throws_get fun _ =>
    throws_bind (throws_modify _) fun _ => throws_ite (throws_pure _)
      (throws_bind (internal_sendMethod caller channel _) fun _ => throws_pure _)

theorem internal_writeChunks (caller : CallId) (channel : Int) (payloadMax rounds : Nat) (rest : Bytes) :
    Throws Internal (writeChunks caller channel payloadMax rounds rest) := by
  induction rounds generalizing rest with
  | zero =>
    cases rest with
    | nil => exact throws_pure _
    | cons b rest => exact throws_throw ⟨rfl, nofun⟩
  | succ rounds ih =>
    cases rest with
    | nil => exact throws_pure _
    | cons b rest => exact throws_bind (internal_writeFrame caller _) fun _ => ih _

theorem internal_writeContent (caller : CallId) (args : PublishArgs) (props : Properties) (tag : Option Nat) :
    Throws Internal (writeContent caller args props tag) :=
  throws_bind (throws_modify _) fun _ => throws_bind (internal_sendMethod _ _ _) fun _ =>
    throws_bind (internal_writePayload (internal_encodeContentHeader _ _ _ _)) fun _ => throws_bind throws_get fun _ =>
      throws_bind (throws_lift (internal_maxFramePayload _)) fun _ =>
        throws_ite (internal_writeFrame _ _) (internal_writeChunks _ _ _ _ _)

theorem internal_publishRegistered (caller : CallId) (args : PublishArgs) (props : Properties) :
    Throws Internal (publishRegistered caller args props) := by
  have hregister : Throws Internal (registerConfirm caller args.channel) :=
    throws_bind throws_get fun _ => throws_bind (throws_lift (raises_bind (raises_raiseIf ⟨rfl, nofun⟩) fun _ _ => raises_ok _))
      fun _ => throws_bind (throws_modify _) fun _ => throws_pure _
  exact throws_bind hregister fun _ => throws_bind (internal_writeContent _ _ _ _) fun _ => throws_pure _

theorem internal_publishChecked (caller : CallId) (args : PublishArgs) (props : Properties) (tracker : ConfirmTracker) :
    Throws Internal (publishChecked caller args props tracker) :=
  throws_ite
    (throws_ite (internal_publishRegistered caller args props) (throws_bind (internal_startConfirmSelect _ _) fun _ =>
      throws_ite (throws_pure _) (internal_publishRegistered caller args props)))
    (throws_bind (internal_writeContent _ _ _ _) fun _ => throws_pure _)

/-- A publish is refused at its call only while its channel is open and publishing is blocked. -/
theorem startPublish_refused {caller : CallId} {args : PublishArgs} {conn conn' : Conn} {e : Exc}
    (h : startPublish caller args conn = .error e conn') :
    Internal e ∨ e.isPublishRefusal = true ∧ conn.channels.get? args.channel = some .open ∧
      conn.publishBlocked = true ∧ conn' = conn := by
  rcases bind_raises.mp h with hraised | ⟨_, t, hopen, hchecked⟩
  · exact .inl (internal_assertOpenForOps _ _ _ _ hraised)
  · obtain ⟨hopen, rfl⟩ := assertOpenForOps_returns.mp hopen
    rw [bind_run_ok (get_run t)] at hchecked
    rcases bind_raises.mp hchecked with hraised | ⟨_, u, -, hgranted⟩
    · unfold throwIf at hraised
      split at hraised
      · rename_i hblocked
        cases hraised
        exact .inr ⟨rfl, hopen, hblocked, rfl⟩
      · cases hraised
    · have hrest : Throws Internal (do
          let props ← lift args.effectiveProperties
          publishChecked caller args props (t.trackerOf args.channel)) :=
        throws_bind (throws_lift (internal_effectiveProperties args)) fun _ => internal_publishChecked _ _ _ _
      exact .inl (hrest u e conn' hgranted)

theorem internal_startOpenChannel (caller : CallId) (channel : Int) : Throws Internal (startOpenChannel caller channel) := by
  have htransition (f : ChanState.Transition) : Throws Internal (channelTransition channel f) := by
    refine throws_bind throws_get fun _ => throws_bind (throws_lift (raises_orRaise ⟨rfl, nofun⟩)) fun state => ?_
    split
    · exact throws_modify _
    · exact throws_bind (throws_modify _) fun _ => throws_throw ⟨rfl, nofun⟩
  exact throws_bind throws_get fun _ => throws_bind (throws_throwIf ⟨rfl, nofun⟩) fun _ =>
    throws_bind (throws_throwIf ⟨rfl, nofun⟩) fun _ => throws_bind (throws_modify _) fun _ =>
      throws_bind (htransition _) fun _ => internal_sendMethod _ _ _

theorem internal_requestStart (caller : CallId) (r : SyncRequest) : Throws Internal (r.start caller) := by
  have hasked : Throws Internal (do
      assertOpenForOps r.channel
      sendMethod caller r.channel r.method
      return true) :=
    throws_bind (internal_assertOpenForOps _) fun _ => throws_bind (internal_sendMethod _ _ _) fun _ => throws_pure _
  cases r with
  | confirmSelect channel => exact internal_startConfirmSelect _ _
  | updateSecret newSecret reason =>
    exact throws_bind throws_get fun _ => throws_bind (throws_throwIf ⟨rfl, nofun⟩) fun _ =>
      throws_bind (internal_sendMethod _ _ _) fun _ => throws_pure _
  | _ => exact hasked

end Operations

end Nuropb
