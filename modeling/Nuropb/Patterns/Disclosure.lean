import Nuropb.Library.Coupling
import Nuropb.Patterns.Consumers
import Nuropb.Patterns.Responses

/-! # What an error reply discloses

Two runs of `_handle` on one delivery, whose handlers raise: the frames depend on no more of what is raised
than the reply may show.
-/
namespace Nuropb.Patterns

open Library Transport

/-- An exception that the handler should have answered for. -/
def Unexpected (e : Exc) : Prop :=
  (∀ error, e ≠ .rpcError error) ∧ (∀ requeue, e ≠ .nackDelivery requeue) ∧ e ≠ .cancelledError

/-- The entries of the data that may be shown; `None` has none. -/
def shownEntries : PyVal → Option Table
  | .none => some []
  | .dict data => some (allowlisted data)
  | _ => none

/-- The errors agree on all but the entries of their data that may not be shown. -/
structure ShownAlike (error error' : RpcError) : Prop where
  code : error.code = error'.code
  message : error.message = error'.message
  id : error.id = error'.id
  data : ∃ entries, shownEntries error.data = some entries ∧ shownEntries error'.data = some entries

inductive RaisedAlike : Exc → Exc → Prop
  | unexpected {e e' : Exc} (h : Unexpected e) (h' : Unexpected e') : RaisedAlike e e'
  | refused {error error' : RpcError} (h : ShownAlike error error') : RaisedAlike (.rpcError error) (.rpcError error')

section Runs

variable (stack : Nat) (jwt : JwtDecode) (server : RpcServer) (caller : CallId)

/-- A run in which the handler is called and raises, and the connection is left to the reply. -/
structure Raising (round : Round) (s : Serving) (e : Exc) (left : Conn) : Prop where
  admitted : ∃ method params requestId, server.accept stack jwt round = .ok (method, params, requestId) ∧
    round.handler method params s.conn = .error e left
  /-- While the handler runs and the ack drains only other tasks write. -/
  waits : Wrote caller [] s.conn left
  drains : Keeps (Wrote caller []) round.drain

/-- What decides whether a frame can be written on the channel. -/
structure WritesAlike (channel : Int) (conn conn' : Conn) : Prop where
  state : conn.channels.get? channel = conn'.channels.get? channel
  blocked : conn.publishBlocked = conn'.publishBlocked
  frameMax : conn.frameMax = conn'.frameMax

/-- The data of an error object, if it has any, holds only allowed keys. -/
def AllowedObject (error : Table) : Prop :=
  ∀ data, lookup (Text.ofString "data") error = some data →
    ∃ entries, data = .dict entries ∧ ∀ entry ∈ entries, entry.1 ∈ allowedDataKeys

end Runs

/-! ## The reply -/

section Replying

variable {stack : Nat} {corr : Option Text}

theorem errorObject_of_shown {code : Int} {message data : PyVal} {entries : Table}
    (h : shownEntries data = some entries) :
    errorObject code message data = .ok ([(Text.ofString "code", .int code), (Text.ofString "message", message)] ++
      (if entries = [] then [] else [(Text.ofString "data", .dict entries)])) := by
  unfold shownEntries at h
  split at h
  · cases h
    rfl
  · rename_i data
    cases h
    unfold errorObject
    rw [allowlistErrorData, ok_bind]
    cases allowlisted data with
    | nil => rfl
    | cons entry rest => rfl
  · contradiction

theorem replyBody_alike {e e' : Exc} (h : RaisedAlike e e') :
    replyBody stack corr (.error e) = replyBody stack corr (.error e') := by
  cases h with
  | unexpected h h' =>
    have hinternal {e : Exc} (h : Unexpected e) : replyBody stack corr (.error e) =
        encodeError stack serverError (.str (Text.ofString "internal error")) ((corr.map .str).getD .none)
          (.dict (makeErrorData serverError false corr none)) := by
      obtain ⟨hrpc, -, hcancelled⟩ := h
      unfold replyBody
      split
      · contradiction
      · rename_i heq
        cases heq
        exact absurd rfl (hrpc _)
      · rename_i heq
        cases heq
        exact absurd rfl hcancelled
      · rfl
    rw [hinternal h, hinternal h']
  | refused h =>
    obtain ⟨hcode, hmessage, hid, entries, hdata, hdata'⟩ := h
    rw [replyBody, replyBody, encodeError, encodeError, errorObject_of_shown hdata, errorObject_of_shown hdata', hcode,
      hmessage, hid]

theorem raisedAlike_not_nack {e e' : Exc} (h : RaisedAlike e e') (requeue : Bool) :
    (.error e : Except Exc Bytes) ≠ .error (.nackDelivery requeue) ∧
      (.error e' : Except Exc Bytes) ≠ .error (.nackDelivery requeue) := by
  cases h with
  | unexpected h h' => simp [h.2.1 requeue, h'.2.1 requeue]
  | refused h => simp

end Replying

/-! ## Its frames -/

section Writing

variable {channel : Int} {caller : CallId} {base base' : Conn}

/-- The task has written the same frames since. -/
def SameFrames (caller : CallId) (base base' conn conn' : Conn) : Prop :=
  ∃ frames, Wrote caller frames base conn ∧ Wrote caller frames base' conn'

theorem SameFrames.framesBy {conn conn' : Conn} (h : SameFrames caller base base' conn conn') :
    framesBy caller base conn = framesBy caller base' conn' := by
  obtain ⟨frames, hwrote, hwrote'⟩ := h
  rw [hwrote.framesBy, hwrote'.framesBy]

theorem sameFrames_refl : SameFrames caller base base' base base' := ⟨[], .refl caller base, .refl caller base'⟩

theorem SameFrames.grow {conn conn' later later' : Conn} (h : SameFrames caller base base' conn conn')
    {frames : List Frame} (hlater : Wrote caller frames conn later) (hlater' : Wrote caller frames conn' later') :
    SameFrames caller base base' later later' := by
  obtain ⟨before, hwrote, hwrote'⟩ := h
  exact ⟨before ++ frames, hwrote.trans hlater, hwrote'.trans hlater'⟩

/-- The two runs can write the same, and have written the same. -/
structure Beside (channel : Int) (caller : CallId) (base base' conn conn' : Conn) : Prop
    extends WritesAlike channel conn conn' where
  frames : SameFrames caller base base' conn conn'

theorem coupled_assertOpenForOps : Coupled (Beside channel caller base base') Eq (assertOpenForOps channel)
    (assertOpenForOps channel) := by
  apply coupled_get_bind
  intro conn conn' hbeside
  rw [hbeside.state]
  refine coupled_bind (coupled_lift _) ?_
  rintro state _ rfl
  split
  · refine coupled_bind (coupled_modify ?_) fun _ _ _ => coupled_throw _ _
    intro conn conn' hbeside
    exact { state := by simp, blocked := hbeside.blocked, frameMax := hbeside.frameMax, frames := hbeside.frames }
  · exact coupled_pure rfl

theorem coupled_writeFrame (frame : Frame) : Coupled (Beside channel caller base base') Eq
    (writeFrame (some caller) frame) (writeFrame (some caller) frame) := by
  apply coupled_get_bind
  intro conn conn' hbeside
  rw [hbeside.frameMax]
  refine coupled_bind (coupled_lift _) fun _ _ _ => coupled_modify ?_
  intro conn conn' hbeside
  exact { state := hbeside.state, blocked := hbeside.blocked, frameMax := hbeside.frameMax,
          frames := hbeside.frames.grow (wrote_append caller _ [frame]) (wrote_append caller _ [frame]) }

theorem coupled_writePayload (frameType : FrameType) (on : Int) (payload : Except Exc Bytes) :
    Coupled (Beside channel caller base base') Eq (writePayload (some caller) frameType on payload)
      (writePayload (some caller) frameType on payload) := by
  refine coupled_bind (coupled_lift _) ?_
  rintro raw _ rfl
  exact coupled_writeFrame _

theorem coupled_writeChunks (on : Int) (payloadMax rounds : Nat) (rest : Bytes) :
    Coupled (Beside channel caller base base') Eq (writeChunks caller on payloadMax rounds rest)
      (writeChunks caller on payloadMax rounds rest) := by
  induction rounds generalizing rest with
  | zero =>
    cases rest with
    | nil => exact coupled_pure rfl
    | cons b rest => exact coupled_throw _ _
  | succ rounds ih =>
    cases rest with
    | nil => exact coupled_pure rfl
    | cons b rest => exact coupled_bind (coupled_writeFrame _) fun _ _ _ => ih _

theorem coupled_writeContent (args : PublishArgs) (props : Properties) :
    Coupled (Beside channel caller base base') Eq (writeContent caller args props none)
      (writeContent caller args props none) := by
  refine coupled_bind (coupled_modify fun _ _ hbeside => hbeside) fun _ _ _ => ?_
  refine coupled_bind (coupled_writePayload _ _ _) fun _ _ _ => ?_
  refine coupled_bind (coupled_writePayload _ _ _) fun _ _ _ => coupled_get_bind ?_
  intro conn conn' hbeside
  rw [hbeside.frameMax]
  refine coupled_bind (coupled_lift _) ?_
  rintro payloadMax _ rfl
  split
  · exact coupled_writeFrame _
  · exact coupled_writeChunks _ _ _ _

theorem coupled_startPublish {args : PublishArgs} (hchannel : args.channel = channel)
    (hconfirm : args.confirm = some false) :
    Coupled (Beside channel caller base base') Eq (startPublish caller args) (startPublish caller args) := by
  subst hchannel
  refine coupled_bind coupled_assertOpenForOps fun _ _ _ => coupled_get_bind ?_
  intro conn conn' hbeside
  refine coupled_bind (coupled_throwIf (by rw [hbeside.blocked]) _ _) fun _ _ _ => ?_
  refine coupled_bind (coupled_lift _) ?_
  rintro props _ rfl
  have hplain (tracker : ConfirmTracker) : publishChecked caller args props tracker =
      (do writeContent caller args props none; return .written none) := by
    rw [publishChecked, PublishArgs.wantConfirm, hconfirm, if_neg Bool.false_ne_true]
  rw [hplain, hplain]
  exact coupled_bind (coupled_writeContent args props) fun _ _ _ => coupled_pure rfl

theorem ends_settleDelivery (op : Settlement) (hchannel : op.channel = channel) {drain drain' : ConnM Unit}
    (hdrain : Keeps (Wrote caller []) drain) (hdrain' : Keeps (Wrote caller []) drain') :
    Ends (Beside channel caller base base') (SameFrames caller base base') (settleDelivery caller op drain)
      (settleDelivery caller op drain') := by
  subst hchannel
  refine ends_bind (coupled_bind coupled_assertOpenForOps fun _ _ _ => coupled_writePayload _ _ _)
    (fun _ _ hbeside => hbeside.frames) fun _ _ _ => ?_
  intro conn conn' hbeside
  exact hbeside.frames.grow (hdrain conn) (hdrain' conn')

theorem ends_replyAndAck {server : RpcServer} {round round' : Round} (hmsg : round'.msg = round.msg)
    (hdrain : Keeps (Wrote caller []) round.drain) (hdrain' : Keeps (Wrote caller []) round'.drain) (out : Bytes) :
    Ends (Beside server.channelId caller base base') (SameFrames caller base base')
      (server.replyAndAck caller round out) (server.replyAndAck caller round' out) := by
  rw [RpcServer.replyAndAck, RpcServer.replyAndAck, Round.replyTo, Round.replyTo, Round.corr, Round.corr, hmsg]
  split
  · refine ends_bind (coupled_startPublish rfl rfl) (fun _ _ hbeside => hbeside.frames) fun _ _ _ => ?_
    exact ends_settleDelivery (.basicAck server.channelId round.msg.deliveryTag) rfl hdrain hdrain'
  · exact ends_settleDelivery (.basicAck server.channelId round.msg.deliveryTag) rfl hdrain hdrain'

end Writing

section Handling

variable {stack : Nat} {jwt : JwtDecode} {server : RpcServer} {caller : CallId} {round round' : Round}
  {s s' : Serving} {e e' : Exc} {left left' : Conn}

theorem handle_of_raising (h : Raising stack jwt server caller round s e left) :
    (resultState (server.handle stack jwt caller round s)).conn =
      resultState (server.finish stack caller round (.error e) left) := by
  obtain ⟨method, params, requestId, haccept, hhandler⟩ := h.admitted
  have hcall : callHandler round method params s = .error e { conn := left, invoked := s.invoked ++ [(method, params)] } := by
    rw [callHandler, bind_run_ok (modify_run _ s), onConn, hhandler]
  have hrespond : server.respond stack jwt round s =
      .error e { conn := left, invoked := s.invoked ++ [(method, params)] } := by
    rw [RpcServer.respond, haccept, bind_run_ok (lift_ok _ s)]
    exact bind_run_error hcall
  rw [RpcServer.handle, bind_run_ok (observe_of_error hrespond), onConn]
  dsimp only
  cases server.finish stack caller round (.error e) left with
  | ok a conn => rfl
  | error e conn => rfl

theorem framesBy_handle (hmsg : round'.msg = round.msg) (h : Raising stack jwt server caller round s e left)
    (h' : Raising stack jwt server caller round' s' e' left') (halike : WritesAlike server.channelId left left')
    (hraised : RaisedAlike e e') :
    framesBy caller s.conn (resultState (server.handle stack jwt caller round s)).conn =
      framesBy caller s'.conn (resultState (server.handle stack jwt caller round' s')).conn := by
  have hfinish : server.finish stack caller round (.error e) =
      (lift (replyBody stack round.corr (.error e)) >>= fun out => server.replyAndAck caller round out) :=
    finish_of_other fun requeue => (raisedAlike_not_nack hraised requeue).1
  have hfinish' : server.finish stack caller round' (.error e') =
      (lift (replyBody stack round'.corr (.error e')) >>= fun out => server.replyAndAck caller round' out) :=
    finish_of_other fun requeue => (raisedAlike_not_nack hraised requeue).2
  have hbody : replyBody stack round'.corr (.error e') = replyBody stack round.corr (.error e) := by
    rw [Round.corr, Round.corr, hmsg]
    exact (replyBody_alike hraised).symm
  apply SameFrames.framesBy
  rw [handle_of_raising h, handle_of_raising h', hfinish, hfinish', hbody]
  have hbeside : Beside server.channelId caller s.conn s'.conn left left' :=
    { halike with frames := sameFrames_refl.grow h.waits h'.waits }
  refine ends_bind (coupled_lift _) (fun _ _ hbeside => hbeside.frames) ?_ left left' hbeside
  rintro out _ rfl
  exact ends_replyAndAck hmsg h.drains h'.drains out

end Handling

/-! ## Error objects -/

section Objects

variable {stack : Nat}

theorem mem_allowedDataKeys_of_shown {data : PyVal} {entries : Table} (h : shownEntries data = some entries) :
    ∀ entry ∈ entries, entry.1 ∈ allowedDataKeys := by
  unfold shownEntries at h
  split at h
  · cases h
    simp
  · cases h
    intro entry hentry
    exact mem_allowedDataKeys_of_allowlisted hentry
  · contradiction

/-- Only what may be shown, or nothing, becomes the data of an error object. -/
theorem shown_of_errorObject {code : Int} {message data : PyVal} {error : Table}
    (h : errorObject code message data = .ok error) : ∃ entries, shownEntries data = some entries := by
  obtain ⟨cleaned, hcleaned, -⟩ := bind_eq_ok.mp h
  unfold allowlistErrorData at hcleaned
  split at hcleaned
  · exact ⟨_, rfl⟩
  · exact ⟨_, rfl⟩
  · contradiction

theorem allowedObject_of_errorObject {code : Int} {message data : PyVal} {error : Table}
    (h : errorObject code message data = .ok error) : AllowedObject error := by
  obtain ⟨entries, hshown⟩ := shown_of_errorObject h
  rw [errorObject_of_shown hshown] at h
  cases h
  intro found hfound
  have hcode : Text.ofString "code" ≠ Text.ofString "data" := by decide
  have hmessage : Text.ofString "message" ≠ Text.ofString "data" := by decide
  rw [List.cons_append, List.cons_append, List.nil_append, lookup, if_neg hcode, lookup, if_neg hmessage] at hfound
  split at hfound
  · contradiction
  · rw [lookup, if_pos rfl] at hfound
    cases hfound
    exact ⟨entries, rfl, mem_allowedDataKeys_of_shown hshown⟩

/-- An error that `decode_response` raises for its caller. -/
def Discreet (e : Exc) : Prop := ∀ error, e = .rpcError error → AllowedData error

theorem discreet_rpcError (code : Int) (message : String) (retryable : Bool) (correlationId method : Option Text)
    (id : PyVal) : Discreet (rpcError code message retryable correlationId method id) := by
  rintro error ⟨⟩
  refine .inr ⟨_, rfl, ?_⟩
  intro entry hentry
  exact mem_allowedDataKeys_of_allowlisted hentry

theorem discreet_invalidEnvelope (message : String) : Discreet (invalidEnvelopeError message) :=
  discreet_rpcError _ _ _ _ _ _

theorem discreet_of_foreign {e : Exc} (h : Foreign e) : Discreet e := fun error he => absurd he (h.2 error)

theorem discreet_loadBody (body : Bytes) : Raises Discreet (loadBody stack body) := by
  intro e he
  unfold loadBody at he
  split at he
  · cases he
    exact discreet_invalidEnvelope _
  · cases he
    exact discreet_invalidEnvelope _
  · rcases bind_eq_error.mp he with hutf8 | ⟨text, -, hloads⟩
    · rintro error rfl
      unfold decodeUtf8 at hutf8
      split at hutf8
      · cases hutf8
      · cases hutf8
    · exact discreet_of_foreign (Json.raises_loads stack text e hloads).foreign

theorem discreet_decodeMessage (body : Bytes) : Raises Discreet (decodeMessage stack body) := by
  refine raises_bind (discreet_loadBody body) fun value _ => ?_
  split
  · split
    · refine raises_bind (raises_raiseIf (discreet_invalidEnvelope _)) ?_
      rintro u -
      exact raises_ok _
    · exact raises_error (discreet_invalidEnvelope _)
  · exact raises_error (discreet_invalidEnvelope _)

theorem allowedData_of_responseError {builtins : Builtins} {rid : Option Text} {error : Table} {raised : RpcError}
    (h : responseError builtins stack rid error = .ok raised) : AllowedData raised := by
  obtain ⟨code, hcode, hbound⟩ := bind_eq_ok.mp h
  obtain ⟨message, hmessage, -⟩ := bind_eq_ok.mp hbound
  obtain ⟨raised', hraised, hallowed⟩ := responseError_eq_ok rid hcode hmessage
  rw [h] at hraised
  cases hraised
  exact hallowed

theorem discreet_decodeResponse (builtins : Builtins) (body : Bytes) :
    Raises Discreet (decodeResponse builtins stack body) := by
  refine raises_bind (discreet_decodeMessage body) fun msg _ => ?_
  split
  · exact raises_ok _
  · refine raises_bind ?_ fun raised hraised => ?_
    · exact foreign_responseError.mono fun e he => discreet_of_foreign he
    · apply raises_error
      rintro error ⟨⟩
      exact allowedData_of_responseError hraised
  · exact raises_error (discreet_rpcError _ _ _ _ _ _)

end Objects

/-- Two runs on a delivery write the same frames when what their handlers raise is alike where it may be shown. Every
error object, and every error that a response makes its caller raise, has allowed data only. -/
theorem handle_discloses_allowed (stack : Nat) (jwt : JwtDecode) (server : RpcServer) (caller : CallId)
    (builtins : Builtins) :
    (∀ round round' s s' e e' left left', round'.msg = round.msg →
      Raising stack jwt server caller round s e left → Raising stack jwt server caller round' s' e' left' →
      WritesAlike server.channelId left left' → RaisedAlike e e' →
      framesBy caller s.conn (resultState (server.handle stack jwt caller round s)).conn =
        framesBy caller s'.conn (resultState (server.handle stack jwt caller round' s')).conn) ∧
    (∀ code message requestId data out, encodeError stack code message requestId data = .ok out →
      ∃ error, AllowedObject error ∧ encodeObject stack [(Text.ofString "jsonrpc", .str (Text.ofString "2.0")),
        (Text.ofString "error", .dict error), (Text.ofString "id", requestId)] = .ok out) ∧
    ∀ body error, decodeResponse builtins stack body = .error (.rpcError error) → AllowedData error := by
  refine ⟨?_, ?_, ?_⟩
  · intro round round' s s' e e' left left' hmsg hrun hrun' halike hraised
    exact framesBy_handle hmsg hrun hrun' halike hraised
  · intro code message requestId data out h
    obtain ⟨error, herror, h⟩ := bind_eq_ok.mp h
    exact ⟨error, allowedObject_of_errorObject herror, h⟩
  · intro body error h
    exact discreet_decodeResponse builtins body _ h error rfl

/-- A delivery that is to be replied to, and whose handler raises. -/
def refusingRound (e : Exc) : Round := { repliedRound with handler := fun _ _ => throw e }

theorem raising_refusingRound (e : Exc) :
    Raising 9 (fun _ => .invalid) {} 0 (refusingRound e) ⟨confirmingConn, []⟩ e confirmingConn where
  admitted := by
    have haccept : (RpcServer.accept 9 (fun _ => .invalid) {} repliedRound).isOk = true := by decide +kernel
    rcases ok_or_error (RpcServer.accept 9 (fun _ => .invalid) {} repliedRound) with ⟨accepted, hok⟩ | ⟨e', herror⟩
    · exact ⟨accepted.1, accepted.2.1, accepted.2.2, hok, rfl⟩
    · rw [herror] at haccept
      contradiction
  waits := .refl 0 confirmingConn
  drains := keeps_pure (Wrote.refl 0) ()

/-- A missing key and a failure with a text of its own are replied to alike, with a message and an ack. -/
theorem refusing_discloses_allowed :
    framesBy 0 confirmingConn (resultState (RpcServer.handle 9 (fun _ => .invalid) {} 0 (refusingRound .keyError)
        ⟨confirmingConn, []⟩)).conn =
      framesBy 0 confirmingConn (resultState (RpcServer.handle 9 (fun _ => .invalid) {} 0
        (refusingRound (.other "password")) ⟨confirmingConn, []⟩)).conn ∧
    (framesBy 0 confirmingConn (resultState (RpcServer.handle 9 (fun _ => .invalid) {} 0 (refusingRound .keyError)
        ⟨confirmingConn, []⟩)).conn).length = 4 := by
  constructor
  · refine (handle_discloses_allowed 9 (fun _ => .invalid) {} 0 Builtins.ascii).1 (refusingRound .keyError)
      (refusingRound (.other "password")) ⟨confirmingConn, []⟩ ⟨confirmingConn, []⟩ .keyError (.other "password")
      confirmingConn confirmingConn rfl (raising_refusingRound .keyError)
      (raising_refusingRound (.other "password")) ⟨rfl, rfl, rfl⟩ ?_
    apply RaisedAlike.unexpected
    · simp [Unexpected]
    · simp [Unexpected]
  · decide +kernel

end Nuropb.Patterns
