import Nuropb.Transport.Operates

/-! # The effect of a step

Every step of a connection but the reply to `open_channel` is confined, and every step that ends
nothing operates on the connection as its operations do.
-/
namespace Nuropb.Transport

open Library Protocol

section Frames

variable {conn : Conn} {f : Frame}

theorem operates_settleWaiter (conn : Conn) (channel : Int) (method : Method) :
    Operates conn (conn.settleWaiter channel method) := by
  obtain ⟨replies, heq⟩ := conn.settleWaiter_eq channel method
  rw [heq]
  exact .of_same rfl rfl rfl rfl

theorem operates_settleConfirms (conn : Conn) (channel : Int) (deliveryTag : Nat) (multiple : Bool)
    (outcome : Except Exc Unit) : Operates conn
      ((conn.clearMandatoryTags channel deliveryTag multiple).settleConfirms channel deliveryTag multiple outcome) := by
  obtain ⟨mandatoryTags, heq⟩ := conn.clearMandatoryTags_eq channel deliveryTag multiple
  rw [heq]
  exact .of_same rfl rfl rfl rfl

theorem operates_finishDelivery (conn : Conn) (channel : Int) (slot : Slot) :
    Operates conn (conn.finishDelivery channel slot) := by
  obtain ⟨mandatoryTags, returnByTag, returns, deliveries, heq⟩ := conn.finishDelivery_eq channel slot
  rw [heq]
  exact .of_same rfl rfl rfl rfl

theorem confined_notifyLoss (conn : Conn) (exc : Exc) : Confined conn (conn.notifyLoss exc) := by
  unfold Conn.notifyLoss
  split
  · exact .of_same rfl rfl
  · exact .of_same rfl rfl

theorem confined_endReader (conn : Conn) (exc : Exc) : Confined conn (conn.endReader exc) :=
  (confined_notifyLoss conn exc).trans (.of_same rfl rfl)

theorem operates_closing (conn : Conn) {frame : Frame}
    (h : frameOf conn.frameMax .method 0 (encodeMethod .connectionCloseOk) = some frame) (reason : String) :
    Operates conn { conn.append none [frame] with reader := .closing reason } := by
  have happend : Operates conn (conn.append none [frame]) := by
    refine operates_append conn none ?_
    rw [(methodIds_of_frameOf h).2]
    decide
  exact happend.trans (.of_same rfl rfl rfl rfl)

theorem confined_readFrame (conn : Conn) (f : Frame) : Confined conn (conn.readFrame f) := by
  have htaken := readFrame_taken conn f
  generalize conn.readFrame f = conn' at htaken ⊢
  cases htaken with
  | heartbeat htype => exact (Operates.refl conn).toConfined
  | confirmed htype hmethod hconfirm henabled => exact (operates_settleConfirms ..).toConfined
  | replied htype hmethod hhandled hconfirm => exact (operates_settleWaiter ..).toConfined
  | blocked publishBlocked htype hmethod hhandled => exact .of_same rfl rfl
  | closing htype hmethod hframe => exact (operates_closing conn hframe _).toConfined
  | continued hslot hremaining => exact .of_same rfl rfl
  | finished hslot hremaining => exact (operates_finishDelivery ..).toConfined
  | ended hhandled => exact confined_endReader conn _

theorem returning_reject {α : Type} (reason : String) : KeepsReturning Operates (reject reason : ConnM α) := by
  intro s a t h
  cases h

theorem returning_modify {g : Conn → Conn} (h : ∀ conn, Operates conn (g conn)) :
    KeepsReturning Operates (modify g : ConnM Unit) :=
  (operates_modify h).returning

theorem returning_bind {α β : Type} {x : ConnM α} {g : α → ConnM β} (hx : KeepsReturning Operates x)
    (hg : ∀ a, KeepsReturning Operates (g a)) : KeepsReturning Operates (x >>= g) :=
  keepsReturning_bind (fun _ _ _ => .trans) hx hg

theorem returning_answerClose : KeepsReturning Operates answerClose := by
  intro s a t h
  unfold answerClose sendMethod at h
  cases hframe : frameOf s.frameMax .method 0 (encodeMethod .connectionCloseOk) with
  | none =>
    obtain ⟨e, he⟩ := writePayload_of_none none hframe
    rw [he] at h
    cases h
  | some frame =>
    rw [writePayload_of_some hframe] at h
    cases h
    exact operates_closing s hframe _

theorem returning_confirm (channel : Int) (method : Method) (deliveryTag : Nat) (multiple : Bool)
    (outcome : Except Exc Unit) :
    KeepsReturning Operates (processConfirm channel method deliveryTag multiple outcome) := by
  refine returning_modify fun conn => ?_
  split
  · exact operates_settleConfirms ..
  · exact operates_settleWaiter ..

theorem returning_processFrame (f : Frame) : KeepsReturning Operates (processFrame f) := by
  have hfinish (channel : Int) (slot : Slot) :
      KeepsReturning Operates (modify fun conn => conn.finishDelivery channel slot : ConnM Unit) :=
    returning_modify fun conn => operates_finishDelivery conn channel slot
  have hset (channel : Int) (slot : Slot) :
      KeepsReturning Operates (modify fun conn => conn.setSlot channel slot : ConnM Unit) :=
    returning_modify fun conn => .of_same rfl rfl rfl rfl
  unfold processFrame
  split
  · exact (keeps_pure Operates.refl _).returning
  · refine returning_bind (keeps_lift Operates.refl _).returning fun method => ?_
    cases method with
    | connectionSecure challenge => exact returning_reject _
    | connectionBlocked reason => exact returning_modify fun conn => .of_same rfl rfl rfl rfl
    | connectionUnblocked => exact returning_modify fun conn => .of_same rfl rfl rfl rfl
    | basicDeliver args => exact hset _ _
    | basicReturn args => exact hset _ _
    | basicAck deliveryTag multiple => exact returning_confirm _ _ _ _ _
    | basicNack deliveryTag multiple requeue => exact returning_confirm _ _ _ _ _
    | connectionClose args => exact returning_answerClose
    | _ => exact returning_modify fun conn => operates_settleWaiter conn _ _
  · refine returning_bind (keeps_lift Operates.refl _).returning fun header =>
      returning_bind (keeps_get Operates.refl).returning fun conn => ?_
    split
    · exact returning_reject _
    · exact keepsReturning_ite (fun _ => hfinish _ _) fun _ => hset _ _
  · refine returning_bind (keeps_get Operates.refl).returning fun conn => ?_
    split
    · exact returning_reject _
    · exact keepsReturning_ite (fun _ => returning_reject _) fun _ =>
        keepsReturning_ite (fun _ => hfinish _ _) fun _ => hset _ _

end Frames

/-! ## Tasks -/

section Tasks

variable {m m' : Machine} {id : CallId}

theorem operates_popReturn (conn : Conn) (channel : Int) (tag : Nat) :
    Operates conn (conn.popReturn channel tag).2 := by
  unfold Conn.popReturn
  split
  · exact .refl conn
  · exact .of_same rfl rfl rfl rfl

theorem operates_afterDrain (m : Machine) (id : CallId) (args : PublishArgs) (tag : Option Nat) :
    Operates m.conn (m.afterDrain id args tag).conn := by
  cases tag with
  | none => exact .refl _
  | some t =>
    rw [Machine.afterDrain, Machine.awaitConfirm]
    split
    · exact .refl _
    · exact .refl _
    · rw [Machine.finishConfirm]
      split
      · have hpop := operates_popReturn m.conn args.channel t
        split
        · rename_i heq
          rw [heq] at hpop
          exact hpop
        · rename_i heq
          rw [heq] at hpop
          exact hpop
      · exact .refl _

theorem operates_publishReached (m : Machine) (id : CallId) (args : PublishArgs)
    (result : EStateM.Result Exc Conn PublishStep) :
    Operates (resultState result) (m.publishReached id args result).conn := by
  cases result with
  | error e conn => exact .refl _
  | ok reached conn =>
    cases reached with
    | selecting props => exact .refl _
    | written tag =>
      rw [Machine.publishReached]
      split
      · exact .refl _
      · exact operates_afterDrain (m.setConn conn) id args tag

theorem operates_requestReached (m : Machine) (id : CallId) (r : SyncRequest)
    (result : EStateM.Result Exc Conn Bool) :
    Operates (resultState result) (m.requestReached id r result).conn := by
  unfold Machine.requestReached
  split <;> exact .refl _

theorem operates_answered (m : Machine) (id : CallId) (r : SyncRequest)
    (next : Option (PublishArgs × Properties)) (reply : Method) :
    Operates m.conn (m.answered id r next reply).conn := by
  have hfinish := operates_finish r reply m.conn
  unfold Machine.answered
  split
  · rename_i hrun
    rw [hrun] at hfinish
    exact hfinish
  · rename_i conn hrun
    rw [hrun] at hfinish
    cases next with
    | none => exact hfinish
    | some content =>
      exact hfinish.trans ((operates_publishSegment id content.1 (.afterSelect content.2) conn).trans
        (operates_publishReached _ id content.1 _))

theorem operates_wake (h : m.wake id = some m') : Operates m.conn m'.conn := by
  unfold Machine.wake at h
  split at h
  · rename_i r next hcall
    obtain ⟨outcome, -, rfl⟩ := Option.map_eq_some_iff.mp h
    have hforget : Operates m.conn (m.forgetWaiter r.key).conn := .of_same rfl rfl rfl rfl
    cases outcome with
    | ok reply => exact hforget.trans (operates_answered _ id r next reply)
    | error e => exact hforget
  · rename_i args tag hcall
    split at h
    · cases h
      exact operates_afterDrain m id args (some tag)
    · cases h
  · cases h

theorem operates_drained {failure : Option Interrupt} (h : m.drained id failure = some m') :
    Operates m.conn m'.conn := by
  unfold Machine.drained at h
  split at h
  · cases h
    exact .of_same rfl rfl rfl rfl
  · cases h
    exact .refl _
  · cases h
    exact operates_afterDrain m id _ _
  · cases h
    exact .refl _
  · cases h

theorem operates_deadline (h : m.deadline id = some m') : Operates m.conn m'.conn := by
  unfold Machine.deadline at h
  split at h
  · cases h
    exact .of_same rfl rfl rfl rfl
  · cases h

theorem operates_cancel (h : m.cancel id = some m') : Operates m.conn m'.conn := by
  unfold Machine.cancel at h
  split at h
  · cases h
    exact .of_same rfl rfl rfl rfl
  · cases h
    exact .of_same rfl rfl rfl rfl
  · cases h

/-- The read loop rejects the frame. -/
def Conn.rejects (conn : Conn) (f : Frame) : Bool :=
  match processFrame f conn with
  | .ok _ _ => false
  | .error _ _ => true

/-- The events with which the read loop or the heartbeat ends the connection. -/
def Machine.ends (m : Machine) : Event → Bool
  | .frame f => m.conn.rejects f
  | .closeDrained | .eof | .lose _ => true
  | _ => false

theorem confined_taskStep {e : Event} (h : m.step e = some m') : Confined m.conn m'.conn := by
  cases e with
  | request id r =>
    obtain ⟨-, ⟨⟩⟩ := Option.ite_none_right_eq_some.mp h
    exact ((operates_request id r m.conn).trans (operates_requestReached m id r _)).toConfined
  | publish id args =>
    obtain ⟨-, ⟨⟩⟩ := Option.ite_none_right_eq_some.mp h
    exact ((operates_publishSegment id args .call m.conn).trans (operates_publishReached m id args _)).toConfined
  | drained id failure => exact (operates_drained h).toConfined
  | wake id => exact (operates_wake h).toConfined
  | deadline id => exact (operates_deadline h).toConfined
  | cancel id => exact (operates_cancel h).toConfined
  | frame f =>
    obtain ⟨-, ⟨⟩⟩ := Option.ite_none_right_eq_some.mp h
    exact confined_readFrame m.conn f
  | closeDrained =>
    simp only [Machine.step] at h
    split at h
    · cases h
      exact confined_endReader m.conn _
    · cases h
  | eof =>
    obtain ⟨-, ⟨⟩⟩ := Option.ite_none_right_eq_some.mp h
    exact confined_endReader m.conn _
  | lose exc =>
    cases h
    exact confined_notifyLoss m.conn exc

theorem operates_taskStep {e : Event} (h : m.step e = some m') (hends : m.ends e = false) :
    Operates m.conn m'.conn := by
  cases e with
  | request id r =>
    obtain ⟨-, ⟨⟩⟩ := Option.ite_none_right_eq_some.mp h
    exact (operates_request id r m.conn).trans (operates_requestReached m id r _)
  | publish id args =>
    obtain ⟨-, ⟨⟩⟩ := Option.ite_none_right_eq_some.mp h
    exact (operates_publishSegment id args .call m.conn).trans (operates_publishReached m id args _)
  | drained id failure => exact operates_drained h
  | wake id => exact operates_wake h
  | deadline id => exact operates_deadline h
  | cancel id => exact operates_cancel h
  | frame f =>
    obtain ⟨-, ⟨⟩⟩ := Option.ite_none_right_eq_some.mp h
    cases hrun : processFrame f m.conn with
    | ok u conn =>
      have hread : (m.readFrame f).conn = conn := readFrame_of_ok hrun
      rw [hread]
      exact returning_processFrame f m.conn u conn hrun
    | error e conn =>
      simp [Machine.ends, Conn.rejects, hrun] at hends
  | closeDrained => cases hends
  | eof => cases hends
  | lose exc => cases hends

end Tasks

/-! ## The handshake and the other jobs -/

section Jobs

variable {c c' : Client} {id : CallId}

theorem confined_bind {α β : Type} {x : ConnM α} {g : α → ConnM β} (hx : Keeps Confined x)
    (hg : ∀ a, Keeps Confined (g a)) : Keeps Confined (x >>= g) :=
  keeps_bind (fun _ _ _ => .trans) hx hg

theorem Confined.refl (conn : Conn) : Confined conn conn := .of_same rfl rfl

theorem confined_of_operates {α : Type} {x : ConnM α} (h : Keeps Operates x) : Keeps Confined x :=
  fun conn => (h conn).toConfined

theorem confined_reject {α : Type} (reason : String) : Keeps Confined (reject reason : ConnM α) :=
  fun _ => .of_same rfl rfl

theorem confined_transition (f : ConnState.Transition) : Keeps Confined (transition f) := by
  intro conn
  unfold transition
  split
  · exact .of_same rfl rfl
  · exact confined_reject _ conn

theorem confined_selectSasl (config : ConnectionConfig) (mechanisms : Text) :
    Keeps Confined (config.selectSasl mechanisms) :=
  keeps_ite (fun _ => keeps_pure .refl _) fun _ =>
    keeps_ite (fun _ => confined_reject _) fun _ =>
      confined_bind (keeps_lift .refl _) fun _ => confined_bind (keeps_lift .refl _) fun _ => keeps_pure .refl _

theorem confined_send (caller : Option CallId) (channel : Int) {method : Method} (h : method.ids ≠ closeOkIds) :
    Keeps Confined (sendMethod caller channel method) :=
  confined_of_operates (operates_sendMethod caller channel h)

theorem confined_modify {f : Conn → Conn} (h : ∀ conn, Confined conn (f conn)) :
    Keeps Confined (modify f : ConnM Unit) :=
  keeps_modify h

theorem confined_advance (config : ConnectionConfig) (caller : CallId) (reply : Option Method) (step : Handshake) :
    Keeps Confined (config.advance caller reply step) := by
  have hdone (next : Option Handshake) : Keeps Confined (pure next : ConnM (Option Handshake)) :=
    keeps_pure .refl next
  have hmove (f : ConnState.Transition) {x : ConnM (Option Handshake)} (hx : Keeps Confined x) :
      Keeps Confined (do transition f
                         x) :=
    confined_bind (confined_transition f) fun _ => hx
  cases step with
  | resolving => exact hmove _ (hdone _)
  | opening =>
    have hheader := hmove ConnState.allowAmqpHeader (hdone (some .header))
    cases htls : config.tls with
    | true =>
      simp only [ConnectionConfig.advance, htls, if_true]
      exact hmove _ hheader
    | false =>
      simp only [ConnectionConfig.advance, htls]
      exact hheader
  | header => exact confined_bind (confined_modify fun conn => .of_same rfl rfl) fun _ => hdone _
  | start =>
    exact hmove _ (confined_bind (confined_selectSasl config _) fun _ =>
      hmove _ (confined_bind (confined_send _ 0 (by simp [Method.ids, closeOkIds])) fun _ => hdone _))
  | startOk => exact hmove _ (hdone _)
  | tune =>
    exact hmove _ (confined_bind (confined_modify fun conn => .of_same rfl rfl) fun _ =>
      hmove _ (confined_bind (keeps_get .refl) fun _ =>
        confined_bind (confined_send _ 0 (by simp [Method.ids, closeOkIds])) fun _ => hdone _))
  | tuneOk heartbeat =>
    exact hmove _ (hmove _ (confined_bind (confined_send _ 0 (by simp [Method.ids, closeOkIds])) fun _ => hdone _))
  | «open» heartbeat => exact hmove _ (hdone _)
  | openOk heartbeat => exact hmove _ (hdone _)

theorem confined_start (config : ConnectionConfig) (caller : CallId) : Keeps Confined (config.start caller) :=
  confined_bind (keeps_throwIf .refl _ _) fun _ =>
    keeps_ite (fun _ => keeps_pure .refl _) fun _ => confined_advance config caller none .resolving

theorem operates_channelTransition (channel : Int) {f : ChanState.Transition} (h : ∀ s, f s ≠ .ok .open) :
    Keeps Operates (channelTransition channel f) := by
  refine operates_bind (keeps_get .refl) fun _ => operates_bind (keeps_lift .refl _) fun state => ?_
  cases hf : f state with
  | ok s =>
    refine operates_modify fun conn => operates_setChannel conn channel ?_
    rintro rfl
    exact h state hf
  | error reason =>
    exact operates_bind (operates_modify fun conn => operates_setChannel conn channel (by decide)) fun _ =>
      keeps_throw .refl _

theorem operates_startOpenChannel (caller : CallId) (channel : Int) :
    Keeps Operates (startOpenChannel caller channel) := by
  refine operates_bind (keeps_get .refl) fun _ => operates_bind (keeps_throwIf .refl _ _) fun _ =>
    operates_bind (keeps_throwIf .refl _ _) fun _ => operates_bind (operates_modify fun conn => ?_) fun _ =>
      operates_bind (operates_channelTransition channel ?_) fun _ => operates_sendMethod _ channel ?_
  · exact (operates_setChannel conn channel (by decide)).trans (.of_same rfl rfl rfl rfl)
  · intro s
    unfold ChanState.onOpenSent
    split <;> simp
  · simp [Method.ids, closeOkIds]

theorem confined_startClose (caller : CallId) : Keeps Confined (startClose caller) :=
  confined_bind (confined_transition _) fun _ => confined_send _ 0 (by simp [Method.ids, closeOkIds])

theorem operates_cancelReader (conn : Conn) : Operates conn conn.cancelReader := by
  unfold Conn.cancelReader
  split
  · exact .of_same rfl rfl rfl rfl
  · exact .refl conn

@[simp] theorem absorb_conn (c : Client) (tasks : Machine) : (c.absorb tasks).conn = tasks.conn := by
  unfold Client.absorb
  split <;> rfl

@[simp] theorem client_setConn_conn (c : Client) (conn : Conn) : (c.setConn conn).conn = conn :=
  absorb_conn c _

@[simp] theorem setJob_conn (c : Client) (id : CallId) (job : Job) : (c.setJob id job).conn = c.conn := rfl

@[simp] theorem expectJob_conn (c : Client) (id : CallId) (key : WaiterKey) (job : Job) :
    (c.expectJob id key job).conn = c.conn.expect key id := by
  simp [Client.expectJob]

theorem operates_expect (conn : Conn) (key : WaiterKey) (id : CallId) : Operates conn (conn.expect key id) :=
  .of_same rfl rfl rfl rfl

theorem operates_handshake (c : Client) (id : CallId) (result : EStateM.Result Exc Conn (Option Handshake)) :
    Operates (resultState result) (c.handshake id result).conn := by
  unfold Client.handshake
  split
  · simpa using Operates.refl _
  · have hconn (conn : Conn) : ({ (c.setConn conn).setJob id (.ended (.ok ())) with beating := true } : Client).conn =
        conn := client_setConn_conn c conn
    rw [hconn]
    exact .refl _
  · split
    · simpa using Operates.refl _
    · simpa using operates_expect _ _ id

@[simp] theorem looked_conn (c : Client) (id : CallId) (timeout : Bool)
    (look : Option (Option IncomingMessage) × AsyncQueue CallId (Option IncomingMessage)) :
    (c.looked id timeout look).conn = c.conn := by
  obtain ⟨item, q⟩ := look
  cases item <;> rfl

@[simp] theorem lookedReturn_conn (c : Client) (id : CallId) (timeout : Bool)
    (look : Option (Option ReturnedMessage) × AsyncQueue CallId (Option ReturnedMessage)) :
    (c.lookedReturn id timeout look).conn = c.conn := by
  obtain ⟨item, q⟩ := look
  cases item <;> rfl

@[simp] theorem leave_conn (c : Client) (id : CallId) (job : Job) (e : Exc) : (c.leave id job e).conn = c.conn := by
  unfold Client.leave
  split <;> rfl

@[simp] theorem finishClose_conn (c : Client) (id : CallId) (failure : Option Exc) :
    (c.finishClose id failure).conn = c.conn := by
  cases failure <;> rfl

@[simp] theorem closeReader_conn (c : Client) (id : CallId) (failure : Option Exc) :
    (c.closeReader id failure).conn = c.conn.cancelReader := by
  simp [Client.closeReader]

/-- Even a transition that opens its channel leaves the rest of the connection. -/
theorem channelTransition_eq (conn : Conn) (channel : Int) (f : ChanState.Transition) : ∃ channels,
    resultState (channelTransition channel f conn) = { conn with channels } ∧
      KeepsChannels conn { conn with channels } := by
  cases hstate : conn.channels.get? channel with
  | none =>
    simp only [channelTransition, bind_run, get_run, hstate, orRaise_none, lift_error, resultState_error]
    exact ⟨conn.channels, rfl, fun _ hknown => hknown⟩
  | some state =>
    simp only [channelTransition, bind_run, get_run, hstate, orRaise_some, lift_ok]
    cases f state with
    | ok s => exact ⟨_, rfl, keepsChannels_set conn channel s⟩
    | error reason => exact ⟨_, rfl, keepsChannels_set conn channel .error⟩

theorem openReplied_eq (c : Client) (id : CallId) (channel : Int) : ∃ channels,
    (c.openReplied id channel).conn = { c.conn with channels } ∧ KeepsChannels c.conn { c.conn with channels } := by
  obtain ⟨channels, heq, hknown⟩ := channelTransition_eq c.conn channel ChanState.onOpenOk
  refine ⟨channels, ?_, hknown⟩
  unfold Client.openReplied
  split
  · rename_i hrun
    rw [hrun] at heq
    rw [setJob_conn, client_setConn_conn]
    exact heq
  · rename_i hrun
    rw [hrun] at heq
    rw [setJob_conn, client_setConn_conn]
    exact heq

/-- The reply to `open_channel` is taken. -/
def Client.opens (c : Client) : ClientEvent → Bool
  | .wakeJob id =>
    match c.jobs id, c.conn.replies id with
    | some (.openExpecting _), some (.ok _) => true
    | _, _ => false
  | _ => false

/-- The events that may end an open connection: it is lost, or its machine is moved. -/
def Client.ends (c : Client) : ClientEvent → Bool
  | .task e => c.tasks.ends e
  | .connect _ => !c.config.tls
  | .close _ => !c.closed
  | .resumed id failure =>
    match c.jobs id, failure with
    | some (.connecting .header), _ => false
    | some (.connecting _), none => true
    | some (.dropping _), _ => true
    | _, _ => false
  | .wakeJob id =>
    match c.jobs id, c.conn.replies id with
    | some (.connecting _), some (.ok _) => true
    | some (.closing _), _ => true
    | _, _ => false
  | .heartbeat =>
    match writeFrame none ⟨.heartbeat, 0, []⟩ c.conn with
    | .ok _ _ => false
    | .error _ _ => true
  | _ => false

/-- What a step does to the connection, by what the event may do. -/
structure Effect (opens ends : Bool) (conn conn' : Conn) : Prop where
  logs : Logs conn conn'
  known : KeepsChannels conn conn'
  confined : opens = false → Confined conn conn'
  operates : opens = false → ends = false → Operates conn conn'

variable {opens ends : Bool} {conn conn' : Conn}

theorem Operates.effect (h : Operates conn conn') : Effect opens ends conn conn' where
  logs := h.logs
  known := h.known
  confined _ := h.toConfined
  operates _ _ := h

theorem Confined.effect (h : Confined conn conn') (hends : ends = true) : Effect opens ends conn conn' where
  logs := h.logs
  known := h.known
  confined _ := h
  operates _ hfalse := by rw [hends] at hfalse; cases hfalse

theorem handshake_confined (id : CallId) {x : ConnM (Option Handshake)} (h : Keeps Confined x) :
    Confined c.conn (c.handshake id (x c.conn)).conn :=
  (h c.conn).trans (operates_handshake c id _).toConfined

theorem close_effect (id : CallId) : Effect opens (!c.closed) c.conn (c.close id).conn := by
  unfold Client.close
  split
  · simpa using (Operates.refl c.conn).effect
  · rename_i hclosed
    refine Confined.effect ?_ (by simpa using hclosed)
    have hstart := confined_startClose id c.conn
    dsimp only
    split
    · split
      · rename_i hrun
        rw [show startClose id c.conn = _ from hrun] at hstart
        simpa using hstart
      · rename_i hrun
        rw [show startClose id c.conn = _ from hrun] at hstart
        simpa using hstart.trans (operates_cancelReader _).toConfined
    · rw [closeReader_conn]
      exact (operates_cancelReader c.conn).toConfined

theorem closeReplied_confined (id : CallId) (outcome : Except Exc Method) :
    Confined c.conn (c.closeReplied id outcome).conn := by
  have hclosed : Confined c.conn ((c.setConn { c.conn with sm := .closed }).closeReader id none).conn := by
    have hsame : Confined c.conn { c.conn with sm := .closed } := .of_same rfl rfl
    rw [closeReader_conn, client_setConn_conn]
    exact hsame.trans (operates_cancelReader _).toConfined
  unfold Client.closeReplied
  split
  · exact hclosed
  · split
    · exact hclosed
    · simpa using (operates_cancelReader c.conn).toConfined

theorem dropped_confined (id : CallId) : Confined c.conn (c.dropped id).conn := by
  simpa [Client.dropped] using confined_notifyLoss c.conn _

theorem resumed_effect {failure : Option Exc} (h : c.resumed id failure = some c') :
    Effect opens (c.ends (.resumed id failure)) c.conn c'.conn := by
  have hsame : Effect opens (c.ends (.resumed id failure)) c.conn c.conn := (Operates.refl c.conn).effect
  unfold Client.resumed at h
  split at h
  · rename_i step hjob
    obtain ⟨hexpects, ⟨⟩⟩ := Option.ite_none_right_eq_some.mp h
    by_cases hheader : step = .header
    · subst hheader
      have hadvance : Operates c.conn (resultState (c.config.advance id none .header c.conn)) :=
        .of_same rfl rfl rfl rfl
      exact (hadvance.trans (operates_handshake c id _)).effect
    · refine (handshake_confined id (confined_advance c.config id none step)).effect ?_
      cases step <;> simp_all [Client.ends]
  · obtain ⟨hexpects, ⟨⟩⟩ := Option.ite_none_right_eq_some.mp h
    exact hsame
  · cases h
    rw [expectJob_conn]
    exact (operates_expect c.conn _ id).effect
  · cases h
    exact hsame
  · cases h
    exact hsame
  · cases h
    exact hsame
  · cases h
    rw [expectJob_conn]
    exact (operates_expect c.conn _ id).effect
  · cases h
    rw [closeReader_conn]
    exact (operates_cancelReader c.conn).effect
  · cases h
    exact hsame
  · obtain ⟨-, ⟨⟩⟩ := Option.ite_none_right_eq_some.mp h
    exact hsame
  · obtain ⟨-, ⟨⟩⟩ := Option.ite_none_right_eq_some.mp h
    exact hsame
  · cases h
    split
    · simpa using hsame
    · simpa using hsame
  · rename_i hjob
    split at h
    · cases h
      exact hsame
    · split at h
      · cases h
        exact (dropped_confined id).effect (by simp [Client.ends, hjob])
      · cases h
        rw [setJob_conn, client_setConn_conn]
        exact (operates_cancelReader c.conn).effect
  · rename_i hjob
    cases h
    exact (dropped_confined id).effect (by simp [Client.ends, hjob])
  · rename_i hjob
    obtain ⟨-, ⟨⟩⟩ := Option.ite_none_right_eq_some.mp h
    exact (dropped_confined id).effect (by simp [Client.ends, hjob])
  · obtain ⟨-, ⟨⟩⟩ := Option.ite_none_right_eq_some.mp h
    exact hsame
  · cases h

theorem replied_effect {key : WaiterKey} {job : Job} {outcome : Except Exc Method} (hjob : c.jobs id = some job)
    (houtcome : c.conn.replies id = some outcome) (hopens : c.opens (.wakeJob id) = opens) :
    Effect opens (c.ends (.wakeJob id)) c.conn (c.replied id key job outcome).conn := by
  have hforget : Operates c.conn (c.conn.forget key) := .of_same rfl rfl rfl rfl
  have hconn : (c.setConn (c.conn.forget key)).conn = c.conn.forget key := client_setConn_conn c _
  have hplain {d : Client} (hd : d.conn = c.conn.forget key) :
      Effect opens (c.ends (.wakeJob id)) c.conn d.conn := by
    rw [hd]
    exact hforget.effect
  unfold Client.replied
  dsimp only
  split
  · rename_i step reply
    have hends : c.ends (.wakeJob id) = true := by simp [Client.ends, hjob, houtcome]
    refine Confined.effect ?_ hends
    rw [← hconn] at hforget
    exact hforget.toConfined.trans (handshake_confined id (confined_advance _ id (some reply) step))
  · rename_i channel reply
    have htrue : opens = true := by rw [← hopens]; simp [Client.opens, hjob, houtcome]
    obtain ⟨channels, heq, hknown⟩ := openReplied_eq (c.setConn (c.conn.forget key)) id channel
    rw [hconn] at heq hknown
    refine ⟨?_, ?_, fun hfalse => ?_, fun hfalse => ?_⟩
    · rw [heq]
      exact .of_written rfl
    · rw [heq]
      exact hknown
    · rw [htrue] at hfalse
      cases hfalse
    · rw [htrue] at hfalse
      cases hfalse
  · have hends : c.ends (.wakeJob id) = true := by simp [Client.ends, hjob]
    refine Confined.effect ?_ hends
    rw [← hconn] at hforget
    exact hforget.toConfined.trans (closeReplied_confined id outcome)
  · exact hplain hconn
  · exact hplain hconn

theorem wakeJob_effect (h : c.wakeJob id = some c') :
    Effect (c.opens (.wakeJob id)) (c.ends (.wakeJob id)) c.conn c'.conn := by
  have hsame : Effect (c.opens (.wakeJob id)) (c.ends (.wakeJob id)) c.conn c.conn := (Operates.refl c.conn).effect
  unfold Client.wakeJob at h
  split at h
  · obtain ⟨-, ⟨⟩⟩ := Option.ite_none_right_eq_some.mp h
    rw [looked_conn]
    exact hsame
  · obtain ⟨-, ⟨⟩⟩ := Option.ite_none_right_eq_some.mp h
    rw [lookedReturn_conn]
    exact hsame
  · rename_i job hreceiving hreturn hjob
    obtain ⟨key, -, h⟩ := Option.bind_eq_some_iff.mp h
    obtain ⟨outcome, houtcome, rfl⟩ := Option.map_eq_some_iff.mp h
    exact replied_effect hjob houtcome rfl
  · cases h

theorem expire_operates (h : c.expire id = some c') : Operates c.conn c'.conn := by
  unfold Client.expire at h
  split at h
  · obtain ⟨-, ⟨⟩⟩ := Option.ite_none_right_eq_some.mp h
    rw [leave_conn]
    exact .refl _
  · obtain ⟨-, ⟨⟩⟩ := Option.ite_none_right_eq_some.mp h
    rw [leave_conn]
    exact .refl _
  · obtain ⟨-, ⟨⟩⟩ := Option.ite_none_right_eq_some.mp h
    rw [client_setConn_conn]
    exact .of_same rfl rfl rfl rfl
  · cases h

theorem cancelJob_operates (h : c.cancelJob id = some c') : Operates c.conn c'.conn := by
  unfold Client.cancelJob at h
  split at h
  · cases h
    rw [leave_conn]
    exact .refl _
  · cases h
    rw [leave_conn]
    exact .refl _
  · obtain ⟨-, ⟨⟩⟩ := Option.ite_none_right_eq_some.mp h
    rw [client_setConn_conn]
    exact .of_same rfl rfl rfl rfl
  · cases h

theorem beat_effect : Effect opens (c.ends .heartbeat) c.conn c.beat.conn := by
  have hwrite : Operates c.conn (resultState (writeFrame none ⟨.heartbeat, 0, []⟩ c.conn)) :=
    operates_writeFrame none (by decide) c.conn
  unfold Client.beat
  split
  · rename_i hrun
    rw [hrun] at hwrite
    rw [client_setConn_conn]
    exact hwrite.effect
  · rename_i hrun
    rw [hrun] at hwrite
    rw [client_setConn_conn]
    exact (hwrite.toConfined.trans (confined_notifyLoss _ _)).effect (by simp [Client.ends, hrun])

theorem openChannel_operates (id : CallId) (channel : Int) : Operates c.conn (c.openChannel id channel).conn := by
  have hstart := operates_startOpenChannel id channel c.conn
  unfold Client.openChannel
  split
  · rename_i hrun
    rw [hrun] at hstart
    simpa using hstart
  · rename_i hrun
    rw [hrun] at hstart
    simpa using hstart

theorem settle_operates (id : CallId) (op : Settlement) (drain : Bool) :
    Operates c.conn (c.settle id op drain).conn := by
  have hstart := operates_settlement id op c.conn
  unfold Client.settle
  split
  · rename_i hrun
    rw [hrun] at hstart
    simpa using hstart
  · rename_i hrun
    rw [hrun] at hstart
    simpa using hstart

theorem receive_conn (id : CallId) (timeout : Bool) : (c.receive id timeout).conn = c.conn := by
  unfold Client.receive
  split
  · rfl
  · exact looked_conn c id timeout _

theorem receiveReturn_conn (id : CallId) (timeout : Bool) : (c.receiveReturn id timeout).conn = c.conn := by
  unfold Client.receiveReturn
  split
  · rfl
  · exact lookedReturn_conn c id timeout _

theorem step_effect {e : ClientEvent} (h : c.step e = some c') : Effect (c.opens e) (c.ends e) c.conn c'.conn := by
  cases e with
  | task e =>
    obtain ⟨-, h⟩ := Option.ite_none_right_eq_some.mp h
    obtain ⟨tasks, htasks, rfl⟩ := Option.map_eq_some_iff.mp h
    rw [absorb_conn]
    have hconfined := confined_taskStep htasks
    exact ⟨hconfined.logs, hconfined.known, fun _ => hconfined, fun _ hends => operates_taskStep htasks hends⟩
  | connect id =>
    obtain ⟨-, ⟨⟩⟩ := Option.ite_none_right_eq_some.mp h
    cases htls : c.config.tls with
    | false =>
      exact (handshake_confined id (confined_start c.config id)).effect (by simp [Client.ends, htls])
    | true =>
      have hstart : Operates c.conn (resultState (c.config.start id c.conn)) := by
        have hkeeps : Keeps Operates (c.config.start id) := by
          refine operates_bind (keeps_throwIf .refl _ _) fun _ => ?_
          rw [if_pos htls]
          exact keeps_pure .refl _
        exact hkeeps c.conn
      exact (hstart.trans (operates_handshake c id _)).effect
  | openChannel id channel =>
    obtain ⟨-, ⟨⟩⟩ := Option.ite_none_right_eq_some.mp h
    exact (openChannel_operates id channel).effect
  | settle id op drain =>
    obtain ⟨-, ⟨⟩⟩ := Option.ite_none_right_eq_some.mp h
    exact (settle_operates id op drain).effect
  | receive id timeout =>
    obtain ⟨-, ⟨⟩⟩ := Option.ite_none_right_eq_some.mp h
    rw [receive_conn]
    exact (Operates.refl _).effect
  | receiveReturn id timeout =>
    obtain ⟨-, ⟨⟩⟩ := Option.ite_none_right_eq_some.mp h
    rw [receiveReturn_conn]
    exact (Operates.refl _).effect
  | close id =>
    obtain ⟨-, ⟨⟩⟩ := Option.ite_none_right_eq_some.mp h
    exact close_effect id
  | forceDrop id =>
    obtain ⟨-, ⟨⟩⟩ := Option.ite_none_right_eq_some.mp h
    exact (Operates.refl _).effect
  | resumed id failure => exact resumed_effect h
  | wakeJob id => exact wakeJob_effect h
  | expire id => exact (expire_operates h).effect
  | cancelJob id => exact (cancelJob_operates h).effect
  | heartbeat =>
    obtain ⟨-, ⟨⟩⟩ := Option.ite_none_right_eq_some.mp h
    exact beat_effect
  | readerStops =>
    obtain ⟨-, ⟨⟩⟩ := Option.ite_none_right_eq_some.mp h
    rw [client_setConn_conn]
    exact (operates_cancelReader c.conn).effect

end Jobs

end Nuropb.Transport
