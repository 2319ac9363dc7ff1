import Nuropb.Transport.Blocking
import Nuropb.Transport.StepEffects
import Nuropb.Transport.Turns

/-! # What has ended stays ended

No step but those of `connect` starts a read loop or a heartbeat task.
-/
namespace Nuropb.Transport

open Library Protocol

/-- A read loop that has ended stays so. -/
def StaysStopped (conn conn' : Conn) : Prop := conn.reader = .stopped → conn'.reader = .stopped

section Operations

variable {conn conn' : Conn}

theorem StaysStopped.refl (conn : Conn) : StaysStopped conn conn := id

theorem StaysStopped.of_same (h : conn'.reader = conn.reader) : StaysStopped conn conn' := by
  intro hstopped
  rwa [h]

theorem StaysStopped.trans {conn'' : Conn} (h : StaysStopped conn conn') (h' : StaysStopped conn' conn'') :
    StaysStopped conn conn'' :=
  fun hstopped => h' (h hstopped)

theorem stopped_bind {α β : Type} {x : ConnM α} {f : α → ConnM β} (hx : Keeps StaysStopped x)
    (hf : ∀ a, Keeps StaysStopped (f a)) : Keeps StaysStopped (x >>= f) :=
  keeps_bind (fun _ _ _ => .trans) hx hf

theorem stopped_modify {f : Conn → Conn} (h : ∀ conn, (f conn).reader = conn.reader) :
    Keeps StaysStopped (modify f : ConnM Unit) :=
  keeps_modify fun conn => .of_same (h conn)

theorem stopped_reject {α : Type} (reason : String) : Keeps StaysStopped (reject reason : ConnM α) :=
  fun _ => .of_same rfl

theorem stopped_transition (f : ConnState.Transition) : Keeps StaysStopped (transition f) := by
  intro conn
  unfold transition
  split
  · exact .of_same rfl
  · exact stopped_reject _ conn

theorem stopped_writeFrame (caller : Option CallId) (frame : Frame) : Keeps StaysStopped (writeFrame caller frame) :=
  stopped_bind (keeps_get .refl) fun _ => stopped_bind (keeps_lift .refl _) fun _ => stopped_modify fun _ => rfl

theorem stopped_send (caller : Option CallId) (channel : Int) (method : Method) :
    Keeps StaysStopped (sendMethod caller channel method) := by
  intro conn
  cases hframe : frameOf conn.frameMax .method channel (encodeMethod method) with
  | none =>
    obtain ⟨e, he⟩ := writePayload_of_none caller hframe
    rw [sendMethod, he]
    exact .refl conn
  | some frame =>
    rw [sendMethod, writePayload_of_some hframe]
    exact .of_same rfl

theorem stopped_selectSasl (config : ConnectionConfig) (mechanisms : Text) :
    Keeps StaysStopped (config.selectSasl mechanisms) :=
  keeps_ite (fun _ => keeps_pure .refl _) fun _ =>
    keeps_ite (fun _ => stopped_reject _) fun _ =>
      stopped_bind (keeps_lift .refl _) fun _ => stopped_bind (keeps_lift .refl _) fun _ => keeps_pure .refl _

theorem stopped_advance (config : ConnectionConfig) (caller : CallId) (reply : Option Method) {step : Handshake}
    (h : step ≠ .header) : Keeps StaysStopped (config.advance caller reply step) := by
  have hdone (next : Option Handshake) : Keeps StaysStopped (pure next : ConnM (Option Handshake)) :=
    keeps_pure .refl next
  have hmove (f : ConnState.Transition) {x : ConnM (Option Handshake)} (hx : Keeps StaysStopped x) :
      Keeps StaysStopped (do transition f
                             x) :=
    stopped_bind (stopped_transition f) fun _ => hx
  cases step with
  | resolving => exact hmove _ (hdone _)
  | opening =>
    have hheader := hmove ConnState.allowAmqpHeader (hdone (some .header))
    cases htls : config.tls with
    | true =>
      simp only [ConnectionConfig.advance, htls, if_true]
      exact hmove _ hheader
    | false =>
      simp only [ConnectionConfig.advance, htls]
      exact hheader
  | header => exact absurd rfl h
  | start =>
    exact hmove _ (stopped_bind (stopped_selectSasl config _) fun _ =>
      hmove _ (stopped_bind (stopped_send _ 0 _) fun _ => hdone _))
  | startOk => exact hmove _ (hdone _)
  | tune =>
    exact hmove _ (stopped_bind (stopped_modify fun conn => rfl) fun _ =>
      hmove _ (stopped_bind (keeps_get .refl) fun _ => stopped_bind (stopped_send _ 0 _) fun _ => hdone _))
  | tuneOk heartbeat => exact hmove _ (hmove _ (stopped_bind (stopped_send _ 0 _) fun _ => hdone _))
  | «open» heartbeat => exact hmove _ (hdone _)
  | openOk heartbeat => exact hmove _ (hdone _)

theorem stopped_start (config : ConnectionConfig) (caller : CallId) : Keeps StaysStopped (config.start caller) :=
  stopped_bind (keeps_throwIf .refl _ _) fun _ =>
    keeps_ite (fun _ => keeps_pure .refl _) fun _ => stopped_advance config caller none (by simp)

theorem stopped_channelTransition (channel : Int) (f : ChanState.Transition) :
    Keeps StaysStopped (channelTransition channel f) := by
  intro conn
  obtain ⟨channels, heq, -⟩ := channelTransition_eq conn channel f
  rw [heq]
  exact .of_same rfl

theorem stopped_startOpenChannel (caller : CallId) (channel : Int) :
    Keeps StaysStopped (startOpenChannel caller channel) :=
  stopped_bind (keeps_get .refl) fun _ => stopped_bind (keeps_throwIf .refl _ _) fun _ =>
    stopped_bind (keeps_throwIf .refl _ _) fun _ => stopped_bind (stopped_modify fun _ => rfl) fun _ =>
      stopped_bind (stopped_channelTransition channel _) fun _ => stopped_send _ channel _

theorem stopped_startClose (caller : CallId) : Keeps StaysStopped (startClose caller) :=
  stopped_bind (stopped_transition _) fun _ => stopped_send _ 0 _

theorem stopped_settlement (caller : CallId) (op : Settlement) : Keeps StaysStopped (op.start caller) := by
  refine stopped_bind ?_ fun _ => stopped_send _ _ _
  intro conn
  cases hcheck : assertOpenForOps op.channel conn with
  | error e conn' =>
    obtain ⟨channels, confirm, rfl, -⟩ := (assertOpenForOps_raises hcheck).2
    exact .of_same rfl
  | ok u conn' =>
    obtain ⟨-, rfl⟩ := assertOpenForOps_returns.mp hcheck
    exact .refl conn'

theorem stopped_cancelReader (conn : Conn) : StaysStopped conn conn.cancelReader := by
  unfold Conn.cancelReader
  split
  · exact fun _ => rfl
  · exact .refl conn

theorem stopped_taskStep {m m' : Machine} {e : Event} (h : m.step e = some m') : StaysStopped m.conn m'.conn := by
  by_cases hframe : ∃ f, e = .frame f
  · obtain ⟨f, rfl⟩ := hframe
    obtain ⟨hrunning, ⟨⟩⟩ := Option.ite_none_right_eq_some.mp h
    intro hstopped
    rw [hrunning] at hstopped
    cases hstopped
  · exact (continues_step (fun f hf => hframe ⟨f, hf⟩) h).conn.stopped

end Operations

/-! ## Steps -/

/-- No read loop and no heartbeat task has come. -/
structure Lulls (c c' : Client) : Prop where
  reader : StaysStopped c.conn c'.conn
  beating : c.beating = false → c'.beating = false

/-- `connect` creates the task of the read loop, or that of the heartbeat. -/
def Client.startsTask (c : Client) : ClientEvent → Bool
  | .resumed id failure =>
    match c.jobs id, failure with
    | some (.connecting .header), none => true
    | _, _ => false
  | .wakeJob id =>
    match c.jobs id, c.conn.replies id with
    | some (.connecting (.openOk _)), some (.ok _) => true
    | _, _ => false
  | _ => false

section Steps

variable {c c' c'' : Client} {id : CallId}

theorem Lulls.trans (h : Lulls c c') (h' : Lulls c' c'') : Lulls c c'' :=
  ⟨h.reader.trans h'.reader, fun hbeating => h'.beating (h.beating hbeating)⟩

theorem absorb_beating (c : Client) (tasks : Machine) : (c.absorb tasks).beating = c.beating := by
  unfold Client.absorb
  split <;> rfl

theorem lulls_setConn {conn : Conn} (h : StaysStopped c.conn conn) : Lulls c (c.setConn conn) where
  reader := by rwa [client_setConn_conn]
  beating hbeating := by rwa [Client.setConn, absorb_beating]

theorem setJob_jobs (c : Client) (id : CallId) (job : Job) : (c.setJob id job).jobs id = some job := if_pos rfl

/-- The job stands in the line of a queue. -/
def Job.receives : Job → Bool
  | .receiving _ | .receivingReturn _ => true
  | _ => false

/-- The end of its time completes the future of a job, which goes on in a step of its own. -/
theorem jobs_expire {job : Job} (hjob : c.jobs id = some job) (hreceives : job.receives = false)
    (h : c.expire id = some c') : c'.jobs = c.jobs := by
  cases job with
  | receiving timeout | receivingReturn timeout => cases hreceives
  | _ =>
    simp only [Client.expire, hjob] at h
    obtain ⟨-, ⟨⟩⟩ := Option.ite_none_right_eq_some.mp h
    exact absorb_jobs c _

theorem jobs_cancelJob {job : Job} (hjob : c.jobs id = some job) (hreceives : job.receives = false)
    (h : c.cancelJob id = some c') : c'.jobs = c.jobs := by
  cases job with
  | receiving timeout | receivingReturn timeout => cases hreceives
  | _ =>
    simp only [Client.cancelJob, hjob] at h
    obtain ⟨-, ⟨⟩⟩ := Option.ite_none_right_eq_some.mp h
    exact absorb_jobs c _

theorem lulls_setJob (c : Client) (id : CallId) (job : Job) : Lulls c (c.setJob id job) := ⟨.refl _, fun h => h⟩

theorem lulls_go {conn : Conn} (h : StaysStopped c.conn conn) (id : CallId) (job : Job) :
    Lulls c ((c.setConn conn).setJob id job) :=
  (lulls_setConn h).trans (lulls_setJob _ id job)

theorem lulls_expectJob (c : Client) (id : CallId) (key : WaiterKey) (job : Job) :
    Lulls c (c.expectJob id key job) := by
  have hexpect : StaysStopped c.conn (c.conn.expect key id) := .of_same rfl
  exact lulls_go hexpect id job

theorem lulls_handshake {result : EStateM.Result Exc Conn (Option Handshake)}
    (h : StaysStopped c.conn (resultState result)) (hends : ∀ conn, result ≠ .ok none conn) (id : CallId) :
    Lulls c (c.handshake id result) := by
  unfold Client.handshake
  split
  · exact lulls_go h id _
  · exact absurd rfl (hends _)
  · split
    · exact lulls_go h id _
    · exact (lulls_setConn h).trans (lulls_expectJob _ id _ _)

theorem lulls_openChannel (c : Client) (id : CallId) (channel : Int) : Lulls c (c.openChannel id channel) := by
  have hstart := stopped_startOpenChannel id channel c.conn
  unfold Client.openChannel
  split
  · rename_i hrun
    rw [hrun] at hstart
    exact lulls_go hstart id _
  · rename_i hrun
    rw [hrun] at hstart
    exact lulls_go hstart id _

theorem lulls_openReplied (c : Client) (id : CallId) (channel : Int) : Lulls c (c.openReplied id channel) := by
  have hmove := stopped_channelTransition channel ChanState.onOpenOk c.conn
  unfold Client.openReplied
  split
  · rename_i hrun
    rw [hrun] at hmove
    exact lulls_go hmove id _
  · rename_i hrun
    rw [hrun] at hmove
    exact lulls_go hmove id _

theorem lulls_settle (c : Client) (id : CallId) (op : Settlement) (drain : Bool) : Lulls c (c.settle id op drain) := by
  have hstart := stopped_settlement id op c.conn
  unfold Client.settle
  split
  · rename_i hrun
    rw [hrun] at hstart
    exact lulls_go hstart id _
  · rename_i hrun
    rw [hrun] at hstart
    exact lulls_go hstart id _

theorem lulls_looked (c : Client) (id : CallId) (timeout : Bool)
    (look : Option (Option IncomingMessage) × AsyncQueue CallId (Option IncomingMessage)) :
    Lulls c (c.looked id timeout look) := by
  obtain ⟨item, deliveries⟩ := look
  cases item <;> exact ⟨.refl _, fun h => h⟩

theorem lulls_lookedReturn (c : Client) (id : CallId) (timeout : Bool)
    (look : Option (Option ReturnedMessage) × AsyncQueue CallId (Option ReturnedMessage)) :
    Lulls c (c.lookedReturn id timeout look) := by
  obtain ⟨item, returns⟩ := look
  cases item <;> exact ⟨.refl _, fun h => h⟩

theorem lulls_finishClose (c : Client) (id : CallId) (failure : Option Exc) : Lulls c (c.finishClose id failure) := by
  cases failure <;> exact ⟨.refl _, fun h => h⟩

theorem lulls_closeReader (c : Client) (id : CallId) (failure : Option Exc) : Lulls c (c.closeReader id failure) :=
  lulls_go (stopped_cancelReader c.conn) id _

theorem lulls_close (c : Client) (id : CallId) : Lulls c (c.close id) := by
  unfold Client.close
  split
  · exact lulls_finishClose c id none
  · have hclosed : Lulls c { c with closed := true, beating := false } := ⟨.refl _, fun _ => rfl⟩
    have hstart := stopped_startClose id c.conn
    dsimp only
    split
    · split
      · rename_i hrun
        rw [show startClose id c.conn = _ from hrun] at hstart
        exact hclosed.trans (lulls_go (c := { c with closed := true, beating := false }) hstart id _)
      · rename_i hrun
        rw [show startClose id c.conn = _ from hrun] at hstart
        have hsent := lulls_setConn (c := { c with closed := true, beating := false }) hstart
        exact (hclosed.trans hsent).trans (lulls_closeReader _ id _)
    · exact hclosed.trans (lulls_closeReader _ id none)

theorem lulls_closeReplied (c : Client) (id : CallId) (outcome : Except Exc Method) :
    Lulls c (c.closeReplied id outcome) := by
  have hsm : StaysStopped c.conn { c.conn with sm := .closed } := .of_same rfl
  have hconfirmed : Lulls c ((c.setConn { c.conn with sm := .closed }).closeReader id none) :=
    (lulls_setConn hsm).trans (lulls_closeReader _ id none)
  unfold Client.closeReplied
  split
  · exact hconfirmed
  · split
    · exact hconfirmed
    · exact lulls_closeReader c id _

theorem lulls_dropped (c : Client) (id : CallId) : Lulls c (c.dropped id) :=
  lulls_go (undisturbed_notifyLoss c.conn _).stopped id _

theorem lulls_beat (c : Client) : Lulls c c.beat := by
  have hwrite := stopped_writeFrame none ⟨.heartbeat, 0, []⟩ c.conn
  unfold Client.beat
  split
  · rename_i hrun
    rw [hrun] at hwrite
    exact lulls_setConn hwrite
  · rename_i hrun
    rw [hrun] at hwrite
    exact lulls_setConn (StaysStopped.trans hwrite (undisturbed_notifyLoss _ _).stopped)

/-- A segment of `connect` that is not the last one. -/
def GoesOn (x : ConnM (Option Handshake)) : Prop := ∀ conn conn', x conn ≠ .ok none conn'

theorem goesOn_pure (step : Handshake) : GoesOn (pure (some step)) := by
  rintro conn conn' ⟨⟩

theorem goesOn_bind {α : Type} {x : ConnM α} {f : α → ConnM (Option Handshake)} (hf : ∀ a, GoesOn (f a)) :
    GoesOn (x >>= f) := by
  intro conn conn' hrun
  obtain ⟨a, mid, -, hrest⟩ := bind_returns.mp hrun
  exact hf a mid conn' hrest

theorem goesOn_advance (config : ConnectionConfig) (caller : CallId) (reply : Option Method) {step : Handshake}
    (h : ∀ heartbeat, step ≠ .openOk heartbeat) : GoesOn (config.advance caller reply step) := by
  cases step with
  | openOk heartbeat => exact absurd rfl (h heartbeat)
  | opening =>
    have hheader : GoesOn (do transition ConnState.allowAmqpHeader
                              return some .header) := goesOn_bind fun _ => goesOn_pure _
    cases htls : config.tls with
    | true =>
      simp only [ConnectionConfig.advance, htls, if_true]
      exact goesOn_bind fun _ => hheader
    | false =>
      simp only [ConnectionConfig.advance, htls]
      exact hheader
  | resolving | header | startOk | «open» => exact goesOn_bind fun _ => goesOn_pure _
  | start =>
    exact goesOn_bind fun _ => goesOn_bind fun _ => goesOn_bind fun _ => goesOn_bind fun _ => goesOn_pure _
  | tune =>
    exact goesOn_bind fun _ => goesOn_bind fun _ => goesOn_bind fun _ => goesOn_bind fun _ =>
      goesOn_bind fun _ => goesOn_pure _
  | tuneOk heartbeat => exact goesOn_bind fun _ => goesOn_bind fun _ => goesOn_bind fun _ => goesOn_pure _

theorem goesOn_start (config : ConnectionConfig) (caller : CallId) : GoesOn (config.start caller) := by
  refine goesOn_bind fun _ => ?_
  split
  · exact goesOn_pure _
  · exact goesOn_advance config caller none (by simp)

theorem lulls_resumed {failure : Option Exc} (h : c.resumed id failure = some c')
    (hstarts : c.startsTask (.resumed id failure) = false) : Lulls c c' := by
  have hjob (job : Job) : Lulls c (c.setJob id job) := lulls_setJob c id job
  unfold Client.resumed at h
  split at h
  · rename_i step hstep
    obtain ⟨hexpects, ⟨⟩⟩ := Option.ite_none_right_eq_some.mp h
    have hheader : step ≠ .header := by
      rintro rfl
      simp [Client.startsTask, hstep] at hstarts
    refine lulls_handshake (stopped_advance c.config id none hheader c.conn) (goesOn_advance c.config id none ?_ c.conn) id
    rintro heartbeat rfl
    cases hexpects
  · obtain ⟨-, ⟨⟩⟩ := Option.ite_none_right_eq_some.mp h
    exact hjob _
  · cases h
    exact lulls_expectJob c id _ _
  · cases h
    exact hjob _
  · cases h
    exact hjob _
  · cases h
    exact hjob _
  · cases h
    exact lulls_expectJob c id _ _
  · cases h
    exact lulls_closeReader c id _
  · cases h
    exact hjob _
  · obtain ⟨-, ⟨⟩⟩ := Option.ite_none_right_eq_some.mp h
    exact hjob _
  · obtain ⟨-, ⟨⟩⟩ := Option.ite_none_right_eq_some.mp h
    exact hjob _
  · cases h
    split
    · exact lulls_finishClose c id _
    · exact lulls_finishClose c id _
  · split at h
    · cases h
      exact hjob _
    · split at h
      · cases h
        exact lulls_dropped c id
      · cases h
        exact lulls_go (stopped_cancelReader c.conn) id _
  · cases h
    exact lulls_dropped c id
  · obtain ⟨-, ⟨⟩⟩ := Option.ite_none_right_eq_some.mp h
    exact lulls_dropped c id
  · obtain ⟨-, ⟨⟩⟩ := Option.ite_none_right_eq_some.mp h
    exact hjob _
  · cases h

theorem lulls_wakeJob (h : c.wakeJob id = some c') (hstarts : c.startsTask (.wakeJob id) = false) : Lulls c c' := by
  unfold Client.wakeJob at h
  split at h
  · obtain ⟨-, ⟨⟩⟩ := Option.ite_none_right_eq_some.mp h
    exact lulls_looked c id _ _
  · obtain ⟨-, ⟨⟩⟩ := Option.ite_none_right_eq_some.mp h
    exact lulls_lookedReturn c id _ _
  · rename_i job hreceiving hreturn hjob
    obtain ⟨key, hkey, h⟩ := Option.bind_eq_some_iff.mp h
    obtain ⟨outcome, houtcome, rfl⟩ := Option.map_eq_some_iff.mp h
    have hwait : StaysStopped c.conn (c.conn.forget key) := .of_same rfl
    have hforget : Lulls c (c.setConn (c.conn.forget key)) := lulls_setConn hwait
    unfold Client.replied
    dsimp only
    split
    · rename_i step reply _
      have hheader : step ≠ .header := by
        rintro rfl
        cases hkey
      refine hforget.trans (lulls_handshake (stopped_advance _ id _ hheader _) (goesOn_advance _ id _ ?_ _) id)
      rintro heartbeat rfl
      simp [Client.startsTask, hjob, houtcome] at hstarts
    · exact hforget.trans (lulls_openReplied _ id _)
    · exact hforget.trans (lulls_closeReplied _ id _)
    · exact hforget
    · exact hforget.trans (lulls_setJob _ id _)
  · cases h

theorem lulls_leave (c : Client) (id : CallId) (job : Job) (e : Exc) : Lulls c (c.leave id job e) := by
  unfold Client.leave
  split <;> exact ⟨.refl _, fun h => h⟩

theorem lulls_settleReply (c : Client) (id : CallId) (outcome : Except Exc Method) :
    Lulls c (c.setConn (c.conn.settleReply id outcome)) := by
  have hsettle : StaysStopped c.conn (c.conn.settleReply id outcome) := .of_same rfl
  exact lulls_setConn hsettle

theorem lulls_step {e : ClientEvent} (h : c.step e = some c') (hstarts : c.startsTask e = false) : Lulls c c' := by
  cases e with
  | task e =>
    obtain ⟨-, h⟩ := Option.ite_none_right_eq_some.mp h
    obtain ⟨tasks, htasks, rfl⟩ := Option.map_eq_some_iff.mp h
    refine ⟨?_, fun hbeating => ?_⟩
    · rw [absorb_conn]
      exact stopped_taskStep htasks
    · rwa [absorb_beating]
  | connect id =>
    obtain ⟨-, ⟨⟩⟩ := Option.ite_none_right_eq_some.mp h
    exact lulls_handshake (stopped_start c.config id c.conn) (goesOn_start c.config id c.conn) id
  | openChannel id channel =>
    obtain ⟨-, ⟨⟩⟩ := Option.ite_none_right_eq_some.mp h
    exact lulls_openChannel c id channel
  | settle id op drain =>
    obtain ⟨-, ⟨⟩⟩ := Option.ite_none_right_eq_some.mp h
    exact lulls_settle c id op drain
  | receive id timeout =>
    obtain ⟨-, ⟨⟩⟩ := Option.ite_none_right_eq_some.mp h
    unfold Client.receive
    split
    · exact lulls_setJob c id _
    · exact lulls_looked c id timeout _
  | receiveReturn id timeout =>
    obtain ⟨-, ⟨⟩⟩ := Option.ite_none_right_eq_some.mp h
    unfold Client.receiveReturn
    split
    · exact lulls_setJob c id _
    · exact lulls_lookedReturn c id timeout _
  | close id =>
    obtain ⟨-, ⟨⟩⟩ := Option.ite_none_right_eq_some.mp h
    exact lulls_close c id
  | forceDrop id =>
    obtain ⟨-, ⟨⟩⟩ := Option.ite_none_right_eq_some.mp h
    exact ⟨.refl _, fun _ => rfl⟩
  | resumed id failure => exact lulls_resumed h hstarts
  | wakeJob id => exact lulls_wakeJob h hstarts
  | expire id =>
    simp only [Client.step, Client.expire] at h
    split at h
    · obtain ⟨-, ⟨⟩⟩ := Option.ite_none_right_eq_some.mp h
      exact lulls_leave c id _ _
    · obtain ⟨-, ⟨⟩⟩ := Option.ite_none_right_eq_some.mp h
      exact lulls_leave c id _ _
    · obtain ⟨-, ⟨⟩⟩ := Option.ite_none_right_eq_some.mp h
      exact lulls_settleReply c id _
    · cases h
  | cancelJob id =>
    simp only [Client.step, Client.cancelJob] at h
    split at h
    · cases h
      exact lulls_leave c id _ _
    · cases h
      exact lulls_leave c id _ _
    · obtain ⟨-, ⟨⟩⟩ := Option.ite_none_right_eq_some.mp h
      exact lulls_settleReply c id _
    · cases h
  | heartbeat =>
    obtain ⟨-, ⟨⟩⟩ := Option.ite_none_right_eq_some.mp h
    exact lulls_beat c
  | readerStops =>
    obtain ⟨-, ⟨⟩⟩ := Option.ite_none_right_eq_some.mp h
    exact lulls_setConn (stopped_cancelReader c.conn)

end Steps

end Nuropb.Transport
