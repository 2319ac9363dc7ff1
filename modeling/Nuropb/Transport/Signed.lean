import Nuropb.Transport.Shutdown

/-! # Who writes what

A step of a connection writes in the name of the call that runs in it, or of nobody. What is delivered
carries a tag of eight octets, with which it can be acked.
-/
namespace Nuropb.Transport

open Library Protocol

/-- The tag has eight octets. -/
def TagFits (msg : IncomingMessage) : Prop := msg.deliveryTag < 2 ^ 64

/-- What is being delivered has a tag of eight octets. -/
def SlotFits (slot : Slot) : Prop := ∀ args, slot.method = .deliver args → args.deliveryTag < 2 ^ 64

/-- All that was or is being delivered has. -/
structure Tagged (conn : Conn) : Prop where
  slots : ∀ channel slot, conn.pendingContent.get? channel = some slot → SlotFits slot
  delivered : ∀ msg ∈ conn.deliveries, TagFits msg

/-- The log has grown by frames of nobody or of the call. -/
def Signed (own : Option CallId) (conn conn' : Conn) : Prop :=
  ∃ more, conn'.written = conn.written ++ more ∧ ∀ x ∈ more, x.caller = none ∨ x.caller = own

structure Writes (own : Option CallId) (conn conn' : Conn) : Prop where
  signed : Signed own conn conn'
  tagged : Tagged conn → Tagged conn'

section Connections

variable {own : Option CallId} {conn conn' conn'' : Conn}

theorem Writes.of_same (hwritten : conn'.written = conn.written) (hslots : conn'.pendingContent = conn.pendingContent)
    (hdelivered : conn'.deliveries = conn.deliveries) : Writes own conn conn' where
  signed := ⟨[], by rw [hwritten, List.append_nil], by simp⟩
  tagged h := by
    constructor
    · rw [hslots]
      exact h.slots
    · rw [hdelivered]
      exact h.delivered

theorem Writes.refl (conn : Conn) : Writes own conn conn := .of_same rfl rfl rfl

theorem Signed.trans (h : Signed own conn conn') (h' : Signed own conn' conn'') : Signed own conn conn'' := by
  obtain ⟨more, hwritten, hmore⟩ := h
  obtain ⟨more', hwritten', hmore'⟩ := h'
  refine ⟨more ++ more', by rw [hwritten', hwritten, List.append_assoc], fun x hx => ?_⟩
  rcases List.mem_append.mp hx with hx | hx
  · exact hmore x hx
  · exact hmore' x hx

theorem Writes.trans (h : Writes own conn conn') (h' : Writes own conn' conn'') : Writes own conn conn'' :=
  ⟨h.signed.trans h'.signed, h'.tagged ∘ h.tagged⟩

theorem writes_append (conn : Conn) (own : Option CallId) (frames : List Frame) :
    Writes own conn (conn.append own frames) where
  signed := by
    refine ⟨frames.map (Sent.mk own), rfl, fun x hx => ?_⟩
    obtain ⟨frame, -, rfl⟩ := List.mem_map.mp hx
    exact .inr rfl
  tagged h := ⟨h.slots, h.delivered⟩

theorem Writes.of_none (h : Writes none conn conn') : Writes own conn conn' where
  signed := by
    obtain ⟨more, hwritten, hmore⟩ := h.signed
    exact ⟨more, hwritten, fun x hx => .inl ((hmore x hx).elim id id)⟩
  tagged := h.tagged

theorem writes_bind {α β : Type} {x : ConnM α} {f : α → ConnM β} (hx : Keeps (Writes own) x)
    (hf : ∀ a, Keeps (Writes own) (f a)) : Keeps (Writes own) (x >>= f) :=
  keeps_bind (fun _ _ _ => .trans) hx hf

theorem writes_modify {f : Conn → Conn} (hwritten : ∀ conn, (f conn).written = conn.written)
    (hslots : ∀ conn, (f conn).pendingContent = conn.pendingContent)
    (hdelivered : ∀ conn, (f conn).deliveries = conn.deliveries) : Keeps (Writes own) (modify f : ConnM Unit) :=
  keeps_modify fun conn => .of_same (hwritten conn) (hslots conn) (hdelivered conn)

theorem writes_reject {α : Type} (reason : String) : Keeps (Writes own) (reject reason : ConnM α) :=
  fun _ => .of_same rfl rfl rfl

theorem writes_transition (f : ConnState.Transition) : Keeps (Writes own) (transition f) := by
  intro conn
  unfold transition
  split
  · exact .of_same rfl rfl rfl
  · exact writes_reject _ conn

theorem writes_writeFrame (own : Option CallId) (frame : Frame) : Keeps (Writes own) (writeFrame own frame) :=
  writes_bind (keeps_get .refl) fun _ => writes_bind (keeps_lift .refl _) fun _ =>
    keeps_modify fun conn => writes_append conn own [frame]

theorem writes_send (own : Option CallId) (channel : Int) (method : Method) :
    Keeps (Writes own) (sendMethod own channel method) :=
  writes_bind (keeps_lift .refl _) fun _ => writes_writeFrame own _

theorem writes_refused (h : conn.Refused conn') : Writes own conn conn' := by
  obtain ⟨channels, confirm, rfl, -⟩ := h
  exact .of_same rfl rfl rfl

theorem writes_notifyLoss (conn : Conn) (exc : Exc) : Writes own conn (conn.notifyLoss exc) := by
  unfold Conn.notifyLoss
  split <;> exact .of_same rfl rfl rfl

theorem writes_endReader (conn : Conn) (exc : Exc) : Writes own conn (conn.endReader exc) :=
  (writes_notifyLoss conn exc).trans (.of_same rfl rfl rfl)

theorem writes_cancelReader (conn : Conn) : Writes own conn conn.cancelReader := by
  unfold Conn.cancelReader
  split
  · exact .of_same rfl rfl rfl
  · exact .refl conn

/-! ### The read loop -/

theorem field_lt (payload : Bytes) (offset width : Nat) : field payload offset width < 256 ^ width := by
  refine (ofBE_lt _).trans_le (Nat.pow_le_pow_right (by decide) ?_)
  simp [slice]

theorem deliver_fits {payload : Bytes} {args : BasicDeliverArgs} (h : decodeMethod payload = .ok (.basicDeliver args)) :
    args.deliveryTag < 2 ^ 64 := by
  unfold decodeMethod at h
  simp only [bind_eq_ok, pure_eq_ok] at h
  obtain ⟨-, -, h⟩ := h
  split at h
  -- Only the branch of `basic.deliver` returns one.
  all_goals simp only [bind_eq_ok, reduceCtorEq, Prod.exists, and_false, exists_false, Except.ok.injEq] at h
  obtain ⟨_, offset, -, _, -, _, _, -, _, _, -, heq⟩ := h
  cases heq
  exact field_lt payload offset 8

theorem slotFits_of_reached {f : Frame} {slot : Slot} (hconn : Tagged conn) (h : SlotReached conn f slot) :
    SlotFits slot := by
  cases h with
  | delivered htype hmethod =>
    rintro args ⟨⟩
    exact deliver_fits hmethod
  | returned htype hmethod =>
    intro args hdeliver
    cases hdeliver
  | header htype hheader hslot =>
    intro args hdeliver
    exact hconn.slots _ _ hslot args hdeliver
  | body htype hslot hremaining hle =>
    intro args hdeliver
    exact hconn.slots _ _ hslot args hdeliver

theorem tagged_setSlot (hconn : Tagged conn) {slot : Slot} (hslot : SlotFits slot) (channel : Int) :
    Tagged (conn.setSlot channel slot) where
  slots other found hfound := by
    rw [Conn.setSlot, Dict.get?_set] at hfound
    split at hfound
    · cases hfound
      exact hslot
    · exact hconn.slots other found hfound
  delivered := hconn.delivered

theorem tagged_finishDelivery (hconn : Tagged conn) {slot : Slot} (hslot : SlotFits slot) (channel : Int) :
    Tagged (conn.finishDelivery channel slot) := by
  have herased : Tagged { conn with pendingContent := conn.pendingContent.erase channel } :=
    ⟨fun other found hfound => hconn.slots other found (Dict.get?_of_get?_erase hfound).2, hconn.delivered⟩
  unfold Conn.finishDelivery
  split
  · rename_i args _
    obtain ⟨mandatoryTags, returnByTag, returns, heq⟩ := Conn.finishReturn_eq
      { conn with pendingContent := conn.pendingContent.erase channel } channel args slot.body slot.properties
    dsimp only
    rw [heq]
    exact ⟨herased.slots, herased.delivered⟩
  · rename_i args hdeliver
    refine ⟨herased.slots, fun msg hmsg => ?_⟩
    rcases List.mem_append.mp hmsg with hmsg | hmsg
    · exact hconn.delivered msg hmsg
    · cases List.mem_singleton.mp hmsg
      exact hslot args hdeliver

theorem writes_readFrame (conn : Conn) (f : Frame) : Writes own conn (conn.readFrame f) := by
  have htaken := readFrame_taken conn f
  generalize conn.readFrame f = conn' at htaken ⊢
  cases htaken with
  | heartbeat htype => exact .refl conn
  | confirmed htype hmethod hconfirm henabled =>
    obtain ⟨mandatoryTags, heq⟩ := conn.clearMandatoryTags_eq f.channel _ _
    rw [heq]
    exact .of_same rfl rfl rfl
  | replied htype hmethod hhandled hconfirm =>
    obtain ⟨replies, heq⟩ := conn.settleWaiter_eq f.channel _
    rw [heq]
    exact .of_same rfl rfl rfl
  | blocked publishBlocked htype hmethod hhandled => exact .of_same rfl rfl rfl
  | closing htype hmethod hframe =>
    exact (writes_append conn none [_]).of_none.trans (.of_same rfl rfl rfl)
  | continued hslot hremaining =>
    exact ⟨⟨[], by simp [Conn.setSlot], by simp⟩, fun h => tagged_setSlot h (slotFits_of_reached h hslot) _⟩
  | finished hslot hremaining =>
    refine ⟨⟨[], ?_, by simp⟩, fun h => tagged_finishDelivery h (slotFits_of_reached h hslot) _⟩
    obtain ⟨mandatoryTags, returnByTag, returns, deliveries, heq⟩ := conn.finishDelivery_eq f.channel _
    rw [heq, List.append_nil]
  | ended hhandled => exact writes_endReader conn _

end Connections

/-! ## Tasks -/

section Tasks

variable {own : Option CallId} {m m' : Machine} {id : CallId}

theorem writes_start (caller : CallId) (r : SyncRequest) (conn : Conn) :
    Writes (some caller) conn (resultState (r.start caller conn)) := by
  have hreached := SyncRequest.start_reached caller r conn
  generalize r.start caller conn = result at hreached ⊢
  cases hreached with
  | refused hrefused => exact writes_refused hrefused
  | immediate hselect hrefused => exact writes_refused hrefused
  | asked hrefused hframe => exact (writes_refused hrefused).trans (writes_append _ (some caller) [_])

theorem writes_finish (r : SyncRequest) (reply : Method) (conn : Conn) :
    Writes own conn (resultState (r.finish reply conn)) := by
  obtain ⟨confirm, heq⟩ := finish_eq r reply conn
  rw [heq]
  exact .of_same rfl rfl rfl

theorem writes_beforeContent (conn : Conn) (caller : CallId) (args : PublishArgs) (confirmed : Bool)
    (frames : List Frame) : Writes (some caller) conn ((conn.beforeContent caller args confirmed).append caller frames) := by
  obtain ⟨confirm, mandatoryTags, heq⟩ := beforeContent_eq conn caller args confirmed
  have hbefore : Writes (some caller) conn (conn.beforeContent caller args confirmed) := by
    rw [heq]
    exact .of_same rfl rfl rfl
  exact hbefore.trans (writes_append _ (some caller) frames)

theorem writes_segment (caller : CallId) (args : PublishArgs) (entry : PublishEntry) (conn : Conn) :
    Writes (some caller) conn (resultState (publishSegment caller args entry conn)) := by
  have hreached := publishSegment_reached caller args entry conn
  generalize publishSegment caller args entry conn = result at hreached ⊢
  cases hreached with
  | refused hrefused => exact writes_refused hrefused
  | selecting hentry hprops hframe =>
    have hset : Writes (some caller) conn (conn.setTracker args.channel (conn.trackerOf args.channel)) :=
      .of_same rfl rfl rfl
    exact hset.trans (writes_append _ (some caller) [_])
  | written hcontent hframes => exact writes_beforeContent conn caller args _ _
  | broken hcontent hframes => exact writes_beforeContent conn caller args _ _

theorem writes_popReturn (conn : Conn) (channel : Int) (tag : Nat) : Writes own conn (conn.popReturn channel tag).2 := by
  unfold Conn.popReturn
  split
  · exact .refl conn
  · exact .of_same rfl rfl rfl

theorem writes_afterDrain (m : Machine) (id : CallId) (args : PublishArgs) (tag : Option Nat) :
    Writes own m.conn (m.afterDrain id args tag).conn := by
  cases tag with
  | none => exact .refl _
  | some t =>
    rw [Machine.afterDrain, Machine.awaitConfirm]
    split
    · exact .refl _
    · exact .refl _
    · rw [Machine.finishConfirm]
      split
      · have hpop : Writes own m.conn (m.conn.popReturn args.channel t).2 := writes_popReturn _ _ _
        split
        · rename_i heq
          rw [heq] at hpop
          exact hpop
        · rename_i heq
          rw [heq] at hpop
          exact hpop
      · exact .refl _

theorem writes_publishReached (m : Machine) (id : CallId) (args : PublishArgs)
    (result : EStateM.Result Exc Conn PublishStep) :
    Writes own (resultState result) (m.publishReached id args result).conn := by
  cases result with
  | error e conn => exact .refl _
  | ok reached conn =>
    cases reached with
    | selecting props => exact .refl _
    | written tag =>
      rw [Machine.publishReached]
      split
      · exact .refl _
      · exact writes_afterDrain (m.setConn conn) id args tag

theorem writes_requestReached (m : Machine) (id : CallId) (r : SyncRequest) (result : EStateM.Result Exc Conn Bool) :
    Writes own (resultState result) (m.requestReached id r result).conn := by
  unfold Machine.requestReached
  split <;> exact .refl _

theorem writes_answered (m : Machine) (id : CallId) (r : SyncRequest) (next : Option (PublishArgs × Properties))
    (reply : Method) : Writes (some id) m.conn (m.answered id r next reply).conn := by
  have hfinish : Writes (some id) m.conn (resultState (r.finish reply m.conn)) := writes_finish r reply m.conn
  unfold Machine.answered
  split
  · rename_i hrun
    rw [hrun] at hfinish
    exact hfinish
  · rename_i conn hrun
    rw [hrun] at hfinish
    cases next with
    | none => exact hfinish
    | some content =>
      exact hfinish.trans ((writes_segment id content.1 (.afterSelect content.2) conn).trans
        (writes_publishReached _ id content.1 _))

theorem writes_wake (h : m.wake id = some m') : Writes (some id) m.conn m'.conn := by
  unfold Machine.wake at h
  split at h
  · rename_i r next hcall
    obtain ⟨outcome, -, rfl⟩ := Option.map_eq_some_iff.mp h
    have hforget : Writes (some id) m.conn (m.forgetWaiter r.key).conn := .of_same rfl rfl rfl
    cases outcome with
    | ok reply => exact hforget.trans (writes_answered _ id r next reply)
    | error e => exact hforget
  · rename_i args tag hcall
    obtain ⟨-, ⟨⟩⟩ := Option.ite_none_right_eq_some.mp h
    exact writes_afterDrain m id args (some tag)
  · cases h

theorem writes_drained {failure : Option Interrupt} (h : m.drained id failure = some m') :
    Writes own m.conn m'.conn := by
  unfold Machine.drained at h
  split at h
  · cases h
    exact .of_same rfl rfl rfl
  · cases h
    exact .refl _
  · cases h
    exact writes_afterDrain m id _ _
  · cases h
    exact .refl _
  · cases h

theorem writes_taskStep {e : Event} (h : m.step e = some m') : Writes e.subject m.conn m'.conn := by
  cases e with
  | request id r =>
    obtain ⟨-, ⟨⟩⟩ := Option.ite_none_right_eq_some.mp h
    exact (writes_start id r m.conn).trans (writes_requestReached m id r _)
  | publish id args =>
    obtain ⟨-, ⟨⟩⟩ := Option.ite_none_right_eq_some.mp h
    exact (writes_segment id args .call m.conn).trans (writes_publishReached m id args _)
  | drained id failure => exact writes_drained h
  | wake id => exact writes_wake h
  | deadline id =>
    have hdeadline : m.deadline id = some m' := h
    unfold Machine.deadline at hdeadline
    split at hdeadline
    · cases hdeadline
      exact .of_same rfl rfl rfl
    · cases hdeadline
  | cancel id =>
    have hcancel : m.cancel id = some m' := h
    unfold Machine.cancel at hcancel
    split at hcancel
    · cases hcancel
      exact .of_same rfl rfl rfl
    · cases hcancel
      exact .of_same rfl rfl rfl
    · cases hcancel
  | frame f =>
    obtain ⟨-, ⟨⟩⟩ := Option.ite_none_right_eq_some.mp h
    exact writes_readFrame m.conn f
  | closeDrained =>
    simp only [Machine.step] at h
    split at h
    · cases h
      exact writes_endReader m.conn _
    · cases h
  | eof =>
    obtain ⟨-, ⟨⟩⟩ := Option.ite_none_right_eq_some.mp h
    exact writes_endReader m.conn _
  | lose exc =>
    cases h
    exact writes_notifyLoss m.conn exc

end Tasks

/-! ## Jobs -/

/-- What a client holds for its receivers has tags of eight octets. -/
structure Client.Tagged (c : Client) : Prop where
  conn : Transport.Tagged c.conn
  queued : ∀ msg, some msg ∈ c.deliveries.items → TagFits msg

/-- A step in which the call runs. -/
structure Carries (own : Option CallId) (c c' : Client) : Prop where
  signed : Signed own c.conn c'.conn
  tagged : c.Tagged → c'.Tagged

section Jobs

variable {own : Option CallId} {c c' c'' : Client} {id : CallId}

theorem Carries.trans (h : Carries own c c') (h' : Carries own c' c'') : Carries own c c'' :=
  ⟨h.signed.trans h'.signed, h'.tagged ∘ h.tagged⟩

/-- The connection is as it was, and nothing has come to the queue. -/
theorem Carries.of_conn (hconn : c'.conn = c.conn)
    (hqueued : ∀ msg, some msg ∈ c'.deliveries.items → some msg ∈ c.deliveries.items) : Carries own c c' where
  signed := by
    rw [hconn]
    exact (Writes.refl c.conn).signed
  tagged h := ⟨by rw [hconn]; exact h.conn, fun msg hmsg => h.queued msg (hqueued msg hmsg)⟩

theorem Carries.refl (c : Client) : Carries own c c := .of_conn rfl fun _ hmsg => hmsg

theorem carries_setJob (c : Client) (id : CallId) (job : Job) : Carries own c (c.setJob id job) :=
  .of_conn rfl fun _ hmsg => hmsg

theorem items_absorb (c : Client) (tasks : Machine) {msg : IncomingMessage}
    (h : some msg ∈ (c.absorb tasks).deliveries.items) :
    some msg ∈ c.deliveries.items ∨ msg ∈ tasks.conn.deliveries := by
  unfold Client.absorb at h
  have hput : some msg ∈ c.deliveries.items ++ (tasks.conn.deliveries.drop c.conn.deliveries.length).map some := by
    rw [← AsyncQueue.items_foldl_put]
    dsimp only at h
    split at h
    · rw [AsyncQueue.items_put] at h
      simpa using h
    · exact h
  rcases List.mem_append.mp hput with hmsg | hmsg
  · exact .inl hmsg
  · obtain ⟨other, hother, heq⟩ := List.mem_map.mp hmsg
    cases heq
    exact .inr (List.mem_of_mem_drop hother)

theorem carries_absorb {tasks : Machine} (h : Writes own c.conn tasks.conn) : Carries own c (c.absorb tasks) where
  signed := by
    rw [absorb_conn]
    exact h.signed
  tagged hc := by
    have hconn := h.tagged hc.conn
    refine ⟨by rwa [absorb_conn], fun msg hmsg => ?_⟩
    rcases items_absorb c tasks hmsg with hmsg | hmsg
    · exact hc.queued msg hmsg
    · exact hconn.delivered msg hmsg

theorem carries_setConn {conn : Conn} (h : Writes own c.conn conn) : Carries own c (c.setConn conn) :=
  carries_absorb h

theorem carries_go {conn : Conn} (h : Writes own c.conn conn) (id : CallId) (job : Job) :
    Carries own c ((c.setConn conn).setJob id job) :=
  (carries_setConn h).trans (carries_setJob _ id job)

theorem carries_expectJob (c : Client) (id : CallId) (key : WaiterKey) (job : Job) :
    Carries own c (c.expectJob id key job) := by
  have hexpect : Writes own c.conn (c.conn.expect key id) := .of_same rfl rfl rfl
  exact carries_go hexpect id job

theorem carries_handshake {result : EStateM.Result Exc Conn (Option Handshake)}
    (h : Writes own c.conn (resultState result)) (id : CallId) : Carries own c (c.handshake id result) := by
  unfold Client.handshake
  split
  · exact carries_go h id _
  · exact (carries_go h id (.ended (.ok ()))).trans (.of_conn rfl fun _ hmsg => hmsg)
  · split
    · exact carries_go h id _
    · exact (carries_setConn h).trans (carries_expectJob _ id _ _)

theorem writes_selectSasl (config : ConnectionConfig) (mechanisms : Text) :
    Keeps (Writes own) (config.selectSasl mechanisms) :=
  keeps_ite (fun _ => keeps_pure .refl _) fun _ =>
    keeps_ite (fun _ => writes_reject _) fun _ =>
      writes_bind (keeps_lift .refl _) fun _ => writes_bind (keeps_lift .refl _) fun _ => keeps_pure .refl _

theorem writes_advance (config : ConnectionConfig) (caller : CallId) (reply : Option Method) (step : Handshake) :
    Keeps (Writes (some caller)) (config.advance caller reply step) := by
  have hdone (next : Option Handshake) : Keeps (Writes (some caller)) (pure next : ConnM (Option Handshake)) :=
    keeps_pure .refl next
  have hmove (f : ConnState.Transition) {x : ConnM (Option Handshake)} (hx : Keeps (Writes (some caller)) x) :
      Keeps (Writes (some caller)) (do transition f
                                       x) :=
    writes_bind (writes_transition f) fun _ => hx
  have hsend (channel : Int) (method : Method) : Keeps (Writes (some caller)) (sendMethod caller channel method) :=
    writes_send (some caller) channel method
  cases step with
  | resolving => exact hmove _ (hdone _)
  | opening =>
    have hheader := hmove ConnState.allowAmqpHeader (hdone (some .header))
    cases htls : config.tls with
    | true =>
      simp only [ConnectionConfig.advance, htls, if_true]
      exact hmove _ hheader
    | false =>
      simp only [ConnectionConfig.advance, htls]
      exact hheader
  | header =>
    exact writes_bind (writes_modify (fun _ => rfl) (fun _ => rfl) fun _ => rfl) fun _ => hdone _
  | start =>
    exact hmove _ (writes_bind (writes_selectSasl config _) fun _ => hmove _ (writes_bind (hsend 0 _) fun _ => hdone _))
  | startOk => exact hmove _ (hdone _)
  | tune =>
    exact hmove _ (writes_bind (writes_modify (fun _ => rfl) (fun _ => rfl) fun _ => rfl) fun _ =>
      hmove _ (writes_bind (keeps_get .refl) fun _ => writes_bind (hsend 0 _) fun _ => hdone _))
  | tuneOk heartbeat => exact hmove _ (hmove _ (writes_bind (hsend 0 _) fun _ => hdone _))
  | «open» heartbeat => exact hmove _ (hdone _)
  | openOk heartbeat => exact hmove _ (hdone _)

theorem writes_startConnect (config : ConnectionConfig) (caller : CallId) :
    Keeps (Writes (some caller)) (config.start caller) :=
  writes_bind (keeps_throwIf .refl _ _) fun _ =>
    keeps_ite (fun _ => keeps_pure .refl _) fun _ => writes_advance config caller none _

theorem writes_channelTransition (channel : Int) (f : ChanState.Transition) :
    Keeps (Writes own) (channelTransition channel f) := by
  intro conn
  obtain ⟨channels, heq, -⟩ := channelTransition_eq conn channel f
  rw [heq]
  exact .of_same rfl rfl rfl

theorem writes_startOpenChannel (caller : CallId) (channel : Int) :
    Keeps (Writes (some caller)) (startOpenChannel caller channel) :=
  writes_bind (keeps_get .refl) fun _ => writes_bind (keeps_throwIf .refl _ _) fun _ =>
    writes_bind (keeps_throwIf .refl _ _) fun _ =>
      writes_bind (writes_modify (fun _ => rfl) (fun _ => rfl) fun _ => rfl) fun _ =>
        writes_bind (writes_channelTransition channel _) fun _ => writes_send (some caller) channel _

theorem writes_startClose (caller : CallId) : Keeps (Writes (some caller)) (startClose caller) :=
  writes_bind (writes_transition _) fun _ => writes_send (some caller) 0 _

theorem writes_settlement (caller : CallId) (op : Settlement) : Keeps (Writes (some caller)) (op.start caller) := by
  refine writes_bind ?_ fun _ => writes_send (some caller) _ _
  intro conn
  cases hcheck : assertOpenForOps op.channel conn with
  | error e conn' => exact writes_refused (assertOpenForOps_raises hcheck).2
  | ok u conn' =>
    obtain ⟨-, rfl⟩ := assertOpenForOps_returns.mp hcheck
    exact .refl conn'

theorem carries_openChannel (c : Client) (id : CallId) (channel : Int) :
    Carries (some id) c (c.openChannel id channel) := by
  have hstart := writes_startOpenChannel id channel c.conn
  unfold Client.openChannel
  split
  · rename_i hrun
    rw [hrun] at hstart
    exact carries_go hstart id _
  · rename_i hrun
    rw [hrun] at hstart
    exact carries_go hstart id _

theorem carries_openReplied (c : Client) (id : CallId) (channel : Int) : Carries own c (c.openReplied id channel) := by
  obtain ⟨channels, heq, -⟩ := channelTransition_eq c.conn channel ChanState.onOpenOk
  have hmove : Writes own c.conn (resultState (channelTransition channel ChanState.onOpenOk c.conn)) :=
    writes_channelTransition channel _ c.conn
  unfold Client.openReplied
  split
  · rename_i hrun
    rw [hrun] at hmove
    exact carries_go hmove id _
  · rename_i hrun
    rw [hrun] at hmove
    exact carries_go hmove id _

theorem carries_settle (c : Client) (id : CallId) (op : Settlement) (drain : Bool) :
    Carries (some id) c (c.settle id op drain) := by
  have hstart := writes_settlement id op c.conn
  unfold Client.settle
  split
  · rename_i hrun
    rw [hrun] at hstart
    exact carries_go hstart id _
  · rename_i hrun
    rw [hrun] at hstart
    exact carries_go hstart id _

theorem carries_looked (c : Client) (id : CallId) (timeout : Bool)
    {look : Option (Option IncomingMessage) × AsyncQueue CallId (Option IncomingMessage)}
    (h : ∀ item ∈ look.2.items, item ∈ c.deliveries.items) : Carries own c (c.looked id timeout look) := by
  obtain ⟨item, deliveries⟩ := look
  cases item <;> exact .of_conn rfl fun _ hmsg => h _ hmsg

theorem mem_of_mem_get {q : AsyncQueue CallId (Option IncomingMessage)} {item : Option IncomingMessage}
    (h : item ∈ (q.get id).2.items) : item ∈ q.items := by
  rw [q.items_get id]
  exact List.mem_append_right _ h

theorem mem_of_mem_resume {q : AsyncQueue CallId (Option IncomingMessage)} {item : Option IncomingMessage}
    (h : item ∈ (q.resume id).2.items) : item ∈ q.items := by
  rw [q.items_resume id]
  exact List.mem_append_right _ h

theorem carries_lookedReturn (c : Client) (id : CallId) (timeout : Bool)
    (look : Option (Option ReturnedMessage) × AsyncQueue CallId (Option ReturnedMessage)) :
    Carries own c (c.lookedReturn id timeout look) := by
  obtain ⟨item, returns⟩ := look
  cases item <;> exact .of_conn rfl fun _ hmsg => hmsg

theorem carries_finishClose (c : Client) (id : CallId) (failure : Option Exc) :
    Carries own c (c.finishClose id failure) := by
  cases failure <;> exact .of_conn rfl fun _ hmsg => hmsg

theorem carries_closeReader (c : Client) (id : CallId) (failure : Option Exc) :
    Carries own c (c.closeReader id failure) :=
  carries_go (writes_cancelReader c.conn) id _

theorem carries_close (c : Client) (id : CallId) : Carries (some id) c (c.close id) := by
  unfold Client.close
  split
  · exact carries_finishClose c id none
  · have hclosed : Carries (some id) c { c with closed := true, beating := false } := .of_conn rfl fun _ hmsg => hmsg
    have hstart := writes_startClose id c.conn
    dsimp only
    split
    · split
      · rename_i hrun
        rw [show startClose id c.conn = _ from hrun] at hstart
        exact hclosed.trans (carries_go (c := { c with closed := true, beating := false }) hstart id _)
      · rename_i hrun
        rw [show startClose id c.conn = _ from hrun] at hstart
        have hsent := carries_setConn (c := { c with closed := true, beating := false }) hstart
        exact (hclosed.trans hsent).trans (carries_closeReader _ id _)
    · exact hclosed.trans (carries_closeReader _ id none)

theorem carries_closeReplied (c : Client) (id : CallId) (outcome : Except Exc Method) :
    Carries own c (c.closeReplied id outcome) := by
  have hsm : Writes own c.conn { c.conn with sm := .closed } := .of_same rfl rfl rfl
  have hconfirmed : Carries own c ((c.setConn { c.conn with sm := .closed }).closeReader id none) :=
    (carries_setConn hsm).trans (carries_closeReader _ id none)
  unfold Client.closeReplied
  split
  · exact hconfirmed
  · split
    · exact hconfirmed
    · exact carries_closeReader c id _

theorem carries_dropped (c : Client) (id : CallId) : Carries own c (c.dropped id) :=
  carries_go (writes_notifyLoss c.conn _) id _

theorem carries_resumed {failure : Option Exc} (h : c.resumed id failure = some c') : Carries (some id) c c' := by
  have hjob (job : Job) : Carries (some id) c (c.setJob id job) := carries_setJob c id job
  unfold Client.resumed at h
  split at h
  · rename_i step hstep
    obtain ⟨-, ⟨⟩⟩ := Option.ite_none_right_eq_some.mp h
    exact carries_handshake (writes_advance c.config id none step c.conn) id
  · obtain ⟨-, ⟨⟩⟩ := Option.ite_none_right_eq_some.mp h
    exact hjob _
  · cases h
    exact carries_expectJob c id _ _
  · cases h
    exact hjob _
  · cases h
    exact hjob _
  · cases h
    exact hjob _
  · cases h
    exact carries_expectJob c id _ _
  · cases h
    exact carries_closeReader c id _
  · cases h
    exact hjob _
  · obtain ⟨-, ⟨⟩⟩ := Option.ite_none_right_eq_some.mp h
    exact hjob _
  · obtain ⟨-, ⟨⟩⟩ := Option.ite_none_right_eq_some.mp h
    exact hjob _
  · cases h
    split
    · exact carries_finishClose c id _
    · exact carries_finishClose c id _
  · split at h
    · cases h
      exact hjob _
    · split at h
      · cases h
        exact carries_dropped c id
      · cases h
        exact carries_go (writes_cancelReader c.conn) id _
  · cases h
    exact carries_dropped c id
  · obtain ⟨-, ⟨⟩⟩ := Option.ite_none_right_eq_some.mp h
    exact carries_dropped c id
  · obtain ⟨-, ⟨⟩⟩ := Option.ite_none_right_eq_some.mp h
    exact hjob _
  · cases h

theorem carries_wakeJob (h : c.wakeJob id = some c') : Carries (some id) c c' := by
  unfold Client.wakeJob at h
  split at h
  · obtain ⟨-, ⟨⟩⟩ := Option.ite_none_right_eq_some.mp h
    exact carries_looked c id _ fun item hitem => mem_of_mem_resume hitem
  · obtain ⟨-, ⟨⟩⟩ := Option.ite_none_right_eq_some.mp h
    exact carries_lookedReturn c id _ _
  · rename_i job hreceiving hreturn hjob
    obtain ⟨key, hkey, h⟩ := Option.bind_eq_some_iff.mp h
    obtain ⟨outcome, houtcome, rfl⟩ := Option.map_eq_some_iff.mp h
    have hwait : Writes (some id) c.conn (c.conn.forget key) := .of_same rfl rfl rfl
    have hforget : Carries (some id) c (c.setConn (c.conn.forget key)) := carries_setConn hwait
    unfold Client.replied
    dsimp only
    split
    · rename_i step reply _
      exact hforget.trans (carries_handshake (writes_advance _ id _ step _) id)
    · exact hforget.trans (carries_openReplied _ id _)
    · exact hforget.trans (carries_closeReplied _ id _)
    · exact hforget
    · exact hforget.trans (carries_setJob _ id _)
  · cases h

theorem carries_leave (c : Client) (id : CallId) (job : Job) (e : Exc) : Carries own c (c.leave id job e) := by
  unfold Client.leave
  split
  · refine .of_conn rfl fun msg hmsg => ?_
    have hcancel : some msg ∈ (c.deliveries.cancel id).items := hmsg
    rwa [AsyncQueue.items_cancel] at hcancel
  · exact .of_conn rfl fun _ hmsg => hmsg
  · exact .refl c

theorem carries_settleReply (c : Client) (id : CallId) (outcome : Except Exc Method) :
    Carries own c (c.setConn (c.conn.settleReply id outcome)) := by
  have hsettle : Writes own c.conn (c.conn.settleReply id outcome) := .of_same rfl rfl rfl
  exact carries_setConn hsettle

theorem carries_beat (c : Client) : Carries none c c.beat := by
  have hwrite := writes_writeFrame none ⟨.heartbeat, 0, []⟩ c.conn
  unfold Client.beat
  split
  · rename_i hrun
    rw [hrun] at hwrite
    exact carries_setConn hwrite
  · rename_i hrun
    rw [hrun] at hwrite
    exact carries_setConn (Writes.trans hwrite (writes_notifyLoss _ _))

theorem carries_step {e : ClientEvent} (h : c.step e = some c') : Carries e.subject c c' := by
  cases e with
  | task e =>
    obtain ⟨-, h⟩ := Option.ite_none_right_eq_some.mp h
    obtain ⟨tasks, htasks, rfl⟩ := Option.map_eq_some_iff.mp h
    exact carries_absorb (writes_taskStep htasks)
  | connect id =>
    obtain ⟨-, ⟨⟩⟩ := Option.ite_none_right_eq_some.mp h
    exact carries_handshake (writes_startConnect c.config id c.conn) id
  | openChannel id channel =>
    obtain ⟨-, ⟨⟩⟩ := Option.ite_none_right_eq_some.mp h
    exact carries_openChannel c id channel
  | settle id op drain =>
    obtain ⟨-, ⟨⟩⟩ := Option.ite_none_right_eq_some.mp h
    exact carries_settle c id op drain
  | receive id timeout =>
    obtain ⟨-, ⟨⟩⟩ := Option.ite_none_right_eq_some.mp h
    unfold Client.receive
    split
    · exact carries_setJob c id _
    · exact carries_looked c id timeout fun item hitem => mem_of_mem_get hitem
  | receiveReturn id timeout =>
    obtain ⟨-, ⟨⟩⟩ := Option.ite_none_right_eq_some.mp h
    unfold Client.receiveReturn
    split
    · exact carries_setJob c id _
    · exact carries_lookedReturn c id timeout _
  | close id =>
    obtain ⟨-, ⟨⟩⟩ := Option.ite_none_right_eq_some.mp h
    exact carries_close c id
  | forceDrop id =>
    obtain ⟨-, ⟨⟩⟩ := Option.ite_none_right_eq_some.mp h
    exact .of_conn rfl fun _ hmsg => hmsg
  | resumed id failure => exact carries_resumed h
  | wakeJob id => exact carries_wakeJob h
  | expire id =>
    simp only [Client.step, Client.expire] at h
    split at h
    · obtain ⟨-, ⟨⟩⟩ := Option.ite_none_right_eq_some.mp h
      exact carries_leave c id _ _
    · obtain ⟨-, ⟨⟩⟩ := Option.ite_none_right_eq_some.mp h
      exact carries_leave c id _ _
    · obtain ⟨-, ⟨⟩⟩ := Option.ite_none_right_eq_some.mp h
      exact carries_settleReply c id _
    · cases h
  | cancelJob id =>
    simp only [Client.step, Client.cancelJob] at h
    split at h
    · cases h
      exact carries_leave c id _ _
    · cases h
      exact carries_leave c id _ _
    · obtain ⟨-, ⟨⟩⟩ := Option.ite_none_right_eq_some.mp h
      exact carries_settleReply c id _
    · cases h
  | heartbeat =>
    obtain ⟨-, ⟨⟩⟩ := Option.ite_none_right_eq_some.mp h
    exact carries_beat c
  | readerStops =>
    obtain ⟨-, ⟨⟩⟩ := Option.ite_none_right_eq_some.mp h
    exact carries_setConn (writes_cancelReader c.conn)

end Jobs

end Nuropb.Transport
