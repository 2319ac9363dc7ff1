import Nuropb.Transport.ConfirmSoundness

/-! # Publishing while the broker blocks it

`connection.blocked` is looked at once, when `basic_publish` is called. A publish that first has to wait
for its `confirm.select` does not look again.
-/
namespace Nuropb.Transport

open Library Protocol

/-! ## Notifications -/

/-- What a frame says of publishing: that it is blocked, or that it is not any more. -/
def notification (f : Frame) : Option Bool :=
  if f.frameType = .method then
    match decodeMethod f.payload with
    | .ok (.connectionBlocked _) => some true
    | .ok .connectionUnblocked => some false
    | _ => none
  else none

/-- The last notification among the frames was `connection.blocked`. -/
def blockedBy (received : List Frame) : Bool :=
  received.foldl (fun blocked f => (notification f).getD blocked) false

theorem blockedBy_snoc (received : List Frame) (f : Frame) :
    blockedBy (received ++ [f]) = (notification f).getD (blockedBy received) := by
  simp [blockedBy]

/-- The flag is as it was. -/
def SameBlocked (conn conn' : Conn) : Prop := conn'.publishBlocked = conn.publishBlocked

theorem SameBlocked.refl (conn : Conn) : SameBlocked conn conn := rfl

/-- The log has grown, and not by a `basic.publish`. -/
def NoPublish (conn conn' : Conn) : Prop :=
  ∃ more, conn'.written = conn.written ++ more ∧ ∀ s ∈ more, s.frame.methodIds ≠ some (60, 40)

section Frames

variable {conn conn' : Conn}

theorem sameBlocked_notifyLoss (conn : Conn) (exc : Exc) : SameBlocked conn (conn.notifyLoss exc) := by
  unfold Conn.notifyLoss
  split <;> rfl

theorem sameBlocked_finishDelivery (conn : Conn) (channel : Int) (slot : Slot) :
    SameBlocked conn (conn.finishDelivery channel slot) := by
  obtain ⟨mandatoryTags, returnByTag, returns, deliveries, heq⟩ := conn.finishDelivery_eq channel slot
  rw [heq]
  rfl

theorem sameBlocked_settleWaiter (conn : Conn) (channel : Int) (method : Method) :
    SameBlocked conn (conn.settleWaiter channel method) := by
  obtain ⟨replies, heq⟩ := conn.settleWaiter_eq channel method
  rw [heq]
  rfl

theorem sameBlocked_bind {α β : Type} {x : ConnM α} {g : α → ConnM β} (hx : Keeps SameBlocked x)
    (hg : ∀ a, Keeps SameBlocked (g a)) : Keeps SameBlocked (x >>= g) :=
  keeps_bind (fun _ _ _ h h' => h'.trans h) hx hg

theorem sameBlocked_reject {α : Type} (reason : String) : Keeps SameBlocked (reject reason : ConnM α) :=
  sameBlocked_bind (keeps_modify fun _ => rfl) fun _ => keeps_throw .refl _

theorem sameBlocked_confirm (channel : Int) (method : Method) (deliveryTag : Nat) (multiple : Bool)
    (outcome : Except Exc Unit) : Keeps SameBlocked (processConfirm channel method deliveryTag multiple outcome) := by
  refine keeps_modify fun conn => ?_
  split
  · obtain ⟨mandatoryTags, heq⟩ := conn.clearMandatoryTags_eq channel deliveryTag multiple
    rw [heq]
    rfl
  · exact sameBlocked_settleWaiter conn channel method

theorem sameBlocked_answerClose : Keeps SameBlocked answerClose := by
  intro conn
  unfold answerClose sendMethod
  cases hframe : frameOf conn.frameMax .method 0 (encodeMethod .connectionCloseOk) with
  | none =>
    obtain ⟨e, he⟩ := writePayload_of_none none hframe
    rw [he]
    exact sameBlocked_reject _ conn
  | some frame =>
    rw [writePayload_of_some hframe]
    rfl

theorem sameBlocked_content (f : Frame) (h : f.frameType = .header ∨ f.frameType = .body) :
    Keeps SameBlocked (processFrame f) := by
  have hset (channel : Int) (slot : Slot) : Keeps SameBlocked (modify fun conn => conn.setSlot channel slot : ConnM Unit) :=
    keeps_modify fun _ => rfl
  have hfinish (channel : Int) (slot : Slot) :
      Keeps SameBlocked (modify fun conn => conn.finishDelivery channel slot : ConnM Unit) :=
    keeps_modify fun conn => sameBlocked_finishDelivery conn channel slot
  unfold processFrame
  rcases h with htype | htype
  · rw [htype]
    refine sameBlocked_bind (keeps_lift .refl _) fun header => sameBlocked_bind (keeps_get .refl) fun conn => ?_
    split
    · exact sameBlocked_reject _
    · exact keeps_ite (fun _ => hfinish _ _) fun _ => hset _ _
  · rw [htype]
    refine sameBlocked_bind (keeps_get .refl) fun conn => ?_
    split
    · exact sameBlocked_reject _
    · exact keeps_ite (fun _ => sameBlocked_reject _) fun _ => keeps_ite (fun _ => hfinish _ _) fun _ => hset _ _

theorem blocked_processMethod (conn : Conn) (channel : Int) (payload : Bytes) :
    (resultState (processMethod channel payload conn)).publishBlocked =
      (notification ⟨.method, channel, payload⟩).getD conn.publishBlocked := by
  have hnotification : notification ⟨.method, channel, payload⟩ = match decodeMethod payload with
      | .ok (.connectionBlocked _) => some true
      | .ok .connectionUnblocked => some false
      | _ => none := rfl
  rw [hnotification]
  unfold processMethod
  cases hmethod : decodeMethod payload with
  | error e => rfl
  | ok method =>
    rw [bind_run_ok (lift_ok _ _)]
    cases method with
    | connectionSecure challenge => exact sameBlocked_reject _ conn
    | connectionBlocked reason => rfl
    | connectionUnblocked => rfl
    | basicDeliver args => rfl
    | basicReturn args => rfl
    | basicAck deliveryTag multiple => exact sameBlocked_confirm _ _ _ _ _ conn
    | basicNack deliveryTag multiple requeue => exact sameBlocked_confirm _ _ _ _ _ conn
    | connectionClose args => exact sameBlocked_answerClose conn
    | _ => exact sameBlocked_settleWaiter conn _ _

theorem blocked_readFrame (conn : Conn) (f : Frame) :
    (conn.readFrame f).publishBlocked = (notification f).getD conn.publishBlocked := by
  have hprocess : (resultState (processFrame f conn)).publishBlocked = (notification f).getD conn.publishBlocked := by
    obtain ⟨frameType, channel, payload⟩ := f
    cases frameType with
    | method => exact blocked_processMethod conn channel payload
    | header => exact sameBlocked_content _ (.inl rfl) conn
    | body => exact sameBlocked_content _ (.inr rfl) conn
    | heartbeat => rfl
  unfold Conn.readFrame
  split
  · rename_i hrun
    rwa [hrun] at hprocess
  · rename_i e conn' hrun
    rw [hrun] at hprocess
    exact (sameBlocked_notifyLoss conn' e).trans hprocess

theorem noPublish_of_same (h : conn'.written = conn.written) : NoPublish conn conn' :=
  ⟨[], by rw [h, List.append_nil], by simp⟩

theorem noPublish_append (conn : Conn) (caller : Option CallId) {frame : Frame}
    (h : frame.methodIds ≠ some (60, 40)) : NoPublish conn (conn.append caller [frame]) :=
  ⟨[⟨caller, frame⟩], rfl, by simpa using h⟩

theorem NoPublish.trans {conn'' : Conn} (h : NoPublish conn conn') (h' : NoPublish conn' conn'') :
    NoPublish conn conn'' := by
  obtain ⟨more, hwritten, hmore⟩ := h
  obtain ⟨more', hwritten', hmore'⟩ := h'
  refine ⟨more ++ more', by rw [hwritten', hwritten, List.append_assoc], fun s hs => ?_⟩
  rcases List.mem_append.mp hs with hs | hs
  · exact hmore s hs
  · exact hmore' s hs

theorem noPublish_notifyLoss (conn : Conn) (exc : Exc) : NoPublish conn (conn.notifyLoss exc) := by
  unfold Conn.notifyLoss
  split <;> exact noPublish_of_same rfl

theorem noPublish_readFrame (conn : Conn) (f : Frame) : NoPublish conn (conn.readFrame f) := by
  have htaken := readFrame_taken conn f
  generalize conn.readFrame f = conn' at htaken ⊢
  cases htaken with
  | heartbeat htype => exact noPublish_of_same rfl
  | confirmed htype hmethod hconfirm henabled =>
    obtain ⟨mandatoryTags, heq⟩ := conn.clearMandatoryTags_eq f.channel _ _
    rw [heq]
    exact noPublish_of_same rfl
  | replied htype hmethod hhandled hconfirm =>
    obtain ⟨replies, heq⟩ := conn.settleWaiter_eq f.channel _
    rw [heq]
    exact noPublish_of_same rfl
  | blocked publishBlocked htype hmethod hhandled => exact noPublish_of_same rfl
  | closing htype hmethod hframe =>
    have hids := (methodIds_of_frameOf hframe).2
    exact (noPublish_append conn none (by simp [hids, Method.ids])).trans (noPublish_of_same rfl)
  | continued hslot hremaining => exact noPublish_of_same rfl
  | finished hslot hremaining =>
    obtain ⟨mandatoryTags, returnByTag, returns, deliveries, heq⟩ := conn.finishDelivery_eq f.channel _
    rw [heq]
    exact noPublish_of_same rfl
  | ended hhandled => exact (noPublish_notifyLoss conn _).trans (noPublish_of_same rfl)

end Frames

/-! ## Tasks -/

/-- A request on behalf of a publish is `confirm.select` on the channel of the publish. -/
def Phase.Selects (phase : Phase) : Prop :=
  ∀ r args props, phase.request = some r → phase.next = some (args, props) → r = .confirmSelect args.channel

/-- The flag is as it was, and a read loop that has ended stays so. -/
structure Undisturbed (conn conn' : Conn) : Prop where
  blocked : SameBlocked conn conn'
  stopped : conn.reader = .stopped → conn'.reader = .stopped

theorem Undisturbed.of_same {conn conn' : Conn} (hblocked : conn'.publishBlocked = conn.publishBlocked)
    (hreader : conn'.reader = conn.reader) : Undisturbed conn conn' where
  blocked := hblocked
  stopped hstopped := by rwa [hreader]

theorem Undisturbed.refl (conn : Conn) : Undisturbed conn conn := .of_same rfl rfl

theorem Undisturbed.trans {conn conn' conn'' : Conn} (h : Undisturbed conn conn') (h' : Undisturbed conn' conn'') :
    Undisturbed conn conn'' :=
  ⟨h'.blocked.trans h.blocked, h'.stopped ∘ h.stopped⟩

theorem undisturbed_notifyLoss (conn : Conn) (exc : Exc) : Undisturbed conn (conn.notifyLoss exc) := by
  refine ⟨sameBlocked_notifyLoss conn exc, ?_⟩
  unfold Conn.notifyLoss
  split <;> exact id

/-- A task goes on without a frame being read. When the step is quiet, it publishes nothing. -/
structure Continues (quiet : Prop) (m m' : Machine) : Prop where
  received : m'.received = m.received
  conn : Undisturbed m.conn m'.conn
  silent : quiet → NoPublish m.conn m'.conn
  selects : (∀ id phase, m.calls id = some phase → phase.Selects) →
    ∀ id phase, m'.calls id = some phase → phase.Selects

section Tasks

variable {quiet : Prop} {m m' m'' : Machine} {id : CallId} {conn conn' : Conn}

theorem Continues.refl (m : Machine) : Continues quiet m m where
  received := rfl
  conn := .refl m.conn
  silent _ := noPublish_of_same rfl
  selects h := h

theorem Continues.trans (h : Continues quiet m m') (h' : Continues quiet m' m'') : Continues quiet m m'' where
  received := h'.received.trans h.received
  conn := h.conn.trans h'.conn
  silent hquiet := (h.silent hquiet).trans (h'.silent hquiet)
  selects hselects := h'.selects (h.selects hselects)

theorem continues_setConn (hconn : Undisturbed m.conn conn) (hsilent : quiet → NoPublish m.conn conn) :
    Continues quiet m (m.setConn conn) where
  received := rfl
  conn := hconn
  silent := hsilent
  selects h := h

theorem continues_setCall {phase : Phase} (h : phase.Selects) : Continues quiet m (m.setCall id phase) where
  received := rfl
  conn := .refl m.conn
  silent _ := noPublish_of_same rfl
  selects hselects other phase' hcall := by
    rw [setCall_calls] at hcall
    split at hcall
    · cases hcall
      exact h
    · exact hselects other phase' hcall

theorem selects_done (confirm : Option (PublishArgs × Nat)) (outcome : Except Exc (Option Text)) :
    (Phase.done confirm outcome).Selects := by
  intro r args props hrequest
  cases hrequest

theorem continues_done (confirm : Option (PublishArgs × Nat)) (outcome : Except Exc (Option Text)) :
    Continues quiet m (m.setCall id (.done confirm outcome)) :=
  continues_setCall (selects_done confirm outcome)

theorem continues_endRequest (outcome : Except Exc (Option Text)) : Continues quiet m (m.endRequest id outcome) where
  received := rfl
  conn := .refl m.conn
  silent _ := noPublish_of_same rfl
  selects h := h

theorem continues_ask {r : SyncRequest} {next : Option (PublishArgs × Properties)}
    (h : (Phase.draining r next).Selects) : Continues quiet m (m.ask id r next) where
  received := rfl
  conn := .refl m.conn
  silent _ := noPublish_of_same rfl
  selects := (@continues_setCall quiet m id _ h).selects

theorem continues_finishConfirm (args : PublishArgs) (tag : Nat) :
    Continues quiet m (m.finishConfirm id args tag) := by
  have hpop : Continues quiet m (m.setConn (m.conn.popReturn args.channel tag).2) := by
    unfold Conn.popReturn
    split
    · exact .refl m
    · exact continues_setConn (.of_same rfl rfl) fun _ => noPublish_of_same rfl
  unfold Machine.finishConfirm
  split
  · split
    · rename_i returned conn heq
      rw [heq] at hpop
      exact hpop.trans (continues_done _ _)
    · rename_i conn heq
      rw [heq] at hpop
      exact hpop.trans (continues_done _ _)
  · exact continues_done _ _

theorem continues_afterDrain (args : PublishArgs) (tag : Option Nat) :
    Continues quiet m (m.afterDrain id args tag) := by
  cases tag with
  | none => exact continues_done _ _
  | some t =>
    rw [Machine.afterDrain, Machine.awaitConfirm]
    split
    · refine continues_setCall ?_
      intro r args props hrequest
      cases hrequest
    · exact continues_done _ _
    · exact continues_finishConfirm args t

theorem continues_publishReached {args : PublishArgs} {result : EStateM.Result Exc Conn PublishStep}
    (hresult : Undisturbed m.conn (resultState result)) (hsilent : quiet → NoPublish m.conn (resultState result)) :
    Continues quiet m (m.publishReached id args result) := by
  have hconn : Continues quiet m (m.setConn (resultState result)) := continues_setConn hresult hsilent
  cases result with
  | error e conn => exact hconn.trans (continues_done _ _)
  | ok reached conn =>
    cases reached with
    | selecting props =>
      refine hconn.trans (continues_ask ?_)
      intro r args' props' hrequest hnext
      cases hrequest
      cases hnext
      rfl
    | written tag =>
      rw [Machine.publishReached]
      split
      · refine hconn.trans (continues_setCall ?_)
        intro r args' props' hrequest
        cases hrequest
      · exact hconn.trans (continues_afterDrain args tag)

theorem continues_requestReached {r : SyncRequest} {result : EStateM.Result Exc Conn Bool}
    (hresult : Undisturbed m.conn (resultState result)) (hsilent : NoPublish m.conn (resultState result)) :
    Continues quiet m (m.requestReached id r result) := by
  have hconn : Continues quiet m (m.setConn (resultState result)) := continues_setConn hresult fun _ => hsilent
  cases result with
  | error e conn => exact hconn.trans (continues_done _ _)
  | ok asked conn =>
    cases asked with
    | false => exact hconn.trans (continues_done _ _)
    | true =>
      refine hconn.trans (continues_ask ?_)
      intro r' args props hrequest hnext
      cases hnext

/-! ## Segments -/

theorem withholds_refused (h : conn.Refused conn') : Undisturbed conn conn' ∧ NoPublish conn conn' := by
  obtain ⟨channels, confirm, rfl, -⟩ := h
  exact ⟨.of_same rfl rfl, noPublish_of_same rfl⟩

theorem undisturbed_beforeContent (conn : Conn) (caller : CallId) (args : PublishArgs) (confirmed : Bool)
    (frames : List Frame) : Undisturbed conn ((conn.beforeContent caller args confirmed).append caller frames) := by
  obtain ⟨confirm, mandatoryTags, heq⟩ := beforeContent_eq conn caller args confirmed
  rw [heq]
  exact .of_same rfl rfl

theorem undisturbed_segment (caller : CallId) (args : PublishArgs) (entry : PublishEntry) (conn : Conn) :
    Undisturbed conn (resultState (publishSegment caller args entry conn)) := by
  have hreached := publishSegment_reached caller args entry conn
  generalize publishSegment caller args entry conn = result at hreached ⊢
  cases hreached with
  | refused hrefused => exact (withholds_refused hrefused).1
  | selecting hentry hprops hframe => exact .of_same rfl rfl
  | written hcontent hframes => exact undisturbed_beforeContent conn caller args _ _
  | broken hcontent hframes => exact undisturbed_beforeContent conn caller args _ _

/-- A segment publishes nothing that does not get to its content, or whose METHOD frame does not
encode. -/
theorem noPublish_segment (caller : CallId) {args : PublishArgs} {entry : PublishEntry} {conn : Conn}
    (h : contentOf conn args entry = none ∨ methodFrame conn.frameMax args = none) :
    NoPublish conn (resultState (publishSegment caller args entry conn)) := by
  have hreached := publishSegment_reached caller args entry conn
  generalize publishSegment caller args entry conn = result at hreached ⊢
  cases hreached with
  | refused hrefused => exact (withholds_refused hrefused).2
  | selecting hentry hprops hframe =>
    have hsame : NoPublish conn (conn.setTracker args.channel (conn.trackerOf args.channel)) := noPublish_of_same rfl
    refine hsame.trans (noPublish_append _ _ ?_)
    rw [(methodIds_of_frameOf hframe).2]
    decide
  | written hcontent hframes =>
    obtain ⟨method, hmethod, -⟩ := Option.bind_eq_some_iff.mp hframes
    rcases h with hnone | hnone
    · cases hnone.symm.trans hcontent
    · cases hnone.symm.trans hmethod
  | broken hcontent hframes =>
    rcases h with hnone | hnone
    · cases hnone.symm.trans hcontent
    · rw [hnone]
      exact ⟨[], by simp [Conn.append], by simp⟩

theorem withholds_start (caller : CallId) (r : SyncRequest) (conn : Conn) :
    Undisturbed conn (resultState (r.start caller conn)) ∧ NoPublish conn (resultState (r.start caller conn)) := by
  have hreached := SyncRequest.start_reached caller r conn
  generalize r.start caller conn = result at hreached ⊢
  cases hreached with
  | refused hrefused => exact withholds_refused hrefused
  | immediate hselect hrefused => exact withholds_refused hrefused
  | asked hrefused hframe =>
    obtain ⟨hconn, hsilent⟩ := withholds_refused hrefused
    refine ⟨hconn.trans (.of_same rfl rfl), hsilent.trans (noPublish_append _ _ ?_)⟩
    rw [(methodIds_of_frameOf hframe).2]
    cases r <;> simp [SyncRequest.method, Method.ids]

theorem finish_eq (r : SyncRequest) (reply : Method) (conn : Conn) :
    ∃ confirm, resultState (r.finish reply conn) = { conn with confirm } := by
  by_cases hselect : ∃ channel, r = .confirmSelect channel
  · obtain ⟨channel, rfl⟩ := hselect
    exact ⟨_, rfl⟩
  · rw [SyncRequest.finish_of_ne_select hselect]
    cases r.result reply <;> exact ⟨conn.confirm, rfl⟩

theorem continues_answered {r : SyncRequest} {next : Option (PublishArgs × Properties)} (reply : Method)
    (hlate : quiet → ∀ args props, next = some (args, props) → methodFrame m.conn.frameMax args = none) :
    Continues quiet m (m.answered id r next reply) := by
  obtain ⟨confirm, heq⟩ := finish_eq r reply m.conn
  rw [Machine.answered]
  generalize r.finish reply m.conn = result at heq ⊢
  have hconn : Continues quiet m (m.setConn (resultState result)) := by
    rw [heq]
    exact continues_setConn (.of_same rfl rfl) fun _ => noPublish_of_same rfl
  cases result with
  | error e conn => exact (hconn.trans (continues_endRequest _)).trans (continues_done _ _)
  | ok value conn =>
    cases next with
    | none => exact (hconn.trans (continues_endRequest _)).trans (continues_done _ _)
    | some content =>
      obtain ⟨args, props⟩ := content
      have hframeMax : conn.frameMax = m.conn.frameMax := by
        rw [show conn = _ from heq]
      refine (hconn.trans (continues_endRequest _)).trans (continues_publishReached ?_ fun hquiet => ?_)
      · exact undisturbed_segment id args (.afterSelect props) conn
      · refine noPublish_segment id (.inr ?_)
        change methodFrame conn.frameMax args = none
        rw [hframeMax]
        exact hlate hquiet args props rfl

end Tasks

/-! ## Steps -/

/-- A publish resumes from the reply to its own `confirm.select`, and its METHOD frame encodes. -/
def resumes (m : Machine) : Event → Bool
  | .wake id =>
    match m.calls id, m.conn.replies id with
    | some (.expecting _ (some (args, _))), some (.ok _) => (methodFrame m.conn.frameMax args).isSome
    | _, _ => false
  | _ => false

/-- No publish resumes from its `confirm.select` while publishing is blocked. -/
def resumesUnblocked (m : Machine) (e : Event) : Bool := !(blockedBy m.received && resumes m e)

/-- The flag is the last notification, and a publish that waits for a reply waits for the one to its
`confirm.select`. -/
structure FlagInv (m : Machine) : Prop where
  blocked : m.conn.publishBlocked = blockedBy m.received
  selects : ∀ id phase, m.calls id = some phase → phase.Selects

section Steps

variable {m m' : Machine} {e : Event}

theorem Continues.flag {quiet : Prop} (h : Continues quiet m m') (hinv : FlagInv m) : FlagInv m' where
  blocked := by
    rw [h.conn.blocked, h.received]
    exact hinv.blocked
  selects := h.selects hinv.selects

/-- While publishing is blocked a call does not get to its content. -/
theorem contentOf_of_blocked {conn : Conn} (h : conn.publishBlocked = true) (args : PublishArgs) :
    contentOf conn args .call = none := by
  simp [contentOf, h]

theorem continues_wake {id : CallId} (h : m.wake id = some m') :
    Continues (resumes m (.wake id) = false) m m' := by
  unfold Machine.wake at h
  split at h
  · rename_i r next hcall
    obtain ⟨outcome, houtcome, rfl⟩ := Option.map_eq_some_iff.mp h
    have hforget : Continues (resumes m (.wake id) = false) m (m.forgetWaiter r.key) :=
      continues_setConn (.of_same rfl rfl) fun _ => noPublish_of_same rfl
    cases outcome with
    | error e => exact (hforget.trans (continues_endRequest _)).trans (continues_done _ _)
    | ok reply =>
      refine hforget.trans (continues_answered reply ?_)
      rintro hquiet args props rfl
      change methodFrame m.conn.frameMax args = none
      simpa [resumes, hcall, houtcome] using hquiet
  · rename_i args tag hcall
    obtain ⟨-, ⟨⟩⟩ := Option.ite_none_right_eq_some.mp h
    exact continues_afterDrain args (some tag)
  · cases h

theorem continues_drained {quiet : Prop} {id : CallId} {failure : Option Interrupt}
    (h : m.drained id failure = some m') : Continues quiet m m' := by
  unfold Machine.drained at h
  split at h
  · rename_i r next hcall
    cases h
    refine ⟨rfl, .of_same rfl rfl, fun _ => noPublish_of_same rfl, fun hselects => ?_⟩
    have hcalled : Continues quiet m (m.setCall id (.expecting r next)) := by
      refine continues_setCall ?_
      intro r' args props hrequest hnext
      exact hselects id _ hcall r' args props hrequest hnext
    exact hcalled.selects hselects
  · cases h
    exact continues_done _ _
  · cases h
    exact continues_afterDrain _ _
  · cases h
    exact continues_done _ _
  · cases h

theorem continues_step (hframe : ∀ f, e ≠ .frame f) (h : m.step e = some m') :
    Continues (m.conn.publishBlocked = true ∧ resumes m e = false) m m' := by
  cases e with
  | frame f => exact absurd rfl (hframe f)
  | request id r =>
    obtain ⟨-, ⟨⟩⟩ := Option.ite_none_right_eq_some.mp h
    obtain ⟨hconn, hsilent⟩ := withholds_start id r m.conn
    exact continues_requestReached hconn hsilent
  | publish id args =>
    obtain ⟨-, ⟨⟩⟩ := Option.ite_none_right_eq_some.mp h
    refine continues_publishReached (undisturbed_segment id args .call m.conn) fun hquiet => ?_
    exact noPublish_segment id (.inl (contentOf_of_blocked hquiet.1 args))
  | drained id failure => exact continues_drained h
  | wake id =>
    have hwake := continues_wake h
    exact { hwake with silent := fun hquiet => hwake.silent hquiet.2 }
  | deadline id =>
    simp only [Machine.step, Machine.deadline] at h
    split at h
    · cases h
      exact ⟨rfl, .of_same rfl rfl, fun _ => noPublish_of_same rfl, fun hselects => hselects⟩
    · cases h
  | cancel id =>
    simp only [Machine.step, Machine.cancel] at h
    split at h
    · cases h
      exact continues_setConn (.of_same rfl rfl) fun _ => noPublish_of_same rfl
    · cases h
      exact continues_setConn (.of_same rfl rfl) fun _ => noPublish_of_same rfl
    · cases h
  | closeDrained =>
    simp only [Machine.step] at h
    split at h
    · cases h
      exact continues_setConn ⟨sameBlocked_notifyLoss m.conn _, fun _ => rfl⟩ fun _ => noPublish_notifyLoss m.conn _
    · cases h
  | eof =>
    obtain ⟨-, ⟨⟩⟩ := Option.ite_none_right_eq_some.mp h
    exact continues_setConn ⟨sameBlocked_notifyLoss m.conn _, fun _ => rfl⟩ fun _ => noPublish_notifyLoss m.conn _
  | lose exc =>
    cases h
    exact continues_setConn (undisturbed_notifyLoss m.conn exc) fun _ => noPublish_notifyLoss m.conn exc

theorem FlagInv.step (hinv : FlagInv m) (h : m.step e = some m') : FlagInv m' := by
  by_cases hframe : ∃ f, e = .frame f
  · obtain ⟨f, rfl⟩ := hframe
    obtain ⟨-, ⟨⟩⟩ := Option.ite_none_right_eq_some.mp h
    refine ⟨?_, hinv.selects⟩
    change (m.conn.readFrame f).publishBlocked = blockedBy (m.received ++ [f])
    rw [blocked_readFrame, blockedBy_snoc, hinv.blocked]
  · exact (continues_step (fun f hf => hframe ⟨f, hf⟩) h).flag hinv

theorem noPublish_step (hinv : FlagInv m) (hblocked : blockedBy m.received = true) (hresumes : resumes m e = false)
    (h : m.step e = some m') : NoPublish m.conn m'.conn := by
  by_cases hframe : ∃ f, e = .frame f
  · obtain ⟨f, rfl⟩ := hframe
    obtain ⟨-, ⟨⟩⟩ := Option.ite_none_right_eq_some.mp h
    exact noPublish_readFrame m.conn f
  · exact (continues_step (fun f hf => hframe ⟨f, hf⟩) h).silent ⟨hinv.blocked.trans hblocked, hresumes⟩

theorem FlagInv.opened (frameMax : Nat) (h : frameMax < 2 ^ 32) (channels : List Int) :
    FlagInv (Machine.opened frameMax h channels) where
  blocked := rfl
  selects id phase hcall := by cases hcall

end Steps

/-! ## Runs -/

/-- The publishes that the step has written. -/
def publishesSince (conn conn' : Conn) : List Sent :=
  (conn'.written.drop conn.written.length).filter fun s => s.isPublish s.frame.channel

/-- While publishing is blocked, nothing is published, and a call raises without taking a tag:
`ConnectionBlockedError` on an open channel. -/
def HoldsBack (m : Machine) (e : Event) : Prop :=
  blockedBy m.received = true → ∀ m', m.step e = some m' → publishesSince m.conn m'.conn = [] ∧
    ∀ id args, e = .publish id args →
      (∀ channel, m'.conn.trackerOf channel = m.conn.trackerOf channel) ∧
      ∃ exc, m'.calls id = some (.done none (.error exc)) ∧
        (m.conn.channels.get? args.channel = some .open →
          exc = .connectionBlocked "connection.blocked — publish refused")

section Runs

variable {m m' : Machine} {e : Event}

theorem publishesSince_eq_nil {conn conn' : Conn} (h : NoPublish conn conn') : publishesSince conn conn' = [] := by
  obtain ⟨more, hwritten, hmore⟩ := h
  rw [publishesSince, hwritten, List.drop_left, List.filter_eq_nil_iff]
  intro s hs hpublish
  simp only [Sent.isPublish, true_and, decide_eq_true_eq] at hpublish
  exact hmore s hs hpublish

/-- A call that finds publishing blocked raises, and leaves no trace. -/
theorem startPublish_of_blocked (caller : CallId) (args : PublishArgs) {conn : Conn}
    (h : conn.publishBlocked = true) : ∃ exc conn', startPublish caller args conn = .error exc conn' ∧
      conn.Refused conn' ∧ (conn.channels.get? args.channel = some .open →
        exc = .connectionBlocked "connection.blocked — publish refused") := by
  cases hcheck : assertOpenForOps args.channel conn with
  | error exc conn' =>
    refine ⟨exc, conn', by rw [startPublish, bind_run_error hcheck], (assertOpenForOps_raises hcheck).2, ?_⟩
    intro hopen
    rw [assertOpenForOps_of_open hopen] at hcheck
    cases hcheck
  | ok u conn' =>
    obtain ⟨-, rfl⟩ := assertOpenForOps_returns.mp hcheck
    refine ⟨_, conn', ?_, .refl conn', fun _ => rfl⟩
    rw [startPublish, bind_run_ok hcheck, bind_run_ok (get_run _), bind_run_error (throwIf_of h _ _)]

theorem publishesSince_ne_nil {conn conn' : Conn} {s : Sent} {rest : List Sent}
    (hwritten : conn'.written = conn.written ++ s :: rest) (hs : s.frame.methodIds = some (60, 40)) :
    publishesSince conn conn' ≠ [] := by
  have hmem : s ∈ publishesSince conn conn' := by
    rw [publishesSince, hwritten, List.drop_left, List.mem_filter]
    exact ⟨List.mem_cons_self, by simp [Sent.isPublish, hs]⟩
  exact List.ne_nil_of_mem hmem

/-- A segment that gets to its content writes the METHOD frame first. -/
theorem segment_publishes (caller : CallId) {args : PublishArgs} {entry : PublishEntry} {conn : Conn} {frame : Frame}
    (hcontent : (contentOf conn args entry).isSome = true) (hframe : methodFrame conn.frameMax args = some frame) :
    ∃ rest, (resultState (publishSegment caller args entry conn)).written =
      conn.written ++ ⟨some caller, frame⟩ :: rest := by
  obtain ⟨⟨props, confirmed⟩, hcontent⟩ := Option.isSome_iff_exists.mp hcontent
  cases hframes : contentFrames conn.frameMax args props with
  | none =>
    obtain ⟨e, he⟩ := publishSegment_of_none caller hcontent hframes
    rw [he, hframe]
    exact ⟨[], by simp [resultState, Conn.append]⟩
  | some frames =>
    obtain ⟨method, hmethod, hrest⟩ := Option.bind_eq_some_iff.mp hframes
    obtain ⟨header, -, rfl⟩ := Option.map_eq_some_iff.mp hrest
    cases hframe.symm.trans hmethod
    rw [publishSegment_of_some caller hcontent hframes]
    exact ⟨(header :: bodyFrames conn.frameMax args).map (Sent.mk (some caller)), by simp [resultState, Conn.append]⟩

theorem publishReached_extends (m : Machine) (id : CallId) (args : PublishArgs)
    (result : EStateM.Result Exc Conn PublishStep) :
    ∃ more, (m.publishReached id args result).conn.written = (resultState result).written ++ more := by
  have hconn : m.publishReached id args result = (m.setConn (resultState result)).publishReached id args result := by
    cases result with
    | error e conn => rfl
    | ok reached conn => cases reached <;> rfl
  rw [hconn]
  have hgoes : Continues True (m.setConn (resultState result))
      ((m.setConn (resultState result)).publishReached id args result) :=
    continues_publishReached (.of_same rfl rfl) fun _ => noPublish_of_same rfl
  obtain ⟨more, hmore, -⟩ := hgoes.silent trivial
  exact ⟨more, hmore⟩

theorem publishes_of_resumes (hinv : FlagInv m) (h : resumes m e = true) :
    ∃ m', m.step e = some m' ∧ publishesSince m.conn m'.conn ≠ [] := by
  unfold resumes at h
  split at h
  · rename_i id
    split at h
    · rename_i r args props reply hcall hreply
      obtain ⟨frame, hframe⟩ := Option.isSome_iff_exists.mp h
      obtain rfl := hinv.selects id _ hcall r args props rfl rfl
      have hstep : m.step (.wake id) =
          some (m.expected id (.confirmSelect args.channel) (some (args, props)) (.ok reply)) := by
        simp [Machine.step, Machine.wake, hcall, hreply]
      refine ⟨_, hstep, ?_⟩
      let waiting := (m.forgetWaiter (SyncRequest.confirmSelect args.channel).key).conn
      let enabled := waiting.setTracker args.channel (waiting.trackerOf args.channel).enable
      have hcontent : (contentOf enabled args (.afterSelect props)).isSome = true := by
        simp [contentOf, enabled, ConfirmTracker.enable]
      obtain ⟨rest, hrest⟩ := segment_publishes id hcontent hframe
      obtain ⟨more, hmore⟩ := publishReached_extends
        (((m.forgetWaiter (SyncRequest.confirmSelect args.channel).key).setConn enabled).endRequest id (.ok none))
        id args (publishSegment id args (.afterSelect props) enabled)
      rw [hrest, List.append_assoc] at hmore
      exact publishesSince_ne_nil hmore (methodIds_of_frameOf hframe).2
    · cases h
  · cases h

theorem holdsBack_iff (hinv : FlagInv m) : HoldsBack m e ↔ resumesUnblocked m e = true := by
  cases hblocked : blockedBy m.received with
  | false => simp [HoldsBack, resumesUnblocked, hblocked]
  | true =>
    cases hresumes : resumes m e with
    | true =>
      obtain ⟨m', hstep, hpublishes⟩ := publishes_of_resumes hinv hresumes
      simp only [resumesUnblocked, hblocked, hresumes, Bool.and_self, Bool.not_true, Bool.false_eq_true, iff_false]
      intro hholds
      exact hpublishes (hholds hblocked m' hstep).1
    | false =>
      simp only [resumesUnblocked, hblocked, hresumes, Bool.and_false, Bool.not_false, iff_true]
      intro _ m' hstep
      refine ⟨publishesSince_eq_nil (noPublish_step hinv hblocked hresumes hstep), ?_⟩
      rintro id args rfl
      obtain ⟨-, ⟨⟩⟩ := Option.ite_none_right_eq_some.mp hstep
      obtain ⟨exc, conn', hrun, hrefused, hopen⟩ :=
        startPublish_of_blocked id args (hinv.blocked.trans hblocked)
      rw [publishSegment, hrun]
      obtain ⟨channels, confirm, rfl, htracker⟩ := hrefused
      exact ⟨htracker, exc, if_pos rfl, hopen⟩

/-- A run publishes nothing while publishing is blocked exactly if no publish resumes then from its
`confirm.select`. -/
theorem held_back_iff (frameMax : Nat) (h : frameMax < 2 ^ 32) (channels : List Int) (es : List Event) :
    Admits Machine.step HoldsBack (Machine.opened frameMax h channels) es ↔
      Admits Machine.step (fun m e => resumesUnblocked m e = true) (Machine.opened frameMax h channels) es :=
  admits_iff (FlagInv.opened frameMax h channels) (fun _ _ _ hinv _ hstep => hinv.step hstep)
    (fun _ _ hinv => holdsBack_iff hinv) es

/-- `connection.blocked`, with a reason of no octets. -/
def blockedFrame : Frame := ⟨.method, 0, [0, 10, 0, 60, 0]⟩

/-- A call is refused while publishing is blocked, and goes through when it is not any more. -/
def refusedOnce : List Event :=
  [.frame blockedFrame, .publish 0 (confirmedPublish true), .frame ⟨.method, 0, [0, 10, 0, 61]⟩,
    .publish 1 (confirmedPublish true), .drained 1 none, .frame selectOk, .wake 1]

theorem refusedOnce_held_back : Admits Machine.step HoldsBack openedOne refusedOnce :=
  (held_back_iff defaultFrameMax (by decide) [1] refusedOnce).mpr (by decide +kernel)

/-- `connection.blocked` comes before the reply to the `confirm.select` of a publish. -/
def blockedMeanwhile : List Event :=
  [.publish 0 (confirmedPublish true), .drained 0 none, .frame blockedFrame, .frame selectOk, .wake 0]

/-- The publish is written all the same. -/
theorem not_held_back : ¬∀ es, Admits Machine.step HoldsBack openedOne es := by
  intro hheld
  have hinv : FlagInv openedOne := FlagInv.opened defaultFrameMax (by decide) [1]
  have hguard := (admits_iff hinv (fun _ _ _ hinv _ hstep => hinv.step hstep) (fun _ _ hinv => holdsBack_iff hinv)
    blockedMeanwhile).mp (hheld blockedMeanwhile)
  revert hguard
  decide +kernel

end Runs

end Nuropb.Transport
