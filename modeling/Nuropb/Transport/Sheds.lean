import Nuropb.Transport.StepEffects
import Nuropb.Transport.TaskViews

/-! # Steps that add no future to complete

Apart from a publish that registers a tag, no step of a connection brings a confirm that has to be
completed, and none makes a confirm pending again that is done.
-/
namespace Nuropb.Transport

open Library Protocol

/-- No confirm comes to be outstanding, and a done one stays done. -/
structure Sheds (conn conn' : Conn) : Prop where
  outstanding : ∀ channel tag fut, (conn'.trackerOf channel).outstanding.get? tag = some fut →
    (conn.trackerOf channel).outstanding.get? tag = some fut
  confirms : ∀ id, conn.confirms id ≠ none → conn'.confirms id ≠ none
  lost : conn'.lost = conn.lost

section Rules

variable {conn conn' conn'' : Conn}

theorem Sheds.of_trackers
    (htrackers : ∀ channel, (conn'.trackerOf channel).outstanding = (conn.trackerOf channel).outstanding)
    (hconfirms : conn'.confirms = conn.confirms) (hlost : conn'.lost = conn.lost) : Sheds conn conn' where
  outstanding channel tag fut h := by rwa [htrackers] at h
  confirms id h := by rwa [hconfirms]
  lost := hlost

theorem Sheds.of_same (hconfirm : conn'.confirm = conn.confirm) (hconfirms : conn'.confirms = conn.confirms)
    (hlost : conn'.lost = conn.lost) : Sheds conn conn' :=
  .of_trackers (fun channel => by rw [Conn.trackerOf, Conn.trackerOf, hconfirm]) hconfirms hlost

theorem Sheds.refl (conn : Conn) : Sheds conn conn := .of_same rfl rfl rfl

theorem Sheds.trans (h : Sheds conn conn') (h' : Sheds conn' conn'') : Sheds conn conn'' where
  outstanding channel tag fut hget := h.outstanding channel tag fut (h'.outstanding channel tag fut hget)
  confirms id hdone := h'.confirms id (h.confirms id hdone)
  lost := h'.lost.trans h.lost

theorem sheds_refused (h : conn.Refused conn') : Sheds conn conn' := by
  obtain ⟨channels, confirm, rfl, htrackers⟩ := h
  exact .of_trackers (fun channel => by rw [htrackers]) rfl rfl

theorem sheds_append (conn : Conn) (caller : Option CallId) (frames : List Frame) :
    Sheds conn (conn.append caller frames) :=
  .of_same rfl rfl rfl

theorem sheds_setTracker (conn : Conn) (channel : Int) {tracker : ConfirmTracker}
    (h : tracker.outstanding = (conn.trackerOf channel).outstanding) : Sheds conn (conn.setTracker channel tracker) := by
  refine .of_trackers (fun other => ?_) rfl rfl
  by_cases hother : channel = other
  · subst hother
    rw [Conn.trackerOf_setTracker, h]
  · rw [Conn.trackerOf_setTracker_of_ne conn hother]

theorem sheds_bind {α β : Type} {x : ConnM α} {f : α → ConnM β} (hx : Keeps Sheds x) (hf : ∀ a, Keeps Sheds (f a)) :
    Keeps Sheds (x >>= f) :=
  keeps_bind (fun _ _ _ => .trans) hx hf

theorem sheds_modify {f : Conn → Conn} (h : ∀ conn, Sheds conn (f conn)) : Keeps Sheds (modify f : ConnM Unit) :=
  keeps_modify h

end Rules

/-! ## Operations -/

section Operations

theorem sheds_sendMethod (caller : Option CallId) (channel : Int) (method : Method) :
    Keeps Sheds (sendMethod caller channel method) := by
  intro conn
  cases hframe : frameOf conn.frameMax .method channel (encodeMethod method) with
  | none =>
      obtain ⟨e, he⟩ := writePayload_of_none caller hframe
      rw [sendMethod, he]
      exact .refl conn
  | some frame =>
      rw [sendMethod, writePayload_of_some hframe]
      exact sheds_append conn caller [frame]

theorem sheds_writeFrame (caller : Option CallId) (frame : Frame) : Keeps Sheds (writeFrame caller frame) :=
  sheds_bind (keeps_get .refl) fun _ => sheds_bind (keeps_lift .refl _) fun _ =>
    sheds_modify fun conn => sheds_append conn caller [frame]

theorem sheds_assertOpenForOps (channel : Int) : Keeps Sheds (assertOpenForOps channel) := by
  intro conn
  cases hcheck : assertOpenForOps channel conn with
  | ok u conn' =>
      obtain ⟨-, rfl⟩ := assertOpenForOps_returns.mp hcheck
      exact .refl conn'
  | error e conn' => exact sheds_refused (assertOpenForOps_raises hcheck).2

theorem sheds_request (caller : CallId) (r : SyncRequest) : Keeps Sheds (r.start caller) := by
  intro conn
  have hreached := SyncRequest.start_reached caller r conn
  generalize r.start caller conn = result at hreached ⊢
  cases hreached with
  | refused hrefused => exact sheds_refused hrefused
  | immediate hselect hrefused => exact sheds_refused hrefused
  | asked hrefused hframe => exact (sheds_refused hrefused).trans (sheds_append _ _ _)

/-- Enabling confirms numbers the tags anew, and lets the futures wait on. -/
theorem sheds_finish (r : SyncRequest) (reply : Method) : Keeps Sheds (r.finish reply) := by
  by_cases hselect : ∃ channel, r = .confirmSelect channel
  · obtain ⟨channel, rfl⟩ := hselect
    exact sheds_bind (sheds_modify fun conn => sheds_setTracker conn channel rfl) fun _ => keeps_pure .refl _
  · rw [SyncRequest.finish_of_ne_select hselect]
    exact keeps_lift .refl _

theorem sheds_settlement (caller : CallId) (op : Settlement) : Keeps Sheds (op.start caller) :=
  sheds_bind (sheds_assertOpenForOps op.channel) fun _ => sheds_sendMethod _ _ _

theorem sheds_reject {α : Type} (reason : String) : Keeps Sheds (reject reason : ConnM α) :=
  fun _ => .of_same rfl rfl rfl

theorem sheds_transition (f : ConnState.Transition) : Keeps Sheds (transition f) := by
  intro conn
  unfold transition
  split
  · exact .of_same rfl rfl rfl
  · exact sheds_reject _ conn

theorem sheds_selectSasl (config : ConnectionConfig) (mechanisms : Text) : Keeps Sheds (config.selectSasl mechanisms) :=
  keeps_ite (fun _ => keeps_pure .refl _) fun _ => keeps_ite (fun _ => sheds_reject _) fun _ =>
    sheds_bind (keeps_lift .refl _) fun _ => sheds_bind (keeps_lift .refl _) fun _ => keeps_pure .refl _

theorem sheds_advance (config : ConnectionConfig) (caller : CallId) (reply : Option Method) (step : Handshake) :
    Keeps Sheds (config.advance caller reply step) := by
  have hdone (next : Option Handshake) : Keeps Sheds (pure next : ConnM (Option Handshake)) := keeps_pure .refl next
  have hmove (f : ConnState.Transition) {x : ConnM (Option Handshake)} (hx : Keeps Sheds x) :
      Keeps Sheds (do transition f
                      x) :=
    sheds_bind (sheds_transition f) fun _ => hx
  have hsend (method : Method) (next : Option Handshake) :
      Keeps Sheds (do sendMethod caller 0 method
                      return next) :=
    sheds_bind (sheds_sendMethod _ _ _) fun _ => hdone next
  cases step with
  | resolving => exact hmove _ (hdone _)
  | opening =>
      have hheader := hmove ConnState.allowAmqpHeader (hdone (some .header))
      cases htls : config.tls with
      | true =>
          simp only [ConnectionConfig.advance, htls, if_true]
          exact hmove _ hheader
      | false =>
          simp only [ConnectionConfig.advance, htls]
          exact hheader
  | header => exact sheds_bind (sheds_modify fun conn => .of_same rfl rfl rfl) fun _ => hdone _
  | start =>
      exact hmove _ (sheds_bind (sheds_selectSasl config _) fun _ => hmove _ (hsend _ _))
  | startOk => exact hmove _ (hdone _)
  | tune =>
      exact hmove _ (sheds_bind (sheds_modify fun conn => .of_same rfl rfl rfl) fun _ =>
        hmove _ (sheds_bind (keeps_get .refl) fun _ => hsend _ _))
  | tuneOk heartbeat => exact hmove _ (hmove _ (hsend _ _))
  | «open» heartbeat => exact hmove _ (hdone _)
  | openOk heartbeat => exact hmove _ (hdone _)

theorem sheds_start (config : ConnectionConfig) (caller : CallId) : Keeps Sheds (config.start caller) :=
  sheds_bind (keeps_throwIf .refl _ _) fun _ =>
    keeps_ite (fun _ => keeps_pure .refl _) fun _ => sheds_advance config caller none .resolving

theorem sheds_channelTransition (channel : Int) (f : ChanState.Transition) : Keeps Sheds (channelTransition channel f) := by
  intro conn
  obtain ⟨channels, heq, -⟩ := channelTransition_eq conn channel f
  rw [heq]
  exact .of_same rfl rfl rfl

theorem sheds_startOpenChannel (caller : CallId) (channel : Int) : Keeps Sheds (startOpenChannel caller channel) := by
  have hnew (conn : Conn) : Sheds conn { conn with
      channels := conn.channels.set channel .closed
      confirm := conn.confirm.set channel {}
      mandatoryTags := conn.mandatoryTags.set channel []
      returnByTag := conn.returnByTag.set channel .empty } := by
    refine ⟨?_, fun id h => h, rfl⟩
    intro other tag fut hget
    by_cases hother : channel = other
    · subst hother
      simp [Conn.trackerOf] at hget
    · simpa [Conn.trackerOf, Dict.get?_set_of_ne _ hother] using hget
  exact sheds_bind (keeps_get .refl) fun _ => sheds_bind (keeps_throwIf .refl _ _) fun _ =>
    sheds_bind (keeps_throwIf .refl _ _) fun _ => sheds_bind (sheds_modify hnew) fun _ =>
      sheds_bind (sheds_channelTransition channel _) fun _ => sheds_sendMethod _ _ _

theorem sheds_startClose (caller : CallId) : Keeps Sheds (startClose caller) :=
  sheds_bind (sheds_transition _) fun _ => sheds_sendMethod _ _ _

/-- A publish segment that does not get to a confirmed content registers nothing. -/
theorem sheds_publishSegment (caller : CallId) {args : PublishArgs} {entry : PublishEntry} {conn : Conn}
    (h : ∀ props, contentOf conn args entry ≠ some (props, true)) :
    Sheds conn (resultState (publishSegment caller args entry conn)) := by
  have hreached := publishSegment_reached caller args entry conn
  generalize publishSegment caller args entry conn = result at hreached ⊢
  cases hreached with
  | refused hrefused => exact sheds_refused hrefused
  | selecting hentry hprops hframe => exact (sheds_setTracker conn _ rfl).trans (sheds_append _ _ _)
  | @written props confirmed frames hcontent hframes =>
      cases confirmed with
      | true => exact absurd hcontent (h props)
      | false => exact sheds_append conn caller frames
  | @broken props confirmed e hcontent hframes =>
      cases confirmed with
      | true => exact absurd hcontent (h props)
      | false => exact sheds_append conn caller _

theorem tag_of_unconfirmed {caller : CallId} {args : PublishArgs} {entry : PublishEntry} {conn conn' : Conn}
    {tag : Option Nat} (h : ∀ props, contentOf conn args entry ≠ some (props, true))
    (hrun : publishSegment caller args entry conn = .ok (.written tag) conn') : tag = none := by
  have hreached := publishSegment_reached caller args entry conn
  rw [hrun] at hreached
  cases hreached with
  | @written props confirmed frames hcontent hframes =>
      cases confirmed with
      | true => exact absurd hcontent (h props)
      | false => rfl

end Operations

/-! ## The loss -/

/-- What the first loss does to the futures and the trackers. -/
structure LostBy (conn conn' : Conn) (exc : Exc) : Prop where
  live : conn.lost = none
  lost : conn'.lost = some (asLoss exc)
  replies : conn'.replies = settle conn.replies conn.waiters.values (.error (asLoss exc))
  confirms : conn'.confirms =
    settle conn.confirms (conn.confirm.values.flatMap fun t => t.failAll.1) (.error (asLoss exc))
  confirm : conn'.confirm = conn.confirm.mapValues fun t => t.failAll.2
  deliveries : conn'.deliveries = conn.deliveries
  returns : conn'.returns = conn.returns

section Loss

variable {conn conn' : Conn} {exc : Exc}

theorem lostBy_notifyLoss (h : conn.lost = none) (exc : Exc) : LostBy conn (conn.notifyLoss exc) exc := by
  have heq : conn.notifyLoss exc = { conn with
      lost := some (asLoss exc)
      replies := settle conn.replies conn.waiters.values (.error (asLoss exc))
      confirms := settle conn.confirms (conn.confirm.values.flatMap fun t => t.failAll.1) (.error (asLoss exc))
      confirm := conn.confirm.mapValues fun t => t.failAll.2
      mandatoryTags := .empty
      returnByTag := .empty } := by
    rw [Conn.notifyLoss, h]
  rw [heq]
  exact ⟨h, rfl, rfl, rfl, rfl, rfl, rfl⟩

theorem lostBy_endReader (h : conn.lost = none) (exc : Exc) : LostBy conn (conn.endReader exc) exc := by
  obtain ⟨hlive, hlost, hreplies, hconfirms, hconfirm, hdeliveries, hreturns⟩ := lostBy_notifyLoss h exc
  exact ⟨hlive, hlost, hreplies, hconfirms, hconfirm, hdeliveries, hreturns⟩

theorem notifyLoss_of_lost (h : conn.lost ≠ none) (exc : Exc) : conn.notifyLoss exc = conn := by
  cases hlost : conn.lost with
  | none => exact absurd hlost h
  | some e => rw [Conn.notifyLoss, hlost]

theorem LostBy.outstanding (h : LostBy conn conn' exc) (channel : Int) (tag : Nat) :
    (conn'.trackerOf channel).outstanding.get? tag = none := by
  rw [Conn.trackerOf, h.confirm, Dict.get?_mapValues]
  cases conn.confirm.get? channel <;> simp [ConfirmTracker.failAll]

theorem LostBy.confirmed (h : LostBy conn conn' exc) {channel : Int} {tag : Nat} {id : CallId}
    (hget : (conn.trackerOf channel).outstanding.get? tag = some id) : conn'.confirms id ≠ none := by
  rw [h.confirms, Ne, settle_eq_none_iff, not_and, not_not]
  intro _
  rw [Conn.trackerOf] at hget
  cases htracker : conn.confirm.get? channel with
  | none => simp [htracker] at hget
  | some tracker =>
      rw [htracker, Option.getD_some] at hget
      rw [List.mem_flatMap]
      exact ⟨tracker, Dict.mem_values_iff.mpr ⟨channel, htracker⟩, Dict.mem_values_iff.mpr ⟨tag, hget⟩⟩

theorem LostBy.confirmsDone (h : LostBy conn conn' exc) {id : CallId} (hdone : conn.confirms id ≠ none) :
    conn'.confirms id ≠ none := by
  rw [h.confirms, Ne, settle_eq_none_iff, not_and_or]
  exact .inl hdone

theorem LostBy.replied (h : LostBy conn conn' exc) {key : WaiterKey} {id : CallId}
    (hget : conn.waiters.get? key = some id) : conn'.replies id ≠ none := by
  rw [h.replies, Ne, settle_eq_none_iff, not_and, not_not]
  intro _
  exact Dict.mem_values_iff.mpr ⟨key, hget⟩

theorem LostBy.repliesDone (h : LostBy conn conn' exc) {id : CallId} (hdone : conn.replies id ≠ none) :
    conn'.replies id ≠ none := by
  rw [h.replies, Ne, settle_eq_none_iff, not_and_or]
  exact .inl hdone

theorem sheds_notifyLoss_of_lost (h : conn.lost ≠ none) (exc : Exc) : Sheds conn (conn.notifyLoss exc) := by
  rw [notifyLoss_of_lost h]
  exact .refl conn

theorem notifyLoss_effect (conn : Conn) (exc : Exc) :
    Sheds conn (conn.notifyLoss exc) ∨ LostBy conn (conn.notifyLoss exc) exc := by
  by_cases h : conn.lost = none
  · exact .inr (lostBy_notifyLoss h exc)
  · exact .inl (sheds_notifyLoss_of_lost h exc)

theorem endReader_effect (conn : Conn) (exc : Exc) :
    Sheds conn (conn.endReader exc) ∨ LostBy conn (conn.endReader exc) exc := by
  by_cases h : conn.lost = none
  · exact .inr (lostBy_endReader h exc)
  · exact .inl ((sheds_notifyLoss_of_lost h exc).trans (.of_same rfl rfl rfl))

theorem sheds_settleConfirms (conn : Conn) (channel : Int) (deliveryTag : Nat) (multiple : Bool)
    (outcome : Except Exc Unit) : Sheds conn
      ((conn.clearMandatoryTags channel deliveryTag multiple).settleConfirms channel deliveryTag multiple outcome) := by
  obtain ⟨mandatoryTags, heq⟩ := conn.clearMandatoryTags_eq channel deliveryTag multiple
  rw [heq]
  refine ⟨?_, ?_, rfl⟩
  · intro other tag fut hget
    by_cases hother : channel = other
    · subst hother
      have hkeep : ((conn.trackerOf channel).outstanding.keep fun tag => !covers deliveryTag multiple tag).get? tag =
          some fut := by
        simpa [Conn.settleConfirms, Conn.trackerOf, Conn.setTracker, ConfirmTracker.resolve] using hget
      rw [Dict.get?_keep] at hkeep
      exact (Option.ite_none_right_eq_some.mp hkeep).2
    · simpa [Conn.settleConfirms, Conn.trackerOf, Conn.setTracker, Dict.get?_set_of_ne _ hother] using hget
  · intro id hdone
    rw [Ne, Conn.settleConfirms, settle_eq_none_iff, not_and_or]
    exact .inl hdone

theorem readFrame_effect (conn : Conn) (f : Frame) :
    Sheds conn (conn.readFrame f) ∨ ∃ exc, LostBy conn (conn.readFrame f) exc := by
  have htaken := readFrame_taken conn f
  generalize conn.readFrame f = conn' at htaken ⊢
  cases htaken with
  | heartbeat htype => exact .inl (.refl conn)
  | confirmed htype hmethod hconfirm henabled => exact .inl (sheds_settleConfirms ..)
  | replied htype hmethod hhandled hconfirm =>
      obtain ⟨replies, heq⟩ := conn.settleWaiter_eq f.channel _
      rw [heq]
      exact .inl (.of_same rfl rfl rfl)
  | blocked publishBlocked htype hmethod hhandled => exact .inl (.of_same rfl rfl rfl)
  | closing htype hmethod hframe => exact .inl (.of_same rfl rfl rfl)
  | continued hslot hremaining => exact .inl (.of_same rfl rfl rfl)
  | @finished slot hslot hremaining =>
      obtain ⟨mandatoryTags, returnByTag, returns, deliveries, heq⟩ := conn.finishDelivery_eq f.channel slot
      rw [heq]
      exact .inl (.of_same rfl rfl rfl)
  | @ended e hhandled =>
      rcases endReader_effect conn e with h | h
      · exact .inl h
      · exact .inr ⟨e, h⟩

end Loss

/-! ## Tasks -/

/-- No task comes to await a confirm. -/
structure TaskSheds (m m' : Machine) : Prop where
  conn : Sheds m.conn m'.conn
  awaited : ∀ id content, m'.awaited id = some content → m.awaited id = some content

/-- The publishes that register a tag: at once, or from the reply to their `confirm.select` on. -/
def Machine.registers (m : Machine) : Event → Bool
  | .publish _ args => (contentOf m.conn args .call).any fun content => content.2
  | .wake id =>
    match m.calls id, m.conn.replies id with
    | some (.expecting _ (some _)), some (.ok _) => true
    | _, _ => false
  | _ => false

section Tasks

variable {m m' m'' : Machine} {id : CallId}

theorem TaskSheds.trans (h : TaskSheds m m') (h' : TaskSheds m' m'') : TaskSheds m m'' where
  conn := h.conn.trans h'.conn
  awaited id content hcontent := h.awaited id content (h'.awaited id content hcontent)

theorem taskSheds_setConn {conn : Conn} (h : Sheds m.conn conn) : TaskSheds m (m.setConn conn) where
  conn := h
  awaited _ _ hcontent := hcontent

theorem taskSheds_setCall (m : Machine) (id : CallId) {phase : Phase}
    (h : ∀ content, phase.confirm = some content → m.awaited id = some content) : TaskSheds m (m.setCall id phase) where
  conn := .refl _
  awaited other content hcontent := by
    rw [setCall_awaited] at hcontent
    split at hcontent
    · rename_i hother
      rw [hother]
      exact h content hcontent
    · exact hcontent

theorem taskSheds_go {conn : Conn} {phase : Phase} (h : Sheds m.conn conn) (hphase : phase.confirm = none) :
    TaskSheds m ((m.setConn conn).setCall id phase) := by
  refine (taskSheds_setConn h).trans (taskSheds_setCall _ id ?_)
  intro content hcontent
  rw [hphase] at hcontent
  cases hcontent

theorem sheds_popReturn (conn : Conn) (channel : Int) (tag : Nat) : Sheds conn (conn.popReturn channel tag).2 := by
  unfold Conn.popReturn
  split
  · exact .refl conn
  · exact .of_same rfl rfl rfl

theorem taskSheds_afterDrain {args : PublishArgs} {tag : Option Nat}
    (h : ∀ t, tag = some t → m.awaited id = some (args, t)) : TaskSheds m (m.afterDrain id args tag) := by
  cases tag with
  | none => exact taskSheds_setCall m id (by simp [Phase.confirm])
  | some t =>
      have hawaited := h t rfl
      have hgo (n : Machine) (phase : Phase) (hsame : n.awaited id = m.awaited id)
          (hphase : phase.confirm = some (args, t)) : TaskSheds n (n.setCall id phase) := by
        refine taskSheds_setCall n id ?_
        intro content hcontent
        rw [hphase] at hcontent
        cases hcontent
        rw [hsame, hawaited]
      rw [Machine.afterDrain, Machine.awaitConfirm]
      split
      · exact hgo m _ rfl rfl
      · exact hgo m _ rfl rfl
      · rw [Machine.finishConfirm]
        split
        · have hpop := sheds_popReturn m.conn args.channel t
          split
          · rename_i heq
            rw [heq] at hpop
            exact (taskSheds_setConn hpop).trans (hgo _ _ rfl rfl)
          · rename_i heq
            rw [heq] at hpop
            exact (taskSheds_setConn hpop).trans (hgo _ _ rfl rfl)
        · exact hgo m _ rfl rfl

theorem taskSheds_requestReached (m : Machine) (id : CallId) (r : SyncRequest) :
    TaskSheds m (m.requestReached id r (r.start id m.conn)) := by
  have hstart := sheds_request id r m.conn
  unfold Machine.requestReached
  split
  · rename_i hrun
    rw [hrun] at hstart
    have hgo : TaskSheds m ((m.setConn _).setCall id (.draining r none)) := taskSheds_go hstart rfl
    exact ⟨hgo.conn, hgo.awaited⟩
  · rename_i hrun
    rw [hrun] at hstart
    exact taskSheds_go hstart rfl
  · rename_i hrun
    rw [hrun] at hstart
    exact taskSheds_go hstart rfl

theorem taskSheds_publishReached {args : PublishArgs} {entry : PublishEntry}
    (h : ∀ props, contentOf m.conn args entry ≠ some (props, true)) :
    TaskSheds m (m.publishReached id args (publishSegment id args entry m.conn)) := by
  have hsegment := sheds_publishSegment id h
  cases hrun : publishSegment id args entry m.conn with
  | error e conn =>
      rw [hrun] at hsegment
      exact taskSheds_go hsegment rfl
  | ok reached conn =>
      rw [hrun] at hsegment
      cases reached with
      | selecting props =>
          have hgo : TaskSheds m ((m.setConn conn).setCall id (.draining (.confirmSelect args.channel) (some (args, props)))) :=
            taskSheds_go hsegment rfl
          exact ⟨hgo.conn, hgo.awaited⟩
      | written tag =>
          obtain rfl := tag_of_unconfirmed h hrun
          rw [Machine.publishReached]
          split
          · exact taskSheds_go hsegment rfl
          · exact (taskSheds_setConn hsegment).trans (taskSheds_afterDrain (by simp))

theorem taskSheds_answered (m : Machine) (id : CallId) (r : SyncRequest) (reply : Method) :
    TaskSheds m (m.answered id r none reply) := by
  have hfinish := sheds_finish r reply m.conn
  unfold Machine.answered
  split
  · rename_i e conn hrun
    rw [hrun] at hfinish
    have hgo : TaskSheds m ((m.setConn conn).setCall id (.done none (.error e))) := taskSheds_go hfinish rfl
    exact ⟨hgo.conn, hgo.awaited⟩
  · rename_i result conn hrun
    rw [hrun] at hfinish
    have hgo : TaskSheds m ((m.setConn conn).setCall id (.done none (.ok result))) := taskSheds_go hfinish rfl
    exact ⟨hgo.conn, hgo.awaited⟩

theorem awaited_of_phase {phase : Phase} {content : PublishArgs × Nat} (h : m.calls id = some phase)
    (hconfirm : phase.confirm = some content) : m.awaited id = some content := by
  rw [Machine.awaited, h]
  exact hconfirm

theorem taskSheds_drained {failure : Option Interrupt} (h : m.drained id failure = some m') : TaskSheds m m' := by
  unfold Machine.drained at h
  split at h
  · cases h
    exact taskSheds_go (.of_same rfl rfl rfl) rfl
  · cases h
    exact taskSheds_setCall m id (by simp [Phase.confirm])
  · rename_i args tag hcall
    cases h
    refine taskSheds_afterDrain ?_
    rintro t rfl
    exact awaited_of_phase hcall rfl
  · rename_i args tag i hcall
    cases h
    refine taskSheds_setCall m id ?_
    intro content hcontent
    exact awaited_of_phase hcall hcontent
  · cases h

theorem taskSheds_wake (h : m.wake id = some m') (hregisters : m.registers (.wake id) = false) : TaskSheds m m' := by
  unfold Machine.wake at h
  split at h
  · rename_i r next hcall
    obtain ⟨outcome, houtcome, rfl⟩ := Option.map_eq_some_iff.mp h
    have hforget : TaskSheds m (m.forgetWaiter r.key) := taskSheds_setConn (.of_same rfl rfl rfl)
    cases outcome with
    | error e =>
        have hgo : TaskSheds (m.forgetWaiter r.key) ((m.forgetWaiter r.key).setCall id (.done none (.error e))) :=
          taskSheds_setCall _ id (by simp [Phase.confirm])
        exact hforget.trans ⟨hgo.conn, hgo.awaited⟩
    | ok reply =>
        cases next with
        | none => exact hforget.trans (taskSheds_answered _ id r reply)
        | some content => simp [Machine.registers, hcall, houtcome] at hregisters
  · rename_i args tag hcall
    obtain ⟨-, ⟨⟩⟩ := Option.ite_none_right_eq_some.mp h
    have hawaited : TaskSheds m (m.afterDrain id args (some tag)) := by
      refine taskSheds_afterDrain ?_
      rintro t ⟨⟩
      exact awaited_of_phase hcall rfl
    exact hawaited
  · cases h

theorem taskSheds_deadline (h : m.deadline id = some m') : TaskSheds m m' := by
  unfold Machine.deadline at h
  split at h
  · cases h
    have hsettle : TaskSheds m (m.settleReply id (.error .timeoutError)) := taskSheds_setConn (.of_same rfl rfl rfl)
    exact ⟨hsettle.conn, hsettle.awaited⟩
  · cases h

theorem taskSheds_cancel (h : m.cancel id = some m') : TaskSheds m m' := by
  unfold Machine.cancel at h
  split at h
  · cases h
    exact taskSheds_setConn (.of_same rfl rfl rfl)
  · cases h
    refine taskSheds_setConn ⟨fun _ _ _ hget => hget, ?_, rfl⟩
    intro other hdone
    dsimp only
    split
    · simp
    · exact hdone
  · cases h

/-- A step of the tasks registers a confirm, or loses the connection, or does neither. -/
theorem taskStep_cases {e : Event} (h : m.step e = some m') :
    TaskSheds m m' ∨ (∃ exc, LostBy m.conn m'.conn exc ∧ m'.calls = m.calls) ∨
      m.registers e = true ∧ m'.conn.lost = m.conn.lost := by
  have hkept (hends : m.ends e = false) : m'.conn.lost = m.conn.lost := (operates_taskStep h hends).lost
  have hended (conn : Conn) (n : Machine) (hn : n.conn = conn ∧ n.calls = m.calls)
      (heffect : Sheds m.conn conn ∨ ∃ exc, LostBy m.conn conn exc) :
      TaskSheds m n ∨ ∃ exc, LostBy m.conn n.conn exc ∧ n.calls = m.calls := by
    obtain ⟨rfl, hcalls⟩ := hn
    rcases heffect with hsheds | ⟨exc, hlost⟩
    · refine .inl ⟨hsheds, ?_⟩
      intro id content hcontent
      rwa [Machine.awaited, hcalls] at hcontent
    · exact .inr ⟨exc, hlost, hcalls⟩
  have hwrap {n : Machine} (h : TaskSheds m n ∨ ∃ exc, LostBy m.conn n.conn exc ∧ n.calls = m.calls) :
      TaskSheds m n ∨ (∃ exc, LostBy m.conn n.conn exc ∧ n.calls = m.calls) ∨
        m.registers e = true ∧ n.conn.lost = m.conn.lost := by
    rcases h with h | h
    · exact .inl h
    · exact .inr (.inl h)
  cases e with
  | request id r =>
      obtain ⟨-, ⟨⟩⟩ := Option.ite_none_right_eq_some.mp h
      exact .inl (taskSheds_requestReached m id r)
  | publish id args =>
      cases hregisters : m.registers (.publish id args) with
      | true => exact .inr (.inr ⟨rfl, hkept rfl⟩)
      | false =>
          obtain ⟨-, ⟨⟩⟩ := Option.ite_none_right_eq_some.mp h
          refine .inl (taskSheds_publishReached ?_)
          intro props hcontent
          simp [Machine.registers, hcontent] at hregisters
  | drained id failure => exact .inl (taskSheds_drained h)
  | wake id =>
      cases hregisters : m.registers (.wake id) with
      | true => exact .inr (.inr ⟨rfl, hkept rfl⟩)
      | false => exact .inl (taskSheds_wake h hregisters)
  | deadline id => exact .inl (taskSheds_deadline h)
  | cancel id => exact .inl (taskSheds_cancel h)
  | frame f =>
      obtain ⟨-, ⟨⟩⟩ := Option.ite_none_right_eq_some.mp h
      exact hwrap (hended _ _ ⟨rfl, rfl⟩ (readFrame_effect m.conn f))
  | closeDrained =>
      simp only [Machine.step] at h
      split at h
      · cases h
        refine hwrap (hended _ _ ⟨rfl, rfl⟩ ?_)
        exact (endReader_effect m.conn _).imp_right fun hlost => ⟨_, hlost⟩
      · cases h
  | eof =>
      obtain ⟨-, ⟨⟩⟩ := Option.ite_none_right_eq_some.mp h
      refine hwrap (hended _ _ ⟨rfl, rfl⟩ ?_)
      exact (endReader_effect m.conn _).imp_right fun hlost => ⟨_, hlost⟩
  | lose exc =>
      cases h
      refine hwrap (hended _ _ ⟨rfl, rfl⟩ ?_)
      exact (notifyLoss_effect m.conn exc).imp_right fun hlost => ⟨_, hlost⟩

end Tasks

end Nuropb.Transport
