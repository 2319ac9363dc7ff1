import Nuropb.Library.Transition
import Nuropb.Transport.WaiterInvariant

/-! # Reply matching

Waiters are keyed by channel and ids alone. A request gets its own reply as long as each task
starts to wait when nobody waits under its key and exactly the earlier requests under the key
are answered.
-/
namespace Nuropb.Transport

open Library Protocol

/-- A request that returned was given the reply to itself, and one that timed out had not been
replied to when its deadline passed. -/
structure RepliesMatched (m : Machine) : Prop where
  returned : ∀ id r result, m.asked id = some r → m.ended id = some (.ok result) →
    ∃ method, ownReply m.conn.written m.received id r = some method ∧ r.result method = .ok result
  timely : ∀ id r, m.asked id = some r → m.ended id = some (.error .timeoutError) → Late m id r

/-! ## Conditions on a step -/

/-- A task that comes out of the drain of its request finds nobody waiting under its key, and
exactly the requests before its own are answered. -/
def waitsInTurn (m : Machine) : Event → Bool
  | .drained id none =>
    match m.calls id with
    | some (.draining r _) => m.conn.waiters.get? r.key = none ∧
        askIndex r.key m.conn.written id = some (repliesTo r.key m.received).length
    | _ => true
  | _ => true

def isRequest (ids : MethodId) : Bool :=
  ids ∈ [(10, 70), (40, 10), (50, 10), (50, 20), (60, 20), (60, 30), (85, 10)]

def requestsOn (channel : Int) (written : List Sent) : List MethodId :=
  written.filterMap fun s => if s.frame.channel = channel then s.frame.methodIds.filter isRequest else none

/-- The request that a frame answers, if it is a reply. -/
def Frame.answers (f : Frame) : Option MethodId :=
  (f.methodIds.map fun ids => (ids.1, ids.2 - 1)).filter isRequest

def answersOn (channel : Int) (received : List Frame) : List MethodId :=
  received.filterMap fun f => if f.channel = channel then f.answers else none

/-- The broker answers the requests of a channel in their order. -/
def answersInOrder (m : Machine) : Event → Bool
  | .frame f =>
    match f.answers with
    | some ids => (requestsOn f.channel m.conn.written)[(answersOn f.channel m.received).length]? = some ids
    | none => true
  | _ => true

/-! ## What the steps keep -/

section Steps

variable {m m' : Machine} {id : CallId} {args : PublishArgs} {r : SyncRequest} {conn' : Conn}

theorem result_ne_timeout (r : SyncRequest) (reply : Method) : r.result reply ≠ .error .timeoutError := by
  intro h
  unfold SyncRequest.result at h
  split at h <;> try cases h
  rename_i raw reason _
  unfold decodeUtf8 at h
  split at h <;> cases h

theorem not_expecting {phase : Option Phase} (hcall : m.calls id = phase)
    (hphase : ∀ r next, phase ≠ some (.expecting r next)) (r : SyncRequest) : ¬m.Expecting id r := by
  rintro ⟨next, h⟩
  exact hphase r next (hcall.symm.trans h)

theorem WaiterInv.afterDrain (hinv : WaiterInv m) (hnot : ∀ r, ¬m.Expecting id r) (tag : Option Nat) :
    WaiterInv (m.afterDrain id args tag) := by
  have hpop (t : Nat) : WaiterQuiet m (m.conn.popReturn args.channel t).2 := by
    unfold Conn.popReturn
    split <;> exact .of_same rfl rfl rfl
  cases tag with
  | none => exact hinv.setCall rfl hnot
  | some t =>
    rw [Machine.afterDrain, Machine.awaitConfirm]
    split
    · exact hinv.setCall rfl hnot
    · exact hinv.setCall rfl hnot
    · unfold Machine.finishConfirm
      have hquiet := hpop t
      split
      · split
        · rename_i returned conn heq
          rw [heq] at hquiet
          exact (hinv.setConn hquiet).setCall rfl hnot
        · rename_i conn heq
          rw [heq] at hquiet
          exact (hinv.setConn hquiet).setCall rfl hnot
      · exact hinv.setCall rfl hnot

theorem content_waiterQuiet (hset : m.calls id ≠ none) {frames : List Frame} (confirmed : Bool)
    (hids : ∀ f ∈ frames, ∀ ids, f.methodIds = some ids → ids = (60, 40)) :
    WaiterQuiet m ((m.conn.beforeContent id args confirmed).append id frames) := by
  obtain ⟨confirm, mandatoryTags, heq⟩ := beforeContent_eq m.conn id args confirmed
  rw [heq]
  refine { waiters := rfl, log := ⟨_, rfl, ?_⟩, failed := fun _ _ => .inl, kept := fun _ h => h }
  intro s hs
  obtain ⟨f, hf, rfl⟩ := List.mem_map.mp hs
  refine ⟨fun r => not_asks_of_ids fun ids h => ?_, ?_⟩
  · rw [hids f hf ids h]
    cases r <;> simp [SyncRequest.method, Method.ids]
  · rintro other ⟨⟩
    exact hset

theorem WaiterInv.publishReached (hinv : WaiterInv m) {entry : PublishEntry}
    (hset : m.calls id ≠ none) (hnot : ∀ r, ¬m.Expecting id r)
    {result : EStateM.Result Exc Conn PublishStep} (hreached : SegmentReached id args entry m.conn result)
    (hselecting : ∀ props conn, result ≠ .ok (.selecting props) conn) :
    WaiterInv (m.publishReached id args result) := by
  cases hreached with
  | refused hrefused =>
    obtain ⟨channels, confirm, rfl, -⟩ := hrefused
    have hconn : WaiterInv (m.setConn { m.conn with channels, confirm }) :=
      hinv.setConn (.of_same rfl rfl rfl)
    exact hconn.setCall rfl hnot
  | selecting hentry hprops hframe => exact absurd rfl (hselecting _ _)
  | written hcontent hframes =>
    rename_i props confirmed frames
    have hconn : WaiterInv (m.setConn ((m.conn.beforeContent id args confirmed).append id frames)) :=
      hinv.setConn (content_waiterQuiet hset confirmed fun f hf ids => methodIds_of_content hframes hf)
    rw [Machine.publishReached]
    split
    · exact hconn.setCall rfl hnot
    · exact hconn.afterDrain hnot _
  | broken hcontent hframes =>
    rename_i props confirmed e
    have hconn : WaiterInv (m.setConn ((m.conn.beforeContent id args confirmed).append id
        (methodFrame m.conn.frameMax args).toList)) := by
      refine hinv.setConn (content_waiterQuiet hset confirmed fun f hf ids hids => ?_)
      have hmethod := Option.mem_toList.mp hf
      rw [(methodIds_of_frameOf hmethod).2] at hids
      exact (Option.some.inj hids).symm
    exact hconn.setCall rfl hnot

theorem WaiterInv.publish (hinv : WaiterInv m) (hnew : m.calls id = none) (args : PublishArgs) :
    WaiterInv (m.publishReached id args (publishSegment id args .call m.conn)) := by
  have hreached := publishSegment_reached id args .call m.conn
  generalize publishSegment id args .call m.conn = result at hreached ⊢
  by_cases hselecting : ∃ props conn, result = .ok (.selecting props) conn
  · obtain ⟨props, conn, rfl⟩ := hselecting
    cases hreached with
    | selecting hentry hprops hframe =>
      exact hinv.ask hnew ⟨_, _, rfl, fun c => Conn.trackerOf_setTracker_same m.conn args.channel c⟩ hframe
  · have hset : WaiterInv (m.setCall id (.done none (.ok none))) :=
      hinv.setCall rfl (not_expecting hnew (by simp))
    rw [← publishReached_setCall m id (.done none (.ok none))]
    refine hset.publishReached (by simp) (not_expecting (setCall_calls_self _ _ _) (by simp)) hreached ?_
    intro props conn heq
    exact hselecting ⟨props, conn, heq⟩

theorem WaiterInv.requestReached (hinv : WaiterInv m) (r : SyncRequest) (hnew : m.calls id = none) :
    WaiterInv (m.requestReached id r (r.start id m.conn)) := by
  have hreached := SyncRequest.start_reached id r m.conn
  generalize r.start id m.conn = result at hreached ⊢
  have hdone {conn : Conn} (hrefused : m.conn.Refused conn) (outcome : Except Exc (Option Text)) :
      WaiterInv ((m.setConn conn).setCall id (.done none outcome)) := by
    obtain ⟨channels, confirm, rfl, -⟩ := hrefused
    have hconn : WaiterInv (m.setConn { m.conn with channels, confirm }) :=
      hinv.setConn (.of_same rfl rfl rfl)
    exact hconn.setCall rfl (not_expecting hnew (by simp))
  cases hreached with
  | refused hrefused => exact hdone hrefused _
  | immediate hselect hrefused => exact hdone hrefused _
  | asked hrefused hframe => exact hinv.ask hnew hrefused hframe

theorem finish_of_ok {reply : Method} {result : Option Text} (h : r.result reply = .ok result) (conn : Conn) :
    ∃ confirm, r.finish reply conn = .ok result { conn with confirm } := by
  by_cases hselect : ∃ channel, r = .confirmSelect channel
  · obtain ⟨channel, rfl⟩ := hselect
    cases h
    exact ⟨_, rfl⟩
  · exact ⟨conn.confirm, by rw [SyncRequest.finish_of_ne_select hselect, h]; rfl⟩

theorem finish_of_error {reply : Method} {e : Exc} (h : r.result reply = .error e) (conn : Conn) :
    r.finish reply conn = .error e conn := by
  by_cases hselect : ∃ channel, r = .confirmSelect channel
  · obtain ⟨channel, rfl⟩ := hselect
    cases h
  · rw [SyncRequest.finish_of_ne_select hselect, h, lift_error]

theorem WaiterInv.expected (hinv : WaiterInv m) {next : Option (PublishArgs × Properties)}
    {outcome : Except Exc Method} (hcall : m.calls id = some (.expecting r next))
    (houtcome : m.conn.replies id = some outcome) : WaiterInv (m.expected id r next outcome) := by
  have hexpecting : m.Expecting id r := ⟨next, hcall⟩
  have hasked := hinv.asked id r (requestOf_of_expecting hexpecting)
  have hleft {ended : Except Exc (Option Text)} (hok : ∀ result, ended = .ok result → ∃ method,
        ownReply m.conn.written m.received id r = some method ∧ r.result method = .ok result)
      (hlate : ended = .error .timeoutError → Late m id r) :
      WaiterInv (((m.forgetWaiter r.key).endRequest id ended).setCall id (.done none ended)) :=
    hinv.leave hexpecting rfl hok hlate
  cases outcome with
  | error e =>
    refine hleft (by simp) fun heq => ?_
    cases heq
    exact hinv.late id r hasked houtcome
  | ok reply =>
    have hown := hinv.own id r reply hasked houtcome
    rw [Machine.expected, Machine.answered]
    cases hresult : r.result reply with
    | error e =>
      rw [finish_of_error hresult]
      refine hleft (by simp) fun heq => ?_
      cases heq
      exact absurd hresult (result_ne_timeout r reply)
    | ok result =>
      obtain ⟨confirm, hfinish⟩ := finish_of_ok hresult (m.forgetWaiter r.key).conn
      rw [hfinish]
      have hdone : WaiterInv
          (((m.forgetWaiter r.key).endRequest id (.ok result)).setCall id (.done none (.ok result))) :=
        hleft (fun result' heq => ⟨reply, hown, hresult.trans heq⟩) (by simp)
      have hconn := hdone.setConn (show WaiterQuiet _ { (m.forgetWaiter r.key).conn with confirm } from
        .of_same rfl rfl rfl)
      cases next with
      | none => exact hconn
      | some content =>
        obtain ⟨args, props⟩ := content
        simp only
        rw [← publishReached_setCall _ id (.done none (.ok result))]
        have hreached := publishSegment_reached id args (.afterSelect props)
          { (m.forgetWaiter r.key).conn with confirm }
        refine hconn.publishReached (by simp) (not_expecting (setCall_calls_self _ _ _) (by simp)) hreached ?_
        intro props' conn heq
        rw [heq] at hreached
        cases hreached with
        | selecting hentry => cases hentry

theorem WaiterInv.drained (hinv : WaiterInv m) {failure : Option Interrupt}
    (hturn : waitsInTurn m (.drained id failure) = true) (h : m.drained id failure = some m') :
    WaiterInv m' := by
  unfold Machine.drained at h
  split at h
  · rename_i r next hcall
    cases h
    simp only [waitsInTurn, hcall, decide_eq_true_eq] at hturn
    exact hinv.expect hcall hturn.1 hturn.2
  · rename_i r next i hcall
    cases h
    exact hinv.setCall rfl (not_expecting hcall (by simp))
  · rename_i args tag hcall
    cases h
    exact hinv.afterDrain (not_expecting hcall (by simp)) tag
  · rename_i args tag i hcall
    cases h
    exact hinv.setCall rfl (not_expecting hcall (by simp))
  · cases h

theorem WaiterInv.wake (hinv : WaiterInv m) (h : m.wake id = some m') : WaiterInv m' := by
  unfold Machine.wake at h
  split at h
  · rename_i r next hcall
    obtain ⟨outcome, houtcome, rfl⟩ := Option.map_eq_some_iff.mp h
    exact hinv.expected hcall houtcome
  · rename_i args tag hcall
    obtain ⟨-, ⟨⟩⟩ := Option.ite_none_right_eq_some.mp h
    exact hinv.afterDrain (not_expecting hcall (by simp)) (some tag)
  · cases h

/-- A waiting call is late by definition from its deadline on: its reply is still to come. -/
theorem WaiterInv.deadline (hinv : WaiterInv m) (h : m.deadline id = some m') : WaiterInv m' := by
  unfold Machine.deadline at h
  split at h
  · rename_i r next hcall hpending
    cases h
    have hexpecting : m.Expecting id r := ⟨next, hcall⟩
    have hindex := hinv.pending id r hexpecting hpending
    have hasked := hinv.asked id r (requestOf_of_expecting hexpecting)
    let expiring : Machine :=
      { m with expired := fun other => if other = id then some m.received.length else m.expired other }
    have hself : Late expiring id r := by
      refine ⟨m.received.length, le_rfl, if_pos rfl, ?_⟩
      rw [List.take_length]
      simp [expiring, ownReply, hindex]
    have hlate {other : CallId} {r' : SyncRequest} (h : m.asked other = some r') (hold : Late m other r') :
        Late expiring other r' := by
      by_cases heq : other = id
      · subst heq
        rw [hasked] at h
        cases h
        exact hself
      · obtain ⟨n, hn, hexpired, hnone⟩ := hold
        exact ⟨n, hn, (if_neg heq).trans hexpired, hnone⟩
    have hexpiring : WaiterInv expiring :=
      { asked := hinv.asked, fresh := hinv.fresh, unwritten := hinv.unwritten,
        draining := hinv.draining, indexed := hinv.indexed, registered := hinv.registered,
        waiting := hinv.waiting, pending := hinv.pending, own := hinv.own,
        late := fun other r' h htimeout => hlate h (hinv.late other r' h htimeout),
        returned := hinv.returned,
        raised := fun other r' h hended => hlate h (hinv.raised other r' h hended) }
    refine hexpiring.settleFuture _ ?_ hexpecting (fun other hne => if_neg hne) ?_ fun _ => hself
    · rw [if_pos rfl]
      rfl
    · intro method hok
      rw [if_pos rfl] at hok
      cases hok
  · cases h

theorem WaiterInv.cancel (hinv : WaiterInv m) (h : m.cancel id = some m') : WaiterInv m' := by
  unfold Machine.cancel at h
  split at h
  · rename_i r next hcall
    cases h
    refine hinv.settleFuture _ ?_ ⟨next, hcall⟩ (fun other hne => if_neg hne) ?_ ?_
    · rw [if_pos rfl]
      rfl
    · intro method hok
      rw [if_pos rfl] at hok
      cases hok
    · intro htimeout
      rw [if_pos rfl] at htimeout
      cases htimeout
  · cases h
    exact hinv.setConn (.of_same rfl rfl rfl)
  · cases h

theorem WaiterInv.step {e : Event} (hinv : WaiterInv m) (hturn : waitsInTurn m e = true)
    (h : m.step e = some m') : WaiterInv m' := by
  cases e with
  | request id r =>
    obtain ⟨hnew, ⟨⟩⟩ := Option.ite_none_right_eq_some.mp h
    exact hinv.requestReached r hnew
  | publish id args =>
    obtain ⟨hnew, ⟨⟩⟩ := Option.ite_none_right_eq_some.mp h
    exact hinv.publish hnew args
  | drained id failure => exact hinv.drained hturn h
  | wake id => exact hinv.wake h
  | deadline id => exact hinv.deadline h
  | cancel id => exact hinv.cancel h
  | frame f =>
    obtain ⟨-, ⟨⟩⟩ := Option.ite_none_right_eq_some.mp h
    exact (readFrame_taken m.conn f).waiterInv hinv
  | closeDrained =>
    simp only [Machine.step] at h
    split at h
    · cases h
      exact hinv.setConn (endReader_waiterQuiet hinv _)
    · cases h
  | eof =>
    obtain ⟨-, ⟨⟩⟩ := Option.ite_none_right_eq_some.mp h
    exact hinv.setConn (endReader_waiterQuiet hinv _)
  | lose exc =>
    cases h
    exact hinv.setConn (notifyLoss_waiterQuiet hinv exc)

end Steps

/-! ## Runs -/

theorem WaiterInv.opened (frameMax : Nat) (h : frameMax < 2 ^ 32) (channels : List Int) :
    WaiterInv (Machine.opened frameMax h channels) where
  asked id r hrequest := by cases hrequest
  fresh id _ := ⟨rfl, rfl, rfl⟩
  unwritten id _ s hs := by cases hs
  draining id r next hcall := by cases hcall
  indexed id r hasked := by cases hasked
  registered key id hget := by cases hget
  waiting id r hexpecting := by
    obtain ⟨next, hcall⟩ := hexpecting
    cases hcall
  pending id r hexpecting := by
    obtain ⟨next, hcall⟩ := hexpecting
    cases hcall
  own id r method hasked := by cases hasked
  late id r hasked := by cases hasked
  returned id r result hasked := by cases hasked
  raised id r hasked := by cases hasked

/-- In every run whose tasks wait in turn, requests return their own replies and none times out
whose reply was taken in time. -/
theorem replies_matched (frameMax : Nat) (hframeMax : frameMax < 2 ^ 32) (channels : List Int) {m : Machine}
    (h : ReachesWhere Machine.step (fun m e => waitsInTurn m e = true)
      (Machine.opened frameMax hframeMax channels) m) : RepliesMatched m := by
  have hinv : WaiterInv m := h.invariant (WaiterInv.opened frameMax hframeMax channels)
    fun _ _ _ hinv hok hstep => hinv.step hok hstep
  exact ⟨hinv.returned, hinv.raised⟩

def declareNamed : SyncRequest := .queueDeclare 1 {}

def declareOk (name : UInt8) : Frame := ⟨.method, 1, [0, 50, 0, 11, 1, name, 0, 0, 0, 0, 0, 0, 0, 0]⟩

def oneAfterTheOther : List Event :=
  [.request 0 declareNamed, .drained 0 none, .frame (declareOk 97), .wake 0,
    .request 1 declareNamed, .drained 1 none, .frame (declareOk 98), .wake 1]

theorem oneAfterTheOther_matched :
    ∃ m, run Machine.step openedOne oneAfterTheOther = some m ∧ RepliesMatched m := by
  obtain ⟨m, hm⟩ : ∃ m, run Machine.step openedOne oneAfterTheOther = some m :=
    Option.isSome_iff_exists.mp (by decide +kernel)
  exact ⟨m, hm, replies_matched defaultFrameMax (by decide) [1] (reaches_of_run hm (by decide +kernel))⟩

def bothAtOnce : List Event :=
  [.request 0 declareNamed, .request 1 declareNamed, .drained 0 none, .drained 1 none,
    .frame (declareOk 97), .wake 1]

def returnedEarly (m : Machine) (id : CallId) : Bool :=
  match m.asked id, m.ended id with
  | some r, some (.ok _) => (ownReply m.conn.written m.received id r).isNone
  | _, _ => false

/-- The second task returns the queue that was declared for the first. -/
theorem replies_not_matched : ¬∀ m, ReachesWhere Machine.step (fun m e => answersInOrder m e = true)
    openedOne m → RepliesMatched m := by
  intro hmatched
  have hrun : (run Machine.step openedOne bothAtOnce).any (returnedEarly · 1) = true := by decide +kernel
  obtain ⟨m, hm, hearly⟩ := (Option.any_eq_true _ _).mp hrun
  have h := hmatched m (reaches_of_run hm (by decide +kernel))
  unfold returnedEarly at hearly
  split at hearly
  · rename_i r result hasked hended
    obtain ⟨method, hown, -⟩ := h.returned 1 r result hasked hended
    rw [hown] at hearly
    cases hearly
  · cases hearly

end Nuropb.Transport
