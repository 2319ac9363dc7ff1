import Nuropb.Transport.Numbering
import Nuropb.Transport.TaskViews

/-! # Waiters and replies

Requests and replies are matched by their order under one channel and pair of ids: the reply to
a request is the one at its own position. The invariant says that a task waits only while
exactly the earlier requests under its key are answered.
-/
namespace Nuropb.Transport

open Library Protocol

/-- The frame is a request whose reply arrives under the key. -/
def Sent.asks (key : WaiterKey) (s : Sent) : Bool :=
  s.frame.channel = key.1 ∧ (s.frame.methodIds.map fun ids => (ids.1, ids.2 + 1)) = some key.2

/-- The position of a call's request among those written under the key. -/
def askIndex (key : WaiterKey) (written : List Sent) (id : CallId) : Option Nat :=
  (written.filter (Sent.asks key)).findIdx? fun s => s.caller = some id

def Frame.replyTo (key : WaiterKey) (f : Frame) : Option Method :=
  if f.frameType = .method ∧ f.channel = key.1 then
    match decodeMethod f.payload with
    | .ok method => if method.ids = key.2 then some method else none
    | .error _ => none
  else none

/-- The replies under the key, in the order in which they were received. -/
def repliesTo (key : WaiterKey) (received : List Frame) : List Method :=
  received.filterMap (Frame.replyTo key)

/-- The reply at the position of the call's own request. -/
def ownReply (written : List Sent) (received : List Frame) (id : CallId) (r : SyncRequest) : Option Method :=
  (askIndex r.key written id).bind fun i => (repliesTo r.key received)[i]?

/-- The deadline of the call's wait passed before its own reply was taken. -/
def Late (m : Machine) (id : CallId) (r : SyncRequest) : Prop :=
  ∃ n ≤ m.received.length, m.expired id = some n ∧
    ownReply m.conn.written (m.received.take n) id r = none

/-- The call waits for its reply. -/
def Machine.Expecting (m : Machine) (id : CallId) (r : SyncRequest) : Prop :=
  ∃ next, m.calls id = some (.expecting r next)

structure WaiterInv (m : Machine) : Prop where
  asked : ∀ id r, m.requestOf id = some r → m.asked id = some r
  fresh : ∀ id, m.calls id = none → m.asked id = none ∧ m.conn.replies id = none ∧ m.ended id = none
  unwritten : ∀ id, m.calls id = none → ∀ s ∈ m.conn.written, s.caller ≠ some id
  draining : ∀ id r next, m.calls id = some (.draining r next) → m.conn.replies id = none
  indexed : ∀ id r, m.asked id = some r → ∃ i, askIndex r.key m.conn.written id = some i
  registered : ∀ key id, m.conn.waiters.get? key = some id → ∃ r, m.Expecting id r ∧ r.key = key
  waiting : ∀ id r, m.Expecting id r → m.conn.waiters.get? r.key = some id
  pending : ∀ id r, m.Expecting id r → m.conn.replies id = none →
    askIndex r.key m.conn.written id = some (repliesTo r.key m.received).length
  own : ∀ id r method, m.asked id = some r → m.conn.replies id = some (.ok method) →
    ownReply m.conn.written m.received id r = some method
  late : ∀ id r, m.asked id = some r → m.conn.replies id = some (.error .timeoutError) → Late m id r
  returned : ∀ id r result, m.asked id = some r → m.ended id = some (.ok result) →
    ∃ method, ownReply m.conn.written m.received id r = some method ∧ r.result method = .ok result
  raised : ∀ id r, m.asked id = some r → m.ended id = some (.error .timeoutError) → Late m id r

section Lists

variable {key : WaiterKey} {written more : List Sent} {received : List Frame} {id : CallId} {i : Nat}
  {r : SyncRequest} {f : Frame}

theorem askIndex_append (h : askIndex key written id = some i) :
    askIndex key (written ++ more) id = some i := by
  rw [askIndex, List.filter_append, List.findIdx?_append, ← askIndex, h]
  rfl

theorem askIndex_new (hasks : Sent.asks key ⟨some id, f⟩ = true)
    (hnew : ∀ s ∈ written, s.caller ≠ some id) :
    askIndex key (written ++ [⟨some id, f⟩]) id = some (written.filter (Sent.asks key)).length := by
  have hnone : (written.filter (Sent.asks key)).findIdx? (fun s => s.caller = some id) = none :=
    List.findIdx?_eq_none_iff.mpr fun s hs => by simpa using hnew s (List.mem_filter.mp hs).1
  rw [askIndex, List.filter_append, List.findIdx?_append, hnone, List.filter_cons, hasks]
  simp

theorem repliesTo_append : repliesTo key (received ++ [f]) = repliesTo key received ++ (f.replyTo key).toList := by
  rw [repliesTo, List.filterMap_append, ← repliesTo]
  cases h : f.replyTo key <;> simp [h]

theorem replyTo_eq_some_iff {method : Method} : f.replyTo key = some method ↔
    f.frameType = .method ∧ f.channel = key.1 ∧ decodeMethod f.payload = .ok method ∧
      method.ids = key.2 := by
  unfold Frame.replyTo
  constructor
  · intro h
    obtain ⟨⟨htype, hchannel⟩, h⟩ := Option.ite_none_right_eq_some.mp h
    split at h
    · rename_i decoded hdecoded
      obtain ⟨hids, ⟨⟩⟩ := Option.ite_none_right_eq_some.mp h
      exact ⟨htype, hchannel, hdecoded, hids⟩
    · cases h
  · rintro ⟨htype, hchannel, hdecoded, hids⟩
    rw [if_pos ⟨htype, hchannel⟩, hdecoded]
    exact if_pos hids

theorem asks_of_frameOf {frameMax : Nat} {frame : Frame} {caller : Option CallId}
    (h : frameOf frameMax .method r.channel (encodeMethod r.method) = some frame) (key : WaiterKey) :
    Sent.asks key ⟨caller, frame⟩ = decide (r.key = key) := by
  obtain ⟨hchannel, hids⟩ := methodIds_of_frameOf h
  rw [Sent.asks, hchannel, hids, Option.map_some, decide_eq_decide, Option.some.injEq,
    SyncRequest.key, SyncRequest.replyIds]
  exact ⟨fun ⟨hfirst, hsecond⟩ => Prod.ext hfirst hsecond, fun heq => ⟨congrArg Prod.fst heq, congrArg Prod.snd heq⟩⟩

theorem not_asks_of_ids {s : Sent} (h : ∀ ids, s.frame.methodIds = some ids → ids ≠ r.method.ids) :
    s.asks r.key = false := by
  rw [Sent.asks, decide_eq_false_iff_not]
  rintro ⟨-, heq⟩
  obtain ⟨ids, hids, heq⟩ := Option.map_eq_some_iff.mp heq
  refine h ids hids ?_
  rw [SyncRequest.key, SyncRequest.replyIds, Prod.mk.injEq, Nat.add_left_inj] at heq
  exact Prod.ext heq.1 heq.2

theorem replyIds_ne (r : SyncRequest) {method : Method} (h : method.ids = r.replyIds) :
    Handled method = false ∧ confirmOf method = none := by
  cases r <;> simp only [SyncRequest.replyIds, SyncRequest.method, Method.ids] at h <;>
    cases method <;> simp [Handled, confirmOf] at h ⊢

theorem ownReply_append (h : ∃ i, askIndex r.key written id = some i) :
    ownReply (written ++ more) received id r = ownReply written received id r := by
  obtain ⟨i, hi⟩ := h
  rw [ownReply, askIndex_append hi, ownReply, hi]

theorem ownReply_receive {method : Method} (h : ownReply written received id r = some method) :
    ownReply written (received ++ [f]) id r = some method := by
  obtain ⟨i, hi, hget⟩ := Option.bind_eq_some_iff.mp h
  obtain ⟨hlt, -⟩ := List.getElem?_eq_some_iff.mp hget
  rw [ownReply, hi, Option.bind_some, repliesTo_append, List.getElem?_append_left hlt, hget]

end Lists

/-! ## Rules -/

/-- A change of the connection that neither asks nor answers; a waiter may be failed. -/
structure WaiterQuiet (m : Machine) (conn' : Conn) : Prop where
  waiters : conn'.waiters = m.conn.waiters
  log : ∃ more, conn'.written = m.conn.written ++ more ∧ ∀ s ∈ more,
    (∀ r : SyncRequest, s.asks r.key = false) ∧ ∀ id, s.caller = some id → m.calls id ≠ none
  failed : ∀ id outcome, conn'.replies id = some outcome → m.conn.replies id = some outcome ∨
    ∃ e r, outcome = .error e ∧ e ≠ .timeoutError ∧ m.Expecting id r
  kept : ∀ id, conn'.replies id = none → m.conn.replies id = none

section Rules

variable {m : Machine} {conn' : Conn} {id : CallId} {r : SyncRequest}
  {next : Option (PublishArgs × Properties)} {phase : Phase}

theorem WaiterQuiet.of_same (hwaiters : conn'.waiters = m.conn.waiters)
    (hwritten : conn'.written = m.conn.written) (hreplies : conn'.replies = m.conn.replies) :
    WaiterQuiet m conn' where
  waiters := hwaiters
  log := ⟨[], by rw [hwritten, List.append_nil], by simp⟩
  failed id outcome h := .inl (by rwa [hreplies] at h)
  kept id h := by rwa [hreplies] at h

theorem WaiterInv.setConn (hinv : WaiterInv m) (h : WaiterQuiet m conn') : WaiterInv (m.setConn conn') := by
  obtain ⟨more, hwritten, hmore⟩ := h.log
  have hindex (id : CallId) (r : SyncRequest) (hasked : m.asked id = some r) :
      askIndex r.key conn'.written id = askIndex r.key m.conn.written id := by
    obtain ⟨i, hi⟩ := hinv.indexed id r hasked
    rw [hwritten, askIndex_append hi, hi]
  have hown (received : List Frame) (id : CallId) (r : SyncRequest) (hasked : m.asked id = some r) :
      ownReply conn'.written received id r = ownReply m.conn.written received id r := by
    rw [ownReply, hindex id r hasked, ownReply]
  have hlate (id : CallId) (r : SyncRequest) (hasked : m.asked id = some r) (hold : Late m id r) :
      Late (m.setConn conn') id r := by
    obtain ⟨n, hn, hexpired, hnone⟩ := hold
    exact ⟨n, hn, hexpired, (hown _ id r hasked).trans hnone⟩
  refine
    { asked := hinv.asked, fresh := ?_, unwritten := ?_, draining := ?_, indexed := ?_,
      registered := ?_, waiting := ?_, pending := ?_, own := ?_, late := ?_, returned := ?_,
      raised := ?_ }
  · intro id hnone
    obtain ⟨hasked, hreply, hended⟩ := hinv.fresh id hnone
    refine ⟨hasked, ?_, hended⟩
    cases houtcome : conn'.replies id with
    | none => exact houtcome
    | some outcome =>
      rcases h.failed id outcome houtcome with hold | ⟨e, r, -, -, next, hcall⟩
      · rw [hreply] at hold
        cases hold
      · rw [setConn_calls] at hnone
        rw [hnone] at hcall
        cases hcall
  · intro id hnone s hs
    rw [setConn_conn, hwritten] at hs
    rcases List.mem_append.mp hs with hs | hs
    · exact hinv.unwritten id hnone s hs
    · exact fun hcaller => (hmore s hs).2 id hcaller hnone
  · intro id r next hcall
    cases houtcome : conn'.replies id with
    | none => exact houtcome
    | some outcome =>
      rcases h.failed id outcome houtcome with hold | ⟨e, r', -, -, next', hexpecting⟩
      · rw [hinv.draining id r next hcall] at hold
        cases hold
      · rw [setConn_calls] at hcall
        rw [hcall] at hexpecting
        cases hexpecting
  · intro id r hasked
    rw [setConn_conn, hindex id r hasked]
    exact hinv.indexed id r hasked
  · intro key id hget
    rw [setConn_conn, h.waiters] at hget
    exact hinv.registered key id hget
  · intro id r hexpecting
    rw [setConn_conn, h.waiters]
    exact hinv.waiting id r hexpecting
  · intro id r hexpecting hnone
    obtain ⟨next, hcall⟩ := hexpecting
    have hrequest : m.requestOf id = some r := by
      rw [setConn_calls] at hcall
      rw [Machine.requestOf, hcall]
      rfl
    rw [setConn_conn, hindex id r (hinv.asked id r hrequest)]
    exact hinv.pending id r ⟨next, hcall⟩ (h.kept id hnone)
  · intro id r method hasked hreply
    rw [setConn_conn, hown _ id r hasked]
    rcases h.failed id _ hreply with hold | ⟨e, r', heq, -⟩
    · exact hinv.own id r method hasked hold
    · cases heq
  · intro id r hasked hreply
    rcases h.failed id _ hreply with hold | ⟨e, r', heq, hne, -⟩
    · exact hlate id r hasked (hinv.late id r hasked hold)
    · cases heq
      exact absurd rfl hne
  · intro id r result hasked hended
    rw [setConn_conn, hown _ id r hasked]
    exact hinv.returned id r result hasked hended
  · intro id r hasked hended
    exact hlate id r hasked (hinv.raised id r hasked hended)

theorem requestOf_of_expecting (h : m.Expecting id r) : m.requestOf id = some r := by
  obtain ⟨next, hcall⟩ := h
  rw [Machine.requestOf, hcall]
  rfl

theorem expecting_setCall {other : CallId} (hphase : ∀ next, phase ≠ .expecting r next) :
    (m.setCall id phase).Expecting other r ↔ other ≠ id ∧ m.Expecting other r := by
  unfold Machine.Expecting
  rw [setCall_calls]
  by_cases h : other = id
  · rw [if_pos h]
    exact iff_of_false (fun ⟨next, heq⟩ => hphase next (Option.some.inj heq)) (fun hand => hand.1 h)
  · rw [if_neg h]
    exact ⟨fun hexpecting => ⟨h, hexpecting⟩, fun hand => hand.2⟩

theorem ne_expecting_of_request (hphase : phase.request = none) (r : SyncRequest)
    (next : Option (PublishArgs × Properties)) : phase ≠ .expecting r next := by
  rintro rfl
  cases hphase

theorem WaiterInv.setCall (hinv : WaiterInv m) (hphase : phase.request = none)
    (hnot : ∀ r, ¬m.Expecting id r) : WaiterInv (m.setCall id phase) := by
  have hexpecting (other : CallId) (r : SyncRequest) :
      (m.setCall id phase).Expecting other r ↔ other ≠ id ∧ m.Expecting other r :=
    expecting_setCall (ne_expecting_of_request hphase r)
  have hcalls {other : CallId} (hnone : (m.setCall id phase).calls other = none) : m.calls other = none := by
    rw [setCall_calls] at hnone
    split at hnone
    · cases hnone
    · exact hnone
  refine
    { asked := ?_, fresh := fun other h => hinv.fresh other (hcalls h),
      unwritten := fun other h => hinv.unwritten other (hcalls h), draining := ?_,
      indexed := hinv.indexed, registered := ?_, waiting := ?_, pending := ?_, own := hinv.own,
      late := hinv.late, returned := hinv.returned, raised := hinv.raised }
  · intro other r h
    rw [setCall_requestOf] at h
    split at h
    · rw [hphase] at h
      cases h
    · exact hinv.asked other r h
  · intro other r next h
    rw [setCall_calls] at h
    split at h
    · cases h
      cases hphase
    · exact hinv.draining other r next h
  · intro key other hget
    obtain ⟨r, hr, hkey⟩ := hinv.registered key other hget
    refine ⟨r, (hexpecting other r).mpr ⟨?_, hr⟩, hkey⟩
    rintro rfl
    exact hnot r hr
  · intro other r h
    exact hinv.waiting other r ((hexpecting other r).mp h).2
  · intro other r h
    exact hinv.pending other r ((hexpecting other r).mp h).2

/-! ## A task asks -/

/-- The request has been written, and the task waits until it is drained. -/
def Machine.asking (m : Machine) (conn' : Conn) (id : CallId) (frame : Frame) (r : SyncRequest)
    (next : Option (PublishArgs × Properties)) : Machine :=
  (m.setConn (conn'.append id [frame])).ask id r next

section Asking

variable {other : CallId} {frame : Frame} {r' : SyncRequest}

theorem asking_written (hrefused : m.conn.Refused conn') :
    (m.asking conn' id frame r next).conn.written = m.conn.written ++ [⟨some id, frame⟩] := by
  obtain ⟨channels, confirm, rfl, -⟩ := hrefused
  rfl

theorem asking_asked (h : (m.asking conn' id frame r next).asked other = some r') :
    other = id ∧ r' = r ∨ other ≠ id ∧ m.asked other = some r' := by
  change (if other = id then some r else m.asked other) = some r' at h
  split at h
  · cases h
    exact .inl ⟨‹_›, rfl⟩
  · exact .inr ⟨‹_›, h⟩

theorem asking_calls (h : (m.asking conn' id frame r next).calls other = none) : other ≠ id ∧ m.calls other = none := by
  change (m.setCall id (.draining r next)).calls other = none at h
  rw [setCall_calls] at h
  split at h
  · cases h
  · exact ⟨‹_›, h⟩

theorem asking_expecting (h : (m.asking conn' id frame r next).Expecting other r') : other ≠ id ∧ m.Expecting other r' := by
  change (m.setCall id (.draining r next)).Expecting other r' at h
  exact (expecting_setCall (by simp)).mp h

/-- What has been asked before keeps its place. -/
theorem WaiterInv.askIndex_asking (hinv : WaiterInv m) (hrefused : m.conn.Refused conn') (h : m.asked other = some r') :
    askIndex r'.key (m.asking conn' id frame r next).conn.written other = askIndex r'.key m.conn.written other := by
  obtain ⟨i, hi⟩ := hinv.indexed other r' h
  rw [asking_written hrefused, askIndex_append hi, hi]

theorem WaiterInv.ownReply_asking (hinv : WaiterInv m) (hrefused : m.conn.Refused conn') (h : m.asked other = some r')
    {received : List Frame} : ownReply (m.asking conn' id frame r next).conn.written received other r' =
      ownReply m.conn.written received other r' := by
  rw [asking_written hrefused]
  exact ownReply_append (hinv.indexed other r' h)

theorem WaiterInv.late_asking (hinv : WaiterInv m) (hrefused : m.conn.Refused conn') (h : m.asked other = some r')
    (hlate : Late m other r') : Late (m.asking conn' id frame r next) other r' := by
  obtain ⟨n, hn, hexpired, hnone⟩ := hlate
  exact ⟨n, hn, hexpired, (hinv.ownReply_asking hrefused h).trans hnone⟩

theorem WaiterInv.indexed_asking (hinv : WaiterInv m) (hnew : m.calls id = none) (hrefused : m.conn.Refused conn')
    (hframe : frameOf m.conn.frameMax .method r.channel (encodeMethod r.method) = some frame)
    (h : (m.asking conn' id frame r next).asked other = some r') :
    ∃ i, askIndex r'.key (m.asking conn' id frame r next).conn.written other = some i := by
  rw [asking_written hrefused]
  rcases asking_asked h with ⟨rfl, rfl⟩ | ⟨-, hold⟩
  · have hasks : Sent.asks r'.key ⟨some other, frame⟩ = true := (asks_of_frameOf hframe r'.key).trans (by simp)
    exact ⟨_, askIndex_new hasks (hinv.unwritten other hnew)⟩
  · obtain ⟨i, hi⟩ := hinv.indexed other r' hold
    exact ⟨i, askIndex_append hi⟩

theorem WaiterInv.ask (hinv : WaiterInv m) (hnew : m.calls id = none) (hrefused : m.conn.Refused conn')
    (hframe : frameOf m.conn.frameMax .method r.channel (encodeMethod r.method) = some frame) :
    WaiterInv (m.asking conn' id frame r next) := by
  obtain ⟨-, hreply, hended⟩ := hinv.fresh id hnew
  have hreplies : (m.asking conn' id frame r next).conn.replies = m.conn.replies := by
    obtain ⟨channels, confirm, rfl, -⟩ := hrefused
    rfl
  have hwaiters : (m.asking conn' id frame r next).conn.waiters = m.conn.waiters := by
    obtain ⟨channels, confirm, rfl, -⟩ := hrefused
    rfl
  refine
    { asked := ?_, fresh := ?_, unwritten := ?_, draining := ?_,
      indexed := fun other r' h => hinv.indexed_asking hnew hrefused hframe h, registered := ?_, waiting := ?_,
      pending := ?_, own := ?_, late := ?_, returned := ?_, raised := ?_ }
  · intro other r' h
    change ((m.setConn conn').setCall id (.draining r next)).requestOf other = some r' at h
    change (if other = id then some r else m.asked other) = some r'
    rw [setCall_requestOf] at h
    split at h
    · rw [if_pos ‹_›]
      exact h
    · rw [if_neg ‹_›]
      exact hinv.asked other r' h
  · intro other h
    obtain ⟨hne, hnone⟩ := asking_calls h
    obtain ⟨hasked, hrest⟩ := hinv.fresh other hnone
    rw [hreplies]
    exact ⟨(if_neg hne).trans hasked, hrest⟩
  · intro other h s hs
    obtain ⟨hne, hnone⟩ := asking_calls h
    rw [asking_written hrefused] at hs
    rcases List.mem_append.mp hs with hs | hs
    · exact hinv.unwritten other hnone s hs
    · rw [List.mem_singleton.mp hs]
      exact fun heq => hne (Option.some.inj heq).symm
  · intro other r' next' h
    rw [hreplies]
    by_cases heq : other = id
    · rw [heq]
      exact hreply
    · exact hinv.draining other r' next' ((if_neg heq).symm.trans h)
  · intro key other hget
    rw [hwaiters] at hget
    obtain ⟨r', ⟨next', hcall⟩, hkey⟩ := hinv.registered key other hget
    have hne : other ≠ id := by
      rintro rfl
      rw [hnew] at hcall
      cases hcall
    exact ⟨r', ⟨next', (if_neg hne).trans hcall⟩, hkey⟩
  · intro other r' h
    rw [hwaiters]
    exact hinv.waiting other r' (asking_expecting h).2
  · intro other r' h hnone
    rw [hreplies] at hnone
    obtain ⟨-, hold⟩ := asking_expecting h
    rw [hinv.askIndex_asking hrefused (hinv.asked other r' (requestOf_of_expecting hold))]
    exact hinv.pending other r' hold hnone
  · intro other r' method h hok
    rw [hreplies] at hok
    rcases asking_asked h with ⟨rfl, -⟩ | ⟨-, hold⟩
    · rw [hreply] at hok
      cases hok
    · exact (hinv.ownReply_asking hrefused hold).trans (hinv.own other r' method hold hok)
  · intro other r' h htimeout
    rw [hreplies] at htimeout
    rcases asking_asked h with ⟨rfl, -⟩ | ⟨-, hold⟩
    · rw [hreply] at htimeout
      cases htimeout
    · exact hinv.late_asking hrefused hold (hinv.late other r' hold htimeout)
  · intro other r' result h hok
    rcases asking_asked h with ⟨rfl, -⟩ | ⟨-, hold⟩
    · exact absurd (hended.symm.trans hok) (by simp)
    · obtain ⟨method, hown, hresult⟩ := hinv.returned other r' result hold hok
      exact ⟨method, (hinv.ownReply_asking hrefused hold).trans hown, hresult⟩
  · intro other r' h htimeout
    rcases asking_asked h with ⟨rfl, -⟩ | ⟨-, hold⟩
    · exact absurd (hended.symm.trans htimeout) (by simp)
    · exact hinv.late_asking hrefused hold (hinv.raised other r' hold htimeout)

end Asking

/-! ## A task waits -/

/-- A task starts to wait when nobody waits under its key and it is next to be answered. -/
theorem WaiterInv.expect (hinv : WaiterInv m) (hcall : m.calls id = some (.draining r next))
    (hfree : m.conn.waiters.get? r.key = none)
    (hturn : askIndex r.key m.conn.written id = some (repliesTo r.key m.received).length) :
    WaiterInv (m.expect id r next) := by
  have hcases {other : CallId} {r' : SyncRequest} (h : (m.expect id r next).Expecting other r') :
      other = id ∧ r' = r ∨ other ≠ id ∧ m.Expecting other r' := by
    obtain ⟨next', h⟩ := h
    rw [Machine.expect, setCall_calls] at h
    split at h
    · cases h
      exact .inl ⟨‹_›, rfl⟩
    · exact .inr ⟨‹_›, next', h⟩
  have hrequest : m.requestOf id = some r := by
    rw [Machine.requestOf, hcall]
    rfl
  have hcalls {other : CallId} (hnone : (m.expect id r next).calls other = none) : m.calls other = none := by
    rw [Machine.expect, setCall_calls] at hnone
    split at hnone
    · cases hnone
    · exact hnone
  refine
    { asked := ?_, fresh := fun other h => hinv.fresh other (hcalls h),
      unwritten := fun other h => hinv.unwritten other (hcalls h), draining := ?_,
      indexed := hinv.indexed, registered := ?_, waiting := ?_, pending := ?_, own := hinv.own,
      late := hinv.late, returned := hinv.returned, raised := hinv.raised }
  · intro other r' h
    rw [Machine.expect, setCall_requestOf] at h
    split at h
    · rename_i heq
      cases h
      exact hinv.asked other r (heq ▸ hrequest)
    · exact hinv.asked other r' h
  · intro other r' next' h
    rw [Machine.expect, setCall_calls] at h
    split at h
    · cases h
    · exact hinv.draining other r' next' h
  · intro key other hget
    simp only [Machine.expect, setCall_conn, setConn_conn, Dict.get?_set] at hget
    split at hget
    · cases hget
      exact ⟨r, ⟨next, setCall_calls_self _ _ _⟩, ‹_›⟩
    · obtain ⟨r', ⟨next', hold⟩, hkey⟩ := hinv.registered key other hget
      have hne : other ≠ id := by
        rintro rfl
        rw [hcall] at hold
        cases hold
      exact ⟨r', ⟨next', (if_neg hne).trans hold⟩, hkey⟩
  · intro other r' h
    simp only [Machine.expect, setCall_conn, setConn_conn, Dict.get?_set]
    rcases hcases h with ⟨rfl, rfl⟩ | ⟨hne, hold⟩
    · exact if_pos rfl
    · have hwaiting := hinv.waiting other r' hold
      rw [if_neg, hwaiting]
      intro hkey
      rw [← hkey, hfree] at hwaiting
      cases hwaiting
  · intro other r' h hnone
    rcases hcases h with ⟨rfl, rfl⟩ | ⟨hne, hold⟩
    · exact hturn
    · exact hinv.pending other r' hold hnone

theorem WaiterInv.leave (hinv : WaiterInv m) (hexpecting : m.Expecting id r)
    {outcome : Except Exc (Option Text)} (hphase : phase.request = none)
    (hok : ∀ result, outcome = .ok result → ∃ method,
      ownReply m.conn.written m.received id r = some method ∧ r.result method = .ok result)
    (hlate : outcome = .error .timeoutError → Late m id r) :
    WaiterInv (((m.forgetWaiter r.key).endRequest id outcome).setCall id phase) := by
  have hasked := hinv.asked id r (requestOf_of_expecting hexpecting)
  have hcases {other : CallId} {r' : SyncRequest}
      (h : (((m.forgetWaiter r.key).endRequest id outcome).setCall id phase).Expecting other r') :
      other ≠ id ∧ m.Expecting other r' :=
    (expecting_setCall (ne_expecting_of_request hphase r')).mp h
  have hcalls {other : CallId}
      (hnone : (((m.forgetWaiter r.key).endRequest id outcome).setCall id phase).calls other = none) :
      other ≠ id ∧ m.calls other = none := by
    rw [setCall_calls] at hnone
    split at hnone
    · cases hnone
    · exact ⟨‹_›, hnone⟩
  refine
    { asked := ?_, fresh := ?_, unwritten := fun other h => hinv.unwritten other (hcalls h).2,
      draining := ?_, indexed := hinv.indexed, registered := ?_, waiting := ?_,
      pending := fun other r' h => hinv.pending other r' (hcases h).2, own := hinv.own,
      late := hinv.late, returned := ?_, raised := ?_ }
  · intro other r' h
    rw [setCall_requestOf] at h
    split at h
    · rw [hphase] at h
      cases h
    · exact hinv.asked other r' h
  · intro other h
    obtain ⟨hne, hnone⟩ := hcalls h
    obtain ⟨hasked', hreply, hended⟩ := hinv.fresh other hnone
    exact ⟨hasked', hreply, (if_neg hne).trans hended⟩
  · intro other r' next' h
    rw [setCall_calls] at h
    split at h
    · cases h
      cases hphase
    · exact hinv.draining other r' next' h
  · intro key other hget
    obtain ⟨hkey, hold⟩ := Dict.get?_of_get?_erase hget
    obtain ⟨r', hr', hkey'⟩ := hinv.registered key other hold
    refine ⟨r', (expecting_setCall (ne_expecting_of_request hphase r')).mpr ⟨?_, hr'⟩, hkey'⟩
    rintro rfl
    have hsame := hinv.asked other r' (requestOf_of_expecting hr')
    rw [hasked] at hsame
    cases hsame
    exact hkey hkey'
  · intro other r' h
    obtain ⟨hne, hold⟩ := hcases h
    have hwaiting := hinv.waiting other r' hold
    refine (Dict.get?_erase_of_ne _ ?_).trans hwaiting
    intro hkey
    rw [← hkey, hinv.waiting id r hexpecting] at hwaiting
    exact hne (Option.some.inj hwaiting).symm
  · intro other r' result h hended
    change (if other = id then some outcome else m.ended other) = _ at hended
    split at hended
    · rename_i heq
      have hsame : m.asked other = some r' := h
      rw [heq, hasked] at hsame
      cases hsame
      rw [heq]
      exact hok result (Option.some.inj hended)
    · exact hinv.returned other r' result h hended
  · intro other r' h hended
    change (if other = id then some outcome else m.ended other) = _ at hended
    split at hended
    · rename_i heq
      have hsame : m.asked other = some r' := h
      rw [heq, hasked] at hsame
      cases hsame
      rw [heq]
      exact hlate (Option.some.inj hended)
    · exact hinv.raised other r' h hended

theorem Late.receive {f : Frame} (h : Late m id r) : Late { m with received := m.received ++ [f] } id r := by
  obtain ⟨n, hn, hexpired, hnone⟩ := h
  refine ⟨n, ?_, hexpired, ?_⟩
  · simp only [List.length_append]
    omega
  · rw [List.take_append_of_le_length hn]
    exact hnone

theorem WaiterInv.receive (hinv : WaiterInv m) {f : Frame}
    (h : ∀ id r, m.Expecting id r → m.conn.replies id = none → f.replyTo r.key = none) :
    WaiterInv { m with received := m.received ++ [f] } where
  asked := hinv.asked
  fresh := hinv.fresh
  unwritten := hinv.unwritten
  draining := hinv.draining
  indexed := hinv.indexed
  registered := hinv.registered
  waiting := hinv.waiting
  pending id r hexpecting hnone := by
    rw [repliesTo_append, h id r hexpecting hnone, Option.toList_none, List.append_nil]
    exact hinv.pending id r hexpecting hnone
  own id r method hasked hok := ownReply_receive (hinv.own id r method hasked hok)
  late id r hasked htimeout := (hinv.late id r hasked htimeout).receive
  returned id r result hasked hended := by
    obtain ⟨method, hown, hresult⟩ := hinv.returned id r result hasked hended
    exact ⟨method, ownReply_receive hown, hresult⟩
  raised id r hasked hended := (hinv.raised id r hasked hended).receive

/-- The future of a waiting call is settled with an outcome that its request justifies. -/
theorem WaiterInv.settleFuture (hinv : WaiterInv m) (replies : CallId → Future Exc Method)
    (hset : (replies id).isSome = true) (hexpecting : m.Expecting id r) (hother : ∀ other, other ≠ id → replies other = m.conn.replies other)
    (hok : ∀ method, replies id = some (.ok method) →
      ownReply m.conn.written m.received id r = some method)
    (hlate : replies id = some (.error .timeoutError) → Late m id r) :
    WaiterInv (m.setConn { m.conn with replies }) := by
  have hasked := hinv.asked id r (requestOf_of_expecting hexpecting)
  obtain ⟨next, hcall⟩ := hexpecting
  have hne {other : CallId} {phase : Option Phase} (h : m.calls other = phase)
      (hphase : phase ≠ some (.expecting r next)) : replies other = m.conn.replies other := by
    refine hother other ?_
    rintro rfl
    exact hphase (h.symm.trans hcall)
  refine
    { asked := hinv.asked, fresh := ?_, unwritten := hinv.unwritten, draining := ?_,
      indexed := hinv.indexed, registered := hinv.registered, waiting := hinv.waiting, pending := ?_,
      own := ?_, late := ?_, returned := hinv.returned, raised := hinv.raised }
  · intro other h
    obtain ⟨hasked', hreply, hended⟩ := hinv.fresh other h
    exact ⟨hasked', (hne h (by simp)).trans hreply, hended⟩
  · intro other r' next' h
    exact (hne h (by simp)).trans (hinv.draining other r' next' h)
  · intro other r' h hnone
    by_cases heq : other = id
    · have hnone' : replies id = none := heq ▸ hnone
      rw [hnone'] at hset
      cases hset
    · exact hinv.pending other r' h ((hother other heq).symm.trans hnone)
  · intro other r' method h hreply
    by_cases heq : other = id
    · subst heq
      have hsame : m.asked other = some r' := h
      rw [hasked] at hsame
      cases hsame
      exact hok method hreply
    · exact hinv.own other r' method h ((hother other heq).symm.trans hreply)
  · intro other r' h htimeout
    by_cases heq : other = id
    · subst heq
      have hsame : m.asked other = some r' := h
      rw [hasked] at hsame
      cases hsame
      exact hlate htimeout
    · exact hinv.late other r' h ((hother other heq).symm.trans htimeout)

/-! ## The read loop -/

variable {f : Frame}

theorem notifyLoss_waiterQuiet (hinv : WaiterInv m) (exc : Exc) :
    WaiterQuiet m (m.conn.notifyLoss exc) := by
  unfold Conn.notifyLoss
  split
  · exact .of_same rfl rfl rfl
  · refine
      { waiters := rfl, log := ⟨[], (List.append_nil _).symm, by simp⟩, failed := ?_, kept := ?_ }
    · intro id outcome h
      rcases settle_eq_some_iff.mp h with hold | ⟨-, hmem, rfl⟩
      · exact .inl hold
      · obtain ⟨key, hget⟩ := Dict.mem_values_iff.mp hmem
        obtain ⟨r, hexpecting, -⟩ := hinv.registered key id hget
        refine .inr ⟨_, r, rfl, ?_, hexpecting⟩
        cases exc <;> simp [asLoss]
    · intro id h
      exact (settle_eq_none_iff.mp h).1

theorem endReader_waiterQuiet (hinv : WaiterInv m) (exc : Exc) : WaiterQuiet m (m.conn.endReader exc) :=
  have h := notifyLoss_waiterQuiet hinv exc
  { waiters := h.waiters, log := h.log, failed := h.failed, kept := h.kept }

/-- A reply settles the one who waits under its key, whose turn it is. -/
theorem WaiterInv.reply (hinv : WaiterInv m) {method : Method} (htype : f.frameType = .method)
    (hmethod : decodeMethod f.payload = .ok method) :
    WaiterInv { m.setConn (m.conn.settleWaiter f.channel method) with received := m.received ++ [f] } := by
  have hreply {key : WaiterKey} (hne : (f.channel, method.ids) ≠ key) : f.replyTo key = none := by
    cases h : f.replyTo key with
    | none => rfl
    | some other =>
      obtain ⟨-, hchannel, hdecoded, hids⟩ := replyTo_eq_some_iff.mp h
      rw [hmethod] at hdecoded
      cases hdecoded
      exact absurd (Prod.ext hchannel hids) hne
  unfold Conn.settleWaiter
  split
  · rename_i hnone
    refine hinv.receive fun id r hexpecting _ => hreply ?_
    intro hkey
    rw [hkey, hinv.waiting id r hexpecting] at hnone
    cases hnone
  · rename_i fut hwaiter
    obtain ⟨r, hexpecting, hkey⟩ := hinv.registered _ fut hwaiter
    have hothers {id : CallId} {r' : SyncRequest} (h : m.Expecting id r') (hne : id ≠ fut) :
        f.replyTo r'.key = none := by
      refine hreply fun heq => hne ?_
      have hwaiting := hinv.waiting id r' h
      rw [← heq, hwaiter] at hwaiting
      exact (Option.some.inj hwaiting).symm
    cases hpending : m.conn.replies fut with
    | none =>
      -- Between the two settlings the reply is received, and nobody waits for it any more.
      have hunique {outcome : Except Exc Method} {other : CallId} (hne : other ≠ fut) :
          settle m.conn.replies [fut] outcome other = m.conn.replies other :=
        settle_of_not_mem (by simpa using hne)
      have hself (outcome : Except Exc Method) :
          settle m.conn.replies [fut] outcome fut = some outcome :=
        settle_of_mem hpending List.mem_cons_self
      have hfirst : WaiterInv (m.setConn { m.conn with
          replies := settle m.conn.replies [fut] (.error .cancelledError) }) := by
        refine hinv.settleFuture _ ?_ hexpecting (fun _ => hunique) ?_ ?_
        · rw [hself]
          rfl
        · intro method' h
          rw [hself] at h
          cases h
        · intro h
          rw [hself] at h
          cases h
      have hsecond := hfirst.receive fun id r' h hnone => by
        refine hothers h ?_
        rintro rfl
        exact absurd ((hself _).symm.trans hnone) (by simp)
      refine hsecond.settleFuture (settle m.conn.replies [fut] (.ok method)) ?_ hexpecting ?_ ?_ ?_
      · rw [hself]
        rfl
      · intro other hne
        rw [hunique hne]
        exact (hunique hne).symm
      · intro method' h
        rw [hself] at h
        cases h
        have hown : f.replyTo r.key = some method :=
          replyTo_eq_some_iff.mpr ⟨htype, by rw [hkey], hmethod, by rw [hkey]⟩
        have hindex := hinv.pending fut r hexpecting hpending
        simp only [setConn_conn, ownReply, hindex, repliesTo_append, hown]
        simp
      · intro h
        rw [hself] at h
        cases h
    | some outcome =>
      have hsame : settle m.conn.replies [fut] (.ok method) = m.conn.replies := by
        funext other
        by_cases heq : other = fut
        · rw [heq, settle_of_done hpending, hpending]
        · exact settle_of_not_mem (by simpa using heq)
      rw [hsame]
      refine hinv.receive fun id r' h hnone => hothers h ?_
      rintro rfl
      rw [hpending] at hnone
      cases hnone

/-- A frame that the loop does not hand to a waiter answers no request. -/
theorem replyTo_of_handled (r : SyncRequest)
    (h : f.frameType = .method → ∀ method, decodeMethod f.payload = .ok method →
      Handled method = true ∨ confirmOf method ≠ none) : f.replyTo r.key = none := by
  cases hreply : f.replyTo r.key with
  | none => rfl
  | some method =>
    obtain ⟨htype, -, hmethod, hids⟩ := replyTo_eq_some_iff.mp hreply
    obtain ⟨hhandled, hconfirm⟩ := replyIds_ne r hids
    rcases h htype method hmethod with htrue | hne
    · rw [hhandled] at htrue
      cases htrue
    · exact absurd hconfirm hne

theorem FrameTaken.waiterInv (h : FrameTaken m.conn f conn') (hinv : WaiterInv m) :
    WaiterInv { m.setConn conn' with received := m.received ++ [f] } := by
  -- All frames but replies answer nobody and then change the connection quietly.
  have hquiet {conn' : Conn} (hreply : ∀ r : SyncRequest, f.replyTo r.key = none)
      (hconn : WaiterQuiet { m with received := m.received ++ [f] } conn') :
      WaiterInv { m.setConn conn' with received := m.received ++ [f] } :=
    (hinv.receive fun _ r _ _ => hreply r).setConn hconn
  have hslot {slot : Slot} (hslot : SlotReached m.conn f slot) (r : SyncRequest) :
      f.replyTo r.key = none := by
    refine replyTo_of_handled r fun htype method hmethod => ?_
    cases hslot with
    | delivered htype' hmethod' | returned htype' hmethod' =>
      rw [hmethod'] at hmethod
      cases hmethod
      exact .inl rfl
    | header htype' hheader hslot => simp [htype] at htype'
    | body htype' hslot hremaining hle => simp [htype] at htype'
  cases h with
  | heartbeat htype =>
    exact hquiet (fun r => replyTo_of_handled r fun hmethod => by simp [htype] at hmethod)
      (.of_same rfl rfl rfl)
  | confirmed htype hmethod hconfirm henabled =>
    obtain ⟨mandatoryTags, heq⟩ := m.conn.clearMandatoryTags_eq f.channel _ _
    rw [heq]
    refine hquiet (fun r => replyTo_of_handled r fun _ method h => ?_) (.of_same rfl rfl rfl)
    rw [hmethod] at h
    cases h
    exact .inr (by rw [hconfirm]; simp)
  | replied htype hmethod hhandled hconfirm => exact hinv.reply htype hmethod
  | blocked publishBlocked htype hmethod hhandled =>
    refine hquiet (fun r => replyTo_of_handled r fun _ method h => ?_) (.of_same rfl rfl rfl)
    rw [hmethod] at h
    cases h
    exact .inl hhandled
  | closing htype hmethod hframe =>
    refine hquiet (fun r => replyTo_of_handled r fun _ method h => ?_) ?_
    · rw [hmethod] at h
      cases h
      exact .inl rfl
    · refine { waiters := rfl, log := ⟨_, rfl, ?_⟩, failed := fun _ _ => .inl, kept := fun _ => id }
      intro s hs
      obtain ⟨f', hf', rfl⟩ := List.mem_map.mp hs
      rw [List.mem_singleton.mp hf']
      refine ⟨fun r => not_asks_of_ids ?_, by simp⟩
      intro ids hids
      rw [(methodIds_of_frameOf hframe).2] at hids
      cases hids
      cases r <;> simp [SyncRequest.method, Method.ids]
  | continued hreached hremaining => exact hquiet (hslot hreached) (.of_same rfl rfl rfl)
  | finished hreached hremaining =>
    obtain ⟨mandatoryTags, returnByTag, returns, deliveries, heq⟩ := m.conn.finishDelivery_eq f.channel _
    rw [heq]
    exact hquiet (hslot hreached) (.of_same rfl rfl rfl)
  | ended hhandled =>
    have hreply (r : SyncRequest) : f.replyTo r.key = none :=
      replyTo_of_handled r fun htype method h => .inl (hhandled htype method h)
    exact hquiet hreply (endReader_waiterQuiet (hinv.receive fun _ r _ _ => hreply r) _)

end Rules

end Nuropb.Transport
