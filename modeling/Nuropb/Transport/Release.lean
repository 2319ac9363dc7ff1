import Nuropb.Library.Transition
import Nuropb.Transport.Sheds
import Nuropb.Transport.ChannelGate

/-! # Who is released when the connection ends

A loss completes the futures that `_waiters` and the trackers hold, and wakes one receiver of each
queue; the end of `close` completes none.
-/
namespace Nuropb.Transport

open Library Protocol

namespace Client

/-- The task stands in line for an item, without a timeout. -/
def InLine (c : Client) (id : CallId) : Prop :=
  c.jobs id = some (.receiving false) ∧ id ∈ c.deliveries.getters ∨
    c.jobs id = some (.receivingReturn false) ∧ id ∈ c.returns.getters

/-- The connection is lost, or a call of `close` has returned. -/
def Ended (c : Client) : Prop := c.conn.lost ≠ none ∨ c.closeReturned = true

/-- No confirm is outstanding, and whoever waits is released by the timer of `_expect`. -/
structure Released (c : Client) : Prop where
  outstanding : ∀ channel tag, (c.conn.trackerOf channel).outstanding.get? tag = none
  timed : ∀ id, c.waiting id = true → ∃ e c', (e = .task (.deadline id) ∨ e = .expire id) ∧
    c.step e = some c' ∧ c'.waiting id = false

/-- Nobody waits, or is going to wait, for what only the broker could bring. -/
structure Calm (c : Client) : Prop where
  outstanding : ∀ channel tag, (c.conn.trackerOf channel).outstanding.get? tag = none
  awaited : ∀ id content, c.tasks.awaited id = some content → c.conn.confirms id ≠ none
  line : ∀ id, ¬c.InLine id

/-- Every pending future that a task awaits is the one that the connection holds, and no receiver without
a timeout stands behind another one. -/
structure Registered (c : Client) : Prop where
  expects : ∀ id key, c.expectsAt id = some key → c.conn.replies id = none → c.conn.waiters.get? key = some id
  awaits : ∀ id args tag, c.tasks.awaited id = some (args, tag) → c.conn.confirms id = none →
    (c.conn.trackerOf args.channel).outstanding.get? tag = some id
  receives : ∀ id, c.jobs id = some (.receiving false) → id ∉ c.deliveries.getters.tail
  receivesReturns : ∀ id, c.jobs id = some (.receivingReturn false) → id ∉ c.returns.getters.tail

/-- The step loses the connection. -/
def loses (c : Client) (e : ClientEvent) : Bool :=
  c.conn.lost.isNone && (c.step e).any fun c' => c'.conn.lost.isSome

/-- `close` returns for the first time. -/
def closeReturns (c : Client) (e : ClientEvent) : Bool :=
  !c.closeReturned && (c.step e).any fun c' => c'.closeReturned

/-- A publish registers a tag. -/
def registers (c : Client) : ClientEvent → Bool
  | .task e => c.tasks.registers e
  | _ => false

/-- A receiver without a timeout finds no item, and stands in line. -/
def lines (c : Client) : ClientEvent → Bool
  | .receive _ timeout => !timeout && c.conn.lost.isNone && c.deliveries.items.isEmpty
  | .receiveReturn _ timeout => !timeout && c.conn.lost.isNone && c.returns.items.isEmpty
  | .wakeJob id =>
    match c.jobs id with
    | some (.receiving timeout) => !timeout && c.deliveries.items.isEmpty
    | some (.receivingReturn timeout) => !timeout && c.returns.items.isEmpty
    | _ => false
  | _ => false

/-- The connection is lost only while it holds every future that is awaited, `close` returns only while
nobody waits, and afterwards nobody registers a confirm or stands in line. -/
structure KeepsReleasing (c : Client) (e : ClientEvent) : Prop where
  lost : c.loses e = true → c.Registered
  closed : c.closeReturns e = true → c.Calm ∧ ∀ id, c.waiting id = false
  after : c.Ended → c.registers e = false ∧ c.lines e = false

end Client

/-! ## Steps -/

/-- No task comes to await a confirm or to stand in line. -/
structure Calms (c c' : Client) : Prop where
  conn : Sheds c.conn c'.conn
  awaited : ∀ id content, c'.tasks.awaited id = some content → c.tasks.awaited id = some content
  line : ∀ id, c'.InLine id → c.InLine id

/-- The connection is lost, and every queue gets its sentinel. -/
structure Loses (c c' : Client) : Prop where
  conn : ∃ exc, LostBy c.conn c'.conn exc
  calls : c'.tasks.calls = c.tasks.calls
  jobs : ∀ id, c'.jobs id = c.jobs id ∨ ∃ outcome, c'.jobs id = some (.ended outcome)
  deliveries : c'.deliveries = c.deliveries.put none
  returns : c'.returns = c.returns.put none

section Steps

variable {c c' c'' : Client} {id : CallId}

theorem Calms.refl (c : Client) : Calms c c := ⟨.refl _, fun _ _ h => h, fun _ h => h⟩

theorem Calms.trans (h : Calms c c') (h' : Calms c' c'') : Calms c c'' where
  conn := h.conn.trans h'.conn
  awaited id content hcontent := h.awaited id content (h'.awaited id content hcontent)
  line id hline := h.line id (h'.line id hline)

@[simp] theorem absorb_jobs (c : Client) (tasks : Machine) : (c.absorb tasks).jobs = c.jobs := by
  unfold Client.absorb
  split <;> rfl

@[simp] theorem absorb_tasks (c : Client) (tasks : Machine) : (c.absorb tasks).tasks = tasks := by
  unfold Client.absorb
  split <;> rfl

@[simp] theorem absorb_closeReturned (c : Client) (tasks : Machine) :
    (c.absorb tasks).closeReturned = c.closeReturned := by
  unfold Client.absorb
  split <;> rfl

theorem mem_deliveries_absorb {tasks : Machine} (h : id ∈ (c.absorb tasks).deliveries.getters) :
    id ∈ c.deliveries.getters := by
  unfold Client.absorb at h
  split at h
  · exact AsyncQueue.mem_getters_foldl_put (AsyncQueue.mem_getters_put h)
  · exact AsyncQueue.mem_getters_foldl_put h

theorem mem_returns_absorb {tasks : Machine} (h : id ∈ (c.absorb tasks).returns.getters) :
    id ∈ c.returns.getters := by
  unfold Client.absorb at h
  split at h
  · exact AsyncQueue.mem_getters_foldl_put (AsyncQueue.mem_getters_put h)
  · exact AsyncQueue.mem_getters_foldl_put h

theorem calms_absorb {tasks : Machine} (h : TaskSheds c.tasks tasks) : Calms c (c.absorb tasks) where
  conn := by
    rw [absorb_conn]
    exact h.conn
  awaited id content hcontent := by
    rw [absorb_tasks] at hcontent
    exact h.awaited id content hcontent
  line id hline := by
    rw [Client.InLine, absorb_jobs] at hline
    exact hline.imp (And.imp_right mem_deliveries_absorb) (And.imp_right mem_returns_absorb)

theorem calms_setConn {conn : Conn} (h : Sheds c.conn conn) : Calms c (c.setConn conn) :=
  calms_absorb (taskSheds_setConn h)

theorem calms_setJob (c : Client) (id : CallId) {job : Job} (h : job ≠ .receiving false)
    (h' : job ≠ .receivingReturn false) : Calms c (c.setJob id job) where
  conn := .refl _
  awaited _ _ hcontent := hcontent
  line other hline := by
    by_cases hother : other = id
    · simp [Client.InLine, Client.setJob, hother, h, h'] at hline
    · simpa [Client.InLine, Client.setJob, hother] using hline

theorem calms_go {conn : Conn} {job : Job} (hconn : Sheds c.conn conn) (id : CallId) (h : job ≠ .receiving false)
    (h' : job ≠ .receivingReturn false) : Calms c ((c.setConn conn).setJob id job) :=
  (calms_setConn hconn).trans (calms_setJob _ id h h')

theorem calms_expectJob (c : Client) (id : CallId) (key : WaiterKey) {job : Job} (h : job ≠ .receiving false)
    (h' : job ≠ .receivingReturn false) : Calms c (c.expectJob id key job) := by
  have hexpect : Sheds c.conn (c.conn.expect key id) := .of_same rfl rfl rfl
  exact calms_go hexpect id h h'

theorem calms_handshake {result : EStateM.Result Exc Conn (Option Handshake)} (h : Sheds c.conn (resultState result))
    (id : CallId) : Calms c (c.handshake id result) := by
  unfold Client.handshake
  split
  · exact calms_go h id (by simp) (by simp)
  · rename_i conn
    have hgo : Calms c ((c.setConn conn).setJob id (.ended (.ok ()))) := calms_go h id (by simp) (by simp)
    exact ⟨hgo.conn, hgo.awaited, hgo.line⟩
  · split
    · exact calms_go h id (by simp) (by simp)
    · exact (calms_setConn h).trans (calms_expectJob _ id _ (by simp) (by simp))

theorem calms_openChannel (c : Client) (id : CallId) (channel : Int) : Calms c (c.openChannel id channel) := by
  have hstart := sheds_startOpenChannel id channel c.conn
  unfold Client.openChannel
  split
  · rename_i hrun
    rw [hrun] at hstart
    exact calms_go hstart id (by simp) (by simp)
  · rename_i hrun
    rw [hrun] at hstart
    exact calms_go hstart id (by simp) (by simp)

theorem calms_openReplied (c : Client) (id : CallId) (channel : Int) : Calms c (c.openReplied id channel) := by
  have hstart := sheds_channelTransition channel ChanState.onOpenOk c.conn
  unfold Client.openReplied
  split
  · rename_i hrun
    rw [hrun] at hstart
    exact calms_go hstart id (by simp) (by simp)
  · rename_i hrun
    rw [hrun] at hstart
    exact calms_go hstart id (by simp) (by simp)

theorem calms_settle (c : Client) (id : CallId) (op : Settlement) (drain : Bool) : Calms c (c.settle id op drain) := by
  have hstart := sheds_settlement id op c.conn
  unfold Client.settle
  split
  · rename_i hrun
    rw [hrun] at hstart
    refine calms_go hstart id ?_ ?_ <;> cases drain <;> simp
  · rename_i hrun
    rw [hrun] at hstart
    exact calms_go hstart id (by simp) (by simp)

theorem sheds_cancelReader (conn : Conn) : Sheds conn conn.cancelReader := by
  unfold Conn.cancelReader
  split
  · exact .of_same rfl rfl rfl
  · exact .refl conn

theorem calms_closeReader (c : Client) (id : CallId) (failure : Option Exc) : Calms c (c.closeReader id failure) :=
  calms_go (sheds_cancelReader c.conn) id (by simp) (by simp)

theorem calms_finishClose (c : Client) (id : CallId) (failure : Option Exc) : Calms c (c.finishClose id failure) := by
  cases failure with
  | none =>
      have hset : Calms c (c.setJob id (.ended (.ok ()))) := calms_setJob c id (by simp) (by simp)
      exact ⟨hset.conn, hset.awaited, hset.line⟩
  | some e => exact calms_setJob c id (by simp) (by simp)

theorem calms_close (c : Client) (id : CallId) : Calms c (c.close id) := by
  unfold Client.close
  split
  · exact calms_finishClose c id none
  · have hclosed : Calms c { c with closed := true, beating := false } := ⟨.refl _, fun _ _ h => h, fun _ h => h⟩
    dsimp only
    generalize ({ c with closed := true, beating := false } : Client) = d at hclosed ⊢
    have hstart := sheds_startClose id d.conn
    split
    · split
      · rename_i hrun
        rw [hrun] at hstart
        exact hclosed.trans (calms_go hstart id (by simp) (by simp))
      · rename_i hrun
        rw [hrun] at hstart
        exact hclosed.trans ((calms_setConn hstart).trans (calms_closeReader _ id _))
    · exact hclosed.trans (calms_closeReader _ id _)

theorem calms_closeReplied (c : Client) (id : CallId) (outcome : Except Exc Method) :
    Calms c (c.closeReplied id outcome) := by
  have hsm : Sheds c.conn { c.conn with sm := .closed } := .of_same rfl rfl rfl
  have hconfirmed : Calms c ((c.setConn { c.conn with sm := .closed }).closeReader id none) :=
    (calms_setConn hsm).trans (calms_closeReader _ id none)
  unfold Client.closeReplied
  split
  · exact hconfirmed
  · split
    · exact hconfirmed
    · exact calms_closeReader c id _

theorem calms_queues {deliveries : AsyncQueue CallId (Option IncomingMessage)}
    {returns : AsyncQueue CallId (Option ReturnedMessage)} {job : Job}
    (hdeliveries : ∀ other ∈ deliveries.getters, other ∈ c.deliveries.getters ∨ other = id)
    (hreturns : ∀ other ∈ returns.getters, other ∈ c.returns.getters ∨ other = id)
    (h : job ≠ .receiving false) (h' : job ≠ .receivingReturn false) :
    Calms c (({ c with deliveries := deliveries, returns := returns } : Client).setJob id job) where
  conn := .refl _
  awaited _ _ hcontent := hcontent
  line other hline := by
    by_cases hother : other = id
    · simp [Client.InLine, Client.setJob, hother, h, h'] at hline
    · simp only [Client.InLine, Client.setJob, hother, if_false] at hline
      rcases hline with ⟨hjob, hmem⟩ | ⟨hjob, hmem⟩
      · exact .inl ⟨hjob, (hdeliveries other hmem).resolve_right hother⟩
      · exact .inr ⟨hjob, (hreturns other hmem).resolve_right hother⟩

/-- A look at a queue by a job that finds an item, or that has a timeout. -/
theorem calms_looked {q : AsyncQueue CallId (Option IncomingMessage)} {timeout : Bool} (c : Client) (id : CallId)
    (hq : q.getters = c.deliveries.getters) (h : timeout = true ∨ q.items ≠ []) :
    Calms c (c.looked id timeout (q.get id)) := by
  have hmem : ∀ other ∈ (q.get id).2.getters, other ∈ c.deliveries.getters ∨ other = id := by
    intro other hother
    rw [← hq]
    exact AsyncQueue.mem_getters_get hother
  have hitem : timeout = false → (q.get id).1 ≠ none := by
    intro htimeout
    obtain ⟨item, hfound, -⟩ := AsyncQueue.get_of_items (h.resolve_left (by simp [htimeout])) id
    simp [hfound]
  generalize q.get id = look at hmem hitem
  obtain ⟨item, deliveries⟩ := look
  cases item with
  | some item => exact calms_queues hmem (fun _ => .inl) (by simp) (by simp)
  | none =>
      cases timeout with
      | false => exact absurd rfl (hitem rfl)
      | true => exact calms_queues hmem (fun _ => .inl) (by simp) (by simp)

theorem calms_lookedReturn {q : AsyncQueue CallId (Option ReturnedMessage)} {timeout : Bool} (c : Client)
    (id : CallId) (hq : q.getters = c.returns.getters) (h : timeout = true ∨ q.items ≠ []) :
    Calms c (c.lookedReturn id timeout (q.get id)) := by
  have hmem : ∀ other ∈ (q.get id).2.getters, other ∈ c.returns.getters ∨ other = id := by
    intro other hother
    rw [← hq]
    exact AsyncQueue.mem_getters_get hother
  have hitem : timeout = false → (q.get id).1 ≠ none := by
    intro htimeout
    obtain ⟨item, hfound, -⟩ := AsyncQueue.get_of_items (h.resolve_left (by simp [htimeout])) id
    simp [hfound]
  generalize q.get id = look at hmem hitem
  obtain ⟨item, returns⟩ := look
  cases item with
  | some item => exact calms_queues (fun _ => .inl) hmem (by simp) (by simp)
  | none =>
      cases timeout with
      | false => exact absurd rfl (hitem rfl)
      | true => exact calms_queues (fun _ => .inl) hmem (by simp) (by simp)

theorem calms_leave (c : Client) (id : CallId) (job : Job) (e : Exc) : Calms c (c.leave id job e) := by
  unfold Client.leave
  split
  · exact calms_queues (fun _ hother => .inl (AsyncQueue.mem_getters_cancel hother)) (fun _ => .inl) (by simp) (by simp)
  · exact calms_queues (fun _ => .inl) (fun _ hother => .inl (AsyncQueue.mem_getters_cancel hother)) (by simp) (by simp)
  · exact .refl c

theorem calms_settleReply (c : Client) (id : CallId) (outcome : Except Exc Method) :
    Calms c (c.setConn (c.conn.settleReply id outcome)) := by
  have hsettle : Sheds c.conn (c.conn.settleReply id outcome) := .of_same rfl rfl rfl
  exact calms_setConn hsettle

theorem calms_expire (h : c.expire id = some c') : Calms c c' := by
  unfold Client.expire at h
  split at h
  · obtain ⟨-, ⟨⟩⟩ := Option.ite_none_right_eq_some.mp h
    exact calms_leave c id _ _
  · obtain ⟨-, ⟨⟩⟩ := Option.ite_none_right_eq_some.mp h
    exact calms_leave c id _ _
  · obtain ⟨-, ⟨⟩⟩ := Option.ite_none_right_eq_some.mp h
    exact calms_settleReply c id _
  · cases h

theorem calms_cancelJob (h : c.cancelJob id = some c') : Calms c c' := by
  unfold Client.cancelJob at h
  split at h
  · cases h
    exact calms_leave c id _ _
  · cases h
    exact calms_leave c id _ _
  · obtain ⟨-, ⟨⟩⟩ := Option.ite_none_right_eq_some.mp h
    exact calms_settleReply c id _
  · cases h

theorem calms_replied (c : Client) (id : CallId) (key : WaiterKey) (job : Job) (outcome : Except Exc Method) :
    Calms c (c.replied id key job outcome) := by
  have hforget : Sheds c.conn (c.conn.forget key) := .of_same rfl rfl rfl
  have hcalm := calms_setConn hforget
  unfold Client.replied
  dsimp only
  generalize c.setConn (c.conn.forget key) = d at hcalm ⊢
  split
  · exact hcalm.trans (calms_handshake (sheds_advance _ id _ _ d.conn) id)
  · exact hcalm.trans (calms_openReplied d id _)
  · exact hcalm.trans (calms_closeReplied d id _)
  · exact hcalm
  · exact hcalm.trans (calms_setJob d id (by simp) (by simp))

theorem calms_wakeJob (h : c.wakeJob id = some c') (hlines : c.lines (.wakeJob id) = false) : Calms c c' := by
  unfold Client.wakeJob at h
  split at h
  · rename_i timeout hjob
    obtain ⟨-, ⟨⟩⟩ := Option.ite_none_right_eq_some.mp h
    refine calms_looked c id rfl ?_
    simpa [Client.lines, hjob, imp_iff_not_or] using hlines
  · rename_i timeout hjob
    obtain ⟨-, ⟨⟩⟩ := Option.ite_none_right_eq_some.mp h
    refine calms_lookedReturn c id rfl ?_
    simpa [Client.lines, hjob, imp_iff_not_or] using hlines
  · obtain ⟨key, -, h⟩ := Option.bind_eq_some_iff.mp h
    obtain ⟨outcome, -, rfl⟩ := Option.map_eq_some_iff.mp h
    exact calms_replied c id key _ outcome
  · cases h

theorem calms_receive {timeout : Bool} (h : c.lines (.receive id timeout) = false) : Calms c (c.receive id timeout) := by
  unfold Client.receive
  split
  · exact calms_setJob c id (by simp) (by simp)
  · rename_i hlost
    refine calms_looked c id rfl ?_
    simpa [Client.lines, hlost, imp_iff_not_or] using h

theorem calms_receiveReturn {timeout : Bool} (h : c.lines (.receiveReturn id timeout) = false) :
    Calms c (c.receiveReturn id timeout) := by
  unfold Client.receiveReturn
  split
  · exact calms_setJob c id (by simp) (by simp)
  · rename_i hlost
    refine calms_lookedReturn c id rfl ?_
    simpa [Client.lines, hlost, imp_iff_not_or] using h

theorem loses_absorb {tasks : Machine} (h : ∃ exc, LostBy c.conn tasks.conn exc) (hcalls : tasks.calls = c.tasks.calls) :
    Loses c (c.absorb tasks) := by
  obtain ⟨exc, hlost⟩ := h
  have hnewly : c.conn.lost.isNone ∧ tasks.conn.lost.isSome := by simp [hlost.live, hlost.lost]
  have hqueues : (c.absorb tasks).deliveries = c.deliveries.put none ∧ (c.absorb tasks).returns = c.returns.put none := by
    unfold Client.absorb
    rw [if_pos hnewly, hlost.deliveries, hlost.returns]
    simp
  exact ⟨⟨exc, by rwa [absorb_conn]⟩, by rw [absorb_tasks, hcalls], fun id => .inl (by rw [absorb_jobs]),
    hqueues.1, hqueues.2⟩

theorem loses_setConn {conn : Conn} (h : ∃ exc, LostBy c.conn conn exc) : Loses c (c.setConn conn) :=
  loses_absorb h rfl

theorem Loses.setJob (h : Loses c c') (id : CallId) (outcome : Except Exc Unit) :
    Loses c (c'.setJob id (.ended outcome)) where
  conn := h.conn
  calls := h.calls
  jobs other := by
    by_cases hother : other = id
    · exact .inr ⟨outcome, by simp [Client.setJob, hother]⟩
    · simpa [Client.setJob, hother] using h.jobs other
  deliveries := h.deliveries
  returns := h.returns

theorem dropped_cases (c : Client) (id : CallId) : Calms c (c.dropped id) ∨ Loses c (c.dropped id) := by
  unfold Client.dropped
  rcases notifyLoss_effect c.conn (.connectionLost "connection dropped") with h | h
  · exact .inl (calms_go h id (by simp) (by simp))
  · exact .inr ((loses_setConn ⟨_, h⟩).setJob id _)

theorem beat_cases (c : Client) : Calms c c.beat ∨ Loses c c.beat := by
  have hwrite := sheds_writeFrame none ⟨.heartbeat, 0, []⟩ c.conn
  unfold Client.beat
  split
  · rename_i hrun
    rw [hrun] at hwrite
    exact .inl (calms_setConn hwrite)
  · rename_i e conn hrun
    obtain ⟨-, rfl⟩ := writeFrame_raises hrun
    rcases notifyLoss_effect c.conn e with h | h
    · exact .inl (calms_setConn h)
    · exact .inr (loses_setConn ⟨e, h⟩)

theorem resumed_cases {failure : Option Exc} (h : c.resumed id failure = some c') : Calms c c' ∨ Loses c c' := by
  unfold Client.resumed at h
  split at h
  · obtain ⟨-, ⟨⟩⟩ := Option.ite_none_right_eq_some.mp h
    exact .inl (calms_handshake (sheds_advance _ id _ _ c.conn) id)
  · obtain ⟨-, ⟨⟩⟩ := Option.ite_none_right_eq_some.mp h
    exact .inl (calms_setJob c id (by simp) (by simp))
  · cases h
    exact .inl (calms_expectJob c id _ (by simp) (by simp))
  · cases h
    exact .inl (calms_setJob c id (by simp) (by simp))
  · cases h
    exact .inl (calms_setJob c id (by simp) (by simp))
  · cases h
    exact .inl (calms_setJob c id (by simp) (by simp))
  · cases h
    exact .inl (calms_expectJob c id _ (by simp) (by simp))
  · cases h
    exact .inl (calms_closeReader c id _)
  · cases h
    exact .inl (calms_setJob c id (by simp) (by simp))
  · obtain ⟨-, ⟨⟩⟩ := Option.ite_none_right_eq_some.mp h
    exact .inl (calms_setJob c id (by simp) (by simp))
  · obtain ⟨-, ⟨⟩⟩ := Option.ite_none_right_eq_some.mp h
    exact .inl (calms_setJob c id (by simp) (by simp))
  · cases h
    refine .inl ?_
    split
    · exact calms_finishClose c id _
    · exact calms_finishClose c id _
  · split at h
    · cases h
      exact .inl (calms_setJob c id (by simp) (by simp))
    · split at h
      · cases h
        exact dropped_cases c id
      · cases h
        exact .inl (calms_go (sheds_cancelReader c.conn) id (by simp) (by simp))
  · cases h
    exact dropped_cases c id
  · obtain ⟨-, ⟨⟩⟩ := Option.ite_none_right_eq_some.mp h
    exact dropped_cases c id
  · obtain ⟨-, ⟨⟩⟩ := Option.ite_none_right_eq_some.mp h
    exact .inl (calms_setJob c id (by simp) (by simp))
  · cases h

/-- Apart from the publishes that register and the receivers that stand in line, a step calms or loses. -/
theorem step_cases {e : ClientEvent} (h : c.step e = some c') : Calms c c' ∨ Loses c c' ∨
    (c.registers e = true ∨ c.lines e = true) ∧ c'.conn.lost = c.conn.lost ∧ c'.closeReturned = c.closeReturned := by
  cases e with
  | task e =>
      obtain ⟨-, h⟩ := Option.ite_none_right_eq_some.mp h
      obtain ⟨tasks, htasks, rfl⟩ := Option.map_eq_some_iff.mp h
      rcases taskStep_cases htasks with hsheds | ⟨exc, hlost, hcalls⟩ | ⟨hregisters, hlost⟩
      · exact .inl (calms_absorb hsheds)
      · exact .inr (.inl (loses_absorb ⟨exc, hlost⟩ hcalls))
      · exact .inr (.inr ⟨.inl hregisters, by rw [absorb_conn]; exact hlost, absorb_closeReturned c tasks⟩)
  | connect id =>
      obtain ⟨-, ⟨⟩⟩ := Option.ite_none_right_eq_some.mp h
      exact .inl (calms_handshake (sheds_start c.config id c.conn) id)
  | openChannel id channel =>
      obtain ⟨-, ⟨⟩⟩ := Option.ite_none_right_eq_some.mp h
      exact .inl (calms_openChannel c id channel)
  | settle id op drain =>
      obtain ⟨-, ⟨⟩⟩ := Option.ite_none_right_eq_some.mp h
      exact .inl (calms_settle c id op drain)
  | receive id timeout =>
      obtain ⟨-, ⟨⟩⟩ := Option.ite_none_right_eq_some.mp h
      cases hlines : c.lines (.receive id timeout) with
      | false => exact .inl (calms_receive hlines)
      | true =>
          refine .inr (.inr ⟨.inr rfl, by rw [receive_conn], ?_⟩)
          unfold Client.receive
          split
          · rfl
          · generalize c.deliveries.get id = look
            obtain ⟨item, q⟩ := look
            cases item <;> rfl
  | receiveReturn id timeout =>
      obtain ⟨-, ⟨⟩⟩ := Option.ite_none_right_eq_some.mp h
      cases hlines : c.lines (.receiveReturn id timeout) with
      | false => exact .inl (calms_receiveReturn hlines)
      | true =>
          refine .inr (.inr ⟨.inr rfl, by rw [receiveReturn_conn], ?_⟩)
          unfold Client.receiveReturn
          split
          · rfl
          · generalize c.returns.get id = look
            obtain ⟨item, q⟩ := look
            cases item <;> rfl
  | close id =>
      obtain ⟨-, ⟨⟩⟩ := Option.ite_none_right_eq_some.mp h
      exact .inl (calms_close c id)
  | forceDrop id =>
      obtain ⟨-, ⟨⟩⟩ := Option.ite_none_right_eq_some.mp h
      have hclosed : Calms c { c with closed := true, beating := false } := ⟨.refl _, fun _ _ h => h, fun _ h => h⟩
      exact .inl (hclosed.trans (calms_setJob _ id (by simp) (by simp)))
  | resumed id failure => exact (resumed_cases h).imp_right .inl
  | wakeJob id =>
      cases hlines : c.lines (.wakeJob id) with
      | false => exact .inl (calms_wakeJob h hlines)
      | true =>
          refine .inr (.inr ⟨.inr rfl, ?_⟩)
          have hwake : c.wakeJob id = some c' := h
          unfold Client.wakeJob at hwake
          unfold Client.lines at hlines
          split at hwake
          · obtain ⟨-, ⟨⟩⟩ := Option.ite_none_right_eq_some.mp hwake
            refine ⟨by rw [looked_conn], ?_⟩
            generalize c.deliveries.resume id = look
            obtain ⟨item, q⟩ := look
            cases item <;> rfl
          · obtain ⟨-, ⟨⟩⟩ := Option.ite_none_right_eq_some.mp hwake
            refine ⟨by rw [lookedReturn_conn], ?_⟩
            generalize c.returns.resume id = look
            obtain ⟨item, q⟩ := look
            cases item <;> rfl
          · rename_i job hreceiving hreturn hjob
            simp only [hjob] at hlines
            split at hlines
            · exact absurd (Option.some.inj ‹_›) (hreceiving _)
            · exact absurd (Option.some.inj ‹_›) (hreturn _)
            · cases hlines
          · cases hwake
  | expire id => exact .inl (calms_expire h)
  | cancelJob id => exact .inl (calms_cancelJob h)
  | heartbeat =>
      obtain ⟨-, ⟨⟩⟩ := Option.ite_none_right_eq_some.mp h
      exact (beat_cases c).imp_right .inl
  | readerStops =>
      obtain ⟨-, ⟨⟩⟩ := Option.ite_none_right_eq_some.mp h
      exact .inl (calms_setConn (sheds_cancelReader c.conn))

end Steps

/-! ## Runs -/

section Runs

variable {c c' : Client} {id : CallId}

theorem Client.Calm.step (h : c.Calm) (hcalms : Calms c c') : c'.Calm where
  outstanding channel tag := by
    cases hget : (c'.conn.trackerOf channel).outstanding.get? tag with
    | none => rfl
    | some fut =>
        have hbefore := hcalms.conn.outstanding channel tag fut hget
        rw [h.outstanding] at hbefore
        cases hbefore
  awaited id content hcontent := hcalms.conn.confirms id (h.awaited id content (hcalms.awaited id content hcontent))
  line id hline := h.line id (hcalms.line id hline)

theorem awaited_of_loses (h : Loses c c') : c'.tasks.awaited id = c.tasks.awaited id := by
  rw [Machine.awaited, Machine.awaited, h.calls]

theorem jobs_of_loses (h : Loses c c') {job : Job} (hjob : c'.jobs id = some job)
    (hended : ∀ outcome, job ≠ .ended outcome) : c.jobs id = some job := by
  rcases h.jobs id with hsame | ⟨outcome, hout⟩
  · rwa [hsame] at hjob
  · rw [hout] at hjob
    cases hjob
    exact absurd rfl (hended outcome)

theorem expectsAt_of_loses (h : Loses c c') {key : WaiterKey} (hexpects : c'.expectsAt id = some key) :
    c.expectsAt id = some key := by
  unfold Client.expectsAt at hexpects ⊢
  rw [h.calls] at hexpects
  split at hexpects
  · exact hexpects
  · cases hexpects
  · obtain ⟨job, hjob, hkey⟩ := Option.bind_eq_some_iff.mp hexpects
    have hbefore := jobs_of_loses h hjob (by rintro outcome rfl; cases hkey)
    rw [hbefore]
    exact hkey

/-- A connection that holds every future that is awaited completes it when it is lost. -/
theorem confirms_of_loses (hregistered : c.Registered) (h : Loses c c') {content : PublishArgs × Nat}
    (hcontent : c'.tasks.awaited id = some content) : c'.conn.confirms id ≠ none := by
  obtain ⟨exc, hlost⟩ := h.conn
  obtain ⟨args, tag⟩ := content
  rw [awaited_of_loses h] at hcontent
  by_cases hpending : c.conn.confirms id = none
  · exact hlost.confirmed (hregistered.awaits id args tag hcontent hpending)
  · exact hlost.confirmsDone hpending

theorem replies_of_loses (hregistered : c.Registered) (h : Loses c c') {key : WaiterKey}
    (hexpects : c'.expectsAt id = some key) : c'.conn.replies id ≠ none := by
  obtain ⟨exc, hlost⟩ := h.conn
  by_cases hpending : c.conn.replies id = none
  · exact hlost.replied (hregistered.expects id key (expectsAt_of_loses h hexpects) hpending)
  · exact hlost.repliesDone hpending

theorem line_of_loses (hregistered : c.Registered) (h : Loses c c') : ¬c'.InLine id := by
  rintro (⟨hjob, hmem⟩ | ⟨hjob, hmem⟩)
  · rw [h.deliveries, AsyncQueue.getters_put] at hmem
    exact hregistered.receives id (jobs_of_loses h hjob (by simp)) hmem
  · rw [h.returns, AsyncQueue.getters_put] at hmem
    exact hregistered.receivesReturns id (jobs_of_loses h hjob (by simp)) hmem

theorem calm_of_loses (hregistered : c.Registered) (h : Loses c c') : c'.Calm where
  outstanding channel tag := by
    obtain ⟨exc, hlost⟩ := h.conn
    exact hlost.outstanding channel tag
  awaited _ _ hcontent := confirms_of_loses hregistered h hcontent
  line _ := line_of_loses hregistered h

theorem expects_of_calm (h : c.Calm) (hwaiting : c.waiting id = true) :
    ∃ key, c.expectsAt id = some key ∧ c.conn.replies id = none := by
  rw [Client.waiting, Bool.or_eq_true, Bool.and_eq_true] at hwaiting
  rcases hwaiting with ⟨hexpects, hreplies⟩ | hwaiting
  · obtain ⟨key, hkey⟩ := Option.isSome_iff_exists.mp hexpects
    exact ⟨key, hkey, Option.isNone_iff_eq_none.mp hreplies⟩
  · split at hwaiting
    · rename_i args tag hcall
      exact absurd (Option.isNone_iff_eq_none.mp hwaiting) (h.awaited id (args, tag) (awaited_of_phase hcall rfl))
    · rename_i timeout hcall hjob
      simp only [Bool.and_eq_true, Bool.not_eq_true', List.contains_eq_mem, decide_eq_true_eq] at hwaiting
      obtain ⟨rfl, hmem⟩ := hwaiting
      exact absurd (.inl ⟨hjob, hmem⟩) (h.line id)
    · rename_i timeout hcall hjob
      simp only [Bool.and_eq_true, Bool.not_eq_true', List.contains_eq_mem, decide_eq_true_eq] at hwaiting
      obtain ⟨rfl, hmem⟩ := hwaiting
      exact absurd (.inr ⟨hjob, hmem⟩) (h.line id)
    · cases hwaiting

theorem not_waiting_of_replied (hexpects : (c.expectsAt id).isSome = true) (hreplies : c.conn.replies id ≠ none) :
    c.waiting id = false := by
  have hnone : (c.conn.replies id).isNone = false := by
    simpa [Option.isSome_iff_ne_none] using hreplies
  rw [Client.waiting, hnone, Bool.and_false, Bool.false_or]
  unfold Client.expectsAt at hexpects
  split at hexpects
  · rename_i r next hcall
    simp [hcall]
  · cases hexpects
  · rename_i hcall
    cases hjob : c.jobs id with
    | none => simp [hcall]
    | some job =>
        rw [hjob] at hexpects
        cases job <;> first | (cases hexpects; done) | simp [hcall]

theorem not_waiting_of_loses (hregistered : c.Registered) (h : Loses c c') (id : CallId) : c'.waiting id = false := by
  cases hwaiting : c'.waiting id with
  | false => rfl
  | true =>
      obtain ⟨key, hkey, hreplies⟩ := expects_of_calm (calm_of_loses hregistered h) hwaiting
      exact absurd hreplies (replies_of_loses hregistered h hkey)

theorem timed_of_expects {key : WaiterKey} (hkey : c.expectsAt id = some key) (hreplies : c.conn.replies id = none) :
    ∃ e c', (e = .task (.deadline id) ∨ e = .expire id) ∧ c.step e = some c' ∧ c'.waiting id = false := by
  have hsettled {d : Client} (hcalls : d.tasks.calls = c.tasks.calls) (hjobs : d.jobs = c.jobs)
      (hdone : d.conn.replies id ≠ none) : d.waiting id = false := by
    refine not_waiting_of_replied ?_ hdone
    rw [Client.expectsAt, hcalls, hjobs, ← Client.expectsAt, hkey]
    rfl
  cases hcall : c.tasks.calls id with
  | some phase =>
      cases phase with
      | expecting r next =>
          have hdeadline : c.tasks.deadline id = some { c.tasks.settleReply id (.error .timeoutError) with
              expired := fun other => if other = id then some c.tasks.received.length else c.tasks.expired other } := by
            simp [Machine.deadline, hcall, show c.tasks.conn.replies id = none from hreplies]
          refine ⟨_, _, .inl rfl, congrArg (Option.map c.absorb) hdeadline, hsettled ?_ ?_ ?_⟩
          · rw [absorb_tasks]
            rfl
          · rw [absorb_jobs]
          · rw [absorb_conn]
            simp [Machine.settleReply]
      | _ => simp [Client.expectsAt, hcall] at hkey
  | none =>
      have hjobKey : (c.jobs id).bind Job.key = some key := by simpa [Client.expectsAt, hcall] using hkey
      obtain ⟨job, hjob, hjobs⟩ := Option.bind_eq_some_iff.mp hjobKey
      have hexpire : c.expire id = some (c.setConn (c.conn.settleReply id (.error .timeoutError))) := by
        cases job <;> first | (cases hjobs; done) | simp [Client.expire, hjob, hjobs, hreplies]
      refine ⟨_, _, .inr rfl, hexpire, hsettled ?_ ?_ ?_⟩
      · rw [Client.setConn, absorb_tasks]
        rfl
      · rw [Client.setConn, absorb_jobs]
      · rw [client_setConn_conn]
        simp [Conn.settleReply]

theorem Client.Calm.released (h : c.Calm) : c.Released where
  outstanding := h.outstanding
  timed id hwaiting := by
    obtain ⟨key, hkey, hreplies⟩ := expects_of_calm h hwaiting
    exact timed_of_expects hkey hreplies

theorem loses_iff {e : ClientEvent} (h : c.step e = some c') :
    c.loses e = true ↔ c.conn.lost = none ∧ c'.conn.lost ≠ none := by
  simp [Client.loses, h, Option.isSome_iff_ne_none]

theorem Loses.loses {e : ClientEvent} (hstep : c.step e = some c') (h : Loses c c') : c.loses e = true := by
  obtain ⟨exc, hlost⟩ := h.conn
  exact (loses_iff hstep).mpr ⟨hlost.live, by simp [hlost.lost]⟩

/-- The step that loses the connection is one that puts the sentinels. -/
theorem loses_of_step {e : ClientEvent} (hstep : c.step e = some c') (h : c.loses e = true) : Loses c c' := by
  obtain ⟨hlive, hlost⟩ := (loses_iff hstep).mp h
  rcases step_cases hstep with hcalms | hloses | ⟨-, hsame, -⟩
  · rw [hcalms.conn.lost] at hlost
    exact absurd hlive hlost
  · exact hloses
  · rw [hsame] at hlost
    exact absurd hlive hlost

theorem lost_stays {e : ClientEvent} (hlost : c.conn.lost ≠ none) (hstep : c.step e = some c') :
    c'.conn.lost ≠ none := by
  rcases step_cases hstep with hcalms | hloses | ⟨-, hsame, -⟩
  · rwa [hcalms.conn.lost]
  · obtain ⟨exc, hby⟩ := hloses.conn
    exact absurd hby.live hlost
  · rwa [hsame]

theorem asLoss_eq (exc : Exc) : ∃ reason, asLoss exc = .connectionLost reason := by
  cases exc <;> exact ⟨_, rfl⟩

/-- What the connection is lost with is a `ConnectionLost`. -/
theorem lost_of_step {e : ClientEvent} (hstep : c.step e = some c') :
    c'.conn.lost = c.conn.lost ∨ ∃ reason, c'.conn.lost = some (.connectionLost reason) := by
  rcases step_cases hstep with hcalms | hloses | ⟨-, hsame, -⟩
  · exact .inl hcalms.conn.lost
  · obtain ⟨exc, hby⟩ := hloses.conn
    obtain ⟨reason, hreason⟩ := asLoss_eq exc
    exact .inr ⟨reason, hreason ▸ hby.lost⟩
  · exact .inl hsame

theorem calm_step {e : ClientEvent} (hcalm : c.Ended → c.Calm) (hkeeps : c.KeepsReleasing e)
    (hstep : c.step e = some c') (hended : c'.Ended) : c'.Calm := by
  rcases step_cases hstep with hcalms | hloses | ⟨hevent, hlost, hreturned⟩
  · by_cases hbefore : c.Ended
    · exact (hcalm hbefore).step hcalms
    · have hreturns : c.closeReturns e = true := by
        rw [Client.Ended, hcalms.conn.lost] at hended
        have hreturned := hended.resolve_left fun hlost => hbefore (.inl hlost)
        have hnot : c.closeReturned = false := by simpa using fun h => hbefore (.inr h)
        simp [Client.closeReturns, hstep, hreturned, hnot]
      exact (hkeeps.closed hreturns).1.step hcalms
  · exact calm_of_loses (hkeeps.lost (hloses.loses hstep)) hloses
  · have hbefore : c.Ended := by rwa [Client.Ended, hlost, hreturned] at hended
    obtain ⟨hregisters, hlines⟩ := hkeeps.after hbefore
    rw [hregisters, hlines] at hevent
    simp at hevent

end Runs

/-- In every run that keeps releasing, a step that ends the connection leaves nobody waiting who waited, and
from then on no confirm is outstanding and nobody waits without a timer. -/
theorem released_once_ended (config : ConnectionConfig) {c : Client}
    (h : ReachesWhere Client.step Client.KeepsReleasing (Client.new config) c) :
    (c.Ended → c.Released) ∧ ∀ e c', c.KeepsReleasing e → c.step e = some c' →
      (c.loses e = true ∨ c.closeReturns e = true) → ∀ id, c.waiting id = true → c'.waiting id = false := by
  have hcalm : c.Ended → c.Calm :=
    h.invariant (fun hended => absurd hended (by simp [Client.Ended, Client.new, Client.conn, ConnectionConfig.newConn]))
      fun _ _ _ hinv hkeeps hstep => calm_step hinv hkeeps hstep
  refine ⟨fun hended => (hcalm hended).released, ?_⟩
  rintro e c' hkeeps hstep (hloses | hreturns) id hwaiting
  · exact not_waiting_of_loses (hkeeps.lost hloses) (loses_of_step hstep hloses) id
  · rw [(hkeeps.closed hreturns).2 id] at hwaiting
    cases hwaiting

theorem Client.KeepsReleasing.of_idle {c : Client} {e : ClientEvent} (hloses : c.loses e = false)
    (hreturns : c.closeReturns e = false) (hlive : ¬(c.conn.lost ≠ none ∨ c.closeReturned = true)) :
    c.KeepsReleasing e where
  lost h := absurd (hloses.symm.trans h) Bool.false_ne_true
  closed h := absurd (hreturns.symm.trans h) Bool.false_ne_true
  after h := absurd h hlive

/-- A receiver waits on a connection that is dropped before it was connected. -/
def receiverDropped : List ClientEvent := [.receive 1 false, .forceDrop 0]

/-- Two jobs are going on, of which the receiver is the first and only one in its line. -/
theorem receiverDropped_jobs {c : Client} (h : run Client.step (Client.new defaultConfig) receiverDropped = some c)
    {id : CallId} {job : Job} (hjob : c.jobs id = some job) : job = .dropping .writer ∨ job = .receiving false := by
  cases h
  change (if id = 0 then some _ else if id = 1 then some _ else none) = some job at hjob
  split at hjob
  · exact .inl (Option.some.inj hjob).symm
  · split at hjob
    · exact .inr (Option.some.inj hjob).symm
    · cases hjob

theorem receiverDropped_registered {c : Client}
    (h : run Client.step (Client.new defaultConfig) receiverDropped = some c) : c.Registered := by
  have hjobs {id : CallId} {job : Job} (hjob : c.jobs id = some job) := receiverDropped_jobs h hjob
  refine ⟨?_, ?_, ?_, ?_⟩
  · intro id key hexpects
    have hcalls : c.tasks.calls id = none := by
      cases h
      rfl
    rw [Client.expectsAt, hcalls] at hexpects
    obtain ⟨job, hjob, hkey⟩ := Option.bind_eq_some_iff.mp hexpects
    rcases hjobs hjob with rfl | rfl <;> cases hkey
  · intro id args tag hawaited
    cases h
    cases hawaited
  · intro id _
    cases h
    exact List.not_mem_nil
  · intro id hjob
    rcases hjobs hjob with hjob | hjob <;> cases hjob

/-- The receiver of a dropped connection is released. -/
theorem receiver_released : ∃ c c', run Client.step (Client.new defaultConfig) receiverDropped = some c ∧
    c.step (.resumed 0 none) = some c' ∧ c.waiting 1 = true ∧ c'.waiting 1 = false ∧ c'.Released := by
  have hrun : (run Client.step (Client.new defaultConfig) receiverDropped).any (fun c =>
      (c.step (.resumed 0 none)).any fun c' =>
        c.loses (.resumed 0 none) = true ∧ c.closeReturns (.resumed 0 none) = false ∧ c.waiting 1 = true ∧
          ¬(c.conn.lost ≠ none ∨ c.closeReturned = true) ∧ c'.conn.lost ≠ none) = true := by decide +kernel
  obtain ⟨c, hc, hany⟩ := (Option.any_eq_true _ _).mp hrun
  obtain ⟨c', hstep, hstate⟩ := (Option.any_eq_true _ _).mp hany
  obtain ⟨hloses, hreturns, hwaiting, hlive, hlost⟩ := of_decide_eq_true hstate
  have hadmits : Admits Client.step Client.KeepsReleasing (Client.new defaultConfig) receiverDropped :=
    ⟨.of_idle (by decide +kernel) (by decide +kernel) (by decide +kernel),
      .of_idle (by decide +kernel) (by decide +kernel) (by decide +kernel), trivial⟩
  have hreaches := reaches_of_run hc hadmits
  have hkeeps : c.KeepsReleasing (.resumed 0 none) :=
    { lost := fun _ => receiverDropped_registered hc
      closed := fun h => absurd (hreturns.symm.trans h) Bool.false_ne_true
      after := fun h => absurd h hlive }
  refine ⟨c, c', hc, hstep, hwaiting, ?_, ?_⟩
  · exact (released_once_ended defaultConfig hreaches).2 _ c' hkeeps hstep (.inl hloses) 1 hwaiting
  · exact (released_once_ended defaultConfig (hreaches.snoc hkeeps hstep)).1 (.inl hlost)

/-- Two receivers wait, and the broker goes away. -/
def twoReceivers : List ClientEvent := handshakeDone ++ [.receive 1 false, .receive 2 false]

/-- The one sentinel is for the first of them. -/
theorem secondReceiver_waits : ∃ c c', run Client.step (Client.new defaultConfig) twoReceivers = some c ∧
    c.step (.task .eof) = some c' ∧ c.loses (.task .eof) = true ∧ c.waiting 2 = true ∧ c'.waiting 2 = true := by
  have hrun : (run Client.step (Client.new defaultConfig) twoReceivers).any (fun c =>
      (c.step (.task .eof)).any fun c' =>
        c.loses (.task .eof) = true ∧ c.waiting 2 = true ∧ c'.waiting 2 = true) = true := by decide +kernel
  obtain ⟨c, hc, hstep⟩ := (Option.any_eq_true _ _).mp hrun
  obtain ⟨c', hc', hstate⟩ := (Option.any_eq_true _ _).mp hstep
  exact ⟨c, c', hc, hc', of_decide_eq_true hstate⟩

end Nuropb.Transport
