import Nuropb.Transport.Release

/-! # Whose call a step concerns

An event is about one call at most, and leaves the others where they are. A closed connection stays
closed, and no call begins to close it again.
-/
namespace Nuropb.Transport

open Library Protocol

/-- The call that the event is about. -/
def Event.subject : Event → Option CallId
  | request id _ | publish id _ | drained id _ | wake id | deadline id | cancel id => some id
  | frame _ | closeDrained | eof | lose _ => none

namespace ClientEvent

/-- The call that the event is about. -/
def subject : ClientEvent → Option CallId
  | task e => e.subject
  | connect id | openChannel id _ | settle id _ _ | receive id _ | receiveReturn id _ | close id | forceDrop id
  | resumed id _ | wakeJob id | expire id | cancelJob id => some id
  | heartbeat | readerStops => none

end ClientEvent

/-! ## Tasks -/

section Tasks

variable {m m' : Machine} {id other : CallId}

theorem calls_setCall_of_ne (m : Machine) (phase : Phase) (h : other ≠ id) :
    (m.setCall id phase).calls other = m.calls other :=
  if_neg h

theorem calls_finishConfirm_of_ne (m : Machine) (args : PublishArgs) (tag : Nat) (h : other ≠ id) :
    (m.finishConfirm id args tag).calls other = m.calls other := by
  unfold Machine.finishConfirm
  split
  · split
    · exact calls_setCall_of_ne _ _ h
    · exact calls_setCall_of_ne _ _ h
  · exact calls_setCall_of_ne _ _ h

theorem calls_awaitConfirm_of_ne (m : Machine) (args : PublishArgs) (tag : Nat) (h : other ≠ id) :
    (m.awaitConfirm id args tag).calls other = m.calls other := by
  unfold Machine.awaitConfirm
  split
  · exact calls_setCall_of_ne _ _ h
  · exact calls_setCall_of_ne _ _ h
  · exact calls_finishConfirm_of_ne _ args tag h

theorem calls_afterDrain_of_ne (m : Machine) (args : PublishArgs) (tag : Option Nat) (h : other ≠ id) :
    (m.afterDrain id args tag).calls other = m.calls other := by
  cases tag with
  | none => exact calls_setCall_of_ne _ _ h
  | some tag => exact calls_awaitConfirm_of_ne m args tag h

theorem calls_publishReached_of_ne (m : Machine) (args : PublishArgs) (result : EStateM.Result Exc Conn PublishStep)
    (h : other ≠ id) : (m.publishReached id args result).calls other = m.calls other := by
  unfold Machine.publishReached
  split
  · exact calls_setCall_of_ne _ _ h
  · split
    · exact calls_setCall_of_ne _ _ h
    · exact calls_afterDrain_of_ne _ args _ h
  · exact calls_setCall_of_ne _ _ h

theorem calls_requestReached_of_ne (m : Machine) (r : SyncRequest) (result : EStateM.Result Exc Conn Bool)
    (h : other ≠ id) : (m.requestReached id r result).calls other = m.calls other := by
  unfold Machine.requestReached
  split
  · exact calls_setCall_of_ne _ _ h
  · exact calls_setCall_of_ne _ _ h
  · exact calls_setCall_of_ne _ _ h

theorem calls_expected_of_ne (m : Machine) (r : SyncRequest) (next : Option (PublishArgs × Properties))
    (outcome : Except Exc Method) (h : other ≠ id) :
    (m.expected id r next outcome).calls other = m.calls other := by
  cases outcome with
  | error e => exact calls_setCall_of_ne _ _ h
  | ok reply =>
      rw [Machine.expected]
      unfold Machine.answered
      split
      · exact calls_setCall_of_ne _ _ h
      · split
        · exact calls_setCall_of_ne _ _ h
        · exact calls_publishReached_of_ne _ _ _ h

/-- A task that resumes has been going on, and leaves the others alone. -/
theorem calls_drained {failure : Option Interrupt} (h : m.drained id failure = some m') :
    m.calls id ≠ none ∧ ∀ other, other ≠ id → m'.calls other = m.calls other := by
  unfold Machine.drained at h
  split at h
  · rename_i hphase
    cases h
    exact ⟨by simp [hphase], fun other hother => calls_setCall_of_ne _ _ hother⟩
  · rename_i hphase
    cases h
    exact ⟨by simp [hphase], fun other hother => calls_setCall_of_ne _ _ hother⟩
  · rename_i hphase
    cases h
    exact ⟨by simp [hphase], fun other hother => calls_afterDrain_of_ne _ _ _ hother⟩
  · rename_i hphase
    cases h
    exact ⟨by simp [hphase], fun other hother => calls_setCall_of_ne _ _ hother⟩
  · cases h

theorem calls_wake (h : m.wake id = some m') :
    m.calls id ≠ none ∧ ∀ other, other ≠ id → m'.calls other = m.calls other := by
  unfold Machine.wake at h
  split at h
  · rename_i hphase
    obtain ⟨outcome, -, rfl⟩ := Option.map_eq_some_iff.mp h
    exact ⟨by simp [hphase], fun other hother => calls_expected_of_ne m _ _ outcome hother⟩
  · rename_i hphase
    obtain ⟨-, ⟨⟩⟩ := Option.ite_none_right_eq_some.mp h
    exact ⟨by simp [hphase], fun other hother => calls_awaitConfirm_of_ne m _ _ hother⟩
  · cases h

theorem calls_deadline (h : m.deadline id = some m') : m.calls id ≠ none ∧ m'.calls = m.calls := by
  unfold Machine.deadline at h
  split at h
  · rename_i hphase _
    cases h
    exact ⟨by simp [hphase], rfl⟩
  · cases h

theorem calls_cancel (h : m.cancel id = some m') : m.calls id ≠ none ∧ m'.calls = m.calls := by
  unfold Machine.cancel at h
  split at h
  · rename_i hphase
    cases h
    exact ⟨by simp [hphase], rfl⟩
  · rename_i hphase
    cases h
    exact ⟨by simp [hphase], rfl⟩
  · cases h

theorem calls_taskStep {e : Event} (h : m.step e = some m') (hother : e.subject ≠ some other) :
    m'.calls other = m.calls other := by
  have hne {id : CallId} (hid : (some id : Option CallId) ≠ some other) : other ≠ id := by
    rintro rfl
    exact hid rfl
  cases e with
  | request id r =>
      obtain ⟨-, ⟨⟩⟩ := Option.ite_none_right_eq_some.mp h
      exact calls_requestReached_of_ne m r _ (hne hother)
  | publish id args =>
      obtain ⟨-, ⟨⟩⟩ := Option.ite_none_right_eq_some.mp h
      exact calls_publishReached_of_ne m args _ (hne hother)
  | drained id failure => exact (calls_drained h).2 other (hne hother)
  | wake id => exact (calls_wake h).2 other (hne hother)
  | deadline id => rw [(calls_deadline h).2]
  | cancel id => rw [(calls_cancel h).2]
  | frame f =>
      obtain ⟨-, ⟨⟩⟩ := Option.ite_none_right_eq_some.mp h
      rfl
  | closeDrained =>
      rw [Machine.step] at h
      split at h
      · cases h
        rfl
      · cases h
  | eof =>
      obtain ⟨-, ⟨⟩⟩ := Option.ite_none_right_eq_some.mp h
      rfl
  | lose exc =>
      cases h
      rfl

end Tasks

/-! ## Steps -/

/-- The step concerns one call at most; a closed connection stays closed, and none of its calls begins to
close it. -/
structure Turns (own : Option CallId) (c c' : Client) : Prop where
  calls : ∀ other, own ≠ some other → c'.tasks.calls other = c.tasks.calls other
  jobs : ∀ other, own ≠ some other → c'.jobs other = c.jobs other
  closed : c.closed = true → c'.closed = true
  closing : c.closed = true → ∀ id step, c'.jobs id = some (.closing step) → ∃ step', c.jobs id = some (.closing step')

section Steps

variable {c c' c'' : Client} {id : CallId} {own : Option CallId}

theorem Turns.refl (c : Client) : Turns own c c := ⟨fun _ _ => rfl, fun _ _ => rfl, id, fun _ _ step h => ⟨step, h⟩⟩

theorem Turns.trans (h : Turns own c c') (h' : Turns own c' c'') : Turns own c c'' where
  calls other hother := (h'.calls other hother).trans (h.calls other hother)
  jobs other hother := (h'.jobs other hother).trans (h.jobs other hother)
  closed hclosed := h'.closed (h.closed hclosed)
  closing hclosed id step hjob := by
    obtain ⟨step', hjob'⟩ := h'.closing (h.closed hclosed) id step hjob
    exact h.closing hclosed id step' hjob'

@[simp] theorem absorb_closed (c : Client) (tasks : Machine) : (c.absorb tasks).closed = c.closed := by
  unfold Client.absorb
  split <;> rfl

theorem turns_absorb {tasks : Machine} (h : ∀ other, own ≠ some other → tasks.calls other = c.tasks.calls other) :
    Turns own c (c.absorb tasks) where
  calls other hother := by
    rw [absorb_tasks]
    exact h other hother
  jobs other _ := by rw [absorb_jobs]
  closed hclosed := by rwa [absorb_closed]
  closing _ id step hjob := ⟨step, by rwa [absorb_jobs] at hjob⟩

theorem turns_setConn (own : Option CallId) (c : Client) (conn : Conn) : Turns own c (c.setConn conn) :=
  turns_absorb fun _ _ => rfl

/-- A job goes on; it closes the connection only if it did so before. -/
theorem turns_setJob (c : Client) (id : CallId) {job : Job}
    (h : ∀ step, job = .closing step → c.closed = false ∨ ∃ step', c.jobs id = some (.closing step')) :
    Turns (some id) c (c.setJob id job) where
  calls _ _ := rfl
  jobs other hother := if_neg fun heq => hother (by rw [heq])
  closed hclosed := hclosed
  closing hclosed other step hjob := by
    simp only [Client.setJob] at hjob
    split at hjob
    · rename_i heq
      subst heq
      rcases h step (Option.some.inj hjob) with hopen | hbefore
      · rw [hopen] at hclosed
        cases hclosed
      · exact hbefore
    · exact ⟨step, hjob⟩

theorem turns_setJob_of_ne (c : Client) (id : CallId) {job : Job} (h : ∀ step, job ≠ .closing step) :
    Turns (some id) c (c.setJob id job) :=
  turns_setJob c id fun step hstep => absurd hstep (h step)

theorem turns_go (c : Client) (conn : Conn) (id : CallId) {job : Job} (h : ∀ step, job ≠ .closing step) :
    Turns (some id) c ((c.setConn conn).setJob id job) :=
  (turns_setConn _ c conn).trans (turns_setJob_of_ne _ id h)

theorem turns_expectJob (c : Client) (id : CallId) (key : WaiterKey) {job : Job} (h : ∀ step, job ≠ .closing step) :
    Turns (some id) c (c.expectJob id key job) :=
  turns_go c _ id h

theorem Turns.of_same (h : Turns own c c') (hcalls : c''.tasks.calls = c'.tasks.calls) (hjobs : c''.jobs = c'.jobs)
    (hclosed : c'.closed = true → c''.closed = true) : Turns own c c'' where
  calls other hother := by
    rw [hcalls]
    exact h.calls other hother
  jobs other hother := by
    rw [hjobs]
    exact h.jobs other hother
  closed hbefore := hclosed (h.closed hbefore)
  closing hbefore id step hjob := h.closing hbefore id step (by rwa [hjobs] at hjob)

theorem turns_handshake (c : Client) (id : CallId) (result : EStateM.Result Exc Conn (Option Handshake)) :
    Turns (some id) c (c.handshake id result) := by
  unfold Client.handshake
  split
  · exact turns_go c _ id (by simp)
  · rename_i conn
    have hended : Turns (some id) c ((c.setConn conn).setJob id (.ended (.ok ()))) := turns_go c conn id (by simp)
    exact hended.of_same rfl rfl fun h => h
  · split
    · exact turns_go c _ id (by simp)
    · exact (turns_setConn _ c _).trans (turns_expectJob _ id _ (by simp))

theorem turns_openChannel (c : Client) (id : CallId) (channel : Int) : Turns (some id) c (c.openChannel id channel) := by
  unfold Client.openChannel
  split
  · exact turns_go c _ id (by simp)
  · exact turns_go c _ id (by simp)

theorem turns_openReplied (c : Client) (id : CallId) (channel : Int) : Turns (some id) c (c.openReplied id channel) := by
  unfold Client.openReplied
  split
  · exact turns_go c _ id (by simp)
  · exact turns_go c _ id (by simp)

theorem turns_settle (c : Client) (id : CallId) (op : Settlement) (drain : Bool) :
    Turns (some id) c (c.settle id op drain) := by
  unfold Client.settle
  split
  · cases drain with
    | true => exact turns_go c _ id (by simp)
    | false => exact turns_go c _ id (by simp)
  · exact turns_go c _ id (by simp)

theorem turns_queues (own : Option CallId) (c : Client) (deliveries : AsyncQueue CallId (Option IncomingMessage))
    (returns : AsyncQueue CallId (Option ReturnedMessage)) : Turns own c { c with deliveries, returns } :=
  ⟨fun _ _ => rfl, fun _ _ => rfl, fun h => h, fun _ _ step hjob => ⟨step, hjob⟩⟩

theorem turns_looked (c : Client) (id : CallId) (timeout : Bool)
    (look : Option (Option IncomingMessage) × AsyncQueue CallId (Option IncomingMessage)) :
    Turns (some id) c (c.looked id timeout look) := by
  obtain ⟨item, deliveries⟩ := look
  have hqueue : Turns (some id) c { c with deliveries } := turns_queues _ c deliveries c.returns
  cases item with
  | none => exact hqueue.trans (turns_setJob_of_ne _ id (by simp))
  | some item => exact hqueue.trans (turns_setJob_of_ne _ id (by simp))

theorem turns_lookedReturn (c : Client) (id : CallId) (timeout : Bool)
    (look : Option (Option ReturnedMessage) × AsyncQueue CallId (Option ReturnedMessage)) :
    Turns (some id) c (c.lookedReturn id timeout look) := by
  obtain ⟨item, returns⟩ := look
  have hqueue : Turns (some id) c { c with returns } := turns_queues _ c c.deliveries returns
  cases item with
  | none => exact hqueue.trans (turns_setJob_of_ne _ id (by simp))
  | some item => exact hqueue.trans (turns_setJob_of_ne _ id (by simp))

theorem turns_finishClose (c : Client) (id : CallId) (failure : Option Exc) :
    Turns (some id) c (c.finishClose id failure) := by
  cases failure with
  | none =>
      have hended : Turns (some id) c (c.setJob id (.ended (.ok ()))) := turns_setJob_of_ne c id (by simp)
      exact hended.of_same rfl rfl fun h => h
  | some e => exact turns_setJob_of_ne c id (by simp)

/-- A job that closes the connection goes on to the end of the reader. -/
theorem turns_closeReader (c : Client) (id : CallId) (failure : Option Exc)
    (h : c.closed = false ∨ ∃ step, c.jobs id = some (.closing step)) : Turns (some id) c (c.closeReader id failure) := by
  refine (turns_setConn _ c c.conn.cancelReader).trans (turns_setJob _ id ?_)
  intro _ _
  rw [Client.setConn, absorb_closed, absorb_jobs]
  exact h

theorem turns_close (c : Client) (id : CallId) : Turns (some id) c (c.close id) := by
  unfold Client.close
  split
  · exact turns_finishClose c id none
  · rename_i hopen
    have hclosing (d : Client) (job : Job) (hcalls : d.tasks.calls = c.tasks.calls) (hjobs : d.jobs = c.jobs)
        (hclosed : d.closed = true) : Turns (some id) c (d.setJob id job) := by
      refine ⟨fun other _ => congrFun hcalls other, ?_, fun _ => hclosed, fun hbefore => absurd hbefore hopen⟩
      intro other hother
      exact (if_neg fun heq => hother (by rw [heq])).trans (congrFun hjobs other)
    dsimp only
    split
    · split
      · exact hclosing _ _ (by simp [Client.setConn]) (by simp [Client.setConn]) (by simp [Client.setConn])
      · exact hclosing _ _ (by simp [Client.setConn]) (by simp [Client.setConn]) (by simp [Client.setConn])
    · exact hclosing _ _ (by simp [Client.setConn]) (by simp [Client.setConn]) (by simp [Client.setConn])

theorem turns_forceDrop (c : Client) (id : CallId) : Turns (some id) c (c.forceDrop id) := by
  have hclosed : Turns (some id) c { c with closed := true, beating := false } :=
    ⟨fun _ _ => rfl, fun _ _ => rfl, fun _ => rfl, fun _ _ step hjob => ⟨step, hjob⟩⟩
  exact hclosed.trans (turns_setJob_of_ne _ id (by simp))

theorem turns_closeReplied (c : Client) (id : CallId) (outcome : Except Exc Method)
    (h : ∃ step, c.jobs id = some (.closing step)) : Turns (some id) c (c.closeReplied id outcome) := by
  have hconfirmed : Turns (some id) c ((c.setConn { c.conn with sm := .closed }).closeReader id none) :=
    (turns_setConn _ c _).trans (turns_closeReader _ id none (.inr (by simpa [Client.setConn] using h)))
  unfold Client.closeReplied
  split
  · exact hconfirmed
  · split
    · exact hconfirmed
    · exact turns_closeReader c id _ (.inr h)

theorem turns_resumed {failure : Option Exc} (h : c.resumed id failure = some c') :
    c.jobs id ≠ none ∧ Turns (some id) c c' := by
  have hjob {job : Job} (hjob : c.jobs id = some job) : c.jobs id ≠ none := by simp [hjob]
  unfold Client.resumed at h
  split at h
  · rename_i hphase
    obtain ⟨-, ⟨⟩⟩ := Option.ite_none_right_eq_some.mp h
    exact ⟨hjob hphase, turns_handshake c id _⟩
  · rename_i hphase
    obtain ⟨-, ⟨⟩⟩ := Option.ite_none_right_eq_some.mp h
    exact ⟨hjob hphase, turns_setJob_of_ne c id (by simp)⟩
  · rename_i hphase
    cases h
    exact ⟨hjob hphase, turns_expectJob c id _ (by simp)⟩
  · rename_i hphase
    cases h
    exact ⟨hjob hphase, turns_setJob_of_ne c id (by simp)⟩
  · rename_i hphase
    cases h
    exact ⟨hjob hphase, turns_setJob_of_ne c id (by simp)⟩
  · rename_i hphase
    cases h
    exact ⟨hjob hphase, turns_setJob_of_ne c id (by simp)⟩
  · rename_i hphase
    cases h
    refine ⟨hjob hphase, (turns_setConn _ c _).trans (turns_setJob _ id fun _ _ => .inr ⟨.draining, ?_⟩)⟩
    rw [Client.setConn, absorb_jobs, hphase]
  · rename_i hphase
    cases h
    exact ⟨hjob hphase, turns_closeReader c id _ (.inr ⟨_, hphase⟩)⟩
  · rename_i hphase
    cases h
    exact ⟨hjob hphase, turns_setJob c id fun _ _ => .inr ⟨_, hphase⟩⟩
  · rename_i hphase
    obtain ⟨-, ⟨⟩⟩ := Option.ite_none_right_eq_some.mp h
    exact ⟨hjob hphase, turns_setJob c id fun _ _ => .inr ⟨_, hphase⟩⟩
  · rename_i hphase
    obtain ⟨-, ⟨⟩⟩ := Option.ite_none_right_eq_some.mp h
    exact ⟨hjob hphase, turns_setJob_of_ne c id (by simp)⟩
  · rename_i hphase
    cases h
    refine ⟨hjob hphase, ?_⟩
    split
    · exact turns_finishClose c id _
    · exact turns_finishClose c id _
  · rename_i hphase
    refine ⟨hjob hphase, ?_⟩
    split at h
    · cases h
      exact turns_setJob_of_ne c id (by simp)
    · split at h
      · cases h
        exact turns_go c _ id (by simp)
      · cases h
        exact turns_go c _ id (by simp)
  · rename_i hphase
    cases h
    exact ⟨hjob hphase, turns_go c _ id (by simp)⟩
  · rename_i hphase
    obtain ⟨-, ⟨⟩⟩ := Option.ite_none_right_eq_some.mp h
    exact ⟨hjob hphase, turns_go c _ id (by simp)⟩
  · rename_i hphase
    obtain ⟨-, ⟨⟩⟩ := Option.ite_none_right_eq_some.mp h
    exact ⟨hjob hphase, turns_setJob_of_ne c id (by simp)⟩
  · cases h

theorem turns_replied {job : Job} (hjob : c.jobs id = some job) (key : WaiterKey) (outcome : Except Exc Method) :
    Turns (some id) c (c.replied id key job outcome) := by
  have hforget : Turns (some id) c (c.setConn (c.conn.forget key)) := turns_setConn _ c _
  unfold Client.replied
  dsimp only
  split
  · exact hforget.trans (turns_handshake _ id _)
  · exact hforget.trans (turns_openReplied _ id _)
  · rename_i step
    have hclosing : (c.setConn (c.conn.forget key)).jobs id = some (.closing step) :=
      (congrFun (absorb_jobs c _) id).trans hjob
    exact hforget.trans (turns_closeReplied _ id _ ⟨step, hclosing⟩)
  · exact hforget
  · exact hforget.trans (turns_setJob_of_ne _ id (by simp))

theorem turns_wakeJob (h : c.wakeJob id = some c') : c.jobs id ≠ none ∧ Turns (some id) c c' := by
  unfold Client.wakeJob at h
  split at h
  · rename_i hjob
    obtain ⟨-, ⟨⟩⟩ := Option.ite_none_right_eq_some.mp h
    exact ⟨by simp [hjob], turns_looked c id _ _⟩
  · rename_i hjob
    obtain ⟨-, ⟨⟩⟩ := Option.ite_none_right_eq_some.mp h
    exact ⟨by simp [hjob], turns_lookedReturn c id _ _⟩
  · rename_i hjob
    obtain ⟨key, -, h⟩ := Option.bind_eq_some_iff.mp h
    obtain ⟨outcome, -, rfl⟩ := Option.map_eq_some_iff.mp h
    exact ⟨by simp [hjob], turns_replied hjob key outcome⟩
  · cases h

theorem turns_leave (c : Client) (id : CallId) (job : Job) (e : Exc) : Turns (some id) c (c.leave id job e) := by
  unfold Client.leave
  split
  · exact (turns_queues _ c (c.deliveries.cancel id) c.returns).trans (turns_setJob_of_ne _ id (by simp))
  · exact (turns_queues _ c c.deliveries (c.returns.cancel id)).trans (turns_setJob_of_ne _ id (by simp))
  · exact turns_queues _ c c.deliveries c.returns

theorem turns_expire (h : c.expire id = some c') : c.jobs id ≠ none ∧ Turns (some id) c c' := by
  unfold Client.expire at h
  split at h
  · rename_i hjob
    obtain ⟨-, ⟨⟩⟩ := Option.ite_none_right_eq_some.mp h
    exact ⟨by simp [hjob], turns_leave c id _ _⟩
  · rename_i hjob
    obtain ⟨-, ⟨⟩⟩ := Option.ite_none_right_eq_some.mp h
    exact ⟨by simp [hjob], turns_leave c id _ _⟩
  · rename_i hjob
    obtain ⟨-, ⟨⟩⟩ := Option.ite_none_right_eq_some.mp h
    exact ⟨by simp [hjob], turns_setConn _ c _⟩
  · cases h

theorem turns_cancelJob (h : c.cancelJob id = some c') : c.jobs id ≠ none ∧ Turns (some id) c c' := by
  unfold Client.cancelJob at h
  split at h
  · rename_i hjob
    cases h
    exact ⟨by simp [hjob], turns_leave c id _ _⟩
  · rename_i hjob
    cases h
    exact ⟨by simp [hjob], turns_leave c id _ _⟩
  · rename_i hjob
    obtain ⟨-, ⟨⟩⟩ := Option.ite_none_right_eq_some.mp h
    exact ⟨by simp [hjob], turns_setConn _ c _⟩
  · cases h

theorem turns_beat (own : Option CallId) (c : Client) : Turns own c c.beat := by
  unfold Client.beat
  split
  · exact turns_setConn own c _
  · exact turns_setConn own c _

theorem turns_step {e : ClientEvent} (h : c.step e = some c') : Turns e.subject c c' := by
  cases e with
  | task e =>
      obtain ⟨-, h⟩ := Option.ite_none_right_eq_some.mp h
      obtain ⟨tasks, htasks, rfl⟩ := Option.map_eq_some_iff.mp h
      exact turns_absorb fun other hother => calls_taskStep htasks hother
  | connect id =>
      obtain ⟨-, ⟨⟩⟩ := Option.ite_none_right_eq_some.mp h
      exact turns_handshake c id _
  | openChannel id channel =>
      obtain ⟨-, ⟨⟩⟩ := Option.ite_none_right_eq_some.mp h
      exact turns_openChannel c id channel
  | settle id op drain =>
      obtain ⟨-, ⟨⟩⟩ := Option.ite_none_right_eq_some.mp h
      exact turns_settle c id op drain
  | receive id timeout =>
      obtain ⟨-, ⟨⟩⟩ := Option.ite_none_right_eq_some.mp h
      unfold Client.receive
      split
      · exact turns_setJob_of_ne c id (by simp)
      · exact turns_looked c id timeout _
  | receiveReturn id timeout =>
      obtain ⟨-, ⟨⟩⟩ := Option.ite_none_right_eq_some.mp h
      unfold Client.receiveReturn
      split
      · exact turns_setJob_of_ne c id (by simp)
      · exact turns_lookedReturn c id timeout _
  | close id =>
      obtain ⟨-, ⟨⟩⟩ := Option.ite_none_right_eq_some.mp h
      exact turns_close c id
  | forceDrop id =>
      obtain ⟨-, ⟨⟩⟩ := Option.ite_none_right_eq_some.mp h
      exact turns_forceDrop c id
  | resumed id failure => exact (turns_resumed h).2
  | wakeJob id => exact (turns_wakeJob h).2
  | expire id => exact (turns_expire h).2
  | cancelJob id => exact (turns_cancelJob h).2
  | heartbeat =>
      obtain ⟨-, ⟨⟩⟩ := Option.ite_none_right_eq_some.mp h
      exact turns_beat none c
  | readerStops =>
      obtain ⟨-, ⟨⟩⟩ := Option.ite_none_right_eq_some.mp h
      exact turns_setConn none c _

end Steps

end Nuropb.Transport
