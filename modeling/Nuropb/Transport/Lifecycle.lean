import Nuropb.Library.Transition
import Nuropb.Transport.Shutdown

/-! # Closing a connection

`close` awaits the task of the read loop, and closes the writer after it. The task raises what the loop
has ended with, if it is a `ProtocolError`.
-/
namespace Nuropb.Transport

open Library Protocol

inductive Writer
  | absent
  | open
  | closed
  deriving DecidableEq

/-- `writer.close()`, if there is one -/
def Writer.close : Writer → Writer
  | .absent => .absent
  | _ => .closed

structure Lifecycle where
  client : Client
  raised : Option Exc := none
  writer : Writer := .absent
  closer : Option CallId := none

inductive LifecycleEvent
  | client (e : ClientEvent)
  /-- The task of the read loop has ended that the call awaits. -/
  | readerAwaited (id : CallId)
  /-- Reading from the transport raises, or what is read is rejected as no frame. -/
  | readFails (text : String) (rejected : Bool)

/-- What leaves the read loop, if the event ends it: a `ProtocolError`, while others are taken. -/
def Client.readerRaises (c : Client) : ClientEvent → Option Exc
  | .task (.frame f) =>
    match processFrame f c.conn with
    | .error e _ => if e.isProtocolError then some e else none
    | .ok _ _ => none
  | .task .closeDrained =>
    match c.conn.reader with
    | .closing reason => some (.protocolError reason)
    | _ => none
  | .task .eof => some (.protocolError "broker closed connection")
  | _ => none

namespace Lifecycle

def awaitsReader (s : Lifecycle) (id : CallId) : Bool :=
  match s.client.jobs id with
  | some (.closing (.reader _)) | some (.dropping .reader) => true
  | _ => false

def admits (s : Lifecycle) : ClientEvent → Bool
  | .resumed id failure => !s.awaitsReader id || Client.escapes failure
  | _ => true

def opensWriter (s : Lifecycle) : ClientEvent → Bool
  | .resumed id failure =>
    match s.client.jobs id, failure with
    | some (.connecting .opening), none => true
    | _, _ => false
  | _ => false

def closesWriter (s : Lifecycle) (c' : Client) : ClientEvent → Bool
  | .resumed id _ =>
    match s.client.jobs id, c'.jobs id with
    | some (.closing (.reader _)), some (.closing (.writer _)) => true
    | _, _ => false
  | .forceDrop _ => true
  | .task (.lose (.connectionLost reason)) => reason = "heartbeat timeout"
  | _ => false

def writerAfter (s : Lifecycle) (c' : Client) (e : ClientEvent) : Writer :=
  if s.opensWriter e then .open
  else if s.closesWriter c' e then s.writer.close
  else s.writer

def raisedAfter (s : Lifecycle) (c' : Client) (e : ClientEvent) : Option Exc :=
  if c'.conn.reader = s.client.conn.reader then s.raised
  else if c'.conn.reader = .stopped then s.client.readerRaises e
  else none

def closerAfter (s : Lifecycle) : ClientEvent → Option CallId
  | .close id => if s.client.closed then s.closer else some id
  | _ => s.closer

def moved (s : Lifecycle) (e : ClientEvent) (c' : Client) : Lifecycle where
  client := c'
  raised := s.raisedAfter c' e
  writer := s.writerAfter c' e
  closer := s.closerAfter e

/-- `except ProtocolError` raises again; `except Exception` rejects, and does not raise that. -/
def readFailed (s : Lifecycle) (text : String) (rejected : Bool) : Lifecycle :=
  { s with
    client := s.client.setConn (s.client.conn.endReader (.protocolError text))
    raised := if rejected then some (.protocolError text) else none }

def step (s : Lifecycle) : LifecycleEvent → Option Lifecycle
  | .client e => if s.admits e then (s.client.step e).map (s.moved e) else none
  | .readerAwaited id =>
    if s.awaitsReader id then (s.client.step (.resumed id s.raised)).map (s.moved (.resumed id s.raised)) else none
  | .readFails text rejected =>
    if s.client.conn.reader = .running then some (s.readFailed text rejected) else none

def new (config : ConnectionConfig) : Lifecycle where
  client := Client.new config

end Lifecycle

/-! ## What closing releases -/

/-- The writer is closed if there is one, no task is left, and what the read loop holds was not raised. -/
structure Lifecycle.Shut (s : Lifecycle) (outcome : Except Exc Unit) : Prop where
  writer : s.writer ≠ .open
  reader : s.client.conn.reader = .stopped
  heartbeat : s.client.beating = false
  outcome : ∀ e, s.raised = some e → outcome ≠ .error e

/-- The call that closes the connection leaves it shut. -/
def Lifecycle.CloseReleases (s : Lifecycle) : Prop :=
  ∀ id outcome, s.closer = some id → s.client.jobs id = some (.ended outcome) → s.Shut outcome

/-- The read loop that `close` awaits has ended without raising, and `connect` does not go on to a writer,
a read loop or a heartbeat that `close` has not seen. -/
def Lifecycle.endsQuietly (s : Lifecycle) : LifecycleEvent → Bool
  | .client e => !(s.client.closed && (s.client.startsTask e || s.opensWriter e)) &&
    match e with
    | .resumed id _ => !s.awaitsReader id || (s.client.conn.reader = .stopped && s.raised.isNone)
    | _ => true
  | .readerAwaited _ => s.raised.isNone
  | .readFails _ _ => true

section Closing

variable {c c' : Client} {id : CallId}

inductive Advances (id : CallId) (e : ClientEvent) : Job → Job → Prop
  | stays (job : Job) : Advances id e job job
  | expects : Advances id e (.closing .draining) (.closing .expecting)
  | awaits {step : CloseStep} (raised : Option Exc) (hstep : step = .draining ∨ step = .expecting) :
    Advances id e (.closing step) (.closing (.reader raised))
  | writer {failure : Option Exc} (raised : Option Exc) (he : e = .resumed id failure) :
    Advances id e (.closing (.reader raised)) (.closing (.writer raised))
  | fails {exc : Exc} (raised : Option Exc) (he : e = .resumed id (some exc)) (hexc : exc ≠ .cancelledError) :
    Advances id e (.closing (.reader raised)) (.ended (.error exc))
  | ends (raised : Option Exc) (outcome : Except Exc Unit) : Advances id e (.closing (.writer raised)) (.ended outcome)

def Job.closes : Job → Bool
  | .closing _ | .ended _ => true
  | _ => false

theorem receives_of_closes {job : Job} (h : job.closes = true) : job.receives = false := by
  cases job with
  | receiving timeout | receivingReturn timeout => cases h
  | _ => rfl

theorem finishClose_jobs (c : Client) (id : CallId) (failure : Option Exc) :
    ∃ outcome, (c.finishClose id failure).jobs id = some (.ended outcome) := by
  cases failure with
  | none => exact ⟨_, setJob_jobs c id _⟩
  | some e => exact ⟨_, setJob_jobs c id _⟩

theorem resumed_reader {raised failure : Option Exc} (hjob : c.jobs id = some (.closing (.reader raised)))
    (h : c.resumed id failure = some c') :
    c' = c.setJob id (.closing (.writer raised)) ∧
        (failure = some .cancelledError ∨ failure = none ∧ c.conn.reader = .stopped) ∨
      ∃ e, failure = some e ∧ e ≠ .cancelledError ∧ c.conn.reader = .stopped ∧
        c' = c.setJob id (.ended (.error e)) := by
  cases failure with
  | none =>
    simp only [Client.resumed, hjob] at h
    obtain ⟨hstopped, ⟨⟩⟩ := Option.ite_none_right_eq_some.mp h
    exact .inl ⟨rfl, .inr ⟨rfl, hstopped⟩⟩
  | some e =>
    cases e <;> simp only [Client.resumed, hjob] at h
    case cancelledError =>
      cases h
      exact .inl ⟨rfl, .inl rfl⟩
    all_goals
      obtain ⟨hstopped, ⟨⟩⟩ := Option.ite_none_right_eq_some.mp h
      exact .inr ⟨_, rfl, by simp, hstopped, rfl⟩

theorem advances_resumed {job : Job} {failure : Option Exc} (hjob : c.jobs id = some job)
    (hcloses : job.closes = true) (h : c.resumed id failure = some c') :
    ∃ job', c'.jobs id = some job' ∧ Advances id (.resumed id failure) job job' := by
  cases job with
  | closing step =>
    cases step with
    | draining =>
      cases failure with
      | none =>
        simp only [Client.resumed, hjob, Option.some.injEq] at h
        subst h
        exact ⟨_, setJob_jobs _ id _, .expects⟩
      | some e =>
        simp only [Client.resumed, hjob, Option.some.injEq] at h
        subst h
        exact ⟨_, setJob_jobs _ id _, .awaits _ (.inl rfl)⟩
    | expecting => simp [Client.resumed, hjob] at h
    | reader raised =>
      obtain ⟨rfl, -⟩ | ⟨e, rfl, hexc, -, rfl⟩ := resumed_reader hjob h
      · exact ⟨_, setJob_jobs c id _, .writer raised rfl⟩
      · exact ⟨_, setJob_jobs c id _, .fails raised rfl hexc⟩
    | writer raised =>
      simp only [Client.resumed, hjob, Option.some.injEq] at h
      subst h
      split
      · obtain ⟨outcome, houtcome⟩ := finishClose_jobs c id failure
        exact ⟨_, houtcome, .ends raised outcome⟩
      · obtain ⟨outcome, houtcome⟩ := finishClose_jobs c id raised
        exact ⟨_, houtcome, .ends raised outcome⟩
  | ended outcome => simp [Client.resumed, hjob] at h
  | _ => cases hcloses

theorem closeReader_jobs (c : Client) (id : CallId) (raised : Option Exc) :
    (c.closeReader id raised).jobs id = some (.closing (.reader raised)) := setJob_jobs _ id _

theorem advances_wakeJob {job : Job} (hjob : c.jobs id = some job) (hcloses : job.closes = true)
    (h : c.wakeJob id = some c') : ∃ job', c'.jobs id = some job' ∧ Advances id (.wakeJob id) job job' := by
  cases job with
  | closing step =>
    cases step with
    | expecting =>
      simp only [Client.wakeJob, hjob, Job.key, Option.bind_some] at h
      obtain ⟨outcome, -, rfl⟩ := Option.map_eq_some_iff.mp h
      simp only [Client.replied]
      unfold Client.closeReplied
      split
      · exact ⟨_, closeReader_jobs _ id none, .awaits none (.inr rfl)⟩
      · split
        · exact ⟨_, closeReader_jobs _ id none, .awaits none (.inr rfl)⟩
        · exact ⟨_, closeReader_jobs _ id _, .awaits _ (.inr rfl)⟩
    | _ => simp [Client.wakeJob, hjob, Job.key] at h
  | ended outcome => simp [Client.wakeJob, hjob, Job.key] at h
  | _ => cases hcloses

/-- The timer and the cancellation of a wait for close-ok only settle its future. -/
theorem advances_step {job : Job} {e : ClientEvent} (hjob : c.jobs id = some job) (hcloses : job.closes = true)
    (h : c.step e = some c') : ∃ job', c'.jobs id = some job' ∧ Advances id e job job' := by
  by_cases hsubject : e.subject = some id
  · have hfresh : c.fresh id = false := by simp [Client.fresh, hjob]
    cases e with
    | task e =>
      obtain ⟨-, h⟩ := Option.ite_none_right_eq_some.mp h
      obtain ⟨tasks, -, rfl⟩ := Option.map_eq_some_iff.mp h
      exact ⟨job, by rw [absorb_jobs, hjob], .stays job⟩
    | connect | openChannel | settle | receive | receiveReturn | close | forceDrop =>
      cases hsubject
      simp [Client.step, hfresh] at h
    | resumed other failure =>
      cases hsubject
      exact advances_resumed hjob hcloses h
    | wakeJob other =>
      cases hsubject
      exact advances_wakeJob hjob hcloses h
    | expire other =>
      cases hsubject
      exact ⟨job, by rw [jobs_expire hjob (receives_of_closes hcloses) h, hjob], .stays job⟩
    | cancelJob other =>
      cases hsubject
      exact ⟨job, by rw [jobs_cancelJob hjob (receives_of_closes hcloses) h, hjob], .stays job⟩
    | heartbeat | readerStops => cases hsubject
  · exact ⟨job, by rw [(turns_step h).jobs id hsubject, hjob], .stays job⟩

theorem setConn_closed (c : Client) (conn : Conn) : (c.setConn conn).closed = c.closed := absorb_closed c _

theorem setConn_beating (c : Client) (conn : Conn) : (c.setConn conn).beating = c.beating := absorb_beating c _

/-- The first call of `close` stops the heartbeat, and waits for its drain or for the read loop. -/
theorem close_begins (id : CallId) (h : c.closed = false) : (c.close id).closed = true ∧ (c.close id).beating = false ∧
    ∃ step, (c.close id).jobs id = some (.closing step) ∧ ∀ raised, step ≠ .writer raised := by
  unfold Client.close
  rw [if_neg (by simp [h])]
  dsimp only
  split
  · split
    · exact ⟨setConn_closed _ _, setConn_beating _ _, _, setJob_jobs _ id _, by simp⟩
    · refine ⟨?_, ?_, _, closeReader_jobs _ id _, by simp⟩
      · exact (setConn_closed _ _).trans (setConn_closed _ _)
      · exact (setConn_beating _ _).trans (setConn_beating _ _)
  · exact ⟨setConn_closed _ _, setConn_beating _ _, _, closeReader_jobs _ id _, by simp⟩

end Closing

/-! ## Runs -/

/-- There is no open writer, and no read loop that holds anything. -/
structure Lifecycle.Spent (s : Lifecycle) : Prop where
  writer : s.writer ≠ .open
  reader : s.client.conn.reader = .stopped
  raised : s.raised = none

/-- How far the call has come that closes the connection. -/
def Lifecycle.Reached (s : Lifecycle) : Job → Prop
  | .closing (.writer _) | .ended _ => s.Spent
  | .closing _ => True
  | _ => False

/-- The call that closes the connection is under way or has ended, without a heartbeat, and spends the
connection when it gets to the writer. -/
structure ShutInv (s : Lifecycle) : Prop where
  closed : s.closer ≠ none → s.client.closed = true ∧ s.client.beating = false
  job : ∀ id, s.closer = some id → ∃ job, s.client.jobs id = some job ∧ s.Reached job

section Runs

variable {s s' : Lifecycle} {c' : Client} {e : ClientEvent} {id : CallId}

theorem closes_of_reached {job : Job} (h : s.Reached job) : job.closes = true := by
  cases job <;> first | rfl | cases h

theorem close_ne_open (w : Writer) : w.close ≠ .open := by
  cases w <;> simp [Writer.close]

/-- A step that opens no writer and starts no task leaves a spent connection spent. -/
theorem Lifecycle.Spent.moved (h : s.Spent) (hlulls : Lulls s.client c') (hopens : s.opensWriter e = false) :
    (s.moved e c').Spent := by
  have hreader : c'.conn.reader = .stopped := hlulls.reader h.reader
  refine ⟨?_, hreader, ?_⟩
  · simp only [Lifecycle.moved, Lifecycle.writerAfter, hopens]
    split
    · cases ‹false = true›
    · split
      · exact close_ne_open _
      · exact h.writer
  · simp [Lifecycle.moved, Lifecycle.raisedAfter, hreader, h.reader, h.raised]

theorem reached_moved {job job' : Job} (hreached : s.Reached job) (hjob : s.client.jobs id = some job)
    (hjob' : c'.jobs id = some job') (hadvances : Advances id e job job') (hlulls : Lulls s.client c')
    (hopens : s.opensWriter e = false)
    (hreader : ∀ failure raised, e = .resumed id failure → s.client.jobs id = some (.closing (.reader raised)) →
      s.client.conn.reader = .stopped ∧ s.raised = none ∧ (failure = none ∨ failure = some .cancelledError)) :
    (s.moved e c').Reached job' := by
  cases hadvances with
  | stays =>
    cases job with
    | closing step =>
      cases step with
      | writer raised => exact Lifecycle.Spent.moved hreached hlulls hopens
      | _ => trivial
    | ended outcome => exact Lifecycle.Spent.moved hreached hlulls hopens
    | _ => cases hreached
  | expects => trivial
  | awaits raised hstep => trivial
  | writer raised he =>
    obtain ⟨hstopped, hnone, -⟩ := hreader _ raised he hjob
    have hafter : c'.conn.reader = .stopped := hlulls.reader hstopped
    refine ⟨?_, hafter, ?_⟩
    · have hcloses : s.closesWriter c' e = true := by
        rw [he]
        simp [Lifecycle.closesWriter, hjob, hjob']
      simp only [Lifecycle.moved, Lifecycle.writerAfter, hopens, hcloses]
      exact close_ne_open _
    · simp [Lifecycle.moved, Lifecycle.raisedAfter, hafter, hstopped, hnone]
  | fails raised he hexc =>
    obtain ⟨-, -, hfailure⟩ := hreader _ raised he hjob
    rcases hfailure with hfailure | hfailure
    · cases hfailure
    · exact absurd (Option.some.inj hfailure) hexc
  | ends raised outcome => exact Lifecycle.Spent.moved hreached hlulls hopens

theorem ShutInv.moved (hinv : ShutInv s) (h : s.client.step e = some c')
    (hquiet : s.client.closed = true → s.client.startsTask e = false ∧ s.opensWriter e = false)
    (hreader : ∀ id failure raised, e = .resumed id failure → s.client.jobs id = some (.closing (.reader raised)) →
      s.client.conn.reader = .stopped ∧ s.raised = none ∧ (failure = none ∨ failure = some .cancelledError)) :
    ShutInv (s.moved e c') := by
  by_cases hbegins : ∃ id, e = .close id ∧ s.client.closed = false
  · obtain ⟨id, rfl, hopen⟩ := hbegins
    obtain ⟨-, ⟨⟩⟩ := Option.ite_none_right_eq_some.mp h
    obtain ⟨hclosed, hbeating, step, hjob, hstep⟩ := close_begins id hopen
    refine ⟨fun _ => ⟨hclosed, hbeating⟩, fun other hother => ?_⟩
    have hcloser : some id = some other := by simpa [Lifecycle.moved, Lifecycle.closerAfter, hopen] using hother
    cases hcloser
    refine ⟨_, hjob, ?_⟩
    cases step with
    | writer raised => exact absurd rfl (hstep raised)
    | _ => trivial
  · have hcloser : (s.moved e c').closer = s.closer := by
      cases e with
      | close id =>
        have hclosed : s.client.closed = true := by
          rw [← Bool.not_eq_false]
          exact fun hopen => hbegins ⟨id, rfl, hopen⟩
        simp [Lifecycle.moved, Lifecycle.closerAfter, hclosed]
      | _ => rfl
    refine ⟨fun hsome => ?_, fun id hid => ?_⟩
    · rw [hcloser] at hsome
      obtain ⟨hclosed, hbeating⟩ := hinv.closed hsome
      exact ⟨(turns_step h).closed hclosed, (lulls_step h (hquiet hclosed).1).beating hbeating⟩
    · rw [hcloser] at hid
      obtain ⟨hclosed, -⟩ := hinv.closed (by simp [hid])
      obtain ⟨hstarts, hopens⟩ := hquiet hclosed
      obtain ⟨job, hjob, hreached⟩ := hinv.job id hid
      obtain ⟨job', hjob', hadvances⟩ := advances_step hjob (closes_of_reached hreached) h
      exact ⟨job', hjob', reached_moved hreached hjob hjob' hadvances (lulls_step h hstarts) hopens (hreader id)⟩

theorem ShutInv.readFailed (hinv : ShutInv s) (hrunning : s.client.conn.reader = .running) (text : String)
    (rejected : Bool) : ShutInv (s.readFailed text rejected) where
  closed hcloser := by
    obtain ⟨hclosed, hbeating⟩ := hinv.closed hcloser
    exact ⟨(setConn_closed _ _).trans hclosed, (setConn_beating _ _).trans hbeating⟩
  job id hcloser := by
    obtain ⟨job, hjob, hreached⟩ := hinv.job id hcloser
    refine ⟨job, (congrFun (absorb_jobs _ _) id).trans hjob, ?_⟩
    have hspent : ¬s.Spent := by
      intro hspent
      cases hrunning.symm.trans hspent.reader
    cases job with
    | closing step =>
      cases step with
      | writer raised => exact absurd hreached hspent
      | _ => trivial
    | ended outcome => exact absurd hreached hspent
    | _ => cases hreached

theorem cancelled_of_escapes {failure : Option Exc} (h : Client.escapes failure = true) :
    failure = some .cancelledError := by
  unfold Client.escapes at h
  split at h
  · rfl
  · cases h

theorem ShutInv.step {event : LifecycleEvent} (hinv : ShutInv s) (hquiet : s.endsQuietly event = true)
    (h : s.step event = some s') : ShutInv s' := by
  cases event with
  | client e =>
    obtain ⟨hadmits, h⟩ := Option.ite_none_right_eq_some.mp h
    obtain ⟨c', hstep, rfl⟩ := Option.map_eq_some_iff.mp h
    simp only [Lifecycle.endsQuietly, Bool.and_eq_true, Bool.not_eq_true', Bool.and_eq_false_iff,
      Bool.or_eq_false_iff] at hquiet
    obtain ⟨hstarts, hawaits⟩ := hquiet
    refine hinv.moved hstep (fun hclosed => hstarts.resolve_left (by simp [hclosed])) ?_
    rintro id failure raised rfl hjob
    have hreader : s.awaitsReader id = true := by simp [Lifecycle.awaitsReader, hjob]
    simp only [Lifecycle.admits, hreader, Bool.not_true, Bool.false_or] at hadmits
    simp only [hreader, Bool.not_true, Bool.false_or, Bool.and_eq_true, decide_eq_true_eq, Option.isNone_iff_eq_none]
      at hawaits
    exact ⟨hawaits.1, hawaits.2, .inr (cancelled_of_escapes hadmits)⟩
  | readerAwaited id =>
    obtain ⟨hawaits, h⟩ := Option.ite_none_right_eq_some.mp h
    obtain ⟨c', hstep, rfl⟩ := Option.map_eq_some_iff.mp h
    have hnone : s.raised = none := by simpa [Lifecycle.endsQuietly] using hquiet
    refine hinv.moved hstep (fun _ => ?_) ?_
    · unfold Lifecycle.awaitsReader at hawaits
      split at hawaits
      · rename_i hjob
        simp [Client.startsTask, Lifecycle.opensWriter, hjob]
      · rename_i hjob
        simp [Client.startsTask, Lifecycle.opensWriter, hjob]
      · cases hawaits
    · intro other failure raised he hjob
      cases he
      rw [hnone] at hstep ⊢
      obtain ⟨-, hfailure | ⟨-, hstopped⟩⟩ | ⟨e, hfailure, -⟩ := resumed_reader hjob hstep
      · cases hfailure
      · exact ⟨hstopped, rfl, .inl rfl⟩
      · cases hfailure
  | readFails text rejected =>
    obtain ⟨hrunning, ⟨⟩⟩ := Option.ite_none_right_eq_some.mp h
    exact hinv.readFailed hrunning text rejected

theorem ShutInv.new (config : ConnectionConfig) : ShutInv (Lifecycle.new config) where
  closed hcloser := absurd rfl hcloser
  job id hcloser := by cases hcloser

theorem ShutInv.releases (hinv : ShutInv s) : s.CloseReleases := by
  intro id outcome hcloser hended
  obtain ⟨job, hjob, hreached⟩ := hinv.job id hcloser
  rw [hended] at hjob
  cases hjob
  refine ⟨hreached.writer, hreached.reader, (hinv.closed (by simp [hcloser])).2, fun e hraised => ?_⟩
  rw [hreached.raised] at hraised
  cases hraised

/-- In every run whose steps end quietly, `close` leaves the connection shut. -/
theorem close_releases (config : ConnectionConfig)
    (h : ReachesWhere Lifecycle.step (fun s e => s.endsQuietly e = true) (Lifecycle.new config) s) :
    s.CloseReleases :=
  (h.invariant (ShutInv.new config) fun _ _ _ hinv hquiet hstep => hinv.step hquiet hstep : ShutInv s).releases

theorem close_again (hclosed : s.client.closed = true) (hfresh : s.client.fresh id = true) :
    s.step (.client (.close id)) =
      some { s with client := { s.client.setJob id (.ended (.ok ())) with closeReturned := true } } := by
  have hstep : s.client.step (.close id) = some (s.client.finishClose id none) := by
    simp only [Client.step, hfresh, if_true, Client.close, hclosed]
  have hraised : s.raisedAfter (s.client.finishClose id none) (.close id) = s.raised := if_pos rfl
  have hwriter : s.writerAfter (s.client.finishClose id none) (.close id) = s.writer := rfl
  have hcloser : s.closerAfter (.close id) = s.closer := by simp [Lifecycle.closerAfter, hclosed]
  simp only [Lifecycle.step, Lifecycle.admits, if_true, hstep, Option.map_some, Lifecycle.moved, hraised, hwriter,
    hcloser]
  rfl

/-- `close` raises what the task of the read loop holds, and leaves the writer as it is. -/
theorem close_raises {raised : Option Exc} {exc : Exc} (hjob : s.client.jobs id = some (.closing (.reader raised)))
    (hstopped : s.client.conn.reader = .stopped) (hraised : s.raised = some exc) (hexc : exc ≠ .cancelledError) :
    ∃ s', s.step (.readerAwaited id) = some s' ∧ s'.client.jobs id = some (.ended (.error exc)) ∧
      s'.writer = s.writer := by
  have hawaits : s.awaitsReader id = true := by simp [Lifecycle.awaitsReader, hjob]
  have hstep : s.client.resumed id (some exc) = some (s.client.setJob id (.ended (.error exc))) := by
    cases exc <;> first | exact absurd rfl hexc | simp [Client.resumed, hjob, hstopped]
  refine ⟨s.moved (.resumed id (some exc)) (s.client.setJob id (.ended (.error exc))), ?_, setJob_jobs _ id _, ?_⟩
  · simp [Lifecycle.step, hawaits, hraised, Client.step, hstep]
  · simp [Lifecycle.moved, Lifecycle.writerAfter, Lifecycle.opensWriter, Lifecycle.closesWriter, hjob, setJob_jobs]

end Runs

end Nuropb.Transport
