import Nuropb.Library.FifoLock
import Nuropb.Sessions.FailFast
import Nuropb.Sessions.Staff

/-! # One reconnect at a time

The lock of a session is a fair lock of its reconnects. Whatever interrupts a reconnect, it leaves the lock free.
-/
namespace Nuropb.Sessions

open Library Transport

/-- A reconnect takes the lock; `start` and `close` go on without it. -/
def Purpose.locks : Purpose → Bool
  | .reconnect | .coordinate .. | .auto _ => true
  | .start | .close => false

/-- Where a reconnect at the stage is to the lock. -/
def Stage.lockPhase : Stage → LockPhase
  | .locking => .waiting
  | .stoppingReply _ | .closingConn _ | .opening .. | .republishing .. => .inside
  | _ => .outside

namespace Worker

def lockPhase (worker : Worker) : LockPhase := if worker.purpose.locks then worker.stage.lockPhase else .outside

/-- Only a reconnect waits for its turn, and only `close` for another task. -/
def placed (worker : Worker) : Bool :=
  match worker.stage with
  | .created | .locking | .sleeping => worker.purpose.locks
  | .awaitingAuto _ => !worker.purpose.locks
  | _ => true

end Worker

namespace Session

/-- The reconnect lock, and where the workers are to it. -/
def reconnectLock (s : Session) : FifoLock WorkerId where
  holder := s.lock
  line := s.lockLine
  phase w := ((s.workers w).map Worker.lockPhase).getD .outside

/-- The worker runs, and nothing else has to do with the lock; it stays behind the lock, if it may, or leaves it. -/
structure Proceeds (stays : Bool) (w : WorkerId) (s s' : Session) : Prop where
  others : ∀ v, v ≠ w → s'.workers v = s.workers v
  line : s'.lockLine = s.lockLine
  locks : (s'.workers w).map (fun worker => worker.purpose.locks) = (s.workers w).map fun worker => worker.purpose.locks
  ends : ∀ worker, s'.workers w = some worker → worker.placed = true ∧
    (stays = true ∧ worker.stage.lockPhase = .inside ∧ s'.lock = s.lock ∨
      worker.stage.lockPhase = .outside ∧
        (s'.lock = (if s.lock = some w then none else s.lock) ∨ worker.purpose.locks = false ∧ s'.lock = s.lock))

end Session

/-! ## A worker runs -/

section Workers

variable {s s' t : Session} {w : WorkerId} {stays : Bool} {stage : Stage}

theorem Session.Proceeds.after (h : t.Proceeds stays w s') (hworkers : t.workers = s.workers)
    (hline : t.lockLine = s.lockLine) (hlock : t.lock = s.lock) : s.Proceeds stays w s' :=
  ⟨fun v hv => (h.others v hv).trans (congrFun hworkers v), h.line.trans hline, h.locks.trans (by rw [hworkers]),
    fun worker hworker => by rw [← hlock]; exact h.ends worker hworker⟩

theorem Session.Proceeds.mayStay (h : s.Proceeds false w s') : s.Proceeds true w s' :=
  ⟨h.others, h.line, h.locks, fun worker hworker =>
    (h.ends worker hworker).imp_right (Or.imp_left fun ⟨hfalse, _⟩ => by cases hfalse)⟩

/-- The worker comes to a stage, and the lock is as that says. -/
theorem proceeds_setStage (hworkers : t.workers = s.workers) (hline : t.lockLine = s.lockLine)
    (hends : ∀ worker, s.workers w = some worker → Worker.placed { worker with stage } = true ∧
      (stays = true ∧ stage.lockPhase = .inside ∧ t.lock = s.lock ∨ stage.lockPhase = .outside ∧
        (t.lock = (if s.lock = some w then none else s.lock) ∨ worker.purpose.locks = false ∧ t.lock = s.lock))) :
    s.Proceeds stays w (t.setStage w stage) := by
  cases hworker : s.workers w with
  | none =>
    have ht : t.setStage w stage = t := by rw [Session.setStage, hworkers, hworker]
    rw [ht]
    refine ⟨fun v _ => congrFun hworkers v, hline, by rw [hworkers], fun worker hfound => ?_⟩
    rw [hworkers, hworker] at hfound
    cases hfound
  | some worker =>
    have hthere : t.workers w = some worker := by rw [hworkers, hworker]
    rw [workers_setStage hthere]
    refine ⟨fun v hv => (if_neg hv).trans (congrFun hworkers v), hline, ?_, fun found hfound => ?_⟩
    · have hself : (t.setWorker w { worker with stage }).workers w = some { worker with stage } := if_pos rfl
      rw [hself, hworker]
      rfl
    · cases (if_pos rfl).symm.trans hfound
      exact hends worker hworker

theorem proceeds_stays (hstage : stage.lockPhase = .inside) : s.Proceeds true w (s.setStage w stage) := by
  refine proceeds_setStage rfl rfl fun worker _ => ⟨?_, .inl ⟨rfl, hstage, rfl⟩⟩
  cases stage with
  | stoppingReply | closingConn | opening | republishing => rfl
  | _ => cases hstage

theorem lock_release (s : Session) (w : WorkerId) : (s.release w).lock = if s.lock = some w then none else s.lock := by
  unfold Session.release
  split <;> rfl

theorem workers_release (s : Session) (w : WorkerId) : (s.release w).workers = s.workers := by
  unfold Session.release
  split <;> rfl

theorem lockLine_release (s : Session) (w : WorkerId) : (s.release w).lockLine = s.lockLine := by
  unfold Session.release
  split <;> rfl

/-- The worker leaves the lock, and has ended or waits before another attempt. -/
theorem proceeds_leaves (hstage : stage.lockPhase = .outside) (hplaced : ∀ worker, s.workers w = some worker →
      Worker.placed { worker with stage } = true) : s.Proceeds false w ((s.release w).setStage w stage) :=
  proceeds_setStage (workers_release s w) (lockLine_release s w) fun worker hworker =>
    ⟨hplaced worker hworker, .inr ⟨hstage, .inl (lock_release s w)⟩⟩

theorem proceeds_returned (s : Session) (w : WorkerId) : s.Proceeds false w (s.returned w) := proceeds_leaves rfl fun _ _ => rfl

theorem proceeds_raised (s : Session) (w : WorkerId) (e : Exc) : s.Proceeds false w (s.raised w e) := by
  have hended (outcome : Except Exc Unit) : s.Proceeds false w ((s.release w).setStage w (.ended outcome)) :=
    proceeds_leaves rfl fun _ _ => rfl
  have hsleeping {purpose : Purpose} (hpurpose : (s.workers w).map Worker.purpose = some purpose)
      (hlocks : purpose.locks = true) : s.Proceeds false w ((s.release w).setStage w .sleeping) := by
    refine proceeds_leaves rfl fun worker hworker => ?_
    rw [hworker] at hpurpose
    change worker.purpose.locks = true
    rwa [Option.some.inj hpurpose]
  unfold Session.raised
  extract_lets t
  have ht : (t.workers w).map Worker.purpose = (s.workers w).map Worker.purpose := by rw [workers_release]
  split
  · exact hended _
  · exact hended _
  · rename_i hpurpose _
    split
    · exact hended _
    · exact hsleeping (ht.symm.trans hpurpose) rfl
  · rename_i hpurpose _
    split
    · exact proceeds_setStage (workers_release s w) (lockLine_release s w) fun worker _ =>
        ⟨rfl, .inr ⟨rfl, .inl (lock_release s w)⟩⟩
    · exact hsleeping (ht.symm.trans hpurpose) rfl
  · exact hended _

theorem proceeds_republish (s : Session) (w : WorkerId) (entries : List (Text × ParkedPublish)) :
    s.Proceeds true w (s.republish w entries) := by
  induction entries generalizing s with
  | nil =>
    rw [Session.republish]
    exact (proceeds_returned s w).mayStay
  | cons entry rest ih =>
    obtain ⟨rid, parked⟩ := entry
    rw [Session.republish]
    split
    · extract_lets envelope id t
      split
      · exact (proceeds_stays rfl).after rfl rfl rfl
      · exact (ih _).after rfl rfl rfl
      · split
        · exact (ih _).after rfl rfl rfl
        · exact (proceeds_raised t w _).mayStay.after rfl rfl rfl
    · exact (ih _).after rfl rfl rfl

theorem proceeds_republished (s : Session) (w : WorkerId) (epoch : Nat) (rid : Text) (envelope : ParkedPublish)
    (rest : List (Text × ParkedPublish)) (outcome : Except Exc (Option Text)) :
    s.Proceeds true w (s.republished w epoch rid envelope rest outcome) := by
  cases outcome with
  | ok result => exact (proceeds_republish (s.recordPublish epoch envelope) w rest).after rfl rfl rfl
  | error e =>
    rw [Session.republished]
    split
    · exact (proceeds_republish _ w rest).after rfl rfl rfl
    · exact (proceeds_raised s w e).mayStay

theorem proceeds_opened (s : Session) (w : WorkerId) : s.Proceeds true w (s.opened w) := by
  unfold Session.opened
  split
  · exact (proceeds_returned s w).mayStay
  · split
    · exact (proceeds_returned s w).mayStay
    · exact proceeds_republish s w _

theorem proceeds_opens (s : Session) (w : WorkerId) (op : Operation) (step : Opening) :
    s.Proceeds true w (s.opens w op step) := by
  unfold Session.opens
  extract_lets id t
  split
  · exact (proceeds_raised t w _).mayStay.after rfl rfl rfl
  · exact (proceeds_stays (s := t) rfl).after rfl rfl rfl

theorem proceeds_startConn (s : Session) (w : WorkerId) : s.Proceeds true w (s.startConn w) :=
  (proceeds_opens _ w .connect .connecting).after rfl rfl rfl

theorem proceeds_openingEnded (s : Session) (w : WorkerId) (step : Opening) (outcome : Except Exc (Option Text)) :
    s.Proceeds true w (s.openingEnded w step outcome) := by
  unfold Session.openingEnded
  split
  · exact (proceeds_raised s w _).mayStay
  · exact proceeds_opens s w _ _
  · exact proceeds_opens s w _ _
  · exact (proceeds_opens _ w _ _).after rfl rfl rfl
  · exact (proceeds_opened _ w).after rfl rfl rfl

theorem proceeds_closed (s : Session) (w : WorkerId) (outcome : Except Exc (Option Text)) :
    s.Proceeds true w (s.closed w outcome) := by
  unfold Session.closed
  split
  · rename_i hpurpose
    refine proceeds_setStage rfl rfl fun worker hworker => ⟨rfl, .inr ⟨rfl, .inr ⟨?_, rfl⟩⟩⟩
    rw [hworker] at hpurpose
    rw [Option.some.inj hpurpose]
    rfl
  · exact (proceeds_raised s w _).mayStay
  · exact (proceeds_startConn s.newConnection w).after rfl rfl rfl

theorem proceeds_replyStopped (s : Session) (w : WorkerId) : s.Proceeds true w (s.replyStopped w) := by
  unfold Session.replyStopped
  extract_lets id t
  split
  · exact (proceeds_closed t w _).after rfl rfl rfl
  · exact (proceeds_stays (s := t) rfl).after rfl rfl rfl

theorem proceeds_stopReply (s : Session) (w : WorkerId) : s.Proceeds true w (s.stopReply w) := by
  unfold Session.stopReply
  split
  · exact proceeds_replyStopped s w
  · rename_i l _
    split
    · exact proceeds_replyStopped s w
    · exact (proceeds_stays (s := s.setCancelled (.loop l) true) rfl).after rfl rfl rfl

theorem proceeds_reconnectLocked (s : Session) (w : WorkerId) : s.Proceeds true w (s.reconnectLocked w) := by
  unfold Session.reconnectLocked
  split
  · exact (proceeds_returned s w).mayStay
  · extract_lets t u
    refine (proceeds_stopReply u w).after ?_ ?_ ?_ <;> (dsimp only [u]; split <;> rfl)

end Workers

/-! ## The lock -/

namespace Session

def Placed (s : Session) : Prop := ∀ w worker, s.workers w = some worker → worker.placed = true

/-- The lock is exclusive, and every worker is where it may be. -/
structure Ranked (s : Session) : Prop where
  exclusive : s.reconnectLock.Exclusive
  placed : s.Placed
  staffed : s.Staffed

/-- The workers stay where they are to the lock. -/
structure Bides (s s' : Session) : Prop where
  lock : s'.reconnectLock = s.reconnectLock
  placed : s.Placed → s'.Placed

/-- The lock takes a step of its own, or a reconnect that has waited only goes through it. -/
structure Passes (s s' : Session) : Prop where
  lock : s'.reconnectLock = s.reconnectLock ∨ (∃ event, s.reconnectLock.step event = some s'.reconnectLock) ∨
    ∃ w lock, s.reconnectLock.step (.enter w) = some lock ∧ lock.step (.release w) = some s'.reconnectLock
  placed : s.Placed → s'.Placed

end Session

section Lock

variable {s s' s'' : Session} {w : WorkerId} {worker : Worker} {stays : Bool}

theorem reconnectLock_of_same (hworkers : s'.workers = s.workers) (hlock : s'.lock = s.lock)
    (hline : s'.lockLine = s.lockLine) : s'.reconnectLock = s.reconnectLock := by
  unfold Session.reconnectLock
  rw [hworkers, hlock, hline]

theorem Session.Bides.of_same (hworkers : s'.workers = s.workers) (hlock : s'.lock = s.lock)
    (hline : s'.lockLine = s.lockLine) : s.Bides s' :=
  ⟨reconnectLock_of_same hworkers hlock hline, fun hplaced w worker hworker => hplaced w worker (by rw [← hworkers, hworker])⟩

theorem Session.Bides.of_crew (h : s'.crew = s.crew) : s.Bides s' :=
  .of_same (congrArg Crew.workers h) (congrArg Crew.lock h) (congrArg Crew.lockLine h)

theorem Session.Bides.trans (h : s.Bides s') (h' : s'.Bides s'') : s.Bides s'' :=
  ⟨h'.lock.trans h.lock, fun hplaced => h'.placed (h.placed hplaced)⟩

theorem Session.Bides.passes (h : s.Bides s') : s.Passes s' := ⟨.inl h.lock, h.placed⟩

theorem Session.Bides.then (h : s.Bides s') (h' : s'.Passes s'') : s.Passes s'' :=
  ⟨h.lock ▸ h'.lock, fun hplaced => h'.placed (h.placed hplaced)⟩

theorem phase_reconnectLock (hworker : s.workers w = some worker) : s.reconnectLock.phase w = worker.lockPhase := by
  change ((s.workers w).map Worker.lockPhase).getD .outside = _
  rw [hworker]
  rfl

/-- What a worker that has run makes of the lock. -/
theorem lock_of_proceeds (h : s.Proceeds stays w s') (hworker : s.workers w = some worker) :
    ∃ after, s'.workers w = some after ∧ after.purpose.locks = worker.purpose.locks ∧
      s'.reconnectLock = ⟨s'.lock, s.lockLine, Function.update s.reconnectLock.phase w after.lockPhase⟩ := by
  have hlocks := h.locks
  rw [hworker] at hlocks
  obtain ⟨after, hafter, hsame⟩ := Option.map_eq_some_iff.mp hlocks
  refine ⟨after, hafter, hsame, FifoLock.ext rfl h.line ?_⟩
  funext v
  change s'.reconnectLock.phase v = Function.update s.reconnectLock.phase w after.lockPhase v
  rw [Function.update_apply]
  split
  · rename_i heq
    rw [heq, phase_reconnectLock hafter]
  · rename_i hne
    change ((s'.workers v).map Worker.lockPhase).getD .outside = ((s.workers v).map Worker.lockPhase).getD .outside
    rw [h.others v hne]

theorem placed_of_proceeds (h : s.Proceeds stays w s') (hplaced : s.Placed) : s'.Placed := by
  intro v found hfound
  by_cases heq : v = w
  · subst heq
    exact (h.ends found hfound).1
  · rw [h.others v heq] at hfound
    exact hplaced v found hfound

/-- `start` and `close` have nothing to do with the lock. -/
theorem bides_of_proceeds (h : s.Proceeds stays w s') (hworker : s.workers w = some worker)
    (hlocks : worker.purpose.locks = false) (hex : s.reconnectLock.Exclusive) : s.Bides s' := by
  refine ⟨?_, placed_of_proceeds h⟩
  obtain ⟨after, hafter, hsame, hlock⟩ := lock_of_proceeds h hworker
  have houtside {found : Worker} (hfound : found.purpose.locks = false) : found.lockPhase = .outside := by
    rw [Worker.lockPhase, hfound]
    rfl
  have hphase := (phase_reconnectLock hworker).trans (houtside hlocks)
  have hholder : s.lock ≠ some w := hex.holder_ne (by rw [hphase]; simp)
  rw [hlock, houtside (hsame.trans hlocks), ← hphase, Function.update_eq_self]
  refine FifoLock.ext ?_ rfl rfl
  rcases (h.ends after hafter).2 with ⟨-, -, heq⟩ | ⟨-, heq | ⟨-, heq⟩⟩
  · exact heq
  · exact heq.trans (if_neg hholder)
  · exact heq

theorem lockPhase_of_locks (hlocks : worker.purpose.locks = true) : worker.lockPhase = worker.stage.lockPhase := if_pos hlocks

/-- A reconnect that has the lock stays behind it, or releases it. -/
theorem lock_of_locked (h : s.Proceeds true w s') (hworker : s.workers w = some worker) (hlocks : worker.purpose.locks = true)
    (hlock : s.lock = some w) :
    s'.reconnectLock = ⟨some w, s.lockLine, Function.update s.reconnectLock.phase w .inside⟩ ∨
      s'.reconnectLock = ⟨none, s.lockLine, Function.update s.reconnectLock.phase w .outside⟩ := by
  obtain ⟨after, hafter, hsame, heq⟩ := lock_of_proceeds h hworker
  rw [lockPhase_of_locks (hsame.trans hlocks)] at heq
  rw [heq]
  rcases (h.ends after hafter).2 with ⟨-, hphase, hstays⟩ | ⟨hphase, hleft | ⟨hfree, -⟩⟩
  · rw [hphase, hstays, hlock]
    exact .inl rfl
  · rw [hphase, hleft, if_pos hlock]
    exact .inr rfl
  · rw [hsame, hlocks] at hfree
    cases hfree

/-- A reconnect that has not got the lock ends, or waits before another attempt. -/
theorem lock_of_left (h : s.Proceeds false w s') (hworker : s.workers w = some worker) (hlocks : worker.purpose.locks = true)
    (hlock : s.lock ≠ some w) :
    s'.reconnectLock = ⟨s.lock, s.lockLine, Function.update s.reconnectLock.phase w .outside⟩ := by
  obtain ⟨after, hafter, hsame, heq⟩ := lock_of_proceeds h hworker
  rw [lockPhase_of_locks (hsame.trans hlocks)] at heq
  rw [heq]
  rcases (h.ends after hafter).2 with ⟨hfalse, -⟩ | ⟨hphase, hleft | ⟨hfree, -⟩⟩
  · cases hfalse
  · rw [hphase, hleft, if_neg hlock]
  · rw [hsame, hlocks] at hfree
    cases hfree

end Lock

/-! ## Steps -/

section Steps

variable {s s' : Session} {e : SessionEvent} {w : WorkerId} {worker : Worker}

theorem passes_of_step (event : LockEvent WorkerId) (hplaced : s.Placed → s'.Placed)
    (hstep : s.reconnectLock.step event = some s'.reconnectLock) : s.Passes s' :=
  ⟨.inr (.inl ⟨event, hstep⟩), hplaced⟩

/-- A worker that is behind the lock, or has nothing to do with it. -/
theorem passes_inside (hex : s.reconnectLock.Exclusive) (hworker : s.workers w = some worker)
    (hstage : worker.purpose.locks = true → worker.stage.lockPhase = .inside) (h : s.Proceeds true w s') : s.Passes s' := by
  cases hlocks : worker.purpose.locks with
  | false => exact (bides_of_proceeds h hworker hlocks hex).passes
  | true =>
    have hphase : s.reconnectLock.phase w = .inside := by
      rw [phase_reconnectLock hworker, lockPhase_of_locks hlocks, hstage hlocks]
    have hholder : s.lock = some w := (hex.inside w).mp hphase
    rcases lock_of_locked h hworker hlocks hholder with hstays | hleaves
    · rw [← hphase, Function.update_eq_self, ← hholder] at hstays
      exact Session.Bides.passes ⟨hstays, placed_of_proceeds h⟩
    · exact passes_of_step (.release w) (placed_of_proceeds h) (by rw [hleaves]; exact if_pos hphase)

/-- A worker that has not got the lock ends, or waits before another attempt. -/
theorem bides_raised (hex : s.reconnectLock.Exclusive) (hworker : s.workers w = some worker)
    (hstage : worker.stage.lockPhase = .outside) (e : Exc) : s.Bides (s.raised w e) := by
  have h := proceeds_raised s w e
  cases hlocks : worker.purpose.locks with
  | false => exact bides_of_proceeds h hworker hlocks hex
  | true =>
    have hphase : s.reconnectLock.phase w = .outside := by
      rw [phase_reconnectLock hworker, lockPhase_of_locks hlocks, hstage]
    have hlock := lock_of_left h hworker hlocks (hex.holder_ne (by rw [hphase]; simp))
    rw [← hphase, Function.update_eq_self] at hlock
    exact ⟨hlock, placed_of_proceeds h⟩

theorem passes_reconnectFrom (hworker : s.workers w = some worker)
    (hlocks : worker.purpose.locks = true) (hstage : worker.stage.lockPhase = .outside) : s.Passes (s.reconnectFrom w) := by
  have hphase : s.reconnectLock.phase w = .outside := by
    rw [phase_reconnectLock hworker, lockPhase_of_locks hlocks, hstage]
  unfold Session.reconnectFrom
  split
  · rename_i hfree
    have h := proceeds_reconnectLocked { s with lock := some w } w
    rcases lock_of_locked h hworker hlocks rfl with hstays | hleaves
    · refine passes_of_step (.acquire w) (fun hplaced => placed_of_proceeds h hplaced) ?_
      rw [hstays]
      change (if _ then _ else _) = some (FifoLock.mk (some w) s.lockLine _)
      rw [if_pos ⟨hphase, hfree⟩, hfree.2]
      rfl
    · refine Session.Bides.passes ⟨hleaves.trans (FifoLock.ext hfree.1.symm rfl ?_),
        fun hplaced => placed_of_proceeds h hplaced⟩
      change Function.update s.reconnectLock.phase w .outside = s.reconnectLock.phase
      rw [← hphase, Function.update_eq_self]
  · rename_i hfree
    rw [workers_setStage (s := { s with lockLine := s.lockLine ++ [w] }) hworker]
    refine passes_of_step (.wait w) (fun hplaced v found hfound => ?_) ?_
    · by_cases heq : v = w
      · subst heq
        cases (if_pos rfl).symm.trans hfound
        exact hlocks
      · exact hplaced v found ((if_neg heq).symm.trans hfound)
    · refine (if_pos ⟨hphase, hfree⟩).trans (congrArg some (FifoLock.ext rfl rfl ?_))
      funext v
      change Function.update s.reconnectLock.phase w .waiting v =
        ((if v = w then some { worker with stage := .locking } else s.workers v).map Worker.lockPhase).getD .outside
      rw [Function.update_apply]
      split
      · exact (if_pos hlocks).symm
      · rfl

theorem passes_nextAttempt (hworker : s.workers w = some worker)
    (hsleeping : worker.stage = .sleeping) (hlocks : worker.purpose.locks = true) : s.Passes (s.nextAttempt w) := by
  have hnext {purpose : Purpose} (hpurpose : purpose.locks = true) :
      s.Passes ((s.setWorker w ⟨purpose, .sleeping⟩).reconnectFrom w) := by
    have hbides : s.Bides (s.setWorker w ⟨purpose, .sleeping⟩) := by
      refine ⟨FifoLock.ext rfl rfl ?_, fun hplaced v found hfound => ?_⟩
      · funext v
        by_cases heq : v = w
        · subst heq
          rw [phase_reconnectLock hworker, lockPhase_of_locks hlocks, hsleeping]
          change ((if v = v then some (Worker.mk purpose .sleeping) else s.workers v).map Worker.lockPhase).getD .outside = _
          rw [if_pos rfl]
          exact if_pos hpurpose
        · change ((if v = w then some (Worker.mk purpose .sleeping) else s.workers v).map Worker.lockPhase).getD .outside = _
          rw [if_neg heq]
          rfl
      · by_cases heq : v = w
        · subst heq
          cases (if_pos rfl).symm.trans hfound
          exact hpurpose
        · exact hplaced v found ((if_neg heq).symm.trans hfound)
    exact hbides.then (passes_reconnectFrom (if_pos rfl) hpurpose rfl)
  unfold Session.nextAttempt
  split
  · exact hnext rfl
  · exact hnext rfl
  · exact Session.Bides.passes (.of_same rfl rfl rfl)

theorem proceeds_workerResumed (s : Session) (w : WorkerId) (epoch : Nat) (outcome : Except Exc (Option Text))
    (hawaits : ∃ worker id, s.workers w = some worker ∧ worker.stage.awaits = some id) :
    s.Proceeds true w (s.workerResumed w epoch outcome) := by
  obtain ⟨worker, id, hworker, hid⟩ := hawaits
  unfold Session.workerResumed
  split
  · exact proceeds_closed s w outcome
  · exact proceeds_openingEnded s w _ outcome
  · exact proceeds_republished s w epoch _ _ _ outcome
  · rename_i hclosing hopening hrepublishing
    rw [hworker] at hclosing hopening hrepublishing
    cases hstage : worker.stage with
    | closingConn call => exact absurd (congrArg some hstage) (hclosing call)
    | opening call step => exact absurd (congrArg some hstage) (hopening call step)
    | republishing call rid envelope rest => exact absurd (congrArg some hstage) (hrepublishing call rid envelope rest)
    | _ =>
      rw [hstage] at hid
      cases hid

theorem passes_runWorker (hex : s.reconnectLock.Exclusive) (hplaced : s.Placed) (hrun : s.runWorker w = some s') :
    s.Passes s' := by
  have hstage {stage : Stage} (hsome : (s.workers w).map Worker.stage = some stage) :
      ∃ worker, s.workers w = some worker ∧ worker.stage = stage := Option.map_eq_some_iff.mp hsome
  have hcleared : s.Bides (s.setCancelled (.worker w) false) := .of_same rfl rfl rfl
  have hlocks {worker : Worker} (hworker : s.workers w = some worker)
      (hearly : worker.stage = .created ∨ worker.stage = .locking ∨ worker.stage = .sleeping) :
      worker.purpose.locks = true := by
    have hfound := hplaced w worker hworker
    rcases hearly with hat | hat | hat <;> (rw [Worker.placed, hat] at hfound; exact hfound)
  unfold Session.runWorker at hrun
  dsimp only at hrun
  split at hrun
  · obtain ⟨worker, hworker, hcreated⟩ := hstage ‹_›
    cases hrun
    split
    · exact (hcleared.trans (bides_raised (s := s.setCancelled (.worker w) false) hex hworker (by rw [hcreated]; rfl) _)).passes
    · exact passes_reconnectFrom hworker (hlocks hworker (.inl hcreated)) (by rw [hcreated]; rfl)
  · obtain ⟨worker, hworker, hsleeping⟩ := hstage ‹_›
    cases hrun
    split
    · exact (hcleared.trans (bides_raised (s := s.setCancelled (.worker w) false) hex hworker (by rw [hsleeping]; rfl) _)).passes
    · exact passes_nextAttempt hworker hsleeping (hlocks hworker (.inr (.inr hsleeping)))
  · obtain ⟨worker, hworker, hlocking⟩ := hstage ‹_›
    have hlocks := hlocks hworker (.inr (.inl hlocking))
    have hphase : s.reconnectLock.phase w = .waiting := by
      rw [phase_reconnectLock hworker, lockPhase_of_locks hlocks, hlocking]
      rfl
    split at hrun
    · cases hrun
      have h := proceeds_raised { s.setCancelled (.worker w) false with lockLine := s.lockLine.filter (· ≠ w) } w .cancelledError
      refine passes_of_step (.giveUp w) (fun hplaced => placed_of_proceeds h hplaced) ?_
      rw [lock_of_left h hworker hlocks (hex.holder_ne (by rw [hphase]; simp))]
      exact if_pos hphase
    · obtain ⟨hfree, ⟨⟩⟩ := Option.ite_none_right_eq_some.mp hrun
      have h := proceeds_reconnectLocked { s with lock := some w, lockLine := s.lockLine.tail } w
      have henter : s.reconnectLock.step (.enter w) =
          some ⟨some w, s.lockLine.tail, Function.update s.reconnectLock.phase w .inside⟩ := if_pos hfree
      have hplaced (hbefore : s.Placed) := placed_of_proceeds h hbefore
      rcases lock_of_locked h hworker hlocks rfl with hstays | hleaves
      · exact passes_of_step (.enter w) hplaced (by rw [hstays]; exact henter)
      · refine ⟨.inr (.inr ⟨w, _, henter, ?_⟩), hplaced⟩
        rw [hleaves]
        have hinside : Function.update s.reconnectLock.phase w LockPhase.inside w = .inside := Function.update_self ..
        refine (if_pos hinside).trans (congrArg some (FifoLock.ext rfl rfl ?_))
        exact Function.update_idem ..
  · obtain ⟨worker, hworker, hawaiting⟩ := hstage ‹_›
    obtain ⟨-, ⟨⟩⟩ := Option.ite_none_right_eq_some.mp hrun
    have hfree : worker.purpose.locks = false := by
      have hfound := hplaced w worker hworker
      rw [Worker.placed, hawaiting] at hfound
      exact (Bool.not_eq_true' _).mp hfound
    refine passes_inside hex hworker (fun hlocks => ?_)
      ((proceeds_stopReply { s with autoTask := none } w).after rfl rfl rfl)
    rw [hfree] at hlocks
    cases hlocks
  · obtain ⟨worker, hworker, hstopping⟩ := hstage ‹_›
    obtain ⟨-, ⟨⟩⟩ := Option.ite_none_right_eq_some.mp hrun
    exact passes_inside hex hworker (fun _ => by rw [hstopping]; rfl) (proceeds_replyStopped s w)
  · cases hrun

/-- A task that has been created has not come to the lock. -/
theorem bides_created (hs : s.Staffed) {purpose : Purpose}
    (hworkers : s'.workers = (s.setWorker s.nextWorker ⟨purpose, .created⟩).workers) (hlock : s'.lock = s.lock)
    (hline : s'.lockLine = s.lockLine) : s'.reconnectLock = s.reconnectLock := by
  refine FifoLock.ext hlock hline ?_
  funext v
  change ((s'.workers v).map Worker.lockPhase).getD .outside = ((s.workers v).map Worker.lockPhase).getD .outside
  rw [hworkers]
  by_cases heq : v = s.nextWorker
  · subst heq
    change ((if s.nextWorker = s.nextWorker then some (Worker.mk purpose .created) else _).map _).getD _ = _
    rw [if_pos rfl, hs.workers _ le_rfl]
    exact ite_self _
  · change ((if v = s.nextWorker then some (Worker.mk purpose .created) else _).map _).getD _ = _
    rw [if_neg heq]

theorem placed_created (hplaced : s.Placed) {purpose : Purpose} (hlocks : purpose.locks = true)
    (hworkers : s'.workers = (s.setWorker s.nextWorker ⟨purpose, .created⟩).workers) : s'.Placed := by
  intro v found hfound
  rw [hworkers] at hfound
  by_cases heq : v = s.nextWorker
  · cases (if_pos heq).symm.trans hfound
    exact hlocks
  · exact hplaced v found ((if_neg heq).symm.trans hfound)

theorem bides_onConnectionLost (hs : s.Staffed) (exc : Exc) : s.Bides (s.onConnectionLost exc) := by
  unfold Session.onConnectionLost
  split
  · exact .of_same rfl rfl rfl
  · extract_lets t
    split
    · exact .of_same rfl rfl rfl
    · split
      · exact .of_same rfl rfl rfl
      · exact ⟨bides_created hs rfl rfl rfl, fun hplaced => placed_created hplaced rfl rfl⟩

theorem bides_loopRaised (hs : s.Staffed) (l : LoopId) (exc : Exc) : s.Bides (s.loopRaised l exc) := by
  unfold Session.loopRaised
  split
  · exact .of_same rfl rfl rfl
  · exact (bides_onConnectionLost hs _).trans (.of_same rfl rfl rfl)
  · exact .of_same rfl rfl rfl

theorem bides_onReply (hs : s.Staffed) (l : LoopId) (msg : IncomingMessage) : s.Bides (s.onReply l msg) := by
  unfold Session.onReply
  extract_lets t id t'
  have ht : t'.workers = s.workers ∧ t'.lock = s.lock ∧ t'.lockLine = s.lockLine ∧ t'.loops = s.loops ∧
      t'.nextWorker = s.nextWorker ∧ t'.nextLoop = s.nextLoop ∧ t'.autoTask = s.autoTask := by
    dsimp only [t', t, Session.call]
    split <;> exact ⟨rfl, rfl, rfl, rfl, rfl, rfl, rfl⟩
  obtain ⟨hworkers, hlock, hline, hloops, hnextWorker, hnextLoop, hauto⟩ := ht
  have hstaffed : t'.Staffed := (Staffs.of_same hworkers hnextWorker hauto hloops hnextLoop).staffed hs
  have hsame : s.Bides t' := .of_same hworkers hlock hline
  split
  · exact hsame.trans (bides_loopRaised hstaffed l _)
  · exact hsame.trans (.of_same rfl rfl rfl)

theorem bides_receiveNext (hs : s.Staffed) (l : LoopId) : s.Bides (s.receiveNext l) := by
  unfold Session.receiveNext
  extract_lets id taken t
  have hstaffed : t.Staffed := ⟨hs.workers, hs.loops, hs.auto⟩
  have hsame : s.Bides t := .of_same rfl rfl rfl
  split
  · exact hsame.trans (bides_onReply hstaffed l _)
  · exact hsame.trans (bides_loopRaised hstaffed l _)
  · exact hsame.trans (.of_same rfl rfl rfl)

theorem bides_loopResumed (hs : s.Staffed) (l : LoopId) (outcome : Except Exc (Option Text))
    (taken : Option IncomingMessage) : s.Bides (s.loopResumed l outcome taken) := by
  unfold Session.loopResumed
  split
  · exact bides_onReply hs l _
  · exact bides_receiveNext hs l
  · exact bides_loopRaised hs l _
  · exact bides_loopRaised hs l _
  · exact .of_same rfl rfl rfl

theorem passes_resume (hex : s.reconnectLock.Exclusive) (hs : s.Staffed) (epoch : Nat) (id : CallId)
    (outcome : Except Exc (Option Text)) (taken : Option IncomingMessage) : s.Passes (s.resume epoch id outcome taken) := by
  unfold Session.resume
  split
  · exact (Session.Bides.of_crew (leaves_publishEnded s _ epoch outcome).crew).passes
  · exact (bides_loopResumed hs _ outcome taken).passes
  · rename_i w howner
    obtain ⟨-, hawaits⟩ := Option.filter_eq_some_iff.mp howner
    obtain ⟨worker, hworker, hid⟩ := Option.bind_eq_some_iff.mp (of_decide_eq_true hawaits)
    refine passes_inside hex hworker (fun _ => ?_) (proceeds_workerResumed s w epoch outcome ⟨worker, id, hworker, hid⟩)
    cases hstage : worker.stage with
    | closingConn | opening | republishing => rfl
    | _ =>
      rw [hstage] at hid
      cases hid
  · exact Session.Bides.passes (.of_same rfl rfl rfl)

theorem staffed_setLink (hs : s.Staffed) (epoch : Nat) (link : Link) : (s.setLink epoch link).Staffed := by
  refine Staffs.staffed ?_ hs
  unfold Session.setLink
  split <;> exact .of_same rfl rfl rfl rfl rfl

/-- The session hears of a step of a connection. -/
theorem bides_heard (hs : s.Staffed) (epoch : Nat) (link : Link) (c' : Client) :
    s.Bides ((s.setLink epoch { link with client := c' }).heard link.wired link.client c') := by
  have hset : s.Bides (s.setLink epoch { link with client := c' }) := by
    unfold Session.setLink
    split <;> exact .of_same rfl rfl rfl
  refine hset.trans ?_
  unfold Session.heard
  split
  · split
    · exact bides_onConnectionLost (staffed_setLink hs epoch _) _
    · exact .of_same rfl rfl rfl
  · exact .of_same rfl rfl rfl

theorem passes_moved (hex : s.reconnectLock.Exclusive) (hs : s.Staffed) (epoch : Nat) (link : Link) (c' : Client)
    (call : Option CallId) (taken : Option IncomingMessage) : s.Passes (s.moved epoch link c' call taken) := by
  have hstaffed : (s.setLink epoch { link with client := c' }).Staffed := staffed_setLink hs epoch _
  have hheard := bides_heard hs epoch link c'
  unfold Session.moved
  extract_lets t
  split
  · exact hheard.passes
  · split
    · exact hheard.then (passes_resume (hheard.lock ▸ hex) ((staffs_heard _ _ _ _).staffed hstaffed) epoch _ _ taken)
    · exact hheard.passes

/-- A task calls a coroutine that does not take the lock. -/
theorem passes_unlocked (hex : s.reconnectLock.Exclusive) (hs : s.Staffed) (purpose : Purpose) (hlocks : purpose.locks = false)
    (h : (s.newWorker purpose).Proceeds true s.nextWorker s') : s.Passes s' := by
  have hsame : (s.newWorker purpose).reconnectLock = s.reconnectLock := bides_created hs rfl rfl rfl
  have hbides := bides_of_proceeds h (if_pos rfl) hlocks (hsame ▸ hex)
  refine Session.Bides.passes ⟨hbides.lock.trans hsame, fun hplaced v found hfound => ?_⟩
  by_cases heq : v = s.nextWorker
  · subst heq
    exact (h.ends found hfound).1
  · rw [h.others v heq] at hfound
    exact hplaced v found ((if_neg heq).symm.trans hfound)

theorem passes_close (hex : s.reconnectLock.Exclusive) (hs : s.Staffed) : s.Passes s.close := by
  have hstopped : s.Bides ({ s with started := false }.discardAll .osError) := .of_same rfl rfl rfl
  have hstaffed : ({ s with started := false }.discardAll .osError).Staffed := ⟨hs.workers, hs.loops, hs.auto⟩
  unfold Session.close
  extract_lets w t
  have hwaits (auto : WorkerId) : t.Proceeds true w ((t.cancelWorker auto).setStage w (.awaitingAuto auto)) := by
    have hsame : (t.cancelWorker auto).workers = t.workers ∧ (t.cancelWorker auto).lock = t.lock ∧
        (t.cancelWorker auto).lockLine = t.lockLine := by
      unfold Session.cancelWorker
      split <;> exact ⟨rfl, rfl, rfl⟩
    refine proceeds_setStage hsame.1 hsame.2.2 fun worker hworker => ?_
    obtain rfl : ⟨.close, .created⟩ = worker := Option.some.inj ((if_pos rfl).symm.trans hworker)
    exact ⟨rfl, .inr ⟨rfl, .inr ⟨rfl, hsame.2.1⟩⟩⟩
  split
  · split
    · exact hstopped.then (passes_unlocked (hstopped.lock ▸ hex) hstaffed _ rfl (proceeds_stopReply t w))
    · exact hstopped.then (passes_unlocked (hstopped.lock ▸ hex) hstaffed _ rfl (hwaits _))
  · exact hstopped.then (passes_unlocked (hstopped.lock ▸ hex) hstaffed _ rfl (proceeds_stopReply t w))

theorem passes_called (hs : s.Staffed) {purpose : Purpose} (hlocks : purpose.locks = true) :
    s.Passes ((s.newWorker purpose).reconnectFrom s.nextWorker) := by
  have hcalled : s.Bides (s.newWorker purpose) :=
    ⟨bides_created hs rfl rfl rfl, fun hplaced => placed_created hplaced hlocks rfl⟩
  exact hcalled.then (passes_reconnectFrom (if_pos rfl) hlocks rfl)

/-- The step lemma: what a step does to the lock the lock can do in steps of its own. -/
theorem passes_step (hex : s.reconnectLock.Exclusive) (hplaced : s.Placed) (hs : s.Staffed) (hstep : s.step e = some s') :
    s.Passes s' := by
  have hmoved {m : Move} (hmove : s.move e = some m) : s.Passes s' := by
    obtain ⟨t, ht, rfl⟩ := step_of_move hstep hmove
    rcases ht with rfl | ⟨owner, rfl⟩
    · exact passes_moved hex hs m.epoch m.link m.after m.call _
    · have hcleared : s.Bides (s.setCancelled owner false) := .of_same rfl rfl rfl
      exact hcleared.then (passes_moved (s := s.setCancelled owner false) hex ⟨hs.workers, hs.loops, hs.auto⟩ m.epoch m.link m.after m.call _)
  cases e with
  | start =>
    cases hstep
    exact passes_unlocked hex hs .start rfl (proceeds_startConn _ _)
  | reconnect =>
    cases hstep
    exact passes_called hs rfl
  | coordinate policy =>
    cases hstep
    exact passes_called hs rfl
  | close =>
    cases hstep
    exact passes_close hex hs
  | request args generated =>
    obtain ⟨-, ⟨⟩⟩ := Option.ite_none_left_eq_some.mp hstep
    exact (Session.Bides.of_crew (leaves_request s args generated).crew).passes
  | operate op =>
    cases hstep
    exact Session.Bides.passes (.of_same rfl rfl rfl)
  | conn epoch e =>
    obtain ⟨m, hmove⟩ := move_of_step hstep
    exact hmoved hmove
  | interrupt epoch id =>
    obtain ⟨m, hmove⟩ := move_of_interrupt hstep
    exact hmoved hmove
  | runWorker w => exact passes_runWorker hex hplaced hstep
  | runLoop l =>
    have hrun : s.runLoop l = some s' := hstep
    unfold Session.runLoop at hrun
    split at hrun
    · cases hrun
      split
      · have hcleared : s.Bides (s.setCancelled (.loop l) false) := .of_same rfl rfl rfl
        exact (hcleared.trans (bides_loopRaised (s := s.setCancelled (.loop l) false) ⟨hs.workers, hs.loops, hs.auto⟩ l _)).passes
      · exact (bides_receiveNext hs l).passes
    · cases hrun
  | wakeRequest r =>
    have hwake : s.wakeRequest r = some s' := hstep
    unfold Session.wakeRequest at hwake
    split at hwake
    · obtain ⟨outcome, -, rfl⟩ := Option.map_eq_some_iff.mp hwake
      exact (Session.Bides.of_crew (leaves_replied s r _ outcome).crew).passes
    · cases hwake
  | expireRequest r =>
    have hexpire : s.expireRequest r = some s' := hstep
    unfold Session.expireRequest at hexpire
    split at hexpire
    · obtain ⟨-, ⟨⟩⟩ := Option.ite_none_left_eq_some.mp hexpire
      exact Session.Bides.passes (.of_same rfl rfl rfl)
    · cases hexpire
  | cancelRequest r =>
    have hcancel : s.cancelRequest r = some s' := hstep
    unfold Session.cancelRequest at hcancel
    split at hcancel
    · cases hcancel
      exact Session.Bides.passes (.of_same rfl rfl rfl)
    · cases hcancel
      exact Session.Bides.passes (.of_same rfl rfl rfl)
    · cases hcancel

theorem ranked_new (settings : Settings) : (Session.new settings).Ranked where
  exclusive := FifoLock.exclusive_new
  placed _ _ hworker := by cases hworker
  staffed := staffed_new settings

theorem ranked_step (h : s.Ranked) (hstep : s.step e = some s') : s'.Ranked := by
  obtain ⟨hlock, hplaced⟩ := passes_step h.exclusive h.placed h.staffed hstep
  refine ⟨?_, hplaced h.placed, (staffs_step hstep).staffed h.staffed⟩
  rcases hlock with hsame | ⟨event, hevent⟩ | ⟨w, lock, henter, hrelease⟩
  · exact hsame ▸ h.exclusive
  · exact FifoLock.exclusive_step h.exclusive hevent
  · exact FifoLock.exclusive_step (FifoLock.exclusive_step h.exclusive henter) hrelease

theorem ranked_heardIn (h : s.Ranked) : (s.heardIn e).Ranked := by
  unfold Session.heardIn
  split
  · rename_i m _
    have hheard := bides_heard h.staffed m.epoch m.link m.after
    exact ⟨hheard.lock ▸ h.exclusive, hheard.placed h.placed, (staffs_heard _ _ _ _).staffed (staffed_setLink h.staffed _ _)⟩
  · exact h

theorem ranked_reaches {settings : Settings} (h : Reaches Session.step (Session.new settings) s) : s.Ranked :=
  h.invariant (ranked_new settings) fun _ _ _ hinv _ hstep => ranked_step hinv hstep

end Steps

/-- A step leaves a waiting reconnect ahead of those that have come later. -/
theorem behind_of_step {s s' : Session} {e : SessionEvent} {v w : WorkerId} (h : s.Ranked) (hstep : s.step e = some s')
    (hbehind : s.reconnectLock.Behind v w) (hwaits : s.reconnectLock.phase v = .waiting)
    (hwaits' : s'.reconnectLock.phase v = .waiting) : s'.reconnectLock.Behind v w := by
  rcases (passes_step h.exclusive h.placed h.staffed hstep).lock with hsame | ⟨event, hevent⟩ | ⟨x, lock, henter, hrelease⟩
  · exact hsame ▸ hbehind
  · exact FifoLock.behind_step h.exclusive hbehind hwaits hevent hwaits'
  · have hex := FifoLock.exclusive_step h.exclusive henter
    have hmid : lock.phase v = .waiting := by
      obtain ⟨-, hsome⟩ := Option.ite_none_right_eq_some.mp hrelease
      have hlock := Option.some.inj hsome
      have hafter := hwaits'
      rw [← hlock] at hafter
      have hv : v ≠ x := by
        rintro rfl
        have hself : Function.update lock.phase v LockPhase.outside v = .waiting := hafter
        rw [Function.update_self] at hself
        cases hself
      exact (FifoLock.phase_of_update hv).symm.trans hafter
    exact FifoLock.behind_step hex (FifoLock.behind_step h.exclusive hbehind hwaits henter hmid) hmid hrelease hwaits'

/-- As long as a reconnect waits for the lock, none that has come later gets it. -/
theorem reconnects_inTurn (settings : Settings) {s s' : Session} {v w : WorkerId}
    (h : Reaches Session.step (Session.new settings) s) (hwaits : s.reconnectLock.phase v = .waiting)
    (hbehind : s.reconnectLock.Behind v w)
    (hrun : ReachesWhere Session.step (fun t e => ∀ t', t.step e = some t' → t'.reconnectLock.phase v = .waiting) s s') :
    s'.reconnectLock.Behind v w := by
  have hinv : s'.Ranked ∧ s'.reconnectLock.phase v = .waiting ∧ s'.reconnectLock.Behind v w := by
    induction hrun with
    | refl => exact ⟨ranked_reaches h, hwaits, hbehind⟩
    | tail _ hlast ih =>
      obtain ⟨hranked, hbefore, hinv⟩ := ih
      obtain ⟨e, hstays, hstep⟩ := hlast
      have hafter := hstays _ hstep
      exact ⟨ranked_step hranked hstep, hafter, behind_of_step hranked hstep hinv hbefore hafter⟩
  exact hinv.2.2

/-- The reconnect that has come later waits behind the other. -/
theorem later_behind : ∃ s s', run Session.step (Session.new (settingsWith {})) [.reconnect, .reconnect] = some s ∧
    run Session.step s [.reconnect] = some s' ∧ s.reconnectLock.phase 2 = .outside ∧ s'.reconnectLock.phase 2 = .waiting ∧
      s'.reconnectLock.Behind 1 2 := by
  have hrun : (run Session.step (Session.new (settingsWith {})) [.reconnect, .reconnect]).any (fun s =>
      s.reconnectLock.phase 1 = .waiting ∧ s.reconnectLock.phase 2 = .outside ∧
        (s.step .reconnect).any (fun s' => s'.reconnectLock.phase 1 = .waiting ∧ s'.reconnectLock.phase 2 = .waiting) =
          true) = true := rfl
  obtain ⟨s, hs, hstate⟩ := (Option.any_eq_true _ _).mp hrun
  obtain ⟨hwaits, hout, hany⟩ := of_decide_eq_true hstate
  obtain ⟨s', hs', hstate'⟩ := (Option.any_eq_true _ _).mp hany
  obtain ⟨hwaits', hlater⟩ := of_decide_eq_true hstate'
  have hbehind : s.reconnectLock.Behind 1 2 := ⟨by rw [hout]; simp, fun hwaiting => by rw [hout] at hwaiting; cases hwaiting⟩
  refine ⟨s, s', hs, by rw [run, hs']; rfl, hout, hlater, ?_⟩
  refine reconnects_inTurn (settingsWith {}) (reaches_of_run hs (admits_true ..)) hwaits hbehind
    ((ReachesWhere.refl s).snoc (fun t ht => ?_) hs')
  cases hs'.symm.trans ht
  exact hwaits'

end Nuropb.Sessions
