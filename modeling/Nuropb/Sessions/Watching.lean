import Nuropb.Sessions.Lock
import Nuropb.Sessions.ParkMode
import Nuropb.Sessions.Quiet

/-! # Who watches a lost connection

A loss that the session hears of creates the auto-reconnect task, unless one is there that has not ended. The task
goes on until the session is open again, or it fails what is outstanding; a reconnect that has yet to renew the
connection goes on until it does.
-/
namespace Nuropb.Sessions

open Library Transport

/-- The awaits of a reconnect or a `start` at which the session is not started. -/
def Stage.shut : Stage → Bool
  | .stoppingReply _ | .closingConn _ | .opening .. => true
  | _ => false

def Stage.opens : Stage → Bool
  | .opening .. => true
  | _ => false

/-- The await that only `close` has. -/
def Stage.closes : Stage → Bool
  | .awaitingAuto _ => true
  | _ => false

/-- The awaits of a reconnect that has yet to renew the connection. -/
def Stage.renews : Stage → Bool
  | .created | .locking | .stoppingReply _ | .closingConn _ | .sleeping => true
  | _ => false

namespace Session

/-- The loop goes on with the current connection: none of the earlier ones has the call that it awaits. -/
def RunsOn (s : Session) (l : LoopId) : Prop :=
  match s.loops l with
  | some .created => True
  | some (.receiving id) | some (.acking id) => ∀ link ∈ s.previous, link.client.fresh id = true
  | _ => False

/-- No request is pending. -/
def Vacant (s : Session) : Prop := ∀ rid, s.correlation.pending.get? rid = none

/-- A reconnect that has yet to renew the connection. -/
def Renews (s : Session) (w : WorkerId) : Prop :=
  ∃ worker, s.workers w = some worker ∧ worker.purpose.locks = true ∧ worker.stage.renews = true

/-- The auto-reconnect task or, where the callers count, a reconnect that has yet to renew the connection. -/
def OnDuty (callers : Bool) (s : Session) (w : WorkerId) : Prop := s.autoTask = some w ∨ callers = true ∧ s.Renews w

/-- Another one is on duty. -/
def Relieved (callers : Bool) (s : Session) (w : WorkerId) : Prop :=
  ∃ v, v ≠ w ∧ s.OnDuty callers v ∧ s.workerEnded v = false

/-- The worker is cancelled, or what is left to it is refused or no longer wanted. -/
def finishes (s : Session) (w : WorkerId) (outcome : Except Exc (Option Text)) : Prop :=
  outcome = .error .cancelledError ∨ ∃ m, s.remainder w outcome = some m ∧
    ∀ entry ∈ m.left, s.correlation.contains entry.1 = true → entry.1 ∈ s.refusals w outcome

/-- The worker returns in the step, or its cancellation ends it. -/
inductive Finishes (s : Session) (e : SessionEvent) (w : WorkerId) : Prop
  | unrun (he : e = .runWorker w) (hcancelled : s.cancelled (.worker w) = true)
  | resumed {epoch : Nat} {id : CallId} {outcome : Except Exc (Option Text)}
      (hends : s.callEnds e = some (epoch, id, outcome)) (howner : s.owners id = some (.worker w))
      (hawaits : s.awaits (.worker w) = some id) (h : (s.heardIn e).finishes w outcome)

/-- The session is not closed, and started only while it is not; no call of `start` consumes the queue next to
another one or to a reconnect, and nothing does once a loss has taken the connection it declared the queue on; none on
duty finishes while a loss has been heard, unless another one is or that refuses all that is pending; and while
the queue is open the call that a reply loop awaits raises only a loss, a reply is taken only while it can be acked,
and no reply loop is cancelled before it runs. -/
structure KeepsWatch (callers : Bool) (s : Session) (e : SessionEvent) : Prop where
  unclosed : e ≠ .close
  started : e = .start → s.started = false ∧ s.link.client.conn.lost = none
  consumed : ∀ w worker call epoch id result, s.callEnds e = some (epoch, id, .ok result) →
    s.owners id = some (.worker w) → s.workers w = some worker → worker.stage = .opening call .consuming →
      ((s.heardIn e).lossHandled = false ∨ (s.heardIn e).replyQueue = none) ∧
        ∀ v other, v ≠ w → s.workers v = some other →
          other.stage.shut = false ∨ worker.purpose.locks = true ∧ other.purpose.locks = true
  finished : ∀ w, (s.heardIn e).OnDuty callers w → s.Finishes e w → (s.heardIn e).lossHandled = false ∨
    (∀ rid r, (s.heardIn e).correlation.pending.get? rid = some r → rid ∈ s.refused e) ∨ (s.heardIn e).Relieved callers w
  looped : (s.heardIn e).replyQueueOpen = true → ∀ l exc, s.LoopRaises e l exc → ∃ reason, exc = .connectionLost reason
  acked : (s.heardIn e).replyQueueOpen = true → ∀ msg, s.reply e = some msg → s.Live
  uncancelled : (s.heardIn e).replyQueueOpen = true → ∀ l, e = .runLoop l → s.cancelled (.loop l) = false

end Session

/-- The state that a wake-up depends on. -/
structure Watch where
  lost : Option Exc
  wired : Bool
  previous : List Link
  lossHandled : Bool
  opened : Bool
  started : Bool
  replyTask : Option LoopId
  loops : LoopId → Option LoopStage
  autoTask : Option WorkerId
  workers : WorkerId → Option Worker

namespace Session

def watch (s : Session) : Watch where
  lost := s.link.client.conn.lost
  wired := s.link.wired
  previous := s.previous
  lossHandled := s.lossHandled
  opened := s.replyQueueOpen
  started := s.started
  replyTask := s.replyTask
  loops := s.loops
  autoTask := s.autoTask
  workers := s.workers

/-- What holds while a worker waits at the stage. -/
structure Permits (s : Session) (stage : Stage) : Prop where
  shut : stage.shut = true → s.started = false
  opens : stage.opens = true → s.link.wired = true
  closes : stage.closes = false

/-- A loss that has been heard closes the queue and leaves one on duty, unless nothing is pending; an open queue has
its reply loop. The worker that runs, if any, counts as one that has not ended. -/
structure Wakeful (callers : Bool) (x : Option WorkerId) (s : Session) : Prop where
  handled : s.link.wired = true → s.link.client.conn.lost ≠ none → s.lossHandled = true
  closed : s.lossHandled = true → s.replyQueueOpen = false
  waked : s.lossHandled = true → s.Vacant ∨ ∃ v, s.OnDuty callers v ∧ (x = some v ∨ s.workerEnded v = false)
  auto : ∀ w, s.autoTask = some w → ∃ attempt stage, s.workers w = some ⟨.auto attempt, stage⟩
  looping : s.replyQueueOpen = true → ∃ l, s.replyTask = some l ∧ s.RunsOn l
  unwired : s.link.wired = false → s.Vacant ∧ s.replyQueueOpen = false
  staged : ∀ w worker, x ≠ some w → s.workers w = some worker → s.Permits worker.stage

/-- The worker may end: no loss has been heard, nothing is pending, or another one is on duty. -/
def MayStop (callers : Bool) (s : Session) (w : WorkerId) : Prop :=
  s.lossHandled = false ∨ s.Vacant ∨ s.Relieved callers w

/-- If the worker is on duty and finishes with the outcome, no loss has been heard, all that is pending is refused, or
another one is on duty. -/
def MayFinish (callers : Bool) (s : Session) (w : WorkerId) (outcome : Except Exc (Option Text)) : Prop :=
  s.OnDuty callers w → s.finishes w outcome → s.lossHandled = false ∨
    (∀ rid r, s.correlation.pending.get? rid = some r → rid ∈ s.refusals w outcome) ∨ s.Relieved callers w

/-- If the worker is on duty and all of the ids are refused or no longer wanted, so that it returns, no loss has been
heard, they are all that is pending, or another one is on duty. -/
def MayEnd (callers : Bool) (s : Session) (w : WorkerId) (rids : List Text) : Prop :=
  s.OnDuty callers w → (∀ rid ∈ rids, s.correlation.contains rid = true → s.Blocked) → s.lossHandled = false ∨
    (∀ rid r, s.correlation.pending.get? rid = some r → s.Blocked ∧ rid ∈ rids) ∨ s.Relieved callers w

end Session

/-! ## A worker runs -/

section Workers

variable {callers : Bool} {s s' : Session} {w : WorkerId} {x : Option WorkerId} {stage : Stage}

theorem Session.Permits.of_same (h : s.Permits stage) (hstarted : s.started = false → s'.started = false)
    (hwired : s.link.wired = true → s'.link.wired = true) : s'.Permits stage :=
  ⟨fun hshut => hstarted (h.shut hshut), fun hopens => hwired (h.opens hopens), h.closes⟩

theorem Session.RunsOn.of_same {l : LoopId} (h : s.RunsOn l) (hloop : s'.loops l = s.loops l)
    (hfresh : ∀ id, (∀ link ∈ s.previous, link.client.fresh id = true) →
      ∀ link ∈ s'.previous, link.client.fresh id = true) : s'.RunsOn l := by
  unfold Session.RunsOn at h ⊢
  rw [hloop]
  split at h
  · trivial
  · exact hfresh _ h
  · exact hfresh _ h
  · exact h.elim

theorem live_of_renews (h : stage.renews = true) (outcome : Except Exc Unit) : stage ≠ .ended outcome := by
  rintro rfl
  cases h

theorem other_of_renews {worker : Worker} (hworker : s.workers w = some worker) (hstage : worker.stage.renews = false) :
    ¬s.Renews w := by
  rintro ⟨found, hfound, -, hrenews⟩
  rw [hworker] at hfound
  cases hfound
  rw [hstage] at hrenews
  cases hrenews

theorem Session.OnDuty.of_same {v : WorkerId} (h : s.OnDuty callers v) (hauto : s'.autoTask = s.autoTask)
    (hworker : s'.workers v = s.workers v) : s'.OnDuty callers v := by
  refine h.imp hauto.trans (And.imp_right ?_)
  rintro ⟨worker, hfound, hrenews⟩
  exact ⟨worker, hworker.trans hfound, hrenews⟩

theorem workerEnded_of_same {v : WorkerId} (hworker : s'.workers v = s.workers v) : s'.workerEnded v = s.workerEnded v := by
  rw [Session.workerEnded, hworker]
  rfl

theorem Session.Wakeful.of_same (h : s.Wakeful callers x) (hwatch : s'.watch = s.watch)
    (hpending : s.replyQueueOpen = false → s.Vacant → s'.Vacant) : s'.Wakeful callers x := by
  have hlost : s'.link.client.conn.lost = s.link.client.conn.lost := congrArg Watch.lost hwatch
  have hwired : s'.link.wired = s.link.wired := congrArg Watch.wired hwatch
  have hhandled : s'.lossHandled = s.lossHandled := congrArg Watch.lossHandled hwatch
  have hopened : s'.replyQueueOpen = s.replyQueueOpen := congrArg Watch.opened hwatch
  have hauto : s'.autoTask = s.autoTask := congrArg Watch.autoTask hwatch
  have hworkers : s'.workers = s.workers := congrArg Watch.workers hwatch
  have htask : s'.replyTask = s.replyTask := congrArg Watch.replyTask hwatch
  have hstarted : s'.started = s.started := congrArg Watch.started hwatch
  have hloops : s'.loops = s.loops := congrArg Watch.loops hwatch
  have hprevious : s'.previous = s.previous := congrArg Watch.previous hwatch
  refine ⟨?_, ?_, fun hlossHandled => ?_, ?_, ?_, ?_, ?_⟩
  · rw [hwired, hlost, hhandled]
    exact h.handled
  · rw [hhandled, hopened]
    exact h.closed
  · rw [hhandled] at hlossHandled
    refine (h.waked hlossHandled).imp (hpending (h.closed hlossHandled)) ?_
    rintro ⟨v, hduty, hruns⟩
    have hworker : s'.workers v = s.workers v := congrFun hworkers v
    exact ⟨v, hduty.of_same hauto hworker, hruns.imp_right (workerEnded_of_same hworker).trans⟩
  · rw [hauto, hworkers]
    exact h.auto
  · rw [hopened, htask]
    intro hopen
    obtain ⟨l, hl, hruns⟩ := h.looping hopen
    exact ⟨l, hl, hruns.of_same (congrFun hloops l) fun _ hfresh => hprevious ▸ hfresh⟩
  · rw [hwired, hopened]
    exact fun hnot => (h.unwired hnot).imp_left (hpending (h.unwired hnot).2)
  · intro w worker hx hworker
    rw [hworkers] at hworker
    exact (h.staged w worker hx hworker).of_same hstarted.trans hwired.trans

theorem watch_call (s : Session) (owner : Option Owner) (op : Operation) : (s.call owner op).watch = s.watch := by
  have hlost : (s.call owner op).link.client.conn.lost = s.link.client.conn.lost := by
    change ((s.link.client.step (op.event s.nextCall)).getD s.link.client).conn.lost = _
    cases hstep : s.link.client.step (op.event s.nextCall) with
    | none => rfl
    | some after => exact lost_event hstep
  unfold Session.watch
  rw [hlost]
  rfl

theorem wakeful_call (h : s.Wakeful callers x) (owner : Option Owner) (op : Operation) :
    (s.call owner op).Wakeful callers x :=
  h.of_same (watch_call s owner op) fun _ hvacant => hvacant

theorem watch_release (s : Session) (w : WorkerId) : (s.release w).watch = s.watch := by
  unfold Session.release
  split <;> rfl

theorem wakeful_release (h : s.Wakeful callers x) (w : WorkerId) : (s.release w).Wakeful callers x := by
  refine h.of_same (watch_release s w) ?_
  unfold Session.release
  split <;> exact fun _ hvacant => hvacant

theorem vacant_discardAll (s : Session) (e : Exc) : (s.discardAll e).Vacant := fun _ => rfl

theorem vacant_erased (h : s.Vacant) (rid other : Text) : (s.correlation.pending.erase rid).get? other = none := by
  by_cases heq : rid = other
  · subst heq
    exact Dict.get?_erase_self ..
  · exact (Dict.get?_erase_of_ne _ heq).trans (h other)

theorem vacant_failPublish (h : s.Vacant) (rid : Text) (e : Exc) : (s.failPublish rid e).Vacant := vacant_erased h rid

theorem wakeful_failPublish (h : s.Wakeful callers x) (rid : Text) (e : Exc) : (s.failPublish rid e).Wakeful callers x :=
  h.of_same rfl fun _ hvacant => vacant_failPublish hvacant rid e

theorem wakeful_failOutstanding (h : s.Wakeful callers x) (message : Text) : (s.failOutstanding message).Wakeful callers x :=
  h.of_same rfl fun _ _ => vacant_discardAll s _

/-- The worker that runs changes: it stays on duty, if it is, or may stop. -/
theorem wakeful_workers {workers : WorkerId → Option Worker} {y : Option WorkerId} (h : s.Wakeful callers (some w))
    (hothers : ∀ v, v ≠ w → workers v = s.workers v)
    (hauto : s.autoTask = some w → ∃ attempt stage, workers w = some ⟨.auto attempt, stage⟩)
    (hstage : ∀ worker, y ≠ some w → workers w = some worker → s.Permits worker.stage)
    (hduty : s.OnDuty callers w → Session.OnDuty callers { s with workers } w ∧
      (y = some w ∨ Session.workerEnded { s with workers } w = false) ∨ s.MayStop callers w) :
    Session.Wakeful callers y { s with workers } := by
  have hwatches {v : WorkerId} (hv : v ≠ w) (hduty : s.OnDuty callers v) (hruns : s.workerEnded v = false) :
      ∃ v, Session.OnDuty callers { s with workers } v ∧ (y = some v ∨ Session.workerEnded { s with workers } v = false) :=
    ⟨v, hduty.of_same rfl (hothers v hv), .inr ((workerEnded_of_same (hothers v hv)).trans hruns)⟩
  refine ⟨h.handled, h.closed, fun hhandled => ?_, fun v htask => ?_, h.looping, h.unwired, fun v worker hy hworker => ?_⟩
  · rcases h.waked hhandled with hvacant | ⟨v, hon, hruns⟩
    · exact .inl hvacant
    · by_cases hv : v = w
      · subst hv
        rcases hduty hon with ⟨hstays, hlive⟩ | hunheard | hvacant | ⟨other, hne, hother, hruns⟩
        · exact .inr ⟨v, hstays, hlive⟩
        · rw [hunheard] at hhandled
          cases hhandled
        · exact .inl hvacant
        · exact .inr (hwatches hne hother hruns)
      · exact .inr (hwatches hv hon (hruns.resolve_left fun heq => hv (Option.some.inj heq).symm))
  · by_cases hv : v = w
    · subst hv
      exact hauto htask
    · obtain ⟨attempt, stage, hbefore⟩ := h.auto v htask
      exact ⟨attempt, stage, (hothers v hv).trans hbefore⟩
  · by_cases hv : v = w
    · subst hv
      exact (hstage worker hy hworker).of_same id id
    · have hx : some w ≠ some v := fun heq => hv (Option.some.inj heq).symm
      exact (h.staged v worker hx ((hothers v hv).symm.trans hworker)).of_same id id

theorem wakeful_setStage (h : s.Wakeful callers (some w)) (hstage : s.Permits stage)
    (hduty : s.OnDuty callers w → s.autoTask = some w ∧ (∀ outcome, stage ≠ .ended outcome) ∨ stage.renews = true ∨
      s.MayStop callers w) : (s.setStage w stage).Wakeful callers none := by
  have hpresent (hon : s.OnDuty callers w) : ∃ worker, s.workers w = some worker := by
    rcases hon with hauto | ⟨-, worker, hworker, -⟩
    · obtain ⟨attempt, before, hworker⟩ := h.auto w hauto
      exact ⟨_, hworker⟩
    · exact ⟨worker, hworker⟩
  cases hworker : s.workers w with
  | none =>
    rw [Session.setStage, hworker]
    have hnone (hon : s.OnDuty callers w) : False := by
      obtain ⟨worker, hsome⟩ := hpresent hon
      rw [hworker] at hsome
      cases hsome
    have hrest : Session.Wakeful callers none { s with workers := s.workers } := by
      refine wakeful_workers h (fun _ _ => rfl) (fun hauto => (hnone (.inl hauto)).elim) (fun worker _ hsome => ?_)
        fun hon => (hnone hon).elim
      rw [hworker] at hsome
      cases hsome
    exact hrest
  | some worker =>
    have hafter : (s.setWorker w { worker with stage }).workers w = some { worker with stage } := if_pos rfl
    rw [workers_setStage hworker]
    refine wakeful_workers h (fun v hv => if_neg hv) (fun hauto => ?_) (fun after _ hsome => ?_) fun hon => ?_
    · obtain ⟨attempt, before, hbefore⟩ := h.auto w hauto
      rw [hworker] at hbefore
      cases hbefore
      exact ⟨attempt, stage, hafter⟩
    · cases hafter.symm.trans hsome
      exact hstage
    · rcases hduty hon with ⟨hauto, hlive⟩ | hrenews | hstop
      · exact .inl ⟨.inl hauto, .inr (runs_of_live hafter hlive)⟩
      · refine .inl ⟨hon.imp_right (And.imp_right ?_), .inr (runs_of_live hafter (live_of_renews hrenews))⟩
        rintro ⟨found, hfound, hlocks, -⟩
        rw [hworker] at hfound
        cases hfound
        exact ⟨_, hafter, hlocks, hrenews⟩
      · exact .inr hstop

/-- The worker comes to its next await. -/
theorem wakeful_awaits (h : s.Wakeful callers (some w)) (hlive : ∀ outcome, stage ≠ .ended outcome) (hstage : s.Permits stage)
    (hrenews : s.Renews w → stage.renews = true ∨ s.lossHandled = false) : (s.setStage w stage).Wakeful callers none := by
  refine wakeful_setStage h hstage fun hon => ?_
  rcases hon with hauto | ⟨-, hbefore⟩
  · exact .inl ⟨hauto, hlive⟩
  · exact .inr ((hrenews hbefore).imp_right .inl)

theorem permits_of_outside (h : stage.shut = false) (hcloses : stage.closes = false) : s.Permits stage := by
  refine ⟨fun hshut => ?_, fun hopens => ?_, hcloses⟩
  · rw [h] at hshut
    cases hshut
  · cases stage with
    | opening => cases h
    | _ => cases hopens

theorem wakeful_ended (h : s.Wakeful callers (some w)) (outcome : Except Exc Unit)
    (hends : s.OnDuty callers w → s.MayStop callers w) : (s.setStage w (.ended outcome)).Wakeful callers none :=
  wakeful_setStage h (permits_of_outside rfl rfl) fun hon => .inr (.inr (hends hon))

theorem wakeful_returned (h : s.Wakeful callers (some w)) (hends : s.OnDuty callers w → s.MayStop callers w) :
    (s.returned w).Wakeful callers none := by
  refine wakeful_ended (wakeful_release h w) _ ?_
  unfold Session.release
  split <;> exact hends

theorem other_of_purpose (h : s.Wakeful callers x) {purpose : Purpose}
    (hpurpose : (s.workers w).map Worker.purpose = some purpose) (hne : ∀ attempt, purpose ≠ .auto attempt) :
    s.autoTask ≠ some w := by
  intro hauto
  obtain ⟨attempt, stage, hworker⟩ := h.auto w hauto
  rw [hworker] at hpurpose
  exact hne attempt (Option.some.inj hpurpose).symm

/-- `start` and `close` are not on duty. -/
theorem idle_of_purpose (h : s.Wakeful callers x) {purpose : Purpose}
    (hpurpose : (s.workers w).map Worker.purpose = some purpose) (hlocks : purpose.locks = false) : ¬s.OnDuty callers w := by
  have hnot {found : Purpose} (hfound : (s.workers w).map Worker.purpose = some found) : found.locks = false := by
    rw [hpurpose] at hfound
    cases hfound
    exact hlocks
  rintro (hauto | ⟨-, worker, hworker, hholds, -⟩)
  · obtain ⟨attempt, stage, hworker⟩ := h.auto w hauto
    cases hnot (by rw [hworker, Option.map_some])
  · rw [hnot (by rw [hworker, Option.map_some])] at hholds
    cases hholds

/-- An exception leaves the attempt of the worker. -/
theorem wakeful_raised (h : s.Wakeful callers (some w)) (e : Exc)
    (hends : s.OnDuty callers w → e = .cancelledError ∨ s.Renews w → s.MayStop callers w) :
    (s.raised w e).Wakeful callers none := by
  unfold Session.raised
  extract_lets t
  have ht : t.Wakeful callers (some w) := wakeful_release h w
  have hstops : t.OnDuty callers w → e = .cancelledError ∨ t.Renews w → t.MayStop callers w := by
    dsimp only [t]
    unfold Session.release
    split <;> exact hends
  -- what ends as an attempt of a caller's is on duty only while it has yet to renew the connection
  have hcaller {purpose : Purpose} (hpurpose : (t.workers w).map Worker.purpose = some purpose)
      (hne : ∀ attempt, purpose ≠ .auto attempt) (hon : t.OnDuty callers w) : t.MayStop callers w :=
    hstops hon (.inr (hon.resolve_left (other_of_purpose ht hpurpose hne)).2)
  split
  · exact wakeful_ended ht _ fun hon => hstops hon (.inl rfl)
  · exact wakeful_ended ht _ fun hon => hstops hon (.inl rfl)
  · rename_i hpurpose _
    split
    · exact wakeful_ended ht _ (hcaller hpurpose (by simp))
    · exact wakeful_awaits ht (by simp) (permits_of_outside rfl rfl) fun _ => .inl rfl
  · split
    · exact wakeful_ended (wakeful_failOutstanding ht _) _ fun _ => .inr (.inl (vacant_discardAll t _))
    · exact wakeful_awaits ht (by simp) (permits_of_outside rfl rfl) fun _ => .inl rfl
  · rename_i hnot _ _
    refine wakeful_ended ht _ fun hon => hstops hon (.inr (hon.resolve_left fun hauto => ?_).2)
    obtain ⟨attempt, stage, hworker⟩ := ht.auto w hauto
    exact hnot attempt (by rw [hworker, Option.map_some])

theorem unwanted_of_contains {rid : Text} (h : ¬s.correlation.contains rid = true) : s.correlation.pending.get? rid = none :=
  Dict.get?_of_contains ((Bool.not_eq_true _).mp h)

theorem vacant_of_pending (h : ∀ rid r, s.correlation.pending.get? rid ≠ some r) : s.Vacant := fun rid =>
  Option.eq_none_iff_forall_ne_some.mpr (h rid)

theorem wakeful_exhausted (h : s.Wakeful callers (some w)) (hends : s.MayEnd callers w []) :
    (s.returned w).Wakeful callers none := by
  refine wakeful_returned h fun hon => ?_
  refine (hends hon fun rid hrid => absurd hrid List.not_mem_nil).imp_right (Or.imp_left fun hall => ?_)
  exact vacant_of_pending fun rid r hget => absurd (hall rid r hget).2 List.not_mem_nil

/-- The worker publishes what is left, and returns if all of it is refused or no longer wanted. -/
theorem wakeful_republish (h : s.Wakeful callers (some w)) (hs : s.Orderly) (hnot : ¬s.Renews w)
    (entries : List (Text × ParkedPublish)) (hends : s.MayEnd callers w (entries.map Prod.fst)) :
    (s.republish w entries).Wakeful callers none := by
  induction entries generalizing s with
  | nil =>
    rw [Session.republish]
    exact wakeful_exhausted h hends
  | cons entry rest ih =>
    obtain ⟨rid, parked⟩ := entry
    rw [Session.republish]
    split
    · extract_lets envelope id t
      have hcalled : t.Wakeful callers (some w) := wakeful_call h _ _
      have horderly : t.Orderly := orderly_call hs _ (by simp)
      have hafter : ¬t.Renews w := hnot
      split
      · exact wakeful_awaits hcalled (by simp) (permits_of_outside rfl rfl) fun hrenews => absurd hrenews hafter
      · rename_i result hended
        obtain ⟨exc, heq, -⟩ := publish_atOnce ((hs _ List.mem_cons_self).fresh _ le_rfl) rfl hended
        cases heq
      · rename_i exc hended
        obtain ⟨_, ⟨⟩, hinternal | ⟨hrefusal, hopen, hblocked, hsame⟩⟩ :=
          publish_atOnce ((hs _ List.mem_cons_self).fresh _ le_rfl) rfl hended
        · rw [if_neg (by rw [hinternal.1]; exact Bool.false_ne_true)]
          exact wakeful_raised hcalled exc fun _ hraises => absurd hraises (not_or.mpr ⟨hinternal.2, hafter⟩)
        · rw [if_pos hrefusal]
          have hstill : t.Blocked := Session.Blocked.of_conn (s := s) ⟨hopen, hblocked⟩ hsame
          refine ih (wakeful_failPublish hcalled rid _) horderly hafter fun hon _ => ?_
          refine (hends hon fun _ _ _ => ⟨hopen, hblocked⟩).imp_right (Or.imp_left fun hall other r hget => ⟨hstill, ?_⟩)
          obtain ⟨hne, hbefore⟩ := Dict.get?_of_get?_erase hget
          exact (List.mem_cons.mp (hall other r hbefore).2).resolve_left (Ne.symm hne)
    · rename_i hunwanted
      refine ih (s := s.forgetPublish rid) (h.of_same rfl fun _ hvacant => hvacant) hs hnot fun hon hrest => ?_
      refine (hends hon fun other hmem hwanted => ?_).imp_right (Or.imp_left fun hall other r hget => ?_)
      · rcases List.mem_cons.mp hmem with rfl | hmem
        · exact absurd hwanted hunwanted
        · exact hrest other hmem hwanted
      · obtain ⟨hblocked, hmem⟩ := hall other r hget
        refine ⟨hblocked, (List.mem_cons.mp hmem).resolve_left ?_⟩
        rintro rfl
        have hget : s.correlation.pending.get? other = some r := hget
        rw [unwanted_of_contains hunwanted] at hget
        cases hget

/-- The worker goes on without a refusal. -/
theorem mayEnd_of_remainder {outcome : Except Exc (Option Text)} {entries : List (Text × ParkedPublish)}
    (hremainder : s.remainder w outcome = some ⟨[], entries⟩) (hends : s.MayFinish callers w outcome) :
    s.MayEnd callers w (entries.map Prod.fst) := by
  intro hon hall
  have hmem {rid : Text} : rid ∈ s.refusals w outcome ↔ s.Blocked ∧ rid ∈ entries.map Prod.fst :=
    (mem_refusals hremainder).trans (or_iff_right List.not_mem_nil)
  refine (hends hon (.inr ⟨_, hremainder, fun entry hentry hwanted => ?_⟩)).imp_right
    (Or.imp_left fun hpending rid r hget => ?_)
  · have hrid := List.mem_map_of_mem (f := Prod.fst) hentry
    exact hmem.mpr ⟨hall entry.1 hrid hwanted, hrid⟩
  · exact hmem.mp (hpending rid r hget)

theorem MayFinish.cancelled (h : s.MayFinish callers w (.error .cancelledError)) (hon : s.OnDuty callers w) :
    s.MayStop callers w := by
  have hrefusals : s.refusals w (.error .cancelledError) = [] := by
    have hremainder : s.remainder w (.error .cancelledError) = none := by
      unfold Session.remainder
      split
      · rename_i heq
        cases heq
      · rename_i heq
        cases heq
      · rename_i heq
        cases heq
        rfl
      · rfl
    rw [Session.refusals, hremainder]
  refine (h hon (.inl rfl)).imp_right (Or.imp_left fun hpending => vacant_of_pending fun rid r hget => ?_)
  have hmem := hpending rid r hget
  rw [hrefusals] at hmem
  exact List.not_mem_nil hmem

/-- A call of the worker raises. -/
theorem wakeful_failed (h : s.Wakeful callers (some w)) (hnot : ¬s.Renews w) (exc : Exc)
    (hends : s.MayFinish callers w (.error exc)) : (s.raised w exc).Wakeful callers none := by
  refine wakeful_raised h exc fun hon hraises => ?_
  rcases hraises with rfl | hrenews
  · exact MayFinish.cancelled hends hon
  · exact absurd hrenews hnot

theorem wakeful_republished (h : s.Wakeful callers (some w)) (hs : s.Orderly) {purpose : Purpose} {call : CallId} {rid : Text}
    {envelope : ParkedPublish} {rest : List (Text × ParkedPublish)}
    (hworker : s.workers w = some ⟨purpose, .republishing call rid envelope rest⟩) (epoch : Nat)
    (outcome : Except Exc (Option Text)) (hends : s.MayFinish callers w outcome) :
    (s.republished w epoch rid envelope rest outcome).Wakeful callers none := by
  have hnot : ¬s.Renews w := other_of_renews hworker rfl
  cases outcome with
  | ok result =>
    have hmay := mayEnd_of_remainder (remainder_returned hworker result) hends
    exact wakeful_republish (s := s.recordPublish epoch envelope) (h.of_same rfl fun _ hvacant => hvacant) hs hnot rest hmay
  | error exc =>
    rw [Session.republished]
    split
    · rename_i hrefusal
      have hremainder := remainder_refused hworker hrefusal
      have hmem {other : Text} : other ∈ s.refusals w (.error exc) ↔ other = rid ∨ s.Blocked ∧ other ∈ rest.map Prod.fst :=
        (mem_refusals hremainder).trans (or_congr_left List.mem_singleton)
      refine wakeful_republish (wakeful_failPublish h rid _) hs hnot rest fun hon hall => ?_
      refine (hends hon (.inr ⟨_, hremainder, fun entry hentry hwanted => ?_⟩)).imp_right
        (Or.imp_left fun hpending other r hget => ?_)
      · have hrest := List.mem_map_of_mem (f := Prod.fst) hentry
        by_cases heq : entry.1 = rid
        · exact hmem.mpr (.inl heq)
        · refine hmem.mpr (.inr ⟨hall entry.1 hrest ?_, hrest⟩)
          rw [← hwanted]
          exact congrArg Option.isSome (Dict.get?_erase_of_ne _ (Ne.symm heq))
      · obtain ⟨hne, hbefore⟩ := Dict.get?_of_get?_erase hget
        exact (hmem.mp (hpending other r hbefore)).resolve_left (Ne.symm hne)
    · exact wakeful_failed h hnot exc hends

theorem wakeful_opened (h : s.Wakeful callers (some w)) (hs : s.Orderly) (hnot : ¬s.Renews w)
    (hends : s.OnDuty callers w → s.MayEnd callers w
      ((if s.settings.policy.failOutstanding ∨ s.replyQueue = none then [] else s.parked.entries).map Prod.fst)) :
    (s.opened w).Wakeful callers none := by
  have hmay : s.MayEnd callers w
      ((if s.settings.policy.failOutstanding ∨ s.replyQueue = none then [] else s.parked.entries).map Prod.fst) :=
    fun hon => hends hon hon
  unfold Session.opened
  split
  · rename_i hpurpose
    exact wakeful_returned h fun hon => absurd hon (idle_of_purpose h hpurpose rfl)
  · split
    · rename_i hreturns
      rw [if_pos hreturns] at hmay
      exact wakeful_exhausted h hmay
    · rename_i hwanted
      rw [if_neg hwanted] at hmay
      exact wakeful_republish h hs hnot _ hmay

theorem wakeful_opens (h : s.Wakeful callers (some w)) (hstarted : s.started = false) (hwired : s.link.wired = true)
    (op : Operation) (step : Opening) (hunheard : s.Renews w → s.lossHandled = false)
    (hraises : ∀ exc, (s.call (some (.worker w)) op).link.client.outcome s.nextCall =
      some (.error exc) → exc = .cancelledError → s.lossHandled = false) : (s.opens w op step).Wakeful callers none := by
  unfold Session.opens
  extract_lets id t
  have hcalled : t.Wakeful callers (some w) := wakeful_call h _ _
  split
  · rename_i exc hended
    exact wakeful_raised hcalled _ fun _ hends => .inl (hends.elim (hraises exc hended) hunheard)
  · exact wakeful_awaits hcalled (by simp) ⟨fun _ => hstarted, fun _ => hwired, rfl⟩ fun hrenews => .inr (hunheard hrenews)

/-- `start` on a connection that is not lost. -/
theorem wakeful_startConn (h : s.Wakeful callers (some w)) (hstarted : s.started = false)
    (hlost : s.link.client.conn.lost = none) : (s.startConn w).Wakeful callers none := by
  have hwired : Session.Wakeful callers (some w) { s with lossHandled := false, link := { s.link with wired := true } } := by
    refine ⟨fun _ hnot => absurd hlost hnot, fun hhandled => ?_, fun hhandled => ?_, h.auto, h.looping, fun hnot => ?_,
      fun v worker hx hworker => (h.staged v worker hx hworker).of_same id fun _ => rfl⟩
    · cases hhandled
    · cases hhandled
    · cases hnot
  exact wakeful_opens hwired hstarted rfl _ _ (fun _ => rfl) fun _ _ _ => rfl

/-- `start` on a new connection. -/
theorem wakeful_renewed (h : s.Wakeful callers (some w)) (hstarted : s.started = false) :
    (s.newConnection.startConn w).Wakeful callers none := by
  have hclosed : s.replyQueueOpen = false := by rw [Session.replyQueueOpen, hstarted, Bool.and_false]
  have hwired : Session.Wakeful callers (some w)
      { s.newConnection with lossHandled := false, link := { s.newConnection.link with wired := true } } := by
    refine ⟨fun _ hnot => absurd rfl hnot, fun hhandled => ?_, fun hhandled => ?_, h.auto, fun hopen => ?_, fun hnot => ?_,
      fun v worker hx hworker => (h.staged v worker hx hworker).of_same (fun _ => hstarted) fun _ => rfl⟩
    · cases hhandled
    · cases hhandled
    · have hopen : s.replyQueueOpen = true := hopen
      rw [hclosed] at hopen
      cases hopen
    · cases hnot
  exact wakeful_opens hwired hstarted rfl _ _ (fun _ => rfl) fun _ _ _ => rfl

theorem wakeful_openingEnded (h : s.Wakeful callers (some w)) (hs : s.Orderly) (hstarted : s.started = false)
    (hwired : s.link.wired = true) {purpose : Purpose} {call : CallId} {step : Opening}
    (hworker : s.workers w = some ⟨purpose, .opening call step⟩) (outcome : Except Exc (Option Text))
    (hends : s.MayFinish callers w outcome) (hconsumed : ∀ result, step = .consuming → outcome = .ok result →
      (s.lossHandled = false ∨ s.replyQueue = none) ∧
        ∀ v other, v ≠ w → s.workers v = some other → other.stage.shut = false) :
    (s.openingEnded w step outcome).Wakeful callers none := by
  have hfresh : s.link.client.fresh s.nextCall = true := (hs _ List.mem_cons_self).fresh _ le_rfl
  have hnot : ¬s.Renews w := other_of_renews hworker rfl
  have hunheard (hrenews : s.Renews w) : s.lossHandled = false := absurd hrenews hnot
  unfold Session.openingEnded
  split
  · exact wakeful_failed h hnot _ hends
  · exact wakeful_opens h hstarted hwired _ _ hunheard fun exc hended hcancelled =>
      absurd hcancelled (openChannel_atOnce hfresh hended).2
  · exact wakeful_opens h hstarted hwired _ _ hunheard fun exc hended hcancelled =>
      absurd hcancelled (request_atOnce hfresh hended).2
  · rename_i queue
    have hopened (queue : Option Text) : Session.replyQueueOpen { s with replyQueue := queue } = false := by
      rw [Session.replyQueueOpen, hstarted, Bool.and_false]
    have hqueue : Session.Wakeful callers (some w) { s with replyQueue := queue } := by
      refine ⟨h.handled, fun _ => hopened _, h.waked, h.auto, fun hopen => ?_, fun hnot => ?_,
        fun v worker hx hworker => (h.staged v worker hx hworker).of_same id id⟩
      · rw [hopened] at hopen
        cases hopen
      · exact ⟨(h.unwired hnot).1, hopened _⟩
    exact wakeful_opens hqueue hstarted hwired _ _ hunheard fun exc hended hcancelled =>
      absurd hcancelled (request_atOnce hfresh hended).2
  · obtain ⟨hheard, hothers⟩ := hconsumed _ rfl rfl
    refine wakeful_opened (s := Session.createLoop { s with started := true })
      ⟨h.handled, fun hhandled => ?_, h.waked, h.auto, fun _ => ⟨s.nextLoop, rfl, ?_⟩, fun hnot => ?_,
        fun v worker hx hworker => ⟨fun hshut => ?_, fun _ => hwired, (h.staged v worker hx hworker).closes⟩⟩ hs hnot
      fun hon => ?_
    · rcases hheard with hnone | hnone
      · have hhandled : s.lossHandled = true := hhandled
        rw [hnone] at hhandled
        cases hhandled
      · change (s.replyQueue.isSome && true) = false
        rw [hnone]
        rfl
    · have hloop : (Session.createLoop { s with started := true }).loops s.nextLoop = some .created := if_pos rfl
      rw [Session.RunsOn, hloop]
      trivial
    · have hnot : s.link.wired = false := hnot
      rw [hwired] at hnot
      cases hnot
    · have hv : v ≠ w := fun heq => hx (congrArg some heq.symm)
      rw [hothers v worker hv hworker] at hshut
      cases hshut
    · have hpurpose : purpose ≠ .start := by
        rintro rfl
        exact idle_of_purpose h (by rw [hworker, Option.map_some]) rfl hon
      have hmay := mayEnd_of_remainder (remainder_consumed hworker _) hends
      simp only [hpurpose, false_or] at hmay
      exact hmay

theorem wakeful_closed (h : s.Wakeful callers (some w)) (hstarted : s.started = false) (outcome : Except Exc (Option Text))
    (hends : outcome = .error .cancelledError → s.OnDuty callers w → s.MayStop callers w) :
    (s.closed w outcome).Wakeful callers none := by
  unfold Session.closed
  split
  · rename_i hpurpose
    exact wakeful_ended h _ fun hon => absurd hon (idle_of_purpose h hpurpose rfl)
  · exact wakeful_raised h _ fun hon _ => hends rfl hon
  · exact wakeful_renewed h hstarted

theorem wakeful_replyStopped (h : s.Wakeful callers (some w)) (hs : s.Orderly) (hstarted : s.started = false) :
    (s.replyStopped w).Wakeful callers none := by
  unfold Session.replyStopped
  extract_lets call t
  have hcleared : Session.Wakeful callers (some w) { s with replyTask := none, replyQueue := none } := by
    refine ⟨h.handled, fun _ => rfl, h.waked, h.auto, fun hopen => ?_, fun hnot => ⟨(h.unwired hnot).1, rfl⟩,
      fun v worker hx hworker => (h.staged v worker hx hworker).of_same id id⟩
    cases hopen
  have ht : t.Wakeful callers (some w) := wakeful_call hcleared _ _
  split
  · rename_i outcome hended
    refine wakeful_closed ht hstarted outcome ?_
    rintro rfl
    exact absurd hended (close_atOnce ((hs _ List.mem_cons_self).fresh _ le_rfl))
  · exact wakeful_awaits ht (by simp) ⟨fun _ => hstarted, fun hopens => (by cases hopens), rfl⟩ fun _ => .inl rfl

theorem wakeful_stopReply (h : s.Wakeful callers (some w)) (hs : s.Orderly) (hstarted : s.started = false) :
    (s.stopReply w).Wakeful callers none := by
  unfold Session.stopReply
  split
  · exact wakeful_replyStopped h hs hstarted
  · rename_i l _
    split
    · exact wakeful_replyStopped h hs hstarted
    · have hcancelled : (s.setCancelled (.loop l) true).Wakeful callers (some w) := h.of_same rfl fun _ hvacant => hvacant
      exact wakeful_awaits hcancelled (by simp) ⟨fun _ => hstarted, fun hopens => (by cases hopens), rfl⟩ fun _ => .inl rfl

theorem wakeful_reconnectLocked (h : s.Wakeful callers (some w)) (hs : s.Orderly) :
    (s.reconnectLocked w).Wakeful callers none := by
  unfold Session.reconnectLocked
  split
  · rename_i hopen
    refine wakeful_returned h fun _ => .inl (Bool.eq_false_iff.mpr fun hhandled => ?_)
    rw [h.closed hhandled] at hopen
    cases hopen
  · extract_lets t u
    have hclosed : t.replyQueueOpen = false := Bool.and_false _
    have ht : t.Wakeful callers (some w) := by
      refine ⟨h.handled, fun _ => hclosed, h.waked, h.auto, fun hopen => ?_, fun hnot => ⟨(h.unwired hnot).1, hclosed⟩,
        fun v worker hx hworker => (h.staged v worker hx hworker).of_same (fun _ => rfl) id⟩
      rw [hclosed] at hopen
      cases hopen
    have hu : u.Wakeful callers (some w) ∧ u.Orderly ∧ u.started = false := by
      dsimp only [u]
      split
      · exact ⟨wakeful_failOutstanding ht _, hs, rfl⟩
      · exact ⟨ht, hs, rfl⟩
    exact wakeful_stopReply hu.1 hu.2.1 hu.2.2

theorem wakeful_reconnectFrom (h : s.Wakeful callers (some w)) (hs : s.Orderly) :
    (s.reconnectFrom w).Wakeful callers none := by
  unfold Session.reconnectFrom
  split
  · exact wakeful_reconnectLocked (s := { s with lock := some w }) (h.of_same rfl fun _ hvacant => hvacant) hs
  · have hline : Session.Wakeful callers (some w) { s with lockLine := s.lockLine ++ [w] } :=
      h.of_same rfl fun _ hvacant => hvacant
    exact wakeful_awaits hline (by simp) (permits_of_outside rfl rfl) fun _ => .inl rfl

/-- A reconnect counts its next attempt. -/
theorem wakeful_counted (h : s.Wakeful callers (some w)) {purpose : Purpose} (hlocks : purpose.locks = true)
    (hauto : s.autoTask = some w → ∃ attempt, purpose = .auto attempt) :
    (s.setWorker w ⟨purpose, .sleeping⟩).Wakeful callers (some w) := by
  have hafter : (s.setWorker w ⟨purpose, .sleeping⟩).workers w = some ⟨purpose, .sleeping⟩ := if_pos rfl
  refine wakeful_workers h (fun v hv => if_neg hv) (fun htask => ?_) (fun _ hne => absurd rfl hne) fun hon => ?_
  · obtain ⟨attempt, rfl⟩ := hauto htask
    exact ⟨attempt, .sleeping, hafter⟩
  · exact .inl ⟨hon.imp_right (And.imp_right fun _ => ⟨_, hafter, hlocks, rfl⟩), .inl rfl⟩

theorem Session.Wakeful.runs (h : s.Wakeful callers none) (w : WorkerId) : s.Wakeful callers (some w) := by
  refine ⟨h.handled, h.closed, fun hhandled => (h.waked hhandled).imp_right ?_, h.auto, h.looping, h.unwired,
    fun v worker _ hworker => h.staged v worker (by simp) hworker⟩
  rintro ⟨v, hon, hruns⟩
  exact ⟨v, hon, .inr (hruns.resolve_left (by simp))⟩

theorem wakeful_nextAttempt (h : s.Wakeful callers none) (hs : s.Orderly) (w : WorkerId) :
    (s.nextAttempt w).Wakeful callers none := by
  unfold Session.nextAttempt
  split
  · rename_i hpurpose
    have hother := other_of_purpose h hpurpose (by simp)
    exact wakeful_reconnectFrom (wakeful_counted (h.runs w) rfl fun hauto => absurd hauto hother) hs
  · rename_i attempt _
    exact wakeful_reconnectFrom (wakeful_counted (h.runs w) rfl fun _ => ⟨attempt + 1, rfl⟩) hs
  · exact h

theorem wakeful_workerResumed (h : s.Wakeful callers none) (hs : s.Orderly) {worker : Worker}
    (hworker : s.workers w = some worker) (epoch : Nat) (outcome : Except Exc (Option Text))
    (hends : s.MayFinish callers w outcome)
    (hconsumed : ∀ call result, worker.stage = .opening call .consuming → outcome = .ok result →
      (s.lossHandled = false ∨ s.replyQueue = none) ∧
        ∀ v other, v ≠ w → s.workers v = some other → other.stage.shut = false) :
    (s.workerResumed w epoch outcome).Wakeful callers none := by
  have hpermits := h.staged w worker (by simp) hworker
  obtain ⟨purpose, stage⟩ := worker
  unfold Session.workerResumed
  rw [hworker, Option.map_some]
  dsimp only
  split
  · rename_i hstage
    cases hstage
    refine wakeful_closed (h.runs w) (hpermits.shut rfl) outcome ?_
    rintro rfl
    exact MayFinish.cancelled hends
  · rename_i call step hstage
    cases hstage
    exact wakeful_openingEnded (h.runs w) hs (hpermits.shut rfl) (hpermits.opens rfl) hworker outcome hends
      fun result hstep hok => hconsumed call result (by rw [hstep]) hok
  · rename_i hstage
    cases hstage
    exact wakeful_republished (h.runs w) hs hworker epoch outcome hends
  · exact h

theorem wakeful_runWorker (h : s.Wakeful callers none) (hs : s.Orderly)
    (hends : s.cancelled (.worker w) = true → s.OnDuty callers w → s.MayStop callers w) (hrun : s.runWorker w = some s') :
    s'.Wakeful callers none := by
  have hstage {stage : Stage} (hsome : (s.workers w).map Worker.stage = some stage) :
      ∃ worker, s.workers w = some worker ∧ worker.stage = stage := Option.map_eq_some_iff.mp hsome
  have hcleared : (s.setCancelled (.worker w) false).Wakeful callers (some w) :=
    (h.runs w).of_same rfl fun _ hvacant => hvacant
  unfold Session.runWorker at hrun
  dsimp only at hrun
  split at hrun
  · cases hrun
    split
    · rename_i hcancelled
      exact wakeful_raised hcleared _ fun hon _ => hends hcancelled hon
    · exact wakeful_reconnectFrom (h.runs w) hs
  · cases hrun
    split
    · rename_i hcancelled
      exact wakeful_raised hcleared _ fun hon _ => hends hcancelled hon
    · exact wakeful_nextAttempt h hs w
  · split at hrun
    · rename_i hcancelled
      cases hrun
      exact wakeful_raised (s := { s.setCancelled (.worker w) false with lockLine := s.lockLine.filter (· ≠ w) })
        ((h.runs w).of_same rfl fun _ hvacant => hvacant) _ fun hon _ => hends hcancelled hon
    · obtain ⟨-, ⟨⟩⟩ := Option.ite_none_right_eq_some.mp hrun
      exact wakeful_reconnectLocked (s := { s with lock := some w, lockLine := s.lockLine.tail })
        ((h.runs w).of_same rfl fun _ hvacant => hvacant) hs
  · obtain ⟨worker, hworker, hawaiting⟩ := hstage ‹_›
    have hcloses := (h.staged w worker (by simp) hworker).closes
    rw [hawaiting] at hcloses
    cases hcloses
  · obtain ⟨worker, hworker, hstopping⟩ := hstage ‹_›
    obtain ⟨-, ⟨⟩⟩ := Option.ite_none_right_eq_some.mp hrun
    exact wakeful_replyStopped (h.runs w) hs ((h.staged w worker (by simp) hworker).shut (by rw [hstopping]; rfl))
  · cases hrun

end Workers

end Nuropb.Sessions
