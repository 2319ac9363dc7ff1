import Nuropb.Sessions.Owners
import Nuropb.Sessions.Quiet
import Nuropb.Sessions.Staff

/-! # Nothing runs on after close

`close` cancels the auto-reconnect task and waits for it, stops the reply loop, and closes the connection. What
it does not stop goes on; where it finds nothing else, and no loss is reported to it later, the session stays
closed.
-/
namespace Nuropb.Sessions

open Library Transport

/-- A cancellation is raised where the worker waits; a wait for another task takes it. -/
def Stage.heeds : Stage → Bool
  | .stoppingReply _ | .awaitingAuto _ => false
  | _ => true

namespace Session

/-- No worker runs but an auto-reconnect task that heeds its cancellation, and no reply loop but the session's own. -/
structure Calm (s : Session) : Prop where
  workers : ∀ w worker, s.workers w = some worker → (∀ outcome, worker.stage ≠ .ended outcome) →
    s.autoTask = some w ∧ worker.stage.heeds = true
  loops : ∀ l, s.loopEnded l = false → s.replyTask = some l

/-- In the step a connection reports its loss to the session, or a reply loop ends with one. -/
inductive Hears (s : Session) (e : SessionEvent) : Prop
  | reported (m : Move) (hmove : s.move e = some m) (hwired : m.link.wired = true)
      (hbefore : m.link.client.conn.lost = none) (hlost : m.after.conn.lost ≠ none)
  | received (l : LoopId) (s' : Session) (reason : String) (hactor : s.actor e = .loop l) (hstep : s.step e = some s')
      (hloop : s'.loops l = some (.ended (.connectionLost reason)))

/-- The caller neither starts nor reconnects the session again, no loss is reported that would create an
auto-reconnect task, and what the one that is there awaits ends with its cancellation. -/
structure StaysClosed (s : Session) (e : SessionEvent) : Prop where
  uncalled : e ≠ .start ∧ e ≠ .reconnect ∧ ∀ policy, e ≠ .coordinate policy
  unheard : s.Hears e → s.Muted
  cancelled : ∀ w epoch id outcome, s.autoTask = some w → s.callEnds e = some (epoch, id, outcome) →
    s.owners id = some (.worker w) → outcome = .error .cancelledError

/-- Since `close` was called in the first session no reconnect has been created and no epoch opened; once a call
of it has returned, the connection is closed and no reconnect or reply loop runs. -/
structure ClosedSince (before s : Session) : Prop where
  created : ∀ w worker, s.workers w = some worker → worker.purpose ≠ .close → w < before.nextWorker
  epoch : s.epoch = before.epoch
  replies : s.replyQueueOpen = false
  returned : ∀ w result, before.nextWorker ≤ w → s.workers w = some ⟨.close, .ended (.ok result)⟩ →
    s.link.client.closed = true ∧ (∀ l, s.loopEnded l = true) ∧
      ∀ v worker, s.workers v = some worker → worker.purpose ≠ .close → ∃ outcome, worker.stage = .ended outcome

end Session

/-! ## While it closes -/

namespace Session

def Alone (k : WorkerId) (s : Session) : Prop :=
  ∀ w worker, w < k → s.workers w = some worker → ∃ outcome, worker.stage = .ended outcome

/-- Where a call of `close` can be, and what holds there. -/
def ClosesAt (k : WorkerId) (s : Session) : Stage → Prop
  | .awaitingAuto auto => s.autoTask = some auto ∨ s.autoTask = none
  | .stoppingReply l => (s.replyTask = some l ∨ s.replyTask = none) ∧ s.Alone k
  | .closingConn _ | .ended _ => s.replyTask = none ∧ s.link.client.closed = true ∧ s.Alone k
  | _ => False

/-- From the worker on all are calls of `close`, one of which runs; of those before it only the auto-reconnect task
has not ended, which is cancelled. -/
structure Closing (x : Option WorkerId) (k : WorkerId) (n : Nat) (s : Session) : Prop where
  past : k ≤ s.nextWorker
  epoch : s.epoch = n
  stopped : s.started = false
  loops : ∀ l, s.loopEnded l = false → s.replyTask = some l
  earlier : ∀ w worker, w < k → s.workers w = some worker → (∀ outcome, worker.stage ≠ .ended outcome) →
    s.autoTask = some w ∧ worker.stage.heeds = true ∧ (worker.stage.awaits = none → s.cancelled (.worker w) = true)
  closers : ∀ w worker, k ≤ w → s.workers w = some worker →
    worker.purpose = .close ∧ (x ≠ some w → s.ClosesAt k worker.stage)

end Session

section Closing

variable {s s' : Session} {e : SessionEvent} {w : WorkerId} {x : Option WorkerId} {k : WorkerId} {n : Nat} {stage : Stage}

theorem Session.ClosesAt.of_same (h : s.ClosesAt k stage) (hauto : s'.autoTask = s.autoTask ∨ s'.autoTask = none)
    (hreply : s'.replyTask = s.replyTask ∨ s'.replyTask = none)
    (hclosed : s.link.client.closed = true → s'.link.client.closed = true) (halone : s.Alone k → s'.Alone k) :
    s'.ClosesAt k stage := by
  have hnone (hbefore : s.replyTask = none) : s'.replyTask = none := hreply.elim (fun heq => heq.trans hbefore) id
  cases stage with
  | awaitingAuto auto => exact hauto.elim (fun heq => h.imp heq.trans heq.trans) .inr
  | stoppingReply l => exact ⟨hreply.elim (fun heq => h.1.imp heq.trans heq.trans) .inr, halone h.2⟩
  | closingConn | ended => exact ⟨hnone h.1, hclosed h.2.1, halone h.2.2⟩
  | _ => exact h

theorem closing_still (h : s.Closing x k n) (hstill : Still s s') : s'.Closing x k n where
  past := hstill.nextWorker ▸ h.past
  epoch := hstill.epoch.trans h.epoch
  stopped := hstill.started h.stopped
  loops l hl := by
    rw [hstill.replyTask]
    refine h.loops l ?_
    rw [← Bool.not_eq_true] at hl ⊢
    exact fun hended => hl (hstill.loops l hended)
  earlier w worker hw hworker hlive := by
    rw [hstill.workers] at hworker
    obtain ⟨hauto, hheeds, hcancelled⟩ := h.earlier w worker hw hworker hlive
    refine ⟨hstill.autoTask.trans hauto, hheeds, fun hawaits => ?_⟩
    refine hstill.cancelled w (hcancelled hawaits) ?_ (runs_of_live hworker hlive)
    rw [Session.awaits, hworker, Option.bind_some, hawaits]
  closers w worker hw hworker := by
    rw [hstill.workers] at hworker
    obtain ⟨hpurpose, hat⟩ := h.closers w worker hw hworker
    refine ⟨hpurpose, fun hx => (hat hx).of_same (.inl hstill.autoTask) (.inl hstill.replyTask) hstill.closed ?_⟩
    unfold Session.Alone
    rw [hstill.workers]
    exact id

theorem alone_setWorker (hw : k ≤ w) (worker : Worker) (h : s.Alone k) : (s.setWorker w worker).Alone k := by
  intro v found hv hfound
  have hne : v ≠ w := Nat.ne_of_lt (Nat.lt_of_lt_of_le hv hw)
  exact h v found hv ((if_neg hne).symm.trans hfound)

theorem closing_setStage (h : s.Closing (some w) k n) (hw : k ≤ w) (hat : s.ClosesAt k stage) :
    (s.setStage w stage).Closing none k n := by
  cases hworker : s.workers w with
  | none =>
    rw [Session.setStage, hworker]
    refine ⟨h.past, h.epoch, h.stopped, h.loops, h.earlier, fun v found hv hfound => ?_⟩
    obtain ⟨hpurpose, hbefore⟩ := h.closers v found hv hfound
    refine ⟨hpurpose, fun _ => hbefore fun heq => ?_⟩
    cases heq
    rw [hworker] at hfound
    cases hfound
  | some worker =>
    rw [workers_setStage hworker]
    refine ⟨h.past, h.epoch, h.stopped, h.loops, fun v found hv hfound => ?_, fun v found hv hfound => ?_⟩
    · have hne : v ≠ w := Nat.ne_of_lt (Nat.lt_of_lt_of_le hv hw)
      exact h.earlier v found hv ((if_neg hne).symm.trans hfound)
    · by_cases heq : v = w
      · subst heq
        obtain rfl : { worker with stage } = found := Option.some.inj ((if_pos rfl).symm.trans hfound)
        exact ⟨(h.closers v worker hv hworker).1, fun _ => hat.of_same (.inl rfl) (.inl rfl) id (alone_setWorker hw _)⟩
      · obtain ⟨hpurpose, hbefore⟩ := h.closers v found hv ((if_neg heq).symm.trans hfound)
        refine ⟨hpurpose, fun _ => ?_⟩
        exact (hbefore fun hx => heq (Option.some.inj hx).symm).of_same (.inl rfl) (.inl rfl) id (alone_setWorker hw _)

theorem closing_ended (h : s.Closing x k n) (hw : w < k) (outcome : Except Exc Unit) :
    (s.setStage w (.ended outcome)).Closing x k n := by
  cases hworker : s.workers w with
  | none =>
    rw [Session.setStage, hworker]
    exact h
  | some worker =>
    rw [workers_setStage hworker]
    have halone (halone : s.Alone k) : (s.setWorker w { worker with stage := .ended outcome }).Alone k := by
      intro v found hv hfound
      by_cases heq : v = w
      · subst heq
        cases (if_pos rfl).symm.trans hfound
        exact ⟨outcome, rfl⟩
      · exact halone v found hv ((if_neg heq).symm.trans hfound)
    refine ⟨h.past, h.epoch, h.stopped, h.loops, fun v found hv hfound hlive => ?_, fun v found hv hfound => ?_⟩
    · by_cases heq : v = w
      · subst heq
        cases (if_pos rfl).symm.trans hfound
        exact absurd rfl (hlive outcome)
      · exact h.earlier v found hv ((if_neg heq).symm.trans hfound) hlive
    · have hne : v ≠ w := Nat.ne_of_gt (Nat.lt_of_lt_of_le hw hv)
      obtain ⟨hpurpose, hbefore⟩ := h.closers v found hv ((if_neg hne).symm.trans hfound)
      exact ⟨hpurpose, fun hx => (hbefore hx).of_same (.inl rfl) (.inl rfl) id halone⟩

theorem closing_cancelled (h : s.Closing x k n) (hw : w < k) {worker : Worker} (hworker : s.workers w = some worker)
    (line : List WorkerId) :
    (Session.raised { s.setCancelled (.worker w) false with lockLine := line } w .cancelledError).Closing x k n := by
  rw [raised_cancelled]
  refine closing_still (closing_ended h hw (.error .cancelledError)) ?_
  generalize ht : { s.setCancelled (.worker w) false with lockLine := line } = t
  have hreleased : (t.release w).workers w = some worker := by
    rw [← hworker, ← ht]
    unfold Session.release
    split <;> rfl
  rw [workers_setStage hworker, workers_setStage hreleased]
  subst ht
  have hended : (s.setWorker w { worker with stage := .ended (.error .cancelledError) }).workerEnded w = true := by
    rw [Session.workerEnded, Session.setWorker]
    simp
  have hcancelled (v : WorkerId) (hv : s.cancelled (.worker v) = true)
      (hruns : (s.setWorker w { worker with stage := .ended (.error .cancelledError) }).workerEnded v = false) :
      (s.setCancelled (.worker w) false).cancelled (.worker v) = true := by
    refine (if_neg fun heq => ?_).trans hv
    cases heq
    rw [hended] at hruns
    cases hruns
  unfold Session.release
  split
  · exact ⟨rfl, rfl, rfl, rfl, rfl, id, fun _ => id, fun v hv _ hruns => hcancelled v hv hruns, id⟩
  · exact ⟨rfl, rfl, rfl, rfl, rfl, id, fun _ => id, fun v hv _ hruns => hcancelled v hv hruns, id⟩

theorem closing_replyStopped (h : s.Closing (some w) k n) (hs : s.Orderly) (hw : k ≤ w)
    (hpurpose : (s.workers w).map Worker.purpose = some .close) (hended : ∀ l, s.loopEnded l = true)
    (halone : s.Alone k) : (s.replyStopped w).Closing none k n := by
  unfold Session.replyStopped
  extract_lets id t
  have hclosed : t.link.client.closed = true :=
    closed_callClose (s := { s with replyTask := none, replyQueue := none }) hs _
  have ht : t.Closing (some w) k n := by
    refine ⟨h.past, h.epoch, h.stopped, fun l hl => ?_, h.earlier, fun v worker hv hworker => ?_⟩
    · have hsame : t.loopEnded l = s.loopEnded l := rfl
      rw [hsame, hended l] at hl
      cases hl
    · obtain ⟨hclose, hat⟩ := h.closers v worker hv hworker
      exact ⟨hclose, fun hx => (hat hx).of_same (.inl rfl) (.inr rfl) (fun _ => hclosed) fun halone => halone⟩
  have hat : t.replyTask = none ∧ t.link.client.closed = true ∧ t.Alone k := ⟨rfl, hclosed, halone⟩
  split
  · have hpurpose' : (t.workers w).map Worker.purpose = some .close := hpurpose
    unfold Session.closed
    rw [hpurpose']
    exact closing_setStage ht hw hat
  · exact closing_setStage ht hw hat

theorem closing_stopReply (h : s.Closing (some w) k n) (hs : s.Orderly) (hw : k ≤ w)
    (hpurpose : (s.workers w).map Worker.purpose = some .close) (halone : s.Alone k) :
    (s.stopReply w).Closing none k n := by
  have hended (hnone : ∀ l, s.replyTask = some l → s.loopEnded l = true) (l : LoopId) : s.loopEnded l = true := by
    rw [← Bool.not_eq_false]
    intro hruns
    rw [hnone l (h.loops l hruns)] at hruns
    cases hruns
  unfold Session.stopReply
  split
  · rename_i htask
    refine closing_replyStopped h hs hw hpurpose (hended fun l hl => ?_) halone
    rw [htask] at hl
    cases hl
  · rename_i l htask
    split
    · rename_i hl
      refine closing_replyStopped h hs hw hpurpose (hended fun other hother => ?_) halone
      rw [htask] at hother
      cases hother
      exact hl
    · have hcancelled : Still s (s.setCancelled (.loop l) true) :=
        .of_crew rfl (fun _ => by simp [Session.setCancelled]) fun hclosed => hclosed
      exact closing_setStage (closing_still h hcancelled) hw ⟨.inl htask, halone⟩

/-! ### Steps -/

/-- What a cancelled reconnect awaits ends with its cancellation. -/
theorem closing_interrupted (h : s.Closing none k n) (hw : w < k) (epoch : Nat) :
    (s.workerResumed w epoch (.error .cancelledError)).Closing none k n := by
  have hreleased : (s.release w).Closing none k n := by
    refine closing_still h ?_
    unfold Session.release
    split <;> exact ⟨rfl, rfl, rfl, rfl, rfl, id, fun _ => id, fun _ hv _ _ => hv, id⟩
  have hraised : (s.raised w .cancelledError).Closing none k n := by
    rw [raised_cancelled]
    exact closing_ended hreleased hw _
  unfold Session.workerResumed
  split
  · unfold Session.closed
    split
    · exact closing_ended h hw _
    · exact hraised
    · rename_i hnot
      exact (hnot rfl).elim
  · rw [Session.openingEnded]
    exact hraised
  · rw [Session.republished, if_neg (by decide)]
    exact hraised
  · exact h

theorem closing_resumed (h : s.Closing none k n) (hw : k ≤ w) (epoch : Nat) (outcome : Except Exc (Option Text)) :
    (s.workerResumed w epoch outcome).Closing none k n := by
  unfold Session.workerResumed
  split
  · rename_i call hstage
    obtain ⟨worker, hworker, hclosing⟩ := Option.map_eq_some_iff.mp hstage
    obtain ⟨hpurpose, hat⟩ := h.closers w worker hw hworker
    have hat := hat (by simp)
    rw [hclosing] at hat
    unfold Session.closed
    rw [hworker, Option.map_some, hpurpose]
    refine closing_setStage ⟨h.past, h.epoch, h.stopped, h.loops, h.earlier, fun v found hv hfound => ?_⟩ hw hat
    exact (h.closers v found hv hfound).imp_right fun hbefore _ => hbefore (by simp)
  · rename_i hstage
    obtain ⟨worker, hworker, hopening⟩ := Option.map_eq_some_iff.mp hstage
    have hat := (h.closers w worker hw hworker).2 (by simp)
    rw [hopening] at hat
    exact hat.elim
  · rename_i hstage
    obtain ⟨worker, hworker, hrepublishing⟩ := Option.map_eq_some_iff.mp hstage
    have hat := (h.closers w worker hw hworker).2 (by simp)
    rw [hrepublishing] at hat
    exact hat.elim
  · exact h

theorem live_of_awaits {worker : Worker} {id : CallId} (h : worker.stage.awaits = some id) (outcome : Except Exc Unit) :
    worker.stage ≠ .ended outcome := by
  intro hended
  rw [hended] at h
  cases h

/-- A step of a connection clears at most the cancellation that comes to its task. -/
theorem still_of_move {m : Move} (h : s.step e = some s') (hmove : s.move e = some m) :
    ∃ t taken, Still s t ∧ t.crew = s.crew ∧ t.owners = s.owners ∧ t.linkAt m.epoch = s.linkAt m.epoch ∧
      s' = t.moved m.epoch m.link m.after m.call taken := by
  cases e with
  | conn epoch e =>
    obtain ⟨-, h⟩ := Option.ite_none_left_eq_some.mp h
    obtain ⟨link, hlink, h⟩ := Option.bind_eq_some_iff.mp h
    obtain ⟨after, hafter, rfl⟩ := Option.map_eq_some_iff.mp h
    simp only [Session.move, hlink, hafter, Option.bind_some, Option.map_some, Option.some.injEq] at hmove
    subst hmove
    exact ⟨s, _, .refl s, rfl, rfl, rfl, rfl⟩
  | interrupt epoch id =>
    obtain ⟨owner, -, h⟩ := Option.bind_eq_some_iff.mp h
    obtain ⟨⟨-, hawaits⟩, h⟩ := Option.ite_none_right_eq_some.mp h
    obtain ⟨link, hlink, h⟩ := Option.bind_eq_some_iff.mp h
    obtain ⟨after, hafter, rfl⟩ := Option.map_eq_some_iff.mp h
    simp only [Session.move, hlink, hafter, Option.bind_some, Option.map_some, Option.some.injEq] at hmove
    subst hmove
    refine ⟨s.setCancelled owner false, none, ?_, rfl, rfl, rfl, rfl⟩
    refine ⟨rfl, rfl, rfl, rfl, rfl, fun h => h, fun _ h => h, fun w hw hnone _ => (if_neg ?_).trans hw, fun h => h⟩
    rintro rfl
    rw [hawaits] at hnone
    cases hnone
  | _ => cases hmove

theorem closing_move {m : Move} (h : s.Closing none k n) (hstays : s.StaysClosed e) (hstep : s.step e = some s')
    (hmove : s.move e = some m) : s'.Closing none k n := by
  obtain ⟨t, taken, hcleared, hcrew, howners, hlinkAt, rfl⟩ := still_of_move hstep hmove
  have hmuted (hbefore : s.Muted) : (t.setLink m.epoch { m.link with client := m.after }).Muted := by
    refine muted_of_same (muted_of_crew hcrew hbefore) ?_ ?_ ?_ ?_
    all_goals
      unfold Session.setLink
      split <;> rfl
  have hset : Still t (t.setLink m.epoch { m.link with client := m.after }) := by
    exact still_setLink t (hlinkAt.trans (linkAt_of_move hmove)) (closed_of_move hstep hmove)
  unfold Session.moved at hstep ⊢
  extract_lets u
  extract_lets at hstep
  have hheard : Still s u := hcleared.trans (hset.trans (still_heard _ fun hwired hbefore hlost =>
    hmuted (hstays.unheard (.reported m hmove hwired hbefore hlost))))
  have hu : u.Closing none k n := closing_still h hheard
  have hown : u.owners = s.owners := (hearsOnly_heard ..).owners.trans ((owners_setLink ..).trans howners)
  split at hstep
  · exact hu
  · rename_i id hcall
    split at hstep
    · rename_i outcome houtcome
      unfold Session.resume at hstep ⊢
      split at hstep
      · exact closing_still hu (still_publishEnded u _ _ _)
      · rename_i l howner
        obtain ⟨howner, hawaits⟩ := Option.filter_eq_some_iff.mp howner
        rw [hown] at howner
        have hloops : u.loops = s.loops :=
          (hearsOnly_heard ..).loops.trans ((loops_setLink ..).trans (congrArg Crew.loops hcrew))
        have hawaited : s.awaits (.loop l) = some id := by
          rw [← of_decide_eq_true hawaits, Session.awaits, Session.awaits, hloops]
        have hactor : s.actor e = .loop l := by
          rw [actor_of_move hmove, Session.callActor, hcall, Option.bind_some, howner, Option.filter_some,
            if_pos (decide_eq_true hawaited)]
        refine closing_still hu (still_loopResumed l outcome taken fun reason hloop => ?_)
        exact muted_heard (hmuted (hstays.unheard (.received l _ reason hactor hstep hloop))) _ _ _
      · rename_i w howner
        obtain ⟨howner, hawaits⟩ := Option.filter_eq_some_iff.mp howner
        rw [hown] at howner
        obtain ⟨worker, hworker, hat⟩ := Option.bind_eq_some_iff.mp (of_decide_eq_true hawaits)
        by_cases hw : w < k
        · obtain ⟨hauto, -, -⟩ := hu.earlier w worker hw hworker (live_of_awaits hat)
          have hends : s.callEnds e = some (m.epoch, id, outcome) := by
            simp [Session.callEnds, hmove, hcall, houtcome]
          obtain rfl := hstays.cancelled w m.epoch id outcome (hheard.autoTask.symm.trans hauto) hends howner
          exact closing_interrupted hu hw m.epoch
        · exact closing_resumed hu (Nat.le_of_not_lt hw) m.epoch outcome
      · exact hu
    · exact hu

theorem alone_of_ended (h : s.Closing x k n) {auto : WorkerId} (hauto : s.autoTask = some auto ∨ s.autoTask = none)
    (hended : s.workerEnded auto = true) : s.Alone k := by
  intro w worker hw hworker
  by_contra hnot
  have hlive (outcome : Except Exc Unit) (heq : worker.stage = .ended outcome) : False := hnot ⟨outcome, heq⟩
  obtain ⟨htask, -, -⟩ := h.earlier w worker hw hworker hlive
  rcases hauto with hsome | hnone
  · rw [hsome] at htask
    cases htask
    rw [runs_of_live hworker hlive] at hended
    cases hended
  · rw [hnone] at htask
    cases htask

theorem Session.Closing.runs (h : s.Closing none k n) (w : WorkerId) : s.Closing (some w) k n :=
  ⟨h.past, h.epoch, h.stopped, h.loops, h.earlier, fun v worker hv hworker =>
    (h.closers v worker hv hworker).imp_right fun hat _ => hat (by simp)⟩

theorem closing_runWorker (h : s.Closing none k n) (hs : s.Orderly) (hrun : s.runWorker w = some s') :
    s'.Closing none k n := by
  have hstage {stage : Stage} (hsome : (s.workers w).map Worker.stage = some stage) :
      ∃ worker, s.workers w = some worker ∧ worker.stage = stage := Option.map_eq_some_iff.mp hsome
  have hearlier {worker : Worker} (hworker : s.workers w = some worker) (hat : ¬s.ClosesAt k worker.stage) : w < k := by
    rw [← Nat.not_le]
    exact fun hw => hat ((h.closers w worker hw hworker).2 (by simp))
  have hcancelled {worker : Worker} (hworker : s.workers w = some worker) (hw : w < k)
      (hlive : ∀ outcome, worker.stage ≠ .ended outcome) (hawaits : worker.stage.awaits = none) :
      s.cancelled (.worker w) = true := (h.earlier w worker hw hworker hlive).2.2 hawaits
  have hcloser {worker : Worker} (hworker : s.workers w = some worker) (hheeds : worker.stage.heeds = false)
      (hlive : ∀ outcome, worker.stage ≠ .ended outcome) :
      k ≤ w ∧ (s.workers w).map Worker.purpose = some .close ∧ s.ClosesAt k worker.stage := by
    by_cases hw : w < k
    · rw [(h.earlier w worker hw hworker hlive).2.1] at hheeds
      cases hheeds
    · obtain ⟨hpurpose, hat⟩ := h.closers w worker (Nat.le_of_not_lt hw) hworker
      exact ⟨Nat.le_of_not_lt hw, by rw [hworker, Option.map_some, hpurpose], hat (by simp)⟩
  unfold Session.runWorker at hrun
  dsimp only at hrun
  split at hrun
  · obtain ⟨worker, hworker, hcreated⟩ := hstage ‹_›
    have hw := hearlier hworker (by rw [hcreated]; exact id)
    rw [if_pos (hcancelled hworker hw (by rw [hcreated]; simp) (by rw [hcreated]; rfl))] at hrun
    cases hrun
    exact closing_cancelled h hw hworker s.lockLine
  · obtain ⟨worker, hworker, hsleeping⟩ := hstage ‹_›
    have hw := hearlier hworker (by rw [hsleeping]; exact id)
    rw [if_pos (hcancelled hworker hw (by rw [hsleeping]; simp) (by rw [hsleeping]; rfl))] at hrun
    cases hrun
    exact closing_cancelled h hw hworker s.lockLine
  · obtain ⟨worker, hworker, hlocking⟩ := hstage ‹_›
    have hw := hearlier hworker (by rw [hlocking]; exact id)
    rw [if_pos (hcancelled hworker hw (by rw [hlocking]; simp) (by rw [hlocking]; rfl))] at hrun
    cases hrun
    exact closing_cancelled h hw hworker _
  · rename_i auto _
    obtain ⟨worker, hworker, hawaiting⟩ := hstage ‹_›
    obtain ⟨hw, hpurpose, hat⟩ := hcloser hworker (by rw [hawaiting]; rfl) (by rw [hawaiting]; simp)
    rw [hawaiting] at hat
    obtain ⟨hended, ⟨⟩⟩ := Option.ite_none_right_eq_some.mp hrun
    have halone := alone_of_ended h hat hended
    refine closing_stopReply (s := { s with autoTask := none }) ?_ hs hw hpurpose halone
    refine ⟨h.past, h.epoch, h.stopped, h.loops, fun v found hv hfound hlive => ?_, fun v found hv hfound => ?_⟩
    · obtain ⟨outcome, hended⟩ := halone v found hv hfound
      exact absurd hended (hlive outcome)
    · obtain ⟨hclose, hbefore⟩ := h.closers v found hv hfound
      exact ⟨hclose, fun _ => (hbefore (by simp)).of_same (.inr rfl) (.inl rfl) id fun halone => halone⟩
  · rename_i l _
    obtain ⟨worker, hworker, hstopping⟩ := hstage ‹_›
    obtain ⟨hw, hpurpose, hat⟩ := hcloser hworker (by rw [hstopping]; rfl) (by rw [hstopping]; simp)
    rw [hstopping] at hat
    obtain ⟨hended, ⟨⟩⟩ := Option.ite_none_right_eq_some.mp hrun
    refine closing_replyStopped (h.runs w) hs hw hpurpose (fun other => ?_) hat.2
    rw [← Bool.not_eq_false]
    intro hruns
    have htask := h.loops other hruns
    rcases hat.1 with hsome | hnone
    · rw [hsome] at htask
      cases htask
      rw [hended] at hruns
      cases hruns
    · rw [hnone] at htask
      cases htask
  · cases hrun

theorem cancelled_cancelWorker {worker : Worker} (hworker : s.workers w = some worker)
    (hlive : ∀ outcome, worker.stage ≠ .ended outcome) (hheeds : worker.stage.heeds = true) :
    (s.cancelWorker w).cancelled (.worker w) = true := by
  unfold Session.cancelWorker
  rw [hworker, Option.map_some]
  split
  · rename_i hnone
    cases hnone
  · rename_i hended
    exact absurd (Option.some.inj hended) (hlive _)
  · rename_i hstopping
    rw [Option.some.inj hstopping] at hheeds
    cases hheeds
  · rename_i hawaiting
    rw [Option.some.inj hawaiting] at hheeds
    cases hheeds
  · exact if_pos rfl

theorem still_cancelWorker (s : Session) (w : WorkerId) : Still s (s.cancelWorker w) := by
  unfold Session.cancelWorker
  split
  any_goals exact .refl s
  refine ⟨rfl, rfl, rfl, rfl, rfl, id, fun _ => id, fun v hv _ _ => ?_, id⟩
  by_cases heq : Owner.worker v = .worker w
  · exact if_pos heq
  · exact (if_neg heq).trans hv

theorem closing_close (hs : s.Orderly) (hk : k ≤ s.nextWorker) (hloops : ∀ l, s.loopEnded l = false → s.replyTask = some l)
    (hearlier : ∀ w worker, w < k → s.workers w = some worker → (∀ outcome, worker.stage ≠ .ended outcome) →
      s.autoTask = some w ∧ worker.stage.heeds = true)
    (hclosers : ∀ w worker, k ≤ w → s.workers w = some worker → worker.purpose = .close ∧ s.ClosesAt k worker.stage) :
    s.close.Closing none k s.epoch := by
  unfold Session.close
  extract_lets w t
  have hworkers (v : WorkerId) : t.workers v = if v = s.nextWorker then some ⟨.close, .created⟩ else s.workers v := rfl
  have hbefore {v : WorkerId} (hv : v < k) : t.workers v = s.workers v := by
    rw [hworkers, if_neg (Nat.ne_of_lt (Nat.lt_of_lt_of_le hv hk))]
  have hpurpose : (t.workers w).map Worker.purpose = some .close := by
    rw [hworkers, if_pos rfl]
    rfl
  have halone (halone : s.Alone k) : t.Alone k := fun v worker hv hworker => halone v worker hv ((hbefore hv).symm.trans hworker)
  have hbase {u : Session} (hsame : Still t u)
      (hflags : ∀ v worker, v < k → s.workers v = some worker → (∀ outcome, worker.stage ≠ .ended outcome) →
        worker.stage.awaits = none → u.cancelled (.worker v) = true) : u.Closing (some w) k s.epoch := by
    refine ⟨?_, hsame.epoch, hsame.started rfl, fun l hl => ?_, fun v worker hv hworker hlive => ?_,
      fun v worker hv hworker => ?_⟩
    · rw [hsame.nextWorker]
      exact Nat.le_succ_of_le hk
    · rw [hsame.replyTask]
      refine hloops l ?_
      rw [← Bool.not_eq_true] at hl ⊢
      exact fun hended => hl (hsame.loops l hended)
    · rw [hsame.workers, hbefore hv] at hworker
      obtain ⟨hauto, hheeds⟩ := hearlier v worker hv hworker hlive
      exact ⟨hsame.autoTask.trans hauto, hheeds, hflags v worker hv hworker hlive⟩
    · rw [hsame.workers, hworkers] at hworker
      split at hworker
      · rename_i heq
        cases hworker
        exact ⟨rfl, fun hx => absurd (congrArg some heq.symm) hx⟩
      · obtain ⟨hclose, hat⟩ := hclosers v worker hv hworker
        refine ⟨hclose, fun _ => hat.of_same (.inl hsame.autoTask) (.inl hsame.replyTask) hsame.closed fun hbefore => ?_⟩
        unfold Session.Alone
        rw [hsame.workers]
        exact halone hbefore
  have hstop (hnone : ∀ v worker, v < k → s.workers v = some worker → (∀ outcome, worker.stage ≠ .ended outcome) → False) :
      (t.stopReply w).Closing none k s.epoch := by
    refine closing_stopReply (hbase (.refl t) fun v worker hv hworker hlive => (hnone v worker hv hworker hlive).elim) hs hk
      hpurpose (halone fun v worker hv hworker => ?_)
    by_contra hnot
    exact hnone v worker hv hworker fun outcome heq => hnot ⟨outcome, heq⟩
  split
  · rename_i auto hauto
    have hauto : s.autoTask = some auto := hauto
    split
    · rename_i hended
      refine hstop fun v worker hv hworker hlive => ?_
      obtain ⟨htask, -⟩ := hearlier v worker hv hworker hlive
      rw [hauto] at htask
      cases htask
      rw [runs_of_live ((hbefore hv).trans hworker) hlive] at hended
      cases hended
    · refine closing_setStage (hbase (still_cancelWorker t auto) fun v worker hv hworker hlive _ => ?_) hk
        (.inl ((still_cancelWorker t auto).autoTask.trans hauto))
      obtain ⟨htask, hheeds⟩ := hearlier v worker hv hworker hlive
      rw [hauto] at htask
      cases htask
      exact cancelled_cancelWorker ((hbefore hv).trans hworker) hlive hheeds
  · rename_i hauto
    have hauto : s.autoTask = none := hauto
    refine hstop fun v worker hv hworker hlive => ?_
    obtain ⟨htask, -⟩ := hearlier v worker hv hworker hlive
    rw [hauto] at htask
    cases htask

theorem closing_runLoop {l : LoopId} (h : s.Closing none k n) (hstays : s.StaysClosed (.runLoop l))
    (hstep : s.step (.runLoop l) = some s') : s'.Closing none k n := by
  have hrun : s.runLoop l = some s' := hstep
  unfold Session.runLoop at hrun
  split at hrun
  · rename_i hloop
    have hmuted (reason : String) (hended : s'.loops l = some (.ended (.connectionLost reason))) : s.Muted :=
      hstays.unheard (.received l s' reason rfl hstep hended)
    have hruns : s.loopEnded l = false := by rw [Session.loopEnded, hloop]
    split at hrun
    · cases hrun
      have hcleared : Still s (s.setCancelled (.loop l) false) :=
        .of_crew rfl (fun _ => by simp [Session.setCancelled]) fun hclosed => hclosed
      exact closing_still h (hcleared.trans (still_loopRaised (by simp)))
    · cases hrun
      exact closing_still h (still_receiveNext hruns hmuted)
  · cases hrun

theorem closing_step (h : s.Closing none k n) (hs : s.Orderly) (hstays : s.StaysClosed e) (hstep : s.step e = some s') :
    s'.Closing none k n := by
  cases e with
  | start => exact absurd rfl hstays.uncalled.1
  | reconnect => exact absurd rfl hstays.uncalled.2.1
  | coordinate policy => exact absurd rfl (hstays.uncalled.2.2 policy)
  | close =>
    cases hstep
    rw [← h.epoch]
    exact closing_close hs h.past h.loops (fun w worker hw hworker hlive =>
      ⟨(h.earlier w worker hw hworker hlive).1, (h.earlier w worker hw hworker hlive).2.1⟩)
      fun w worker hw hworker => (h.closers w worker hw hworker).imp_right fun hat => hat (by simp)
  | request args generated =>
    obtain ⟨-, ⟨⟩⟩ := Option.ite_none_left_eq_some.mp hstep
    exact closing_still h (still_request s args generated)
  | operate op =>
    cases hstep
    exact closing_still h (still_call s none op)
  | conn epoch e =>
    obtain ⟨m, hmove⟩ := move_of_step hstep
    exact closing_move h hstays hstep hmove
  | interrupt epoch id =>
    obtain ⟨m, hmove⟩ := move_of_interrupt hstep
    exact closing_move h hstays hstep hmove
  | runWorker w => exact closing_runWorker h hs hstep
  | runLoop l => exact closing_runLoop h hstays hstep
  | wakeRequest r =>
    have hwake : s.wakeRequest r = some s' := hstep
    unfold Session.wakeRequest at hwake
    split at hwake
    · obtain ⟨outcome, -, rfl⟩ := Option.map_eq_some_iff.mp hwake
      exact closing_still h (still_replied s r _ outcome)
    · cases hwake
  | expireRequest r =>
    have hexpire : s.expireRequest r = some s' := hstep
    unfold Session.expireRequest at hexpire
    split at hexpire
    · obtain ⟨-, ⟨⟩⟩ := Option.ite_none_left_eq_some.mp hexpire
      exact closing_still h (.of_crew rfl (fun _ => rfl) id)
    · cases hexpire
  | cancelRequest r =>
    have hcancel : s.cancelRequest r = some s' := hstep
    unfold Session.cancelRequest at hcancel
    split at hcancel
    · cases hcancel
      exact closing_still h (.of_crew rfl (fun _ => by simp [Session.setCancelled]) fun hclosed => hclosed)
    · cases hcancel
      exact closing_still h (.of_crew rfl (fun _ => rfl) id)
    · cases hcancel

/-- The run lemma: while the session stays closed, each of its states is that of a session that closes. -/
theorem closing_run {es : List SessionEvent} (h : s.Closing none k n) (hs : s.Orderly)
    (hstays : Admits Session.step Session.StaysClosed s es) (hrun : run Session.step s es = some s') :
    s'.Closing none k n := by
  induction es generalizing s with
  | nil =>
    cases hrun
    exact h
  | cons e es ih =>
    obtain ⟨t, hstep, hrest⟩ := Option.bind_eq_some_iff.mp hrun
    simp only [Admits, hstep] at hstays
    exact ih (closing_step h hs hstays.1 hstep) (orderly_step hs hstep) hstays.2 hrest

theorem closedSince_of_closing (h : s'.Closing none s.nextWorker s.epoch) : s.ClosedSince s' where
  created w worker hworker hpurpose := by
    rw [← Nat.not_le]
    exact fun hw => hpurpose (h.closers w worker hw hworker).1
  epoch := h.epoch
  replies := by rw [Session.replyQueueOpen, h.stopped, Bool.and_false]
  returned w result hw hworker := by
    obtain ⟨htask, hclosed, halone⟩ := (h.closers w _ hw hworker).2 (by simp)
    refine ⟨hclosed, fun l => ?_, fun v worker hfound hpurpose => halone v worker ?_ hfound⟩
    · rw [← Bool.not_eq_false]
      intro hruns
      rw [h.loops l hruns] at htask
      cases htask
    · rw [← Nat.not_le]
      exact fun hv => hpurpose (h.closers v worker hv hfound).1

end Closing

/-- A session that is calm when it is closed stays closed in every run that keeps it so. -/
theorem closedSince_of_calm (settings : Settings) {s s' : Session} {es : List SessionEvent}
    (h : Reaches Session.step (Session.new settings) s) (hcalm : s.Calm)
    (hstays : Admits Session.step Session.StaysClosed s.close es) (hrun : run Session.step s.close es = some s') :
    s.ClosedSince s' := by
  have hs : s.Orderly := h.invariant (orderly_new settings) fun _ _ _ hinv _ hstep => orderly_step hinv hstep
  have hstaffed := staffed_reaches h
  have hclosing : s.close.Closing none s.nextWorker s.epoch :=
    closing_close hs le_rfl hcalm.loops (fun w worker _ hworker hlive => hcalm.workers w worker hworker hlive)
      fun w worker hw hworker => by
        rw [hstaffed.workers w hw] at hworker
        cases hworker
  exact closedSince_of_closing (closing_run hclosing (orderly_step (e := .close) hs rfl) hstays hrun)

/-! ## A session that is closed -/

def Session.calmly (s : Session) : Bool :=
  ((List.range s.nextWorker).all fun w => s.workerEnded w ||
    (s.autoTask = some w && (s.workers w).all fun worker => worker.stage.heeds)) &&
  (List.range s.nextLoop).all fun l => s.loopEnded l || s.replyTask = some l

theorem calm_of_calmly {s : Session} (hs : s.Staffed) (h : s.calmly = true) : s.Calm := by
  obtain ⟨hworkers, hloops⟩ := Bool.and_eq_true_iff.mp h
  refine ⟨fun w worker hworker hlive => ?_, fun l hruns => ?_⟩
  · have hw := List.all_eq_true.mp hworkers w (List.mem_range.mpr (hs.lt_nextWorker hworker))
    rw [runs_of_live hworker hlive, hworker, Bool.false_or, Option.all_some] at hw
    obtain ⟨hauto, hheeds⟩ := Bool.and_eq_true_iff.mp hw
    exact ⟨of_decide_eq_true hauto, hheeds⟩
  · have hloop : s.loops l ≠ none := by
      intro hnone
      rw [Session.loopEnded, hnone] at hruns
      cases hruns
    have hl := List.all_eq_true.mp hloops l (List.mem_range.mpr (hs.lt_nextLoop hloop))
    rw [hruns, Bool.false_or] at hl
    exact of_decide_eq_true hl

def Session.shutly (s : Session) (e : SessionEvent) : Bool :=
  (match e with
    | .start | .reconnect | .coordinate _ => false
    | _ => true) &&
  (s.lossHandled || s.settings.policy.failOutstanding || s.autoRunning ||
    ((s.move e).all fun m => !m.link.wired || m.link.client.conn.lost.isSome || m.after.conn.lost.isNone) &&
      match s.actor e with
      | .loop l => (s.step e).all fun s' =>
        match s'.loops l with
        | some (.ended (.connectionLost _)) => false
        | _ => true
      | _ => true) &&
  match s.callEnds e with
  | some (_, _, .error .cancelledError) | none => true
  | some (_, id, _) => s.autoTask.all fun w => s.owners id ≠ some (.worker w)

theorem staysClosed_of_shutly {s : Session} {e : SessionEvent} (h : s.shutly e = true) : s.StaysClosed e := by
  unfold Session.shutly at h
  obtain ⟨h, hends⟩ := Bool.and_eq_true_iff.mp h
  obtain ⟨hevent, hheard⟩ := Bool.and_eq_true_iff.mp h
  refine ⟨?_, fun hhears hhandled hpolicy => ?_, fun w epoch id outcome hauto hcall howner => ?_⟩
  · refine ⟨?_, ?_, ?_⟩
    · rintro rfl
      cases hevent
    · rintro rfl
      cases hevent
    · rintro policy rfl
      cases hevent
  · rw [hhandled, hpolicy, Bool.false_or, Bool.false_or] at hheard
    rcases Bool.or_eq_true_iff.mp hheard with hrunning | hquiet
    · exact hrunning
    · obtain ⟨hmove, hloop⟩ := Bool.and_eq_true_iff.mp hquiet
      cases hhears with
      | reported m hm hwired hbefore hlost =>
        rw [hm, Option.all_some, hwired, hbefore] at hmove
        simp only [Bool.not_true, Option.isSome_none, Bool.false_or, Option.isNone_iff_eq_none] at hmove
        exact absurd hmove hlost
      | received l s' reason hactor hstep hended =>
        rw [hactor] at hloop
        simp only [hstep, Option.all_some, hended] at hloop
        cases hloop
  · rw [hcall] at hends
    split at hends
    · rename_i heq
      simp only [Option.some.injEq, Prod.mk.injEq] at heq
      exact heq.2.2
    · rename_i heq
      cases heq
    · rename_i heq
      simp only [Option.some.injEq, Prod.mk.injEq] at heq
      rw [hauto, Option.all_some] at hends
      obtain ⟨-, rfl, -⟩ := heq
      exact absurd howner (of_decide_eq_true hends)

def lossReported : List SessionEvent :=
  sessionStarted ++ [.conn 0 (.task (.lose (.connectionLost "heartbeat"))), .conn 0 (.wakeJob 4)]

def closedMeanwhile : List SessionEvent :=
  [.runWorker 1, .runWorker 2, .conn 0 (.resumed 5 none), .conn 0 (.expire 5), .conn 0 (.wakeJob 5), .conn 0 (.resumed 5 none),
    .conn 0 (.resumed 5 none)]

def Session.workerReturned (s : Session) (w : WorkerId) : Bool :=
  match s.workers w with
  | some ⟨.close, .ended (.ok _)⟩ => true
  | _ => false

/-- `close` waits for the cancelled task, then stops what is left, and nothing is reopened. -/
theorem closedMeanwhile_closedSince : ∃ s s', run Session.step (Session.new (settingsWith {})) lossReported = some s ∧
    s.autoRunning = true ∧ run Session.step s.close closedMeanwhile = some s' ∧ s'.workerReturned s.nextWorker = true ∧
      s.ClosedSince s' := by
  have hrun : (run Session.step (Session.new (settingsWith {})) lossReported).any (fun s =>
      s.autoRunning = true ∧ s.calmly = true ∧
        Admits Session.step (fun s e => s.shutly e = true) s.close closedMeanwhile ∧
          (run Session.step s.close closedMeanwhile).any (fun s' => s'.workerReturned s.nextWorker) = true) = true := by
    decide +kernel
  obtain ⟨s, hs, hstate⟩ := (Option.any_eq_true _ _).mp hrun
  obtain ⟨hrunning, hcalm, hshut, hany⟩ := of_decide_eq_true hstate
  obtain ⟨s', hs', hreturned⟩ := (Option.any_eq_true _ _).mp hany
  have hreaches := reaches_of_run hs (admits_true _ _)
  have hstays := admits_mono hshut fun _ _ => staysClosed_of_shutly
  exact ⟨s, s', hs, hrunning, hs', hreturned,
    closedSince_of_calm (settingsWith {}) hreaches (calm_of_calmly (staffed_reaches hreaches) hcalm) hstays hs'⟩

/-- The broker goes away while `close` waits for the reply loop, and an auto-reconnect task is created. -/
theorem eofWhileClosing_not_closedSince : ¬∀ (s s' : Session) (es : List SessionEvent),
    Reaches Session.step (Session.new (settingsWith {})) s →
      (∀ e ∈ es, e ≠ .start ∧ e ≠ .reconnect ∧ ∀ policy, e ≠ .coordinate policy) →
        run Session.step s.close es = some s' → s.ClosedSince s' := by
  intro hall
  have hrun : (run Session.step (Session.new (settingsWith {})) sessionStarted).any (fun s =>
      s.nextWorker = 1 ∧ (run Session.step s.close [.conn 0 (.task .eof)]).any (fun s' =>
        (s'.workers 2).any fun worker => worker.purpose = .auto 1) = true) = true := by
    decide +kernel
  obtain ⟨s, hs, hstate⟩ := (Option.any_eq_true _ _).mp hrun
  obtain ⟨hnext, hany⟩ := of_decide_eq_true hstate
  obtain ⟨s', hs', hworker⟩ := (Option.any_eq_true _ _).mp hany
  obtain ⟨worker, hworker, hpurpose⟩ := (Option.any_eq_true _ _).mp hworker
  have hclosed := hall s s' _ (reaches_of_run hs (admits_true _ _)) (by simp) hs'
  have hlt := hclosed.created 2 worker hworker (by rw [of_decide_eq_true hpurpose]; simp)
  rw [hnext] at hlt
  exact absurd hlt (by decide)

end Nuropb.Sessions
