import Nuropb.Sessions.RequestSteps

/-! # The tasks of a session

Workers and reply loops are created under the next number, and stay what they were created for.
-/
namespace Nuropb.Sessions

open Library Transport

/-- Workers and loops are created and go on, and the auto-reconnect task is replaced or forgotten. -/
inductive Staffs : Session → Session → Prop
  | same {s s' : Session} (hworkers : s'.workers = s.workers) (hnextWorker : s'.nextWorker = s.nextWorker)
      (hauto : s'.autoTask = s.autoTask ∨ s'.autoTask = none) (hloops : s'.loops = s.loops)
      (hnextLoop : s'.nextLoop = s.nextLoop) : Staffs s s'
  | setWorker (s : Session) {w : WorkerId} {worker after : Worker} (hworker : s.workers w = some worker)
      (hauto : ∀ attempt, worker.purpose = .auto attempt → ∃ next, after.purpose = .auto next) :
      Staffs s (s.setWorker w after)
  | newWorker (s : Session) (purpose : Purpose) : Staffs s (s.newWorker purpose)
  | createAuto (s : Session) : Staffs s s.createAuto
  | setLoop (s : Session) {l : LoopId} (stage : LoopStage) (hloop : s.loops l ≠ none) : Staffs s (s.setLoop l stage)
  | createLoop (s : Session) : Staffs s s.createLoop
  | trans {s s' s'' : Session} (h : Staffs s s') (h' : Staffs s' s'') : Staffs s s''

/-- The numbers to come are free, and the auto-reconnect task is one. -/
structure Session.Staffed (s : Session) : Prop where
  workers : ∀ w, s.nextWorker ≤ w → s.workers w = none
  loops : ∀ l, s.nextLoop ≤ l → s.loops l = none
  auto : ∀ w, s.autoTask = some w → ∃ attempt stage, s.workers w = some ⟨.auto attempt, stage⟩

section Rules

variable {s s' s'' : Session} {w : WorkerId}

theorem Staffs.of_same (hworkers : s'.workers = s.workers) (hnextWorker : s'.nextWorker = s.nextWorker)
    (hauto : s'.autoTask = s.autoTask) (hloops : s'.loops = s.loops) (hnextLoop : s'.nextLoop = s.nextLoop) :
    Staffs s s' :=
  .same hworkers hnextWorker (.inl hauto) hloops hnextLoop

theorem Staffs.refl (s : Session) : Staffs s s := .of_same rfl rfl rfl rfl rfl

theorem Staffs.of_crew (h : s'.crew = s.crew) : Staffs s s' :=
  .of_same (congrArg Crew.workers h) (congrArg Crew.nextWorker h) (congrArg Crew.autoTask h) (congrArg Crew.loops h)
    (congrArg Crew.nextLoop h)

theorem Session.Staffed.lt_nextWorker (h : s.Staffed) {worker : Worker} (hworker : s.workers w = some worker) :
    w < s.nextWorker := by
  rw [← Nat.not_le]
  intro hle
  rw [h.workers w hle] at hworker
  cases hworker

theorem Session.Staffed.lt_nextLoop (h : s.Staffed) {l : LoopId} (hloop : s.loops l ≠ none) : l < s.nextLoop := by
  rw [← Nat.not_le]
  exact fun hle => hloop (h.loops l hle)

theorem staffed_setWorker (hs : s.Staffed) {worker after : Worker} (hworker : s.workers w = some worker)
    (hauto : ∀ attempt, worker.purpose = .auto attempt → ∃ next, after.purpose = .auto next) :
    (s.setWorker w after).Staffed := by
  refine ⟨fun v hv => ?_, hs.loops, fun v hv => ?_⟩
  · exact (if_neg (Nat.ne_of_gt (Nat.lt_of_lt_of_le (hs.lt_nextWorker hworker) hv))).trans (hs.workers v hv)
  · obtain ⟨attempt, stage, hbefore⟩ := hs.auto v hv
    by_cases heq : v = w
    · subst heq
      rw [hworker] at hbefore
      cases hbefore
      obtain ⟨next, hnext⟩ := hauto attempt rfl
      exact ⟨next, after.stage, (if_pos rfl).trans (congrArg some (by rw [← hnext]))⟩
    · exact ⟨attempt, stage, (if_neg heq).trans hbefore⟩

theorem staffed_newWorker (hs : s.Staffed) (worker : Worker) {auto : Option WorkerId}
    (hauto : auto = s.autoTask ∨ auto = some s.nextWorker ∧ ∃ attempt, worker.purpose = .auto attempt) :
    Session.Staffed { s.setWorker s.nextWorker worker with nextWorker := s.nextWorker + 1, autoTask := auto } := by
  refine ⟨fun v hv => ?_, hs.loops, fun v hv => ?_⟩
  · have hlt : s.nextWorker < v := hv
    exact (if_neg (Nat.ne_of_gt hlt)).trans (hs.workers v hlt.le)
  · have hv : auto = some v := hv
    rcases hauto with rfl | ⟨rfl, attempt, hpurpose⟩
    · obtain ⟨attempt, stage, hbefore⟩ := hs.auto v hv
      exact ⟨attempt, stage, (if_neg (Nat.ne_of_lt (hs.lt_nextWorker hbefore))).trans hbefore⟩
    · cases hv
      exact ⟨attempt, worker.stage, (if_pos rfl).trans (congrArg some (by rw [← hpurpose]))⟩

theorem Staffs.staffed (h : Staffs s s') (hs : s.Staffed) : s'.Staffed := by
  induction h with
  | same hworkers hnextWorker hauto hloops hnextLoop =>
      refine ⟨?_, ?_, fun w hw => ?_⟩
      · rw [hworkers, hnextWorker]
        exact hs.workers
      · rw [hloops, hnextLoop]
        exact hs.loops
      · rcases hauto with hauto | hauto
        · rw [hauto] at hw
          rw [hworkers]
          exact hs.auto w hw
        · rw [hauto] at hw
          cases hw
  | setWorker s hworker hauto => exact staffed_setWorker hs hworker hauto
  | newWorker s purpose => exact staffed_newWorker hs _ (.inl rfl)
  | createAuto s => exact staffed_newWorker hs _ (.inr ⟨rfl, 1, rfl⟩)
  | setLoop s stage hloop =>
      refine ⟨hs.workers, fun l hl => ?_, hs.auto⟩
      exact (if_neg (Nat.ne_of_gt (Nat.lt_of_lt_of_le (hs.lt_nextLoop hloop) hl))).trans (hs.loops l hl)
  | createLoop s =>
      refine ⟨hs.workers, fun l hl => ?_, hs.auto⟩
      have hlt : s.nextLoop < l := hl
      exact (if_neg (Nat.ne_of_gt hlt)).trans (hs.loops l hlt.le)
  | trans _ _ ih ih' => exact ih' (ih hs)

theorem Staffs.nextWorker_le (h : Staffs s s') : s.nextWorker ≤ s'.nextWorker := by
  induction h with
  | same _ hnextWorker => exact hnextWorker.ge
  | newWorker | createAuto => exact Nat.le_succ _
  | trans _ _ ih ih' => exact ih.trans ih'
  | _ => exact le_rfl

/-- An auto-reconnect task was the one before, or has been created. -/
theorem Staffs.autoTask (h : Staffs s s') (hauto : s'.autoTask = some w) : s.autoTask = some w ∨ s.nextWorker ≤ w := by
  induction h with
  | same _ _ hbefore =>
      rcases hbefore with heq | hnone
      · exact .inl (heq.symm.trans hauto)
      · rw [hnone] at hauto
        cases hauto
  | createAuto =>
      cases hauto
      exact .inr le_rfl
  | trans h _ ih ih' => exact (ih' hauto).elim ih fun hle => .inr (h.nextWorker_le.trans hle)
  | _ => exact .inl hauto

end Rules

section Tasks

variable {s s' : Session}

/-! ### Losses and reply loops -/

theorem staffs_onConnectionLost (s : Session) (e : Exc) : Staffs s (s.onConnectionLost e) := by
  unfold Session.onConnectionLost
  split
  · exact .refl s
  · extract_lets t
    have hmarked : Staffs s t := .of_same rfl rfl rfl rfl rfl
    split
    · exact hmarked.trans (.of_same rfl rfl rfl rfl rfl)
    · split
      · exact hmarked
      · exact hmarked.trans (.createAuto t)

theorem staffs_loopRaised {l : LoopId} (hloop : s.loops l ≠ none) (e : Exc) : Staffs s (s.loopRaised l e) := by
  unfold Session.loopRaised
  split
  · exact .setLoop s _ hloop
  · exact (staffs_onConnectionLost s _).trans (.setLoop _ _ (by rwa [(hearsOnly_onConnectionLost s _).loops]))
  · have hfailed : Staffs s (s.failOutstanding (s.settings.text e)) := .of_same rfl rfl rfl rfl rfl
    exact hfailed.trans (.setLoop _ _ hloop)

theorem staffs_onReply {l : LoopId} (hloop : s.loops l ≠ none) (msg : IncomingMessage) : Staffs s (s.onReply l msg) := by
  unfold Session.onReply
  extract_lets t id t'
  have hcrew : t'.crew = s.crew := by
    dsimp only [t']
    have ht : t.crew = s.crew := by
      dsimp only [t]
      split <;> rfl
    exact ht
  have hloop' : t'.loops l ≠ none := by rwa [show t'.loops = s.loops from congrArg Crew.loops hcrew]
  split
  · exact (Staffs.of_crew hcrew).trans (staffs_loopRaised hloop' _)
  · exact (Staffs.of_crew hcrew).trans (.setLoop _ _ hloop')

theorem staffs_receiveNext {l : LoopId} (hloop : s.loops l ≠ none) : Staffs s (s.receiveNext l) := by
  unfold Session.receiveNext
  extract_lets id taken t
  have hcalled : Staffs s t := .of_same rfl rfl rfl rfl rfl
  have hloop' : t.loops l ≠ none := hloop
  split
  · exact hcalled.trans (staffs_onReply hloop' _)
  · exact hcalled.trans (staffs_loopRaised hloop' _)
  · exact hcalled.trans (.setLoop _ _ hloop')

theorem staffs_loopResumed (s : Session) (l : LoopId) (outcome : Except Exc (Option Text))
    (taken : Option IncomingMessage) : Staffs s (s.loopResumed l outcome taken) := by
  unfold Session.loopResumed
  split
  · rename_i hloop
    exact staffs_onReply (by simp [hloop]) _
  · rename_i hloop
    exact staffs_receiveNext (by simp [hloop])
  · rename_i hloop
    exact staffs_loopRaised (by simp [hloop]) _
  · rename_i hloop
    exact staffs_loopRaised (by simp [hloop]) _
  · exact .refl s

/-! ### Workers -/

theorem workers_setStage {w : WorkerId} {worker : Worker} (hworker : s.workers w = some worker) (stage : Stage) :
    s.setStage w stage = s.setWorker w { worker with stage } := by
  rw [Session.setStage, hworker]

theorem raised_cancelled (s : Session) (w : WorkerId) :
    s.raised w .cancelledError = (s.release w).setStage w (.ended (.error .cancelledError)) := by
  unfold Session.raised
  extract_lets t
  cases (t.workers w).map Worker.purpose with
  | none => rfl
  | some purpose => cases purpose <;> rfl

theorem runs_of_live {w : WorkerId} {worker : Worker} (hworker : s.workers w = some worker)
    (hlive : ∀ outcome, worker.stage ≠ .ended outcome) : s.workerEnded w = false := by
  rw [Session.workerEnded, hworker]
  split
  · rename_i heq
    cases heq
    exact absurd rfl (hlive _)
  · rename_i heq
    cases heq
  · rfl

theorem staffs_setStage (s : Session) (w : WorkerId) (stage : Stage) : Staffs s (s.setStage w stage) := by
  unfold Session.setStage
  split
  · rename_i hworker
    exact .setWorker s hworker fun attempt hpurpose => ⟨attempt, hpurpose⟩
  · exact .refl s

theorem staffs_release (s : Session) (w : WorkerId) : Staffs s (s.release w) := by
  unfold Session.release
  split <;> exact .of_same rfl rfl rfl rfl rfl

theorem staffs_returned (s : Session) (w : WorkerId) : Staffs s (s.returned w) :=
  (staffs_release s w).trans (staffs_setStage _ w _)

theorem staffs_raised (s : Session) (w : WorkerId) (e : Exc) : Staffs s (s.raised w e) := by
  have hreleased : Staffs s (s.release w) := staffs_release s w
  unfold Session.raised
  extract_lets t
  split
  · exact hreleased.trans (staffs_setStage t w _)
  · exact hreleased.trans (staffs_setStage t w _)
  · exact hreleased.trans (staffs_setStage t w _)
  · split
    · have hfailed (message : Text) : Staffs t (t.failOutstanding message) := .of_same rfl rfl rfl rfl rfl
      exact hreleased.trans ((hfailed _).trans (staffs_setStage _ w _))
    · exact hreleased.trans (staffs_setStage t w _)
  · exact hreleased.trans (staffs_setStage t w _)

theorem staffs_republish (s : Session) (w : WorkerId) (entries : List (Text × ParkedPublish)) :
    Staffs s (s.republish w entries) := by
  induction entries generalizing s with
  | nil =>
      rw [Session.republish]
      exact staffs_returned s w
  | cons entry rest ih =>
      obtain ⟨rid, parked⟩ := entry
      rw [Session.republish]
      split
      · extract_lets envelope id t
        have hcalled : Staffs s t := .of_same rfl rfl rfl rfl rfl
        split
        · exact hcalled.trans (staffs_setStage t w _)
        · have hrecorded : Staffs t (t.recordPublish t.epoch envelope) := .of_same rfl rfl rfl rfl rfl
          exact hcalled.trans (hrecorded.trans (ih _))
        · split
          · have hfailed (e : Exc) : Staffs t (t.failPublish rid e) := .of_same rfl rfl rfl rfl rfl
            exact hcalled.trans ((hfailed _).trans (ih _))
          · exact hcalled.trans (staffs_raised t w _)
      · have hforgotten : Staffs s (s.forgetPublish rid) := .of_same rfl rfl rfl rfl rfl
        exact hforgotten.trans (ih _)

theorem staffs_republished (s : Session) (w : WorkerId) (epoch : Nat) (rid : Text) (envelope : ParkedPublish)
    (rest : List (Text × ParkedPublish)) (outcome : Except Exc (Option Text)) :
    Staffs s (s.republished w epoch rid envelope rest outcome) := by
  cases outcome with
  | ok result =>
      have hrecorded : Staffs s (s.recordPublish epoch envelope) := .of_same rfl rfl rfl rfl rfl
      exact hrecorded.trans (staffs_republish _ w rest)
  | error e =>
      rw [Session.republished]
      split
      · have hfailed (e : Exc) : Staffs s (s.failPublish rid e) := .of_same rfl rfl rfl rfl rfl
        exact (hfailed _).trans (staffs_republish _ w rest)
      · exact staffs_raised s w e

theorem staffs_opened (s : Session) (w : WorkerId) : Staffs s (s.opened w) := by
  unfold Session.opened
  split
  · exact staffs_returned s w
  · split
    · exact staffs_returned s w
    · exact staffs_republish s w _

theorem staffs_opens (s : Session) (w : WorkerId) (op : Operation) (step : Opening) : Staffs s (s.opens w op step) := by
  unfold Session.opens
  extract_lets id t
  have hcalled : Staffs s t := .of_same rfl rfl rfl rfl rfl
  split
  · exact hcalled.trans (staffs_raised t w _)
  · exact hcalled.trans (staffs_setStage t w _)

theorem staffs_startConn (s : Session) (w : WorkerId) : Staffs s (s.startConn w) := by
  have hwired : Staffs s { s with lossHandled := false, link := { s.link with wired := true } } :=
    .of_same rfl rfl rfl rfl rfl
  exact hwired.trans (staffs_opens _ w _ _)

theorem staffs_openingEnded (s : Session) (w : WorkerId) (step : Opening) (outcome : Except Exc (Option Text)) :
    Staffs s (s.openingEnded w step outcome) := by
  unfold Session.openingEnded
  split
  · exact staffs_raised s w _
  · exact staffs_opens s w _ _
  · exact staffs_opens s w _ _
  · rename_i queue
    have hqueue : Staffs s { s with replyQueue := queue } := .of_same rfl rfl rfl rfl rfl
    exact hqueue.trans (staffs_opens _ w _ _)
  · have hstarted : Staffs s { s with started := true } := .of_same rfl rfl rfl rfl rfl
    exact hstarted.trans ((Staffs.createLoop _).trans (staffs_opened _ w))

theorem staffs_closed (s : Session) (w : WorkerId) (outcome : Except Exc (Option Text)) :
    Staffs s (s.closed w outcome) := by
  unfold Session.closed
  split
  · exact staffs_setStage s w _
  · exact staffs_raised s w _
  · have hnew : Staffs s s.newConnection := .of_same rfl rfl rfl rfl rfl
    exact hnew.trans (staffs_startConn _ w)

theorem staffs_replyStopped (s : Session) (w : WorkerId) : Staffs s (s.replyStopped w) := by
  unfold Session.replyStopped
  extract_lets id t
  have hcalled : Staffs s t := .of_same rfl rfl rfl rfl rfl
  split
  · exact hcalled.trans (staffs_closed t w _)
  · exact hcalled.trans (staffs_setStage t w _)

theorem staffs_stopReply (s : Session) (w : WorkerId) : Staffs s (s.stopReply w) := by
  unfold Session.stopReply
  split
  · exact staffs_replyStopped s w
  · rename_i l _
    split
    · exact staffs_replyStopped s w
    · have hcancelled : Staffs s (s.setCancelled (.loop l) true) := .of_same rfl rfl rfl rfl rfl
      exact hcancelled.trans (staffs_setStage _ w _)

theorem staffs_reconnectLocked (s : Session) (w : WorkerId) : Staffs s (s.reconnectLocked w) := by
  unfold Session.reconnectLocked
  split
  · exact staffs_returned s w
  · extract_lets t u
    have hfailed : Staffs s u := by
      dsimp only [u]
      split <;> exact .of_same rfl rfl rfl rfl rfl
    exact hfailed.trans (staffs_stopReply u w)

theorem staffs_reconnectFrom (s : Session) (w : WorkerId) : Staffs s (s.reconnectFrom w) := by
  unfold Session.reconnectFrom
  split
  · have hlocked : Staffs s { s with lock := some w } := .of_same rfl rfl rfl rfl rfl
    exact hlocked.trans (staffs_reconnectLocked _ w)
  · have hline : Staffs s { s with lockLine := s.lockLine ++ [w] } := .of_same rfl rfl rfl rfl rfl
    exact hline.trans (staffs_setStage _ w _)

theorem staffs_nextAttempt (s : Session) (w : WorkerId) : Staffs s (s.nextAttempt w) := by
  unfold Session.nextAttempt
  split
  · rename_i hpurpose
    obtain ⟨worker, hworker, hcoordinate⟩ := Option.map_eq_some_iff.mp hpurpose
    refine .trans (.setWorker s hworker fun attempt hauto => ?_) (staffs_reconnectFrom _ w)
    rw [hcoordinate] at hauto
    cases hauto
  · rename_i attempt hpurpose
    obtain ⟨worker, hworker, -⟩ := Option.map_eq_some_iff.mp hpurpose
    exact .trans (.setWorker s hworker fun _ _ => ⟨attempt + 1, rfl⟩) (staffs_reconnectFrom _ w)
  · exact .refl s

theorem staffs_cancelWorker (s : Session) (w : WorkerId) : Staffs s (s.cancelWorker w) := by
  unfold Session.cancelWorker
  split <;> exact .of_same rfl rfl rfl rfl rfl

theorem staffs_close (s : Session) : Staffs s s.close := by
  unfold Session.close
  extract_lets w t
  have hstopped : Staffs s ({ s with started := false }.discardAll .osError) := .of_same rfl rfl rfl rfl rfl
  have hcalled : Staffs s t := hstopped.trans (.newWorker _ .close)
  split
  · split
    · exact hcalled.trans (staffs_stopReply t w)
    · exact hcalled.trans ((staffs_cancelWorker t _).trans (staffs_setStage _ w _))
  · exact hcalled.trans (staffs_stopReply t w)

theorem staffs_workerResumed (s : Session) (w : WorkerId) (epoch : Nat) (outcome : Except Exc (Option Text)) :
    Staffs s (s.workerResumed w epoch outcome) := by
  unfold Session.workerResumed
  split
  · exact staffs_closed s w outcome
  · exact staffs_openingEnded s w _ outcome
  · exact staffs_republished s w epoch _ _ _ outcome
  · exact .refl s

theorem staffs_runWorker {w : WorkerId} (h : s.runWorker w = some s') : Staffs s s' := by
  have hcleared : Staffs s (s.setCancelled (.worker w) false) := .of_same rfl rfl rfl rfl rfl
  unfold Session.runWorker at h
  dsimp only at h
  split at h
  · cases h
    split
    · exact hcleared.trans (staffs_raised _ w _)
    · exact staffs_reconnectFrom s w
  · cases h
    split
    · exact hcleared.trans (staffs_raised _ w _)
    · exact staffs_nextAttempt s w
  · split at h
    · cases h
      have hline : Staffs s { s.setCancelled (.worker w) false with lockLine := s.lockLine.filter (· ≠ w) } :=
        .of_same rfl rfl rfl rfl rfl
      exact hline.trans (staffs_raised _ w _)
    · obtain ⟨-, ⟨⟩⟩ := Option.ite_none_right_eq_some.mp h
      have hlocked : Staffs s { s with lock := some w, lockLine := s.lockLine.tail } := .of_same rfl rfl rfl rfl rfl
      exact hlocked.trans (staffs_reconnectLocked _ w)
  · obtain ⟨-, ⟨⟩⟩ := Option.ite_none_right_eq_some.mp h
    have hauto : Staffs s { s with autoTask := none } := .same rfl rfl (.inr rfl) rfl rfl
    exact hauto.trans (staffs_stopReply _ w)
  · obtain ⟨-, ⟨⟩⟩ := Option.ite_none_right_eq_some.mp h
    exact staffs_replyStopped s w
  · cases h

/-! ### Steps -/

theorem staffs_heard (s : Session) (wired : Bool) (c c' : Client) : Staffs s (s.heard wired c c') := by
  unfold Session.heard
  split
  · split
    · exact staffs_onConnectionLost s _
    · exact .refl s
  · exact .refl s

theorem staffs_resume (s : Session) (epoch : Nat) (id : CallId) (outcome : Except Exc (Option Text))
    (taken : Option IncomingMessage) : Staffs s (s.resume epoch id outcome taken) := by
  unfold Session.resume
  split
  · exact .of_crew (leaves_publishEnded s _ epoch outcome).crew
  · exact staffs_loopResumed s _ outcome taken
  · exact staffs_workerResumed s _ epoch outcome
  · exact .refl s

theorem staffs_moved (s : Session) (epoch : Nat) (link : Link) (c' : Client) (call : Option CallId)
    (taken : Option IncomingMessage) : Staffs s (s.moved epoch link c' call taken) := by
  have hset : Staffs s (s.setLink epoch { link with client := c' }) := by
    unfold Session.setLink
    split <;> exact .of_same rfl rfl rfl rfl rfl
  have hheard := hset.trans (staffs_heard _ link.wired link.client c')
  unfold Session.moved
  extract_lets t
  split
  · exact hheard
  · split
    · exact hheard.trans (staffs_resume t epoch _ _ taken)
    · exact hheard

theorem staffs_step {e : SessionEvent} (h : s.step e = some s') : Staffs s s' := by
  have hmoved {m : Move} (hmove : s.move e = some m) : Staffs s s' := by
    obtain ⟨t, ht, rfl⟩ := step_of_move h hmove
    have hcleared : Staffs s t := by rcases ht with rfl | ⟨owner, rfl⟩ <;> exact .of_same rfl rfl rfl rfl rfl
    exact hcleared.trans (staffs_moved t m.epoch m.link m.after m.call _)
  cases e with
  | start =>
      cases h
      exact (Staffs.newWorker s .start).trans (staffs_startConn _ _)
  | reconnect =>
      cases h
      exact (Staffs.newWorker s .reconnect).trans (staffs_reconnectFrom _ _)
  | coordinate policy =>
      cases h
      exact (Staffs.newWorker s _).trans (staffs_reconnectFrom _ _)
  | close =>
      cases h
      exact staffs_close s
  | request args generated =>
      obtain ⟨-, ⟨⟩⟩ := Option.ite_none_left_eq_some.mp h
      exact .of_crew (leaves_request s args generated).crew
  | operate op =>
      cases h
      exact .of_same rfl rfl rfl rfl rfl
  | conn epoch e =>
      obtain ⟨m, hmove⟩ := move_of_step h
      exact hmoved hmove
  | interrupt epoch id =>
      obtain ⟨m, hmove⟩ := move_of_interrupt h
      exact hmoved hmove
  | runWorker w => exact staffs_runWorker h
  | runLoop l =>
      have hrun : s.runLoop l = some s' := h
      unfold Session.runLoop at hrun
      split at hrun
      · rename_i hloop
        cases hrun
        split
        · have hcleared : Staffs s (s.setCancelled (.loop l) false) := .of_same rfl rfl rfl rfl rfl
          exact hcleared.trans (staffs_loopRaised (by simp [Session.setCancelled, hloop]) _)
        · exact staffs_receiveNext (by simp [hloop])
      · cases hrun
  | wakeRequest r =>
      have hwake : s.wakeRequest r = some s' := h
      unfold Session.wakeRequest at hwake
      split at hwake
      · obtain ⟨outcome, -, rfl⟩ := Option.map_eq_some_iff.mp hwake
        exact .of_crew (leaves_replied s r _ outcome).crew
      · cases hwake
  | expireRequest r =>
      have hexpire : s.expireRequest r = some s' := h
      unfold Session.expireRequest at hexpire
      split at hexpire
      · obtain ⟨-, ⟨⟩⟩ := Option.ite_none_left_eq_some.mp hexpire
        exact .of_same rfl rfl rfl rfl rfl
      · cases hexpire
  | cancelRequest r =>
      have hcancel : s.cancelRequest r = some s' := h
      unfold Session.cancelRequest at hcancel
      split at hcancel
      · cases hcancel
        exact .of_same rfl rfl rfl rfl rfl
      · cases hcancel
        exact .of_same rfl rfl rfl rfl rfl
      · cases hcancel

theorem staffed_new (settings : Settings) : (Session.new settings).Staffed where
  workers _ _ := rfl
  loops _ _ := rfl
  auto _ hauto := by cases hauto

theorem staffed_reaches {settings : Settings} (h : Reaches Session.step (Session.new settings) s) : s.Staffed :=
  h.invariant (staffed_new settings) fun _ _ _ hs _ hstep => (staffs_step hstep).staffed hs

end Tasks

end Nuropb.Sessions
