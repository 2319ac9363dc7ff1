import Nuropb.Sessions.Watching

/-! # No lost wake-up

A request is never left behind on a lost connection: the auto-reconnect task runs, or a reconnect that a caller waits
for. And an open queue has its reply loop.
-/
namespace Nuropb.Sessions

open Library Transport

namespace Session

/-- While a request is pending on a connection that is lost, the auto-reconnect task runs; while the queue is open, its
reply loop runs on the current connection. -/
structure Awake (s : Session) : Prop where
  woken : s.link.client.conn.lost ≠ none → (∃ rid r, s.correlation.pending.get? rid = some r) → s.autoRunning = true
  replies : s.replyQueueOpen = true → ∃ l, s.replyTask = some l ∧ s.RunsOn l

/-- The connection is lost, no reconnect is in progress or scheduled, and a request is pending. -/
structure Dead (s : Session) : Prop where
  lost : s.link.client.conn.lost ≠ none
  idle : ∀ w worker, s.workers w = some worker → worker.purpose.locks = true → s.workerEnded w = true
  pending : ∃ rid r, s.correlation.pending.get? rid = some r

/-- What the steps of a run keep. -/
structure Alert (callers : Bool) (s : Session) : Prop where
  wakeful : s.Wakeful callers none
  orderly : s.Orderly
  ranked : s.Ranked

end Session

/-! ## Losses and reply loops -/

section Losses

variable {callers : Bool} {s s' : Session} {l : LoopId}

theorem wakeful_onConnectionLost (h : s.Wakeful callers none) (exc : Exc) :
    (s.onConnectionLost exc).Wakeful callers none := by
  unfold Session.onConnectionLost
  split
  · exact h
  · extract_lets t
    have hclosed : t.replyQueueOpen = false := rfl
    have hstaged (v : WorkerId) (worker : Worker) (hworker : t.workers v = some worker) : t.Permits worker.stage :=
      (h.staged v worker (by simp) hworker).of_same (fun _ => rfl) id
    have hmarked (hwaked : t.Vacant ∨ ∃ v, t.OnDuty callers v ∧ (none = some v ∨ t.workerEnded v = false)) :
        t.Wakeful callers none := by
      refine ⟨fun _ _ => rfl, fun _ => hclosed, fun _ => hwaked, h.auto, fun hopen => ?_,
        fun hnot => ⟨(h.unwired hnot).1, hclosed⟩, fun v worker _ hworker => hstaged v worker hworker⟩
      rw [hclosed] at hopen
      cases hopen
    split
    · refine ⟨fun _ _ => rfl, fun _ => hclosed, fun _ => .inl (vacant_discardAll t _), h.auto, fun hopen => ?_,
        fun _ => ⟨vacant_discardAll t _, hclosed⟩, fun v worker _ hworker => (hstaged v worker hworker).of_same id id⟩
      cases hopen
    · split
      · rename_i hrunning
        obtain ⟨v, hauto, hruns⟩ := (Option.any_eq_true _ _).mp hrunning
        exact hmarked (.inr ⟨v, .inl hauto, .inr ((Bool.not_eq_true' _).mp hruns)⟩)
      · have hcreated : t.createAuto.workers t.nextWorker = some ⟨.auto 1, .created⟩ := if_pos rfl
        refine ⟨fun _ _ => rfl, fun _ => hclosed, fun _ => .inr ⟨t.nextWorker, .inl rfl, .inr ?_⟩, fun v hv => ?_,
          fun hopen => ?_, fun hnot => ⟨(h.unwired hnot).1, hclosed⟩, fun v worker _ hworker => ?_⟩
        · exact runs_of_live hcreated (by simp)
        · cases hv
          exact ⟨1, .created, hcreated⟩
        · have hopen : t.replyQueueOpen = true := hopen
          rw [hclosed] at hopen
          cases hopen
        · by_cases heq : v = t.nextWorker
          · subst heq
            rw [hcreated] at hworker
            cases hworker
            exact permits_of_outside rfl rfl
          · exact (hstaged v worker ((if_neg heq).symm.trans hworker)).of_same id id

/-- A loop comes to its next await, or ends while the queue is not open. -/
theorem wakeful_setLoop (h : s.Wakeful callers none) {stage : LoopStage} (hruns : s.replyQueueOpen = true →
    (s.setLoop l stage).RunsOn l) : (s.setLoop l stage).Wakeful callers none := by
  refine ⟨h.handled, h.closed, h.waked, h.auto, fun hopen => ?_, h.unwired,
    fun v worker hx hworker => (h.staged v worker hx hworker).of_same id id⟩
  obtain ⟨other, hother, hbefore⟩ := h.looping hopen
  refine ⟨other, hother, ?_⟩
  by_cases heq : other = l
  · rw [heq]
    exact hruns hopen
  · exact hbefore.of_same (if_neg heq) fun _ hfresh => hfresh

theorem wakeful_loopRaised (h : s.Wakeful callers none) {exc : Exc}
    (hexc : s.replyQueueOpen = true → ∃ reason, exc = .connectionLost reason) :
    (s.loopRaised l exc).Wakeful callers none := by
  unfold Session.loopRaised
  split
  · refine wakeful_setLoop h fun hopen => ?_
    obtain ⟨reason, hreason⟩ := hexc hopen
    cases hreason
  · refine wakeful_setLoop (wakeful_onConnectionLost h _) fun hopen => ?_
    rw [(wakeful_onConnectionLost h _).closed (handled_onConnectionLost s _)] at hopen
    cases hopen
  · rename_i hnot
    refine wakeful_setLoop (wakeful_failOutstanding h _) fun hopen => ?_
    obtain ⟨reason, hreason⟩ := hexc hopen
    exact (hnot reason hreason).elim

theorem runsOn_called {stage : LoopStage} {id : CallId} (hstage : stage = .receiving id ∨ stage = .acking id)
    (hfresh : ∀ link ∈ s.previous, link.client.fresh id = true) : (s.setLoop l stage).RunsOn l := by
  have hloop : (s.setLoop l stage).loops l = some stage := if_pos rfl
  unfold Session.RunsOn
  rw [hloop]
  rcases hstage with rfl | rfl
  · exact hfresh
  · exact hfresh

theorem wakeful_onReply (h : s.Wakeful callers none) (hs : s.Orderly) (msg : IncomingMessage)
    (hexc : ∀ exc, (s.onReply l msg).loops l = some (.ended exc) → s.replyQueueOpen = true →
      ∃ reason, exc = .connectionLost reason) : (s.onReply l msg).Wakeful callers none := by
  unfold Session.onReply at hexc ⊢
  extract_lets t id t'
  extract_lets at hexc
  have ht : t.Wakeful callers none ∧ t.replyQueueOpen = s.replyQueueOpen ∧ t.previous = s.previous ∧ t.nextCall = s.nextCall := by
    dsimp only [t]
    split
    · exact ⟨h.of_same rfl fun _ hvacant => vacant_erased hvacant _, rfl, rfl, rfl⟩
    · exact ⟨h, rfl, rfl, rfl⟩
  obtain ⟨ht, hopen, hprevious, hnext⟩ := ht
  have hcalled : t'.Wakeful callers none := wakeful_call ht _ _
  split at hexc
  · exact wakeful_loopRaised hcalled fun hopen' => hexc _ (loops_loopRaised ..) (hopen.symm.trans hopen')
  · refine wakeful_setLoop hcalled fun _ => runsOn_called (.inr rfl) fun link hlink => ?_
    have hlink : link ∈ s.previous := hprevious ▸ hlink
    have hid : id = s.nextCall := hnext
    rw [hid]
    exact (hs link (List.mem_cons_of_mem _ hlink)).fresh _ le_rfl

theorem wakeful_receiveNext (h : s.Wakeful callers none) (hs : s.Orderly) (hexc : ∀ exc,
      (s.receiveNext l).loops l = some (.ended exc) → s.replyQueueOpen = true → ∃ reason, exc = .connectionLost reason) :
    (s.receiveNext l).Wakeful callers none := by
  unfold Session.receiveNext at hexc ⊢
  extract_lets id taken t
  extract_lets at hexc
  have hcalled : t.Wakeful callers none := wakeful_call h _ _
  split at hexc
  · exact wakeful_onReply hcalled (orderly_call hs _ fun _ _ => rfl) _ hexc
  · exact wakeful_loopRaised hcalled fun hopen => hexc _ (loops_loopRaised ..) hopen
  · exact wakeful_setLoop hcalled fun _ => runsOn_called (.inl rfl) fun link hlink =>
      (hs link (List.mem_cons_of_mem _ hlink)).fresh _ le_rfl

theorem wakeful_loopResumed (h : s.Wakeful callers none) (hs : s.Orderly) (outcome : Except Exc (Option Text))
    (taken : Option IncomingMessage) (hexc : ∀ exc, (s.loopResumed l outcome taken).loops l = some (.ended exc) →
      s.replyQueueOpen = true → ∃ reason, exc = .connectionLost reason) :
    (s.loopResumed l outcome taken).Wakeful callers none := by
  unfold Session.loopResumed at hexc ⊢
  split at hexc
  · exact wakeful_onReply h hs _ hexc
  · exact wakeful_receiveNext h hs hexc
  · exact wakeful_loopRaised h fun hopen => hexc _ (loops_loopRaised ..) hopen
  · exact wakeful_loopRaised h fun hopen => hexc _ (loops_loopRaised ..) hopen
  · exact h

end Losses

/-! ## Requests -/

section Requests

variable {callers : Bool} {s s' : Session} {r : RequestId} {x : Option WorkerId}

theorem watch_endRequest (s : Session) (r : RequestId) (outcome : Except Exc IncomingMessage) :
    (s.endRequest r outcome).watch = s.watch ∧ (s.Vacant → (s.endRequest r outcome).Vacant) := by
  unfold Session.endRequest
  split <;> exact ⟨rfl, id⟩

theorem watch_replied (s : Session) (r : RequestId) (request : Request) (outcome : Except Exc IncomingMessage) :
    (s.replied r request outcome).watch = s.watch ∧ (s.Vacant → (s.replied r request outcome).Vacant) := by
  unfold Session.replied
  split
  · split <;> exact watch_endRequest s r _
  · extract_lets t
    have ht : t.watch = s.watch ∧ (s.Vacant → t.Vacant) := by
      dsimp only [t]
      split
      · exact ⟨rfl, id⟩
      · exact ⟨rfl, fun hvacant => vacant_failPublish hvacant _ _⟩
    exact ⟨(watch_endRequest (t.forgetPublish request.rid) r _).1.trans ht.1,
      fun hvacant => (watch_endRequest (t.forgetPublish request.rid) r _).2 (ht.2 hvacant)⟩
  · exact watch_endRequest s r _

theorem watch_publishEnded (s : Session) (r : RequestId) (epoch : Nat) (outcome : Except Exc (Option Text)) :
    (s.publishEnded r epoch outcome).watch = s.watch ∧ (s.Vacant → (s.publishEnded r epoch outcome).Vacant) := by
  unfold Session.publishEnded
  split
  · split
    · unfold Session.awaitReply
      dsimp only
      split
      · exact ⟨rfl, id⟩
      · exact watch_replied _ r _ _
    · split
      · obtain ⟨hwatch, hpending⟩ := watch_endRequest (s.failPublish _ _) r _
        exact ⟨hwatch, fun hvacant => hpending (vacant_failPublish hvacant _ _)⟩
      · exact watch_endRequest s r _
  · exact ⟨rfl, id⟩

theorem watch_request (s : Session) (args : RequestArgs) (generated : Text) :
    (s.request args generated).watch = s.watch ∧ (s.replyQueueOpen = false → s.request args generated = s) := by
  have hclosed : s.replyQueueOpen = false → s.request args generated = s := by
    intro hnot
    unfold Session.request Session.chosenId
    rw [hnot]
    rfl
  refine ⟨?_, hclosed⟩
  unfold Session.request
  split
  · rfl
  · extract_lets r t id
    split
    · rfl
    · extract_lets u
      have hcalled : u.watch = s.watch := watch_call t (some (.request r)) _
      split
      · exact (watch_publishEnded u r _ _).1.trans hcalled
      · exact hcalled

theorem wakeful_request (h : s.Wakeful callers x) (args : RequestArgs) (generated : Text) :
    (s.request args generated).Wakeful callers x := by
  obtain ⟨hwatch, hclosed⟩ := watch_request s args generated
  refine h.of_same hwatch fun hnot hvacant => ?_
  rw [hclosed hnot]
  exact hvacant

end Requests

/-! ## Steps -/

section Steps

variable {callers : Bool} {s s' : Session} {e : SessionEvent} {m : Move}

theorem wakeful_heard (h : s.Wakeful callers none) (wired : Bool) (c c' : Client) :
    (s.heard wired c c').Wakeful callers none := by
  unfold Session.heard
  split
  · split
    · exact wakeful_onConnectionLost h _
    · exact h
  · exact h

/-- A connection takes a step that is heard if it loses the current one. -/
theorem wakeful_setLink (h : s.Wakeful callers none) {epoch : Nat} {link link' : Link} (hlink : s.linkAt epoch = some link)
    (hwired : link'.wired = link.wired)
    (hheard : epoch = s.epoch → link'.wired = true → link'.client.conn.lost ≠ none → s.lossHandled = true)
    (hfresh : ∀ id, link.client.fresh id = true → link'.client.fresh id = true) :
    (s.setLink epoch link').Wakeful callers none := by
  unfold Session.linkAt at hlink
  unfold Session.setLink
  split at hlink
  · rename_i hepoch
    cases hlink
    rw [if_pos hepoch]
    exact ⟨hheard hepoch, h.closed, h.waked, h.auto, h.looping, fun hnot => h.unwired (hwired.symm.trans hnot),
      fun v worker hx hworker => (h.staged v worker hx hworker).of_same id hwired.trans⟩
  · rename_i hepoch
    rw [if_neg hepoch]
    refine ⟨h.handled, h.closed, h.waked, h.auto, fun hopen => ?_, h.unwired,
      fun v worker hx hworker => (h.staged v worker hx hworker).of_same id id⟩
    obtain ⟨l, htask, hruns⟩ := h.looping hopen
    refine ⟨l, htask, ?_⟩
    refine hruns.of_same rfl fun id hbefore other hother => ?_
    rcases List.mem_or_eq_of_mem_set hother with hmem | rfl
    · exact hbefore other hmem
    · exact hfresh id (hbefore link (List.mem_of_getElem? hlink))

/-- The session has heard of what the step does to its connection. -/
theorem wakeful_heardIn (h : s.Wakeful callers none) (hstep : s.step e = some s') : (s.heardIn e).Wakeful callers none := by
  unfold Session.heardIn
  split
  · rename_i m hmove
    have hlink := linkAt_of_move hmove
    rw [setLink_heard]
    refine wakeful_setLink (wakeful_heard h _ _ _) ((linkAt_heard ..).trans hlink) rfl (fun hepoch hwired hlost => ?_)
      fun id => fresh_of_move hstep hmove
    have hheard : m.link.wired = true → m.after.conn.lost ≠ none →
        (s.heard m.link.wired m.link.client m.after).lossHandled = true ∨ m.link.client.conn.lost ≠ none := by
      intro hwired hlost
      unfold Session.heard
      split
      · rw [if_pos hwired]
        exact .inl (handled_onConnectionLost s _)
      · rename_i hnot
        refine .inr fun hbefore => ?_
        obtain ⟨exc, hexc⟩ := Option.ne_none_iff_exists'.mp hlost
        exact hnot exc hbefore hexc
    rcases hheard hwired hlost with hhandled | hbefore
    · exact hhandled
    · have hsame : s.heard m.link.wired m.link.client m.after = s := by
        unfold Session.heard
        split
        · rename_i hnone _
          exact absurd hnone hbefore
        · rfl
      rw [hsame] at hepoch ⊢
      rw [Session.linkAt, if_pos hepoch] at hlink
      have hcurrent : m.link = s.link := (Option.some.inj hlink).symm
      have hwired : m.link.wired = true := hwired
      rw [hcurrent] at hwired hbefore
      exact h.handled hwired hbefore
  · exact h

theorem shut_of_inside {worker : Worker} (hlocks : worker.purpose.locks = true) (hshut : worker.stage.shut = true) :
    worker.lockPhase = .inside := by
  rw [Worker.lockPhase, if_pos hlocks]
  cases hstage : worker.stage with
  | stoppingReply | closingConn | opening => rfl
  | _ =>
    rw [hstage] at hshut
    cases hshut

/-- Of two reconnects one at most is past the lock. -/
theorem unshut_of_ranked (hs : s.Ranked) {v w : WorkerId} {other worker : Worker} (hne : v ≠ w)
    (hother : s.workers v = some other) (hworker : s.workers w = some worker) (hshut : worker.stage.shut = true)
    (hlock : other.stage.shut = false ∨ worker.purpose.locks = true ∧ other.purpose.locks = true) :
    other.stage.shut = false := by
  rcases hlock with hopen | ⟨hlocks, holds⟩
  · exact hopen
  · refine Bool.eq_false_iff.mpr fun hothershut => hne ?_
    have hinside {x : WorkerId} {found : Worker} (hfound : s.workers x = some found) (hlocks : found.purpose.locks = true)
        (hshut : found.stage.shut = true) : s.reconnectLock.phase x = .inside := by
      change ((s.workers x).map Worker.lockPhase).getD .outside = _
      rw [hfound]
      exact shut_of_inside hlocks hshut
    exact hs.exclusive.lone (hinside hother holds hothershut) (hinside hworker hlocks hshut)

/-- While the queue is open, a reply loop ends only with a loss. -/
theorem ended_of_keepsWatch (hs : s.Orderly) (hkeeps : s.KeepsWatch callers e) (hstep : s.step e = some s') {l : LoopId}
    (hactor : s.actor e = .loop l) (hopen : (s.heardIn e).replyQueueOpen = true) {exc : Exc}
    (hended : s'.loops l = some (.ended exc)) : ∃ reason, exc = .connectionLost reason := by
  rcases loop_ended hs hstep hactor (hkeeps.acked hopen) hended with hraises | ⟨he, hcancelled, -⟩ | hlost
  · exact hkeeps.looped hopen l exc hraises
  · rw [hkeeps.uncancelled hopen l he] at hcancelled
    cases hcancelled
  · exact hlost

theorem mayFinish_of_move {u : Session} {w : WorkerId} {epoch : Nat} {id : CallId} {outcome : Except Exc (Option Text)}
    (hkeeps : s.KeepsWatch callers e) (hends : s.callEnds e = some (epoch, id, outcome))
    (howner : s.owners id = some (.worker w)) (hawaits : s.awaits (.worker w) = some id)
    (hu : u = s.heardIn e ∨ ∃ owner, u = (s.heardIn e).setCancelled owner false) :
    u.MayFinish callers w outcome := by
  have hrefused : s.refused e = (s.heardIn e).refusals w outcome := by
    rw [Session.refused, hends]
    dsimp only
    rw [howner, Option.filter_some, if_pos (decide_eq_true hawaits)]
  have hheard : (s.heardIn e).MayFinish callers w outcome := by
    intro hon hfinishes
    rw [← hrefused]
    exact hkeeps.finished w hon (.resumed hends howner hawaits hfinishes)
  rcases hu with rfl | ⟨owner, rfl⟩
  · exact hheard
  · exact hheard

theorem wakeful_move (h : s.Wakeful callers none) (hs : s.Orderly) (hranked : s.Ranked) (hkeeps : s.KeepsWatch callers e)
    (hstep : s.step e = some s') (hmove : s.move e = some m) : s'.Wakeful callers none := by
  obtain ⟨u, hu, hresume⟩ := resume_of_move hstep hmove
  have hwakeful : u.Wakeful callers none ∧ u.Orderly ∧ u.workers = (s.heardIn e).workers ∧
      u.replyQueue = (s.heardIn e).replyQueue ∧ u.lossHandled = (s.heardIn e).lossHandled ∧
        u.replyQueueOpen = (s.heardIn e).replyQueueOpen := by
    have hheard := wakeful_heardIn h hstep
    have horderly := orderly_heardIn hs hstep
    rcases hu with rfl | ⟨owner, rfl⟩
    · exact ⟨hheard, horderly, rfl, rfl, rfl, rfl⟩
    · exact ⟨hheard.of_same rfl fun _ hvacant => hvacant, horderly, rfl, rfl, rfl, rfl⟩
  obtain ⟨hwakeful, horderly, hworkers, hqueue, hhandled, hopened⟩ := hwakeful
  rcases hresume with rfl | ⟨id, outcome, hcall, houtcome, rfl⟩
  · exact hwakeful
  · have hends : s.callEnds e = some (m.epoch, id, outcome) := by simp [Session.callEnds, hmove, hcall, houtcome]
    unfold Session.resume at hstep ⊢
    split at hstep
    · rename_i r _
      obtain ⟨hwatch, hpending⟩ := watch_publishEnded u r m.epoch outcome
      exact hwakeful.of_same hwatch fun _ => hpending
    · rename_i l howner
      obtain ⟨howner, hawaits⟩ := resumes_of_heard hu howner
      have hactor : s.actor e = .loop l := by
        rw [actor_of_move hmove, Session.callActor, hcall, Option.bind_some, howner, Option.filter_some,
          if_pos (decide_eq_true hawaits)]
      exact wakeful_loopResumed hwakeful horderly outcome _ fun exc hended hopen =>
        ended_of_keepsWatch hs hkeeps hstep hactor (hopened.symm.trans hopen) hended
    · rename_i w hfound
      obtain ⟨howner, hawaits⟩ := resumes_of_heard hu hfound
      obtain ⟨worker, hworker, hat⟩ := Option.bind_eq_some_iff.mp (of_decide_eq_true (Option.filter_eq_some_iff.mp hfound).2)
      have hpresent : s.workers w = some worker := by
        rw [hworkers] at hworker
        refine (workers_heardIn hworker).resolve_right fun hcreated => ?_
        rw [hcreated] at hat
        cases hat
      refine wakeful_workerResumed hwakeful horderly hworker m.epoch outcome
        (mayFinish_of_move hkeeps hends howner hawaits hu) fun call result hstage hok => ?_
      subst hok
      obtain ⟨hunheard, hothers⟩ := hkeeps.consumed w worker call m.epoch id result hends howner hpresent hstage
      rw [hhandled, hqueue, hworkers]
      refine ⟨hunheard, fun v other hv hother => ?_⟩
      rcases workers_heardIn hother with hbefore | hcreated
      · exact unshut_of_ranked hranked hv hbefore hpresent (by rw [hstage]; rfl) (hothers v other hv hbefore)
      · rw [hcreated]
        rfl
    · exact hwakeful

/-- A task that is created calls a coroutine of the session. -/
theorem wakeful_newWorker (h : s.Wakeful callers none) (hs : s.Staffed) (purpose : Purpose) :
    (s.newWorker purpose).Wakeful callers (some s.nextWorker) := by
  have hsame {w : WorkerId} {worker : Worker} (hworker : s.workers w = some worker) :
      (s.newWorker purpose).workers w = s.workers w := if_neg (Nat.ne_of_lt (hs.lt_nextWorker hworker))
  refine ⟨h.handled, h.closed, fun hhandled => (h.waked hhandled).imp_right ?_, fun w hauto => ?_, h.looping, h.unwired,
    fun w worker hx hworker => ?_⟩
  · rintro ⟨v, hon, hruns⟩
    obtain ⟨worker, hworker⟩ : ∃ worker, s.workers v = some worker := by
      rcases hon with hauto | ⟨-, worker, hworker, -⟩
      · obtain ⟨attempt, stage, hworker⟩ := h.auto v hauto
        exact ⟨_, hworker⟩
      · exact ⟨worker, hworker⟩
    have hruns : s.workerEnded v = false := hruns.resolve_left (by simp)
    exact ⟨v, hon.of_same rfl (hsame hworker), .inr ((workerEnded_of_same (hsame hworker)).trans hruns)⟩
  · obtain ⟨attempt, stage, hworker⟩ := h.auto w hauto
    exact ⟨attempt, stage, (hsame hworker).trans hworker⟩
  · have hne : w ≠ s.nextWorker := fun heq => hx (congrArg some heq.symm)
    exact (h.staged w worker (by simp) ((if_neg hne).symm.trans hworker)).of_same id id

theorem wakeful_runLoop {l : LoopId} (h : s.Wakeful callers none) (hs : s.Orderly) (hkeeps : s.KeepsWatch callers (.runLoop l))
    (hstep : s.step (.runLoop l) = some s') : s'.Wakeful callers none := by
  have hlooped (exc : Exc) (hended : s'.loops l = some (.ended exc)) (hopen : s.replyQueueOpen = true) :
      ∃ reason, exc = .connectionLost reason := ended_of_keepsWatch hs hkeeps hstep rfl hopen hended
  have hrun : s.runLoop l = some s' := hstep
  unfold Session.runLoop at hrun
  split at hrun
  · split at hrun
    · cases hrun
      have hcleared : (s.setCancelled (.loop l) false).Wakeful callers none := h.of_same rfl fun _ hvacant => hvacant
      exact wakeful_loopRaised hcleared fun hopen => hlooped _ (loops_loopRaised ..) hopen
    · cases hrun
      exact wakeful_receiveNext h hs hlooped
  · cases hrun

theorem wakeful_step (h : s.Wakeful callers none) (hs : s.Orderly) (hranked : s.Ranked) (hkeeps : s.KeepsWatch callers e)
    (hstep : s.step e = some s') : s'.Wakeful callers none := by
  have hstaffed := hranked.staffed
  cases e with
  | start =>
    cases hstep
    obtain ⟨hstarted, hlost⟩ := hkeeps.started rfl
    exact wakeful_startConn (wakeful_newWorker h hstaffed .start) hstarted hlost
  | reconnect =>
    cases hstep
    exact wakeful_reconnectFrom (wakeful_newWorker h hstaffed .reconnect) hs
  | coordinate policy =>
    cases hstep
    exact wakeful_reconnectFrom (wakeful_newWorker h hstaffed _) hs
  | close => exact absurd rfl hkeeps.unclosed
  | request args generated =>
    obtain ⟨-, ⟨⟩⟩ := Option.ite_none_left_eq_some.mp hstep
    exact wakeful_request h args generated
  | operate op =>
    cases hstep
    exact wakeful_call h none op
  | conn epoch e =>
    obtain ⟨m, hmove⟩ := move_of_step hstep
    exact wakeful_move h hs hranked hkeeps hstep hmove
  | interrupt epoch id =>
    obtain ⟨m, hmove⟩ := move_of_interrupt hstep
    exact wakeful_move h hs hranked hkeeps hstep hmove
  | runWorker w =>
    refine wakeful_runWorker h hs (fun hcancelled hon => ?_) hstep
    refine (hkeeps.finished w hon (.unrun rfl hcancelled)).imp_right (Or.imp_left fun hall => ?_)
    exact vacant_of_pending fun rid r hget => List.not_mem_nil (hall rid r hget)
  | runLoop l => exact wakeful_runLoop h hs hkeeps hstep
  | wakeRequest r =>
    have hwake : s.wakeRequest r = some s' := hstep
    unfold Session.wakeRequest at hwake
    split at hwake
    · obtain ⟨outcome, -, rfl⟩ := Option.map_eq_some_iff.mp hwake
      obtain ⟨hwatch, hpending⟩ := watch_replied s r _ outcome
      exact h.of_same hwatch fun _ => hpending
    · cases hwake
  | expireRequest r =>
    have hexpire : s.expireRequest r = some s' := hstep
    unfold Session.expireRequest at hexpire
    split at hexpire
    · obtain ⟨-, ⟨⟩⟩ := Option.ite_none_left_eq_some.mp hexpire
      exact h.of_same rfl fun _ hvacant => hvacant
    · cases hexpire
  | cancelRequest r =>
    have hcancel : s.cancelRequest r = some s' := hstep
    unfold Session.cancelRequest at hcancel
    split at hcancel
    · cases hcancel
      exact h.of_same rfl fun _ hvacant => hvacant
    · cases hcancel
      exact h.of_same rfl fun _ hvacant => hvacant
    · cases hcancel

theorem wakeful_new (settings : Settings) : (Session.new settings).Wakeful callers none where
  handled hwired := by cases hwired
  closed hhandled := by cases hhandled
  waked hhandled := by cases hhandled
  auto _ hauto := by cases hauto
  looping hopen := by cases hopen
  unwired _ := ⟨fun _ => rfl, rfl⟩
  staged _ _ _ hworker := by cases hworker

/-- On a lost connection one is on duty that has not ended, unless nothing is pending. -/
theorem watched_of_wakeful (h : s.Wakeful callers none) (hlost : s.link.client.conn.lost ≠ none)
    (hpending : ∃ rid r, s.correlation.pending.get? rid = some r) : ∃ w, s.OnDuty callers w ∧ s.workerEnded w = false := by
  obtain ⟨rid, r, hget⟩ := hpending
  have hvacant : ¬s.Vacant := fun hnone => by
    rw [hnone rid] at hget
    cases hget
  cases hwired : s.link.wired with
  | false => exact absurd (h.unwired hwired).1 hvacant
  | true =>
    obtain ⟨w, hon, hruns⟩ := (h.waked (h.handled hwired hlost)).resolve_left hvacant
    exact ⟨w, hon, hruns.resolve_left (by simp)⟩

theorem awake_of_wakeful (h : s.Wakeful false none) : s.Awake := by
  refine ⟨fun hlost hpending => ?_, h.looping⟩
  obtain ⟨w, hauto | ⟨⟨⟩, -⟩, hruns⟩ := watched_of_wakeful h hlost hpending
  rw [Session.autoRunning, hauto, Option.any_some, hruns, Bool.not_false]

theorem undead_of_wakeful (h : s.Wakeful callers none) : ¬s.Dead := by
  rintro ⟨hlost, hidle, hpending⟩
  obtain ⟨w, hon, hruns⟩ := watched_of_wakeful h hlost hpending
  obtain ⟨worker, hworker, hlocks⟩ : ∃ worker, s.workers w = some worker ∧ worker.purpose.locks = true := by
    rcases hon with hauto | ⟨-, worker, hworker, hlocks, -⟩
    · obtain ⟨attempt, stage, hworker⟩ := h.auto w hauto
      exact ⟨_, hworker, rfl⟩
    · exact ⟨worker, hworker, hlocks⟩
  rw [hidle w worker hworker hlocks] at hruns
  cases hruns

theorem alert_new (callers : Bool) (settings : Settings) : (Session.new settings).Alert callers :=
  ⟨wakeful_new settings, orderly_new settings, ranked_new settings⟩

theorem alert_step (h : s.Alert callers) (hkeeps : s.KeepsWatch callers e) (hstep : s.step e = some s') : s'.Alert callers :=
  ⟨wakeful_step h.wakeful h.orderly h.ranked hkeeps hstep, orderly_step h.orderly hstep, ranked_step h.ranked hstep⟩

theorem alert_run {settings : Settings} {s : Session}
    (h : ReachesWhere Session.step (Session.KeepsWatch callers) (Session.new settings) s) : s.Alert callers :=
  h.invariant (alert_new callers settings) fun _ _ _ hinv hkeeps hstep => alert_step hinv hkeeps hstep

end Steps

/-- In every run whose steps keep watch the session is awake. -/
theorem awake_of_keepsWatch (settings : Settings) {s : Session}
    (h : ReachesWhere Session.step (Session.KeepsWatch false) (Session.new settings) s) : s.Awake :=
  awake_of_wakeful (alert_run h).wakeful

/-- A run in which the callers' reconnects keep watch too leaves no session dead, nor an open queue without its loop. -/
theorem undead_of_keepsWatch (settings : Settings) {s : Session}
    (h : ReachesWhere Session.step (Session.KeepsWatch true) (Session.new settings) s) :
    ¬s.Dead ∧ (s.replyQueueOpen = true → ∃ l, s.replyTask = some l ∧ s.RunsOn l) :=
  ⟨undead_of_wakeful (alert_run h).wakeful, (alert_run h).wakeful.looping⟩

/-! ## A loss that is heard -/

/-- A step that none of the conditions of `KeepsWatch` is about, or that meets it whatever the others do. -/
def Session.watches (callers : Bool) (s : Session) (e : SessionEvent) : Bool :=
  (match e with
    | .close => false
    | .start => !s.started && s.link.client.conn.lost.isNone
    | .runWorker w => !s.cancelled (.worker w)
    | .runLoop l => !s.cancelled (.loop l)
    | _ => true) &&
  (match s.callEnds e with
    | some (_, id, outcome) =>
      match s.owners id with
      | some (.worker w) =>
        (!(s.heardIn e).lossHandled || outcome.isOk && (s.heardIn e).replyQueue.isNone &&
          (((s.heardIn e).remainder w outcome).isNone || callers && (List.range (s.heardIn e).nextWorker).any fun v =>
            v ≠ w && ((s.heardIn e).workers v).any fun other => other.purpose.locks && other.stage.renews)) &&
          (List.range s.nextWorker).all fun v => v = w || (s.workers v).all fun other => !other.stage.shut
      | some (.loop _) =>
        match outcome with
        | .ok _ | .error (.connectionLost _) => true
        | .error _ => false
      | _ => true
    | none => true) &&
  ((s.reply e).isNone || decide s.Live)

section Watches

variable {callers : Bool} {s : Session} {e : SessionEvent} {w : WorkerId}

theorem relieved_of_any (h : (callers && (List.range s.nextWorker).any fun v =>
    v ≠ w && (s.workers v).any fun other => other.purpose.locks && other.stage.renews) = true) : s.Relieved callers w := by
  obtain ⟨hcallers, hany⟩ := Bool.and_eq_true_iff.mp h
  obtain ⟨v, -, hv⟩ := List.any_eq_true.mp hany
  obtain ⟨hne, hother⟩ := Bool.and_eq_true_iff.mp hv
  obtain ⟨other, hworker, hon⟩ := (Option.any_eq_true _ _).mp hother
  obtain ⟨hlocks, hrenews⟩ := Bool.and_eq_true_iff.mp hon
  exact ⟨v, of_decide_eq_true hne, .inr ⟨hcallers, other, hworker, hlocks, hrenews⟩,
    runs_of_live hworker (live_of_renews hrenews)⟩

theorem keepsWatch_of_watches (hs : s.Staffed) (h : s.watches callers e = true) : s.KeepsWatch callers e := by
  unfold Session.watches at h
  obtain ⟨h, hlive⟩ := Bool.and_eq_true_iff.mp h
  obtain ⟨hevent, hends⟩ := Bool.and_eq_true_iff.mp h
  have hworker {w : WorkerId} {epoch : Nat} {id : CallId} {outcome : Except Exc (Option Text)}
      (hcall : s.callEnds e = some (epoch, id, outcome)) (howner : s.owners id = some (.worker w)) :
      ((s.heardIn e).lossHandled = false ∨ outcome.isOk = true ∧ (s.heardIn e).replyQueue = none ∧
        ((s.heardIn e).remainder w outcome = none ∨ (s.heardIn e).Relieved callers w)) ∧
          ∀ v other, v ≠ w → s.workers v = some other → other.stage.shut = false := by
    rw [hcall] at hends
    simp only [howner] at hends
    obtain ⟨hheard, hothers⟩ := Bool.and_eq_true_iff.mp hends
    refine ⟨?_, fun v other hv hother => ?_⟩
    · rcases Bool.or_eq_true_iff.mp hheard with hunheard | hkept
      · exact .inl ((Bool.not_eq_true' _).mp hunheard)
      · obtain ⟨hkept, hleft⟩ := Bool.and_eq_true_iff.mp hkept
        obtain ⟨hok, hqueue⟩ := Bool.and_eq_true_iff.mp hkept
        exact .inr ⟨hok, Option.isNone_iff_eq_none.mp hqueue,
          (Bool.or_eq_true_iff.mp hleft).imp Option.isNone_iff_eq_none.mp relieved_of_any⟩
    · have hfound := List.all_eq_true.mp hothers v (List.mem_range.mpr (hs.lt_nextWorker hother))
      rw [hother] at hfound
      rcases Bool.or_eq_true_iff.mp hfound with heq | hopen
      · exact absurd (of_decide_eq_true heq) hv
      · exact (Bool.not_eq_true' _).mp hopen
  refine ⟨?_, ?_, ?_, ?_, ?_, ?_, ?_⟩
  · rintro rfl
    cases hevent
  · rintro rfl
    simpa using hevent
  · intro w worker call epoch id result hcall howner _ _
    obtain ⟨hheard, hothers⟩ := hworker hcall howner
    exact ⟨hheard.imp_right fun hkept => hkept.2.1, fun v other hv hother => .inl (hothers v other hv hother)⟩
  · rintro w - (⟨rfl, hcancelled⟩ | ⟨hcall, howner, -, hfinishes⟩)
    · have hnot : s.cancelled (.worker w) = false := (Bool.not_eq_true' _).mp hevent
      rw [hnot] at hcancelled
      cases hcancelled
    · refine (hworker hcall howner).1.imp_right fun ⟨hok, _, hleft⟩ => .inr (hleft.resolve_left fun hnone => ?_)
      rcases hfinishes with rfl | ⟨m, hsome, -⟩
      · cases hok
      · rw [hnone] at hsome
        cases hsome
  · rintro - l exc ⟨epoch, id, hcall, howner, -⟩
    simp only [hcall, howner] at hends
    cases exc with
    | connectionLost reason => exact ⟨reason, rfl⟩
    | _ => cases hends
  · intro _ msg htaken
    rw [htaken, Option.isNone_some, Bool.false_or] at hlive
    exact of_decide_eq_true hlive
  · rintro - l rfl
    exact (Bool.not_eq_true' _).mp hevent

theorem admits_of_watches {es : List SessionEvent} (hs : s.Staffed)
    (h : Admits Session.step (fun s e => s.watches callers e = true) s es) :
    Admits Session.step (Session.KeepsWatch callers) s es :=
  admits_of_invariant hs (fun _ _ _ hinv hstep => (staffs_step hstep).staffed hinv) (fun _ _ => keepsWatch_of_watches) h

end Watches

/-- A request is pending on a connection that is lost, and the task that the loss has woken goes on to publish it again. -/
theorem lost_awake : ∃ s s', run Session.step (Session.new (settingsWith {})) (requestPublished ++ tornDown.take 1) = some s ∧
    run Session.step s (tornDown.drop 1 ++ republished) = some s' ∧ s.link.client.conn.lost.isSome = true ∧ s.Awake ∧
      s'.replyQueueOpen = true ∧ s'.Awake := by
  have hrun : (run Session.step (Session.new (settingsWith {})) (requestPublished ++ tornDown.take 1)).any (fun s =>
      Admits Session.step (fun s e => s.watches false e = true) (Session.new (settingsWith {}))
        (requestPublished ++ tornDown.take 1) ∧
        Admits Session.step (fun s e => s.watches false e = true) s (tornDown.drop 1 ++ republished) ∧
          s.link.client.conn.lost.isSome = true ∧
            (run Session.step s (tornDown.drop 1 ++ republished)).any (fun s' => s'.replyQueueOpen = true) = true) = true := by
    decide +kernel
  obtain ⟨s, hs, hstate⟩ := (Option.any_eq_true _ _).mp hrun
  obtain ⟨hbefore, hafter, hlost, hany⟩ := of_decide_eq_true hstate
  obtain ⟨s', hs', hopen⟩ := (Option.any_eq_true _ _).mp hany
  have hreaches := reaches_of_run hs (admits_of_watches (staffed_new _) hbefore)
  have hstaffed : s.Staffed :=
    hreaches.invariant (staffed_new _) fun _ _ _ hinv _ hstep => (staffs_step hstep).staffed hinv
  exact ⟨s, s', hs, hs', hlost, awake_of_keepsWatch (settingsWith {}) hreaches, of_decide_eq_true hopen,
    awake_of_keepsWatch (settingsWith {}) (hreaches.trans (reaches_of_run hs' (admits_of_watches hstaffed hafter)))⟩

/-- The republish is confirmed, and the new connection is lost before the auto-reconnect task runs again. -/
def lostAgain : List SessionEvent :=
  republished.dropLast ++ [.conn 1 (.task .eof), .conn 1 (.task (.wake 11))]

/-- The auto-reconnect task has ended on a connection that is lost, and a caller's reconnect waits for its turn. -/
theorem lostAgain_undead : ∃ s, run Session.step (Session.new (settingsWith {}))
    (requestPublished ++ tornDown.take 3 ++ [.coordinate {}] ++ tornDown.drop 3 ++ lostAgain) = some s ∧
      s.link.client.conn.lost.isSome = true ∧ s.autoRunning = false ∧
        ¬s.Dead ∧ (s.replyQueueOpen = true → ∃ l, s.replyTask = some l ∧ s.RunsOn l) := by
  have hrun : (run Session.step (Session.new (settingsWith {}))
      (requestPublished ++ tornDown.take 3 ++ [.coordinate {}] ++ tornDown.drop 3 ++ lostAgain)).any (fun s =>
        Admits Session.step (fun s e => s.watches true e = true) (Session.new (settingsWith {}))
          (requestPublished ++ tornDown.take 3 ++ [.coordinate {}] ++ tornDown.drop 3 ++ lostAgain) ∧
            s.link.client.conn.lost.isSome = true ∧ s.autoRunning = false) = true := by
    decide +kernel
  obtain ⟨s, hs, hstate⟩ := (Option.any_eq_true _ _).mp hrun
  obtain ⟨hwatches, hlost, hended⟩ := of_decide_eq_true hstate
  exact ⟨s, hs, hlost, hended,
    undead_of_keepsWatch (settingsWith {}) (reaches_of_run hs (admits_of_watches (staffed_new _) hwatches))⟩

def SessionEvent.closes : SessionEvent → Bool
  | .close => true
  | _ => false

/-- No worker inside of a reconnect is left. -/
def Session.idle (s : Session) : Bool :=
  (List.range s.nextWorker).all fun w => (s.workers w).all fun worker => !worker.purpose.locks || s.workerEnded w

/-- Without the caller the request is pending, and nobody is to publish it again. -/
theorem lostAgain_dead : ¬∀ s s', ReachesWhere Session.step (fun _ e => e ≠ .close) (Session.new (settingsWith {})) s →
    s.replyQueueOpen = true → ReachesWhere Session.step (fun _ e => e ≠ .close) s s' →
      ¬s'.Dead ∧ (s'.replyQueueOpen = true → ∃ l, s'.replyTask = some l ∧ s'.RunsOn l) := by
  intro hclaim
  have hrun : (run Session.step (Session.new (settingsWith {})) requestPublished).any (fun s =>
      Admits Session.step (fun _ e => e.closes = false) (Session.new (settingsWith {})) requestPublished ∧
        Admits Session.step (fun _ e => e.closes = false) s (tornDown ++ lostAgain) ∧ s.replyQueueOpen = true ∧
          (run Session.step s (tornDown ++ lostAgain)).any (fun s' => s'.link.client.conn.lost.isSome = true ∧
            s'.idle = true ∧ (s'.correlation.pending.get? (Text.ofString "r")).isSome = true) = true) = true := by
    decide +kernel
  obtain ⟨s, hs, hstate⟩ := (Option.any_eq_true _ _).mp hrun
  obtain ⟨hbefore, hafter, hopen, hany⟩ := of_decide_eq_true hstate
  obtain ⟨s', hs', hstate'⟩ := (Option.any_eq_true _ _).mp hany
  obtain ⟨hlost, hidle, hpending⟩ := of_decide_eq_true hstate'
  have hunclosed (e : SessionEvent) (hnot : e.closes = false) : e ≠ .close := by
    rintro rfl
    cases hnot
  have hreaches := reaches_of_run hs (admits_mono hbefore fun _ e => hunclosed e)
  have hrest := reaches_of_run hs' (admits_mono hafter fun _ e => hunclosed e)
  have hstaffed : s'.Staffed := ReachesWhere.invariant (hreaches.trans hrest) (staffed_new _) fun _ _ _ hinv _ hstep =>
    (staffs_step hstep).staffed hinv
  obtain ⟨r, hget⟩ := Option.isSome_iff_exists.mp hpending
  refine (hclaim s s' hreaches hopen hrest).1 ⟨?_, fun w worker hworker hlocks => ?_, _, r, hget⟩
  · exact Option.isSome_iff_ne_none.mp hlost
  · have hended := List.all_eq_true.mp hidle w (List.mem_range.mpr (hstaffed.lt_nextWorker hworker))
    rw [hworker, Option.all_some, hlocks, Bool.not_true, Bool.false_or] at hended
    exact hended

end Nuropb.Sessions
