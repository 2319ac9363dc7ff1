import Nuropb.Sessions.Machine

/-! # What becomes of the requests while other tasks run

Reply loops, workers and losses never touch a request, only the table and what is parked: they
complete or discard entries, each for a cause, and forget what they have completed.
-/
namespace Nuropb.Sessions

open Library Transport

/-- Why an entry is completed: by another task, or because its request gives it up. -/
inductive Cause
  | reply (msg : IncomingMessage)
  | gaveUp (e : Exc)
  | refused (rid : Text) (e : Exc)
  | closed
  | failFast (message : Text)
  /-- The last attempt of the auto-reconnect task has failed. -/
  | exhausted (w : WorkerId) (e : Exc)
  | loopFailed (l : LoopId) (e : Exc)

def Cause.outcome (settings : Settings) : Cause → Except Exc IncomingMessage
  | reply msg => .ok msg
  | gaveUp e => .error e
  | refused rid e => .error (refusalError settings rid none e)
  | closed => .error .osError
  | failFast message => .error (connectionLostError message)
  | exhausted _ e | loopFailed _ e => .error (connectionLostError (settings.text e))

/-- What the state after a step says about a cause. -/
def Session.Shows (s : Session) : Cause → Prop
  | .reply _ | .closed => True
  | .gaveUp e => e.isPublishRefusal = true ∨ e = .timeoutError
  | .refused _ e => e.isPublishRefusal = true
  | .failFast _ => s.settings.policy.failOutstanding = true
  | .exhausted w e => ∃ attempt, s.workers w = some ⟨.auto attempt, .ended (.error e)⟩ ∧
      s.settings.policy.maxAttempts ≤ attempt
  | .loopFailed l e => s.loops l = some (.ended e) ∧ e ≠ .cancelledError ∧ ∀ reason, e ≠ .connectionLost reason

/-- The causes that no task of its own ends with. -/
def Cause.Early (settings : Settings) : Cause → Prop
  | .reply _ | .closed => True
  | .gaveUp e => e.isPublishRefusal = true ∨ e = .timeoutError
  | .refused _ e => e.isPublishRefusal = true
  | .failFast _ => settings.policy.failOutstanding = true
  | .exhausted .. | .loopFailed .. => False

/-- Who runs in a step, as far as it matters to the requests. -/
inductive Actor
  | closer
  | loop (l : LoopId)
  | worker
  | other

/-- The causes of a task that is no request: only `close` closes, a loop fails with its own exception, and what a
worker publishes again is refused. -/
def Cause.Of (actor : Actor) : Cause → Prop
  | .gaveUp _ => False
  | .closed => actor = .closer
  | .loopFailed l _ => actor = .loop l
  | .refused .. => actor = .worker
  | _ => True

/-- What the state after a step of another task says about a cause. -/
def Session.Tells (actor : Actor) (s : Session) (cause : Cause) : Prop := s.Shows cause ∧ cause.Of actor

/-- The causes of another task that it does not end with. -/
def Cause.Prompt (actor : Actor) (settings : Settings) (cause : Cause) : Prop := cause.Early settings ∧ cause.Of actor

structure Ledger where
  correlation : CorrelationTable
  parked : Dict Text ParkedPublish

def Session.ledger (s : Session) : Ledger := ⟨s.correlation, s.parked⟩

/-- Entries go, and their publishes with them. -/
inductive Clears (settings : Settings) (allowed : Cause → Prop) (a : Ledger) : Ledger → Prop
  | refl : Clears settings allowed a a
  | discard {b : Ledger} {cause : Cause} {e : Exc} (h : Clears settings allowed a b) (hallowed : allowed cause)
      (he : cause.outcome settings = .error e) : Clears settings allowed a ⟨b.correlation.discardAll e, .empty⟩
  | complete {b : Ledger} {cause : Cause} (rid : Text) (h : Clears settings allowed a b) (hallowed : allowed cause) :
      Clears settings allowed a ⟨b.correlation.complete rid (cause.outcome settings), b.parked.erase rid⟩
  | forget {b : Ledger} (rid : Text) (h : Clears settings allowed a b) (hrid : b.correlation.contains rid = false) :
      Clears settings allowed a ⟨b.correlation, b.parked.erase rid⟩

/-- The requests are left alone, and their entries only cleared. -/
structure Spares (allowed : Cause → Prop) (s s' : Session) : Prop where
  ledger : Clears s.settings allowed s.ledger s'.ledger
  requests : s'.requests = s.requests
  nextRequest : s'.nextRequest = s.nextRequest
  settings : s'.settings = s.settings

section Rules

variable {settings : Settings} {allowed allowed' : Cause → Prop} {a b c : Ledger} {s s' s'' : Session}

theorem Clears.trans (h : Clears settings allowed a b) (h' : Clears settings allowed b c) :
    Clears settings allowed a c := by
  induction h' with
  | refl => exact h
  | discard _ hallowed he ih => exact .discard ih hallowed he
  | complete rid _ hallowed ih => exact .complete rid ih hallowed
  | forget rid _ hrid ih => exact .forget rid ih hrid

theorem Clears.mono (h : Clears settings allowed a b) (himp : ∀ cause, allowed cause → allowed' cause) :
    Clears settings allowed' a b := by
  induction h with
  | refl => exact .refl
  | discard _ hallowed he ih => exact .discard ih (himp _ hallowed) he
  | complete rid _ hallowed ih => exact .complete rid ih (himp _ hallowed)
  | forget rid _ hrid ih => exact .forget rid ih hrid

theorem Spares.of_same (hcorrelation : s'.correlation = s.correlation) (hparked : s'.parked = s.parked)
    (hrequests : s'.requests = s.requests) (hnext : s'.nextRequest = s.nextRequest)
    (hsettings : s'.settings = s.settings) : Spares allowed s s' where
  ledger := by
    rw [Session.ledger, Session.ledger, hcorrelation, hparked]
    exact .refl
  requests := hrequests
  nextRequest := hnext
  settings := hsettings

theorem Spares.refl (s : Session) : Spares allowed s s := .of_same rfl rfl rfl rfl rfl

theorem Spares.trans (h : Spares allowed s s') (h' : Spares allowed s' s'') : Spares allowed s s'' where
  ledger := h.ledger.trans (by
    rw [← h.settings]
    exact h'.ledger)
  requests := h'.requests.trans h.requests
  nextRequest := h'.nextRequest.trans h.nextRequest
  settings := h'.settings.trans h.settings

theorem Spares.mono (h : Spares allowed s s') (himp : ∀ cause, allowed cause → allowed' cause) :
    Spares allowed' s s' :=
  ⟨h.ledger.mono himp, h.requests, h.nextRequest, h.settings⟩

theorem Cause.Prompt.tells {actor : Actor} {cause : Cause} {settings : Settings} (h : cause.Prompt actor settings)
    (hsettings : s.settings = settings) : s.Tells actor cause := by
  obtain ⟨hearly, hof⟩ := h
  subst hsettings
  refine ⟨?_, hof⟩
  cases cause with
  | reply msg => trivial
  | gaveUp e => exact hearly
  | refused rid e => exact hearly
  | closed => trivial
  | failFast message => exact hearly
  | exhausted w e => exact hearly.elim
  | loopFailed l e => exact hearly.elim

/-- What came before the end of a step does not depend on how it ends. -/
theorem Spares.before {actor : Actor} (h : Spares (Cause.Prompt actor s.settings) s s')
    (h' : Spares (s''.Tells actor) s' s'') : Spares (s''.Tells actor) s s'' :=
  (h.mono fun _ hcause => hcause.tells (h'.settings.trans h.settings)).trans h'

theorem Spares.tells {actor : Actor} (h : Spares (Cause.Prompt actor s.settings) s s') :
    Spares (s'.Tells actor) s s' :=
  h.before (.refl s')

theorem Spares.shown {actor : Actor} (h : Spares (s''.Tells actor) s s') : Spares s''.Shows s s' :=
  h.mono fun _ => And.left

end Rules

/-! ## The steps of the other tasks -/

section Tasks

variable {allowed : Cause → Prop} {actor : Actor} {s : Session}

theorem spares_setWorker (s : Session) (w : WorkerId) (worker : Worker) : Spares allowed s (s.setWorker w worker) :=
  .of_same rfl rfl rfl rfl rfl

theorem spares_setStage (s : Session) (w : WorkerId) (stage : Stage) : Spares allowed s (s.setStage w stage) := by
  unfold Session.setStage
  split
  · exact spares_setWorker s w _
  · exact .refl s

theorem spares_setLoop (s : Session) (l : LoopId) (stage : LoopStage) : Spares allowed s (s.setLoop l stage) :=
  .of_same rfl rfl rfl rfl rfl

theorem spares_setCancelled (s : Session) (owner : Owner) (cancelled : Bool) :
    Spares allowed s (s.setCancelled owner cancelled) :=
  .of_same rfl rfl rfl rfl rfl

theorem spares_call (s : Session) (owner : Option Owner) (op : Operation) : Spares allowed s (s.call owner op) :=
  .of_same rfl rfl rfl rfl rfl

theorem spares_discardAll (cause : Cause) {e : Exc} (hallowed : allowed cause)
    (he : cause.outcome s.settings = .error e) : Spares allowed s (s.discardAll e) :=
  ⟨.discard .refl hallowed he, rfl, rfl, rfl⟩

theorem spares_complete (cause : Cause) (rid : Text) (hallowed : allowed cause) :
    Spares allowed s ({ s with correlation := s.correlation.complete rid (cause.outcome s.settings) }.forgetPublish rid) :=
  ⟨.complete rid .refl hallowed, rfl, rfl, rfl⟩

theorem spares_forgetPublish {rid : Text} (hrid : s.correlation.contains rid = false) :
    Spares allowed s (s.forgetPublish rid) :=
  ⟨.forget rid .refl hrid, rfl, rfl, rfl⟩

theorem spares_createAuto (s : Session) : Spares allowed s s.createAuto := .of_same rfl rfl rfl rfl rfl

theorem spares_onConnectionLost (s : Session) (e : Exc) :
    Spares (Cause.Prompt actor s.settings) s (s.onConnectionLost e) := by
  unfold Session.onConnectionLost
  split
  · exact .refl s
  · dsimp only
    have hmarked : Spares (Cause.Prompt actor s.settings) s
        { s with lossHandled := true, started := false, replyQueue := none } := .of_same rfl rfl rfl rfl rfl
    split
    · rename_i hpolicy
      exact hmarked.trans (spares_discardAll (.failFast (s.settings.text e)) ⟨hpolicy, trivial⟩ rfl)
    · split
      · exact hmarked
      · exact hmarked.trans (spares_createAuto _)

/-! ### The reply loop -/

theorem spares_loopRaised (s : Session) (l : LoopId) (e : Exc) :
    Spares ((s.loopRaised l e).Tells (.loop l)) s (s.loopRaised l e) := by
  unfold Session.loopRaised
  split
  · exact spares_setLoop s l _
  · exact ((spares_onConnectionLost s _).trans (spares_setLoop _ l _)).tells
  · rename_i hcancelled hlost
    have hfailed : Spares (fun cause => cause = .loopFailed l e) s (s.failOutstanding (s.settings.text e)) :=
      spares_discardAll (.loopFailed l e) rfl rfl
    refine (hfailed.trans (spares_setLoop _ l (.ended e))).mono ?_
    rintro cause rfl
    exact ⟨⟨by simp [Session.setLoop], hcancelled, hlost⟩, rfl⟩

theorem spares_onReply (s : Session) (l : LoopId) (msg : IncomingMessage) :
    Spares ((s.onReply l msg).Tells (.loop l)) s (s.onReply l msg) := by
  unfold Session.onReply
  extract_lets t id t'
  have hresolved : Spares (Cause.Prompt (.loop l) s.settings) s t := by
    dsimp only [t]
    split
    · exact spares_complete (.reply msg) _ ⟨trivial, trivial⟩
    · exact .refl s
  have hcalled : Spares (Cause.Prompt (.loop l) s.settings) s t' := hresolved.trans (spares_call _ _ _)
  split
  · exact hcalled.before (spares_loopRaised t' l _)
  · exact (hcalled.trans (spares_setLoop t' l _)).tells

theorem spares_receiveNext (s : Session) (l : LoopId) : Spares ((s.receiveNext l).Tells (.loop l)) s (s.receiveNext l) := by
  unfold Session.receiveNext
  extract_lets id taken t
  have hcalled : Spares (Cause.Prompt (.loop l) s.settings) s t := spares_call _ _ _
  split
  · exact hcalled.before (spares_onReply t l _)
  · exact hcalled.before (spares_loopRaised t l _)
  · exact (hcalled.trans (spares_setLoop t l _)).tells

theorem spares_loopResumed (s : Session) (l : LoopId) (outcome : Except Exc (Option Text))
    (taken : Option IncomingMessage) :
    Spares ((s.loopResumed l outcome taken).Tells (.loop l)) s (s.loopResumed l outcome taken) := by
  unfold Session.loopResumed
  split
  · exact spares_onReply s l _
  · exact spares_receiveNext s l
  · exact spares_loopRaised s l _
  · exact spares_loopRaised s l _
  · exact .refl s

theorem spares_createLoop (s : Session) : Spares allowed s s.createLoop := .of_same rfl rfl rfl rfl rfl

/-! ### Workers -/

theorem spares_release (s : Session) (w : WorkerId) : Spares allowed s (s.release w) := by
  unfold Session.release
  split
  · exact .of_same rfl rfl rfl rfl rfl
  · exact .refl s

theorem spares_returned (s : Session) (w : WorkerId) : Spares allowed s (s.returned w) :=
  (spares_release s w).trans (spares_setStage _ w _)

theorem spares_raised (s : Session) (w : WorkerId) (e : Exc) : Spares ((s.raised w e).Tells actor) s (s.raised w e) := by
  have hreleased : Spares (Cause.Prompt actor s.settings) s (s.release w) := spares_release s w
  unfold Session.raised
  extract_lets t
  split
  · exact (hreleased.trans (spares_setStage t w _)).tells
  · exact (hreleased.trans (spares_setStage t w _)).tells
  · exact (hreleased.trans (spares_setStage t w _)).tells
  · rename_i e _ _ attempt hpurpose _
    split
    · rename_i hattempt
      have hfailed : Spares (fun cause => cause = .exhausted w e) t (t.failOutstanding (t.settings.text e)) :=
        spares_discardAll (.exhausted w e) rfl rfl
      have hended := hfailed.trans (spares_setStage _ w (.ended (.error e)))
      refine hreleased.before (hended.mono ?_)
      rintro cause rfl
      obtain ⟨worker, hworker, hauto⟩ := Option.map_eq_some_iff.mp hpurpose
      refine ⟨⟨attempt, ?_, ?_⟩, trivial⟩
      · have hsame : (t.failOutstanding (t.settings.text e)).workers w = some worker := hworker
        simp [Session.setStage, hsame, Session.setWorker, hauto]
      · rw [hended.settings]
        exact hattempt
    · exact (hreleased.trans (spares_setStage t w _)).tells
  · exact (hreleased.trans (spares_setStage t w _)).tells

theorem spares_recordPublish (s : Session) (epoch : Nat) (envelope : ParkedPublish) :
    Spares allowed s (s.recordPublish epoch envelope) :=
  .of_same rfl rfl rfl rfl rfl

theorem spares_failPublish {rid : Text} {e : Exc} (h : e.isPublishRefusal = true) :
    Spares (Cause.Prompt .worker s.settings) s (s.failPublish rid (refusalError s.settings rid none e)) :=
  spares_complete (.refused rid e) rid ⟨h, rfl⟩

theorem spares_gaveUp (rid : Text) {e : Exc} (h : e.isPublishRefusal = true ∨ e = .timeoutError) :
    Spares (Cause.Early s.settings) s (s.failPublish rid e) :=
  spares_complete (.gaveUp e) rid h

theorem spares_republish (s : Session) (w : WorkerId) (entries : List (Text × ParkedPublish)) :
    Spares ((s.republish w entries).Tells .worker) s (s.republish w entries) := by
  induction entries generalizing s with
  | nil =>
      rw [Session.republish]
      exact spares_returned s w
  | cons entry rest ih =>
      obtain ⟨rid, parked⟩ := entry
      rw [Session.republish]
      split
      · extract_lets envelope id t
        have hcalled : Spares (Cause.Prompt .worker s.settings) s t := spares_call _ _ _
        split
        · exact (hcalled.trans (spares_setStage t w _)).tells
        · exact (hcalled.trans (spares_recordPublish t t.epoch envelope)).before (ih _)
        · split
          · rename_i e _ hrefused
            have hfailed : Spares (Cause.Prompt .worker t.settings) t (t.failPublish rid (refusalError t.settings rid none e)) :=
              spares_failPublish hrefused
            exact hcalled.before (hfailed.before (ih _))
          · exact hcalled.before (spares_raised t w _)
      · rename_i hrid
        exact (spares_forgetPublish (by simpa using hrid)).before (ih _)

theorem spares_republished (s : Session) (w : WorkerId) (epoch : Nat) (rid : Text) (envelope : ParkedPublish)
    (rest : List (Text × ParkedPublish)) (outcome : Except Exc (Option Text)) :
    Spares ((s.republished w epoch rid envelope rest outcome).Tells .worker) s
      (s.republished w epoch rid envelope rest outcome) := by
  cases outcome with
  | ok result => exact (spares_recordPublish s epoch envelope).before (spares_republish _ w rest)
  | error e =>
      rw [Session.republished]
      split
      · rename_i hrefused
        exact (spares_failPublish hrefused).before (spares_republish _ w rest)
      · exact spares_raised s w e

theorem spares_opened (s : Session) (w : WorkerId) : Spares ((s.opened w).Tells .worker) s (s.opened w) := by
  unfold Session.opened
  split
  · exact spares_returned s w
  · split
    · exact spares_returned s w
    · exact spares_republish s w _

theorem spares_opens (s : Session) (w : WorkerId) (op : Operation) (step : Opening) :
    Spares ((s.opens w op step).Tells actor) s (s.opens w op step) := by
  unfold Session.opens
  extract_lets id t
  have hcalled : Spares (Cause.Prompt actor s.settings) s t := spares_call _ _ _
  split
  · exact hcalled.before (spares_raised t w _)
  · exact (hcalled.trans (spares_setStage t w _)).tells

theorem spares_startConn (s : Session) (w : WorkerId) : Spares ((s.startConn w).Tells actor) s (s.startConn w) := by
  have hwired : Spares (Cause.Prompt actor s.settings) s
      { s with lossHandled := false, link := { s.link with wired := true } } := .of_same rfl rfl rfl rfl rfl
  exact hwired.before (spares_opens _ w _ _)

theorem spares_openingEnded (s : Session) (w : WorkerId) (step : Opening) (outcome : Except Exc (Option Text)) :
    Spares ((s.openingEnded w step outcome).Tells .worker) s (s.openingEnded w step outcome) := by
  unfold Session.openingEnded
  split
  · exact spares_raised s w _
  · exact spares_opens s w _ _
  · exact spares_opens s w _ _
  · rename_i queue
    have hqueue : Spares (Cause.Prompt .worker s.settings) s { s with replyQueue := queue } := .of_same rfl rfl rfl rfl rfl
    exact hqueue.before (spares_opens _ w _ _)
  · have hstarted : Spares (Cause.Prompt .worker s.settings) s { s with started := true } := .of_same rfl rfl rfl rfl rfl
    exact (hstarted.trans (spares_createLoop _)).before (spares_opened _ w)

theorem spares_closed (s : Session) (w : WorkerId) (outcome : Except Exc (Option Text)) :
    Spares ((s.closed w outcome).Tells actor) s (s.closed w outcome) := by
  unfold Session.closed
  split
  · exact spares_setStage s w _
  · exact spares_raised s w _
  · have hnew : Spares (Cause.Prompt actor s.settings) s s.newConnection := .of_same rfl rfl rfl rfl rfl
    exact hnew.before (spares_startConn _ w)

theorem spares_replyStopped (s : Session) (w : WorkerId) : Spares ((s.replyStopped w).Tells actor) s (s.replyStopped w) := by
  unfold Session.replyStopped
  extract_lets id t
  have hcalled : Spares (Cause.Prompt actor s.settings) s t := .of_same rfl rfl rfl rfl rfl
  split
  · exact hcalled.before (spares_closed t w _)
  · exact (hcalled.trans (spares_setStage t w _)).tells

theorem spares_stopReply (s : Session) (w : WorkerId) : Spares ((s.stopReply w).Tells actor) s (s.stopReply w) := by
  unfold Session.stopReply
  split
  · exact spares_replyStopped s w
  · split
    · exact spares_replyStopped s w
    · exact (spares_setCancelled s _ _).trans (spares_setStage _ w _)

theorem spares_reconnectLocked (s : Session) (w : WorkerId) :
    Spares ((s.reconnectLocked w).Tells actor) s (s.reconnectLocked w) := by
  unfold Session.reconnectLocked
  split
  · exact spares_returned s w
  · extract_lets t u
    have hstopped : Spares (Cause.Prompt actor s.settings) s t := .of_same rfl rfl rfl rfl rfl
    have hfailed : Spares (Cause.Prompt actor s.settings) s u := by
      dsimp only [u]
      split
      · rename_i hpolicy
        exact hstopped.trans (spares_discardAll (.failFast (Text.ofString "connection lost")) ⟨hpolicy, trivial⟩ rfl)
      · exact hstopped
    exact hfailed.before (spares_stopReply u w)

theorem spares_reconnectFrom (s : Session) (w : WorkerId) : Spares ((s.reconnectFrom w).Tells actor) s (s.reconnectFrom w) := by
  unfold Session.reconnectFrom
  split
  · have hlocked : Spares (Cause.Prompt actor s.settings) s { s with lock := some w } := .of_same rfl rfl rfl rfl rfl
    exact hlocked.before (spares_reconnectLocked _ w)
  · have hline : Spares ((s.reconnectFrom w).Tells actor) s { s with lockLine := s.lockLine ++ [w] } :=
      .of_same rfl rfl rfl rfl rfl
    have hearly : Spares (Cause.Prompt actor s.settings) s { s with lockLine := s.lockLine ++ [w] } :=
      .of_same rfl rfl rfl rfl rfl
    exact (hearly.trans (spares_setStage _ w _)).tells

theorem spares_nextAttempt (s : Session) (w : WorkerId) : Spares ((s.nextAttempt w).Tells actor) s (s.nextAttempt w) := by
  unfold Session.nextAttempt
  split
  · exact (spares_setWorker s w _).before (spares_reconnectFrom _ w)
  · exact (spares_setWorker s w _).before (spares_reconnectFrom _ w)
  · exact .refl s

theorem spares_cancelWorker (s : Session) (w : WorkerId) : Spares allowed s (s.cancelWorker w) := by
  unfold Session.cancelWorker
  split
  · exact .refl s
  · exact .refl s
  · exact .refl s
  · exact .refl s
  · exact spares_setCancelled s _ _

theorem spares_newWorker (s : Session) (purpose : Purpose) : Spares allowed s (s.newWorker purpose) :=
  .of_same rfl rfl rfl rfl rfl

theorem spares_start (s : Session) : Spares (s.start.Tells actor) s s.start :=
  (spares_newWorker s .start).before (spares_startConn _ _)

theorem spares_reconnect (s : Session) : Spares (s.reconnect.Tells actor) s s.reconnect :=
  (spares_newWorker s .reconnect).before (spares_reconnectFrom _ _)

theorem spares_coordinate (s : Session) (policy : ReconnectPolicy) :
    Spares ((s.coordinate policy).Tells actor) s (s.coordinate policy) :=
  (spares_newWorker s _).before (spares_reconnectFrom _ _)

theorem spares_close (s : Session) : Spares (s.close.Tells .closer) s s.close := by
  unfold Session.close
  extract_lets w t
  have hstopped : Spares (Cause.Prompt .closer s.settings) s { s with started := false } := .of_same rfl rfl rfl rfl rfl
  have hdiscarded : Spares (Cause.Prompt .closer s.settings) { s with started := false } _ :=
    spares_discardAll .closed ⟨trivial, rfl⟩ rfl
  have hcalled : Spares (Cause.Prompt .closer s.settings) s t := (hstopped.trans hdiscarded).trans (spares_newWorker _ .close)
  split
  · split
    · exact hcalled.before (spares_stopReply t w)
    · exact (hcalled.trans ((spares_cancelWorker t _).trans (spares_setStage _ w _))).tells
  · exact hcalled.before (spares_stopReply t w)

theorem spares_workerResumed (s : Session) (w : WorkerId) (epoch : Nat) (outcome : Except Exc (Option Text)) :
    Spares ((s.workerResumed w epoch outcome).Tells .worker) s (s.workerResumed w epoch outcome) := by
  unfold Session.workerResumed
  split
  · exact spares_closed s w outcome
  · exact spares_openingEnded s w _ outcome
  · exact spares_republished s w epoch _ _ _ outcome
  · exact .refl s

theorem spares_runWorker {s' : Session} {w : WorkerId} (h : s.runWorker w = some s') : Spares (s'.Tells actor) s s' := by
  have hcleared : Spares (Cause.Prompt actor s.settings) s (s.setCancelled (.worker w) false) := spares_setCancelled s _ _
  unfold Session.runWorker at h
  dsimp only at h
  split at h
  · cases h
    split
    · exact hcleared.before (spares_raised _ w _)
    · exact spares_reconnectFrom s w
  · cases h
    split
    · exact hcleared.before (spares_raised _ w _)
    · exact spares_nextAttempt s w
  · split at h
    · cases h
      have hline : Spares (Cause.Prompt actor s.settings) s
          { s.setCancelled (.worker w) false with lockLine := s.lockLine.filter (· ≠ w) } := .of_same rfl rfl rfl rfl rfl
      exact hline.before (spares_raised _ w _)
    · obtain ⟨-, ⟨⟩⟩ := Option.ite_none_right_eq_some.mp h
      have hlocked : Spares (Cause.Prompt actor s.settings) s { s with lock := some w, lockLine := s.lockLine.tail } :=
        .of_same rfl rfl rfl rfl rfl
      exact hlocked.before (spares_reconnectLocked _ w)
  · obtain ⟨-, ⟨⟩⟩ := Option.ite_none_right_eq_some.mp h
    have hauto : Spares (Cause.Prompt actor s.settings) s { s with autoTask := none } := .of_same rfl rfl rfl rfl rfl
    exact hauto.before (spares_stopReply _ w)
  · obtain ⟨-, ⟨⟩⟩ := Option.ite_none_right_eq_some.mp h
    exact spares_replyStopped s w
  · cases h

/-! ### Connections -/

theorem spares_setLink (s : Session) (epoch : Nat) (link : Link) : Spares allowed s (s.setLink epoch link) := by
  unfold Session.setLink
  split
  · exact .of_same rfl rfl rfl rfl rfl
  · exact .of_same rfl rfl rfl rfl rfl

theorem spares_heard (s : Session) (wired : Bool) (c c' : Client) :
    Spares (Cause.Prompt actor s.settings) s (s.heard wired c c') := by
  unfold Session.heard
  split
  · split
    · exact spares_onConnectionLost s _
    · exact .refl s
  · exact .refl s

end Tasks

end Nuropb.Sessions
