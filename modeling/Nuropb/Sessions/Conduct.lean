import Nuropb.Sessions.Registered

/-! # What a session does with its connections

The tasks of a session call operations of the current connection, each under the next number, and
replace it. Only a reply loop waits for deliveries, gives replies to requests, and acks.
-/
namespace Nuropb.Sessions

open Library Transport

/-- What only some tasks do. -/
inductive Dealing
  | reply
  | ack
  | receive
  | replace

/-- No request is given a reply, or another entry. -/
structure Fades (s s' : Session) : Prop where
  futures : ∀ r msg, s'.correlation.futures r = some (.ok msg) → s.correlation.futures r = some (.ok msg)
  pending : ∀ rid r, r < s.nextRequest → s'.correlation.pending.get? rid = some r →
    s.correlation.pending.get? rid = some r
  nextRequest : s.nextRequest ≤ s'.nextRequest

/-- Operations of the current connection are called, it is replaced, and replies are given to requests. -/
inductive Conducts (allowed : Dealing → Prop) : Session → Session → Prop
  | same {s s' : Session} (hclient : s'.link.client = s.link.client) (hprevious : s'.previous = s.previous)
      (hnext : s'.nextCall = s.nextCall) (howners : s'.owners = s.owners) (hfades : Fades s s') : Conducts allowed s s'
  | call (s : Session) {owner : Option Owner} (op : Operation) (howner : ∀ l, owner ≠ some (.loop l)) :
      Conducts allowed s (s.call owner op)
  | receive (s : Session) (l : LoopId) (hallowed : allowed .receive) :
      Conducts allowed s (s.call (some (.loop l)) (.receive false))
  | reply (s : Session) (rid : Text) (msg : IncomingMessage) (hallowed : allowed .reply) :
      Conducts allowed s { s with correlation := s.correlation.resolve rid msg }
  | ack (s : Session) (l : LoopId) (tag : Int) (hallowed : allowed .ack) :
      Conducts allowed s (s.call (some (.loop l)) (.settle (.basicAck channelId tag)))
  | replace (s : Session) (hallowed : allowed .replace) : Conducts allowed s s.newConnection
  | trans {s s' s'' : Session} (h : Conducts allowed s s') (h' : Conducts allowed s' s'') : Conducts allowed s s''

section Tasks

variable {allowed allowed' : Dealing → Prop} {s s' s'' : Session}

theorem Fades.of_same (hcorrelation : s'.correlation = s.correlation) (hrequest : s'.nextRequest = s.nextRequest) :
    Fades s s' where
  futures _ _ h := by rwa [hcorrelation] at h
  pending _ _ _ h := by rwa [hcorrelation] at h
  nextRequest := hrequest.ge

theorem Fades.trans (h : Fades s s') (h' : Fades s' s'') : Fades s s'' where
  futures r msg hdone := h.futures r msg (h'.futures r msg hdone)
  pending rid r hr hget := h.pending rid r hr (h'.pending rid r (hr.trans_le h.nextRequest) hget)
  nextRequest := h.nextRequest.trans h'.nextRequest

theorem Conducts.of_same (hclient : s'.link.client = s.link.client) (hprevious : s'.previous = s.previous)
    (hnext : s'.nextCall = s.nextCall) (howners : s'.owners = s.owners) (hcorrelation : s'.correlation = s.correlation)
    (hrequest : s'.nextRequest = s.nextRequest) : Conducts allowed s s' :=
  .same hclient hprevious hnext howners (.of_same hcorrelation hrequest)

theorem Conducts.refl (s : Session) : Conducts allowed s s := .of_same rfl rfl rfl rfl rfl rfl

theorem Conducts.mono (h : Conducts allowed s s') (himp : ∀ d, allowed d → allowed' d) : Conducts allowed' s s' := by
  induction h with
  | same hclient hprevious hnext howners hfades => exact .same hclient hprevious hnext howners hfades
  | call s op howner => exact .call s op howner
  | receive s l hallowed => exact .receive s l (himp _ hallowed)
  | reply s rid msg hallowed => exact .reply s rid msg (himp _ hallowed)
  | ack s l tag hallowed => exact .ack s l tag (himp _ hallowed)
  | replace s hallowed => exact .replace s (himp _ hallowed)
  | trans _ _ ih ih' => exact ih.trans ih'

theorem Conducts.fades (h : Conducts allowed s s') (hreply : ¬allowed .reply) : Fades s s' := by
  induction h with
  | same hclient hprevious hnext howners hfades => exact hfades
  | call s op howner => exact .of_same rfl rfl
  | receive s l hallowed => exact .of_same rfl rfl
  | reply s rid msg hallowed => exact absurd hallowed hreply
  | ack s l tag hallowed => exact .of_same rfl rfl
  | replace s hallowed => exact .of_same rfl rfl
  | trans _ _ ih ih' => exact ih.trans ih'

theorem ok_of_settle_error {futures : RequestId → Future Exc IncomingMessage} {ids : List RequestId} {e : Exc}
    {r : RequestId} {msg : IncomingMessage} (h : settle futures ids (.error e) r = some (.ok msg)) :
    futures r = some (.ok msg) := by
  obtain hdone | ⟨-, -, ⟨⟩⟩ := settle_eq_some_iff.mp h
  exact hdone

theorem conducts_discardAll (s : Session) (e : Exc) : Conducts allowed s (s.discardAll e) :=
  .same rfl rfl rfl rfl ⟨fun _ _ => ok_of_settle_error, fun _ _ _ hget => (nomatch hget), le_rfl⟩

theorem conducts_failPublish (s : Session) (rid : Text) (e : Exc) : Conducts allowed s (s.failPublish rid e) :=
  .same rfl rfl rfl rfl ⟨fun _ _ => ok_of_settle_error, fun _ _ _ hget => (Dict.get?_of_get?_erase hget).2, le_rfl⟩

theorem conducts_setStage (s : Session) (w : WorkerId) (stage : Stage) : Conducts allowed s (s.setStage w stage) := by
  unfold Session.setStage
  split
  · exact .of_same rfl rfl rfl rfl rfl rfl
  · exact .refl s

theorem conducts_setLoop (s : Session) (l : LoopId) (stage : LoopStage) : Conducts allowed s (s.setLoop l stage) :=
  .of_same rfl rfl rfl rfl rfl rfl

theorem conducts_onConnectionLost (s : Session) (e : Exc) : Conducts allowed s (s.onConnectionLost e) := by
  unfold Session.onConnectionLost
  split
  · exact .refl s
  · dsimp only
    have hmarked : Conducts allowed s { s with lossHandled := true, started := false, replyQueue := none } :=
      .of_same rfl rfl rfl rfl rfl rfl
    split
    · exact hmarked.trans (conducts_discardAll _ _)
    · split
      · exact hmarked
      · exact hmarked.trans (.of_same rfl rfl rfl rfl rfl rfl)

/-! ### The reply loop -/

theorem conducts_loopRaised (s : Session) (l : LoopId) (e : Exc) : Conducts allowed s (s.loopRaised l e) := by
  unfold Session.loopRaised
  split
  · exact conducts_setLoop s l _
  · exact (conducts_onConnectionLost s _).trans (conducts_setLoop _ l _)
  · exact (conducts_discardAll s _).trans (conducts_setLoop _ l _)

theorem conducts_onReply (s : Session) (l : LoopId) (msg : IncomingMessage) :
    Conducts (· ≠ .replace) s (s.onReply l msg) := by
  unfold Session.onReply
  extract_lets t id t'
  have hresolved : Conducts (· ≠ .replace) s t := by
    dsimp only [t]
    split
    · exact (Conducts.reply s _ msg (by simp)).trans (.of_same rfl rfl rfl rfl rfl rfl)
    · exact .refl s
  have hcalled : Conducts (· ≠ .replace) s t' := hresolved.trans (.ack t l _ (by simp))
  split
  · exact hcalled.trans (conducts_loopRaised t' l _)
  · exact hcalled.trans (conducts_setLoop t' l _)

theorem conducts_receiveNext (s : Session) (l : LoopId) : Conducts (· ≠ .replace) s (s.receiveNext l) := by
  unfold Session.receiveNext
  extract_lets id taken t
  have hcalled : Conducts (· ≠ .replace) s t := .receive s l (by simp)
  split
  · exact hcalled.trans (conducts_onReply t l _)
  · exact hcalled.trans (conducts_loopRaised t l _)
  · exact hcalled.trans (conducts_setLoop t l _)

theorem conducts_loopResumed (s : Session) (l : LoopId) (outcome : Except Exc (Option Text))
    (taken : Option IncomingMessage) : Conducts (· ≠ .replace) s (s.loopResumed l outcome taken) := by
  unfold Session.loopResumed
  split
  · exact conducts_onReply s l _
  · exact conducts_receiveNext s l
  · exact conducts_loopRaised s l _
  · exact conducts_loopRaised s l _
  · exact .refl s

/-! ### Workers -/

theorem conducts_release (s : Session) (w : WorkerId) : Conducts allowed s (s.release w) := by
  unfold Session.release
  split
  · exact .of_same rfl rfl rfl rfl rfl rfl
  · exact .refl s

theorem conducts_returned (s : Session) (w : WorkerId) : Conducts allowed s (s.returned w) :=
  (conducts_release s w).trans (conducts_setStage _ w _)

theorem conducts_raised (s : Session) (w : WorkerId) (e : Exc) : Conducts allowed s (s.raised w e) := by
  have hreleased : Conducts allowed s (s.release w) := conducts_release s w
  unfold Session.raised
  extract_lets t
  split
  · exact hreleased.trans (conducts_setStage t w _)
  · exact hreleased.trans (conducts_setStage t w _)
  · exact hreleased.trans (conducts_setStage t w _)
  · split
    · exact hreleased.trans ((conducts_discardAll t _).trans (conducts_setStage _ w _))
    · exact hreleased.trans (conducts_setStage t w _)
  · exact hreleased.trans (conducts_setStage t w _)

theorem conducts_republish (s : Session) (w : WorkerId) (entries : List (Text × ParkedPublish)) :
    Conducts allowed s (s.republish w entries) := by
  induction entries generalizing s with
  | nil =>
      rw [Session.republish]
      exact conducts_returned s w
  | cons entry rest ih =>
      obtain ⟨rid, parked⟩ := entry
      rw [Session.republish]
      split
      · extract_lets envelope id t
        have hcalled : Conducts allowed s t := .call s _ (by simp)
        split
        · exact hcalled.trans (conducts_setStage t w _)
        · have hrecorded : Conducts allowed t (t.recordPublish t.epoch envelope) := .of_same rfl rfl rfl rfl rfl rfl
          exact hcalled.trans (hrecorded.trans (ih _))
        · split
          · exact hcalled.trans ((conducts_failPublish t rid _).trans (ih _))
          · exact hcalled.trans (conducts_raised t w _)
      · have hforgotten : Conducts allowed s (s.forgetPublish rid) := .of_same rfl rfl rfl rfl rfl rfl
        exact hforgotten.trans (ih _)

theorem conducts_republished (s : Session) (w : WorkerId) (epoch : Nat) (rid : Text) (envelope : ParkedPublish)
    (rest : List (Text × ParkedPublish)) (outcome : Except Exc (Option Text)) :
    Conducts allowed s (s.republished w epoch rid envelope rest outcome) := by
  cases outcome with
  | ok result =>
      have hrecorded : Conducts allowed s (s.recordPublish epoch envelope) := .of_same rfl rfl rfl rfl rfl rfl
      exact hrecorded.trans (conducts_republish _ w rest)
  | error e =>
      rw [Session.republished]
      split
      · exact (conducts_failPublish s rid _).trans (conducts_republish _ w rest)
      · exact conducts_raised s w e

theorem conducts_opened (s : Session) (w : WorkerId) : Conducts allowed s (s.opened w) := by
  unfold Session.opened
  split
  · exact conducts_returned s w
  · split
    · exact conducts_returned s w
    · exact conducts_republish s w _

theorem conducts_opens (s : Session) (w : WorkerId) (op : Operation) (step : Opening) :
    Conducts allowed s (s.opens w op step) := by
  unfold Session.opens
  extract_lets id t
  have hcalled : Conducts allowed s t := .call s op (by simp)
  split
  · exact hcalled.trans (conducts_raised t w _)
  · exact hcalled.trans (conducts_setStage t w _)

theorem conducts_startConn (s : Session) (w : WorkerId) : Conducts allowed s (s.startConn w) := by
  have hwired : Conducts allowed s { s with lossHandled := false, link := { s.link with wired := true } } :=
    .of_same rfl rfl rfl rfl rfl rfl
  exact hwired.trans (conducts_opens _ w _ _)

theorem conducts_openingEnded (s : Session) (w : WorkerId) (step : Opening) (outcome : Except Exc (Option Text)) :
    Conducts allowed s (s.openingEnded w step outcome) := by
  unfold Session.openingEnded
  split
  · exact conducts_raised s w _
  · exact conducts_opens s w _ _
  · exact conducts_opens s w _ _
  · rename_i queue
    have hqueue : Conducts allowed s { s with replyQueue := queue } := .of_same rfl rfl rfl rfl rfl rfl
    exact hqueue.trans (conducts_opens _ w _ _)
  · have hstarted : Conducts allowed s ({ s with started := true }.createLoop) := .of_same rfl rfl rfl rfl rfl rfl
    exact hstarted.trans (conducts_opened _ w)

theorem conducts_closed (s : Session) (w : WorkerId) (outcome : Except Exc (Option Text)) :
    Conducts (· = .replace) s (s.closed w outcome) := by
  unfold Session.closed
  split
  · exact conducts_setStage s w _
  · exact conducts_raised s w _
  · have hnew : Conducts (· = .replace) s s.newConnection := .replace s rfl
    exact hnew.trans (conducts_startConn _ w)

theorem conducts_replyStopped (s : Session) (w : WorkerId) : Conducts (· = .replace) s (s.replyStopped w) := by
  unfold Session.replyStopped
  extract_lets id t
  have hcleared : Conducts (· = .replace) s { s with replyTask := none, replyQueue := none } :=
    .of_same rfl rfl rfl rfl rfl rfl
  have hcalled : Conducts (· = .replace) s t := hcleared.trans (.call _ _ (by simp))
  split
  · exact hcalled.trans (conducts_closed t w _)
  · exact hcalled.trans (conducts_setStage t w _)

theorem conducts_stopReply (s : Session) (w : WorkerId) : Conducts (· = .replace) s (s.stopReply w) := by
  unfold Session.stopReply
  split
  · exact conducts_replyStopped s w
  · rename_i l _
    split
    · exact conducts_replyStopped s w
    · have hcancelled : Conducts (· = .replace) s (s.setCancelled (.loop l) true) := .of_same rfl rfl rfl rfl rfl rfl
      exact hcancelled.trans (conducts_setStage _ w _)

theorem conducts_reconnectLocked (s : Session) (w : WorkerId) : Conducts (· = .replace) s (s.reconnectLocked w) := by
  unfold Session.reconnectLocked
  split
  · exact conducts_returned s w
  · extract_lets t u
    have hstopped : Conducts (· = .replace) s t := .of_same rfl rfl rfl rfl rfl rfl
    have hfailed : Conducts (· = .replace) s u := by
      dsimp only [u]
      split
      · exact hstopped.trans (conducts_discardAll t _)
      · exact hstopped
    exact hfailed.trans (conducts_stopReply u w)

theorem conducts_reconnectFrom (s : Session) (w : WorkerId) : Conducts (· = .replace) s (s.reconnectFrom w) := by
  unfold Session.reconnectFrom
  split
  · have hlocked : Conducts (· = .replace) s { s with lock := some w } := .of_same rfl rfl rfl rfl rfl rfl
    exact hlocked.trans (conducts_reconnectLocked _ w)
  · have hline : Conducts (· = .replace) s { s with lockLine := s.lockLine ++ [w] } := .of_same rfl rfl rfl rfl rfl rfl
    exact hline.trans (conducts_setStage _ w _)

theorem conducts_nextAttempt (s : Session) (w : WorkerId) : Conducts (· = .replace) s (s.nextAttempt w) := by
  have hset (worker : Worker) : Conducts (· = .replace) s (s.setWorker w worker) := .of_same rfl rfl rfl rfl rfl rfl
  unfold Session.nextAttempt
  split
  · exact (hset _).trans (conducts_reconnectFrom _ w)
  · exact (hset _).trans (conducts_reconnectFrom _ w)
  · exact .refl s

theorem conducts_newWorker (s : Session) (purpose : Purpose) : Conducts allowed s (s.newWorker purpose) :=
  .of_same rfl rfl rfl rfl rfl rfl

theorem conducts_cancelWorker (s : Session) (w : WorkerId) : Conducts allowed s (s.cancelWorker w) := by
  unfold Session.cancelWorker
  split <;> exact .of_same rfl rfl rfl rfl rfl rfl

theorem conducts_close (s : Session) : Conducts (· = .replace) s s.close := by
  unfold Session.close
  extract_lets w t
  have hstopped : Conducts (· = .replace) s { s with started := false } := .of_same rfl rfl rfl rfl rfl rfl
  have hcalled : Conducts (· = .replace) s t :=
    hstopped.trans ((conducts_discardAll _ .osError).trans (conducts_newWorker _ .close))
  split
  · split
    · exact hcalled.trans (conducts_stopReply t w)
    · exact hcalled.trans ((conducts_cancelWorker t _).trans (conducts_setStage _ w _))
  · exact hcalled.trans (conducts_stopReply t w)

theorem conducts_workerResumed (s : Session) (w : WorkerId) (epoch : Nat) (outcome : Except Exc (Option Text)) :
    Conducts (· = .replace) s (s.workerResumed w epoch outcome) := by
  unfold Session.workerResumed
  split
  · exact conducts_closed s w outcome
  · exact conducts_openingEnded s w _ outcome
  · exact conducts_republished s w epoch _ _ _ outcome
  · exact .refl s

theorem conducts_runWorker {w : WorkerId} (h : s.runWorker w = some s') : Conducts (· = .replace) s s' := by
  have hcleared : Conducts (· = .replace) s (s.setCancelled (.worker w) false) := .of_same rfl rfl rfl rfl rfl rfl
  unfold Session.runWorker at h
  dsimp only at h
  split at h
  · cases h
    split
    · exact hcleared.trans (conducts_raised _ w _)
    · exact conducts_reconnectFrom s w
  · cases h
    split
    · exact hcleared.trans (conducts_raised _ w _)
    · exact conducts_nextAttempt s w
  · split at h
    · cases h
      have hline : Conducts (· = .replace) s { s.setCancelled (.worker w) false with lockLine := s.lockLine.filter (· ≠ w) } :=
        .of_same rfl rfl rfl rfl rfl rfl
      exact hline.trans (conducts_raised _ w _)
    · obtain ⟨-, ⟨⟩⟩ := Option.ite_none_right_eq_some.mp h
      have hlocked : Conducts (· = .replace) s { s with lock := some w, lockLine := s.lockLine.tail } := .of_same rfl rfl rfl rfl rfl rfl
      exact hlocked.trans (conducts_reconnectLocked _ w)
  · obtain ⟨-, ⟨⟩⟩ := Option.ite_none_right_eq_some.mp h
    have hauto : Conducts (· = .replace) s { s with autoTask := none } := .of_same rfl rfl rfl rfl rfl rfl
    exact hauto.trans (conducts_stopReply _ w)
  · obtain ⟨-, ⟨⟩⟩ := Option.ite_none_right_eq_some.mp h
    exact conducts_replyStopped s w
  · cases h

/-! ### Requests -/

theorem conducts_endRequest (s : Session) (r : RequestId) (outcome : Except Exc IncomingMessage) :
    Conducts allowed s (s.endRequest r outcome) := by
  unfold Session.endRequest
  split
  · exact .of_same rfl rfl rfl rfl rfl rfl
  · exact .refl s

theorem conducts_replied (s : Session) (r : RequestId) (request : Request) (outcome : Except Exc IncomingMessage) :
    Conducts allowed s (s.replied r request outcome) := by
  unfold Session.replied
  split
  · split <;> exact conducts_endRequest s r _
  · extract_lets t
    have hgivenUp : Conducts allowed s t := by
      dsimp only [t]
      split
      · exact .refl s
      · exact conducts_failPublish s _ _
    have hforgotten : Conducts allowed t (t.forgetPublish request.rid) := .of_same rfl rfl rfl rfl rfl rfl
    exact hgivenUp.trans (hforgotten.trans (conducts_endRequest _ r _))
  · exact conducts_endRequest s r _

theorem conducts_publishEnded (s : Session) (r : RequestId) (epoch : Nat) (outcome : Except Exc (Option Text)) :
    Conducts allowed s (s.publishEnded r epoch outcome) := by
  unfold Session.publishEnded
  split
  · rename_i rid _ _ envelope _
    split
    · extract_lets t
      have hparked : Conducts allowed s { t with parked := t.parked.set rid envelope } := .of_same rfl rfl rfl rfl rfl rfl
      refine hparked.trans ?_
      unfold Session.awaitReply
      split
      · exact .of_same rfl rfl rfl rfl rfl rfl
      · exact conducts_replied _ r _ _
    · split
      · exact (conducts_failPublish s rid _).trans (conducts_endRequest _ r _)
      · exact conducts_endRequest s r _
  · exact .refl s

theorem conducts_request (s : Session) (args : RequestArgs) (generated : Text) :
    Conducts allowed s (s.request args generated) := by
  unfold Session.request
  split
  · exact .refl s
  · rename_i rid _
    extract_lets r t id
    have hregistered : Conducts allowed s t := by
      refine .same rfl rfl rfl rfl ⟨fun _ _ h => h, fun other q hq hget => ?_, Nat.le_succ _⟩
      change (s.correlation.pending.set rid r).get? other = some q at hget
      rw [Dict.get?_set] at hget
      split at hget
      · cases hget
        exact absurd hq (Nat.lt_irrefl _)
      · exact hget
    split
    · exact hregistered.trans (.of_same rfl rfl rfl rfl rfl rfl)
    · extract_lets u
      have hset (v : Session) (request : Request) : Conducts allowed v (v.setRequest r request) := .of_same rfl rfl rfl rfl rfl rfl
      have hcalled : Conducts allowed s u := hregistered.trans ((Conducts.call t _ (by simp)).trans (hset _ _))
      split
      · exact hcalled.trans (conducts_publishEnded u r _ _)
      · exact hcalled

theorem conducts_overtake (s : Session) (r : RequestId) (e : Exc) :
    Conducts allowed s { s with correlation := s.correlation.overtake r e } := by
  refine .same rfl rfl rfl rfl ⟨fun other msg h => ?_, fun _ _ _ h => h, le_rfl⟩
  simp only [CorrelationTable.overtake] at h
  split at h
  · cases h
  · exact h

theorem conducts_heard (s : Session) (wired : Bool) (c c' : Client) : Conducts allowed s (s.heard wired c c') := by
  unfold Session.heard
  split
  · split
    · exact conducts_onConnectionLost s _
    · exact .refl s
  · exact .refl s

theorem conducts_resume (s : Session) (epoch : Nat) (id : CallId) (outcome : Except Exc (Option Text))
    (taken : Option IncomingMessage) : Conducts (fun _ => True) s (s.resume epoch id outcome taken) := by
  unfold Session.resume
  split
  · exact conducts_publishEnded s _ epoch outcome
  · exact (conducts_loopResumed s _ outcome taken).mono fun _ _ => trivial
  · exact (conducts_workerResumed s _ epoch outcome).mono fun _ _ => trivial
  · exact .refl s

theorem conducts_moved (s : Session) (epoch : Nat) (link : Link) (c' : Client) (call : Option CallId)
    (taken : Option IncomingMessage) :
    Conducts (fun _ => True) (s.setLink epoch { link with client := c' }) (s.moved epoch link c' call taken) := by
  have hheard : Conducts (fun _ => True) _ _ :=
    conducts_heard (s.setLink epoch { link with client := c' }) link.wired link.client c'
  unfold Session.moved
  extract_lets t
  split
  · exact hheard
  · split
    · exact hheard.trans (conducts_resume t epoch _ _ taken)
    · exact hheard

/-! ### Steps -/

/-- What a step does in which no connection goes on and no loop starts. -/
theorem conducts_step {e : SessionEvent} (h : s.step e = some s') (hconn : ∀ epoch e', e ≠ .conn epoch e')
    (hinterrupt : ∀ epoch id, e ≠ .interrupt epoch id) (hloop : ∀ l, e ≠ .runLoop l) :
    Conducts (· = .replace) s s' := by
  cases e with
  | start =>
      cases h
      exact (conducts_newWorker s .start).trans (conducts_startConn _ _)
  | reconnect =>
      cases h
      exact (conducts_newWorker s .reconnect).trans (conducts_reconnectFrom _ _)
  | coordinate policy =>
      cases h
      exact (conducts_newWorker s _).trans (conducts_reconnectFrom _ _)
  | close =>
      cases h
      exact conducts_close s
  | request args generated =>
      obtain ⟨-, ⟨⟩⟩ := Option.ite_none_left_eq_some.mp h
      exact conducts_request s args generated
  | operate op =>
      cases h
      exact .call s op (by simp)
  | conn epoch e' => exact absurd rfl (hconn epoch e')
  | interrupt epoch id => exact absurd rfl (hinterrupt epoch id)
  | runWorker w => exact conducts_runWorker h
  | runLoop l => exact absurd rfl (hloop l)
  | wakeRequest r =>
      have hwake : s.wakeRequest r = some s' := h
      unfold Session.wakeRequest at hwake
      split at hwake
      · obtain ⟨outcome, -, rfl⟩ := Option.map_eq_some_iff.mp hwake
        exact conducts_replied s r _ outcome
      · cases hwake
  | expireRequest r =>
      have hexpire : s.expireRequest r = some s' := h
      unfold Session.expireRequest at hexpire
      split at hexpire
      · obtain ⟨-, ⟨⟩⟩ := Option.ite_none_left_eq_some.mp hexpire
        exact conducts_overtake s r .timeoutError
      · cases hexpire
  | cancelRequest r =>
      have hcancel : s.cancelRequest r = some s' := h
      unfold Session.cancelRequest at hcancel
      split at hcancel
      · cases hcancel
        exact .of_same rfl rfl rfl rfl rfl rfl
      · cases hcancel
        exact conducts_overtake s r .cancelledError
      · cases hcancel

theorem conducts_runLoop {l : LoopId} (h : s.runLoop l = some s') : Conducts (· ≠ .replace) s s' := by
  unfold Session.runLoop at h
  split at h
  · cases h
    split
    · have hcleared : Conducts (· ≠ .replace) s (s.setCancelled (.loop l) false) := .of_same rfl rfl rfl rfl rfl rfl
      exact hcleared.trans (conducts_loopRaised _ l _)
    · exact conducts_receiveNext s l
  · cases h

end Tasks

end Nuropb.Sessions
