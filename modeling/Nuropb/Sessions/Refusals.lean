import Nuropb.Sessions.ReplySteps
import Nuropb.Transport.EarlyErrors

/-! # What a worker's publishes come to

A worker that publishes again goes on with its list when a publish has returned or was refused. While publishing is
blocked each one is refused at its call; otherwise the worker awaits the first one that is still wanted.
-/
namespace Nuropb.Sessions

open Library Transport

/-- What a worker goes on with: the id whose publish has been refused, and what it is left to publish. -/
structure Remainder where
  answered : List Text
  left : List (Text × ParkedPublish)

namespace Session

/-- Each publish of a worker is refused at its call. -/
def Blocked (s : Session) : Prop :=
  s.link.client.conn.channels.get? channelId = some .open ∧ s.link.client.conn.publishBlocked = true

instance (s : Session) : Decidable s.Blocked := by
  unfold Blocked
  infer_instance

theorem Blocked.of_conn {s t : Session} (h : s.Blocked) (hconn : t.link.client.conn = s.link.client.conn) :
    t.Blocked := by
  rw [Blocked, hconn]
  exact h

/-- What is left to the worker that is done with its opening, or with a publish. -/
def remainder (s : Session) (w : WorkerId) (outcome : Except Exc (Option Text)) : Option Remainder :=
  match s.workers w, outcome with
  | some ⟨purpose, .opening _ .consuming⟩, .ok _ =>
    some ⟨[], if purpose = .start ∨ s.settings.policy.failOutstanding ∨ s.replyQueue = none then []
      else s.parked.entries⟩
  | some ⟨_, .republishing _ _ _ rest⟩, .ok _ => some ⟨[], rest⟩
  | some ⟨_, .republishing _ rid _ rest⟩, .error exc => if exc.isPublishRefusal then some ⟨[rid], rest⟩ else none
  | _, _ => none

/-- The ids whose publishes are refused as the worker goes on. -/
def refusals (s : Session) (w : WorkerId) (outcome : Except Exc (Option Text)) : List Text :=
  match s.remainder w outcome with
  | some m => m.answered ++ if s.Blocked then m.left.map Prod.fst else []
  | none => []

/-- The ids whose publishes are refused again in the step. -/
def refused (s : Session) (e : SessionEvent) : List Text :=
  match s.callEnds e with
  | some (_, id, outcome) =>
    match (s.owners id).filter fun owner => s.awaits owner = some id with
    | some (.worker w) => (s.heardIn e).refusals w outcome
    | _ => []
  | none => []

end Session

/-! ## Calls -/

section Calls

variable {c c' : Client} {id : CallId} {outcome : Except Exc (Option Text)}

theorem lost_event {op : Operation} (h : c.step (op.event id) = some c') : c'.conn.lost = c.conn.lost := by
  cases op with
  | connect =>
    obtain ⟨-, ⟨⟩⟩ := Option.ite_none_right_eq_some.mp h
    exact (calms_handshake (sheds_start c.config id c.conn) id).conn.lost
  | openChannel channel =>
    obtain ⟨-, ⟨⟩⟩ := Option.ite_none_right_eq_some.mp h
    exact (calms_openChannel c id channel).conn.lost
  | request r =>
    obtain ⟨-, h⟩ := Option.ite_none_right_eq_some.mp h
    obtain ⟨tasks, htasks, rfl⟩ := Option.map_eq_some_iff.mp h
    rw [absorb_conn]
    exact (operates_taskStep htasks rfl).lost
  | publish args =>
    obtain ⟨-, h⟩ := Option.ite_none_right_eq_some.mp h
    obtain ⟨tasks, htasks, rfl⟩ := Option.map_eq_some_iff.mp h
    rw [absorb_conn]
    exact (operates_taskStep htasks rfl).lost
  | settle op =>
    obtain ⟨-, ⟨⟩⟩ := Option.ite_none_right_eq_some.mp h
    exact (calms_settle c id op true).conn.lost
  | receive timeout =>
    obtain ⟨-, ⟨⟩⟩ := Option.ite_none_right_eq_some.mp h
    rw [Transport.receive_conn]
  | receiveReturn timeout =>
    obtain ⟨-, ⟨⟩⟩ := Option.ite_none_right_eq_some.mp h
    rw [Transport.receiveReturn_conn]
  | close =>
    obtain ⟨-, ⟨⟩⟩ := Option.ite_none_right_eq_some.mp h
    exact (calms_close c id).conn.lost
  | forceDrop =>
    obtain ⟨-, ⟨⟩⟩ := Option.ite_none_right_eq_some.mp h
    rfl

/-- A publish that ends at its call has raised. -/
theorem publish_raises {args : PublishArgs} (hfresh : c.fresh id = true) (hdrain : args.drain = true)
    (h : ((c.step (.task (.publish id args))).getD c).outcome id = some outcome) :
    ∃ exc, outcome = .error exc ∧
      startPublish id args c.conn = .error exc ((c.step (.task (.publish id args))).getD c).conn := by
  obtain ⟨hcalls, hjobs⟩ := fresh_iff.mp hfresh
  have hstep : c.step (.task (.publish id args)) =
      some (c.absorb (c.tasks.publishReached id args (startPublish id args c.conn))) := by
    have hadmits : c.admits (.publish id args) = true := hfresh
    have htasks : c.tasks.step (.publish id args) = some (c.tasks.publishReached id args (startPublish id args c.conn)) :=
      if_pos hcalls
    rw [Client.step, if_pos hadmits, htasks, Option.map_some]
  rw [hstep, Option.getD_some] at h ⊢
  cases hstart : startPublish id args c.conn with
  | ok reached conn =>
    rw [hstart] at h
    cases reached with
    | selecting props =>
      simp [Client.outcome, Machine.publishReached, Machine.ask, Machine.setCall] at h
    | written tag =>
      simp [Client.outcome, Machine.publishReached, Machine.setCall, hdrain] at h
  | error exc conn =>
    rw [hstart] at h
    simp only [Client.outcome, Machine.publishReached, Machine.setCall, absorb_tasks, if_pos, Option.some.injEq] at h
    refine ⟨exc, h.symm, ?_⟩
    rw [absorb_conn]
    rfl

/-- It is refused only because publishing is blocked. -/
theorem publish_atOnce {args : PublishArgs} (hfresh : c.fresh id = true) (hdrain : args.drain = true)
    (h : ((c.step (.task (.publish id args))).getD c).outcome id = some outcome) :
    ∃ exc, outcome = .error exc ∧ (Internal exc ∨ exc.isPublishRefusal = true ∧
      c.conn.channels.get? args.channel = some .open ∧ c.conn.publishBlocked = true ∧
        ((c.step (.task (.publish id args))).getD c).conn = c.conn) := by
  obtain ⟨exc, houtcome, hstart⟩ := publish_raises hfresh hdrain h
  exact ⟨exc, houtcome, startPublish_refused hstart⟩

theorem request_atOnce {r : SyncRequest} {exc : Exc} (hfresh : c.fresh id = true)
    (h : ((c.step (.task (.request id r))).getD c).outcome id = some (.error exc)) : Internal exc := by
  obtain ⟨hcalls, hjobs⟩ := fresh_iff.mp hfresh
  have hstep : c.step (.task (.request id r)) = some (c.absorb (c.tasks.requestReached id r (r.start id c.conn))) := by
    have hadmits : c.admits (.request id r) = true := hfresh
    have htasks : c.tasks.step (.request id r) = some (c.tasks.requestReached id r (r.start id c.conn)) := if_pos hcalls
    rw [Client.step, if_pos hadmits, htasks, Option.map_some]
  rw [hstep, Option.getD_some] at h
  cases hstart : r.start id c.conn with
  | ok asked conn =>
    rw [hstart] at h
    cases asked <;> simp [Client.outcome, Machine.requestReached, Machine.ask, Machine.setCall] at h
  | error raised conn =>
    rw [hstart] at h
    simp only [Client.outcome, Machine.requestReached, Machine.setCall, absorb_tasks, if_pos, Option.some.injEq,
      Except.error.injEq] at h
    rw [← h]
    exact internal_requestStart id r _ _ _ hstart

theorem openChannel_atOnce {channel : Int} {exc : Exc} (hfresh : c.fresh id = true)
    (h : ((c.step (.openChannel id channel)).getD c).outcome id = some (.error exc)) : Internal exc := by
  have hcalls := (fresh_iff.mp hfresh).1
  have hstep : c.step (.openChannel id channel) = some (c.openChannel id channel) := if_pos hfresh
  rw [hstep, Option.getD_some, Client.openChannel] at h
  split at h
  · simp [Client.outcome, Client.setJob, Client.setConn, Machine.setConn, hcalls] at h
  · rename_i raised conn hstart
    simp only [Client.outcome, Client.setJob, Client.setConn, Machine.setConn, absorb_tasks, hcalls, if_pos, Except.map,
      Option.some.injEq, Except.error.injEq] at h
    rw [← h]
    exact internal_startOpenChannel id channel _ _ _ hstart

theorem close_atOnce {exc : Exc} (hfresh : c.fresh id = true) :
    ((c.step (.close id)).getD c).outcome id ≠ some (.error exc) := by
  intro h
  have hcalls := (fresh_iff.mp hfresh).1
  have hstep : c.step (.close id) = some (c.close id) := if_pos hfresh
  rw [hstep, Option.getD_some] at h
  unfold Client.close at h
  split at h
  · simp [Client.outcome, Client.finishClose, Client.setJob, hcalls, Except.map] at h
  · extract_lets t at h
    split at h
    · split at h
      · simp [t, Client.outcome, Client.setJob, Client.setConn, Machine.setConn, hcalls] at h
      · simp [t, Client.outcome, Client.closeReader, Client.setJob, Client.setConn, Machine.setConn, hcalls] at h
    · simp [t, Client.outcome, Client.closeReader, Client.setJob, Client.setConn, Machine.setConn, hcalls] at h

end Calls

/-! ## What is refused -/

/-- Requests are spared, and each future that a refusal is given to had its entry under one of the ids. -/
structure Refuses (rids : List Text) (s t : Session) : Prop where
  spares : Spares (fun _ => True) s t
  refused : ∀ r rid exc, exc.isPublishRefusal = true → s.correlation.futures r = none →
    t.correlation.futures r = some (.error (refusalError s.settings rid none exc)) →
      ∃ rid ∈ rids, s.correlation.pending.get? rid = some r

section Refusing

variable {s s' t u : Session} {w : WorkerId} {r : RequestId} {rid : Text} {rids : List Text} {exc : Exc} {e : SessionEvent}
  {outcome : Except Exc (Option Text)} {decision : Except Exc IncomingMessage}

theorem Clears.cause_of_done {settings : Settings} {allowed : Cause → Prop} {a b : Ledger}
    (h : Clears settings allowed a b) (hnone : a.correlation.futures r = none)
    (hdone : b.correlation.futures r = some decision) : ∃ cause, allowed cause ∧ cause.outcome settings = decision := by
  induction h with
  | refl =>
    rw [hnone] at hdone
    cases hdone
  | @discard b cause exc _ hallowed hexc ih =>
    rcases settle_eq_some_iff.mp hdone with hearlier | ⟨-, -, heq⟩
    · exact ih hearlier
    · exact ⟨cause, hallowed, hexc.trans heq⟩
  | @complete b cause rid _ hallowed ih =>
    rcases settle_eq_some_iff.mp hdone with hearlier | ⟨-, -, heq⟩
    · exact ih hearlier
    · exact ⟨cause, hallowed, heq⟩
  | forget _ _ _ ih => exact ih hdone

/-- No other cause gives a future what a refused republish does. -/
theorem outcome_ne_refusal {settings : Settings} {cause : Cause} (hof : cause.Of .other) (hrefusal : exc.isPublishRefusal = true) :
    cause.outcome settings ≠ .error (refusalError settings rid none exc) := by
  cases cause with
  | reply msg => simp [Cause.outcome]
  | gaveUp e => exact hof.elim
  | refused rid e => cases hof
  | closed => cases hof
  | failFast message => cases exc <;> simp [Cause.outcome, connectionLostError, refusalError]
  | exhausted w e => cases exc <;> simp [Cause.outcome, connectionLostError, refusalError]
  | loopFailed l e => cases hof

/-- What is no worker that publishes again refuses nothing. -/
theorem refuses_of_spares (h : Spares (u.Tells .other) s t) : Refuses rids s t where
  spares := h.mono fun _ _ => trivial
  refused r rid exc hrefusal hnone hdone := by
    obtain ⟨cause, ⟨-, hof⟩, heq⟩ := h.ledger.cause_of_done hnone hdone
    exact absurd heq (outcome_ne_refusal hof hrefusal)

theorem Refuses.trans (h : Refuses rids s t) (h' : Refuses rids t u) : Refuses rids s u where
  spares := h.spares.trans h'.spares
  refused r rid exc hrefusal hnone hdone := by
    cases hmiddle : t.correlation.futures r with
    | none =>
      rw [← h.spares.settings] at hdone
      obtain ⟨other, hmem, hget⟩ := h'.refused r rid exc hrefusal hmiddle hdone
      exact ⟨other, hmem, h.spares.ledger.get_of_get hget⟩
    | some earlier =>
      have hkept : u.correlation.futures r = some earlier := h'.spares.ledger.futures hmiddle
      rw [hkept] at hdone
      exact h.refused r rid exc hrefusal hnone (hmiddle.trans hdone)

theorem refuses_failPublish (hrid : rid ∈ rids) (exc : Exc) (hexc : exc.isPublishRefusal = true) :
    Refuses rids s (s.failPublish rid (refusalError s.settings rid none exc)) where
  spares := (spares_failPublish hexc).mono fun _ _ => trivial
  refused r other exc' hrefusal hnone hdone := by
    rcases settle_eq_some_iff.mp hdone with hearlier | ⟨-, hentry, -⟩
    · rw [hnone] at hearlier
      cases hearlier
    · exact ⟨rid, hrid, Option.mem_toList.mp hentry⟩

theorem refuses_republish {entries : List (Text × ParkedPublish)} (hs : s.Orderly)
    (hrids : s.Blocked → ∀ entry ∈ entries, entry.1 ∈ rids) : Refuses rids s (s.republish w entries) := by
  induction entries generalizing s with
  | nil =>
    rw [Session.republish]
    exact refuses_of_spares (u := s) (spares_returned s w)
  | cons entry rest ih =>
    obtain ⟨rid, parked⟩ := entry
    have hrest (hblocked : s.Blocked) : ∀ entry ∈ rest, entry.1 ∈ rids := fun entry hentry =>
      hrids hblocked entry (List.mem_cons_of_mem _ hentry)
    rw [Session.republish]
    split
    · extract_lets envelope id t
      have hcalled : Refuses rids s t := refuses_of_spares (u := s) (spares_call s _ _)
      have horderly : t.Orderly := orderly_call hs _ (by simp)
      split
      · exact hcalled.trans (refuses_of_spares (u := t) (spares_setStage t w _))
      · rename_i result hended
        obtain ⟨exc, heq, -⟩ := publish_atOnce ((hs _ List.mem_cons_self).fresh _ le_rfl) rfl hended
        cases heq
      · rename_i exc hended
        obtain ⟨_, ⟨⟩, hblocked⟩ := publish_atOnce ((hs _ List.mem_cons_self).fresh _ le_rfl) rfl hended
        split
        · rename_i hrefusal
          obtain ⟨-, hopen, hblocked, hsame⟩ := hblocked.resolve_left fun hinternal => by
            rw [hinternal.1] at hrefusal
            cases hrefusal
          have hconn : t.link.client.conn = s.link.client.conn := hsame
          refine hcalled.trans ((refuses_failPublish (hrids ⟨hopen, hblocked⟩ _ List.mem_cons_self) exc hrefusal).trans
            (ih ?_ fun _ => hrest ⟨hopen, hblocked⟩))
          exact horderly
        · exact hcalled.trans (refuses_of_spares (spares_raised t w exc))
    · rename_i hrid
      have hforgot : Refuses rids s (s.forgetPublish rid) := refuses_of_spares (u := s) (spares_forgetPublish (by simpa using hrid))
      exact hforgot.trans (ih hs hrest)

theorem mem_refusals {m : Remainder} (h : s.remainder w outcome = some m) :
    rid ∈ s.refusals w outcome ↔ rid ∈ m.answered ∨ s.Blocked ∧ rid ∈ m.left.map Prod.fst := by
  rw [Session.refusals, h]
  by_cases hblocked : s.Blocked
  · simp [hblocked]
  · simp [hblocked]

theorem remainder_returned {purpose : Purpose} {call : CallId} {envelope : ParkedPublish} {rest : List (Text × ParkedPublish)}
    (hworker : s.workers w = some ⟨purpose, .republishing call rid envelope rest⟩) (result : Option Text) :
    s.remainder w (.ok result) = some ⟨[], rest⟩ := by
  unfold Session.remainder
  rw [hworker]

theorem remainder_refused {purpose : Purpose} {call : CallId} {envelope : ParkedPublish} {rest : List (Text × ParkedPublish)}
    (hworker : s.workers w = some ⟨purpose, .republishing call rid envelope rest⟩) (hrefusal : exc.isPublishRefusal = true) :
    s.remainder w (.error exc) = some ⟨[rid], rest⟩ := by
  unfold Session.remainder
  rw [hworker]
  exact if_pos hrefusal

theorem remainder_consumed {purpose : Purpose} {call : CallId}
    (hworker : s.workers w = some ⟨purpose, .opening call .consuming⟩) (result : Option Text) :
    s.remainder w (.ok result) =
      some ⟨[], if purpose = .start ∨ s.settings.policy.failOutstanding ∨ s.replyQueue = none then []
        else s.parked.entries⟩ := by
  unfold Session.remainder
  rw [hworker]

theorem refuses_republished (hs : s.Orderly) {purpose : Purpose} {call : CallId} {envelope : ParkedPublish}
    {rest : List (Text × ParkedPublish)} (hworker : s.workers w = some ⟨purpose, .republishing call rid envelope rest⟩)
    (epoch : Nat) (outcome : Except Exc (Option Text)) :
    Refuses (s.refusals w outcome) s (s.republished w epoch rid envelope rest outcome) := by
  cases outcome with
  | ok result =>
    have hrecorded : Refuses (s.refusals w (.ok result)) s (s.recordPublish epoch envelope) :=
      refuses_of_spares (u := s) (spares_recordPublish s epoch envelope)
    exact hrecorded.trans (refuses_republish hs fun hblocked entry hentry =>
      (mem_refusals (remainder_returned hworker result)).mpr (.inr ⟨hblocked, List.mem_map_of_mem hentry⟩))
  | error exc =>
    rw [Session.republished]
    split
    · rename_i hrefusal
      have hmem {other : Text} : other ∈ s.refusals w (.error exc) ↔ other ∈ [rid] ∨ s.Blocked ∧ other ∈ rest.map Prod.fst :=
        mem_refusals (remainder_refused hworker hrefusal)
      exact (refuses_failPublish (hmem.mpr (.inl (List.mem_singleton_self rid))) exc hrefusal).trans
        (refuses_republish hs fun hblocked entry hentry => hmem.mpr (.inr ⟨hblocked, List.mem_map_of_mem hentry⟩))
    · exact refuses_of_spares (spares_raised s w exc)

theorem refuses_opened (hs : s.Orderly) (hrids : s.Blocked → (s.workers w).map Worker.purpose ≠ some .start →
      s.settings.policy.failOutstanding = false → s.replyQueue ≠ none → ∀ entry ∈ s.parked.entries, entry.1 ∈ rids) :
    Refuses rids s (s.opened w) := by
  unfold Session.opened
  split
  · exact refuses_of_spares (u := s) (spares_returned s w)
  · rename_i hpurpose
    split
    · exact refuses_of_spares (u := s) (spares_returned s w)
    · rename_i hwanted
      obtain ⟨hpolicy, hqueue⟩ := not_or.mp hwanted
      exact refuses_republish hs fun hblocked => hrids hblocked (fun hstart => hpurpose hstart)
        ((Bool.not_eq_true _).mp hpolicy) hqueue

theorem refuses_consumed (hs : s.Orderly) {purpose : Purpose} {call : CallId}
    (hworker : s.workers w = some ⟨purpose, .opening call .consuming⟩) (result : Option Text) :
    Refuses (s.refusals w (.ok result)) s ((Session.createLoop { s with started := true }).opened w) := by
  have hstarted : Refuses (s.refusals w (.ok result)) s (Session.createLoop { s with started := true }) :=
    refuses_of_spares (u := s) (.of_same rfl rfl rfl rfl rfl)
  refine hstarted.trans (refuses_opened hs fun hblocked hpurpose hpolicy hqueue entry hentry => ?_)
  have hblocked : s.Blocked := hblocked
  have hwanted : ¬(purpose = .start ∨ s.settings.policy.failOutstanding = true ∨ s.replyQueue = none) := by
    rintro (rfl | hfail | hnone)
    · refine hpurpose ?_
      change (s.workers w).map Worker.purpose = some .start
      rw [hworker, Option.map_some]
    · exact absurd hfail ((Bool.not_eq_true _).mpr hpolicy)
    · exact hqueue hnone
  refine (mem_refusals (remainder_consumed hworker result)).mpr (.inr ⟨hblocked, ?_⟩)
  rw [if_neg hwanted]
  exact List.mem_map_of_mem hentry

theorem refuses_workerResumed (hs : s.Orderly) (w : WorkerId) (epoch : Nat) (outcome : Except Exc (Option Text)) :
    Refuses (s.refusals w outcome) s (s.workerResumed w epoch outcome) := by
  unfold Session.workerResumed
  split
  · exact refuses_of_spares (spares_closed s w outcome)
  · rename_i call step hstage
    unfold Session.openingEnded
    split
    · exact refuses_of_spares (spares_raised s w _)
    · exact refuses_of_spares (spares_opens s w _ _)
    · exact refuses_of_spares (spares_opens s w _ _)
    · rename_i queue
      have hqueue : Refuses (s.refusals w (.ok queue)) s { s with replyQueue := queue } :=
        refuses_of_spares (u := s) (.of_same rfl rfl rfl rfl rfl)
      exact hqueue.trans (refuses_of_spares (spares_opens _ w _ _))
    · obtain ⟨⟨purpose, stage⟩, hworker, hopening⟩ := Option.map_eq_some_iff.mp hstage
      cases hopening
      exact refuses_consumed hs hworker _
  · rename_i call rid envelope rest hstage
    obtain ⟨⟨purpose, stage⟩, hworker, hrepublishing⟩ := Option.map_eq_some_iff.mp hstage
    cases hrepublishing
    exact refuses_republished hs hworker epoch outcome
  · exact refuses_of_spares (u := s) (.refl s)

/-! ### Steps -/

theorem Conducts.unlost {allowed : Dealing → Prop} (h : Conducts allowed s t) (hlost : s.link.client.conn.lost = none) :
    t.link.client.conn.lost = none := by
  have hcall (s : Session) (owner : Option Owner) (op : Operation) (hlost : s.link.client.conn.lost = none) :
      (s.call owner op).link.client.conn.lost = none := by
    change ((s.link.client.step (op.event s.nextCall)).getD s.link.client).conn.lost = none
    cases hstep : s.link.client.step (op.event s.nextCall) with
    | none => exact hlost
    | some after => exact (lost_event hstep).trans hlost
  induction h with
  | same hclient _ _ _ _ =>
    rw [hclient]
    exact hlost
  | call s op _ => exact hcall s _ op hlost
  | receive s l _ => exact hcall s _ _ hlost
  | reply s rid msg _ => exact hlost
  | ack s l tag _ => exact hcall s _ _ hlost
  | replace s _ => rfl
  | trans _ _ ih ih' => exact ih' (ih hlost)

/-- In a step of a worker the session hears of the connection, and then its call may have ended. -/
theorem worker_resumes (hs : s.Orderly) (h : s.step e = some s') (hactor : s.actor e = .worker) :
    ∃ u, u.Orderly ∧ Refuses [] s u ∧ u.link = (s.heardIn e).link ∧ (s' = u ∨
      ∃ w epoch outcome, s' = u.workerResumed w epoch outcome ∧ s.refused e = u.refusals w outcome) := by
  have hmoved {m : Move} (hmove : s.move e = some m) : ∃ u, u.Orderly ∧ Refuses [] s u ∧ u.link = (s.heardIn e).link ∧
      (s' = u ∨ ∃ w epoch outcome, s' = u.workerResumed w epoch outcome ∧ s.refused e = u.refusals w outcome) := by
    obtain ⟨id, w, hcall, howner, hawaits⟩ : ∃ id w, m.call = some id ∧ s.owners id = some (.worker w) ∧
        s.awaits (.worker w) = some id := by
      rw [actor_of_move hmove, Session.callActor] at hactor
      split at hactor
      · cases hactor
      · rename_i w hfound
        obtain ⟨id, hcall, hfilter⟩ := Option.bind_eq_some_iff.mp hfound
        obtain ⟨howner, hawaits⟩ := Option.filter_eq_some_iff.mp hfilter
        exact ⟨id, w, hcall, howner, of_decide_eq_true hawaits⟩
      · cases hactor
    obtain ⟨u, hu, hresume⟩ := resume_of_move h hmove
    have hspares : Spares (Cause.Prompt .other s.settings) s u := spares_of_heardIn hu
    have hheard : Refuses [] s u := refuses_of_spares (hspares.mono fun _ hcause => hcause.tells rfl)
    have hsame : u.Orderly ∧ u.link = (s.heardIn e).link ∧
        ∀ outcome, u.refusals w outcome = (s.heardIn e).refusals w outcome := by
      rcases hu with rfl | ⟨owner, rfl⟩
      · exact ⟨orderly_heardIn hs h, rfl, fun _ => rfl⟩
      · exact ⟨orderly_heardIn hs h, rfl, fun _ => rfl⟩
    obtain ⟨horderly, hlink, hrefusals⟩ := hsame
    refine ⟨u, horderly, hheard, hlink, ?_⟩
    rcases hresume with rfl | ⟨other, outcome, hother, houtcome, rfl⟩
    · exact .inl rfl
    · rw [hcall] at hother
      cases hother
      have hends : s.callEnds e = some (m.epoch, id, outcome) := by simp [Session.callEnds, hmove, hcall, houtcome]
      have hrefused : s.refused e = u.refusals w outcome := by
        rw [Session.refused, hends]
        dsimp only
        rw [howner, Option.filter_some, if_pos (decide_eq_true hawaits), hrefusals]
      have howned {owner : Owner} (hfound : (u.owners id).filter (fun owner => u.awaits owner = some id) = some owner) :
          owner = .worker w := by
        have hfirst := (resumes_of_heard hu hfound).1
        rw [howner] at hfirst
        exact (Option.some.inj hfirst).symm
      unfold Session.resume
      split
      · rename_i hfound
        cases howned hfound
      · rename_i hfound
        cases howned hfound
      · rename_i hfound
        cases howned hfound
        exact .inr ⟨w, m.epoch, outcome, rfl, hrefused⟩
      · exact .inl rfl
  cases e with
  | conn epoch e =>
    obtain ⟨m, hmove⟩ := move_of_step h
    exact hmoved hmove
  | interrupt epoch id =>
    obtain ⟨m, hmove⟩ := move_of_interrupt h
    exact hmoved hmove
  | _ => cases hactor

/-- A future that a worker's step gives a refusal had its entry under an id that is refused in the step, on a connection
that the rest of the step does not lose. -/
theorem refused_of_step (hs : s.Orderly) (h : s.step e = some s') (hactor : s.actor e = .worker)
    (hrefusal : exc.isPublishRefusal = true) (hnone : s.correlation.futures r = none)
    (hdone : s'.correlation.futures r = some (.error (refusalError s.settings rid none exc))) :
    (∃ rid ∈ s.refused e, s.correlation.pending.get? rid = some r) ∧
      ((s.heardIn e).link.client.conn.lost = none → s'.link.client.conn.lost = none) := by
  obtain ⟨u, horderly, hheard, hlink, rfl | ⟨w, epoch, outcome, rfl, hrefused⟩⟩ := worker_resumes hs h hactor
  · obtain ⟨_, hmem, -⟩ := hheard.refused r rid exc hrefusal hnone hdone
    cases hmem
  · rw [hrefused, ← hlink]
    refine ⟨?_, (conducts_workerResumed u w epoch outcome).unlost⟩
    cases hmiddle : u.correlation.futures r with
    | none =>
      rw [← hheard.spares.settings] at hdone
      obtain ⟨other, hmem, hget⟩ := (refuses_workerResumed horderly w epoch outcome).refused r rid exc hrefusal hmiddle hdone
      exact ⟨other, hmem, hheard.spares.ledger.get_of_get hget⟩
    | some earlier =>
      have hkept := (refuses_workerResumed horderly w epoch outcome).spares.ledger.futures hmiddle
      have hsame := Option.some.inj (hkept.symm.trans hdone)
      rw [hsame] at hmiddle
      obtain ⟨_, hmem, -⟩ := hheard.refused r rid exc hrefusal hnone hmiddle
      cases hmem

end Refusing

end Nuropb.Sessions
