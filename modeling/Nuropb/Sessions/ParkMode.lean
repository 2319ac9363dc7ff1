import Nuropb.Sessions.Endings
import Nuropb.Sessions.Refusals
import Nuropb.Sessions.Residue

/-! # Requests that live through a loss

In park mode a loss fails no future of the table. A request that waits for its reply goes on waiting while
the connections change, until a reply, a refusal, a timeout, a close, or the last attempt of a reconnect
decides its future.
-/
namespace Nuropb.Sessions

open Library Transport Patterns

namespace Session

/-- The connection of the epoch is lost, or another one has taken its place. -/
def Past (k : Nat) (s : Session) : Prop := k < s.epoch ∨ k = s.epoch ∧ s.link.client.conn.lost ≠ none

/-- The request is neither cancelled nor does its publish raise, the call that a reply loop awaits raises only a loss
or a cancellation, a reply is taken only while it can be acked, and a republish of the request is refused only by a
connection that is not lost. -/
structure KeepsAlive (r : RequestId) (s : Session) (e : SessionEvent) : Prop where
  free : s.CallsFree e
  uncancelled : e ≠ .cancelRequest r
  published : ∀ epoch exc, ¬s.PublishEnds e r epoch (.error exc)
  looped : ∀ l exc, s.LoopRaises e l exc → exc = .cancelledError ∨ ∃ reason, exc = .connectionLost reason
  acked : ∀ msg, s.reply e = some msg → s.Live
  refused : ∀ rid ∈ s.refused e, s.correlation.pending.get? rid = some r → s.correlation.futures r = none →
    (s.heardIn e).link.client.conn.lost = none

end Session

/-- What the future of a request may be done with in a step, once the connection of the epoch is lost. -/
inductive Decides (k : Nat) (r : RequestId) (s : Session) (e : SessionEvent) (s' : Session) :
    Except Exc IncomingMessage → Prop
  | reply (msg : IncomingMessage) (htaken : s.reply e = some msg) : Decides k r s e s' (.ok msg)
  | refused (rid : Text) (exc : Exc) (hrefused : exc.isPublishRefusal = true) (hlater : k < s'.epoch) :
      Decides k r s e s' (.error (refusalError s.settings rid none exc))
  | timedOut (he : e = .expireRequest r) : Decides k r s e s' (.error .timeoutError)
  | closed (he : e = .close) : Decides k r s e s' (.error .osError)
  | exhausted (w : WorkerId) (attempt : Nat) (exc : Exc)
      (hworker : s'.workers w = some ⟨.auto attempt, .ended (.error exc)⟩)
      (hlast : s.settings.policy.maxAttempts ≤ attempt) :
      Decides k r s e s' (.error (connectionLostError (s.settings.text exc)))

/-- What a request makes of the outcome of its future, if a reply has its id. -/
def Request.concludes (request : Request) : Except Exc IncomingMessage → Except Exc IncomingMessage
  | .error .timeoutError => .error (rpcError requestTimeout "request timed out" true (some request.rid)
      (some request.method) (.str request.rid))
  | outcome => outcome

namespace Session

/-- A step of the run decides the future of the request: none has before, unless it is the timer that overtakes it. -/
def DecidedIn (s : Session) (k : Nat) (r : RequestId) (es : List SessionEvent) (decision : Except Exc IncomingMessage) :
    Prop :=
  ∃ before e after t t', es = before ++ e :: after ∧ run Session.step s before = some t ∧ t.step e = some t' ∧
    (t.correlation.futures r = none ∨ e = .expireRequest r) ∧ t'.correlation.futures r = some decision ∧
      Decides k r t e t' decision

/-- At the end of the run the request goes on, or it has ended with what its future was done with before, or with
what a step of the run may decide. -/
def Survives (s : Session) (r : RequestId) (es : List SessionEvent) (s' : Session) : Prop :=
  ∀ outcome, s'.ended r = some outcome → ∃ request decision, s'.requests r = some request ∧
    outcome = request.concludes decision ∧
      (s.correlation.futures r = some decision ∨ s.DecidedIn s.epoch r es decision)

def Concluded (r : RequestId) (s : Session) : Prop := ∀ request outcome, s.requests r = some request →
  request.stage = .ended outcome →
    ∃ decision, s.correlation.futures r = some decision ∧ outcome = request.concludes decision

end Session

/-! ## Epochs pass -/

section Epochs

variable {s s' : Session} {e : SessionEvent} {k : Nat}

theorem past_call (hs : s.Past k) (owner : Option Owner) (op : Operation) : (s.call owner op).Past k := by
  refine hs.imp id (And.imp id fun hlost => ?_)
  change ((s.link.client.step (op.event s.nextCall)).getD s.link.client).conn.lost ≠ none
  cases hstep : s.link.client.step (op.event s.nextCall) with
  | none => exact hlost
  | some after => exact lost_stays hlost hstep

theorem Conducts.past {allowed : Dealing → Prop} (h : Conducts allowed s s') (hs : s.Past k) : s'.Past k := by
  induction h with
  | same hclient hprevious _ _ _ =>
    unfold Session.Past Session.epoch
    rw [hclient, hprevious]
    exact hs
  | call s op _ => exact past_call hs _ op
  | receive s l _ => exact past_call hs _ _
  | reply s rid msg _ => exact hs
  | ack s l tag _ => exact past_call hs _ _
  | replace s _ =>
    left
    have hnext : s.newConnection.epoch = s.epoch + 1 := List.length_append
    rcases hs with hlt | ⟨rfl, -⟩ <;> omega
  | trans _ _ ih ih' => exact ih' (ih hs)

theorem epoch_setLink (s : Session) (epoch : Nat) (link : Link) : (s.setLink epoch link).epoch = s.epoch := by
  unfold Session.setLink
  split
  · rfl
  · exact List.length_set

theorem past_setLink (hs : s.Past k) {epoch : Nat} {link : Link} (hlink : s.linkAt epoch = some link) {after : Client}
    (hlost : link.client.conn.lost ≠ none → after.conn.lost ≠ none) :
    (s.setLink epoch { link with client := after }).Past k := by
  unfold Session.Past
  rw [epoch_setLink]
  refine hs.imp id (And.imp id fun hbefore => ?_)
  unfold Session.setLink
  split
  · rename_i heq
    rw [Session.linkAt, if_pos heq] at hlink
    cases hlink
    exact hlost hbefore
  · exact hbefore

theorem lost_of_move {m : Move} (hstep : s.step e = some s') (hmove : s.move e = some m)
    (hlost : m.link.client.conn.lost ≠ none) : m.after.conn.lost ≠ none :=
  move_induction hstep hmove hlost fun _ _ _ hd hnext _ _ => lost_stays hd hnext

/-- What a step of a connection leaves is past, if the connection is once it has taken the step. -/
theorem past_moved {m : Move} (h : s.step e = some s') (hmove : s.move e = some m)
    (hset : (s.setLink m.epoch { m.link with client := m.after }).Past k) : s'.Past k := by
  obtain ⟨t, ht, rfl⟩ := step_of_move h hmove
  refine (conducts_moved t m.epoch m.link m.after m.call _).past ?_
  rcases ht with rfl | ⟨owner, rfl⟩
  · exact hset
  · rw [setCancelled_setLink]
    exact hset

theorem past_step (hs : s.Past k) (h : s.step e = some s') : s'.Past k := by
  cases e with
  | conn epoch e =>
    obtain ⟨m, hmove⟩ := move_of_step h
    exact past_moved h hmove (past_setLink hs (linkAt_of_move hmove) (lost_of_move h hmove))
  | interrupt epoch id =>
    obtain ⟨m, hmove⟩ := move_of_interrupt h
    exact past_moved h hmove (past_setLink hs (linkAt_of_move hmove) (lost_of_move h hmove))
  | runLoop l => exact (conducts_runLoop h).past hs
  | _ => exact (conducts_step h (by simp) (by simp) (by simp)).past hs

theorem past_of_loss {exc : Exc} (h : s.step e = some s') (hloss : s.loss e = some exc) : s'.Past s.epoch := by
  obtain ⟨m, hmove, hepoch, -, -, hlost⟩ := loss_eq_some hloss
  refine past_moved h hmove (.inr ⟨(epoch_setLink s m.epoch _).symm, ?_⟩)
  rw [Session.setLink, if_pos hepoch]
  change m.after.conn.lost ≠ none
  rw [hlost]
  exact Option.some_ne_none exc

end Epochs

/-! ## What decides a future -/

section Decisions

variable {s s' t : Session} {e : SessionEvent} {k : Nat} {r q : RequestId} {rid : Text}
  {decision : Except Exc IncomingMessage}

theorem callActor_ne_closer (s : Session) (call : Option CallId) : s.callActor call ≠ .closer := by
  unfold Session.callActor
  split <;> simp

theorem close_of_actor (h : s.actor e = .closer) : e = .close := by
  unfold Session.actor at h
  split at h
  · rfl
  · cases h
  · exact absurd h (callActor_ne_closer s _)

theorem decides_of_spares (hs : s.Orderly) (hpolicy : s.settings.policy.failOutstanding = false)
    (hkeeps : s.KeepsAlive r e) (h : s.step e = some s') (hpast : s'.Past k) (hspares : Spares (s'.Tells (s.actor e)) s t)
    (hnone : s.correlation.futures r = none) (ht : t.correlation.futures r = some decision)
    (hdone : s'.correlation.futures r = some decision) : Decides k r s e s' decision := by
  have hsettings := settings_step h
  obtain ⟨cause, ⟨hshows, hof⟩, rfl⟩ := hspares.ledger.cause_of_done hnone ht
  cases cause with
  | reply msg =>
    rcases futures_step hs h hdone with hbefore | ⟨htaken, -⟩
    · rw [hnone] at hbefore
      cases hbefore
    · exact .reply msg htaken
  | gaveUp exc => exact hof.elim
  | refused rid exc =>
    refine .refused rid exc hshows ?_
    obtain ⟨⟨other, hmem, hget⟩, hunlost⟩ := refused_of_step hs h hof hshows hnone hdone
    exact hpast.resolve_right fun ⟨_, hlost⟩ => hlost (hunlost (hkeeps.refused other hmem hget hnone))
  | closed => exact .closed (close_of_actor hof)
  | failFast message =>
    have hfail : s'.settings.policy.failOutstanding = true := hshows
    rw [hsettings, hpolicy] at hfail
    cases hfail
  | exhausted w exc =>
    obtain ⟨attempt, hworker, hlast⟩ := hshows
    rw [hsettings] at hlast
    exact .exhausted w attempt exc hworker hlast
  | loopFailed l exc =>
    obtain ⟨hloop, hcancelled, hlost⟩ := hshows
    rcases loop_ended hs h hof hkeeps.acked hloop with hraises | ⟨-, -, heq⟩ | ⟨reason, heq⟩
    · rcases hkeeps.looped l exc hraises with heq | ⟨reason, heq⟩
      · exact absurd heq hcancelled
      · exact absurd heq (hlost reason)
    · exact absurd heq hcancelled
    · exact absurd heq (hlost reason)

/-! ### What the other requests do -/

theorem futures_failPublish (hentry : s.correlation.pending.get? rid ≠ some r) (exc : Exc) :
    (s.failPublish rid exc).correlation.futures r = s.correlation.futures r :=
  settle_of_not_mem fun hmem => hentry (Option.mem_toList.mp hmem)

theorem futures_endRequest (s : Session) (q r : RequestId) (outcome : Except Exc IncomingMessage) :
    (s.endRequest q outcome).correlation.futures r = s.correlation.futures r := by
  unfold Session.endRequest
  split <;> rfl

theorem futures_replied {request : Request} (hentry : s.correlation.pending.get? request.rid ≠ some r)
    (outcome : Except Exc IncomingMessage) :
    (s.replied q request outcome).correlation.futures r = s.correlation.futures r := by
  unfold Session.replied
  split
  · split
    · exact futures_endRequest s q r _
    · exact futures_endRequest s q r _
  · extract_lets t
    have ht : t.correlation.futures r = s.correlation.futures r := by
      dsimp only [t]
      split
      · rfl
      · exact futures_failPublish hentry _
    exact (futures_endRequest _ q r _).trans ht
  · exact futures_endRequest s q r _

theorem futures_publishEnded (hentry : ∀ request, s.requests q = some request →
      (∀ outcome, request.stage ≠ .ended outcome) → s.correlation.pending.get? request.rid ≠ some r) (epoch : Nat) (outcome : Except Exc (Option Text)) :
    (s.publishEnded q epoch outcome).correlation.futures r = s.correlation.futures r := by
  unfold Session.publishEnded
  split
  · rename_i rid method call envelope hrequest
    have hother := hentry _ hrequest (by simp)
    split
    · extract_lets t
      unfold Session.awaitReply
      split
      · rfl
      · exact futures_replied (s := { t with parked := t.parked.set rid envelope }) hother _
    · split
      · exact (futures_endRequest _ q r _).trans (futures_failPublish hother _)
      · exact futures_endRequest s q r _
  · rfl

theorem futures_request (hr : r < s.nextRequest) (args : RequestArgs) (generated : Text) :
    (s.request args generated).correlation.futures r = s.correlation.futures r := by
  unfold Session.request
  split
  · rfl
  · rename_i rid _
    extract_lets q t id
    split
    · rfl
    · extract_lets u
      split
      · refine futures_publishEnded ?_ _ _
        intro request hrequest _
        have hset : u.requests q = some ⟨rid, args.method, .publishing id _⟩ := if_pos rfl
        rw [hset] at hrequest
        cases hrequest
        change (s.correlation.pending.set rid q).get? rid ≠ some r
        rw [Dict.get?_set, if_pos rfl]
        intro heq
        have hsame : s.nextRequest = r := Option.some.inj heq
        exact absurd hsame hr.ne'
      · rfl

/-- A future that is done stays done with the same, since the request is not cancelled, unless its timer overtakes it. -/
theorem futures_kept (hkeeps : s.KeepsAlive r e) (h : s.step e = some s')
    (hdone : s.correlation.futures r = some decision) : s'.correlation.futures r = some decision ∨
      e = .expireRequest r ∧ s'.correlation.futures r = some (.error .timeoutError) := by
  cases step_effect h with
  | spares h => exact .inl (h.ledger.futures hdone)
  | @publishEnded t q epoch outcome h _ heq =>
    rw [heq]
    exact .inl ((leaves_publishEnded t q epoch outcome).futures r decision (h.ledger.futures hdone))
  | called args generated _ _ heq =>
    rw [heq]
    exact .inl ((leaves_request s args generated).futures r decision hdone)
  | woken rid method q outcome _ _ _ heq =>
    rw [heq]
    exact .inl ((leaves_replied s q _ outcome).futures r decision hdone)
  | cancelled q request he _ _ heq =>
    have hne : r ≠ q := by
      rintro rfl
      exact hkeeps.uncancelled he
    rw [heq]
    exact .inl (by simpa [CorrelationTable.overtake, hne] using hdone)
  | expired q request he _ _ _ heq =>
    rw [heq]
    by_cases hne : r = q
    · subst hne
      exact .inr ⟨he, by simp [CorrelationTable.overtake]⟩
    · exact .inl (by simpa [CorrelationTable.overtake, hne] using hdone)

theorem entry_ne (hs : s.Registered) (hdistinct : s.Distinct) {found request : Request}
    (hfound : s.requests q = some found) (hflight : ∀ outcome, found.stage ≠ .ended outcome) (hne : q ≠ r)
    (hrequest : s.requests r = some request) (hflight' : ∀ outcome, request.stage ≠ .ended outcome) :
    s.correlation.pending.get? found.rid ≠ some r := by
  intro hget
  obtain ⟨bound, hbound, hrid⟩ := hs.bound found.rid r hget
  rw [hrequest] at hbound
  cases hbound
  exact hne (hdistinct q r found request hfound hflight hrequest hflight' hrid.symm)

theorem lt_nextRequest (hs : s.Registered) {request : Request} (hrequest : s.requests r = some request) :
    r < s.nextRequest := by
  rw [← Nat.not_le]
  intro hle
  rw [(hs.fresh r hle).1] at hrequest
  cases hrequest

/-- The publish of the request itself does not raise, and leaves its future as it is. -/
theorem futures_published (hkeeps : s.KeepsAlive r e) {epoch : Nat}
    {outcome : Except Exc (Option Text)} (hends : s.PublishEnds e r epoch outcome)
    (hnone : t.correlation.futures r = none) : (t.publishEnded r epoch outcome).correlation.futures r = none := by
  cases outcome with
  | error exc => exact absurd hends (hkeeps.published epoch exc)
  | ok result =>
    unfold Session.publishEnded
    split
    · rename_i rid method _ envelope _
      change (Session.awaitReply _ r _).correlation.futures r = none
      unfold Session.awaitReply
      split
      · exact hnone
      · rename_i hdone
        have hsome : t.correlation.futures r = some _ := hdone
        rw [hnone] at hsome
        cases hsome
    · exact hnone

/-- The future of a request in flight is decided in a step only in one of the ways that are permitted. -/
theorem decides_step (hs : s.Replying) (hdistinct : s.Distinct) (hpolicy : s.settings.policy.failOutstanding = false)
    (hkeeps : s.KeepsAlive r e) (h : s.step e = some s') (hpast : s'.Past k) (hflight : s.InFlight r)
    (hnone : s.correlation.futures r = none) (hdone : s'.correlation.futures r = some decision) :
    Decides k r s e s' decision := by
  obtain ⟨request, hrequest, hstage⟩ := hflight
  cases step_effect h with
  | spares hspares => exact decides_of_spares hs.orderly hpolicy hkeeps h hpast hspares hnone hdone hdone
  | @publishEnded t q epoch outcome hspares hends heq =>
    have hsettings := settings_step h
    have hshown : Spares (s'.Tells (s.actor e)) s t := hspares.mono fun _ hcause => hcause.tells hsettings
    cases ht : t.correlation.futures r with
    | some earlier =>
      have hkept := (leaves_publishEnded t q epoch outcome).futures r earlier ht
      rw [← heq, hdone] at hkept
      cases hkept
      exact decides_of_spares hs.orderly hpolicy hkeeps h hpast hshown hnone ht hdone
    | none =>
      have hsame : (t.publishEnded q epoch outcome).correlation.futures r = none := by
        by_cases hne : q = r
        · subst hne
          exact futures_published hkeeps hends ht
        · rw [futures_publishEnded, ht]
          intro found hfound hflying hget
          rw [hspares.requests] at hfound
          exact entry_ne hs.registered hdistinct hfound hflying hne hrequest hstage (hspares.ledger.get_of_get hget)
      rw [heq, hsame] at hdone
      cases hdone
  | called args generated _ _ heq =>
    rw [heq, futures_request (lt_nextRequest hs.registered hrequest), hnone] at hdone
    cases hdone
  | woken rid method q outcome _ hfound hfuture heq =>
    have hne : q ≠ r := by
      rintro rfl
      rw [hnone] at hfuture
      cases hfuture
    have hentry := entry_ne hs.registered hdistinct hfound (by simp) hne hrequest hstage
    rw [heq, futures_replied hentry, hnone] at hdone
    cases hdone
  | cancelled q found he _ _ heq =>
    have hne : r ≠ q := by
      rintro rfl
      exact hkeeps.uncancelled he
    rw [heq] at hdone
    simp [CorrelationTable.overtake, hne, hnone] at hdone
  | expired q found he _ _ _ heq =>
    rw [heq] at hdone
    by_cases hne : r = q
    · subst hne
      simp only [CorrelationTable.overtake, if_pos, Option.some.injEq] at hdone
      subst hdone
      exact .timedOut he
    · simp [CorrelationTable.overtake, hne, hnone] at hdone

/-! ### How the request ends -/

theorem concluded_of_stage {request : Request} (hrequest : s.requests r = some request)
    (hflight : ∀ outcome, request.stage ≠ .ended outcome) : s.Concluded r := by
  intro found outcome hfound hended
  rw [hrequest] at hfound
  cases hfound
  exact absurd hended (hflight outcome)

theorem Session.Concluded.of_same (hs : s.Concluded r) (hrequests : s'.requests r = s.requests r)
    (hfutures : ∀ decision, s.correlation.futures r = some decision → s'.correlation.futures r = some decision) :
    s'.Concluded r := by
  intro request outcome hrequest hended
  rw [hrequests] at hrequest
  obtain ⟨decision, hdone, heq⟩ := hs request outcome hrequest hended
  exact ⟨decision, hfutures decision hdone, heq⟩

theorem concluded_endRequest {found : Request} (hrequest : s.requests r = some found)
    (hfuture : s.correlation.futures r = some decision) {outcome : Except Exc IncomingMessage}
    (houtcome : outcome = found.concludes decision) : (s.endRequest r outcome).Concluded r := by
  have hends : s.endRequest r outcome = s.setRequest r { found with stage := .ended outcome } := by
    rw [Session.endRequest, hrequest]
  rw [hends]
  intro request ended hfound hended
  rw [requests_setRequest, if_pos rfl] at hfound
  cases hfound
  cases hended
  exact ⟨decision, hfuture, houtcome⟩

theorem concluded_replied {found request : Request} (hrequest : s.requests r = some found)
    (hrid : found.rid = request.rid) (hmethod : found.method = request.method)
    (hfuture : s.correlation.futures r = some decision)
    (hmatched : ∀ msg, decision = .ok msg → textOf (msg.properties .correlationId) = some request.rid) :
    (s.replied r request decision).Concluded r := by
  unfold Session.replied
  split
  · rename_i msg
    rw [if_pos (hmatched msg rfl)]
    exact concluded_endRequest hrequest hfuture rfl
  · extract_lets t
    have ht : Leaves r s t := by
      dsimp only [t]
      split
      · exact .refl r s
      · exact leaves_failPublish r s _ _
    have hsame : t.requests r = some found := by
      rw [← hrequest]
      dsimp only [t]
      split <;> rfl
    refine concluded_endRequest (s := t.forgetPublish request.rid) hsame (ht.futures r _ hfuture) ?_
    rw [Request.concludes, hrid, hmethod]
  · rename_i hne
    refine concluded_endRequest hrequest hfuture ?_
    unfold Request.concludes
    split
    · rename_i heq
      exact absurd (Except.error.inj heq) hne
    · rfl

theorem concluded_published (ht : t.Concluded r) {epoch : Nat} {result : Option Text}
    (hmatched : (t.publishEnded r epoch (.ok result)).Matched) :
    (t.publishEnded r epoch (.ok result)).Concluded r := by
  by_cases hpublishing : ∃ rid method call envelope, t.requests r = some ⟨rid, method, .publishing call envelope⟩
  · obtain ⟨rid, method, call, envelope, hrequest⟩ := hpublishing
    obtain ⟨request', hrequest', hid⟩ := keepsIds_publishEnded t r epoch (.ok result) r _ hrequest
    have hleaves := leaves_publishEnded t r epoch (.ok result)
    have hparks : t.publishEnded r epoch (.ok result) = Session.awaitReply
        { t.recordPublish epoch envelope with parked := t.parked.set rid envelope } r ⟨rid, method, .replying⟩ := by
      rw [Session.publishEnded, hrequest]
      rfl
    cases hfuture : t.correlation.futures r with
    | none =>
      have hwaits : (t.publishEnded r epoch (.ok result)).requests r = some ⟨rid, method, .replying⟩ := by
        rw [hparks, Session.awaitReply]
        simp only [Session.recordPublish, hfuture]
        exact if_pos rfl
      exact concluded_of_stage hwaits (by simp)
    | some decision =>
      have hanswered (msg : IncomingMessage) (hmsg : decision = .ok msg) :
          textOf (msg.properties .correlationId) = some rid := by
        subst hmsg
        obtain ⟨found, hfound, hcid⟩ := hmatched r msg (hleaves.futures r _ hfuture)
        rw [hrequest'] at hfound
        cases hfound
        rw [hcid, hid]
      rw [hparks, Session.awaitReply]
      simp only [Session.recordPublish, hfuture]
      exact concluded_replied hrequest rfl rfl hfuture hanswered
  · rw [publishEnded_of_not_publishing]
    · exact ht
    · rintro ⟨rid, method, stage⟩ hfound call envelope rfl
      exact hpublishing ⟨rid, method, call, envelope, hfound⟩

theorem concluded_step (hs : s.Replying) (hconcluded : s.Concluded r) (hr : r < s.nextRequest)
    (hkeeps : s.KeepsAlive r e) (h : s.step e = some s') : s'.Concluded r := by
  have hs' := replying_step hs h
  cases step_effect h with
  | spares h => exact hconcluded.of_same (congrFun h.requests r) fun _ => h.ledger.futures
  | @publishEnded t q epoch outcome hspares hends heq =>
    have ht : t.Concluded r := hconcluded.of_same (congrFun hspares.requests r) fun _ => hspares.ledger.futures
    by_cases hne : q = r
    · subst hne
      cases outcome with
      | error exc => exact absurd hends (hkeeps.published epoch exc)
      | ok result =>
        rw [heq] at hs' ⊢
        exact concluded_published ht hs'.matched
    · have hleaves := leaves_publishEnded t q epoch outcome
      rw [heq]
      exact ht.of_same (hleaves.requests r (Ne.symm hne)) (hleaves.futures r)
  | called args generated _ _ heq =>
    have hleaves := leaves_request s args generated
    rw [heq]
    exact hconcluded.of_same (hleaves.requests r hr.ne) (hleaves.futures r)
  | woken rid method q outcome _ hrequest hfuture heq =>
    rw [heq]
    by_cases hne : q = r
    · subst hne
      refine concluded_replied hrequest rfl rfl hfuture ?_
      rintro msg rfl
      obtain ⟨found, hfound, hcid⟩ := hs.matched q msg hfuture
      rw [hrequest] at hfound
      cases hfound
      exact hcid
    · have hleaves := leaves_replied s q ⟨rid, method, .replying⟩ outcome
      exact hconcluded.of_same (hleaves.requests r (Ne.symm hne)) (hleaves.futures r)
  | cancelled q request he _ _ heq =>
    refine hconcluded.of_same (by rw [heq]) fun _ hdone => (futures_kept hkeeps h hdone).resolve_right ?_
    rintro ⟨hexpired, -⟩
    rw [he] at hexpired
    cases hexpired
  | expired q request he hrequest hstage _ heq =>
    by_cases hne : q = r
    · subst hne
      exact concluded_of_stage (s := s') (by rw [heq]; exact hrequest) (by simp [hstage])
    · refine hconcluded.of_same (by rw [heq]) fun _ hdone => (futures_kept hkeeps h hdone).resolve_right ?_
      rintro ⟨hexpired, -⟩
      rw [he] at hexpired
      exact hne (SessionEvent.expireRequest.inj hexpired)

/-! ### Runs -/

structure Session.Parks (s : Session) : Prop where
  replying : s.Replying
  distinct : s.Distinct
  policy : s.settings.policy.failOutstanding = false

structure Session.Parking (r : RequestId) (s : Session) : Prop extends s.Parks where
  called : ∃ request, s.requests r = some request
  concluded : s.Concluded r

theorem parks_step (hs : s.Parks) (hfree : s.CallsFree e) (h : s.step e = some s') : s'.Parks := by
  refine ⟨replying_step hs.replying h, distinct_step hs.replying.registered hs.distinct hfree h, ?_⟩
  rw [settings_step h]
  exact hs.policy

theorem parking_step (hs : s.Parking r) (hkeeps : s.KeepsAlive r e) (h : s.step e = some s') : s'.Parking r := by
  obtain ⟨request, hrequest⟩ := hs.called
  obtain ⟨request', hrequest', -⟩ := keepsIds_step hs.replying.registered h r request hrequest
  exact ⟨parks_step hs.toParks hkeeps.free h, ⟨request', hrequest'⟩,
    concluded_step hs.replying hs.concluded (lt_nextRequest hs.replying.registered hrequest) hkeeps h⟩

theorem decided_step (hs : s.Parking r) (hkeeps : s.KeepsAlive r e) (h : s.step e = some s') (hpast : s'.Past k)
    (hdone : s'.correlation.futures r = some decision) : s.correlation.futures r = some decision ∨
      (s.correlation.futures r = none ∨ e = .expireRequest r) ∧ Decides k r s e s' decision := by
  cases hbefore : s.correlation.futures r with
  | some earlier =>
    rcases futures_kept hkeeps h hbefore with hkept | ⟨he, hexpired⟩
    · rw [hdone] at hkept
      cases hkept
      exact .inl rfl
    · rw [hdone] at hexpired
      cases hexpired
      exact .inr ⟨.inr he, .timedOut he⟩
  | none =>
    obtain ⟨request, hrequest⟩ := hs.called
    have hflight : s.InFlight r := by
      refine ⟨request, hrequest, fun outcome hended => ?_⟩
      obtain ⟨earlier, hearlier, -⟩ := hs.concluded request outcome hrequest hended
      rw [hbefore] at hearlier
      cases hearlier
    exact .inr ⟨.inl rfl, decides_step hs.replying hs.distinct hs.policy hkeeps h hpast hflight hbefore hdone⟩

theorem Session.DecidedIn.cons {es : List SessionEvent} (h : s.step e = some s') (hlater : s'.DecidedIn k r es decision) :
    s.DecidedIn k r (e :: es) decision := by
  obtain ⟨before, e', after, t, t', rfl, hrun, hrest⟩ := hlater
  exact ⟨e :: before, e', after, t, t', rfl, Option.bind_eq_some_iff.mpr ⟨s', h, hrun⟩, hrest⟩

theorem decidedIn_of_step {es : List SessionEvent} (h : s.step e = some s')
    (hopen : s.correlation.futures r = none ∨ e = .expireRequest r) (hdone : s'.correlation.futures r = some decision)
    (hdecides : Decides k r s e s' decision) : s.DecidedIn k r (e :: es) decision :=
  ⟨[], e, es, s, s', rfl, rfl, h, hopen, hdone, hdecides⟩

/-- Once the connection is lost, the run lemma: the future keeps its outcome, or a step of the run decides it. -/
theorem decided_run {es : List SessionEvent} (hs : s.Parking r) (hpast : s.Past k)
    (hkeeps : Admits Session.step (Session.KeepsAlive r) s es) (hrun : run Session.step s es = some s') :
    s'.Parking r ∧ ∀ decision, s'.correlation.futures r = some decision →
      s.correlation.futures r = some decision ∨ s.DecidedIn k r es decision := by
  induction es generalizing s with
  | nil =>
    cases hrun
    exact ⟨hs, fun _ hdone => .inl hdone⟩
  | cons e es ih =>
    obtain ⟨t, hstep, hrest⟩ := Option.bind_eq_some_iff.mp hrun
    simp only [Admits, hstep] at hkeeps
    have ht := parking_step hs hkeeps.1 hstep
    obtain ⟨hs', hdecided⟩ := ih ht (past_step hpast hstep) hkeeps.2 hrest
    refine ⟨hs', fun decision hdone => ?_⟩
    rcases hdecided decision hdone with hearlier | hlater
    · refine (decided_step hs hkeeps.1 hstep (past_step hpast hstep) hearlier).imp_right ?_
      rintro ⟨hopen, hdecides⟩
      exact decidedIn_of_step hstep hopen hearlier hdecides
    · exact .inr (hlater.cons hstep)

theorem parking_of_inFlight {settings : Settings} (hpolicy : settings.policy.failOutstanding = false)
    (h : ReachesWhere Session.step (Session.KeepsAlive r) (Session.new settings) s) (hflight : s.InFlight r) :
    s.Parking r := by
  have hparks : s.Parks := h.invariant ⟨replying_new settings, distinct_new settings, hpolicy⟩
    fun _ _ _ hinv hkeeps hstep => parks_step hinv hkeeps.free hstep
  obtain ⟨request, hrequest, hstage⟩ := hflight
  exact ⟨hparks, ⟨request, hrequest⟩, concluded_of_stage hrequest hstage⟩

end Decisions

/-- In park mode a request that is in flight when the connection is lost goes on, in every run that meets the
condition, or ends with what its future was done with before the loss, or with what a later step may decide. -/
theorem parked_survives (settings : Settings) (hpolicy : settings.policy.failOutstanding = false) {s s' : Session}
    {e : SessionEvent} {exc : Exc} {r : RequestId} {es : List SessionEvent}
    (h : ReachesWhere Session.step (Session.KeepsAlive r) (Session.new settings) s) (hflight : s.InFlight r)
    (hloss : s.loss e = some exc) (hkeeps : Admits Session.step (Session.KeepsAlive r) s (e :: es))
    (hrun : run Session.step s (e :: es) = some s') : s.Survives r (e :: es) s' := by
  have hs := parking_of_inFlight hpolicy h hflight
  obtain ⟨t, hstep, hrest⟩ := Option.bind_eq_some_iff.mp hrun
  simp only [Admits, hstep] at hkeeps
  have hpast := past_of_loss hstep hloss
  obtain ⟨hs', hdecided⟩ := decided_run (parking_step hs hkeeps.1 hstep) hpast hkeeps.2 hrest
  intro outcome hended
  obtain ⟨request, hrequest, hstage⟩ := stage_of_ended hended
  obtain ⟨decision, hdone, heq⟩ := hs'.concluded request outcome hrequest hstage
  refine ⟨request, decision, hrequest, heq, ?_⟩
  rcases hdecided decision hdone with hearlier | hlater
  · refine (decided_step hs hkeeps.1 hstep hpast hearlier).imp_right ?_
    rintro ⟨hopen, hdecides⟩
    exact decidedIn_of_step hstep hopen hearlier hdecides
  · exact .inr (hlater.cons hstep)

/-! ## A session that reconnects -/

def Session.alive (s : Session) (e : SessionEvent) : Bool :=
  (match e with
    | .request .. => s.nextRequest = 0
    | .cancelRequest _ => false
    | _ => true) &&
  (match s.callEnds e with
    | some (_, id, .error _) => s.owners id ≠ some (.request 0)
    | _ => true) &&
  (match s.callEnds e with
    | some (_, id, .error exc) =>
      match s.owners id, exc with
      | some (.loop _), .cancelledError | some (.loop _), .connectionLost _ => true
      | some (.loop _), _ => false
      | _, _ => true
    | _ => true) &&
  ((s.reply e).isNone || decide s.Live) && (s.refused e).isEmpty

theorem keepsAlive_of_alive {s : Session} {e : SessionEvent} (hs : s.Registered) (h : s.alive e = true) :
    s.KeepsAlive 0 e := by
  unfold Session.alive at h
  obtain ⟨h, hrefused⟩ := Bool.and_eq_true_iff.mp h
  obtain ⟨h, hlive⟩ := Bool.and_eq_true_iff.mp h
  obtain ⟨h, hloops⟩ := Bool.and_eq_true_iff.mp h
  obtain ⟨hevent, hends⟩ := Bool.and_eq_true_iff.mp h
  constructor
  · rintro args generated rid rfl - r request hrequest
    have hlate : s.nextRequest ≤ r := by
      rw [of_decide_eq_true hevent]
      exact Nat.zero_le r
    rw [(hs.fresh r hlate).1] at hrequest
    cases hrequest
  · rintro rfl
    cases hevent
  · rintro epoch exc ⟨id, hcall, howner⟩
    rw [hcall] at hends
    exact of_decide_eq_true hends howner
  · rintro l exc ⟨epoch, id, hcall, howner, -⟩
    simp only [hcall, howner] at hloops
    cases exc with
    | cancelledError => exact .inl rfl
    | connectionLost reason => exact .inr ⟨reason, rfl⟩
    | _ => cases hloops
  · intro msg htaken
    rw [htaken, Option.isNone_some, Bool.false_or] at hlive
    exact of_decide_eq_true hlive
  · intro rid hmem
    rw [List.isEmpty_iff.mp hrefused] at hmem
    cases hmem

theorem admits_of_alive {s : Session} {es : List SessionEvent} (hs : s.Registered)
    (h : Admits Session.step (fun s e => s.alive e = true) s es) : Admits Session.step (Session.KeepsAlive 0) s es :=
  admits_of_invariant hs (fun _ _ _ => registered_step) (fun _ _ => keepsAlive_of_alive) h

def tornDown : List SessionEvent :=
  [.conn 0 (.task .eof), .conn 0 (.wakeJob 4), .runWorker 1, .conn 0 (.resumed 6 none), .conn 0 (.resumed 6 none)]

def republished : List SessionEvent :=
  [.conn 1 (.resumed 7 none), .conn 1 (.resumed 7 none), .conn 1 (.task (.frame startFrame)), .conn 1 (.wakeJob 7),
    .conn 1 (.resumed 7 none), .conn 1 (.task (.frame tuneFrame)), .conn 1 (.wakeJob 7), .conn 1 (.resumed 7 none),
    .conn 1 (.resumed 7 none), .conn 1 (.task (.frame openOkFrame)), .conn 1 (.wakeJob 7), .conn 1 (.resumed 8 none),
    .conn 1 (.task (.frame channelOpenOkFrame)), .conn 1 (.wakeJob 8), .conn 1 (.task (.drained 9 none)),
    .conn 1 (.task (.frame declareOkFrame)), .conn 1 (.task (.wake 9)), .conn 1 (.task (.drained 10 none)),
    .conn 1 (.task (.frame consumeOkFrame)), .conn 1 (.task (.wake 10)), .runLoop 1, .conn 1 (.task (.drained 11 none)),
    .conn 1 (.task (.frame selectOkFrame)), .conn 1 (.task (.wake 11)), .conn 1 (.task (.drained 11 none)),
    .conn 1 (.task (.frame ackFrame)), .conn 1 (.task (.wake 11))]

def repliedAnew : List SessionEvent :=
  [.conn 1 (.task (.frame ⟨.method, 1, [0, 60, 0, 60, 1, 99, 0, 0, 0, 0, 0, 0, 0, 1, 0, 0, 0]⟩)),
    .conn 1 (.task (.frame ⟨.header, 1, [0, 60, 0, 0, 0, 0, 0, 0, 0, 0, 0, 2, 4, 0, 1, 114]⟩)),
    .conn 1 (.task (.frame ⟨.body, 1, [123, 125]⟩)), .conn 1 (.wakeJob 12), .wakeRequest 0]

/-- The request is published again on the connection of the next epoch, and gets its reply there. -/
theorem replied_survives : ∃ s s', run Session.step (Session.new (settingsWith {})) requestPublished = some s ∧
    run Session.step s (tornDown ++ republished ++ repliedAnew) = some s' ∧ s.InFlight 0 ∧ s'.epoch = s.epoch + 1 ∧
      s'.hasReply 0 = true ∧ s.Survives 0 (tornDown ++ republished ++ repliedAnew) s' := by
  have hrun : (run Session.step (Session.new (settingsWith {})) requestPublished).any (fun s =>
      Admits Session.step (fun s e => s.alive e = true) (Session.new (settingsWith {})) requestPublished ∧
        Admits Session.step (fun s e => s.alive e = true) s (tornDown ++ republished ++ repliedAnew) ∧
          (s.requests 0).isSome = true ∧ (s.ended 0).isNone = true ∧ (s.loss (.conn 0 (.task .eof))).isSome = true ∧
            (run Session.step s (tornDown ++ republished ++ repliedAnew)).any (fun s' =>
              s'.epoch = s.epoch + 1 ∧ s'.hasReply 0 = true) = true) = true := by
    decide +kernel
  obtain ⟨s, hs, hstate⟩ := (Option.any_eq_true _ _).mp hrun
  obtain ⟨hbefore, hafter, hrequest, hended, hloss, hany⟩ := of_decide_eq_true hstate
  obtain ⟨s', hs', hstate'⟩ := (Option.any_eq_true _ _).mp hany
  obtain ⟨hepoch, hreply⟩ := of_decide_eq_true hstate'
  obtain ⟨exc, hloss⟩ := Option.isSome_iff_exists.mp hloss
  have hflight := inFlight_of_ended hrequest hended
  have hreaches := reaches_of_run hs (admits_of_alive (registered_new _) hbefore)
  have hregistered : s.Registered :=
    hreaches.invariant (registered_new _) fun _ _ _ hinv _ hstep => registered_step hinv hstep
  exact ⟨s, s', hs, hs', hflight, hepoch, hreply,
    parked_survives (settingsWith {}) rfl hreaches hflight hloss (admits_of_alive hregistered hafter) hs'⟩

theorem Decides.not_lost {k : Nat} {r : RequestId} {s s' : Session} {e : SessionEvent}
    {decision : Except Exc IncomingMessage} (h : Decides k r s e s' decision) (request : Request) (reason : String) :
    request.concludes decision ≠ .error (.connectionLost reason) := by
  cases h <;> simp [Request.concludes, refusalError, connectionLostError, rpcError]

/-- The request awaits the reply to its `confirm.select` when the broker goes away, and ends with the loss. -/
theorem lost_not_survives : ¬∀ s s' e exc r es, Reaches Session.step (Session.new (settingsWith {})) s → s.InFlight r →
    s.loss e = some exc → run Session.step s (e :: es) = some s' → s.Survives r (e :: es) s' := by
  intro hall
  have hrun : (run Session.step (Session.new (settingsWith {})) requestCalled).any (fun s =>
      (s.requests 0).isSome = true ∧ (s.ended 0).isNone = true ∧ (s.correlation.futures 0).isNone = true ∧
        (s.loss (.conn 0 (.task .eof))).isSome = true ∧
          (run Session.step s [.conn 0 (.task .eof), .conn 0 (.task (.wake 5))]).any (fun s' =>
            s'.endedLost 0) = true) = true := by
    decide +kernel
  obtain ⟨s, hs, hstate⟩ := (Option.any_eq_true _ _).mp hrun
  obtain ⟨hrequest, hended, hpending, hloss, hany⟩ := of_decide_eq_true hstate
  obtain ⟨s', hs', hlost⟩ := (Option.any_eq_true _ _).mp hany
  obtain ⟨exc, hloss⟩ := Option.isSome_iff_exists.mp hloss
  have hsurvives := hall s s' _ exc 0 _ (reaches_of_run hs (admits_true _ _)) (inFlight_of_ended hrequest hended) hloss hs'
  unfold Session.endedLost at hlost
  split at hlost
  · rename_i reason hraw
    obtain ⟨request, decision, -, heq, hearlier | ⟨_, _, _, _, _, -, -, -, -, -, hdecides⟩⟩ := hsurvives _ hraw
    · rw [Option.isNone_iff_eq_none.mp hpending] at hearlier
      cases hearlier
    · exact hdecides.not_lost request reason heq.symm
  · cases hlost

end Nuropb.Sessions
