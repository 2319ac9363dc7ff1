import Nuropb.Sessions.Replies

/-! # What a request leaves behind

A request registers its id first, and each of its exits has to release it. The refusals of a publish
and the timeout do; what else ends a request finds the entry where it was.
-/
namespace Nuropb.Sessions

open Library Transport

namespace Session

structure Free (s : Session) (rid : Text) : Prop where
  registered : s.correlation.pending.get? rid = none
  parked : s.parked.get? rid = none

/-- A publish ends well only while the entry of its request is there, and with an exception that is no
refusal only when it is gone. -/
structure Releases (s : Session) (r : RequestId) (rid : Text) (outcome : Except Exc (Option Text)) : Prop where
  returned : ∀ result, outcome = .ok result → s.correlation.pending.get? rid = some r
  raised : ∀ exc, outcome = .error exc → exc.isPublishRefusal = true ∨ s.correlation.pending.get? rid = none

def Distinct (s : Session) : Prop := ∀ q r found request, s.requests q = some found →
  (∀ outcome, found.stage ≠ .ended outcome) → s.requests r = some request →
    (∀ outcome, request.stage ≠ .ended outcome) → found.rid = request.rid → q = r

def CallsFree (s : Session) (e : SessionEvent) : Prop := ∀ args generated rid, e = .request args generated →
  s.chosenId args generated = .ok rid →
    ∀ r request, s.requests r = some request → (∀ outcome, request.stage ≠ .ended outcome) → request.rid ≠ rid

/-- A request is called with the id of none in flight, its message encodes, and its publish is not broken off
at once; a publish releases its request, and a cancellation that comes to a request finds no entry. -/
structure KeepsClear (s : Session) (e : SessionEvent) : Prop where
  free : s.CallsFree e
  called : ∀ args generated rid, e = .request args generated → s.chosenId args generated = .ok rid →
    ∃ envelope, s.envelope args rid = .ok envelope ∧
      ∀ exc, (s.call none (.publish envelope.args)).link.client.outcome s.nextCall = some (.error exc) →
        exc.isPublishRefusal = true
  published : ∀ r epoch outcome rid method call envelope, s.PublishEnds e r epoch outcome →
    s.requests r = some ⟨rid, method, .publishing call envelope⟩ → (s.heardIn e).Releases r rid outcome
  woken : ∀ r rid method, e = .wakeRequest r → s.requests r = some ⟨rid, method, .replying⟩ →
    s.correlation.futures r = some (.error .cancelledError) → s.correlation.pending.get? rid = none

/-- What a step leaves of the requests that end in it. -/
structure NoResidue (s : Session) (e : SessionEvent) (s' : Session) : Prop where
  ended : ∀ r request outcome, s'.requests r = some request → request.stage = .ended outcome → s.ended r = none →
    s'.Free request.rid
  refused : ∀ args generated exc, e = .request args generated → s.chosenId args generated = .error exc → s' = s

/-- How a request that still has its entry can have a done future. -/
def Overtaken (s : Session) (request : Request) (outcome : Except Exc IncomingMessage) : Prop :=
  request.stage = .replying ∧
    (outcome = .error .timeoutError ∧ s.settings.brokerTimeout = false ∨ outcome = .error .cancelledError)

/-- Every entry is that of a request in flight, and every parked publish has one. -/
structure Tidy (s : Session) : Prop where
  registered : s.Registered
  live : ∀ rid r, s.correlation.pending.get? rid = some r → s.InFlight r
  parked : ∀ rid, s.correlation.pending.get? rid = none → s.parked.get? rid = none
  done : ∀ r request outcome, s.requests r = some request → (∀ ended, request.stage ≠ .ended ended) →
    s.correlation.futures r = some outcome →
    s.correlation.pending.get? request.rid = none ∨ s.Overtaken request outcome

structure Clear (s : Session) : Prop where
  tidy : s.Tidy
  distinct : s.Distinct

end Session

section Clears

variable {settings : Settings} {allowed : Cause → Prop} {a b : Ledger} {r : RequestId} {rid : Text}

theorem Clears.parked_none (h : Clears settings allowed a b)
    (ha : ∀ rid, a.correlation.pending.get? rid = none → a.parked.get? rid = none)
    (hnone : b.correlation.pending.get? rid = none) : b.parked.get? rid = none := by
  induction h with
  | refl => exact ha rid hnone
  | discard _ _ _ _ => rfl
  | @complete b cause rid' _ _ ih =>
    by_cases heq : rid' = rid
    · subst heq
      exact Dict.get?_erase_self ..
    · have hbefore : b.correlation.pending.get? rid = none := (Dict.get?_erase_of_ne _ heq).symm.trans hnone
      exact (Dict.get?_erase_of_ne _ heq).trans (ih hbefore)
  | @forget b rid' _ _ ih =>
    by_cases heq : rid' = rid
    · subst heq
      exact Dict.get?_erase_self ..
    · exact (Dict.get?_erase_of_ne _ heq).trans (ih hnone)

theorem Clears.entry_gone (h : Clears settings allowed a b)
    (hentry : ∀ other, a.correlation.pending.get? other = some r → other = rid)
    (hnone : a.correlation.futures r = none) {outcome : Except Exc IncomingMessage}
    (hdone : b.correlation.futures r = some outcome) : b.correlation.pending.get? rid ≠ some r := by
  induction h generalizing outcome with
  | refl =>
    rw [hnone] at hdone
    cases hdone
  | discard _ _ _ _ =>
    intro hget
    cases hget
  | @complete b cause rid' hclears _ ih =>
    intro hget
    obtain ⟨hne, hbefore⟩ := Dict.get?_of_get?_erase hget
    rcases settle_eq_some_iff.mp hdone with hearlier | ⟨-, hmem, -⟩
    · exact ih hearlier hbefore
    · exact hne (hentry rid' (hclears.get_of_get (Option.mem_toList.mp hmem)))
  | forget _ _ _ ih => exact ih hdone

theorem Clears.get_none (h : Clears settings allowed a b) (hnone : a.correlation.pending.get? rid = none) :
    b.correlation.pending.get? rid = none := by
  cases hget : b.correlation.pending.get? rid with
  | none => rfl
  | some r =>
    rw [h.get_of_get hget] at hnone
    cases hnone

end Clears

section Tidying

variable {s s' : Session} {r : RequestId} {request : Request} {outcome : Except Exc IncomingMessage}

theorem Spares.tidy {allowed : Cause → Prop} (h : Spares allowed s s') (hs : s.Tidy) : s'.Tidy where
  registered := h.registered hs.registered
  live rid r hget := by
    obtain ⟨request, hrequest, hflight⟩ := hs.live rid r (h.ledger.get_of_get hget)
    exact ⟨request, (congrFun h.requests r).trans hrequest, hflight⟩
  parked rid hnone := h.ledger.parked_none hs.parked hnone
  done r request outcome hrequest hflight hdone := by
    rw [h.requests] at hrequest
    cases hbefore : s.correlation.futures r with
    | none =>
      have hentry := hs.registered.waits r request hrequest hflight hbefore
      left
      cases hget : s'.correlation.pending.get? request.rid with
      | none => rfl
      | some q =>
        have hsame := h.ledger.get_of_get hget
        rw [Session.ledger, hentry] at hsame
        cases hsame
        refine absurd hget (h.ledger.entry_gone ?_ hbefore hdone)
        intro other hother
        obtain ⟨found, hfound, hrid⟩ := hs.registered.bound other r hother
        rw [hrequest] at hfound
        cases hfound
        exact hrid.symm
    | some earlier =>
      have hsame := h.ledger.futures hbefore
      rw [Session.ledger, hdone] at hsame
      cases hsame
      refine (hs.done r request outcome hrequest hflight hbefore).imp h.ledger.get_none ?_
      unfold Session.Overtaken
      rw [h.settings]
      exact id

theorem tidy_endRequest (hs : s.Tidy) (hrequest : s.requests r = some request)
    (hflight : ∀ outcome, request.stage ≠ .ended outcome) (hgone : s.correlation.pending.get? request.rid = none)
    (outcome : Except Exc IncomingMessage) : (s.endRequest r outcome).Tidy := by
  have hregistered := registered_endRequest hs.registered hrequest hflight outcome
  have hends : s.endRequest r outcome = s.setRequest r { request with stage := .ended outcome } := by
    rw [Session.endRequest, hrequest]
  rw [hends] at hregistered ⊢
  have hother {q : RequestId} {found : Request}
      (hfound : (s.setRequest r { request with stage := .ended outcome }).requests q = some found)
      (hended : ∀ outcome, found.stage ≠ .ended outcome) : s.requests q = some found := by
    rw [requests_setRequest] at hfound
    split at hfound
    · cases hfound
      exact absurd rfl (hended outcome)
    · exact hfound
  refine ⟨hregistered, ?_, hs.parked, ?_⟩
  · intro rid q hget
    have hentry : s.correlation.pending.get? rid = some q := hget
    obtain ⟨found, hfound, hflying⟩ := hs.live rid q hentry
    have hne : q ≠ r := by
      rintro rfl
      obtain ⟨bound, hbound, hrid⟩ := hs.registered.bound rid q hentry
      rw [hrequest] at hbound
      cases hbound
      rw [hrid, hentry] at hgone
      cases hgone
    exact ⟨found, by rw [requests_setRequest, if_neg hne, hfound], hflying⟩
  · intro q found outcome' hfound hended
    exact hs.done q found outcome' (hother hfound hended) hended

theorem tidy_replied (hs : s.Tidy) (hrequest : s.requests r = some request) (hreplying : request.stage = .replying)
    (hfuture : s.correlation.futures r = some outcome)
    (hcancelled : outcome = .error .cancelledError → s.correlation.pending.get? request.rid = none) :
    (s.replied r request outcome).Tidy := by
  have hflight : ∀ outcome, request.stage ≠ .ended outcome := by simp [hreplying]
  have hgone : outcome ≠ .error .timeoutError ∨ s.settings.brokerTimeout = true →
      s.correlation.pending.get? request.rid = none := by
    intro hnot
    rcases hs.done r request outcome hrequest hflight hfuture with hnone | ⟨-, ⟨htimeout, hbroker⟩ | hcancel⟩
    · exact hnone
    · rcases hnot with hne | htrue
      · exact absurd htimeout hne
      · rw [hbroker] at htrue
        cases htrue
    · exact hcancelled hcancel
  unfold Session.replied
  split
  · have hnone := hgone (.inl (by simp))
    split
    · exact tidy_endRequest hs hrequest hflight hnone _
    · exact tidy_endRequest hs hrequest hflight hnone _
  · extract_lets t
    have hgaveUp : Spares (Cause.Early s.settings) s t := by
      dsimp only [t]
      split
      · exact .refl s
      · exact spares_gaveUp _ (.inr rfl)
    have hnone : t.correlation.pending.get? request.rid = none := by
      dsimp only [t]
      split
      · rename_i hbroker
        exact hgone (.inr hbroker)
      · exact Dict.get?_erase_self ..
    have hforgot : Spares (Cause.Early s.settings) s (t.forgetPublish request.rid) :=
      hgaveUp.trans (spares_forgetPublish (by simp [CorrelationTable.contains, Dict.contains, hnone]))
    exact tidy_endRequest (hforgot.tidy hs) ((congrFun hforgot.requests r).trans hrequest) hflight hnone _
  · rename_i hne
    exact tidy_endRequest hs hrequest hflight (hgone (.inl (fun h => hne (Except.error.inj h)))) _

/-- A request that still has its entry goes on, and its publish may be parked. -/
theorem tidy_goesOn {stage : RequestStage} (hs : s.Tidy) (hrequest : s.requests r = some request)
    (hflight : ∀ outcome, request.stage ≠ .ended outcome) (hentry : s.correlation.pending.get? request.rid = some r)
    (hpending : s.correlation.futures r = none) (hstage : ∀ outcome, stage ≠ .ended outcome)
    (hregistered : s'.Registered) (hcorrelation : s'.correlation = s.correlation)
    (hparked : ∀ rid, rid ≠ request.rid → s'.parked.get? rid = s.parked.get? rid)
    (hrequests : s'.requests = (s.setRequest r { request with stage }).requests) (hsettings : s'.settings = s.settings) :
    s'.Tidy := by
  have hother {q : RequestId} {found : Request} (hfound : s'.requests q = some found)
      (hended : ∀ outcome, found.stage ≠ .ended outcome) : ∃ before, s.requests q = some before ∧
        (∀ outcome, before.stage ≠ .ended outcome) ∧ before.rid = found.rid ∧ (q ≠ r → before = found) := by
    rw [hrequests, requests_setRequest] at hfound
    split at hfound
    · rename_i heq
      cases hfound
      exact ⟨request, heq ▸ hrequest, hflight, rfl, fun hne => absurd heq hne⟩
    · exact ⟨found, hfound, hended, rfl, fun _ => rfl⟩
  refine ⟨hregistered, ?_, ?_, ?_⟩
  · intro rid q hget
    rw [hcorrelation] at hget
    obtain ⟨found, hfound, hflying⟩ := hs.live rid q hget
    unfold Session.InFlight
    rw [hrequests, requests_setRequest]
    split
    · exact ⟨_, rfl, hstage⟩
    · exact ⟨found, hfound, hflying⟩
  · intro rid hnone
    rw [hcorrelation] at hnone
    rw [hparked rid]
    · exact hs.parked rid hnone
    · rintro rfl
      rw [hentry] at hnone
      cases hnone
  · intro q found outcome hfound hended hdone
    obtain ⟨before, hbefore, hflying, hid, hsame⟩ := hother hfound hended
    rw [hcorrelation] at hdone ⊢
    have hne : q ≠ r := by
      rintro rfl
      rw [hpending] at hdone
      cases hdone
    obtain rfl := hsame hne
    refine (hs.done q before outcome hbefore hflying hdone).imp_right ?_
    unfold Session.Overtaken
    rw [hsettings]
    exact id

theorem tidy_publishEnded (hs : s.Tidy) (epoch : Nat) {outcome : Except Exc (Option Text)}
    (hreleases : ∀ rid method call envelope, s.requests r = some ⟨rid, method, .publishing call envelope⟩ →
      s.Releases r rid outcome) : (s.publishEnded r epoch outcome).Tidy := by
  unfold Session.publishEnded
  split
  · rename_i rid method call envelope hrequest
    have hflight : ∀ outcome, (Request.mk rid method (.publishing call envelope)).stage ≠ .ended outcome := by simp
    obtain ⟨hreturned, hraised⟩ := hreleases rid method call envelope hrequest
    split
    · rename_i result
      have hentry := hreturned result rfl
      have hpending : s.correlation.futures r = none := by
        cases hdone : s.correlation.futures r with
        | none => rfl
        | some outcome =>
          rcases hs.done r _ outcome hrequest hflight hdone with hnone | ⟨hreplying, -⟩
          · rw [hentry] at hnone
            cases hnone
          · cases hreplying
      have hregistered := registered_publishEnded hs.registered r epoch (.ok result)
      simp only [Session.publishEnded, hrequest] at hregistered
      rw [Session.awaitReply] at hregistered ⊢
      have hpending' : (s.recordPublish epoch envelope).correlation.futures r = none := hpending
      dsimp only at hregistered ⊢
      rw [hpending'] at hregistered ⊢
      refine tidy_goesOn hs hrequest hflight hentry hpending (by simp) hregistered rfl ?_ rfl rfl
      intro other hne
      exact Dict.get?_set_of_ne _ hne.symm _
    · rename_i exc
      split
      · rename_i hrefused
        have hgaveUp : Spares (Cause.Early s.settings) s (s.failPublish rid exc) := spares_gaveUp rid (.inl hrefused)
        exact tidy_endRequest (hgaveUp.tidy hs) ((congrFun hgaveUp.requests r).trans hrequest) hflight
          (Dict.get?_erase_self ..) _
      · rename_i hrefused
        exact tidy_endRequest hs hrequest hflight ((hraised exc rfl).resolve_left hrefused) _
  · exact hs

theorem tidy_register (hs : s.Tidy) {rid : Text} (hrid : s.correlation.contains rid = false)
    (hfree : ∀ r request, s.requests r = some request → (∀ outcome, request.stage ≠ .ended outcome) → request.rid ≠ rid)
    (method : Text) {stage : RequestStage} (hstage : ∀ outcome, stage ≠ .ended outcome)
    (hcorrelation : s'.correlation = s.correlation.register rid s.nextRequest) (hparked : s'.parked = s.parked)
    (hrequests : s'.requests = (s.setRequest s.nextRequest ⟨rid, method, stage⟩).requests)
    (hnext : s'.nextRequest = s.nextRequest + 1) (hsettings : s'.settings = s.settings) : s'.Tidy := by
  have hnew := (hs.registered.fresh _ le_rfl)
  have hget (other : Text) : s'.correlation.pending.get? other =
      if rid = other then some s.nextRequest else s.correlation.pending.get? other := by
    rw [hcorrelation]
    exact Dict.get?_set ..
  have hothers {q : RequestId} {found : Request} (hfound : s'.requests q = some found) :
      q = s.nextRequest ∧ found = ⟨rid, method, stage⟩ ∨ s.requests q = some found := by
    rw [hrequests, requests_setRequest] at hfound
    split at hfound
    · cases hfound
      exact .inl ⟨‹_›, rfl⟩
    · exact .inr hfound
  refine ⟨registered_register hs.registered hrid method stage hcorrelation hrequests hnext, ?_, ?_, ?_⟩
  · intro other q hentry
    rw [hget] at hentry
    unfold Session.InFlight
    rw [hrequests, requests_setRequest]
    split at hentry
    · cases hentry
      exact ⟨_, if_pos rfl, hstage⟩
    · obtain ⟨found, hfound, hflying⟩ := hs.live other q hentry
      have hne : q ≠ s.nextRequest := by
        rintro rfl
        rw [hnew.1] at hfound
        cases hfound
      exact ⟨found, by rw [if_neg hne, hfound], hflying⟩
  · intro other hnone
    rw [hget] at hnone
    split at hnone
    · cases hnone
    · rw [hparked]
      exact hs.parked other hnone
  · intro q found outcome hfound hended hdone
    have hfuture : s.correlation.futures q = some outcome := by
      rw [hcorrelation] at hdone
      exact hdone
    rcases hothers hfound with ⟨rfl, rfl⟩ | hold
    · rw [hnew.2] at hfuture
      cases hfuture
    · rw [hget, if_neg (hfree q found hold hended).symm]
      refine (hs.done q found outcome hold hended hfuture).imp_right ?_
      unfold Session.Overtaken
      rw [hsettings]
      exact id

theorem tidy_request (hs : s.Tidy) {args : RequestArgs} {generated : Text}
    (hgenerated : ¬(args.requestId = none ∧ s.correlation.contains generated = true))
    (hkeeps : s.KeepsClear (.request args generated)) : (s.request args generated).Tidy := by
  unfold Session.request
  split
  · exact hs
  · rename_i rid hchosen
    have hrid := not_contains_of_chooseId (chosenId_returns hchosen).2 hgenerated
    have hfree := hkeeps.free args generated rid rfl hchosen
    obtain ⟨envelope, henvelope, hraises⟩ := hkeeps.called args generated rid rfl hchosen
    extract_lets r t id
    have hencodes : t.envelope args rid = .ok envelope := henvelope
    split
    · rename_i hfailed
      rw [hencodes] at hfailed
      cases hfailed
    · rename_i found hfound
      rw [hencodes] at hfound
      cases hfound
      extract_lets u
      have hu : u.Tidy := tidy_register hs hrid hfree args.method (by simp) rfl rfl rfl rfl rfl
      split
      · rename_i outcome houtcome
        refine tidy_publishEnded hu _ ?_
        intro rid' method call envelope' hfound
        have hset : u.requests r = some ⟨rid, args.method, .publishing id envelope⟩ := if_pos rfl
        rw [hset] at hfound
        cases hfound
        refine ⟨fun _ _ => Dict.get?_set_self .., ?_⟩
        rintro exc rfl
        exact .inl (hraises exc houtcome)
      · exact hu

theorem tidy_overtake (hs : s.Tidy) (hrequest : s.requests r = some request) (hreplying : request.stage = .replying)
    {exc : Exc} (hexc : exc = .timeoutError ∧ s.settings.brokerTimeout = false ∨ exc = .cancelledError) :
    { s with correlation := s.correlation.overtake r exc }.Tidy where
  registered := registered_overtake hs.registered hrequest exc
  live := hs.live
  parked := hs.parked
  done q found outcome hfound hflight hdone := by
    by_cases heq : q = r
    · subst heq
      rw [hrequest] at hfound
      cases hfound
      have houtcome : outcome = .error exc := by
        have hset : some (.error exc) = some outcome := (if_pos rfl).symm.trans hdone
        exact (Option.some.inj hset).symm
      subst houtcome
      refine .inr ⟨hreplying, hexc.imp ?_ ?_⟩
      · rintro ⟨rfl, hbroker⟩
        exact ⟨rfl, hbroker⟩
      · rintro rfl
        rfl
    · exact hs.done q found outcome hfound hflight ((if_neg heq).symm.trans hdone)

end Tidying

/-! ## Steps -/

section Steps

variable {s s' : Session} {e : SessionEvent}

theorem tidy_step (hs : s.Tidy) (hkeeps : s.KeepsClear e) (h : s.step e = some s') : s'.Tidy := by
  cases hmove : s.move e with
  | some m =>
    obtain ⟨u, hu, hrest⟩ := move_cases h hmove
    have hspares : Spares (Cause.Prompt .other s.settings) s u := spares_of_heardIn hu
    have hheard : u.correlation = (s.heardIn e).correlation := by
      rcases hu with rfl | ⟨owner, rfl⟩
      · rfl
      · rfl
    rcases hrest with hrest | ⟨r, outcome, hends, heq⟩
    · exact hrest.tidy (hspares.tidy hs)
    · rw [heq]
      refine tidy_publishEnded (hspares.tidy hs) m.epoch ?_
      intro rid method call envelope hrequest
      rw [hspares.requests] at hrequest
      obtain ⟨hreturned, hraised⟩ := hkeeps.published r m.epoch outcome rid method call envelope hends hrequest
      rw [← hheard] at hreturned hraised
      exact ⟨hreturned, hraised⟩
  | none =>
    cases step_effect h with
    | spares h => exact h.tidy hs
    | publishEnded r epoch outcome h hends heq =>
      obtain ⟨id, hcall, -⟩ := hends
      simp [Session.callEnds, hmove] at hcall
    | called args generated he hgenerated heq =>
      subst he
      rw [heq]
      exact tidy_request hs hgenerated hkeeps
    | woken rid method r outcome he hrequest hfuture heq =>
      rw [heq]
      refine tidy_replied hs hrequest rfl hfuture ?_
      rintro rfl
      exact hkeeps.woken r rid method he hrequest hfuture
    | cancelled r request he hrequest hstage heq =>
      rw [heq]
      exact tidy_overtake hs hrequest hstage (.inr rfl)
    | expired r request he hrequest hstage htimer heq =>
      rw [heq]
      exact tidy_overtake hs hrequest hstage (.inl ⟨rfl, htimer⟩)

theorem tidy_new (settings : Settings) : (Session.new settings).Tidy where
  registered := registered_new settings
  live _ _ hget := by cases hget
  parked _ _ := rfl
  done _ _ _ hfound := by cases hfound

/-! ### Requests before and after a step -/

def Was (s : Session) (r : RequestId) (request' : Request) : Prop :=
  ∃ request, s.requests r = some request ∧ request.rid = request'.rid ∧
    ∀ outcome, request.stage = .ended outcome → request' = request

theorem was_of_same {r : RequestId} {request' : Request} (hsame : s'.requests r = s.requests r)
    (hrequest : s'.requests r = some request') : Was s r request' :=
  ⟨request', hsame.symm.trans hrequest, rfl, fun _ _ => rfl⟩

theorem was_of_keepsIds {r : RequestId} {request request' : Request} (hkeeps : KeepsIds s s')
    (hbefore : s.requests r = some request) (hflight : ∀ outcome, request.stage ≠ .ended outcome)
    (hrequest : s'.requests r = some request') : Was s r request' := by
  obtain ⟨found, hfound, hrid⟩ := hkeeps r request hbefore
  rw [hrequest] at hfound
  cases hfound
  exact ⟨request, hbefore, hrid.symm, fun outcome hended => absurd hended (hflight outcome)⟩

theorem was_publishEnded {t : Session} {q r : RequestId} {request' : Request} (epoch : Nat)
    (outcome : Except Exc (Option Text)) (hrequest : (t.publishEnded r epoch outcome).requests q = some request') :
    Was t q request' := by
  by_cases hq : q = r
  · subst hq
    by_cases hpublishing : ∃ rid method call envelope, t.requests q = some ⟨rid, method, .publishing call envelope⟩
    · obtain ⟨rid, method, call, envelope, hbefore⟩ := hpublishing
      exact was_of_keepsIds (keepsIds_publishEnded t q epoch outcome) hbefore (by simp) hrequest
    · rw [publishEnded_of_not_publishing] at hrequest
      · exact was_of_same rfl hrequest
      · rintro ⟨rid, method, stage⟩ hfound call envelope rfl
        exact hpublishing ⟨rid, method, call, envelope, hfound⟩
  · exact was_of_same ((leaves_publishEnded t r epoch outcome).requests q hq) hrequest

/-- A request that is there after a step was there before it, or is called in it. -/
theorem requests_step (hs : s.Registered) (h : s.step e = some s') {r : RequestId} {request' : Request}
    (hrequest : s'.requests r = some request') : Was s r request' ∨
      r = s.nextRequest ∧ ∃ args generated, e = .request args generated ∧
        s.chosenId args generated = .ok request'.rid := by
  cases step_effect h with
  | spares h => exact .inl (was_of_same (congrFun h.requests r) hrequest)
  | @publishEnded t q epoch outcome h hends heq =>
    rw [heq] at hrequest
    obtain ⟨before, hbefore, hkept⟩ := was_publishEnded epoch outcome hrequest
    rw [h.requests] at hbefore
    exact .inl ⟨before, hbefore, hkept⟩
  | called args generated he hgenerated heq =>
    by_cases hr : r = s.nextRequest
    · subst hr
      cases hchosen : s.chosenId args generated with
      | error exc =>
        rw [heq, Session.request, hchosen] at hrequest
        have hnone : s.requests s.nextRequest = some request' := hrequest
        rw [(hs.fresh _ le_rfl).1] at hnone
        cases hnone
      | ok rid =>
        rw [he] at h
        obtain ⟨-, found, hfound, hrid⟩ := request_registers h hchosen
        rw [hrequest] at hfound
        cases hfound
        exact .inr ⟨rfl, args, generated, he, by rw [hrid, hchosen]⟩
    · rw [heq] at hrequest
      exact .inl (was_of_same ((leaves_request s args generated).requests r hr) hrequest)
  | woken rid method q outcome he hfound hfuture heq =>
    rw [heq] at hrequest
    by_cases hq : r = q
    · subst hq
      exact .inl (was_of_keepsIds (keepsIds_replied s r _ outcome) hfound (by simp) hrequest)
    · exact .inl (was_of_same ((leaves_replied s q _ outcome).requests r hq) hrequest)
  | cancelled q request he hfound hstage heq =>
    rw [heq] at hrequest
    exact .inl (was_of_same rfl hrequest)
  | expired q request he hfound hstage htimer heq =>
    rw [heq] at hrequest
    exact .inl (was_of_same rfl hrequest)

theorem ended_of_stage {r : RequestId} {request : Request} {outcome : Except Exc IncomingMessage}
    (hrequest : s.requests r = some request) (hstage : request.stage = .ended outcome) : s.ended r = some outcome := by
  rw [Session.ended, hrequest, Option.bind_some, hstage]

theorem eq_of_rid (hregistered : s.Registered) (hdistinct : s.Distinct) (hfree : s.CallsFree e)
    (h : s.step e = some s') {q r : RequestId} {found' request' : Request} (hfound' : s'.requests q = some found')
    (hrequest' : s'.requests r = some request')
    (hq : ∀ found, s.requests q = some found → ∀ outcome, found.stage ≠ .ended outcome)
    (hr : ∀ request, s.requests r = some request → ∀ outcome, request.stage ≠ .ended outcome)
    (hrid : found'.rid = request'.rid) : q = r := by
  rcases requests_step hregistered h hfound' with ⟨found, hfound, hid, -⟩ | ⟨hnew, args, generated, he, hchosen⟩
  · rcases requests_step hregistered h hrequest' with ⟨request, hrequest, hid', -⟩ | ⟨-, args, generated, he, hchosen⟩
    · exact hdistinct q r found request hfound (hq found hfound) hrequest (hr request hrequest)
        (hid.trans (hrid.trans hid'.symm))
    · exact absurd (hid.trans hrid) (hfree args generated _ he hchosen q found hfound (hq found hfound))
  · rcases requests_step hregistered h hrequest' with ⟨request, hrequest, hid', -⟩ | ⟨hnew', -⟩
    · exact absurd (hid'.trans hrid.symm) (hfree args generated _ he hchosen r request hrequest (hr request hrequest))
    · exact hnew.trans hnew'.symm

theorem flying_of_flies (hregistered : s.Registered) (h : s.step e = some s') {r : RequestId} {request' : Request}
    (hrequest' : s'.requests r = some request') (hflight : ∀ outcome, request'.stage ≠ .ended outcome) :
    ∀ request, s.requests r = some request → ∀ outcome, request.stage ≠ .ended outcome := by
  intro request hrequest outcome hended
  rcases requests_step hregistered h hrequest' with ⟨before, hbefore, -, hstays⟩ | ⟨hnew, -⟩
  · rw [hrequest] at hbefore
    cases hbefore
    rw [hstays outcome hended] at hflight
    exact hflight outcome hended
  · rw [hnew, (hregistered.fresh _ le_rfl).1] at hrequest
    cases hrequest

theorem distinct_step (hregistered : s.Registered) (hs : s.Distinct) (hfree : s.CallsFree e) (h : s.step e = some s') :
    s'.Distinct := by
  intro q r found' request' hfound' hflight hrequest' hflight' hrid
  exact eq_of_rid hregistered hs hfree h hfound' hrequest' (flying_of_flies hregistered h hfound' hflight)
    (flying_of_flies hregistered h hrequest' hflight') hrid

theorem distinct_new (settings : Settings) : (Session.new settings).Distinct := by
  intro q r found request hfound
  cases hfound

/-- The entry of a request that ends in a step is gone after it, since no other request in flight has its id. -/
theorem free_of_ends (hs : s.Tidy) (hdistinct : s.Distinct) (hkeeps : s.KeepsClear e) (h : s.step e = some s')
    {r : RequestId} {request' : Request} {outcome : Except Exc IncomingMessage}
    (hrequest : s'.requests r = some request') (hended : request'.stage = .ended outcome)
    (hbefore : s.ended r = none) : s'.Free request'.rid := by
  have hs' := tidy_step hs hkeeps h
  have hflying (request : Request) (hold : s.requests r = some request) (ended : Except Exc IncomingMessage) :
      request.stage ≠ .ended ended := by
    intro hstage
    rw [ended_of_stage hold hstage] at hbefore
    cases hbefore
  have hnone : s'.correlation.pending.get? request'.rid = none := by
    cases hget : s'.correlation.pending.get? request'.rid with
    | none => rfl
    | some q =>
      obtain ⟨found', hfound', hflight'⟩ := hs'.live _ q hget
      obtain ⟨bound, hbound, hrid⟩ := hs'.registered.bound _ q hget
      rw [hfound'] at hbound
      cases hbound
      obtain rfl : q = r := eq_of_rid hs.registered hdistinct hkeeps.free h hfound' hrequest
        (flying_of_flies hs.registered h hfound' hflight') hflying hrid
      rw [hrequest] at hfound'
      cases hfound'
      exact absurd hended (hflight' outcome)
  exact ⟨hnone, hs'.parked _ hnone⟩

end Steps

/-- In every run in which no step breaks the condition, a request that ends leaves its id in neither table. -/
theorem request_leaves_no_residue (settings : Settings) {s s' : Session} {e : SessionEvent}
    (h : ReachesWhere Session.step Session.KeepsClear (Session.new settings) s) (hkeeps : s.KeepsClear e)
    (hstep : s.step e = some s') : s.NoResidue e s' := by
  have hs : s.Clear := h.invariant ⟨tidy_new settings, distinct_new settings⟩ fun _ _ _ hinv hok hnext =>
    ⟨tidy_step hinv.tidy hok hnext, distinct_step hinv.tidy.registered hinv.distinct hok.free hnext⟩
  constructor
  · intro r request outcome hrequest hended hbefore
    exact free_of_ends hs.tidy hs.distinct hkeeps hstep hrequest hended hbefore
  · rintro args generated exc rfl hchosen
    obtain ⟨-, ⟨⟩⟩ := Option.ite_none_left_eq_some.mp hstep
    rw [Session.request, hchosen]

/-! ## A session in park mode -/

def Session.clearly (s : Session) (e : SessionEvent) : Bool :=
  match e with
  | .request args generated =>
    match s.chosenId args generated with
    | .error _ => true
    | .ok rid =>
      match s.envelope args rid with
      | .error _ => false
      | .ok envelope => s.nextRequest = 0 &&
          ((s.call none (.publish envelope.args)).link.client.outcome s.nextCall).isNone
  | .wakeRequest r =>
    match s.correlation.futures r with
    | some (.error _) => false
    | _ => true
  | e =>
    match s.callEnds e with
    | some (_, id, outcome) =>
      match (s.owners id), outcome with
      | some (.request r), .ok _ =>
        (s.requests r).all fun request => (s.heardIn e).correlation.pending.get? request.rid = some r
      | some (.request _), .error _ => false
      | _, _ => true
    | none => true

theorem keepsClear_of_clearly {s : Session} {e : SessionEvent} (hs : s.Registered) (h : s.clearly e = true) :
    s.KeepsClear e := by
  refine ⟨?_, ?_, ?_, ?_⟩
  · rintro args generated rid rfl hchosen r request hrequest
    unfold Session.clearly at h
    simp only [hchosen] at h
    split at h
    · cases h
    · have hlate : s.nextRequest ≤ r := by
        rw [of_decide_eq_true (Bool.and_eq_true_iff.mp h).1]
        exact Nat.zero_le r
      rw [(hs.fresh r hlate).1] at hrequest
      cases hrequest
  · rintro args generated rid rfl hchosen
    unfold Session.clearly at h
    simp only [hchosen] at h
    split at h
    · cases h
    · rename_i envelope henvelope
      refine ⟨envelope, henvelope, ?_⟩
      intro exc hexc
      have houtcome := (Bool.and_eq_true_iff.mp h).2
      rw [hexc] at houtcome
      cases houtcome
  · rintro r epoch outcome rid method call envelope ⟨id, hends, howner⟩ hrequest
    cases e with
    | conn | interrupt =>
      simp only [Session.clearly, hends, howner] at h
      cases outcome with
      | error exc => cases h
      | ok result =>
        dsimp only at h
        rw [hrequest] at h
        exact ⟨fun _ _ => of_decide_eq_true h, fun _ herror => nomatch herror⟩
    | _ => cases hends
  · rintro r rid method rfl - hfuture
    simp [Session.clearly, hfuture] at h

theorem reachesClear {settings : Settings} {s : Session}
    (h : ReachesWhere Session.step (fun s e => s.clearly e = true) (Session.new settings) s) :
    s.Registered ∧ ReachesWhere Session.step Session.KeepsClear (Session.new settings) s := by
  induction h with
  | refl => exact ⟨registered_new settings, .refl _⟩
  | tail _ hlast ih =>
    obtain ⟨hregistered, hreaches⟩ := ih
    obtain ⟨e, hclearly, hnext⟩ := hlast
    exact ⟨registered_step hregistered hnext, hreaches.snoc (keepsClear_of_clearly hregistered hclearly) hnext⟩

def requestReplied : List SessionEvent := requestPublished ++ replyDelivered 1 ++ [.conn 0 (.wakeJob 4)]

theorem replied_leaves_no_residue : ∃ s s', run Session.step (Session.new (settingsWith {})) requestReplied = some s ∧
    s.step (.wakeRequest 0) = some s' ∧ s.ended 0 = none ∧ (s'.ended 0).isSome = true ∧ s.NoResidue (.wakeRequest 0) s' := by
  have hrun : (run Session.step (Session.new (settingsWith {})) requestReplied).any (fun s =>
      Admits Session.step (fun s e => s.clearly e = true) (Session.new (settingsWith {})) requestReplied ∧
        s.clearly (.wakeRequest 0) = true ∧ (s.ended 0).isNone = true ∧
          (s.step (.wakeRequest 0)).any (fun s' => (s'.ended 0).isSome) = true) = true := by
    decide +kernel
  obtain ⟨s, hs, hstate⟩ := (Option.any_eq_true _ _).mp hrun
  obtain ⟨hadmits, hclearly, hflight, hany⟩ := of_decide_eq_true hstate
  obtain ⟨s', hstep, hended⟩ := (Option.any_eq_true _ _).mp hany
  obtain ⟨hregistered, hreaches⟩ := reachesClear (reaches_of_run hs hadmits)
  exact ⟨s, s', hs, hstep, Option.isNone_iff_eq_none.mp hflight, hended, request_leaves_no_residue (settingsWith {})
    hreaches (keepsClear_of_clearly hregistered hclearly) hstep⟩

/-- The request awaits the reply to its `confirm.select` when the broker goes away: its id stays registered. -/
theorem lost_leaves_residue : ¬∀ s s' e, Reaches Session.step (Session.new (settingsWith {})) s →
    s.step e = some s' → s.NoResidue e s' := by
  intro hall
  have hrun : (run Session.step (Session.new (settingsWith {})) (requestCalled ++ [.conn 0 (.task .eof)])).any (fun s =>
      (s.ended 0).isNone = true ∧ (s.step (.conn 0 (.task (.wake 5)))).any (fun s' =>
        s'.endedLost 0 = true ∧ (s'.requests 0).any (fun request =>
          (s'.correlation.pending.get? request.rid).isSome) = true) = true) = true := by
    decide +kernel
  obtain ⟨s, hs, hstate⟩ := (Option.any_eq_true _ _).mp hrun
  obtain ⟨hflight, hany⟩ := of_decide_eq_true hstate
  obtain ⟨s', hstep, hstate'⟩ := (Option.any_eq_true _ _).mp hany
  obtain ⟨hlost, hany'⟩ := of_decide_eq_true hstate'
  obtain ⟨request, hrequest, hentry⟩ := (Option.any_eq_true _ _).mp hany'
  have hleaves := (hall s s' _ (reaches_of_run hs (admits_true _ _)) hstep).ended 0 request
  unfold Session.endedLost at hlost
  split at hlost
  · rename_i hended
    rw [Session.ended, hrequest, Option.bind_some] at hended
    split at hended
    · rename_i outcome hstage
      rw [(hleaves outcome hrequest hstage (Option.isNone_iff_eq_none.mp hflight)).registered] at hentry
      cases hentry
    · cases hended
  · cases hlost

end Nuropb.Sessions
