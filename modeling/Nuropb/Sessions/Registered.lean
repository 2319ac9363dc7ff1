import Nuropb.Library.Transition
import Nuropb.Sessions.Clearing

/-! # Requests and their entries

A request whose future is pending has its entry in the table, from its registration to its end.
-/
namespace Nuropb.Sessions

open Library Transport

namespace Session

def InFlight (s : Session) (r : RequestId) : Prop :=
  ∃ request, s.requests r = some request ∧ ∀ outcome, request.stage ≠ .ended outcome

/-- Every entry is that of a request, and every request that may still be answered has its entry. -/
structure Registered (s : Session) : Prop where
  fresh : ∀ r, s.nextRequest ≤ r → s.requests r = none ∧ s.correlation.futures r = none
  bound : ∀ rid r, s.correlation.pending.get? rid = some r → ∃ request, s.requests r = some request ∧ request.rid = rid
  waits : ∀ r request, s.requests r = some request → (∀ outcome, request.stage ≠ .ended outcome) →
    s.correlation.futures r = none → s.correlation.pending.get? request.rid = some r

end Session

/-! ## Clearing -/

section Clears

variable {settings : Settings} {allowed : Cause → Prop} {a b : Ledger} {r : RequestId} {rid : Text}

theorem Clears.futures (h : Clears settings allowed a b) {outcome : Except Exc IncomingMessage}
    (hdone : a.correlation.futures r = some outcome) : b.correlation.futures r = some outcome := by
  induction h with
  | refl => exact hdone
  | discard _ _ _ ih => exact settle_of_done ih
  | complete _ _ _ ih => exact settle_of_done ih
  | forget _ _ _ ih => exact ih

theorem Clears.futures_of_none (h : Clears settings allowed a b) (hnone : b.correlation.futures r = none) :
    a.correlation.futures r = none := by
  cases hdone : a.correlation.futures r with
  | none => rfl
  | some outcome =>
      rw [h.futures hdone] at hnone
      cases hnone

theorem Clears.get_of_get (h : Clears settings allowed a b) (hget : b.correlation.pending.get? rid = some r) :
    a.correlation.pending.get? rid = some r := by
  induction h with
  | refl => exact hget
  | discard _ _ _ _ => cases hget
  | complete _ _ _ ih => exact ih (Dict.get?_of_get?_erase hget).2
  | forget _ _ _ ih => exact ih hget

theorem Clears.get_of_waits (h : Clears settings allowed a b) (hget : a.correlation.pending.get? rid = some r)
    (hnone : b.correlation.futures r = none) : b.correlation.pending.get? rid = some r := by
  induction h with
  | refl => exact hget
  | @discard b cause e hclears _ _ ih =>
      obtain ⟨hbefore, hvalues⟩ := settle_eq_none_iff.mp hnone
      exact absurd (Dict.mem_values_iff.mpr ⟨rid, ih hbefore⟩) hvalues
  | @complete b cause rid' hclears _ ih =>
      obtain ⟨hbefore, hother⟩ := settle_eq_none_iff.mp hnone
      have hentry := ih hbefore
      have hne : rid' ≠ rid := by
        rintro rfl
        exact hother (by simp [hentry])
      exact (Dict.get?_erase_of_ne _ hne).trans hentry
  | forget _ _ _ ih => exact ih hnone

theorem Clears.futures_of_no_entry (h : Clears settings allowed a b)
    (hentry : ∀ rid, a.correlation.pending.get? rid ≠ some r) :
    b.correlation.futures r = a.correlation.futures r := by
  induction h with
  | refl => rfl
  | @discard b cause e hclears _ _ ih =>
      refine (settle_of_not_mem ?_).trans ih
      rintro hmem
      obtain ⟨rid, hget⟩ := Dict.mem_values_iff.mp hmem
      exact hentry rid (hclears.get_of_get hget)
  | @complete b cause rid hclears _ ih =>
      refine (settle_of_not_mem ?_).trans ih
      intro hmem
      exact hentry rid (hclears.get_of_get (Option.mem_toList.mp hmem))
  | forget _ _ _ ih => exact ih

theorem Clears.pending_empty (h : Clears settings allowed a b) (hempty : a.correlation.pending = .empty) :
    b.correlation.pending = .empty := by
  induction h with
  | refl => exact hempty
  | discard _ _ _ _ => rfl
  | complete rid _ _ ih =>
      change Dict.erase _ rid = _
      rw [ih]
      rfl
  | forget _ _ _ ih => exact ih

theorem Clears.parked_empty (h : Clears settings allowed a b) (hempty : a.parked = .empty) : b.parked = .empty := by
  induction h with
  | refl => exact hempty
  | discard _ _ _ _ => rfl
  | complete rid _ _ ih =>
      change Dict.erase _ rid = _
      rw [ih]
      rfl
  | forget rid _ _ ih =>
      change Dict.erase _ rid = _
      rw [ih]
      rfl

end Clears

theorem Spares.registered {allowed : Cause → Prop} {s s' : Session} (h : Spares allowed s s') (hs : s.Registered) :
    s'.Registered where
  fresh r hr := by
    rw [h.nextRequest] at hr
    obtain ⟨hrequest, hfuture⟩ := hs.fresh r hr
    refine ⟨by rw [h.requests, hrequest], ?_⟩
    refine (h.ledger.futures_of_no_entry ?_).trans hfuture
    intro rid hget
    obtain ⟨request, hsome, -⟩ := hs.bound rid r hget
    rw [hrequest] at hsome
    cases hsome
  bound rid r hget := by
    rw [h.requests]
    exact hs.bound rid r (h.ledger.get_of_get hget)
  waits r request hrequest hstage hnone := by
    rw [h.requests] at hrequest
    exact h.ledger.get_of_waits (hs.waits r request hrequest hstage (h.ledger.futures_of_none hnone)) hnone

/-! ## The requests themselves -/

section Requests

variable {s s' : Session} {r : RequestId} {request : Request}

theorem Session.Registered.of_same (hs : s.Registered) (hcorrelation : s'.correlation = s.correlation)
    (hrequests : s'.requests = s.requests) (hnext : s'.nextRequest = s.nextRequest) : s'.Registered := by
  refine ⟨?_, ?_, ?_⟩
  · rw [hnext, hrequests, hcorrelation]
    exact hs.fresh
  · rw [hrequests, hcorrelation]
    exact hs.bound
  · rw [hrequests, hcorrelation]
    exact hs.waits

theorem requests_setRequest (s : Session) (r other : RequestId) (request : Request) :
    (s.setRequest r request).requests other = if other = r then some request else s.requests other := rfl

theorem registered_setRequest (hs : s.Registered) {old : Request} (hold : s.requests r = some old)
    (hflight : ∀ outcome, old.stage ≠ .ended outcome) (hrid : request.rid = old.rid) :
    (s.setRequest r request).Registered where
  fresh other hother := by
    have hne : other ≠ r := by
      rintro rfl
      rw [(hs.fresh other hother).1] at hold
      cases hold
    rw [requests_setRequest, if_neg hne]
    exact hs.fresh other hother
  bound rid other hget := by
    obtain ⟨found, hfound, hfoundRid⟩ := hs.bound rid other hget
    rw [requests_setRequest]
    split
    · rename_i heq
      subst heq
      rw [hold] at hfound
      cases hfound
      exact ⟨request, rfl, hrid.trans hfoundRid⟩
    · exact ⟨found, hfound, hfoundRid⟩
  waits other found hfound hstage hnone := by
    rw [requests_setRequest] at hfound
    split at hfound
    · rename_i heq
      subst heq
      cases hfound
      rw [hrid]
      exact hs.waits other old hold hflight hnone
    · exact hs.waits other found hfound hstage hnone

theorem registered_endRequest (hs : s.Registered) (hrequest : s.requests r = some request)
    (hflight : ∀ outcome, request.stage ≠ .ended outcome) (outcome : Except Exc IncomingMessage) :
    (s.endRequest r outcome).Registered := by
  rw [Session.endRequest, hrequest]
  exact registered_setRequest hs hrequest hflight rfl

theorem registered_replied (hs : s.Registered) {found : Request} (hrequest : s.requests r = some found)
    (hflight : ∀ outcome, found.stage ≠ .ended outcome) (outcome : Except Exc IncomingMessage) :
    (s.replied r request outcome).Registered := by
  unfold Session.replied
  split
  · split
    · exact registered_endRequest hs hrequest hflight _
    · exact registered_endRequest hs hrequest hflight _
  · extract_lets t
    have hgaveUp : Spares (Cause.Early s.settings) s t := by
      dsimp only [t]
      split
      · exact .refl s
      · exact spares_gaveUp _ (.inr rfl)
    have ht : (t.forgetPublish request.rid).Registered := (hgaveUp.registered hs).of_same rfl rfl rfl
    have hfound : (t.forgetPublish request.rid).requests r = some found := (congrFun hgaveUp.requests r).trans hrequest
    exact registered_endRequest ht hfound hflight _
  · exact registered_endRequest hs hrequest hflight _

theorem registered_publishEnded (hs : s.Registered) (r : RequestId) (epoch : Nat)
    (outcome : Except Exc (Option Text)) : (s.publishEnded r epoch outcome).Registered := by
  unfold Session.publishEnded
  split
  · rename_i rid method call envelope hrequest
    have hflight : ∀ outcome, (Request.mk rid method (.publishing call envelope)).stage ≠ .ended outcome := by
      simp
    split
    · extract_lets t
      have ht : { t with parked := t.parked.set rid envelope }.Registered := hs.of_same rfl rfl rfl
      unfold Session.awaitReply
      split
      · exact registered_setRequest ht hrequest hflight rfl
      · exact registered_replied ht hrequest hflight _
    · split
      · rename_i hrefused
        have hgaveUp := spares_gaveUp (s := s) rid (.inl hrefused)
        exact registered_endRequest (hgaveUp.registered hs) ((congrFun hgaveUp.requests r).trans hrequest) hflight _
      · exact registered_endRequest hs hrequest hflight _
  · exact hs

theorem registered_register (hs : s.Registered) {rid : Text} (hrid : s.correlation.contains rid = false)
    (method : Text) (stage : RequestStage) (hcorrelation : s'.correlation = s.correlation.register rid s.nextRequest)
    (hrequests : s'.requests = (s.setRequest s.nextRequest ⟨rid, method, stage⟩).requests)
    (hnext : s'.nextRequest = s.nextRequest + 1) : s'.Registered where
  fresh other hother := by
    rw [hnext] at hother
    obtain ⟨hrequest, hfuture⟩ := hs.fresh other (Nat.le_of_succ_le hother)
    rw [hrequests, requests_setRequest, if_neg (Nat.ne_of_gt hother), hcorrelation]
    exact ⟨hrequest, hfuture⟩
  bound other q hget := by
    rw [hcorrelation, CorrelationTable.register, Dict.get?_set] at hget
    rw [hrequests, requests_setRequest]
    split at hget
    · rename_i heq
      cases hget
      exact ⟨_, if_pos rfl, heq⟩
    · obtain ⟨found, hfound, hfoundRid⟩ := hs.bound other q hget
      have hne : q ≠ s.nextRequest := by
        rintro rfl
        rw [(hs.fresh _ le_rfl).1] at hfound
        cases hfound
      exact ⟨found, by rwa [if_neg hne], hfoundRid⟩
  waits other found hfound hstage hnone := by
    rw [hrequests, requests_setRequest] at hfound
    rw [hcorrelation] at hnone ⊢
    rw [CorrelationTable.register, Dict.get?_set]
    split at hfound
    · rename_i heq
      cases hfound
      rw [if_pos rfl, heq]
    · have hentry := hs.waits other found hfound hstage hnone
      have hne : rid ≠ found.rid := by
        rintro rfl
        rw [CorrelationTable.contains, Dict.contains, hentry] at hrid
        cases hrid
      rw [if_neg hne, hentry]

theorem not_contains_of_chooseId {table : CorrelationTable} {requestId : Option Text} {generated rid : Text}
    (h : table.chooseId requestId generated = .ok rid)
    (hgenerated : ¬(requestId = none ∧ table.contains generated = true)) : table.contains rid = false := by
  cases requestId with
  | none =>
      cases h
      simpa using hgenerated
  | some value =>
      obtain ⟨valid, -, h⟩ := bind_eq_ok.mp h
      obtain ⟨_, hraise, h⟩ := bind_eq_ok.mp h
      cases h
      simpa using raiseIf_eq_ok.mp hraise

theorem chosenId_returns {args : RequestArgs} {generated rid : Text} (h : s.chosenId args generated = .ok rid) :
    s.replyQueueOpen = true ∧ s.correlation.chooseId args.requestId generated = .ok rid := by
  unfold Session.chosenId at h
  split at h
  · refine ⟨‹_›, ?_⟩
    split at h
    · rename_i hchosen
      cases h
      exact hchosen
    · cases h
    · cases h
    · cases h
  · cases h

theorem registered_request (hs : s.Registered) {args : RequestArgs} {generated : Text}
    (hgenerated : ¬(args.requestId = none ∧ s.correlation.contains generated = true)) :
    (s.request args generated).Registered := by
  unfold Session.request
  split
  · exact hs
  · rename_i rid hchosen
    have hrid := not_contains_of_chooseId (chosenId_returns hchosen).2 hgenerated
    extract_lets r t id
    split
    · exact registered_register hs hrid args.method _ rfl rfl rfl
    · rename_i envelope henvelope
      extract_lets u
      have hu : u.Registered := registered_register hs hrid args.method _ rfl rfl rfl
      split
      · exact registered_publishEnded hu r _ _
      · exact hu

theorem registered_overtake (hs : s.Registered) (hrequest : s.requests r = some request) (e : Exc) :
    { s with correlation := s.correlation.overtake r e }.Registered where
  fresh other hother := by
    have hne : other ≠ r := by
      rintro rfl
      rw [(hs.fresh other hother).1] at hrequest
      cases hrequest
    obtain ⟨hnone, hfuture⟩ := hs.fresh other hother
    exact ⟨hnone, by simpa [CorrelationTable.overtake, hne] using hfuture⟩
  bound := hs.bound
  waits other found hfound hstage hnone := by
    refine hs.waits other found hfound hstage ?_
    by_cases heq : other = r
    · simp [CorrelationTable.overtake, heq] at hnone
    · simpa [CorrelationTable.overtake, heq] using hnone

end Requests

end Nuropb.Sessions
