import Nuropb.Sessions.FailFast
import Nuropb.Sessions.ReplySteps

/-! # Replies never cross

A request that ends with a reply has the first one that a loop has taken with its id since the request
was called. Another reply with the id finds no entry, and every reply is acked once.
-/
namespace Nuropb.Sessions

open Library Patterns Transport Config

namespace Session

/-- The replies that the loops take in a run, in order. -/
def replies : Session → List SessionEvent → List IncomingMessage
  | _, [] => []
  | s, e :: es => (s.reply e).toList ++ ((s.step e).map fun s' => s'.replies es).getD []

/-- The request ends only with what its future is done with. -/
def Answered (s : Session) : Prop := ∀ r request msg, s.requests r = some request → request.stage = .ended (.ok msg) →
  s.correlation.futures r = some (.ok msg)

/-- A reply is given to the request that has its id. -/
def Matched (s : Session) : Prop := ∀ r msg, s.correlation.futures r = some (.ok msg) →
  ∃ request, s.requests r = some request ∧ textOf (msg.properties .correlationId) = some request.rid

/-- What holds in every run. -/
structure Replying (s : Session) : Prop where
  orderly : s.Orderly
  registered : s.Registered
  answered : s.Answered
  matched : s.Matched

/-- The reply finds the entry of the request, and it is the first one with the id in the run. -/
def FirstReply (s : Session) (es : List SessionEvent) (r : RequestId) (rid : Text) (msg : IncomingMessage) : Prop :=
  ∃ before e after t, es = before ++ e :: after ∧ run Session.step s before = some t ∧ t.reply e = some msg ∧
    textOf (msg.properties .correlationId) = some rid ∧ t.correlation.pending.get? rid = some r ∧
    ∀ earlier ∈ s.replies before, textOf (earlier.properties .correlationId) ≠ some rid

end Session

/-- No request is given another id. -/
def KeepsIds (s s' : Session) : Prop := ∀ r request, s.requests r = some request →
  ∃ request', s'.requests r = some request' ∧ request'.rid = request.rid

section Requests

variable {s s' : Session} {r : RequestId} {request : Request} {outcome : Except Exc IncomingMessage}

/-! ### Requests end with their futures -/

theorem Spares.answered {allowed : Cause → Prop} (h : Spares allowed s s') (hs : s.Answered) : s'.Answered := by
  intro q found msg hfound hstage
  rw [h.requests] at hfound
  exact h.ledger.futures (hs q found msg hfound hstage)

theorem answered_setRequest (hs : s.Answered)
    (hstage : ∀ msg, request.stage = .ended (.ok msg) → s.correlation.futures r = some (.ok msg)) :
    (s.setRequest r request).Answered := by
  intro q found msg hfound hended
  rw [requests_setRequest] at hfound
  split at hfound
  · rename_i heq
    subst heq
    cases hfound
    exact hstage msg hended
  · exact hs q found msg hfound hended

theorem answered_endRequest (hs : s.Answered)
    (houtcome : ∀ msg, outcome = .ok msg → s.correlation.futures r = some (.ok msg)) :
    (s.endRequest r outcome).Answered := by
  unfold Session.endRequest
  split
  · refine answered_setRequest hs ?_
    rintro msg hended
    cases hended
    exact houtcome msg rfl
  · exact hs

theorem answered_failPublish (hs : s.Answered) (rid : Text) (e : Exc) : (s.failPublish rid e).Answered :=
  fun q found msg hfound hended => settle_of_done (hs q found msg hfound hended)

theorem answered_replied (hs : s.Answered) (hfuture : s.correlation.futures r = some outcome) :
    (s.replied r request outcome).Answered := by
  unfold Session.replied
  split
  · split
    · refine answered_endRequest hs ?_
      rintro msg ⟨⟩
      exact hfuture
    · exact answered_endRequest hs (by simp)
  · extract_lets t
    have ht : t.Answered := by
      dsimp only [t]
      split
      · exact hs
      · exact answered_failPublish hs _ _
    have hforgotten : (t.forgetPublish request.rid).Answered := ht
    exact answered_endRequest hforgotten (by simp)
  · exact answered_endRequest hs (by simp)

theorem answered_publishEnded (hs : s.Answered) (r : RequestId) (epoch : Nat) (outcome : Except Exc (Option Text)) :
    (s.publishEnded r epoch outcome).Answered := by
  unfold Session.publishEnded
  split
  · rename_i rid _ _ envelope _
    split
    · extract_lets t
      have hparked : { t with parked := t.parked.set rid envelope }.Answered := hs
      unfold Session.awaitReply
      split
      · exact answered_setRequest hparked (by simp)
      · rename_i hfuture
        exact answered_replied hparked hfuture
    · split
      · exact answered_endRequest (answered_failPublish hs rid _) (by simp)
      · exact answered_endRequest hs (by simp)
  · exact hs

theorem answered_request (hs : s.Answered) (args : RequestArgs) (generated : Text) :
    (s.request args generated).Answered := by
  unfold Session.request
  split
  · exact hs
  · extract_lets r t id
    have ht : t.Answered := hs
    split
    · exact answered_setRequest ht (by simp)
    · extract_lets u
      have hcalled (owner : Option Owner) (op : Operation) : (t.call owner op).Answered := hs
      have hu : u.Answered := answered_setRequest (hcalled _ _) (by simp)
      split
      · exact answered_publishEnded hu r _ _
      · exact hu

theorem answered_step {e : SessionEvent} (hs : s.Answered) (h : s.step e = some s') : s'.Answered := by
  have hovertake (q : RequestId) (found : Request) (hfound : s.requests q = some found) (hstage : found.stage = .replying)
      (exc : Exc) : Session.Answered { s with correlation := s.correlation.overtake q exc } := by
    intro other request msg hrequest hended
    have hne : other ≠ q := by
      rintro rfl
      rw [hfound] at hrequest
      cases hrequest
      rw [hstage] at hended
      cases hended
    simpa [CorrelationTable.overtake, hne] using hs other request msg hrequest hended
  cases step_effect h with
  | spares h => exact h.answered hs
  | publishEnded r epoch outcome h hends heq =>
      rw [heq]
      exact answered_publishEnded (h.answered hs) r epoch outcome
  | called args generated he hgenerated heq =>
      rw [heq]
      exact answered_request hs args generated
  | woken rid method r outcome he hrequest hfuture heq =>
      rw [heq]
      exact answered_replied hs hfuture
  | cancelled r request he hrequest hstage heq =>
      rw [heq]
      exact hovertake r request hrequest hstage _
  | expired r request he hrequest hstage htimer heq =>
      rw [heq]
      exact hovertake r request hrequest hstage _

/-! ### Requests keep their ids -/

theorem KeepsIds.of_same (h : s'.requests = s.requests) : KeepsIds s s' := by
  intro q found hfound
  exact ⟨found, by rw [h, hfound], rfl⟩

theorem KeepsIds.trans {s'' : Session} (h : KeepsIds s s') (h' : KeepsIds s' s'') : KeepsIds s s'' := by
  intro q found hfound
  obtain ⟨next, hnext, hrid⟩ := h q found hfound
  obtain ⟨last, hlast, hrid'⟩ := h' q next hnext
  exact ⟨last, hlast, hrid'.trans hrid⟩

theorem keepsIds_failPublish (s : Session) (rid : Text) (e : Exc) : KeepsIds s (s.failPublish rid e) := .of_same rfl

theorem keepsIds_setRequest (h : ∀ found, s.requests r = some found → request.rid = found.rid) :
    KeepsIds s (s.setRequest r request) := by
  intro q found hfound
  rw [requests_setRequest]
  split
  · rename_i heq
    subst heq
    exact ⟨request, rfl, h found hfound⟩
  · exact ⟨found, hfound, rfl⟩

theorem keepsIds_endRequest (s : Session) (r : RequestId) (outcome : Except Exc IncomingMessage) :
    KeepsIds s (s.endRequest r outcome) := by
  unfold Session.endRequest
  split
  · rename_i request hrequest
    refine keepsIds_setRequest fun found hfound => ?_
    rw [hrequest] at hfound
    cases hfound
    rfl
  · exact .of_same rfl

theorem keepsIds_replied (s : Session) (r : RequestId) (request : Request) (outcome : Except Exc IncomingMessage) :
    KeepsIds s (s.replied r request outcome) := by
  unfold Session.replied
  split
  · split
    · exact keepsIds_endRequest s r _
    · exact keepsIds_endRequest s r _
  · extract_lets t
    have ht : KeepsIds s (t.forgetPublish request.rid) := by
      refine .of_same ?_
      dsimp only [t]
      split <;> rfl
    exact ht.trans (keepsIds_endRequest _ r _)
  · exact keepsIds_endRequest s r _

theorem keepsIds_publishEnded (s : Session) (r : RequestId) (epoch : Nat) (outcome : Except Exc (Option Text)) :
    KeepsIds s (s.publishEnded r epoch outcome) := by
  unfold Session.publishEnded
  split
  · rename_i rid _ _ envelope hrequest
    split
    · extract_lets t
      have hparked : KeepsIds s { t with parked := t.parked.set rid envelope } := .of_same rfl
      unfold Session.awaitReply
      split
      · refine hparked.trans (keepsIds_setRequest fun found hfound => ?_)
        have hsame : s.requests r = some found := hfound
        rw [hrequest] at hsame
        cases hsame
        rfl
      · exact hparked.trans (keepsIds_replied _ r _ _)
    · split
      · exact (keepsIds_failPublish s rid _).trans (keepsIds_endRequest _ r _)
      · exact keepsIds_endRequest s r _
  · exact .of_same rfl

theorem keepsIds_step {e : SessionEvent} (hs : s.Registered) (h : s.step e = some s') : KeepsIds s s' := by
  cases step_effect h with
  | spares h => exact .of_same h.requests
  | publishEnded r epoch outcome h hends heq =>
      rw [heq]
      exact (KeepsIds.of_same h.requests).trans (keepsIds_publishEnded _ r epoch outcome)
  | called args generated he hgenerated heq =>
      rw [heq]
      intro q found hfound
      have hne : q ≠ s.nextRequest := by
        rintro rfl
        rw [(hs.fresh _ le_rfl).1] at hfound
        cases hfound
      exact ⟨found, by rw [(leaves_request s args generated).requests q hne, hfound], rfl⟩
  | woken rid method r outcome he hrequest hfuture heq =>
      rw [heq]
      exact keepsIds_replied s r _ outcome
  | cancelled r request he hrequest hstage heq =>
      rw [heq]
      exact .of_same rfl
  | expired r request he hrequest hstage htimer heq =>
      rw [heq]
      exact .of_same rfl

/-! ### Futures get the replies with their ids -/

/-- A future is done with a reply only when a loop takes it while the entry of its request has the id. -/
theorem futures_step {e : SessionEvent} (hs : s.Orderly) (h : s.step e = some s') {msg : IncomingMessage}
    (hfuture : s'.correlation.futures r = some (.ok msg)) : s.correlation.futures r = some (.ok msg) ∨
    s.reply e = some msg ∧ ∃ cid, textOf (msg.properties .correlationId) = some cid ∧
      s.correlation.pending.get? cid = some r := by
  obtain ⟨-, hfades, -⟩ | ⟨reply, t, l, hreply, htakes, rfl⟩ := reply_cases hs h
  · exact .inl (hfades.futures r msg hfuture)
  · have hanswered := (onReply_fades t l reply).futures r msg hfuture
    rw [← htakes.correlation]
    refine (answered_futures hanswered).imp_right ?_
    rintro ⟨rfl, hentry⟩
    exact ⟨hreply, hentry⟩

/-- The entry of a request goes with the first reply that has its id. -/
theorem pending_step {e : SessionEvent} (hs : s.Orderly) (h : s.step e = some s') {rid : Text} (hr : r < s.nextRequest)
    (hget : s'.correlation.pending.get? rid = some r) : s.correlation.pending.get? rid = some r ∧
    ∀ msg, s.reply e = some msg → textOf (msg.properties .correlationId) ≠ some rid := by
  obtain ⟨hnone, hfades, -⟩ | ⟨reply, t, l, hreply, htakes, rfl⟩ := reply_cases hs h
  · exact ⟨hfades.pending rid r hr hget, fun msg hmsg => by rw [hnone] at hmsg; cases hmsg⟩
  · have hlt : r < (t.answered reply).nextRequest := by
      rw [(answered_same t reply).2.2.2.2.2, htakes.nextRequest]
      exact hr
    obtain ⟨hentry, hother⟩ := answered_pending ((onReply_fades t l reply).pending rid r hlt hget)
    rw [htakes.correlation] at hentry
    refine ⟨hentry, fun msg hmsg => ?_⟩
    rw [hreply] at hmsg
    cases hmsg
    exact hother

theorem nextRequest_step {e : SessionEvent} (hs : s.Orderly) (h : s.step e = some s') : s.nextRequest ≤ s'.nextRequest := by
  obtain ⟨-, hfades, -⟩ | ⟨reply, t, l, -, htakes, rfl⟩ := reply_cases hs h
  · exact hfades.nextRequest
  · rw [← htakes.nextRequest, ← (answered_same t reply).2.2.2.2.2]
    exact (onReply_fades t l reply).nextRequest

theorem matched_step {e : SessionEvent} (hs : s.Replying) (h : s.step e = some s') : s'.Matched := by
  intro r msg hfuture
  have hkeeps := keepsIds_step hs.registered h
  obtain hbefore | ⟨-, cid, hcid, hentry⟩ := futures_step hs.orderly h hfuture
  · obtain ⟨request, hrequest, hid⟩ := hs.matched r msg hbefore
    obtain ⟨request', hrequest', hrid⟩ := hkeeps r request hrequest
    exact ⟨request', hrequest', by rw [hid, hrid]⟩
  · obtain ⟨request, hrequest, hbound⟩ := hs.registered.bound cid r hentry
    obtain ⟨request', hrequest', hrid⟩ := hkeeps r request hrequest
    exact ⟨request', hrequest', by rw [hcid, hrid, hbound]⟩

theorem replying_step {e : SessionEvent} (hs : s.Replying) (h : s.step e = some s') : s'.Replying :=
  ⟨orderly_step hs.orderly h, registered_step hs.registered h, answered_step hs.answered h, matched_step hs h⟩

theorem replying_new (settings : Settings) : (Session.new settings).Replying :=
  ⟨orderly_new settings, registered_new settings, fun _ _ _ hrequest => (nomatch hrequest), fun _ _ hfuture => (nomatch hfuture)⟩

end Requests

/-! ## Runs -/

section Runs

variable {s s' t : Session} {r : RequestId} {rid : Text} {msg : IncomingMessage}

theorem replies_append {es : List SessionEvent} (hrun : run Session.step s es = some t) (es' : List SessionEvent) :
    s.replies (es ++ es') = s.replies es ++ t.replies es' := by
  induction es generalizing s with
  | nil =>
      cases hrun
      rfl
  | cons e es ih =>
      obtain ⟨u, hu, hrest⟩ := Option.bind_eq_some_iff.mp hrun
      simp only [List.cons_append, Session.replies, hu, Option.map_some, Option.getD_some, ih hrest, List.append_assoc]

theorem run_snoc {es : List SessionEvent} {e : SessionEvent} (h : run Session.step s (es ++ [e]) = some s') :
    ∃ t, run Session.step s es = some t ∧ t.step e = some s' := by
  induction es generalizing s with
  | nil =>
      obtain ⟨t, ht, hrest⟩ := Option.bind_eq_some_iff.mp h
      cases hrest
      exact ⟨s, rfl, ht⟩
  | cons first es ih =>
      obtain ⟨u, hu, hrest⟩ := Option.bind_eq_some_iff.mp h
      obtain ⟨t, ht, hstep⟩ := ih hrest
      exact ⟨t, Option.bind_eq_some_iff.mpr ⟨u, hu, ht⟩, hstep⟩

theorem replying_run {es : List SessionEvent} (hs : s.Replying) (hrun : run Session.step s es = some s') : s'.Replying :=
  (reaches_of_run hrun (admits_true s es)).invariant hs fun _ _ _ hinv _ hstep => replying_step hinv hstep

theorem Session.FirstReply.append {es : List SessionEvent} (h : s.FirstReply es r rid msg) (es' : List SessionEvent) :
    s.FirstReply (es ++ es') r rid msg := by
  obtain ⟨before, e, after, t, rfl, hrest⟩ := h
  exact ⟨before, e, after ++ es', t, by simp, hrest⟩

/-- What a run does to a request whose future is not done with a reply. -/
structure Tells (s : Session) (r : RequestId) (es : List SessionEvent) (t : Session) : Prop where
  pending : ∀ rid, t.correlation.pending.get? rid = some r → s.correlation.pending.get? rid = some r ∧
    ∀ reply ∈ s.replies es, textOf (reply.properties .correlationId) ≠ some rid
  futures : ∀ msg, t.correlation.futures r = some (.ok msg) →
    ∃ rid, s.correlation.pending.get? rid = some r ∧ s.FirstReply es r rid msg
  nextRequest : r < t.nextRequest

theorem tells_run {es : List SessionEvent} (hs : s.Replying) (hr : r < s.nextRequest)
    (hnone : ∀ msg, s.correlation.futures r ≠ some (.ok msg)) (hrun : run Session.step s es = some t) :
    Tells s r es t := by
  induction es using List.reverseRecOn generalizing t with
  | nil =>
      cases hrun
      exact ⟨fun _ hget => ⟨hget, by simp [Session.replies]⟩, fun msg hdone => absurd hdone (hnone msg), hr⟩
  | append_singleton es e ih =>
      obtain ⟨u, hu, hstep⟩ := run_snoc hrun
      have htells := ih hu
      have horderly := (replying_run hs hu).orderly
      refine ⟨fun rid hget => ?_, fun msg hdone => ?_, ?_⟩
      · obtain ⟨hbefore, hother⟩ := pending_step horderly hstep htells.nextRequest hget
        obtain ⟨hfirst, hnoReply⟩ := htells.pending rid hbefore
        refine ⟨hfirst, fun reply hreply => ?_⟩
        rw [replies_append hu] at hreply
        rcases List.mem_append.mp hreply with hreply | hreply
        · exact hnoReply reply hreply
        · exact hother reply (by simpa [Session.replies, hstep] using hreply)
      · obtain hbefore | ⟨hreply, cid, hcid, hentry⟩ := futures_step horderly hstep hdone
        · obtain ⟨rid, hrid, hfirst⟩ := htells.futures msg hbefore
          exact ⟨rid, hrid, hfirst.append [e]⟩
        · obtain ⟨hfirst, hnoReply⟩ := htells.pending cid hentry
          exact ⟨cid, hfirst, es, e, [], u, rfl, hu, hreply, hcid, hentry, hnoReply⟩
      · exact htells.nextRequest.trans_le (nextRequest_step horderly hstep)

theorem request_registers {args : RequestArgs} {generated : Text}
    (hstep : s.step (.request args generated) = some s') (hchosen : s.chosenId args generated = .ok rid) :
    s.nextRequest < s'.nextRequest ∧ ∃ request, s'.requests s.nextRequest = some request ∧ request.rid = rid := by
  obtain ⟨-, ⟨⟩⟩ := Option.ite_none_left_eq_some.mp hstep
  have hset (v : Session) (request : Request) :
      (v.setRequest s.nextRequest request).requests s.nextRequest = some request := if_pos rfl
  unfold Session.request
  split
  · rename_i hrefused
    rw [hchosen] at hrefused
    cases hrefused
  · rename_i found hfound
    rw [hchosen] at hfound
    cases hfound
    extract_lets r t id
    split
    · exact ⟨Nat.lt_succ_self _, _, hset t _, rfl⟩
    · rename_i envelope _
      extract_lets u
      have hu := hset (t.call (some (.request r)) (.publish envelope.args)) ⟨rid, args.method, .publishing id envelope⟩
      split
      · rename_i outcome _
        have hconducts : Conducts (· = .replace) u (u.publishEnded r u.epoch outcome) := conducts_publishEnded u r _ _
        have hfades := hconducts.fades (by simp)
        obtain ⟨request, hrequest, hrid⟩ := keepsIds_publishEnded u r u.epoch _ _ _ hu
        exact ⟨hfades.nextRequest, request, hrequest, hrid⟩
      · exact ⟨Nat.lt_succ_self _, _, hu, rfl⟩

/-- A request that ends with a reply has the first one with its id. -/
theorem ended_first (hs : s.Replying) {args : RequestArgs} {generated : Text} {es : List SessionEvent} {s₁ : Session}
    (hstep : s.step (.request args generated) = some s₁) (hchosen : s.chosenId args generated = .ok rid)
    (hrun : run Session.step s₁ es = some s') (hended : s'.ended s.nextRequest = some (.ok msg)) :
    s₁.FirstReply es s.nextRequest rid msg := by
  obtain ⟨hlt, request, hrequest, hrid⟩ := request_registers hstep hchosen
  have hs₁ := replying_step hs hstep
  have hnone (reply : IncomingMessage) : s₁.correlation.futures s.nextRequest ≠ some (.ok reply) := by
    intro hdone
    obtain hbefore | ⟨hreply, -⟩ := futures_step hs.orderly hstep hdone
    · rw [(hs.registered.fresh _ le_rfl).2] at hbefore
      cases hbefore
    · cases hreply
  have hdone : s'.correlation.futures s.nextRequest = some (.ok msg) := by
    obtain ⟨found, hfound, hstage⟩ := stage_of_ended hended
    exact (replying_run hs₁ hrun).answered _ found msg hfound hstage
  obtain ⟨cid, hentry, hfirst⟩ := (tells_run hs₁ hlt hnone hrun).futures msg hdone
  obtain ⟨found, hfound, hcid⟩ := hs₁.registered.bound cid _ hentry
  rw [hrequest] at hfound
  cases hfound
  rwa [← hrid, hcid]

theorem replied_matched (hs : s.Matched) {request : Request} (hrequest : s.requests r = some request)
    (hfuture : s.correlation.futures r = some (.ok msg)) : s.replied r request (.ok msg) = s.endRequest r (.ok msg) := by
  obtain ⟨found, hfound, hid⟩ := hs r msg hfuture
  rw [hrequest] at hfound
  cases hfound
  exact if_pos hid

theorem acks_step {e : SessionEvent} (hs : s.Orderly) (hlive : s.Live) (h : s.step e = some s') :
    s'.acks = s.acks ++ (s.reply e).toList.map ackOf := by
  obtain ⟨hnone, -, hacks⟩ | ⟨reply, t, l, hreply, htakes, rfl⟩ := reply_cases hs h
  · rw [hnone, hacks]
    exact (List.append_nil _).symm
  · have hfits := reply_fits hs h hreply
    rw [hreply, (onReply_live htakes.orderly (live_of_conn htakes.conn hlive) hfits l).2.2, htakes.acks]
    rfl

theorem acks_run {es : List SessionEvent} (hs : s.Orderly) (hlive : Admits Session.step (fun s _ => s.Live) s es)
    (hrun : run Session.step s es = some s') : s'.acks = s.acks ++ (s.replies es).map ackOf := by
  induction es generalizing s with
  | nil =>
      cases hrun
      exact (List.append_nil _).symm
  | cons e es ih =>
      obtain ⟨t, ht, hrest⟩ := Option.bind_eq_some_iff.mp hrun
      simp only [Admits, ht] at hlive
      rw [ih (orderly_step hs ht) hlive.2 hrest, acks_step hs hlive.1 ht, Session.replies, ht, Option.map_some,
        Option.getD_some, List.map_append, List.append_assoc]

/-- A reply reaches at most the request whose entry has its id, and takes the entry. -/
theorem reply_confined {e : SessionEvent} (hs : s.Orderly) (hlive : s.Live) (h : s.step e = some s')
    (hreply : s.reply e = some msg) : s'.requests = s.requests ∧
    (∀ r, s'.correlation.futures r =
      if (textOf (msg.properties .correlationId)).bind s.correlation.pending.get? = some r ∧
          (s.correlation.futures r).isNone then some (.ok msg) else s.correlation.futures r) ∧
    ∀ rid, s'.correlation.pending.get? rid =
      if textOf (msg.properties .correlationId) = some rid then none else s.correlation.pending.get? rid := by
  obtain ⟨hnone, -, -⟩ | ⟨reply, t, l, hsome, htakes, rfl⟩ := reply_cases hs h
  · rw [hnone] at hreply
    cases hreply
  · rw [hsome] at hreply
    cases hreply
    obtain ⟨hcorrelation, hrequests, -⟩ :=
      onReply_live htakes.orderly (live_of_conn htakes.conn hlive) (reply_fits hs h hsome) l
    rw [hcorrelation, hrequests, ← htakes.requests, ← htakes.correlation]
    refine ⟨rfl, ?_⟩
    obtain ⟨hid, heq⟩ | ⟨cid, hid, heq⟩ := answered_cases t msg
    · rw [heq, hid]
      simp
    · rw [heq, hid]
      refine ⟨fun r => ?_, fun rid => ?_⟩
      · change settle t.correlation.futures (t.correlation.pending.get? cid).toList (.ok msg) r = _
        cases hfuture : t.correlation.futures r with
        | none => simp [settle, hfuture]
        | some outcome => simp [settle, hfuture]
      · change (t.correlation.pending.erase cid).get? rid = _
        rw [Dict.get?_erase]
        simp

end Runs

/-- In every run a request that ends with a reply has the first one that was taken with its id while its entry
was there, and none ends with a mismatch. A reply reaches no other request and takes the entry; on a live session
each is acked once, in order. -/
theorem replies_uncrossed (settings : Settings) (s : Session) (h : Reaches Session.step (Session.new settings) s) :
    (∀ args generated rid s₁ es s' msg, s.step (.request args generated) = some s₁ → s.chosenId args generated = .ok rid →
      run Session.step s₁ es = some s' → s'.ended s.nextRequest = some (.ok msg) →
      s₁.FirstReply es s.nextRequest rid msg) ∧
    (∀ r request msg, s.requests r = some request → s.correlation.futures r = some (.ok msg) →
      s.replied r request (.ok msg) = s.endRequest r (.ok msg)) ∧
    (∀ e s' msg, s.Live → s.step e = some s' → s.reply e = some msg →
      s'.requests = s.requests ∧
      (∀ r, s'.correlation.futures r =
        if (textOf (msg.properties .correlationId)).bind s.correlation.pending.get? = some r ∧
            (s.correlation.futures r).isNone then some (.ok msg) else s.correlation.futures r) ∧
      ∀ rid, s'.correlation.pending.get? rid =
        if textOf (msg.properties .correlationId) = some rid then none else s.correlation.pending.get? rid) ∧
    (∀ es s', Admits Session.step (fun s _ => s.Live) s es → run Session.step s es = some s' →
      s'.acks = s.acks ++ (s.replies es).map ackOf) := by
  have hs : s.Replying := h.invariant (replying_new settings) fun _ _ _ hinv _ hstep => replying_step hinv hstep
  refine ⟨?_, ?_, ?_, ?_⟩
  · intro args generated rid s₁ es s' msg hstep hchosen hrun hended
    exact ended_first hs hstep hchosen hrun hended
  · intro r request msg hrequest hfuture
    exact replied_matched hs.matched hrequest hfuture
  · intro e s' msg hlive hstep hreply
    exact reply_confined hs.orderly hlive hstep hreply
  · intro es s' hlive hrun
    exact acks_run hs.orderly hlive hrun

def calledArgs : RequestArgs where
  target := Text.ofString "svc"
  method := Text.ofString "m"
  queueProfile := durableAtLeastOnce

/-- A reply with the id of the request. -/
def replyDelivered (tag : UInt8) : List SessionEvent :=
  [.conn 0 (.task (.frame ⟨.method, 1, [0, 60, 0, 60, 1, 99, 0, 0, 0, 0, 0, 0, 0, tag, 0, 0, 0]⟩)),
    .conn 0 (.task (.frame ⟨.header, 1, [0, 60, 0, 0, 0, 0, 0, 0, 0, 0, 0, 2, 4, 0, 1, 114]⟩)),
    .conn 0 (.task (.frame ⟨.body, 1, [123, 125]⟩))]

/-- The reply comes before the confirm of the request, and a second time after it. -/
def repliedTwice : List SessionEvent :=
  [.conn 0 (.task (.drained 5 none)), .conn 0 (.task (.frame selectOkFrame)), .conn 0 (.task (.wake 5)),
    .conn 0 (.task (.drained 5 none))] ++ replyDelivered 1 ++ [.conn 0 (.wakeJob 4), .conn 0 (.resumed 6 none)] ++
    [.conn 0 (.task (.frame ackFrame)), .conn 0 (.task (.wake 5))] ++ replyDelivered 2 ++ [.conn 0 (.wakeJob 7)]

/-- The request has ended with a reply. -/
def Session.hasReply (s : Session) (r : RequestId) : Bool :=
  match s.ended r with
  | some (.ok _) => true
  | _ => false

/-- The request ends with the first of the two, and both are acked. -/
theorem repliedTwice_first : ∃ s s₁ s' msg,
    run Session.step (Session.new (settingsWith {})) sessionStarted = some s ∧
    s.step (.request calledArgs (Text.ofString "r")) = some s₁ ∧ run Session.step s₁ repliedTwice = some s' ∧
    s'.ended s.nextRequest = some (.ok msg) ∧
    s₁.FirstReply repliedTwice s.nextRequest (Text.ofString "r") msg ∧
    s'.acks = s₁.acks ++ (s₁.replies repliedTwice).map ackOf ∧ (s₁.replies repliedTwice).length = 2 := by
  have hrun : (run Session.step (Session.new (settingsWith {})) sessionStarted).any (fun s =>
      s.replyQueueOpen = true ∧ (s.step (.request calledArgs (Text.ofString "r"))).any (fun s₁ =>
        Admits Session.step (fun s _ => s.Live) s₁ repliedTwice ∧
        (s₁.replies repliedTwice).length = 2 ∧
          (run Session.step s₁ repliedTwice).any (fun s' => s'.hasReply s.nextRequest) = true) = true) = true := by
    decide +kernel
  obtain ⟨s, hs, hstate⟩ := (Option.any_eq_true _ _).mp hrun
  obtain ⟨hopen, hany⟩ := of_decide_eq_true hstate
  obtain ⟨s₁, hs₁, hany⟩ := (Option.any_eq_true _ _).mp hany
  obtain ⟨hlive, htwo, hany⟩ := of_decide_eq_true hany
  obtain ⟨s', hs', hended⟩ := (Option.any_eq_true _ _).mp hany
  unfold Session.hasReply at hended
  split at hended
  · rename_i msg hmsg
    have hreach : Reaches Session.step (Session.new (settingsWith {})) s := reaches_of_run hs (admits_true _ _)
    have hchosen : s.chosenId calledArgs (Text.ofString "r") = .ok (Text.ofString "r") := by
      rw [Session.chosenId, if_pos hopen]
      rfl
    obtain ⟨hfirst, -, -, -⟩ := replies_uncrossed (settingsWith {}) s hreach
    obtain ⟨-, -, -, hacked⟩ := replies_uncrossed (settingsWith {}) s₁ (hreach.snoc trivial hs₁)
    exact ⟨s, s₁, s', msg, hs, hs₁, hs', hmsg, hfirst _ _ _ _ _ _ _ hs₁ hchosen hs' hmsg, hacked _ _ hlive hs', htwo⟩
  · cases hended

end Nuropb.Sessions
