import Nuropb.Sessions.Covering

/-! # Losses, reply loops and requests keep the parked publishes covered

None of them publishes again; a loss closes the queue, and a request parks only what it has published.
-/
namespace Nuropb.Sessions

open Library Patterns Transport Protocol

/-! ## Losses and reply loops -/

section Losses

variable {s : Session} {l : LoopId}

theorem covered_onConnectionLost (h : s.Covered) (hs : s.Staffed) (exc : Exc) : (s.onConnectionLost exc).Covered := by
  unfold Session.onConnectionLost
  split
  · exact h
  · extract_lets t
    have hclosed : Retains s t := .of_post (.inr ⟨rfl, rfl⟩) rfl
    split
    · exact h.of_same_workers (hclosed.trans (retains_discardAll t _)) rfl
    · split
      · exact h.of_same_workers hclosed rfl
      · have hcreated : Retains t t.createAuto := .of_post (.inl ⟨rfl, rfl⟩) rfl
        refine h.of_retains (hclosed.trans hcreated) (fun v worker hworker => ?_) fun v worker hworker _ => ?_
        · by_cases hv : v = t.nextWorker
          · subst hv
            cases (if_pos rfl).symm.trans hworker
            exact .inr (.inl ⟨rfl, by simp [Stage.lockPhase]⟩)
          · exact .inl ((if_neg hv).symm.trans hworker)
        · exact (if_neg (Nat.ne_of_lt (hs.lt_nextWorker hworker))).trans hworker

theorem covered_setLoop (h : s.Covered) (l : LoopId) (stage : LoopStage) : (s.setLoop l stage).Covered :=
  h.of_same_workers (retains_setLoop s l stage) rfl

theorem covered_call (h : s.Covered) (owner : Option Owner) (op : Operation) : (s.call owner op).Covered :=
  h.of_same_workers (retains_call s owner op) rfl

theorem covered_loopRaised (h : s.Covered) (hs : s.Staffed) (exc : Exc) : (s.loopRaised l exc).Covered := by
  unfold Session.loopRaised
  split
  · exact covered_setLoop h l _
  · exact covered_setLoop (covered_onConnectionLost h hs _) l _
  · have hfailed : Retains s (s.failOutstanding (s.settings.text exc)) := retains_discardAll s _
    exact covered_setLoop (h.of_same_workers hfailed rfl) l _

theorem covered_onReply (h : s.Covered) (hs : s.Staffed) (msg : IncomingMessage) : (s.onReply l msg).Covered := by
  unfold Session.onReply
  extract_lets t id t'
  have ht : t.Covered ∧ t.Staffed := by
    dsimp only [t]
    split
    · exact ⟨h.of_same_workers ((retains_complete s _ _).trans (retains_forgetPublish _ _)) rfl, hs.workers, hs.loops, hs.auto⟩
    · exact ⟨h, hs⟩
  have hcalled : t'.Covered := covered_call ht.1 _ _
  split
  · exact covered_loopRaised hcalled ⟨ht.2.workers, ht.2.loops, ht.2.auto⟩ _
  · exact covered_setLoop hcalled l _

theorem covered_receiveNext (h : s.Covered) (hs : s.Staffed) : (s.receiveNext l).Covered := by
  unfold Session.receiveNext
  extract_lets id taken t
  have hcalled : t.Covered := covered_call h _ _
  have hstaffed : t.Staffed := ⟨hs.workers, hs.loops, hs.auto⟩
  split
  · exact covered_onReply hcalled hstaffed _
  · exact covered_loopRaised hcalled hstaffed _
  · exact covered_setLoop hcalled l _

theorem covered_loopResumed (h : s.Covered) (hs : s.Staffed) (outcome : Except Exc (Option Text))
    (taken : Option IncomingMessage) : (s.loopResumed l outcome taken).Covered := by
  unfold Session.loopResumed
  split
  · exact covered_onReply h hs _
  · exact covered_receiveNext h hs
  · exact covered_loopRaised h hs _
  · exact covered_loopRaised h hs _
  · exact h

/-! ### A reply loop creates a worker at most -/

variable {w : WorkerId} {worker : Worker}

theorem workers_loopRaised {exc : Exc} (h : (s.loopRaised l exc).workers w = some worker) :
    s.workers w = some worker ∨ worker.stage = .created := by
  unfold Session.loopRaised at h
  split at h
  · exact .inl h
  · exact workers_onConnectionLost h
  · exact .inl h

theorem workers_onReply {msg : IncomingMessage} (h : (s.onReply l msg).workers w = some worker) :
    s.workers w = some worker ∨ worker.stage = .created := by
  unfold Session.onReply at h
  extract_lets t id t' at h
  have ht : t'.workers = s.workers := by
    dsimp only [t', t, Session.call]
    split <;> rfl
  rw [← ht]
  split at h
  · exact workers_loopRaised h
  · exact .inl h

theorem workers_receiveNext (h : (s.receiveNext l).workers w = some worker) :
    s.workers w = some worker ∨ worker.stage = .created := by
  unfold Session.receiveNext at h
  extract_lets id taken t at h
  split at h
  · exact workers_onReply (s := t) h
  · exact workers_loopRaised (s := t) h
  · exact .inl h

theorem workers_loopResumed {outcome : Except Exc (Option Text)} {taken : Option IncomingMessage}
    (h : (s.loopResumed l outcome taken).workers w = some worker) : s.workers w = some worker ∨ worker.stage = .created := by
  unfold Session.loopResumed at h
  split at h
  · exact workers_onReply h
  · exact workers_receiveNext h
  · exact workers_loopRaised h
  · exact workers_loopRaised h
  · exact .inl h

end Losses

/-! ## Requests -/

section Requests

variable {s s' : Session} {r : RequestId} {rid method : Text} {request : Request} {envelope : ParkedPublish} {call : CallId}

/-- A request that no longer publishes. -/
theorem retains_setRequest (hrid : ∀ old, s.requests r = some old → request.rid = old.rid)
    (hstage : ∀ call envelope, request.stage ≠ .publishing call envelope) : Retains s (s.setRequest r request) := by
  refine ⟨.inl ⟨rfl, rfl⟩, rfl, fun _ hfresh => hfresh, fun _ _ hfresh => hfresh, le_rfl, fun _ hmem => hmem,
    fun q rid method call envelope hfound => ?_, fun q found hfound => ?_, fun _ hparked => hparked,
    fun _ hpending => hpending⟩
  · rw [requests_setRequest] at hfound
    split at hfound
    · cases hfound
      exact absurd rfl (hstage call envelope)
    · exact hfound
  · rw [requests_setRequest]
    split
    · rename_i heq
      subst heq
      exact ⟨request, rfl, hrid found hfound⟩
    · exact ⟨found, hfound, rfl⟩

theorem retains_endRequest (s : Session) (r : RequestId) (outcome : Except Exc IncomingMessage) :
    Retains s (s.endRequest r outcome) := by
  unfold Session.endRequest
  split
  · rename_i request hrequest
    refine retains_setRequest (fun old hold => ?_) (by simp)
    cases hrequest.symm.trans hold
    rfl
  · exact .refl s

theorem retains_replied (s : Session) (r : RequestId) (request : Request) (outcome : Except Exc IncomingMessage) :
    Retains s (s.replied r request outcome) := by
  unfold Session.replied
  split
  · split <;> exact retains_endRequest s r _
  · extract_lets t
    have ht : Retains s t := by
      dsimp only [t]
      split
      · exact .refl s
      · exact retains_failPublish s _ _
    exact (ht.trans (retains_forgetPublish t _)).trans (retains_endRequest _ r _)
  · exact retains_endRequest s r _

theorem workers_of_crew (h : s'.crew = s.crew) : s'.workers = s.workers := congrArg Crew.workers h

theorem covered_replied (h : s.Covered) (request : Request) (outcome : Except Exc IncomingMessage) :
    (s.replied r request outcome).Covered :=
  h.of_same_workers (retains_replied s r request outcome) (workers_of_crew (leaves_replied s r request outcome).crew)

theorem fresh_of_outcome {c : Client} {outcome : Except Exc (Option Text)} (h : c.outcome call = some outcome) :
    c.fresh call = false := by
  refine Bool.eq_false_iff.mpr fun hfresh => ?_
  obtain ⟨hcalls, hjobs⟩ := fresh_iff.mp hfresh
  rw [Client.outcome, hcalls, hjobs] at h
  cases h

/-- The publish of a request has returned on the current connection, or while the queue is closed. -/
theorem covered_parked (h : s.Covered) (hrequest : s.requests r = some ⟨rid, method, .publishing call envelope⟩) {epoch : Nat}
    (hcurrent : s.replyQueueOpen = true → epoch = s.epoch ∧ s.link.client.fresh call = false) :
    Session.Covered { s.recordPublish epoch envelope with parked := s.parked.set rid envelope } where
  filed := by
    refine ⟨h.filed.asked, fun other hparked => ?_⟩
    change ((s.parked.set rid envelope).get? other).isSome = true at hparked
    rw [Dict.get?_set] at hparked
    split at hparked
    · rename_i heq
      exact ⟨r, _, hrequest, heq⟩
    · exact h.filed.known other hparked
  reconnects := h.reconnects
  staged v worker hworker := by
    have hallows := h.staged v worker hworker
    cases hstage : worker.stage <;> (rw [hstage] at hallows; exact hallows)
  owed hopen other howed := by
    have hparked := howed.1
    change ((s.parked.set rid envelope).get? other).isSome = true at hparked
    rw [Dict.get?_set] at hparked
    split at hparked
    · rename_i heq
      subst heq
      obtain ⟨rfl, hcalled⟩ := hcurrent hopen
      obtain ⟨queue, hqueue⟩ := Option.isSome_iff_exists.mp (Bool.and_eq_true_iff.mp hopen).1
      have haddressed := (h.filed.asked r rid method call envelope hrequest).2.resolve_left (by simp [hcalled])
      exact .inl ⟨queue, envelope.args, hqueue, List.mem_append_right _ List.mem_cons_self, haddressed queue hqueue⟩
    · exact (h.owed hopen other ⟨hparked, howed.2⟩).imp_left
        ((retains_recordPublish s epoch envelope).republished rfl)

theorem covered_publishEnded (h : s.Covered) {epoch : Nat} (outcome : Except Exc (Option Text))
    (hcurrent : ∀ rid method call envelope result, s.requests r = some ⟨rid, method, .publishing call envelope⟩ →
      outcome = .ok result → s.replyQueueOpen = true → epoch = s.epoch ∧ s.link.client.fresh call = false) :
    (s.publishEnded r epoch outcome).Covered := by
  unfold Session.publishEnded
  split
  · rename_i rid method call envelope hrequest
    split
    · rename_i result
      extract_lets t
      have hparked : { t with parked := t.parked.set rid envelope }.Covered :=
        covered_parked h hrequest (hcurrent rid method call envelope result hrequest rfl)
      unfold Session.awaitReply
      split
      · refine hparked.of_same_workers (retains_setRequest (fun old hold => ?_) (by simp)) rfl
        cases hrequest.symm.trans hold
        rfl
      · exact covered_replied hparked _ _
    · split
      · exact h.of_same_workers ((retains_failPublish s _ _).trans (retains_endRequest _ r _))
          (workers_of_crew ((leaves_failPublish r s _ _).trans (leaves_endRequest _ r _)).crew)
      · exact h.of_same_workers (retains_endRequest s r _) (workers_of_crew (leaves_endRequest s r _).crew)
  · exact h

/-- A request is registered under an id that is not parked. -/
theorem covered_registered (h : s.Covered) (hunparked : s.parked.contains rid = false) :
    Session.Covered { s with correlation := s.correlation.register rid r, nextRequest := r + 1 } where
  filed := ⟨h.filed.asked, h.filed.known⟩
  reconnects := h.reconnects
  staged v worker hworker := by
    have hallows := h.staged v worker hworker
    cases hstage : worker.stage <;> (rw [hstage] at hallows; exact hallows)
  owed hopen other howed := by
    refine h.owed hopen other ⟨howed.1, ?_⟩
    have hpending := howed.2
    change ((s.correlation.pending.set rid r).get? other).isSome = true at hpending
    rw [Dict.get?_set] at hpending
    split at hpending
    · rename_i heq
      subst heq
      have hparked : s.parked.contains rid = true := howed.1
      rw [hunparked] at hparked
      cases hparked
    · exact hpending

theorem envelope_addressed {args : RequestArgs} (h : s.envelope args rid = .ok envelope) :
    s.Addressed rid envelope.args := by
  intro queue hqueue
  have hrequest : s.requestProperties rid .replyTo = some (.str queue) ∧
      s.requestProperties rid .correlationId = some (.str rid) := by
    rw [Session.requestProperties, hqueue]
    exact ⟨rfl, rfl⟩
  obtain ⟨body, -, h⟩ := bind_eq_ok.mp h
  dsimp only at h
  split at h
  · obtain ⟨_, ⟨⟩, ⟨⟩⟩ := bind_eq_ok.mp h
    exact hrequest
  · obtain ⟨props, hattached, ⟨⟩⟩ := bind_eq_ok.mp h
    obtain ⟨_, -, hattached⟩ := bind_eq_ok.mp hattached
    obtain ⟨headers, -, ⟨⟩⟩ := bind_eq_ok.mp hattached
    exact hrequest

/-- A request publishes while the queue is open. -/
theorem covered_asked (h : s.Covered) (hstarted : s.started = true) (hnew : s.requests r = none)
    (haddressed : s.Addressed rid envelope.args) :
    ((s.call (some (.request r)) (.publish envelope.args)).setRequest r ⟨rid, method, .publishing s.nextCall envelope⟩).Covered := by
  have hcalled : Retains s (s.call (some (.request r)) (.publish envelope.args)) := retains_call s _ _
  have ht : (s.call (some (.request r)) (.publish envelope.args)).Covered := covered_call h _ _
  refine ⟨⟨fun q other method' call envelope' hfound => ?_, fun other hparked => ?_⟩, ht.reconnects, fun v worker hworker => ?_,
    ht.owed⟩
  · rw [requests_setRequest] at hfound
    split at hfound
    · cases hfound
      exact ⟨Nat.lt_succ_self _, .inr haddressed⟩
    · exact ht.filed.asked q other method' call envelope' hfound
  · obtain ⟨q, request, hrequest, hrid⟩ := ht.filed.known other hparked
    have hne : q ≠ r := by
      rintro rfl
      cases hnew.symm.trans hrequest
    exact ⟨q, request, (if_neg hne).trans hrequest, hrid⟩
  · have hallows := ht.staged v worker hworker
    cases hstage : worker.stage with
    | opening =>
      rw [hstage] at hallows
      exact absurd hallows.1 (by rw [show (s.call _ _).started = true from hstarted]; simp)
    | _ =>
      rw [hstage] at hallows
      exact hallows

theorem covered_request (h : s.Covered) (hs : s.Orderly) (hregistered : s.Registered) (args : RequestArgs) (generated : Text)
    (hfresh : ∀ rid, s.chosenId args generated = .ok rid → ∀ r request, s.requests r = some request → request.rid ≠ rid) :
    (s.request args generated).Covered := by
  unfold Session.request
  split
  · exact h
  · rename_i rid hchosen
    extract_lets r t id
    have hunparked : s.parked.contains rid = false := by
      refine Bool.eq_false_iff.mpr fun hparked => ?_
      obtain ⟨q, request, hrequest, hrid⟩ := h.filed.known rid hparked
      exact hfresh rid hchosen q request hrequest hrid
    have hnew : t.requests r = none := (hregistered.fresh r le_rfl).1
    have ht : t.Covered := covered_registered h hunparked
    split
    · refine ht.of_same_workers (retains_setRequest (fun old hold => ?_) (by simp)) rfl
      cases hnew.symm.trans hold
    · rename_i envelope henvelope
      extract_lets u
      have hstarted : t.started = true := (Bool.and_eq_true_iff.mp (chosenId_returns hchosen).1).2
      have hu : u.Covered := covered_asked ht hstarted hnew (envelope_addressed henvelope)
      split
      · rename_i outcome hended
        obtain ⟨exc, rfl, -⟩ := publish_raises ((hs _ List.mem_cons_self).fresh _ le_rfl) rfl hended
        exact covered_publishEnded hu _ fun _ _ _ _ _ _ hok => by cases hok
      · exact hu

end Requests

end Nuropb.Sessions
