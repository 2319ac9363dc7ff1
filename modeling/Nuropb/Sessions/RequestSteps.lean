import Nuropb.Sessions.Moves
import Nuropb.Sessions.Registered

/-! # What a step is to the requests

Either the requests are spared, or one of them runs: it is called, its publish ends, its future is
overtaken, or it resumes from its future.
-/
namespace Nuropb.Sessions

open Library Transport

/-- The ways in which a step concerns the requests. -/
inductive RequestEffect (s : Session) (e : SessionEvent) (s' : Session) : Prop
  | spares (h : Spares (s'.Tells (s.actor e)) s s')
  | publishEnded {t : Session} (r : RequestId) (epoch : Nat) (outcome : Except Exc (Option Text))
    (h : Spares (Cause.Prompt (s.actor e) s.settings) s t) (hends : s.PublishEnds e r epoch outcome)
    (heq : s' = t.publishEnded r epoch outcome)
  | called (args : RequestArgs) (generated : Text) (he : e = .request args generated)
    (hgenerated : ¬(args.requestId = none ∧ s.correlation.contains generated = true))
    (heq : s' = s.request args generated)
  | woken (rid method : Text) (r : RequestId) (outcome : Except Exc IncomingMessage) (he : e = .wakeRequest r)
    (hrequest : s.requests r = some ⟨rid, method, .replying⟩) (hfuture : s.correlation.futures r = some outcome)
    (heq : s' = s.replied r ⟨rid, method, .replying⟩ outcome)
  | cancelled (r : RequestId) (request : Request) (he : e = .cancelRequest r) (hrequest : s.requests r = some request)
    (hstage : request.stage = .replying)
    (heq : s' = { s with correlation := s.correlation.overtake r .cancelledError })
  | expired (r : RequestId) (request : Request) (he : e = .expireRequest r) (hrequest : s.requests r = some request)
    (hstage : request.stage = .replying)
    (htimer : s.settings.brokerTimeout = false)
    (heq : s' = { s with correlation := s.correlation.overtake r .timeoutError })

/-! ## What a request changes -/

/-- The state of the tasks that are not requests. -/
structure Crew where
  settings : Settings
  previous : List Link
  wired : Bool
  replyQueue : Option Text
  started : Bool
  lossHandled : Bool
  replyTask : Option LoopId
  autoTask : Option WorkerId
  lock : Option WorkerId
  lockLine : List WorkerId
  loops : LoopId → Option LoopStage
  workers : WorkerId → Option Worker
  nextLoop : LoopId
  nextWorker : WorkerId

def Session.crew (s : Session) : Crew where
  settings := s.settings
  previous := s.previous
  wired := s.link.wired
  replyQueue := s.replyQueue
  started := s.started
  lossHandled := s.lossHandled
  replyTask := s.replyTask
  autoTask := s.autoTask
  lock := s.lock
  lockLine := s.lockLine
  loops := s.loops
  workers := s.workers
  nextLoop := s.nextLoop
  nextWorker := s.nextWorker

/-- A request changes its own stage, and no future that is done. -/
structure Leaves (r : RequestId) (s s' : Session) : Prop where
  crew : s'.crew = s.crew
  requests : ∀ q, q ≠ r → s'.requests q = s.requests q
  futures : ∀ q outcome, s.correlation.futures q = some outcome → s'.correlation.futures q = some outcome

section Leaving

variable {s s' s'' : Session} {r : RequestId}

theorem Leaves.refl (r : RequestId) (s : Session) : Leaves r s s := ⟨rfl, fun _ _ => rfl, fun _ _ h => h⟩

theorem Leaves.trans (h : Leaves r s s') (h' : Leaves r s' s'') : Leaves r s s'' where
  crew := h'.crew.trans h.crew
  requests q hq := (h'.requests q hq).trans (h.requests q hq)
  futures q outcome hdone := h'.futures q outcome (h.futures q outcome hdone)

theorem leaves_failPublish (r : RequestId) (s : Session) (rid : Text) (e : Exc) : Leaves r s (s.failPublish rid e) :=
  ⟨rfl, fun _ _ => rfl, fun _ _ h => settle_of_done h⟩

theorem leaves_setRequest (s : Session) (r : RequestId) (request : Request) : Leaves r s (s.setRequest r request) :=
  ⟨rfl, fun _ hq => if_neg hq, fun _ _ h => h⟩

theorem leaves_endRequest (s : Session) (r : RequestId) (outcome : Except Exc IncomingMessage) :
    Leaves r s (s.endRequest r outcome) := by
  unfold Session.endRequest
  split
  · exact leaves_setRequest s r _
  · exact .refl r s

theorem leaves_replied (s : Session) (r : RequestId) (request : Request) (outcome : Except Exc IncomingMessage) :
    Leaves r s (s.replied r request outcome) := by
  unfold Session.replied
  split
  · split
    · exact leaves_endRequest s r _
    · exact leaves_endRequest s r _
  · extract_lets t
    have ht : Leaves r s t := by
      dsimp only [t]
      split
      · exact .refl r s
      · exact leaves_failPublish r s _ _
    have hforgot : Leaves r t (t.forgetPublish request.rid) := ⟨rfl, fun _ _ => rfl, fun _ _ h => h⟩
    exact (ht.trans hforgot).trans (leaves_endRequest _ r _)
  · exact leaves_endRequest s r _

theorem leaves_publishEnded (s : Session) (r : RequestId) (epoch : Nat) (outcome : Except Exc (Option Text)) :
    Leaves r s (s.publishEnded r epoch outcome) := by
  unfold Session.publishEnded
  split
  · rename_i rid method call envelope _
    split
    · extract_lets t
      have ht : Leaves r s { t with parked := t.parked.set rid envelope } := ⟨rfl, fun _ _ => rfl, fun _ _ h => h⟩
      refine ht.trans ?_
      unfold Session.awaitReply
      split
      · exact leaves_setRequest _ r _
      · exact leaves_replied _ r _ _
    · split
      · exact (leaves_failPublish r s _ _).trans (leaves_endRequest _ r _)
      · exact leaves_endRequest s r _
  · exact .refl r s

theorem leaves_request (s : Session) (args : RequestArgs) (generated : Text) :
    Leaves s.nextRequest s (s.request args generated) := by
  unfold Session.request
  split
  · exact .refl _ s
  · extract_lets r t id
    have ht : Leaves r s t := ⟨rfl, fun _ _ => rfl, fun _ _ h => h⟩
    split
    · exact ht.trans (leaves_setRequest t r _)
    · extract_lets u
      have hu : Leaves r s u := ⟨rfl, fun _ hq => if_neg hq, fun _ _ h => h⟩
      split
      · exact hu.trans (leaves_publishEnded u r _ _)
      · exact hu

/-- A request that is not publishing is not concerned by the end of a publish. -/
theorem publishEnded_of_not_publishing (h : ∀ request, s.requests r = some request →
    ∀ call envelope, request.stage ≠ .publishing call envelope) (epoch : Nat) (outcome : Except Exc (Option Text)) :
    s.publishEnded r epoch outcome = s := by
  unfold Session.publishEnded
  split
  · rename_i hrequest
    exact absurd rfl (h _ hrequest _ _)
  · rfl

end Leaving

/-! ## Steps -/

section Steps

variable {s s' : Session} {e : SessionEvent}

theorem spares_heardIn (s : Session) (e : SessionEvent) {actor : Actor} :
    Spares (Cause.Prompt actor s.settings) s (s.heardIn e) := by
  unfold Session.heardIn
  split
  · rename_i m _
    have hset : Spares (Cause.Prompt actor s.settings) s (s.setLink m.epoch { m.link with client := m.after }) :=
      spares_setLink s m.epoch _
    refine hset.trans ?_
    rw [← hset.settings]
    exact spares_heard _ m.link.wired m.link.client m.after
  · exact .refl s

/-- Once it has been heard, a step of a connection spares the requests, or the publish of one of them ends in it. -/
theorem move_cases {m : Move} (h : s.step e = some s') (hmove : s.move e = some m) :
    ∃ u, (u = s.heardIn e ∨ ∃ owner, u = (s.heardIn e).setCancelled owner false) ∧
      (Spares (s'.Tells (s.actor e)) u s' ∨
        ∃ r outcome, s.PublishEnds e r m.epoch outcome ∧ s' = u.publishEnded r m.epoch outcome) := by
  obtain ⟨u, hu, hresume⟩ := resume_of_move h hmove
  refine ⟨u, hu, ?_⟩
  rcases hresume with rfl | ⟨id, outcome, hcall, houtcome, rfl⟩
  · exact .inl (.refl s')
  · have hactor {owner : Owner} (howner : (u.owners id).filter (fun owner => u.awaits owner = some id) = some owner) :
        (m.call.bind fun id => (s.owners id).filter fun owner => s.awaits owner = some id) = some owner := by
      obtain ⟨hfound, hawaits⟩ := resumes_of_heard hu howner
      rw [hcall, Option.bind_some, hfound, Option.filter_some, if_pos (decide_eq_true hawaits)]
    unfold Session.resume
    split
    · rename_i r howner
      exact .inr ⟨r, outcome, ⟨id, by simp [Session.callEnds, hmove, hcall, houtcome], (resumes_of_heard hu howner).1⟩, rfl⟩
    · rename_i l howner
      rw [actor_of_move hmove, Session.callActor, hactor howner]
      exact .inl (spares_loopResumed u l outcome _)
    · rename_i w howner
      rw [actor_of_move hmove, Session.callActor, hactor howner]
      exact .inl (spares_workerResumed u w m.epoch outcome)
    · exact .inl (.refl u)

theorem spares_of_heardIn {u : Session} (hu : u = s.heardIn e ∨ ∃ owner, u = (s.heardIn e).setCancelled owner false)
    {actor : Actor} : Spares (Cause.Prompt actor s.settings) s u := by
  rcases hu with rfl | ⟨owner, rfl⟩
  · exact spares_heardIn s e
  · exact (spares_heardIn s e).trans (spares_setCancelled _ owner false)

theorem move_effect {m : Move} (h : s.step e = some s') (hmove : s.move e = some m) : RequestEffect s e s' := by
  obtain ⟨u, hu, hspares | ⟨r, outcome, hends, heq⟩⟩ := move_cases h hmove
  · exact .spares ((spares_of_heardIn hu).before hspares)
  · exact .publishEnded r m.epoch outcome (spares_of_heardIn hu) hends heq

theorem runLoop_effect {l : LoopId} (h : s.runLoop l = some s') : Spares (s'.Tells (.loop l)) s s' := by
  unfold Session.runLoop at h
  split at h
  · cases h
    split
    · exact (spares_setCancelled s _ _).before (spares_loopRaised _ l _)
    · exact spares_receiveNext s l
  · cases h

theorem cancelRequest_effect {r : RequestId} (h : s.cancelRequest r = some s') :
    RequestEffect s (.cancelRequest r) s' := by
  unfold Session.cancelRequest at h
  split at h
  · cases h
    exact .spares (spares_setCancelled s _ _)
  · rename_i hstage
    cases h
    obtain ⟨request, hrequest, hstage⟩ := Option.map_eq_some_iff.mp hstage
    exact .cancelled r request rfl hrequest hstage rfl
  · cases h

theorem expireRequest_effect {r : RequestId} (h : s.expireRequest r = some s') :
    RequestEffect s (.expireRequest r) s' := by
  unfold Session.expireRequest at h
  split at h
  · rename_i hstage
    obtain ⟨request, hrequest, hstage⟩ := Option.map_eq_some_iff.mp hstage
    split at h
    · cases h
    · rename_i htimer
      cases h
      exact .expired r request rfl hrequest hstage (by simpa using htimer) rfl
  · cases h

theorem wakeRequest_effect {r : RequestId} (h : s.wakeRequest r = some s') :
    RequestEffect s (.wakeRequest r) s' := by
  unfold Session.wakeRequest at h
  split at h
  · rename_i hrequest
    obtain ⟨outcome, hfuture, rfl⟩ := Option.map_eq_some_iff.mp h
    exact .woken _ _ r outcome rfl hrequest hfuture rfl
  · cases h

/-- A worker or a loop runs, or one is called. -/
def SessionEvent.isTask : SessionEvent → Bool
  | .start | .reconnect | .coordinate _ | .close | .operate _ | .runWorker _ | .runLoop _ => true
  | _ => false

theorem task_tells (h : s.step e = some s') (htask : e.isTask = true) : Spares (s'.Tells (s.actor e)) s s' := by
  cases e with
  | start =>
      cases h
      exact spares_start s
  | reconnect =>
      cases h
      exact spares_reconnect s
  | coordinate policy =>
      cases h
      exact spares_coordinate s policy
  | close =>
      cases h
      exact spares_close s
  | operate op =>
      cases h
      exact spares_call s none op
  | runWorker w => exact spares_runWorker h
  | runLoop l => exact runLoop_effect h
  | _ => cases htask

theorem step_effect (h : s.step e = some s') : RequestEffect s e s' := by
  cases e with
  | request args generated =>
      obtain ⟨hgenerated, ⟨⟩⟩ := Option.ite_none_left_eq_some.mp h
      exact .called args generated rfl hgenerated rfl
  | conn epoch e =>
      obtain ⟨m, hmove⟩ := move_of_step h
      exact move_effect h hmove
  | interrupt epoch id =>
      obtain ⟨m, hmove⟩ := move_of_interrupt h
      exact move_effect h hmove
  | wakeRequest r => exact wakeRequest_effect h
  | expireRequest r => exact expireRequest_effect h
  | cancelRequest r => exact cancelRequest_effect h
  | _ => exact .spares (task_tells h rfl)

theorem settings_of_crew (h : s'.crew = s.crew) : s'.settings = s.settings := congrArg Crew.settings h

theorem settings_step (h : s.step e = some s') : s'.settings = s.settings := by
  cases step_effect h with
  | spares h => exact h.settings
  | publishEnded r epoch outcome h hends heq =>
      rw [heq, settings_of_crew (leaves_publishEnded _ r epoch outcome).crew, h.settings]
  | called args generated he hgenerated heq =>
      rw [heq, settings_of_crew (leaves_request s args generated).crew]
  | woken rid method r outcome he hrequest hfuture heq =>
      rw [heq, settings_of_crew (leaves_replied s r _ outcome).crew]
  | cancelled r request he hrequest hstage heq => rw [heq]
  | expired r request he hrequest hstage htimer heq => rw [heq]

theorem registered_step (hs : s.Registered) (h : s.step e = some s') : s'.Registered := by
  cases step_effect h with
  | spares h => exact h.registered hs
  | publishEnded r epoch outcome h hends heq =>
      rw [heq]
      exact registered_publishEnded (h.registered hs) r epoch outcome
  | called args generated he hgenerated heq =>
      rw [heq]
      exact registered_request hs hgenerated
  | woken rid method r outcome he hrequest hfuture heq =>
      rw [heq]
      exact registered_replied hs hrequest (by simp) outcome
  | cancelled r request he hrequest hstage heq =>
      rw [heq]
      exact registered_overtake hs hrequest _
  | expired r request he hrequest hstage htimer heq =>
      rw [heq]
      exact registered_overtake hs hrequest _

theorem registered_new (settings : Settings) : (Session.new settings).Registered where
  fresh _ _ := ⟨rfl, rfl⟩
  bound _ _ hget := by cases hget
  waits _ _ hrequest _ _ := by cases hrequest

end Steps

end Nuropb.Sessions
