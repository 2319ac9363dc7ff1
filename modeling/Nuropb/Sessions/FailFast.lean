import Nuropb.Sessions.RequestSteps
import Nuropb.Transport.ChannelGate

/-! # Failing fast

A loss fails the futures of the table with one error. A request that still awaits its publish learns
of the loss from the connection, by another exception.
-/
namespace Nuropb.Sessions

open Library Patterns Transport Config

/-- `RpcError` with the code CONNECTION_LOST and `retryable` in its data. -/
def IsRetryableLoss (e : Exc) : Prop :=
  ∃ error data, e = .rpcError error ∧ error.code = connectionLost ∧ error.data = .dict data ∧
    (Text.ofString "retryable", PyVal.bool true) ∈ data

namespace Session

def FailsWith (s : Session) (r : RequestId) (e : Exc) : Prop :=
  ∃ request, s.requests r = some request ∧ (request.stage = .ended (.error e) ∨
    request.stage = .replying ∧ s.correlation.futures r = some (.error e) ∧
      ∃ s', s.step (.wakeRequest r) = some s' ∧
        s'.requests r = some { request with stage := .ended (.error e) })

/-- A loss that the session hears of finds none handled before, and every request in flight waiting for its
reply; a request that the loss has failed is not cancelled, and its time is not over, before it resumes. -/
structure KeepsFailFast (s : Session) (e : SessionEvent) : Prop where
  lost : ∀ exc, s.loss e = some exc → s.lossHandled = false ∧ ∀ r request, s.requests r = some request →
    (∀ outcome, request.stage ≠ .ended outcome) → request.stage = .replying ∧ s.correlation.futures r = none
  cancelled : ∀ r message, e = .cancelRequest r →
    s.correlation.futures r ≠ some (.error (connectionLostError message))
  expired : ∀ r message, e = .expireRequest r → s.correlation.futures r ≠ some (.error (connectionLostError message))

/-- No entry is left, and no request is going to leave one. -/
structure Emptied (s : Session) : Prop where
  pending : s.correlation.pending = .empty
  parked : s.parked = .empty
  publishing : ∀ r request, s.requests r = some request → ∀ call envelope, request.stage ≠ .publishing call envelope

/-- The request waits on a future that is done with the error, or has ended with it. -/
def Failed (s : Session) (r : RequestId) (e : Exc) : Prop :=
  ∃ request, s.requests r = some request ∧ (request.stage = .ended (.error e) ∨
    request.stage = .replying ∧ s.correlation.futures r = some (.error e))

end Session

section FailFast

variable {s s' s'' : Session} {e : SessionEvent} {r : RequestId} {exc : Exc}

theorem isRetryableLoss_connectionLostError (message : Text) : IsRetryableLoss (connectionLostError message) :=
  ⟨_, _, rfl, rfl, rfl, by simp [makeErrorData_eq]⟩

theorem connectionLostError_ne_timeoutError (message : Text) : connectionLostError message ≠ .timeoutError := by
  simp [connectionLostError]

theorem replied_error {request : Request} (hrequest : s.requests r = some request) (hexc : exc ≠ .timeoutError) :
    s.replied r request (.error exc) = s.setRequest r { request with stage := .ended (.error exc) } := by
  unfold Session.replied
  split
  · rename_i h
    cases h
  · rename_i h
    exact absurd (Except.error.inj h) hexc
  · rename_i h
    cases h
    rw [Session.endRequest, hrequest]

theorem Session.Failed.failsWith (h : s.Failed r exc) (hexc : exc ≠ .timeoutError) : s.FailsWith r exc := by
  obtain ⟨request, hrequest, hended | ⟨hreplying, hfuture⟩⟩ := h
  · exact ⟨request, hrequest, .inl hended⟩
  · refine ⟨request, hrequest, .inr ⟨hreplying, hfuture, s.setRequest r { request with stage := .ended (.error exc) },
      ?_, ?_⟩⟩
    · obtain ⟨rid, method, stage⟩ := request
      subst hreplying
      simp only [Session.step, Session.wakeRequest, hrequest, hfuture, Option.map_some]
      rw [replied_error hrequest hexc]
    · simp [requests_setRequest]

theorem Leaves.failed {q : RequestId} (h : Leaves q s s') (hne : q ≠ r) (hfailed : s.Failed r exc) :
    s'.Failed r exc := by
  obtain ⟨request, hrequest, hstate⟩ := hfailed
  refine ⟨request, (h.requests r hne.symm).trans hrequest, hstate.imp_right ?_⟩
  exact And.imp_right (h.futures r _)

theorem Spares.failed {allowed : Cause → Prop} (h : Spares allowed s s') (hfailed : s.Failed r exc) :
    s'.Failed r exc := by
  obtain ⟨request, hrequest, hstate⟩ := hfailed
  refine ⟨request, (congrFun h.requests r).trans hrequest, hstate.imp_right ?_⟩
  exact And.imp_right h.ledger.futures

theorem not_publishing_of_failed (hfailed : s.Failed r exc) : ∀ request, s.requests r = some request →
    ∀ call envelope, request.stage ≠ .publishing call envelope := by
  rintro request hrequest call envelope hstage
  obtain ⟨found, hfound, hended | ⟨hreplying, -⟩⟩ := hfailed
  · rw [hrequest] at hfound
    cases hfound
    rw [hstage] at hended
    cases hended
  · rw [hrequest] at hfound
    cases hfound
    rw [hstage] at hreplying
    cases hreplying

/-- A request that a loss has failed stays so until it ends with the error. -/
theorem failed_step {message : Text} (hs : s.Registered) (hkeeps : s.KeepsFailFast e) (h : s.step e = some s')
    (hfailed : s.Failed r (connectionLostError message)) : s'.Failed r (connectionLostError message) := by
  cases step_effect h with
  | spares h => exact h.failed hfailed
  | @publishEnded t q epoch outcome h hends heq =>
      have ht := h.failed hfailed
      rw [heq]
      by_cases hq : q = r
      · subst hq
        rw [publishEnded_of_not_publishing (not_publishing_of_failed ht)]
        exact ht
      · exact (leaves_publishEnded t q epoch outcome).failed hq ht
  | called args generated he hgenerated heq =>
      rw [heq]
      refine (leaves_request s args generated).failed ?_ hfailed
      rintro rfl
      obtain ⟨request, hrequest, -⟩ := hfailed
      rw [(hs.fresh _ le_rfl).1] at hrequest
      cases hrequest
  | woken rid method q outcome he hrequest hfuture heq =>
      rw [heq]
      by_cases hq : q = r
      · subst hq
        obtain ⟨request, hfound, hended | ⟨-, hdone⟩⟩ := hfailed
        · rw [hrequest] at hfound
          cases hfound
          cases hended
        · rw [hfuture] at hdone
          cases hdone
          rw [replied_error hrequest (connectionLostError_ne_timeoutError message)]
          exact ⟨_, by rw [requests_setRequest, if_pos rfl], .inl rfl⟩
      · exact (leaves_replied s q _ outcome).failed hq hfailed
  | cancelled q request he hrequest hstage heq =>
      obtain ⟨found, hfound, hstate⟩ := hfailed
      have hq : r ≠ q := by
        rintro rfl
        rcases hstate with hended | ⟨-, hfuture⟩
        · rw [hrequest] at hfound
          cases hfound
          rw [hstage] at hended
          cases hended
        · exact hkeeps.cancelled r message he hfuture
      rw [heq]
      exact ⟨found, hfound, by simpa [CorrelationTable.overtake, hq] using hstate⟩
  | expired q request he hrequest hstage htimer heq =>
      obtain ⟨found, hfound, hstate⟩ := hfailed
      have hq : r ≠ q := by
        rintro rfl
        rcases hstate with hended | ⟨-, hfuture⟩
        · rw [hrequest] at hfound
          cases hfound
          rw [hstage] at hended
          cases hended
        · exact hkeeps.expired r message he hfuture
      rw [heq]
      exact ⟨found, hfound, by simpa [CorrelationTable.overtake, hq] using hstate⟩

theorem Spares.emptied {allowed : Cause → Prop} (h : Spares allowed s s') (hs : s.Emptied) : s'.Emptied where
  pending := h.ledger.pending_empty hs.pending
  parked := h.ledger.parked_empty hs.parked
  publishing r request hrequest := hs.publishing r request ((congrFun h.requests r).symm.trans hrequest)

theorem emptied_endRequest (hs : s.Emptied) (outcome : Except Exc IncomingMessage) : (s.endRequest r outcome).Emptied := by
  unfold Session.endRequest
  split
  · rename_i request _
    refine ⟨hs.pending, hs.parked, ?_⟩
    intro q found hfound
    rw [requests_setRequest] at hfound
    split at hfound
    · cases hfound
      simp
    · exact hs.publishing q found hfound
  · exact hs

theorem emptied_replied (hs : s.Emptied) (request : Request) (outcome : Except Exc IncomingMessage) :
    (s.replied r request outcome).Emptied := by
  unfold Session.replied
  split
  · split
    · exact emptied_endRequest hs _
    · exact emptied_endRequest hs _
  · extract_lets t
    have hgaveUp : Spares (Cause.Early s.settings) s t := by
      dsimp only [t]
      split
      · exact .refl s
      · exact spares_gaveUp _ (.inr rfl)
    have ht : t.Emptied := hgaveUp.emptied hs
    have hforgot : (t.forgetPublish request.rid).Emptied := by
      refine ⟨ht.pending, ?_, ht.publishing⟩
      change t.parked.erase request.rid = _
      rw [ht.parked]
      rfl
    exact emptied_endRequest hforgot _
  · exact emptied_endRequest hs _

/-- Without a new request nothing is registered or parked any more. -/
theorem emptied_step (hs : s.Emptied) (hnew : ∀ args generated, e ≠ .request args generated)
    (h : s.step e = some s') : s'.Emptied := by
  cases step_effect h with
  | spares h => exact h.emptied hs
  | publishEnded r epoch outcome h hends heq =>
      have ht := h.emptied hs
      rw [heq, publishEnded_of_not_publishing (ht.publishing r)]
      exact ht
  | called args generated he hgenerated heq => exact absurd he (hnew args generated)
  | woken rid method r outcome he hrequest hfuture heq =>
      rw [heq]
      exact emptied_replied hs _ outcome
  | cancelled r request he hrequest hstage heq =>
      rw [heq]
      exact ⟨hs.pending, hs.parked, hs.publishing⟩
  | expired r request he hrequest hstage htimer heq =>
      rw [heq]
      exact ⟨hs.pending, hs.parked, hs.publishing⟩

theorem correlation_setLink (s : Session) (epoch : Nat) (link : Link) :
    (s.setLink epoch link).correlation = s.correlation := by
  unfold Session.setLink
  split <;> rfl

theorem loss_eq_some (h : s.loss e = some exc) : ∃ m, s.move e = some m ∧ m.epoch = s.epoch ∧ m.link.wired = true ∧
    m.link.client.conn.lost = none ∧ m.after.conn.lost = some exc := by
  obtain ⟨m, hmove, h⟩ := Option.bind_eq_some_iff.mp h
  obtain ⟨⟨hepoch, hwired, hlive⟩, hlost⟩ := Option.ite_none_right_eq_some.mp h
  exact ⟨m, hmove, hepoch, hwired, Option.isNone_iff_eq_none.mp hlive, hlost⟩

/-- The state in which a loss of the current connection has been heard. -/
theorem heard_of_loss (h : s.step e = some s') (hloss : s.loss e = some exc) :
    ∃ t u, Spares (Cause.Early s.settings) s t ∧ t.correlation = s.correlation ∧ t.lossHandled = s.lossHandled ∧
      u = t.onConnectionLost exc ∧ (Spares s'.Shows u s' ∨ ∃ r epoch outcome, s' = u.publishEnded r epoch outcome) := by
  obtain ⟨m, hmove, -, hwired, hlive, hlost⟩ := loss_eq_some hloss
  obtain ⟨u, hu, hrest⟩ := move_cases h hmove
  have hheard : s.heardIn e = (s.setLink m.epoch { m.link with client := m.after }).onConnectionLost exc := by
    rw [heardIn_of_move hmove, Session.heard, hlive, hlost, hwired]
    rfl
  have hset : Spares (Cause.Early s.settings) s (s.setLink m.epoch { m.link with client := m.after }) :=
    spares_setLink s m.epoch _
  have hhandled : (s.setLink m.epoch { m.link with client := m.after }).lossHandled = s.lossHandled := by
    unfold Session.setLink
    split <;> rfl
  have hended : Spares s'.Shows u s' ∨ ∃ r epoch outcome, s' = u.publishEnded r epoch outcome := by
    refine hrest.imp Spares.shown ?_
    rintro ⟨r, outcome, -, heq⟩
    exact ⟨r, m.epoch, outcome, heq⟩
  rcases hu with rfl | ⟨owner, rfl⟩
  · exact ⟨_, _, hset, correlation_setLink s m.epoch _, hhandled, hheard, hended⟩
  · refine ⟨(s.setLink m.epoch { m.link with client := m.after }).setCancelled owner false, _,
      hset.trans (spares_setCancelled _ owner false), correlation_setLink s m.epoch _, hhandled, ?_, hended⟩
    rw [hheard]
    exact (onConnectionLost_map _ id id (fun before other => if other = owner then false else before other) exc).symm

theorem onConnectionLost_failFast (hpolicy : s.settings.policy.failOutstanding = true) (hhandled : s.lossHandled = false) :
    s.onConnectionLost exc = { s with lossHandled := true, started := false, replyQueue := none }.failOutstanding
      (s.settings.text exc) := by
  unfold Session.onConnectionLost
  rw [hhandled, if_neg Bool.false_ne_true]
  dsimp only
  rw [if_pos hpolicy]

/-- The step of the loss: every request in flight fails, and no entry is left. -/
theorem failed_of_loss (hs : s.Registered) (hpolicy : s.settings.policy.failOutstanding = true)
    (hkeeps : s.KeepsFailFast e) (h : s.step e = some s') (hloss : s.loss e = some exc) :
    s'.Emptied ∧ ∀ r, s.InFlight r → s'.Failed r (connectionLostError (s.settings.text exc)) := by
  obtain ⟨hhandled, hwaits⟩ := hkeeps.lost exc hloss
  obtain ⟨t, u, ht, hcorrelation, hhandled', hu, hrest⟩ := heard_of_loss h hloss
  have htable := ht.registered hs
  rw [hhandled] at hhandled'
  rw [onConnectionLost_failFast (by rwa [ht.settings]) hhandled'] at hu
  have hrequests : u.requests = s.requests := by
    rw [hu]
    exact ht.requests
  have hempty : u.Emptied := by
    refine ⟨by rw [hu]; rfl, by rw [hu]; rfl, ?_⟩
    intro r request hrequest call envelope hstage
    rw [hrequests] at hrequest
    have hreplying := (hwaits r request hrequest (by simp [hstage])).1
    rw [hstage] at hreplying
    cases hreplying
  have hfailed : ∀ r, s.InFlight r → u.Failed r (connectionLostError (s.settings.text exc)) := by
    rintro r ⟨request, hrequest, hflight⟩
    obtain ⟨hreplying, hpending⟩ := hwaits r request hrequest hflight
    have hpending' : t.correlation.futures r = none := by
      rw [hcorrelation]
      exact hpending
    have hentry := htable.waits r request ((congrFun ht.requests r).trans hrequest) hflight hpending'
    refine ⟨request, (congrFun hrequests r).trans hrequest, .inr ⟨hreplying, ?_⟩⟩
    rw [hu, ← ht.settings]
    exact settle_of_mem hpending' (Dict.mem_values_iff.mpr ⟨_, hentry⟩)
  rcases hrest with hrest | ⟨r, epoch, outcome, heq⟩
  · exact ⟨hrest.emptied hempty, fun r hr => hrest.failed (hfailed r hr)⟩
  · rw [heq, publishEnded_of_not_publishing (hempty.publishing r)]
    exact ⟨hempty, hfailed⟩

end FailFast

structure Session.Failing (r : RequestId) (message : Text) (s : Session) : Prop where
  registered : s.Registered
  failed : s.Failed r (connectionLostError message)

structure Session.Made (settings : Settings) (s : Session) : Prop where
  registered : s.Registered
  settings : s.settings = settings

theorem made_step {settings : Settings} {s s' : Session} {e : SessionEvent} (hs : s.Made settings)
    (h : s.step e = some s') : s'.Made settings :=
  ⟨registered_step hs.registered h, (settings_step h).trans hs.settings⟩

/-- Under fail-fast every request that is in flight when the connection is lost fails with a retryable
CONNECTION_LOST, and nothing is registered or parked until a new request is called. -/
theorem lost_failsFast (settings : Settings) (hpolicy : settings.policy.failOutstanding = true) {s s' : Session}
    {e : SessionEvent} {exc : Exc}
    (h : ReachesWhere Session.step Session.KeepsFailFast (Session.new settings) s) (hkeeps : s.KeepsFailFast e)
    (hstep : s.step e = some s') (hloss : s.loss e = some exc) :
    (∃ error, IsRetryableLoss error ∧ ∀ s'', ReachesWhere Session.step Session.KeepsFailFast s' s'' →
      ∀ r, s.InFlight r → s''.FailsWith r error) ∧
    ∀ s'', ReachesWhere Session.step (fun s e => s.KeepsFailFast e ∧ ∀ args generated, e ≠ .request args generated) s' s'' →
      s''.correlation.pending = .empty ∧ s''.parked = .empty := by
  have hmade : s.Made settings :=
    h.invariant ⟨registered_new settings, rfl⟩ fun _ _ _ hinv _ hnext => made_step hinv hnext
  obtain ⟨hempty, hfailed⟩ := failed_of_loss hmade.registered (by rwa [hmade.settings]) hkeeps hstep hloss
  refine ⟨⟨connectionLostError (s.settings.text exc), isRetryableLoss_connectionLostError _, ?_⟩, ?_⟩
  · intro s'' hafter r hr
    have hfailing : s''.Failing r (s.settings.text exc) :=
      hafter.invariant ⟨registered_step hmade.registered hstep, hfailed r hr⟩ fun _ _ _ hinv hok hnext =>
        ⟨registered_step hinv.registered hnext, failed_step hinv.registered hok hnext hinv.failed⟩
    exact hfailing.failed.failsWith (connectionLostError_ne_timeoutError _)
  · intro s'' hafter
    have hrun : s''.Emptied := hafter.invariant hempty fun _ _ _ hinv hok hnext => emptied_step hinv hok.2 hnext
    exact ⟨hrun.pending, hrun.parked⟩

/-! ## A session -/

def reasonOf : Exc → Text
  | .protocolError reason | .connectionLost reason | .connectionBlocked reason | .amqpCodecError reason
  | .valueError reason | .runtimeError reason => Text.ofString reason
  | _ => []

def settingsWith (policy : ReconnectPolicy) : Settings where
  policy := policy
  connectionId _ := Text.ofString "6f9619ff8b86d011b42d00c04fc964ff"
  text := reasonOf
  stack := 1000

def failFastSettings : Settings := settingsWith { failOutstanding := true }

def declareOkFrame : Frame := ⟨.method, 1, [0, 50, 0, 11, 1, 113, 0, 0, 0, 0, 0, 0, 0, 0]⟩

def consumeOkFrame : Frame := ⟨.method, 1, [0, 60, 0, 21, 1, 99]⟩

def selectOkFrame : Frame := ⟨.method, 1, [0, 85, 0, 11]⟩

def ackFrame : Frame := ⟨.method, 1, [0, 60, 0, 80, 0, 0, 0, 0, 0, 0, 0, 1, 0]⟩

def sessionStarted : List SessionEvent :=
  [.start, .conn 0 (.resumed 0 none), .conn 0 (.resumed 0 none), .conn 0 (.task (.frame startFrame)),
    .conn 0 (.wakeJob 0), .conn 0 (.resumed 0 none), .conn 0 (.task (.frame tuneFrame)), .conn 0 (.wakeJob 0),
    .conn 0 (.resumed 0 none), .conn 0 (.resumed 0 none), .conn 0 (.task (.frame openOkFrame)), .conn 0 (.wakeJob 0),
    .conn 0 (.resumed 1 none), .conn 0 (.task (.frame channelOpenOkFrame)), .conn 0 (.wakeJob 1),
    .conn 0 (.task (.drained 2 none)), .conn 0 (.task (.frame declareOkFrame)), .conn 0 (.task (.wake 2)),
    .conn 0 (.task (.drained 3 none)), .conn 0 (.task (.frame consumeOkFrame)), .conn 0 (.task (.wake 3)),
    .runLoop 0]

def requestCalled : List SessionEvent :=
  sessionStarted ++
    [.request { target := Text.ofString "svc", method := Text.ofString "m", queueProfile := durableAtLeastOnce }
      (Text.ofString "r"), .conn 0 (.task (.drained 5 none))]

def requestPublished : List SessionEvent :=
  requestCalled ++ [.conn 0 (.task (.frame selectOkFrame)), .conn 0 (.task (.wake 5)), .conn 0 (.task (.drained 5 none)),
    .conn 0 (.task (.frame ackFrame)), .conn 0 (.task (.wake 5))]

def Request.isReplying (request : Request) : Bool :=
  match request.stage with
  | .replying => true
  | _ => false

theorem Request.stage_of_isReplying {request : Request} (h : request.isReplying = true) : request.stage = .replying := by
  unfold Request.isReplying at h
  split at h
  · assumption
  · cases h

def Session.undisturbed (s : Session) (e : SessionEvent) : Bool :=
  (s.loss e).isNone &&
    match e with
    | .cancelRequest _ | .expireRequest _ => false
    | _ => true

theorem keepsFailFast_of_undisturbed {s : Session} {e : SessionEvent} (h : s.undisturbed e = true) :
    s.KeepsFailFast e := by
  obtain ⟨hloss, hevent⟩ := Bool.and_eq_true_iff.mp h
  refine ⟨?_, ?_, ?_⟩
  · intro exc hexc
    rw [hexc] at hloss
    cases hloss
  · rintro r message rfl
    cases hevent
  · rintro r message rfl
    cases hevent

theorem eq_zero_of_requests {s : Session} (hs : s.Registered) (hnext : s.nextRequest = 1) {r : RequestId}
    {request : Request} (hrequest : s.requests r = some request) : r = 0 := by
  by_contra hne
  have hlate : s.nextRequest ≤ r := hnext ▸ Nat.one_le_iff_ne_zero.mpr hne
  rw [(hs.fresh r hlate).1] at hrequest
  cases hrequest

/-- A request that waits for its reply when the broker goes away. -/
theorem replying_failsFast : ∃ s s', run Session.step (Session.new failFastSettings) requestPublished = some s ∧
    s.step (.conn 0 (.task .eof)) = some s' ∧ s.InFlight 0 ∧
      (∃ error, IsRetryableLoss error ∧ s'.FailsWith 0 error) ∧ s'.correlation.pending = .empty ∧ s'.parked = .empty := by
  have hrun : (run Session.step (Session.new failFastSettings) requestPublished).any (fun s =>
      (s.step (.conn 0 (.task .eof))).isSome = true ∧ (s.loss (.conn 0 (.task .eof))).isSome = true ∧
        s.nextRequest = 1 ∧ (s.requests 0).any Request.isReplying = true ∧ (s.correlation.futures 0).isNone = true ∧
          s.lossHandled = false) = true := by
    decide +kernel
  obtain ⟨s, hs, hstate⟩ := (Option.any_eq_true _ _).mp hrun
  obtain ⟨hstep, hloss, hnext, hany, hpending, hhandled⟩ := of_decide_eq_true hstate
  obtain ⟨s', hstep⟩ := Option.isSome_iff_exists.mp hstep
  obtain ⟨exc, hloss⟩ := Option.isSome_iff_exists.mp hloss
  obtain ⟨request, hrequest, hreplying⟩ := (Option.any_eq_true _ _).mp hany
  have hstage := request.stage_of_isReplying hreplying
  have hundisturbed : ReachesWhere Session.step (fun s e => s.undisturbed e = true) (Session.new failFastSettings) s :=
    reaches_of_run hs (by decide +kernel)
  have hreaches := hundisturbed.mono fun _ _ => keepsFailFast_of_undisturbed
  have hregistered : s.Registered :=
    hreaches.invariant (registered_new failFastSettings) fun _ _ _ hinv _ hnext => registered_step hinv hnext
  have hkeeps : s.KeepsFailFast (.conn 0 (.task .eof)) := by
    refine ⟨fun _ _ => ⟨hhandled, ?_⟩, fun _ _ h => (nomatch h), fun _ _ h => (nomatch h)⟩
    intro r found hfound _
    have hzero := eq_zero_of_requests hregistered hnext hfound
    subst hzero
    rw [hrequest] at hfound
    cases hfound
    exact ⟨hstage, Option.isNone_iff_eq_none.mp hpending⟩
  have hflight : s.InFlight 0 := ⟨request, hrequest, by simp [hstage]⟩
  obtain ⟨⟨error, herror, hfails⟩, hempty⟩ := lost_failsFast failFastSettings rfl hreaches hkeeps hstep hloss
  exact ⟨s, s', hs, hstep, hflight, ⟨error, herror, hfails s' (.refl s') 0 hflight⟩, hempty s' (.refl s')⟩

def Session.ended (s : Session) (r : RequestId) : Option (Except Exc IncomingMessage) :=
  (s.requests r).bind fun request =>
    match request.stage with
    | .ended outcome => some outcome
    | _ => none

theorem stage_of_ended {s : Session} {r : RequestId} {outcome : Except Exc IncomingMessage}
    (h : s.ended r = some outcome) : ∃ request, s.requests r = some request ∧ request.stage = .ended outcome := by
  obtain ⟨request, hrequest, hstage⟩ := Option.bind_eq_some_iff.mp h
  refine ⟨request, hrequest, ?_⟩
  split at hstage
  · rename_i hended
    rw [hended, Option.some.inj hstage]
  · cases hstage

theorem inFlight_of_ended {s : Session} {r : RequestId} (hrequest : (s.requests r).isSome = true)
    (hended : (s.ended r).isNone = true) : s.InFlight r := by
  obtain ⟨request, hrequest⟩ := Option.isSome_iff_exists.mp hrequest
  refine ⟨request, hrequest, ?_⟩
  intro outcome hstage
  simp [Session.ended, hrequest, hstage] at hended

def Session.endedLost (s : Session) (r : RequestId) : Bool :=
  match s.ended r with
  | some (.error (.connectionLost _)) => true
  | _ => false

/-- The request awaits the reply to its `confirm.select` when the broker goes away. -/
theorem selecting_not_failsFast : ∃ s s' s'', run Session.step (Session.new failFastSettings) requestCalled = some s ∧
    s.step (.conn 0 (.task .eof)) = some s' ∧ (s.loss (.conn 0 (.task .eof))).isSome = true ∧ s.InFlight 0 ∧
      s'.step (.conn 0 (.task (.wake 5))) = some s'' ∧
        ∃ e, s''.ended 0 = some (.error e) ∧ ¬IsRetryableLoss e := by
  have hrun : (run Session.step (Session.new failFastSettings) requestCalled).any (fun s =>
      (s.loss (.conn 0 (.task .eof))).isSome = true ∧ (s.requests 0).isSome = true ∧ (s.ended 0).isNone = true ∧
        (s.step (.conn 0 (.task .eof))).any (fun s' => (s'.step (.conn 0 (.task (.wake 5)))).any fun s'' =>
          s''.endedLost 0) = true) = true := by
    decide +kernel
  obtain ⟨s, hs, hstate⟩ := (Option.any_eq_true _ _).mp hrun
  obtain ⟨hloss, hrequest, hflight, hany⟩ := of_decide_eq_true hstate
  obtain ⟨s', hstep, hany⟩ := (Option.any_eq_true _ _).mp hany
  obtain ⟨s'', hwake, hlost⟩ := (Option.any_eq_true _ _).mp hany
  refine ⟨s, s', s'', hs, hstep, hloss, inFlight_of_ended hrequest hflight, hwake, ?_⟩
  unfold Session.endedLost at hlost
  split at hlost
  · rename_i hended
    refine ⟨_, hended, ?_⟩
    rintro ⟨error, data, heq, -⟩
    cases heq
  · cases hlost

end Nuropb.Sessions
