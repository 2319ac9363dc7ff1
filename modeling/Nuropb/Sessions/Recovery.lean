import Nuropb.Sessions.Coverage
import Nuropb.Sessions.Parked
import Nuropb.Sessions.Republishing

/-! # No parked request is forgotten

A coordinator that returns leaves every id that was parked when it began either done with, or published on the current
connection.
-/
namespace Nuropb.Sessions

open Library Patterns Transport Protocol

namespace Session

/-- Workers have ended, nothing is parked, and no request publishes. -/
structure Settled (s : Session) : Prop where
  ended : ∀ w worker, s.workers w = some worker → ∃ outcome, worker.stage = .ended outcome
  parked : s.parked.entries = []
  unasked : ∀ r rid method call envelope, s.requests r ≠ some ⟨rid, method, .publishing call envelope⟩

/-- The session is neither started nor closed, and each request called has an id of its own; the publish of a request
does not return from an earlier connection while the queue is open. While there is a reply queue no publish of a
reconnect raises anything but a refusal, unless what it has yet to publish is discharged, and a reconnect returns only
while there is one, unless all that is owed is refused. -/
structure KeepsParked (s : Session) (e : SessionEvent) : Prop where
  uncalled : e ≠ .start ∧ e ≠ .close
  fresh : ∀ args generated rid, e = .request args generated → s.chosenId args generated = .ok rid →
    ∀ r request, s.requests r = some request → request.rid ≠ rid
  published : ∀ r epoch id result, s.callEnds e = some (epoch, id, .ok result) → s.owners id = some (.request r) →
    s.awaits (.request r) = some id → (s.heardIn e).replyQueueOpen = true → epoch = s.epoch
  raised : ∀ w purpose epoch id exc rid envelope rest, s.callEnds e = some (epoch, id, .error exc) →
    s.owners id = some (.worker w) → s.workers w = some ⟨purpose, .republishing id rid envelope rest⟩ →
      exc.isPublishRefusal = true ∨ (s.heardIn e).replyQueue = none ∨
        (s.heardIn e).Discharged (rid :: rest.map Prod.fst)
  resumed : ∀ w epoch id outcome m, s.callEnds e = some (epoch, id, outcome) → s.owners id = some (.worker w) →
    s.awaits (.worker w) = some id → (s.heardIn e).remainder w outcome = some m → (s.heardIn e).MayPublish m

def hasReturned (s : Session) (w : WorkerId) : Bool :=
  match s.workers w with
  | some ⟨_, .ended (.ok _)⟩ => true
  | _ => false

/-- The coordinator begins in the step: it is called, or its task runs for the first time. -/
def Begins (s : Session) (w : WorkerId) (e : SessionEvent) : Prop :=
  (∃ policy, e = .coordinate policy ∧ s.nextWorker = w) ∨
    e = .runWorker w ∧ ∃ attempt, s.workers w = some ⟨.auto attempt, .created⟩

/-- The coordinator begins in the first step of the run, and returns in its last. -/
structure Coordinates (s : Session) (w : WorkerId) (es : List SessionEvent) (s' : Session) : Prop where
  begins : ∃ e, es.head? = some e ∧ s.Begins w e
  returns : ∃ before e t, es = before ++ [e] ∧ run Session.step s before = some t ∧ t.step e = some s' ∧
    t.hasReturned w = false ∧ s'.hasReturned w = true

/-- Every id that is parked in the first state is no longer pending in the second, or has been published on its
connection, for its reply queue. -/
def Recovers (s s' : Session) : Prop :=
  ∀ rid, s.parked.contains rid = true → s'.correlation.contains rid = false ∨ s'.Republished rid

/-- A worker that returns in a step leaves nothing forgotten. -/
def Delivers (s s' : Session) : Prop :=
  s'.Covered ∧ ∀ w, s.hasReturned w = false → s'.hasReturned w = true → s'.Remembers

/-- A request has had the id. -/
def Named (s : Session) (rid : Text) : Prop := ∃ r request, s.requests r = some request ∧ request.rid = rid

structure Guarded (s : Session) : Prop where
  covered : s.Covered
  orderly : s.Orderly
  registered : s.Registered
  ranked : s.Ranked
  timely : s.Timely
  policy : s.settings.policy.failOutstanding = false

structure Tracks (s : Session) (rid : Text) : Prop where
  guarded : s.Guarded
  named : s.Named rid
  stores : s.Stores rid

end Session

/-! ## Steps -/

section Steps

variable {s s' u : Session} {e : SessionEvent} {m : Move} {w : WorkerId}

theorem hasReturned_iff : s.hasReturned w = true ↔ ∃ purpose, s.workers w = some ⟨purpose, .ended (.ok ())⟩ := by
  unfold Session.hasReturned
  split
  · rename_i purpose result hworker
    exact ⟨fun _ => ⟨purpose, hworker⟩, fun _ => rfl⟩
  · rename_i hnot
    refine ⟨fun hreturned => ?_, ?_⟩
    · cases hreturned
    · rintro ⟨purpose, hworker⟩
      exact absurd hworker (hnot purpose ())

theorem delivers_of_workers (hs' : s'.Covered) (h : ∀ v worker, s'.workers v = some worker →
    s.workers v = some worker ∨ worker.stage = .created ∨ s'.Settles v) : s.Delivers s' := by
  refine ⟨hs', fun v hbefore hafter => ?_⟩
  obtain ⟨purpose, hended⟩ := hasReturned_iff.mp hafter
  rcases h v _ hended with hsame | hcreated | hsettles
  · rw [hasReturned_iff.mpr ⟨purpose, hsame⟩] at hbefore
    cases hbefore
  · cases hcreated
  · exact hsettles.2 purpose hended

theorem delivers_of_settles (h : s'.Settles w) (hothers : ∀ v, v ≠ w → s'.workers v = s.workers v) : s.Delivers s' := by
  refine delivers_of_workers h.1 fun v worker hworker => ?_
  by_cases hv : v = w
  · subst hv
    exact .inr (.inr h)
  · exact .inl ((hothers v hv).symm.trans hworker)

theorem retains_setLink {epoch : Nat} {link link' : Link} (hlink : s.linkAt epoch = some link)
    (hfresh : ∀ call, link.client.fresh call = true → link'.client.fresh call = true) : Retains s (s.setLink epoch link') := by
  unfold Session.linkAt at hlink
  unfold Session.setLink
  split at hlink
  · rename_i hepoch
    cases hlink
    rw [if_pos hepoch]
    exact ⟨.inl ⟨rfl, rfl⟩, rfl, fun _ hbefore => hbefore, fun call _ => hfresh call, le_rfl, fun _ hmem => hmem,
      fun _ _ _ _ _ hrequest => hrequest, fun _ request hrequest => ⟨request, hrequest, rfl⟩, fun _ hparked => hparked,
      fun _ hpending => hpending⟩
  · rename_i hepoch
    rw [if_neg hepoch]
    refine ⟨.inl ⟨rfl, rfl⟩, List.length_set, fun call hbefore other hother => ?_, fun _ _ hfresh => hfresh, le_rfl,
      fun _ hmem => hmem, fun _ _ _ _ _ hrequest => hrequest, fun _ request hrequest => ⟨request, hrequest, rfl⟩,
      fun _ hparked => hparked, fun _ hpending => hpending⟩
    rcases List.mem_or_eq_of_mem_set hother with hmem | rfl
    · exact hbefore other hmem
    · exact hfresh call (hbefore link (List.mem_of_getElem? hlink))

theorem covered_heardIn (h : s.Covered) (hs : s.Staffed) (hstep : s.step e = some s') : (s.heardIn e).Covered := by
  unfold Session.heardIn
  split
  · rename_i m hmove
    have hheard : (s.heard m.link.wired m.link.client m.after).Covered := by
      unfold Session.heard
      split
      · split
        · exact covered_onConnectionLost h hs _
        · exact h
      · exact h
    rw [setLink_heard]
    exact hheard.of_same_workers (retains_setLink ((linkAt_heard ..).trans (linkAt_of_move hmove))
      fun _ => fresh_of_move hstep hmove) (workers_setLink ..)
  · exact h

/-- A call that has ended on a connection other than the earlier ones has ended on the current one. -/
theorem epoch_of_fresh {epoch : Nat} {link : Link} {call : CallId} {outcome : Except Exc (Option Text)}
    (hlink : s.linkAt epoch = some link) (hended : link.client.outcome call = some outcome)
    (hfresh : ∀ link ∈ s.previous, link.client.fresh call = true) : epoch = s.epoch := by
  unfold Session.linkAt at hlink
  split at hlink
  · assumption
  · have hnot := hfresh link (List.mem_of_getElem? hlink)
    rw [fresh_of_outcome hended] at hnot
    cases hnot

theorem linkAt_setLink {epoch : Nat} {link link' : Link} (hlink : s.linkAt epoch = some link) :
    (s.setLink epoch link').linkAt epoch = some link' := by
  unfold Session.linkAt at hlink ⊢
  rw [epoch_setLink]
  unfold Session.setLink
  split at hlink
  · rename_i hepoch
    rw [if_pos hepoch, if_pos hepoch]
  · rename_i hepoch
    rw [if_neg hepoch, if_neg hepoch]
    have hlt : epoch < s.previous.length := (List.getElem?_eq_some_iff.mp hlink).1
    exact List.getElem?_set_self hlt

/-- The session of a step of a connection: the connection has taken it. -/
theorem linkAt_heardIn (hmove : s.move e = some m) :
    (s.heardIn e).linkAt m.epoch = some { m.link with client := m.after } ∧ (s.heardIn e).epoch = s.epoch := by
  rw [heardIn_of_move hmove, linkAt_heard]
  refine ⟨linkAt_setLink (linkAt_of_move hmove), ?_⟩
  have hepoch := epoch_setLink s m.epoch { m.link with client := m.after }
  rw [← hepoch]
  exact congrArg List.length (hearsOnly_heard _ m.link.wired m.link.client m.after).previous

theorem delivers_resume (h : u.Covered) (horderly : u.Orderly) (hs : u.Ranked)
    (hpolicy : u.settings.policy.failOutstanding = false) {epoch : Nat} {id : CallId} {link : Link}
    {outcome : Except Exc (Option Text)} (taken : Option IncomingMessage) (hlink : u.linkAt epoch = some link)
    (hended : link.client.outcome id = some outcome)
    (hpublished : ∀ r result, u.owners id = some (.request r) → u.awaits (.request r) = some id → outcome = .ok result →
      u.replyQueueOpen = true → epoch = u.epoch)
    (hresumed : ∀ w m, u.owners id = some (.worker w) → u.awaits (.worker w) = some id → u.remainder w outcome = some m →
      u.MayPublish m)
    (hraised : ∀ w purpose exc rid envelope rest, u.owners id = some (.worker w) →
      u.workers w = some ⟨purpose, .republishing id rid envelope rest⟩ → outcome = .error exc →
        exc.isPublishRefusal = true ∨ u.replyQueue = none ∨ u.Discharged (rid :: rest.map Prod.fst)) :
    u.Delivers (u.resume epoch id outcome taken) := by
  unfold Session.resume
  split
  · rename_i r howner
    obtain ⟨howner, hawaits⟩ := Option.filter_eq_some_iff.mp howner
    have hawaits := of_decide_eq_true hawaits
    have hworkers := workers_of_crew (leaves_publishEnded u r epoch outcome).crew
    refine delivers_of_workers (covered_publishEnded h outcome ?_) fun v worker hworker => .inl (by rwa [← hworkers])
    intro rid method call envelope result hrequest hok hopen
    obtain rfl : call = id := by
      rw [Session.awaits, hrequest] at hawaits
      exact Option.some.inj hawaits
    have hepoch := hpublished r result howner hawaits hok hopen
    rw [Session.linkAt, if_pos hepoch] at hlink
    cases hlink
    exact ⟨hepoch, fresh_of_outcome hended⟩
  · exact delivers_of_workers (covered_loopResumed h hs.staffed outcome taken) fun v worker hworker =>
      (workers_loopResumed hworker).imp_right .inl
  · rename_i w howner
    obtain ⟨howner, hawaits⟩ := Option.filter_eq_some_iff.mp howner
    have hawaits := of_decide_eq_true hawaits
    obtain ⟨⟨purpose, stage⟩, hworker, hat⟩ := Option.bind_eq_some_iff.mp hawaits
    refine delivers_of_settles (settles_workerResumed h hs horderly hpolicy hworker hat (epoch_of_fresh hlink hended) outcome
      (fun m => hresumed w m howner hawaits) fun exc rid envelope rest hstage hfailed => ?_)
      (proceeds_workerResumed u w epoch outcome ⟨_, id, hworker, hat⟩).others
    cases hstage
    exact hraised w purpose exc rid envelope rest howner hworker hfailed
  · exact delivers_of_workers h fun v worker hworker => .inl hworker

theorem Session.Delivers.after (h : u.Delivers s') (hworkers : ∀ v worker, u.workers v = some worker →
    s.workers v = some worker ∨ worker.stage = .created) : s.Delivers s' := by
  refine ⟨h.1, fun v hbefore hafter => h.2 v (Bool.eq_false_iff.mpr fun hreturned => ?_) hafter⟩
  obtain ⟨purpose, hworker⟩ := hasReturned_iff.mp hreturned
  rcases hworkers v _ hworker with hsame | hcreated
  · rw [hasReturned_iff.mpr ⟨purpose, hsame⟩] at hbefore
    cases hbefore
  · cases hcreated

theorem delivers_move (h : s.Covered) (horderly : s.Orderly) (hs : s.Ranked)
    (hpolicy : s.settings.policy.failOutstanding = false) (hkeeps : s.KeepsParked e) (hstep : s.step e = some s')
    (hmove : s.move e = some m) : s.Delivers s' := by
  obtain ⟨u, hu, hresume⟩ := resume_of_move hstep hmove
  have hcovered : (s.heardIn e).Covered := covered_heardIn h hs.staffed hstep
  have hranked : (s.heardIn e).Ranked := ranked_heardIn hs
  have hheard : Spares (Cause.Prompt .other s.settings) s (s.heardIn e) := spares_heardIn s e
  have hsettings := hheard.settings
  obtain ⟨hlink, hepoch⟩ := linkAt_heardIn hmove
  have hsame : u.Covered ∧ u.Orderly ∧ u.Ranked ∧ u.settings = s.settings ∧ u.epoch = s.epoch ∧
      u.linkAt m.epoch = some { m.link with client := m.after } ∧
      u.workers = (s.heardIn e).workers ∧ u.owners = s.owners := by
    have howners := (heardIn_same s e).1
    rcases hu with rfl | ⟨owner, rfl⟩
    · exact ⟨hcovered, orderly_heardIn horderly hstep, hranked, hsettings, hepoch, hlink, rfl, howners⟩
    · exact ⟨hcovered.of_same_workers (.of_post (.inl ⟨rfl, rfl⟩) rfl) rfl, orderly_heardIn horderly hstep,
        ⟨hranked.exclusive, hranked.placed, hranked.staffed.workers, hranked.staffed.loops, hranked.staffed.auto⟩, hsettings,
        hepoch, hlink, rfl, howners⟩
  obtain ⟨hcovered, horderly, hranked, hsettings, hepoch, hlink, hworkers, howners⟩ := hsame
  have hbefore (v : WorkerId) (worker : Worker) (hworker : u.workers v = some worker) :
      s.workers v = some worker ∨ worker.stage = .created := workers_heardIn (hworkers ▸ hworker)
  refine Session.Delivers.after ?_ hbefore
  rcases hresume with rfl | ⟨id, outcome, hcall, houtcome, rfl⟩
  · exact delivers_of_workers hcovered fun v worker hworker => .inl hworker
  · have hends : s.callEnds e = some (m.epoch, id, outcome) := by simp [Session.callEnds, hmove, hcall, houtcome]
    have hawaits {owner : Owner} (howner : u.owners id = some owner) (hat : u.awaits owner = some id) :
        s.awaits owner = some id :=
      (resumes_of_heard hu (Option.filter_eq_some_iff.mpr ⟨howner, decide_eq_true hat⟩)).2
    refine delivers_resume hcovered horderly hranked (hsettings ▸ hpolicy) _ hlink houtcome
      (fun r result howner hat hok hopen => ?_) (fun w left howner hat hleft => ?_)
      fun w purpose exc rid envelope rest howner hworker hfailed => ?_
    · subst hok
      rw [hepoch]
      refine hkeeps.published r m.epoch id result hends (howners ▸ howner) (hawaits howner hat) ?_
      rcases hu with rfl | ⟨owner, rfl⟩ <;> exact hopen
    · have hmay := hkeeps.resumed w m.epoch id outcome left hends (howners ▸ howner) (hawaits howner hat)
      rcases hu with rfl | ⟨owner, rfl⟩
      · exact hmay hleft
      · have hmay := hmay hleft
        exact ⟨hmay.raises, hmay.returns⟩
    · subst hfailed
      have hpresent : s.workers w = some ⟨purpose, .republishing id rid envelope rest⟩ :=
        (hbefore w _ hworker).resolve_right (by simp)
      have hraised := hkeeps.raised w purpose m.epoch id exc rid envelope rest hends (howners ▸ howner) hpresent
      rcases hu with rfl | ⟨owner, rfl⟩ <;> exact hraised

theorem others_setStage {v : WorkerId} (hv : v ≠ w) (stage : Stage) : (s.setStage w stage).workers v = s.workers v := by
  unfold Session.setStage
  split
  · exact if_neg hv
  · rfl

theorem others_reconnectFrom {v : WorkerId} (hv : v ≠ w) : (s.reconnectFrom w).workers v = s.workers v := by
  unfold Session.reconnectFrom
  split
  · exact (proceeds_reconnectLocked { s with lock := some w } w).others v hv
  · exact others_setStage (s := { s with lockLine := s.lockLine ++ [w] }) hv _

theorem others_runWorker {v : WorkerId} (hv : v ≠ w) (hrun : s.runWorker w = some s') : s'.workers v = s.workers v := by
  unfold Session.runWorker at hrun
  dsimp only at hrun
  split at hrun
  · cases hrun
    split
    · exact (proceeds_raised (s.setCancelled (.worker w) false) w _).others v hv
    · exact others_reconnectFrom hv
  · cases hrun
    split
    · exact (proceeds_raised (s.setCancelled (.worker w) false) w _).others v hv
    · unfold Session.nextAttempt
      split
      · exact (others_reconnectFrom hv).trans (if_neg hv)
      · exact (others_reconnectFrom hv).trans (if_neg hv)
      · rfl
  · split at hrun
    · cases hrun
      exact (proceeds_raised { s.setCancelled (.worker w) false with lockLine := s.lockLine.filter (· ≠ w) } w _).others v hv
    · obtain ⟨-, ⟨⟩⟩ := Option.ite_none_right_eq_some.mp hrun
      exact (proceeds_reconnectLocked { s with lock := some w, lockLine := s.lockLine.tail } w).others v hv
  · obtain ⟨-, ⟨⟩⟩ := Option.ite_none_right_eq_some.mp hrun
    exact (proceeds_stopReply { s with autoTask := none } w).others v hv
  · obtain ⟨-, ⟨⟩⟩ := Option.ite_none_right_eq_some.mp hrun
    exact (proceeds_replyStopped s w).others v hv
  · cases hrun

theorem delivers_called (h : s.Covered) (hs : s.Ranked) {purpose : Purpose} (hlocks : purpose.locks = true) :
    s.Delivers ((s.newWorker purpose).reconnectFrom s.nextWorker) := by
  have hself : (s.newWorker purpose).workers s.nextWorker = some ⟨purpose, .created⟩ := if_pos rfl
  have hcalled : (s.newWorker purpose).Covered := by
    refine h.of_retains (.of_post (.inl ⟨rfl, rfl⟩) rfl) (fun v worker hworker => ?_) fun v worker hworker _ => ?_
    · by_cases hv : v = s.nextWorker
      · subst hv
        cases hself.symm.trans hworker
        exact .inr (.inl ⟨hlocks, by simp [Stage.lockPhase]⟩)
      · exact .inl ((if_neg hv).symm.trans hworker)
    · exact (if_neg (Nat.ne_of_lt (hs.staffed.lt_nextWorker hworker))).trans hworker
  refine delivers_of_settles (w := s.nextWorker) ?_ fun v hv => (others_reconnectFrom hv).trans (if_neg hv)
  refine settles_reconnectFrom hcalled hself hlocks (by simp [Stage.lockPhase]) fun hfree v worker hv hworker => ?_
  refine unheld_of_ranked hs (fun other hlock => ?_) v worker hv ((if_neg hv).symm.trans hworker)
  cases hfree.symm.trans hlock

theorem delivers_runLoop {l : LoopId} (h : s.Covered) (hs : s.Staffed) (hrun : s.runLoop l = some s') : s.Delivers s' := by
  unfold Session.runLoop at hrun
  split at hrun
  · cases hrun
    split
    · have hcleared : (s.setCancelled (.loop l) false).Covered := h.of_same_workers (.of_post (.inl ⟨rfl, rfl⟩) rfl) rfl
      exact delivers_of_workers (covered_loopRaised hcleared ⟨hs.workers, hs.loops, hs.auto⟩ _) fun v worker hworker =>
        (workers_loopRaised (s := s.setCancelled (.loop l) false) hworker).imp_right .inl
    · exact delivers_of_workers (covered_receiveNext h hs) fun v worker hworker =>
        (workers_receiveNext hworker).imp_right .inl
  · cases hrun

/-- The step lemma: what the parked requests are owed stays covered, and a reconnect that returns owes nothing. -/
theorem delivers_step (h : s.Covered) (horderly : s.Orderly) (hregistered : s.Registered) (hs : s.Ranked)
    (hpolicy : s.settings.policy.failOutstanding = false) (hkeeps : s.KeepsParked e) (hstep : s.step e = some s') :
    s.Delivers s' := by
  have hsame (hs' : s'.Covered) (hworkers : s'.workers = s.workers) : s.Delivers s' :=
    delivers_of_workers hs' fun v worker hworker => .inl (by rwa [← hworkers])
  have hretains (hretained : Retains s s') (hworkers : s'.workers = s.workers) : s.Delivers s' :=
    hsame (h.of_same_workers hretained hworkers) hworkers
  cases e with
  | start => exact absurd rfl hkeeps.uncalled.1
  | reconnect =>
    cases hstep
    exact delivers_called h hs rfl
  | coordinate policy =>
    cases hstep
    exact delivers_called h hs rfl
  | close => exact absurd rfl hkeeps.uncalled.2
  | request args generated =>
    obtain ⟨-, ⟨⟩⟩ := Option.ite_none_left_eq_some.mp hstep
    exact hsame (covered_request h horderly hregistered args generated fun rid => hkeeps.fresh args generated rid rfl)
      (workers_of_crew (leaves_request s args generated).crew)
  | operate op =>
    cases hstep
    exact hretains (retains_call s none op) rfl
  | conn epoch e =>
    obtain ⟨m, hmove⟩ := move_of_step hstep
    exact delivers_move h horderly hs hpolicy hkeeps hstep hmove
  | interrupt epoch id =>
    obtain ⟨m, hmove⟩ := move_of_interrupt hstep
    exact delivers_move h horderly hs hpolicy hkeeps hstep hmove
  | runWorker w => exact delivers_of_settles (settles_runWorker h hs hstep) fun v hv => others_runWorker hv hstep
  | runLoop l => exact delivers_runLoop h hs.staffed hstep
  | wakeRequest r =>
    have hwake : s.wakeRequest r = some s' := hstep
    unfold Session.wakeRequest at hwake
    split at hwake
    · obtain ⟨outcome, -, rfl⟩ := Option.map_eq_some_iff.mp hwake
      exact hretains (retains_replied s r _ outcome) (workers_of_crew (leaves_replied s r _ outcome).crew)
    · cases hwake
  | expireRequest r =>
    have hexpire : s.expireRequest r = some s' := hstep
    unfold Session.expireRequest at hexpire
    split at hexpire
    · obtain ⟨-, ⟨⟩⟩ := Option.ite_none_left_eq_some.mp hexpire
      exact hretains (.of_post (.inl ⟨rfl, rfl⟩) rfl) rfl
    · cases hexpire
  | cancelRequest r =>
    have hcancel : s.cancelRequest r = some s' := hstep
    unfold Session.cancelRequest at hcancel
    split at hcancel
    · cases hcancel
      exact hretains (.of_post (.inl ⟨rfl, rfl⟩) rfl) rfl
    · cases hcancel
      exact hretains (.of_post (.inl ⟨rfl, rfl⟩) rfl) rfl
    · cases hcancel

end Steps

/-! ## Runs -/

section Runs

variable {s s' : Session} {e : SessionEvent} {rid : Text}

theorem stores_step (hs : s.Stores rid) (hnamed : s.Named rid) (htimely : s.Timely) (hkeeps : s.KeepsParked e)
    (h : s.step e = some s') : s'.Stores rid := by
  cases step_effect h with
  | spares h => exact stores_of_spares hs h
  | publishEnded r epoch outcome h _ heq =>
    rw [heq]
    exact stores_publishEnded (stores_of_spares hs h) (timely_of_spares htimely h fun _ hcause => ⟨_, hcause.2⟩) r epoch outcome
  | called args generated he _ heq =>
    rw [heq]
    obtain ⟨r, request, hrequest, hrid⟩ := hnamed
    exact stores_request hs htimely fun hchosen => hkeeps.fresh args generated rid he hchosen r request hrequest hrid
  | woken _ method r outcome _ _ hfuture heq =>
    rw [heq]
    exact stores_replied hs r _ (timer_of_timely htimely hfuture)
  | cancelled r request _ _ _ heq =>
    rw [heq]
    exact hs
  | expired r request _ _ _ _ heq =>
    rw [heq]
    exact hs

theorem named_step (hs : s.Registered) (hnamed : s.Named rid) (h : s.step e = some s') : s'.Named rid := by
  obtain ⟨r, request, hrequest, hrid⟩ := hnamed
  obtain ⟨request', hrequest', hsame⟩ := keepsIds_step hs h r request hrequest
  exact ⟨r, request', hrequest', hsame.trans hrid⟩

theorem guarded_step (hs : s.Guarded) (hkeeps : s.KeepsParked e) (h : s.step e = some s') : s'.Guarded where
  covered := (delivers_step hs.covered hs.orderly hs.registered hs.ranked hs.policy hkeeps h).1
  orderly := orderly_step hs.orderly h
  registered := registered_step hs.registered h
  ranked := ranked_step hs.ranked h
  timely := timely_step hs.timely h
  policy := settings_step h ▸ hs.policy

theorem covered_of_settled (h : s.Settled) : s.Covered := by
  have hunparked (rid : Text) : s.parked.contains rid ≠ true := by simp [Dict.contains, Dict.get?, h.parked, lookup]
  refine ⟨⟨fun r rid method call envelope hrequest => ?_, fun rid hparked => absurd hparked (hunparked rid)⟩,
    fun w worker hworker => .inr (h.ended w worker hworker), fun w worker hworker => ?_,
    fun _ rid howed => absurd howed.1 (hunparked rid)⟩
  · exact absurd hrequest (h.unasked r rid method call envelope)
  · obtain ⟨outcome, hended⟩ := h.ended w worker hworker
    rw [hended]
    trivial

theorem guarded_of_settled {settings : Settings} (hpolicy : settings.policy.failOutstanding = false)
    (h : Reaches Session.step (Session.new settings) s) (hs : s.Settled) : s.Guarded := by
  have hmade : s.Made settings :=
    h.invariant ⟨registered_new settings, rfl⟩ fun _ _ _ hinv _ hstep => made_step hinv hstep
  refine ⟨covered_of_settled hs, ?_, hmade.registered, ranked_reaches h, ?_, ?_⟩
  · exact h.invariant (orderly_new settings) fun _ _ _ hinv _ hstep => orderly_step hinv hstep
  · have hnew : (Session.new settings).Timely := fun _ r hdone => by cases hdone
    exact h.invariant hnew fun _ _ _ hinv _ hstep => timely_step hinv hstep
  · rw [hmade.settings]
    exact hpolicy

theorem tracks_step (hs : s.Tracks rid) (hkeeps : s.KeepsParked e) (h : s.step e = some s') : s'.Tracks rid :=
  ⟨guarded_step hs.guarded hkeeps h, named_step hs.guarded.registered hs.named h,
    stores_step hs.stores hs.named hs.guarded.timely hkeeps h⟩

/-- The run lemma: what is parked and pending stays so. -/
theorem tracks_run (hs : s.Guarded) (hparked : s.parked.contains rid = true)
    (h : ReachesWhere Session.step Session.KeepsParked s s') : s'.Tracks rid :=
  h.invariant ⟨hs, hs.covered.filed.known rid hparked, fun _ => hparked⟩ fun _ _ _ => tracks_step

end Runs

/-- In park mode a coordinator that returns has forgotten nothing that was parked when it began, in every run that
meets the condition since the session was settled. -/
theorem parked_recovered (settings : Settings) (hpolicy : settings.policy.failOutstanding = false) {base s s' : Session}
    {w : WorkerId} {es : List SessionEvent} (hbase : Reaches Session.step (Session.new settings) base)
    (hsettled : base.Settled) (h : ReachesWhere Session.step Session.KeepsParked base s)
    (hkeeps : Admits Session.step Session.KeepsParked s es) (hcoordinates : s.Coordinates w es s') : s.Recovers s' := by
  have hs : s.Guarded := h.invariant (guarded_of_settled hpolicy hbase hsettled) fun _ _ _ => guarded_step
  obtain ⟨before, e, t, rfl, hrun, hstep, hlive, hreturned⟩ := hcoordinates.returns
  obtain ⟨hbefore, hlast, -⟩ := (admits_append hrun).mp hkeeps
  have ht := reaches_of_run hrun hbefore
  have hguarded : t.Guarded := ht.invariant hs fun _ _ _ => guarded_step
  have hdelivers := delivers_step hguarded.covered hguarded.orderly hguarded.registered hguarded.ranked hguarded.policy
    hlast hstep
  intro rid hparked
  have htracks := tracks_run hs hparked (ht.snoc hlast hstep)
  cases hpending : s'.correlation.contains rid with
  | false => exact .inl rfl
  | true => exact .inr (hdelivers.2 w hlive hreturned rid ⟨htracks.stores hpending, hpending⟩)

/-! ## A coordinator that returns -/

section Checks

variable {s : Session} {e : SessionEvent}

def Session.keepsParked (s : Session) (e : SessionEvent) : Bool :=
  (match e with
    | .start | .close => false
    | .request .. => s.nextRequest = 0
    | _ => true) &&
  match s.callEnds e with
  | some (epoch, id, outcome) =>
    match s.owners id with
    | some (.request _) => epoch = s.epoch
    | some (.worker w) => outcome.isOk && ((s.heardIn e).remainder w outcome).all fun m =>
        (s.heardIn e).replyQueue.isSome && ((s.heardIn e).startRaises m).isNone
    | _ => true
  | none => true

theorem keepsParked_of_check (hs : s.Registered) (h : s.keepsParked e = true) : s.KeepsParked e := by
  unfold Session.keepsParked at h
  obtain ⟨hevent, hends⟩ := Bool.and_eq_true_iff.mp h
  constructor
  · constructor <;> (rintro rfl; cases hevent)
  · rintro args generated rid rfl - r request hrequest
    rw [(hs.fresh r ((of_decide_eq_true hevent).trans_le r.zero_le)).1] at hrequest
    cases hrequest
  · rintro r epoch id result hcall howner - -
    simp only [hcall, howner] at hends
    exact of_decide_eq_true hends
  · rintro w purpose epoch id exc rid envelope rest hcall howner -
    simp only [hcall, howner] at hends
    cases hends
  · rintro w epoch id outcome m hcall howner - hleft
    simp only [hcall, howner, hleft, Option.all_some] at hends
    obtain ⟨hqueue, hraises⟩ := Bool.and_eq_true_iff.mp (Bool.and_eq_true_iff.mp hends).2
    refine ⟨fun exc hraised => ?_, fun _ hnone => ?_⟩
    · rw [hraised] at hraises
      cases hraises
    · rw [hnone] at hqueue
      cases hqueue

theorem admits_of_keepsParked {es : List SessionEvent} (hs : s.Registered)
    (h : Admits Session.step (fun s e => s.keepsParked e = true) s es) : Admits Session.step Session.KeepsParked s es :=
  admits_of_invariant hs (fun _ _ _ => registered_step) (fun _ _ => keepsParked_of_check) h

def Session.rests (s : Session) : Bool :=
  (List.range s.nextWorker).all s.workerEnded && s.parked.entries = [] && s.nextRequest = 0

theorem settled_of_rests (hs : s.Staffed) (hregistered : s.Registered) (h : s.rests = true) : s.Settled := by
  obtain ⟨h, hrequests⟩ := Bool.and_eq_true_iff.mp h
  obtain ⟨hworkers, hparked⟩ := Bool.and_eq_true_iff.mp h
  refine ⟨fun w worker hworker => ?_, of_decide_eq_true hparked, fun r rid method call envelope hrequest => ?_⟩
  · by_contra hlive
    have hended := List.all_eq_true.mp hworkers w (List.mem_range.mpr (hs.lt_nextWorker hworker))
    rw [runs_of_live hworker (not_exists.mp hlive)] at hended
    cases hended
  · rw [(hregistered.fresh r ((of_decide_eq_true hrequests).trans_le r.zero_le)).1] at hrequest
    cases hrequest

end Checks

theorem coordinates_of_run {s t s' : Session} {before : List SessionEvent} {policy : ReconnectPolicy} {e : SessionEvent}
    (hrun : run Session.step s (.coordinate policy :: before) = some t) (hstep : t.step e = some s')
    (hlive : t.hasReturned s.nextWorker = false) (hreturned : s'.hasReturned s.nextWorker = true) :
    s.Coordinates s.nextWorker (.coordinate policy :: before ++ [e]) s' :=
  ⟨⟨_, rfl, .inl ⟨policy, rfl, rfl⟩⟩, _, e, t, rfl, hrun, hstep, hlive, hreturned⟩

/-- The request is published, and the loss of the connection is noticed. -/
def requestParked : List SessionEvent := requestPublished.drop sessionStarted.length ++ tornDown.take 2

/-- The coordinator publishes the request again, and the broker acknowledges it. -/
def acknowledged (policy : ReconnectPolicy) : List SessionEvent := .coordinate policy :: (tornDown.drop 3 ++ republished.dropLast)

/-- The request is pending and has been published on the connection that the coordinator has opened. -/
theorem acknowledged_recovered : ∃ base s t s', run Session.step (Session.new (settingsWith {})) sessionStarted = some base ∧
    run Session.step base requestParked = some s ∧ run Session.step s (acknowledged {}) = some t ∧
      t.step (.conn 1 (.task (.wake 11))) = some s' ∧ s.parked.contains (Text.ofString "r") = true ∧
        s'.correlation.contains (Text.ofString "r") = true ∧ s'.Republished (Text.ofString "r") := by
  have hrun : (run Session.step (Session.new (settingsWith {})) sessionStarted).any (fun base => base.rests = true ∧
      Admits Session.step (fun s e => s.keepsParked e = true) base requestParked ∧
        (run Session.step base requestParked).any (fun s => s.parked.contains (Text.ofString "r") = true ∧
          Admits Session.step (fun s e => s.keepsParked e = true) s (acknowledged {} ++ [.conn 1 (.task (.wake 11))]) ∧
            (run Session.step s (acknowledged {})).any (fun t => t.hasReturned s.nextWorker = false ∧
              (t.step (.conn 1 (.task (.wake 11)))).any (fun s' => s'.hasReturned s.nextWorker = true ∧
                s'.correlation.contains (Text.ofString "r") = true) = true) = true) = true) = true := by
    decide +kernel
  obtain ⟨base, hbase, hstate⟩ := (Option.any_eq_true _ _).mp hrun
  obtain ⟨hrests, hbefore, hany⟩ := of_decide_eq_true hstate
  obtain ⟨s, hs, hstate⟩ := (Option.any_eq_true _ _).mp hany
  obtain ⟨hparked, hkeeps, hany⟩ := of_decide_eq_true hstate
  obtain ⟨t, ht, hstate⟩ := (Option.any_eq_true _ _).mp hany
  obtain ⟨hlive, hany⟩ := of_decide_eq_true hstate
  obtain ⟨s', hstep, hstate⟩ := (Option.any_eq_true _ _).mp hany
  obtain ⟨hreturned, hpending⟩ := of_decide_eq_true hstate
  have hreaches := reaches_of_run hbase (admits_true _ _)
  have hregistered : base.Registered :=
    hreaches.invariant (registered_new _) fun _ _ _ hinv _ hstep => registered_step hinv hstep
  have hafter := reaches_of_run hs (admits_of_keepsParked hregistered hbefore)
  have hlater : s.Registered := hafter.invariant hregistered fun _ _ _ hinv _ hstep => registered_step hinv hstep
  have hrecovers := parked_recovered (settingsWith {}) rfl hreaches
    (settled_of_rests (staffed_reaches hreaches) hregistered hrests) hafter (admits_of_keepsParked hlater hkeeps)
    (coordinates_of_run ht hstep hlive hreturned)
  refine ⟨base, s, t, s', hbase, hs, ht, hstep, hparked, hpending, (hrecovers _ hparked).resolve_left ?_⟩
  rw [hpending]
  simp

/-- The coordinator opens the reply queue, `confirm.select` times out, and the next attempt finds the queue open. -/
def timedOut (policy : ReconnectPolicy) : List SessionEvent :=
  .coordinate policy ::
    (tornDown.drop 3 ++ republished.take 22 ++ [.conn 1 (.task (.deadline 11)), .conn 1 (.task (.wake 11))])

/-- The coordinator returns, and the request is pending that nobody has published again. -/
theorem timedOut_not_recovered : ¬∀ s w es s', Reaches Session.step (Session.new (settingsWith {})) s →
    s.Coordinates w es s' → s.Recovers s' := by
  intro hclaim
  have hrun : (run Session.step (Session.new (settingsWith {})) (sessionStarted ++ requestParked)).any (fun s =>
      s.parked.contains (Text.ofString "r") = true ∧ (run Session.step s (timedOut {})).any (fun t =>
        t.hasReturned s.nextWorker = false ∧ (t.step (.runWorker 2)).any (fun s' =>
          s'.hasReturned s.nextWorker = true ∧ s'.correlation.contains (Text.ofString "r") = true ∧
            s'.published.all fun entry => entry.1 ≠ s'.epoch) = true) = true) = true := by
    decide +kernel
  obtain ⟨s, hs, hstate⟩ := (Option.any_eq_true _ _).mp hrun
  obtain ⟨hparked, hany⟩ := of_decide_eq_true hstate
  obtain ⟨t, ht, hstate⟩ := (Option.any_eq_true _ _).mp hany
  obtain ⟨hlive, hany⟩ := of_decide_eq_true hstate
  obtain ⟨s', hstep, hstate⟩ := (Option.any_eq_true _ _).mp hany
  obtain ⟨hreturned, hpending, hunpublished⟩ := of_decide_eq_true hstate
  rcases hclaim s _ _ s' (reaches_of_run hs (admits_true _ _)) (coordinates_of_run ht hstep hlive hreturned) _ hparked with
    hdone | ⟨queue, args, -, hpublished, -⟩
  · rw [hpending] at hdone
    cases hdone
  · simpa using List.all_eq_true.mp hunpublished _ hpublished

end Nuropb.Sessions
