import Nuropb.Sessions.ParkMode

/-! # Steps that leave the workers alone

Requests and reply loops change no worker, and neither does a loss that creates no auto-reconnect task.
-/
namespace Nuropb.Sessions

open Library Transport

/-- A loss creates no auto-reconnect task. -/
def Session.Muted (s : Session) : Prop :=
  s.lossHandled = false → s.settings.policy.failOutstanding = false → s.autoRunning = true

/-- No worker changes, no loop is created, and the connection stays the one it is. -/
structure Still (s s' : Session) : Prop where
  workers : s'.workers = s.workers
  nextWorker : s'.nextWorker = s.nextWorker
  autoTask : s'.autoTask = s.autoTask
  replyTask : s'.replyTask = s.replyTask
  epoch : s'.epoch = s.epoch
  started : s.started = false → s'.started = false
  loops : ∀ l, s.loopEnded l = true → s'.loopEnded l = true
  cancelled : ∀ w, s.cancelled (.worker w) = true → s.awaits (.worker w) = none → s.workerEnded w = false →
    s'.cancelled (.worker w) = true
  closed : s.link.client.closed = true → s'.link.client.closed = true

section Quiet

variable {s s' s'' t : Session} {e : SessionEvent}

theorem Still.refl (s : Session) : Still s s := ⟨rfl, rfl, rfl, rfl, rfl, id, fun _ => id, fun _ h _ _ => h, id⟩

theorem Still.awaits (h : Still s s') (w : WorkerId) : s'.awaits (.worker w) = s.awaits (.worker w) := by
  rw [Session.awaits, Session.awaits, h.workers]

theorem Still.workerEnded (h : Still s s') (w : WorkerId) : s'.workerEnded w = s.workerEnded w := by
  rw [Session.workerEnded, Session.workerEnded, h.workers]

theorem Still.trans (h : Still s s') (h' : Still s' s'') : Still s s'' where
  workers := h'.workers.trans h.workers
  nextWorker := h'.nextWorker.trans h.nextWorker
  autoTask := h'.autoTask.trans h.autoTask
  replyTask := h'.replyTask.trans h.replyTask
  epoch := h'.epoch.trans h.epoch
  started hstarted := h'.started (h.started hstarted)
  loops l hl := h'.loops l (h.loops l hl)
  cancelled w hw hawaits hruns :=
    h'.cancelled w (h.cancelled w hw hawaits hruns) ((h.awaits w).trans hawaits) ((h.workerEnded w).trans hruns)
  closed hclosed := h'.closed (h.closed hclosed)

/-- A step of a request, which says nothing to the other tasks. -/
theorem Still.of_crew (hcrew : s'.crew = s.crew) (hcancelled : ∀ w, s'.cancelled (.worker w) = s.cancelled (.worker w))
    (hclosed : s.link.client.closed = true → s'.link.client.closed = true) : Still s s' where
  workers := congrArg Crew.workers hcrew
  nextWorker := congrArg Crew.nextWorker hcrew
  autoTask := congrArg Crew.autoTask hcrew
  replyTask := congrArg Crew.replyTask hcrew
  epoch := congrArg List.length (congrArg Crew.previous hcrew)
  started hstarted := (congrArg Crew.started hcrew).trans hstarted
  loops l hl := by
    rw [Session.loopEnded, show s'.loops = s.loops from congrArg Crew.loops hcrew]
    exact hl
  cancelled w hw _ _ := (hcancelled w).trans hw
  closed := hclosed

theorem Conducts.closed {allowed : Dealing → Prop} (h : Conducts allowed s s') (hallowed : ¬allowed .replace)
    (hclosed : s.link.client.closed = true) : s'.link.client.closed = true := by
  induction h with
  | same hclient _ _ _ _ => rwa [hclient]
  | call s op _ => exact (turns_call s.link.client op s.nextCall).1.closed hclosed
  | receive s l _ => exact (turns_call s.link.client _ s.nextCall).1.closed hclosed
  | reply s rid msg _ => exact hclosed
  | ack s l tag _ => exact (turns_call s.link.client _ s.nextCall).1.closed hclosed
  | replace s hreplace => exact absurd hreplace hallowed
  | trans _ _ ih ih' => exact ih' (ih hclosed)

theorem muted_of_same (h : s.Muted) (hhandled : s'.lossHandled = s.lossHandled) (hsettings : s'.settings = s.settings)
    (hauto : s'.autoTask = s.autoTask) (hworkers : s'.workers = s.workers) : s'.Muted := by
  unfold Session.Muted Session.autoRunning Session.workerEnded
  rw [hhandled, hsettings, hauto, hworkers]
  exact h

theorem muted_of_crew (hcrew : s'.crew = s.crew) (h : s.Muted) : s'.Muted :=
  muted_of_same h (congrArg Crew.lossHandled hcrew) (congrArg Crew.settings hcrew) (congrArg Crew.autoTask hcrew)
    (congrArg Crew.workers hcrew)

theorem muted_of_handled (h : s.lossHandled = true) : s.Muted := by
  intro hnot
  rw [h] at hnot
  cases hnot

theorem handled_onConnectionLost (s : Session) (exc : Exc) : (s.onConnectionLost exc).lossHandled = true := by
  unfold Session.onConnectionLost
  split
  · assumption
  · extract_lets t
    split
    · rfl
    · split <;> rfl

theorem muted_heard (h : s.Muted) (wired : Bool) (c c' : Client) : (s.heard wired c c').Muted := by
  unfold Session.heard
  split
  · split
    · exact muted_of_handled (handled_onConnectionLost s _)
    · exact h
  · exact h

theorem still_onConnectionLost (h : s.Muted) (exc : Exc) : Still s (s.onConnectionLost exc) := by
  unfold Session.onConnectionLost
  split
  · exact .refl s
  · rename_i hhandled
    have hmarked : Still s { s with lossHandled := true, started := false, replyQueue := none } :=
      ⟨rfl, rfl, rfl, rfl, rfl, fun _ => rfl, fun _ => id, fun _ hw _ _ => hw, id⟩
    extract_lets t
    split
    · exact hmarked.trans (.of_crew rfl (fun _ => rfl) id)
    · rename_i hpolicy
      rw [if_pos]
      · exact hmarked
      · exact h (by simpa using hhandled) (by simpa [t] using hpolicy)

/-- A loop that runs goes on or ends. -/
theorem still_setLoop {l : LoopId} {stage : LoopStage} (h : s.loopEnded l = false ∨ ∃ exc, stage = .ended exc) :
    Still s (s.setLoop l stage) := by
  refine ⟨rfl, rfl, rfl, rfl, rfl, id, fun other hother => ?_, fun _ hw _ _ => hw, id⟩
  by_cases heq : other = l
  · subst heq
    rcases h with hruns | ⟨exc, rfl⟩
    · rw [hother] at hruns
      cases hruns
    · have hended : (s.setLoop other (.ended exc)).loops other = some (.ended exc) := if_pos rfl
      rw [Session.loopEnded, hended]
  · have hsame : (s.setLoop l stage).loops other = s.loops other := if_neg heq
    rw [Session.loopEnded, hsame]
    exact hother

/-! ### The reply loop -/

theorem still_loopRaised {l : LoopId} {exc : Exc} (h : ∀ reason, exc = .connectionLost reason → s.Muted) :
    Still s (s.loopRaised l exc) := by
  unfold Session.loopRaised
  split
  · exact still_setLoop (.inr ⟨_, rfl⟩)
  · exact (still_onConnectionLost (h _ rfl) _).trans (still_setLoop (.inr ⟨_, rfl⟩))
  · have hfailed : Still s (s.failOutstanding (s.settings.text exc)) := .of_crew rfl (fun _ => rfl) id
    exact hfailed.trans (still_setLoop (.inr ⟨_, rfl⟩))

theorem still_call (s : Session) (owner : Option Owner) (op : Operation) : Still s (s.call owner op) :=
  .of_crew rfl (fun _ => rfl) (turns_call s.link.client op s.nextCall).1.closed

theorem still_onReply {l : LoopId} (hruns : s.loopEnded l = false) (msg : IncomingMessage)
    (h : ∀ reason, (s.onReply l msg).loops l = some (.ended (.connectionLost reason)) → s.Muted) :
    Still s (s.onReply l msg) := by
  unfold Session.onReply at h ⊢
  extract_lets t id t'
  extract_lets at h
  have ht : t.crew = s.crew ∧ t.cancelled = s.cancelled ∧ t.link = s.link := by
    dsimp only [t]
    split <;> exact ⟨rfl, rfl, rfl⟩
  have hcalled : Still s t' := by
    refine .trans (.of_crew ht.1 (fun w => congrFun ht.2.1 _) fun hclosed => ?_) (still_call t _ _)
    rwa [ht.2.2]
  have hcrew : t'.crew = s.crew := ht.1
  split at h
  · exact hcalled.trans (still_loopRaised fun reason hreason =>
      muted_of_crew hcrew (h reason (by rw [loops_loopRaised, hreason])))
  · refine hcalled.trans (still_setLoop (.inl ?_))
    rw [Session.loopEnded, show t'.loops = s.loops from congrArg Crew.loops hcrew]
    exact hruns

theorem still_receiveNext {l : LoopId} (hruns : s.loopEnded l = false)
    (h : ∀ reason, (s.receiveNext l).loops l = some (.ended (.connectionLost reason)) → s.Muted) :
    Still s (s.receiveNext l) := by
  unfold Session.receiveNext at h ⊢
  extract_lets id taken t
  extract_lets at h
  have hcalled : Still s t := still_call s _ _
  have hruns' : t.loopEnded l = false := hruns
  split at h
  · exact hcalled.trans (still_onReply hruns' _ h)
  · exact hcalled.trans (still_loopRaised fun reason hreason => h reason (by rw [loops_loopRaised, hreason]))
  · exact hcalled.trans (still_setLoop (.inl hruns'))

theorem still_loopResumed (l : LoopId) (outcome : Except Exc (Option Text)) (taken : Option IncomingMessage)
    (h : ∀ reason, (s.loopResumed l outcome taken).loops l = some (.ended (.connectionLost reason)) → s.Muted) :
    Still s (s.loopResumed l outcome taken) := by
  unfold Session.loopResumed at h ⊢
  split at h
  · rename_i hloop
    exact still_onReply (by rw [Session.loopEnded, hloop]) _ h
  · rename_i hloop
    exact still_receiveNext (by rw [Session.loopEnded, hloop]) h
  · exact still_loopRaised fun reason hreason => h reason (by rw [loops_loopRaised, hreason])
  · exact still_loopRaised fun reason hreason => h reason (by rw [loops_loopRaised, hreason])
  · exact .refl s

/-! ### Requests -/

theorem cancelled_endRequest (s : Session) (r : RequestId) (outcome : Except Exc IncomingMessage) :
    (s.endRequest r outcome).cancelled = s.cancelled := by
  unfold Session.endRequest
  split <;> rfl

theorem cancelled_replied (s : Session) (r : RequestId) (request : Request) (outcome : Except Exc IncomingMessage) :
    (s.replied r request outcome).cancelled = s.cancelled := by
  unfold Session.replied
  split
  · split <;> exact cancelled_endRequest s r _
  · extract_lets t
    have ht : t.cancelled = s.cancelled := by
      dsimp only [t]
      split <;> rfl
    exact (cancelled_endRequest _ r _).trans ht
  · exact cancelled_endRequest s r _

theorem cancelled_publishEnded (s : Session) (r : RequestId) (epoch : Nat) (outcome : Except Exc (Option Text)) :
    (s.publishEnded r epoch outcome).cancelled = s.cancelled := by
  unfold Session.publishEnded
  split
  · split
    · unfold Session.awaitReply
      dsimp only
      split
      · rfl
      · exact cancelled_replied _ r _ _
    · split <;> exact cancelled_endRequest _ r _
  · rfl

theorem cancelled_request (s : Session) (args : RequestArgs) (generated : Text) :
    (s.request args generated).cancelled = s.cancelled := by
  unfold Session.request
  split
  · rfl
  · dsimp only
    split
    · rfl
    · split
      · exact cancelled_publishEnded _ _ _ _
      · rfl

theorem still_of_leaves {r : RequestId} (h : Leaves r s s') (hcancelled : s'.cancelled = s.cancelled)
    (hconducts : Conducts (fun _ => False) s s') : Still s s' :=
  .of_crew h.crew (fun _ => congrFun hcancelled _) (hconducts.closed id)

theorem still_publishEnded (s : Session) (r : RequestId) (epoch : Nat) (outcome : Except Exc (Option Text)) :
    Still s (s.publishEnded r epoch outcome) :=
  still_of_leaves (leaves_publishEnded s r epoch outcome) (cancelled_publishEnded s r epoch outcome)
    (conducts_publishEnded s r epoch outcome)

theorem still_request (s : Session) (args : RequestArgs) (generated : Text) : Still s (s.request args generated) :=
  still_of_leaves (leaves_request s args generated) (cancelled_request s args generated) (conducts_request s args generated)

theorem still_replied (s : Session) (r : RequestId) (request : Request) (outcome : Except Exc IncomingMessage) :
    Still s (s.replied r request outcome) :=
  still_of_leaves (leaves_replied s r request outcome) (cancelled_replied s r request outcome)
    (conducts_replied s r request outcome)

/-! ### Connections -/

theorem closed_of_move {m : Move} (hstep : s.step e = some s') (hmove : s.move e = some m)
    (hclosed : m.link.client.closed = true) : m.after.closed = true :=
  move_induction hstep hmove hclosed fun _ _ _ hd hnext _ _ => (turns_step hnext).closed hd

theorem still_setLink (s : Session) {epoch : Nat} {link link' : Link} (hlink : s.linkAt epoch = some link)
    (hclosed : link.client.closed = true → link'.client.closed = true) : Still s (s.setLink epoch link') := by
  refine ⟨?_, ?_, ?_, ?_, epoch_setLink s epoch link', ?_, ?_, ?_, ?_⟩
  any_goals
    unfold Session.setLink
    split
  all_goals first | rfl | exact fun _ => id | exact id | exact fun _ hw _ _ => hw | skip
  rename_i heq
  rw [Session.linkAt, if_pos heq] at hlink
  cases hlink
  exact hclosed

theorem still_heard (s : Session) {wired : Bool} {c c' : Client}
    (h : wired = true → c.conn.lost = none → c'.conn.lost ≠ none → s.Muted) : Still s (s.heard wired c c') := by
  unfold Session.heard
  split
  · rename_i hbefore hlost
    split
    · rename_i hwired
      exact still_onConnectionLost (h hwired hbefore (by simp [hlost])) _
    · exact .refl s
  · exact .refl s

end Quiet

end Nuropb.Sessions
