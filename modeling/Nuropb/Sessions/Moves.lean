import Nuropb.Sessions.Clearing

/-! # The steps of a connection

The session hears of the loss that a step brings first. The call that the step has resumed may then have ended,
and the task that awaits it goes on.
-/
namespace Nuropb.Sessions

open Library Transport

structure Move where
  epoch : Nat
  link : Link
  after : Client
  call : Option CallId

namespace Session

/-- The connection that takes a step, and the call whose coroutine runs in it. -/
def move (s : Session) : SessionEvent → Option Move
  | .conn epoch e =>
    (s.linkAt epoch).bind fun link => (link.client.step e).map fun after => { epoch, link, after, call := e.addressee }
  | .interrupt epoch id =>
    (s.linkAt epoch).bind fun link => (link.client.interrupt id).map fun after =>
      { epoch, link, after, call := some id }
  | _ => none

/-- The message that the step hands to the call that it resumes. -/
def handed (s : Session) : SessionEvent → Option IncomingMessage
  | .conn epoch e => (s.linkAt epoch).bind fun link => link.client.taken e
  | _ => none

/-- The call that ends in the step, on the connection of which epoch, and how. -/
def callEnds (s : Session) (e : SessionEvent) : Option (Nat × CallId × Except Exc (Option Text)) :=
  (s.move e).bind fun m => m.call.bind fun id => (m.after.outcome id).map fun outcome => (m.epoch, id, outcome)

/-- The loss of the current connection, if the step brings it to the session. -/
def loss (s : Session) (e : SessionEvent) : Option Exc :=
  (s.move e).bind fun m =>
    if m.epoch = s.epoch ∧ m.link.wired ∧ m.link.client.conn.lost.isNone then m.after.conn.lost else none

/-- The session in which the call of a task ends: the loss that the step brings has been heard. -/
def heardIn (s : Session) (e : SessionEvent) : Session :=
  match s.move e with
  | some m => (s.setLink m.epoch { m.link with client := m.after }).heard m.link.wired m.link.client m.after
  | none => s

/-- The task that goes on with the call. -/
def callActor (s : Session) (call : Option CallId) : Actor :=
  match call.bind fun id => (s.owners id).filter fun owner => s.awaits owner = some id with
  | some (.loop l) => .loop l
  | some (.worker _) => .worker
  | _ => .other

/-- The task that runs in the step. -/
def actor (s : Session) : SessionEvent → Actor
  | .close => .closer
  | .runLoop l => .loop l
  | e => s.callActor ((s.move e).bind Move.call)

/-- The publish of the request ends in the step. -/
def PublishEnds (s : Session) (e : SessionEvent) (r : RequestId) (epoch : Nat)
    (outcome : Except Exc (Option Text)) : Prop :=
  ∃ id, s.callEnds e = some (epoch, id, outcome) ∧ s.owners id = some (.request r)

end Session

/-- A loss leaves the connections, the calls, the requests and the reply loops as they are. -/
structure HearsOnly (s s' : Session) : Prop where
  link : s'.link = s.link
  previous : s'.previous = s.previous
  owners : s'.owners = s.owners
  requests : s'.requests = s.requests
  loops : s'.loops = s.loops
  nextCall : s'.nextCall = s.nextCall

section Hearing

variable {s s' : Session} {w : WorkerId} {worker : Worker} {wired : Bool} {c c' : Client}

theorem owners_setLink (s : Session) (epoch : Nat) (link : Link) : (s.setLink epoch link).owners = s.owners := by
  unfold Session.setLink
  split <;> rfl

theorem loops_setLink (s : Session) (epoch : Nat) (link : Link) : (s.setLink epoch link).loops = s.loops := by
  unfold Session.setLink
  split <;> rfl

theorem workers_setLink (s : Session) (epoch : Nat) (link : Link) : (s.setLink epoch link).workers = s.workers := by
  unfold Session.setLink
  split <;> rfl

theorem requests_setLink (s : Session) (epoch : Nat) (link : Link) :
    (s.setLink epoch link).correlation = s.correlation ∧ (s.setLink epoch link).requests = s.requests ∧
      (s.setLink epoch link).nextRequest = s.nextRequest := by
  unfold Session.setLink
  split <;> exact ⟨rfl, rfl, rfl⟩

theorem setCancelled_setLink (s : Session) (owner : Owner) (cancelled : Bool) (epoch : Nat) (link : Link) :
    (s.setCancelled owner cancelled).setLink epoch link = (s.setLink epoch link).setCancelled owner cancelled := by
  have hepoch : (s.setCancelled owner cancelled).epoch = s.epoch := rfl
  rw [Session.setLink, Session.setLink, hepoch]
  split <;> rfl

/-! ### Losses -/

theorem HearsOnly.refl (s : Session) : HearsOnly s s := ⟨rfl, rfl, rfl, rfl, rfl, rfl⟩

theorem hearsOnly_onConnectionLost (s : Session) (exc : Exc) : HearsOnly s (s.onConnectionLost exc) := by
  unfold Session.onConnectionLost
  split
  · exact .refl s
  · extract_lets t
    split
    · exact ⟨rfl, rfl, rfl, rfl, rfl, rfl⟩
    · split <;> exact ⟨rfl, rfl, rfl, rfl, rfl, rfl⟩

theorem hearsOnly_heard (s : Session) (wired : Bool) (c c' : Client) : HearsOnly s (s.heard wired c c') := by
  unfold Session.heard
  split
  · split
    · exact hearsOnly_onConnectionLost s _
    · exact .refl s
  · exact .refl s

/-- A loss that is heard creates a worker at most. -/
theorem workers_onConnectionLost {exc : Exc} (h : (s.onConnectionLost exc).workers w = some worker) :
    s.workers w = some worker ∨ worker.stage = .created := by
  unfold Session.onConnectionLost at h
  split at h
  · exact .inl h
  · extract_lets t at h
    split at h
    · exact .inl h
    · split at h
      · exact .inl h
      · have hcreated : (if w = s.nextWorker then some ⟨.auto 1, .created⟩ else s.workers w) = some worker := h
        split at hcreated
        · cases hcreated
          exact .inr rfl
        · exact .inl hcreated

theorem workers_heard (h : (s.heard wired c c').workers w = some worker) :
    s.workers w = some worker ∨ worker.stage = .created := by
  unfold Session.heard at h
  split at h
  · split at h
    · exact workers_onConnectionLost h
    · exact .inl h
  · exact .inl h

theorem linkAt_heard (s : Session) (epoch : Nat) (wired : Bool) (c c' : Client) :
    (s.heard wired c c').linkAt epoch = s.linkAt epoch := by
  have hheard := hearsOnly_heard s wired c c'
  rw [Session.linkAt, Session.linkAt, Session.epoch, Session.epoch, hheard.link, hheard.previous]

/-- The connections and the cancellations that are under way have no part in how a loss is heard. -/
theorem onConnectionLost_map (s : Session) (f : Link → Link) (g : List Link → List Link)
    (k : (Owner → Bool) → Owner → Bool) (exc : Exc) :
    Session.onConnectionLost { s with link := f s.link, previous := g s.previous, cancelled := k s.cancelled } exc =
      { s.onConnectionLost exc with
        link := f (s.onConnectionLost exc).link
        previous := g (s.onConnectionLost exc).previous
        cancelled := k (s.onConnectionLost exc).cancelled } := by
  unfold Session.onConnectionLost
  by_cases hhandled : s.lossHandled = true
  · rw [if_pos hhandled, if_pos hhandled]
  · rw [if_neg hhandled, if_neg hhandled]
    dsimp only
    by_cases hpolicy : s.settings.policy.failOutstanding = true
    · rw [if_pos hpolicy, if_pos hpolicy]
      rfl
    · rw [if_neg hpolicy, if_neg hpolicy]
      unfold Session.autoRunning Session.workerEnded
      split <;> rfl

theorem setLink_heard (s : Session) (epoch : Nat) (link : Link) (wired : Bool) (c c' : Client) :
    (s.setLink epoch link).heard wired c c' = (s.heard wired c c').setLink epoch link := by
  unfold Session.heard
  split
  · split
    · rename_i exc _ _ _
      have hepoch : (s.onConnectionLost exc).epoch = s.epoch := congrArg List.length (hearsOnly_onConnectionLost s exc).previous
      unfold Session.setLink
      rw [hepoch]
      split
      · exact onConnectionLost_map s (fun _ => link) id id _
      · exact onConnectionLost_map s id (fun previous => previous.set epoch link) id _
    · rfl
  · rfl

theorem setCancelled_heard (s : Session) (owner : Owner) (cancelled wired : Bool) (c c' : Client) :
    (s.setCancelled owner cancelled).heard wired c c' = (s.heard wired c c').setCancelled owner cancelled := by
  unfold Session.heard
  split
  · split
    · exact onConnectionLost_map s id id (fun before other => if other = owner then cancelled else before other) _
    · rfl
  · rfl

end Hearing

section Moves

variable {s s' u : Session} {e : SessionEvent} {m : Move} {w : WorkerId} {worker : Worker}

theorem step_of_move (h : s.step e = some s') (hmove : s.move e = some m) :
    ∃ t, (t = s ∨ ∃ owner, t = s.setCancelled owner false) ∧
      s' = t.moved m.epoch m.link m.after m.call (s.handed e) := by
  cases e with
  | conn epoch e =>
      change s.stepConn epoch e = some s' at h
      unfold Session.stepConn at h
      split at h
      · cases h
      · obtain ⟨link, hlink, h⟩ := Option.bind_eq_some_iff.mp h
        obtain ⟨after, hafter, rfl⟩ := Option.map_eq_some_iff.mp h
        simp only [Session.move, hlink, hafter, Option.bind_some, Option.map_some, Option.some.injEq] at hmove
        subst hmove
        exact ⟨s, .inl rfl, by rw [Session.handed, hlink, Option.bind_some]⟩
  | interrupt epoch id =>
      obtain ⟨owner, -, h⟩ := Option.bind_eq_some_iff.mp h
      obtain ⟨-, h⟩ := Option.ite_none_right_eq_some.mp h
      obtain ⟨link, hlink, h⟩ := Option.bind_eq_some_iff.mp h
      obtain ⟨after, hafter, rfl⟩ := Option.map_eq_some_iff.mp h
      simp only [Session.move, hlink, hafter, Option.bind_some, Option.map_some, Option.some.injEq] at hmove
      subst hmove
      exact ⟨_, .inr ⟨owner, rfl⟩, rfl⟩
  | _ => cases hmove

theorem move_of_step {epoch : Nat} {e : ClientEvent} (h : s.stepConn epoch e = some s') :
    ∃ m, s.move (.conn epoch e) = some m := by
  unfold Session.stepConn at h
  split at h
  · cases h
  · obtain ⟨link, hlink, h⟩ := Option.bind_eq_some_iff.mp h
    obtain ⟨after, hafter, -⟩ := Option.map_eq_some_iff.mp h
    exact ⟨_, by rw [Session.move, hlink, Option.bind_some, hafter, Option.map_some]⟩

theorem move_of_interrupt {epoch : Nat} {id : CallId} (h : s.interrupt epoch id = some s') :
    ∃ m, s.move (.interrupt epoch id) = some m := by
  obtain ⟨owner, -, h⟩ := Option.bind_eq_some_iff.mp h
  obtain ⟨-, h⟩ := Option.ite_none_right_eq_some.mp h
  obtain ⟨link, hlink, h⟩ := Option.bind_eq_some_iff.mp h
  obtain ⟨after, hafter, -⟩ := Option.map_eq_some_iff.mp h
  exact ⟨_, by rw [Session.move, hlink, Option.bind_some, hafter, Option.map_some]⟩

theorem linkAt_of_move (hmove : s.move e = some m) : s.linkAt m.epoch = some m.link := by
  cases e with
  | conn epoch e =>
    obtain ⟨link, hlink, h⟩ := Option.bind_eq_some_iff.mp hmove
    obtain ⟨after, -, rfl⟩ := Option.map_eq_some_iff.mp h
    exact hlink
  | interrupt epoch id =>
    obtain ⟨link, hlink, h⟩ := Option.bind_eq_some_iff.mp hmove
    obtain ⟨after, -, rfl⟩ := Option.map_eq_some_iff.mp h
    exact hlink
  | _ => cases hmove

theorem actor_of_move (hmove : s.move e = some m) : s.actor e = s.callActor m.call := by
  cases e with
  | conn epoch e =>
      change s.callActor ((s.move (.conn epoch e)).bind Move.call) = _
      rw [hmove, Option.bind_some]
  | interrupt epoch id =>
      change s.callActor ((s.move (.interrupt epoch id)).bind Move.call) = _
      rw [hmove, Option.bind_some]
  | _ => cases hmove

/-! ### What is heard -/

theorem heardIn_of_move (hmove : s.move e = some m) : s.heardIn e =
    (s.setLink m.epoch { m.link with client := m.after }).heard m.link.wired m.link.client m.after := by
  rw [Session.heardIn, hmove]

theorem hearsOnly_heardIn (s : Session) (hmove : s.move e = some m) :
    HearsOnly (s.setLink m.epoch { m.link with client := m.after }) (s.heardIn e) := by
  rw [heardIn_of_move hmove]
  exact hearsOnly_heard _ _ _ _

theorem heardIn_same (s : Session) (e : SessionEvent) :
    (s.heardIn e).owners = s.owners ∧ (s.heardIn e).requests = s.requests ∧ (s.heardIn e).loops = s.loops := by
  cases hmove : s.move e with
  | some m =>
    have hheard := hearsOnly_heardIn s hmove
    exact ⟨hheard.owners.trans (owners_setLink ..), hheard.requests.trans (requests_setLink ..).2.1,
      hheard.loops.trans (loops_setLink ..)⟩
  | none => exact ⟨by rw [Session.heardIn, hmove], by rw [Session.heardIn, hmove], by rw [Session.heardIn, hmove]⟩

theorem workers_heardIn (h : (s.heardIn e).workers w = some worker) :
    s.workers w = some worker ∨ worker.stage = .created := by
  unfold Session.heardIn at h
  split at h
  · rename_i m _
    rw [← workers_setLink s m.epoch { m.link with client := m.after }]
    exact workers_heard h
  · exact .inl h

theorem awaits_of_heardIn {owner : Owner} {id : CallId} (h : (s.heardIn e).awaits owner = some id) :
    s.awaits owner = some id := by
  obtain ⟨-, hrequests, hloops⟩ := heardIn_same s e
  cases owner with
  | request r =>
    rw [Session.awaits, hrequests] at h
    exact h
  | loop l =>
    rw [Session.awaits, hloops] at h
    exact h
  | worker w =>
    obtain ⟨worker, hworker, hat⟩ := Option.bind_eq_some_iff.mp h
    rcases workers_heardIn hworker with hbefore | hcreated
    · exact Option.bind_eq_some_iff.mpr ⟨worker, hbefore, hat⟩
    · rw [hcreated] at hat
      cases hat

/-- The rest of a step of a connection, once the session has heard of it. -/
theorem resume_of_move (hstep : s.step e = some s') (hmove : s.move e = some m) :
    ∃ u, (u = s.heardIn e ∨ ∃ owner, u = (s.heardIn e).setCancelled owner false) ∧
      (s' = u ∨ ∃ id outcome, m.call = some id ∧ m.after.outcome id = some outcome ∧
        s' = u.resume m.epoch id outcome (s.handed e)) := by
  obtain ⟨t, ht, rfl⟩ := step_of_move hstep hmove
  have hheard := heardIn_of_move hmove
  refine ⟨(t.setLink m.epoch { m.link with client := m.after }).heard m.link.wired m.link.client m.after, ?_, ?_⟩
  · rcases ht with rfl | ⟨owner, rfl⟩
    · exact .inl hheard.symm
    · refine .inr ⟨owner, ?_⟩
      rw [hheard, ← setCancelled_heard, setCancelled_setLink]
  · unfold Session.moved
    extract_lets u
    split
    · exact .inl rfl
    · rename_i id hcall
      split
      · rename_i outcome houtcome
        exact .inr ⟨id, outcome, hcall, houtcome, rfl⟩
      · exact .inl rfl

/-- The task that a step resumes awaited the call before. -/
theorem resumes_of_heard {id : CallId} {owner : Owner} (hu : u = s.heardIn e ∨ ∃ owner, u = (s.heardIn e).setCancelled owner false)
    (howner : (u.owners id).filter (fun owner => u.awaits owner = some id) = some owner) :
    s.owners id = some owner ∧ s.awaits owner = some id := by
  have hsame : (s.heardIn e).owners id = some owner ∧ (s.heardIn e).awaits owner = some id := by
    obtain ⟨hfound, hawaits⟩ := Option.filter_eq_some_iff.mp howner
    rcases hu with rfl | ⟨other, rfl⟩
    · exact ⟨hfound, of_decide_eq_true hawaits⟩
    · refine ⟨hfound, ?_⟩
      rw [← of_decide_eq_true hawaits]
      cases owner <;> rfl
  obtain ⟨hfound, hawaits⟩ := hsame
  rw [(heardIn_same s e).1] at hfound
  exact ⟨hfound, awaits_of_heardIn hawaits⟩

end Moves

end Nuropb.Sessions
