import Nuropb.Sessions.ReplySteps

/-! # How a reply loop ends

A reply loop ends with what the call that it awaits raises, with its cancellation before it has run, with the
loss that it finds, or with an ack that cannot be written.
-/
namespace Nuropb.Sessions

open Library Transport

/-- The call that the reply loop awaits raises in the step. -/
def Session.LoopRaises (s : Session) (e : SessionEvent) (l : LoopId) (exc : Exc) : Prop :=
  ∃ epoch id, s.callEnds e = some (epoch, id, .error exc) ∧ s.owners id = some (.loop l) ∧
    s.awaits (.loop l) = some id

section Loops

variable {s s' u : Session} {e : SessionEvent} {l : LoopId} {exc : Exc} {msg : IncomingMessage} {c : Client} {id : CallId}

theorem loops_loopRaised (s : Session) (l : LoopId) (exc : Exc) : (s.loopRaised l exc).loops l = some (.ended exc) := by
  unfold Session.loopRaised
  split <;> exact if_pos rfl

theorem receive_raises (hfresh : c.fresh id = true) (hlost : ∀ exc, c.conn.lost = some exc → ∃ reason, exc = .connectionLost reason)
    (h : ((c.step (.receive id false)).getD c).outcome id = some (.error exc)) : ∃ reason, exc = .connectionLost reason := by
  have hstep : c.step (.receive id false) = some (c.receive id false) := if_pos hfresh
  have hcalls := (fresh_iff.mp hfresh).1
  rw [hstep, Option.getD_some, Client.receive] at h
  split at h
  · rename_i found hfound
    have hraised : (c.setJob id (.ended (.error found))).outcome id = some (.error found) := by
      simp [Client.outcome, Client.setJob, hcalls, Except.map]
    rw [hraised] at h
    cases h
    exact hlost exc hfound
  · rename_i hnone
    generalize c.deliveries.get id = look at h
    obtain ⟨item, deliveries⟩ := look
    cases item with
    | none => simp [Client.looked, Client.outcome, Client.setJob, hcalls] at h
    | some item =>
      cases item with
      | none =>
        simp only [Client.looked, Client.outcome, Client.setJob, hcalls, Client.received, if_pos, Except.map,
          Option.some.injEq, Except.error.injEq] at h
        exact ⟨_, by rw [← h]; exact congrArg (Option.getD · _) hnone⟩
      | some msg => simp [Client.looked, Client.outcome, Client.setJob, hcalls, Client.received, Except.map] at h

theorem onReply_goesOn (hs : s.Orderly) (hlive : s.Live) (hfits : TagFits msg) :
    (s.onReply l msg).loops l ≠ some (.ended exc) := by
  obtain ⟨t, -, -, heq⟩ := onReply_acking hs hlive hfits l
  have hloop : (t.setLoop l (.acking (s.answered msg).nextCall)).loops l = some (.acking _) := if_pos rfl
  rw [heq, hloop]
  simp

theorem receiveNext_ended (hs : s.Orderly) (hlive : ∀ msg, s.link.client.taken (.receive s.nextCall false) = some msg → s.Live)
    (hended : (s.receiveNext l).loops l = some (.ended exc)) : ∃ reason, exc = .connectionLost reason := by
  have hcurrent := hs _ List.mem_cons_self
  have hwaits := waits_receive s l
  unfold Session.receiveNext at hended
  extract_lets id taken t at hended
  split at hended
  · rename_i msg htaken
    exact absurd hended (onReply_goesOn (hwaits.conducts.orderly hs) (live_of_conn hwaits.conn (hlive msg htaken))
      (taken_fits hcurrent.tagged htaken))
  · rename_i found hraised
    rw [loops_loopRaised] at hended
    cases hended
    exact receive_raises (hcurrent.fresh _ le_rfl) hcurrent.lost hraised
  · have hloop : (t.setLoop l (.receiving id)).loops l = some (.receiving id) := if_pos rfl
    rw [hloop] at hended
    cases hended

/-- A loop that awaits the call ends with what the call raises, or with a loss, if it takes a reply only while the
session is live. -/
theorem loopResumed_ended (hs : s.Orderly) (hawaits : s.awaits (.loop l) = some id) {outcome : Except Exc (Option Text)}
    {taken : Option IncomingMessage} (hfits : ∀ msg, taken = some msg → TagFits msg)
    (hlive : ∀ msg, s.takes l outcome taken = some msg → s.Live)
    (hended : (s.loopResumed l outcome taken).loops l = some (.ended exc)) :
    outcome = .error exc ∨ ∃ reason, exc = .connectionLost reason := by
  obtain ⟨stage, hstage, hat⟩ := Option.bind_eq_some_iff.mp hawaits
  unfold Session.loopResumed at hended
  unfold Session.takes at hlive
  rw [hstage] at hended hlive
  cases stage with
  | created => cases hat
  | receiving call =>
    cases outcome with
    | error raised =>
      change (s.loopRaised l raised).loops l = _ at hended
      rw [loops_loopRaised] at hended
      cases hended
      exact .inl rfl
    | ok result =>
      cases taken with
      | none =>
        rw [hstage] at hended
        cases hended
      | some msg => exact absurd hended (onReply_goesOn hs (hlive msg rfl) (hfits msg rfl))
  | acking call =>
    cases outcome with
    | error raised =>
      change (s.loopRaised l raised).loops l = _ at hended
      rw [loops_loopRaised] at hended
      cases hended
      exact .inl rfl
    | ok result => exact .inr (receiveNext_ended hs hlive hended)
  | ended raised => cases hat

/-- How a reply loop ends that takes a reply only while the session is live. -/
theorem loop_ended (hs : s.Orderly) (hstep : s.step e = some s') (hactor : s.actor e = .loop l)
    (hlive : ∀ msg, s.reply e = some msg → s.Live) (hended : s'.loops l = some (.ended exc)) :
    s.LoopRaises e l exc ∨ (e = .runLoop l ∧ s.cancelled (.loop l) = true ∧ exc = .cancelledError) ∨
      ∃ reason, exc = .connectionLost reason := by
  have hmoved {m : Move} (hmove : s.move e = some m) : s.LoopRaises e l exc ∨ ∃ reason, exc = .connectionLost reason := by
    obtain ⟨id, hcall, howner, hawaits⟩ : ∃ id, m.call = some id ∧ s.owners id = some (.loop l) ∧
        s.awaits (.loop l) = some id := by
      rw [actor_of_move hmove, Session.callActor] at hactor
      split at hactor
      · rename_i found hfound
        cases hactor
        obtain ⟨id, hcall, hfilter⟩ := Option.bind_eq_some_iff.mp hfound
        obtain ⟨howner, hawaits⟩ := Option.filter_eq_some_iff.mp hfilter
        exact ⟨id, hcall, howner, of_decide_eq_true hawaits⟩
      · cases hactor
      · cases hactor
    have hconn := conn_of_move hs hstep hmove hcall howner
    have hset := hearsOnly_heardIn s hmove
    obtain ⟨u, hu, hresume⟩ := resume_of_move hstep hmove
    have hheard : u.Orderly ∧ u.link = (s.heardIn e).link ∧ u.owners = s.owners ∧ u.loops = s.loops ∧
        u.nextCall = (s.heardIn e).nextCall := by
      obtain ⟨howners, -, hloops⟩ := heardIn_same s e
      rcases hu with rfl | ⟨owner, rfl⟩
      · exact ⟨orderly_heardIn hs hstep, rfl, howners, hloops, rfl⟩
      · exact ⟨orderly_heardIn hs hstep, rfl, howners, hloops, rfl⟩
    obtain ⟨horderly, hlink, howners, hloops, hnext⟩ := hheard
    have hawaited : u.awaits (.loop l) = some id := by
      rw [← hawaits, Session.awaits, Session.awaits, hloops]
    rcases hresume with rfl | ⟨other, outcome, hother, houtcome, rfl⟩
    · obtain ⟨stage, hstage, hat⟩ := Option.bind_eq_some_iff.mp hawaited
      rw [hended] at hstage
      cases hstage
      cases hat
    · rw [hcall] at hother
      cases hother
      have hreply : s.reply e = u.takes l outcome (s.handed e) := by
        rw [reply_of_move hstep hmove (.inl rfl), Session.movedReply, hcall, Option.bind_some, houtcome, Option.bind_some,
          howner, Option.filter_some, if_pos (decide_eq_true hawaits)]
        unfold Session.takes
        rw [hloops, hlink, hnext, hset.link, hset.nextCall, loops_setLink]
      have hresumes : u.resume m.epoch id outcome (s.handed e) = u.loopResumed l outcome (s.handed e) := by
        rw [Session.resume, howners, howner, Option.filter_some, if_pos (decide_eq_true hawaited)]
      have hsame : u.link.client.conn = s.link.client.conn := by
        rw [hlink, hset.link]
        exact conn_setLink (linkAt_of_move hmove) hconn
      rw [hresumes] at hended
      refine (loopResumed_ended horderly hawaited (fun _ => handed_fits hs)
        (fun msg htakes => live_of_conn hsame (hlive msg (hreply.trans htakes))) hended).imp_left ?_
      rintro rfl
      exact ⟨m.epoch, id, by simp [Session.callEnds, hmove, hcall, houtcome], howner, hawaits⟩
  cases e with
  | conn epoch e =>
    obtain ⟨m, hmove⟩ := move_of_step hstep
    exact (hmoved hmove).imp_right .inr
  | interrupt epoch id =>
    obtain ⟨m, hmove⟩ := move_of_interrupt hstep
    exact (hmoved hmove).imp_right .inr
  | runLoop other =>
    cases hactor
    have hrun : s.runLoop l = some s' := hstep
    unfold Session.runLoop at hrun
    split at hrun
    · rename_i hloop
      cases hrun
      split at hended
      · rename_i hcancelled
        rw [loops_loopRaised] at hended
        cases hended
        exact .inr (.inl ⟨rfl, hcancelled, rfl⟩)
      · rename_i hcancelled
        refine .inr (.inr (receiveNext_ended hs (fun msg htaken => hlive msg ?_) hended))
        simp only [Session.reply, hloop, if_neg hcancelled]
        exact htaken
    · cases hrun
  | _ => cases hactor

end Loops

end Nuropb.Sessions
