import Nuropb.Sessions.Calls
import Nuropb.Transport.Signed

/-! # Calls that have not begun, and calls that only wait

Only a call that has begun goes on, and what begins no call leaves the ids fresh that were. A call that
has begun with a `receive`, or has written its ack, does nothing more to the connection.
-/
namespace Nuropb.Transport

open Library Protocol

section Steps

variable {c c' : Client} {id : CallId} {own : Option CallId}

theorem fresh_iff : c.fresh id = true ↔ c.tasks.calls id = none ∧ c.jobs id = none := by
  simp [Client.fresh]

theorem not_fresh_of_step {e : ClientEvent} (h : c.step e = some c') (hbegins : e.begins = false)
    (hsubject : e.subject = some id) : c.fresh id = false := by
  have hcall (hcall : c.tasks.calls id ≠ none) : c.fresh id = false := by
    rw [← Bool.not_eq_true, fresh_iff]
    exact fun hfresh => hcall hfresh.1
  have hjob (hjob : c.jobs id ≠ none) : c.fresh id = false := by
    rw [← Bool.not_eq_true, fresh_iff]
    exact fun hfresh => hjob hfresh.2
  cases e with
  | task e =>
      obtain ⟨-, h⟩ := Option.ite_none_right_eq_some.mp h
      obtain ⟨tasks, htasks, rfl⟩ := Option.map_eq_some_iff.mp h
      cases e with
      | request | publish => cases hbegins
      | drained =>
          cases hsubject
          exact hcall (calls_drained htasks).1
      | wake =>
          cases hsubject
          exact hcall (calls_wake htasks).1
      | deadline =>
          cases hsubject
          exact hcall (calls_deadline htasks).1
      | cancel =>
          cases hsubject
          exact hcall (calls_cancel htasks).1
      | frame | closeDrained | eof | lose => cases hsubject
  | connect | openChannel | settle | receive | receiveReturn | close | forceDrop => cases hbegins
  | resumed =>
      cases hsubject
      exact hjob (turns_resumed h).1
  | wakeJob =>
      cases hsubject
      exact hjob (turns_wakeJob h).1
  | expire =>
      cases hsubject
      exact hjob (turns_expire h).1
  | cancelJob =>
      cases hsubject
      exact hjob (turns_cancelJob h).1
  | heartbeat | readerStops => cases hsubject

theorem fresh_of_turns (h : Turns own c c') (hid : own ≠ some id) : c'.fresh id = c.fresh id := by
  rw [Client.fresh, h.calls id hid, h.jobs id hid]
  rfl

theorem fresh_step {e : ClientEvent} (h : c.step e = some c') (hbegins : e.begins = false) (hfresh : c.fresh id = true) :
    c'.fresh id = true := by
  rw [fresh_of_turns (turns_step h), hfresh]
  intro hsubject
  rw [not_fresh_of_step h hbegins hsubject] at hfresh
  cases hfresh

end Steps

/-! ## Waiting calls -/

def Job.rests : Job → Bool
  | .receiving _ | .settling | .ended _ => true
  | _ => false

/-- The call is a `receive`, or has written what it settles. -/
structure Client.Rests (c : Client) (id : CallId) : Prop where
  calls : c.tasks.calls id = none
  jobs : ∀ job, c.jobs id = some job → job.rests = true

section Resting

variable {c c' : Client} {id other : CallId}

theorem rests_of_fresh (h : c.fresh id = true) : c.Rests id := by
  obtain ⟨hcalls, hjobs⟩ := fresh_iff.mp h
  exact ⟨hcalls, fun job hjob => by rw [hjobs] at hjob; cases hjob⟩

theorem rests_of_turns {own : Option CallId} (h : Turns own c c') (hother : own ≠ some id) (hrests : c.Rests id) :
    c'.Rests id where
  calls := by rw [h.calls id hother, hrests.calls]
  jobs := by
    rw [h.jobs id hother]
    exact hrests.jobs

theorem rests_setJob (hcalls : c.tasks.calls id = none) {job : Job} (hjob : job.rests = true) :
    (c.setJob id job).Rests id where
  calls := hcalls
  jobs found hfound := by
    rw [setJob_jobs] at hfound
    cases hfound
    exact hjob

theorem rests_looked (hcalls : c.tasks.calls id = none) (timeout : Bool)
    (look : Option (Option IncomingMessage) × AsyncQueue CallId (Option IncomingMessage)) :
    (c.looked id timeout look).Rests id := by
  obtain ⟨item, deliveries⟩ := look
  cases item
  · exact rests_setJob (c := { c with deliveries }) hcalls rfl
  · exact rests_setJob (c := { c with deliveries }) hcalls rfl

theorem rests_leave (hcalls : c.tasks.calls id = none) (timeout : Bool) (e : Exc) :
    (c.leave id (.receiving timeout) e).Rests id :=
  rests_setJob (c := { c with deliveries := c.deliveries.cancel id }) hcalls rfl

/-- A call that waits does nothing to the connection, and goes on as it was. -/
theorem rests_subject {e : ClientEvent} (h : c.step e = some c') (hbegins : e.begins = false) (hrests : c.Rests id)
    (hsubject : e.subject = some id) : c'.Rests id ∧ c'.conn = c.conn := by
  have hjob (job : Job) (hjob : c.jobs id = some job) : job.rests = true := hrests.jobs job hjob
  cases e with
  | task e =>
      obtain ⟨-, h⟩ := Option.ite_none_right_eq_some.mp h
      obtain ⟨tasks, htasks, rfl⟩ := Option.map_eq_some_iff.mp h
      cases e with
      | request | publish => cases hbegins
      | drained =>
          cases hsubject
          exact absurd hrests.calls (calls_drained htasks).1
      | wake =>
          cases hsubject
          exact absurd hrests.calls (calls_wake htasks).1
      | deadline =>
          cases hsubject
          exact absurd hrests.calls (calls_deadline htasks).1
      | cancel =>
          cases hsubject
          exact absurd hrests.calls (calls_cancel htasks).1
      | frame | closeDrained | eof | lose => cases hsubject
  | connect | openChannel | settle | receive | receiveReturn | close | forceDrop => cases hbegins
  | resumed _ failure =>
      cases hsubject
      have hresumed : c.resumed id failure = some c' := h
      cases hfound : c.jobs id with
      | none => simp [Client.resumed, hfound] at hresumed
      | some job =>
          cases job with
          | settling =>
              cases failure with
              | none =>
                  simp only [Client.resumed, hfound, Option.some.injEq] at hresumed
                  subst hresumed
                  exact ⟨rests_setJob hrests.calls rfl, rfl⟩
              | some e =>
                  simp only [Client.resumed, hfound, Option.some.injEq] at hresumed
                  subst hresumed
                  exact ⟨rests_setJob hrests.calls rfl, rfl⟩
          | receiving | ended => simp [Client.resumed, hfound] at hresumed
          | _ => cases hjob _ hfound
  | wakeJob =>
      cases hsubject
      have hwake : c.wakeJob id = some c' := h
      cases hfound : c.jobs id with
      | none => simp [Client.wakeJob, hfound] at hwake
      | some job =>
          cases job with
          | receiving timeout =>
              simp only [Client.wakeJob, hfound] at hwake
              obtain ⟨-, ⟨⟩⟩ := Option.ite_none_right_eq_some.mp hwake
              exact ⟨rests_looked hrests.calls timeout _, looked_conn ..⟩
          | settling | ended => simp [Client.wakeJob, hfound, Job.key] at hwake
          | _ => cases hjob _ hfound
  | expire =>
      cases hsubject
      have hexpire : c.expire id = some c' := h
      cases hfound : c.jobs id with
      | none => simp [Client.expire, hfound] at hexpire
      | some job =>
          cases job with
          | receiving timeout =>
              simp only [Client.expire, hfound] at hexpire
              obtain ⟨-, ⟨⟩⟩ := Option.ite_none_right_eq_some.mp hexpire
              exact ⟨rests_leave hrests.calls timeout _, leave_conn ..⟩
          | settling | ended => simp [Client.expire, hfound, Job.key] at hexpire
          | _ => cases hjob _ hfound
  | cancelJob =>
      cases hsubject
      have hcancel : c.cancelJob id = some c' := h
      cases hfound : c.jobs id with
      | none => simp [Client.cancelJob, hfound] at hcancel
      | some job =>
          cases job with
          | receiving timeout =>
              simp only [Client.cancelJob, hfound, Option.some.injEq] at hcancel
              subst hcancel
              exact ⟨rests_leave hrests.calls timeout _, leave_conn ..⟩
          | settling | ended => simp [Client.cancelJob, hfound, Job.key] at hcancel
          | _ => cases hjob _ hfound
  | heartbeat | readerStops => cases hsubject

theorem rests_step {e : ClientEvent} (h : c.step e = some c') (hbegins : e.begins = false) (hrests : c.Rests id) :
    c'.Rests id := by
  by_cases hsubject : e.subject = some id
  · exact (rests_subject h hbegins hrests hsubject).1
  · exact rests_of_turns (turns_step h) hsubject hrests

end Resting

end Nuropb.Transport
