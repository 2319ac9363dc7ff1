import Nuropb.Sessions.ParkMode

/-! # What is pending stays parked

Only the timer of the client ends a wait for a reply without an answer, so a publish is forgotten only with its request.
-/
namespace Nuropb.Sessions

open Library Patterns Transport Protocol

namespace Session

/-- A future times out only by the timer of the client. -/
def Timely (s : Session) : Prop :=
  s.settings.brokerTimeout = true → ∀ r, s.correlation.futures r ≠ some (.error .timeoutError)

/-- While a request is pending under the id, its publish is parked. -/
def Stores (s : Session) (rid : Text) : Prop := s.correlation.contains rid = true → s.parked.contains rid = true

end Session

section Parked

variable {s s' : Session} {e : SessionEvent} {r : RequestId} {rid other : Text} {request : Request} {exc : Exc}
  {allowed : Cause → Prop}

theorem outcome_ne_timeoutError {settings : Settings} {cause : Cause} {actor : Actor} (hof : cause.Of actor) :
    cause.outcome settings ≠ .error .timeoutError := by
  cases cause with
  | gaveUp => exact hof.elim
  | _ => simp [Cause.outcome, refusalError, connectionLostError]

theorem timely_of_futures (hs : s.Timely) (hsettings : s'.settings = s.settings)
    (hfutures : ∀ r, s.settings.brokerTimeout = true → s'.correlation.futures r = some (.error .timeoutError) →
      s.correlation.futures r = some (.error .timeoutError)) : s'.Timely := by
  intro hbroker r hdone
  rw [hsettings] at hbroker
  exact hs hbroker r (hfutures r hbroker hdone)

theorem timely_of_spares (hs : s.Timely) (h : Spares allowed s s')
    (hof : ∀ cause, allowed cause → ∃ actor, cause.Of actor) : s'.Timely := by
  refine timely_of_futures hs h.settings fun r hbroker hdone => ?_
  cases hbefore : s.correlation.futures r with
  | none =>
    obtain ⟨cause, hallowed, heq⟩ := h.ledger.cause_of_done hbefore hdone
    obtain ⟨actor, hactor⟩ := hof cause hallowed
    exact absurd heq (outcome_ne_timeoutError hactor)
  | some earlier =>
    have hkept := h.ledger.futures hbefore
    exact hkept.symm.trans hdone

theorem timely_failPublish (hs : s.Timely) (hexc : s.settings.brokerTimeout = true → exc ≠ .timeoutError) :
    (s.failPublish rid exc).Timely := by
  refine timely_of_futures hs rfl fun r hbroker hdone => ?_
  rcases settle_eq_some_iff.mp hdone with hbefore | ⟨-, -, heq⟩
  · exact hbefore
  · exact absurd (Except.error.inj heq) (hexc hbroker)

theorem timely_endRequest (hs : s.Timely) (r : RequestId) (outcome : Except Exc IncomingMessage) :
    (s.endRequest r outcome).Timely := by
  unfold Session.endRequest
  split <;> exact hs

theorem timely_replied (hs : s.Timely) (r : RequestId) (request : Request) (outcome : Except Exc IncomingMessage) :
    (s.replied r request outcome).Timely := by
  unfold Session.replied
  split
  · split <;> exact timely_endRequest hs r _
  · extract_lets t
    have ht : t.Timely := by
      dsimp only [t]
      split
      · exact hs
      · rename_i hclient
        exact timely_failPublish hs fun hbroker => absurd hbroker hclient
    exact timely_endRequest (s := t.forgetPublish request.rid) ht r _
  · exact timely_endRequest hs r _

theorem timely_publishEnded (hs : s.Timely) (r : RequestId) (epoch : Nat) (outcome : Except Exc (Option Text)) :
    (s.publishEnded r epoch outcome).Timely := by
  unfold Session.publishEnded
  split
  · split
    · unfold Session.awaitReply
      dsimp only
      split
      · exact hs
      · exact timely_replied (s := { s.recordPublish epoch _ with parked := _ }) hs r _ _
    · split
      · rename_i hrefusal
        refine timely_endRequest (timely_failPublish hs fun _ => ?_) r _
        rintro rfl
        cases hrefusal
      · exact timely_endRequest hs r _
  · exact hs

theorem timely_request (hs : s.Timely) (args : RequestArgs) (generated : Text) : (s.request args generated).Timely := by
  unfold Session.request
  split
  · exact hs
  · extract_lets r t id
    split
    · exact hs
    · extract_lets u
      have hu : u.Timely := hs
      split
      · exact timely_publishEnded hu r _ _
      · exact hu

theorem timely_step (hs : s.Timely) (h : s.step e = some s') : s'.Timely := by
  cases step_effect h with
  | spares h => exact timely_of_spares hs h fun _ hcause => ⟨_, hcause.2⟩
  | publishEnded r epoch outcome h _ heq =>
    rw [heq]
    exact timely_publishEnded (timely_of_spares hs h fun _ hcause => ⟨_, hcause.2⟩) r epoch outcome
  | called args generated _ _ heq =>
    rw [heq]
    exact timely_request hs args generated
  | woken rid method r outcome _ _ _ heq =>
    rw [heq]
    exact timely_replied hs r _ outcome
  | cancelled r request _ _ _ heq =>
    rw [heq]
    refine timely_of_futures hs rfl fun other _ hdone => ?_
    change (if other = r then some (.error .cancelledError) else s.correlation.futures other) = _ at hdone
    split at hdone
    · cases hdone
    · exact hdone
  | expired r request _ _ _ htimer heq =>
    rw [heq]
    intro hbroker
    have hbroker : s.settings.brokerTimeout = true := hbroker
    rw [htimer] at hbroker
    cases hbroker

/-! ### Parked publishes -/

/-- An entry that stays has its publish. -/
theorem Clears.stores {settings : Settings} {a b : Ledger} (h : Clears settings allowed a b)
    (hs : a.correlation.contains rid = true → a.parked.contains rid = true) (hrid : b.correlation.contains rid = true) :
    b.parked.contains rid = true := by
  induction h with
  | refl => exact hs hrid
  | discard _ _ _ _ => cases hrid
  | complete other _ _ ih =>
    obtain ⟨hne, hbefore⟩ := Dict.contains_of_erase hrid
    exact Dict.contains_erase_of_ne hne (ih hbefore)
  | forget other _ hother ih =>
    refine Dict.contains_erase_of_ne ?_ (ih hrid)
    rintro rfl
    cases hother.symm.trans hrid

theorem stores_of_spares (hs : s.Stores rid) (h : Spares allowed s s') : s'.Stores rid := h.ledger.stores hs

theorem stores_failPublish (hs : s.Stores rid) (other : Text) (exc : Exc) : (s.failPublish other exc).Stores rid := by
  have hfailed : Spares (fun _ => True) s (s.failPublish other exc) := spares_complete (.gaveUp exc) other trivial
  exact stores_of_spares hs hfailed

theorem stores_endRequest (hs : s.Stores rid) (r : RequestId) (outcome : Except Exc IncomingMessage) :
    (s.endRequest r outcome).Stores rid := by
  unfold Session.endRequest
  split <;> exact hs

theorem stores_replied (hs : s.Stores rid) (r : RequestId) (request : Request) {outcome : Except Exc IncomingMessage}
    (htimer : outcome = .error .timeoutError → s.settings.brokerTimeout = false) : (s.replied r request outcome).Stores rid := by
  unfold Session.replied
  split
  · split <;> exact stores_endRequest hs r _
  · extract_lets t
    have ht : t = s.failPublish request.rid .timeoutError := if_neg (by simp [htimer rfl])
    have hgone : t.correlation.contains request.rid = false := by
      rw [ht]
      exact congrArg Option.isSome (Dict.get?_erase_self ..)
    have hstores : t.Stores rid := by
      rw [ht]
      exact stores_failPublish hs _ _
    have hforgotten : Spares (fun _ => True) t (t.forgetPublish request.rid) := spares_forgetPublish hgone
    exact stores_endRequest (stores_of_spares hstores hforgotten) r _
  · exact stores_endRequest hs r _

theorem timer_of_timely (hs : s.Timely) {outcome : Except Exc IncomingMessage}
    (hdone : s.correlation.futures r = some outcome) : outcome = .error .timeoutError → s.settings.brokerTimeout = false := by
  rintro rfl
  exact Bool.eq_false_iff.mpr fun hbroker => hs hbroker r hdone

theorem stores_publishEnded (hs : s.Stores rid) (htimely : s.Timely) (r : RequestId) (epoch : Nat)
    (outcome : Except Exc (Option Text)) : (s.publishEnded r epoch outcome).Stores rid := by
  unfold Session.publishEnded
  split
  · rename_i other method call envelope _
    split
    · extract_lets t
      have hparked : Session.Stores { t with parked := t.parked.set other envelope } rid := by
        intro hrid
        change ((s.parked.set other envelope).get? rid).isSome = true
        rw [Dict.get?_set]
        split
        · rfl
        · exact hs hrid
      unfold Session.awaitReply
      split
      · exact hparked
      · rename_i hdone
        exact stores_replied hparked r _ (timer_of_timely htimely hdone)
    · split
      · exact stores_endRequest (stores_failPublish hs other _) r _
      · exact stores_endRequest hs r _
  · exact hs

theorem stores_request (hs : s.Stores rid) (htimely : s.Timely) {args : RequestArgs} {generated : Text}
    (hne : s.chosenId args generated ≠ .ok rid) : (s.request args generated).Stores rid := by
  unfold Session.request
  split
  · exact hs
  · rename_i other hchosen
    extract_lets r t id
    have hother : other ≠ rid := by
      rintro rfl
      exact hne hchosen
    have ht : t.Stores rid := by
      intro hrid
      change ((s.correlation.pending.set other r).get? rid).isSome = true at hrid
      rw [Dict.get?_set, if_neg hother] at hrid
      exact hs hrid
    split
    · exact ht
    · extract_lets u
      have hu : u.Stores rid := ht
      have htimely : u.Timely := htimely
      split
      · exact stores_publishEnded hu htimely r _ _
      · exact hu

end Parked

end Nuropb.Sessions
