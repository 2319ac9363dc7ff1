import Nuropb.Sessions.Covering

/-! # A reconnect publishes what is parked

The reconnect behind the lock publishes what it has found parked once its queue is open. It comes to its next await
with nothing forgotten but what is left of its list, and returns with nothing left.
-/
namespace Nuropb.Sessions

open Library Transport

section Workers

variable {s s' t : Session} {w : WorkerId} {worker : Worker} {rid : Text} {left : List Text} {stage : Stage}

/-- The worker comes to its next await, or ends. -/
theorem settles_setStage (h : s.Held w left) (hstage : s.Allows stage)
    (howed : s.replyQueueOpen = true → ∀ rid, s.Owed rid → s.Republished rid ∨ rid ∈ stage.lists)
    (hends : stage = .ended (.ok ()) → s.Remembers) : (s.setStage w stage).Settles w := by
  obtain ⟨worker, hworker, hlocks⟩ := h.mine
  rw [workers_setStage hworker]
  have hafter : (s.setWorker w { worker with stage }).workers w = some { worker with stage } := if_pos rfl
  have hretains : Retains s (s.setWorker w { worker with stage }) := .of_post (.inl ⟨rfl, rfl⟩) rfl
  have hothers {v : WorkerId} {found : Worker} (hv : v ≠ w)
      (hfound : (s.setWorker w { worker with stage }).workers v = some found) := h.others v found hv ((if_neg hv).symm.trans hfound)
  refine ⟨⟨h.filed.of_retains hretains, fun v found hfound => ?_, fun v found hfound => ?_, fun hopen rid hrid => ?_⟩,
    fun purpose hended => ?_⟩
  · by_cases hv : v = w
    · subst hv
      cases hafter.symm.trans hfound
      exact .inl hlocks
    · exact (hothers hv hfound).1
  · by_cases hv : v = w
    · subst hv
      cases hafter.symm.trans hfound
      exact hretains.allows h.filed hstage
    · exact allows_of_outside (hothers hv hfound).2
  · exact (howed hopen rid hrid).imp_right fun hlists => ⟨w, _, hafter, hlists⟩
  · have hsame := congrArg Worker.stage (Option.some.inj (hafter.symm.trans hended))
    exact hends hsame

theorem settles_returned (h : s.Held w []) (hstarted : s.replyQueue ≠ none → s.started = true)
    (hnone : s.replyQueue = none → ∀ rid, ¬s.Owed rid) : (s.returned w).Settles w := by
  have hremembers : s.Remembers := by
    intro rid howed
    by_cases hqueue : s.replyQueue = none
    · exact absurd howed (hnone hqueue rid)
    · have hopen : s.replyQueueOpen = true :=
        Bool.and_eq_true_iff.mpr ⟨Option.isSome_iff_ne_none.mpr hqueue, hstarted hqueue⟩
      exact (h.owed hopen rid howed).resolve_right List.not_mem_nil
  have hreleased : (s.release w).Remembers := by
    unfold Session.release
    split <;> exact hremembers
  exact settles_setStage (h.of_retains (retains_release s w) (workers_release s w)) trivial
    (fun _ rid howed => .inl (hreleased rid howed)) fun _ => hreleased

/-- An exception leaves the attempt of the worker, while the queue is closed or nothing is forgotten. -/
theorem settles_raised (h : s.Held w left) (e : Exc) (hremembers : s.replyQueueOpen = true → s.Remembers) :
    (s.raised w e).Settles w := by
  unfold Session.raised
  extract_lets t
  have ht : t.Held w left := h.of_retains (retains_release s w) (workers_release s w)
  have hreleased : t.replyQueueOpen = true → t.Remembers := by
    dsimp only [t]
    unfold Session.release
    split <;> exact hremembers
  have hleaves {stage : Stage} (hphase : stage.lockPhase ≠ .inside) (hlive : stage ≠ .ended (.ok ())) :
      (t.setStage w stage).Settles w :=
    settles_setStage ht (allows_of_outside hphase) (fun hopen rid howed => .inl (hreleased hopen rid howed))
      fun hended => absurd hended hlive
  split
  · exact hleaves (by simp [Stage.lockPhase]) (by simp)
  · exact hleaves (by simp [Stage.lockPhase]) (by simp)
  · split
    · exact hleaves (by simp [Stage.lockPhase]) (by simp)
    · exact hleaves (by simp [Stage.lockPhase]) (by simp)
  · split
    · refine settles_setStage (ht.of_retains (retains_discardAll t _) rfl) trivial (fun _ rid howed => ?_) fun hended => ?_
      · cases howed.1
      · cases hended
    · exact hleaves (by simp [Stage.lockPhase]) (by simp)
  · exact hleaves (by simp [Stage.lockPhase]) (by simp)

/-! ### Publishing again -/

theorem startRaises_of_blocked {m : Remainder} {exc : Exc} (hblocked : s.Blocked) (h : s.startRaises m = some exc) :
    exc.isPublishRefusal = true := by
  obtain ⟨⟨rid, parked⟩, -, hraises⟩ := Option.bind_eq_some_iff.mp h
  obtain ⟨raised, conn, hstart, -, hrefused⟩ := startPublish_of_blocked s.nextCall
    (parked.readdressed s.replyQueue rid).args hblocked.2
  simp only [hstart, Option.some.injEq] at hraises
  rw [← hraises, hrefused hblocked.1]
  rfl

theorem startRaises_of_wanted {parked : ParkedPublish} {rest : List (Text × ParkedPublish)} {exc : Exc} {conn : Conn}
    (hwanted : s.correlation.contains rid = true)
    (h : startPublish s.nextCall (parked.readdressed s.replyQueue rid).args s.link.client.conn = .error exc conn) :
    s.startRaises ⟨[], (rid, parked) :: rest⟩ = some exc := by
  rw [Session.startRaises, List.find?_cons_of_pos (by simpa using hwanted)]
  simp only [Option.bind_some, h]

/-- The id whose publish is refused is no longer wanted. -/
theorem mayPublish_failed {rest : List (Text × ParkedPublish)} (h : s.MayPublish ⟨[rid], rest⟩) (e : Exc) :
    (s.failPublish rid e).MayPublish ⟨[], rest⟩ := by
  have hwanted (other : Text) : (s.failPublish rid e).correlation.contains other =
      (s.correlation.contains other && decide (other ∉ [rid])) := by
    change ((s.correlation.pending.erase rid).get? other).isSome = _
    rw [Dict.get?_erase]
    by_cases heq : rid = other
    · simp [heq]
    · simp [heq, Ne.symm heq, CorrelationTable.contains, Dict.contains]
  refine ⟨fun exc hraises => h.raises exc ?_, fun hleft hqueue other howed => ?_⟩
  · rw [← hraises, Session.startRaises, Session.startRaises]
    simp only [hwanted, List.not_mem_nil, not_false_eq_true, decide_true, Bool.and_true]
    rfl
  · obtain ⟨hne, hparked⟩ := Dict.contains_of_erase howed.1
    have hbefore := h.returns (fun entry hentry hcontains => ?_) hqueue other ⟨hparked, (Dict.contains_of_erase howed.2).2⟩
    · exact .inr (hbefore.resolve_left fun hmem => hne (List.mem_singleton.mp hmem).symm)
    · by_cases heq : entry.1 = rid
      · exact .inl (List.mem_singleton.mpr heq)
      · refine (hleft entry hentry ?_).imp (fun hmem => absurd hmem List.not_mem_nil) id
        rw [hwanted, hcontains, Bool.true_and]
        exact decide_eq_true (by simpa using heq)

theorem mayPublish_unwanted {parked : ParkedPublish} {rest : List (Text × ParkedPublish)}
    (h : s.MayPublish ⟨[], (rid, parked) :: rest⟩) (hunwanted : ¬s.correlation.contains rid = true) :
    (s.forgetPublish rid).MayPublish ⟨[], rest⟩ := by
  refine ⟨fun exc hraises => h.raises exc ?_, fun hleft hqueue other howed => ?_⟩
  · rw [Session.startRaises, List.find?_cons_of_neg (by simpa using hunwanted)]
    exact hraises
  · obtain ⟨hne, hparked⟩ := Dict.contains_of_erase howed.1
    have hbefore := h.returns (fun entry hentry hcontains => ?_) hqueue other ⟨hparked, howed.2⟩
    · exact hbefore.imp_right (And.imp_right fun hmem => (List.mem_cons.mp hmem).resolve_left (Ne.symm hne))
    · rcases List.mem_cons.mp hentry with rfl | hrest
      · exact absurd hcontains hunwanted
      · exact hleft entry hrest hcontains

theorem mayPublish_blocked {entry : Text × ParkedPublish} {rest : List (Text × ParkedPublish)}
    (h : s.MayPublish ⟨[], entry :: rest⟩) (hblocked : s.Blocked) : s.MayPublish ⟨[entry.1], rest⟩ := by
  refine ⟨fun exc hraises => .inl (startRaises_of_blocked hblocked hraises), fun _ hqueue other howed => ?_⟩
  obtain ⟨-, hmem⟩ := (h.returns (fun _ _ _ => .inr hblocked) hqueue other howed).resolve_left List.not_mem_nil
  exact (List.mem_cons.mp hmem).imp List.mem_singleton.mpr fun hrest => ⟨hblocked, hrest⟩

theorem Session.Held.mono {more : List Text} (h : s.Held w left) (hmore : ∀ rid, s.Owed rid → rid ∈ left → rid ∈ more) :
    s.Held w more :=
  ⟨h.filed, h.mine, h.others, fun hopen rid howed => (h.owed hopen rid howed).imp_right (hmore rid howed)⟩

theorem Session.Held.forgotten (h : s.Held w (rid :: left)) : (s.forgetPublish rid).Held w left := by
  refine (h.of_retains (retains_forgetPublish s rid) rfl).mono fun other howed hmem => ?_
  exact (List.mem_cons.mp hmem).resolve_left (Ne.symm (Dict.contains_of_erase howed.1).1)

theorem Session.Held.failed (h : s.Held w (rid :: left)) (e : Exc) : (s.failPublish rid e).Held w left :=
  (h.of_retains (retains_complete s rid (.error e)) rfl).forgotten

theorem blocked_of_refusal {id : CallId} {parked : ParkedPublish} {exc : Exc} {conn : Conn}
    (hstart : startPublish id parked.args s.link.client.conn = .error exc conn) (hrefusal : exc.isPublishRefusal = true) :
    s.Blocked ∧ conn = s.link.client.conn := by
  rcases startPublish_refused hstart with hinternal | ⟨-, hopen, hblocked, hsame⟩
  · rw [hinternal.1] at hrefusal
    cases hrefusal
  · exact ⟨⟨hopen, hblocked⟩, hsame⟩

/-- While publishing is blocked, each publish that is left is refused at its call. -/
theorem mayPublish_refused {parked : ParkedPublish} {rest : List (Text × ParkedPublish)}
    (h : s.MayPublish ⟨[], (rid, parked) :: rest⟩) (hblocked : s.Blocked) (hstill : t.Blocked) (hqueue : t.replyQueue = s.replyQueue)
    (howed : ∀ rid, t.Owed rid → s.Owed rid) (e : Exc) : (t.failPublish rid e).MayPublish ⟨[], rest⟩ := by
  have ht : t.MayPublish ⟨[], (rid, parked) :: rest⟩ := by
    refine ⟨fun _ hraises => .inl (startRaises_of_blocked hstill hraises), fun _ hnone other hother => ?_⟩
    have hbefore := h.returns (fun _ _ _ => .inr hblocked) (hqueue.symm.trans hnone) other (howed other hother)
    exact hbefore.imp_right (And.imp_left fun _ => hstill)
  exact mayPublish_failed (mayPublish_blocked ht hstill) e

/-- The worker publishes what is left. -/
theorem settles_republish (entries : List (Text × ParkedPublish)) (h : s.Held w (entries.map Prod.fst)) (hs : s.Orderly)
    (hstarted : s.replyQueue ≠ none → s.started = true) (hmay : s.MayPublish ⟨[], entries⟩) :
    (s.republish w entries).Settles w := by
  induction entries generalizing s with
  | nil =>
    rw [Session.republish]
    refine settles_returned h hstarted fun hqueue rid howed => ?_
    rcases hmay.returns (fun _ hentry => absurd hentry List.not_mem_nil) hqueue rid howed with hmem | ⟨-, hmem⟩
    · exact List.not_mem_nil hmem
    · exact List.not_mem_nil hmem
  | cons entry rest ih =>
    obtain ⟨rid, parked⟩ := entry
    rw [Session.republish]
    split
    · rename_i hwanted
      extract_lets envelope id t
      have hcalled : Retains s t := retains_call s _ _
      have ht : t.Held w (rid :: rest.map Prod.fst) := h.of_retains hcalled rfl
      have horderly : t.Orderly := orderly_call hs _ (by simp)
      split
      · refine settles_setStage ht ⟨fun queue hqueue => ?_, fun link hlink => ?_, hstarted⟩ ht.owed fun hended => ?_
        · have hqueue : s.replyQueue = some queue := hqueue
          have hproperties : envelope.args.properties = (parked.readdressed (some queue) rid).properties := by
            rw [← hqueue]
            rfl
          rw [hproperties]
          exact ⟨rfl, rfl⟩
        · exact (hs link (List.mem_cons_of_mem _ hlink)).fresh _ le_rfl
        · cases hended
      · rename_i result hended
        obtain ⟨exc, heq, -⟩ := publish_raises ((hs _ List.mem_cons_self).fresh _ le_rfl) rfl hended
        cases heq
      · rename_i exc hended
        obtain ⟨_, ⟨⟩, hstart⟩ := publish_raises ((hs _ List.mem_cons_self).fresh _ le_rfl) rfl hended
        have hraises : s.startRaises ⟨[], (rid, parked) :: rest⟩ = some exc := startRaises_of_wanted hwanted hstart
        split
        · rename_i hrefusal
          obtain ⟨hblocked, hsame⟩ := blocked_of_refusal hstart hrefusal
          have hstill : t.Blocked := hblocked.of_conn hsame
          exact ih (s := t.failPublish rid _) (ht.failed _) horderly hstarted
            (mayPublish_refused hmay hblocked hstill rfl (fun _ howed => howed) _)
        · rename_i hrefusal
          refine settles_raised ht exc fun hopen => ?_
          have hsome : s.replyQueue ≠ none := Option.isSome_iff_ne_none.mp (Bool.and_eq_true_iff.mp hopen).1
          exact absurd ((hmay.raises exc hraises).resolve_right hsome) hrefusal
    · rename_i hunwanted
      exact ih (s := s.forgetPublish rid) h.forgotten hs hstarted (mayPublish_unwanted hmay hunwanted)

theorem settles_republished {purpose : Purpose} {call : CallId} {envelope : ParkedPublish}
    {rest : List (Text × ParkedPublish)} (hworker : s.workers w = some ⟨purpose, .republishing call rid envelope rest⟩)
    (h : s.Held w (rid :: rest.map Prod.fst)) (hs : s.Orderly) (haddressed : s.Addressed rid envelope.args)
    (hstarted : s.replyQueue ≠ none → s.started = true) (outcome : Except Exc (Option Text))
    (hmay : ∀ m, s.remainder w outcome = some m → s.MayPublish m)
    (hraises : ∀ exc, outcome = .error exc →
      exc.isPublishRefusal = true ∨ s.replyQueue = none ∨ s.Discharged (rid :: rest.map Prod.fst)) :
    (s.republished w s.epoch rid envelope rest outcome).Settles w := by
  cases outcome with
  | ok result =>
    have hrecorded : Retains s (s.recordPublish s.epoch envelope) := retains_recordPublish s _ envelope
    have hbefore := h.of_retains hrecorded rfl
    have hheld : (s.recordPublish s.epoch envelope).Held w (rest.map Prod.fst) := by
      refine ⟨hbefore.filed, hbefore.mine, hbefore.others, fun hopen other howed => ?_⟩
      rcases hbefore.owed hopen other howed with hrepublished | hmem
      · exact .inl hrepublished
      · refine (List.mem_cons.mp hmem).imp_left ?_
        rintro rfl
        obtain ⟨queue, hqueue⟩ := Option.isSome_iff_exists.mp (Bool.and_eq_true_iff.mp hopen).1
        exact ⟨queue, envelope.args, hqueue, List.mem_append_right _ List.mem_cons_self, haddressed queue hqueue⟩
    have hleft : s.MayPublish ⟨[], rest⟩ := hmay _ (remainder_returned hworker result)
    exact settles_republish rest hheld hs hstarted ⟨hleft.raises, hleft.returns⟩
  | error exc =>
    rw [Session.republished]
    split
    · rename_i hrefusal
      exact settles_republish (s := s.failPublish rid _) rest (h.failed _) hs hstarted
        (mayPublish_failed (hmay _ (remainder_refused hworker hrefusal)) _)
    · rename_i hrefusal
      refine settles_raised h exc fun hopen other howed => ?_
      have hdischarged := ((hraises exc rfl).resolve_left hrefusal).resolve_left
        (Option.isSome_iff_ne_none.mp (Bool.and_eq_true_iff.mp hopen).1)
      exact (h.owed hopen other howed).elim id fun hmem => hdischarged other hmem howed

/-! ### Opening -/

theorem closed_of_started (h : s.started = false) : s.replyQueueOpen = false := by
  rw [Session.replyQueueOpen, h, Bool.and_false]

theorem settles_opened (h : s.Held w (s.parked.entries.map Prod.fst)) (hs : s.Orderly) (hstarted : s.started = true)
    (hpolicy : s.settings.policy.failOutstanding = false)
    (hmay : s.MayPublish ⟨[], if s.replyQueue = none then [] else s.parked.entries⟩) : (s.opened w).Settles w := by
  unfold Session.opened
  split
  · rename_i hpurpose
    obtain ⟨worker, hworker, hlocks⟩ := h.mine
    rw [hworker] at hpurpose
    rw [Option.some.inj hpurpose] at hlocks
    cases hlocks
  · split
    · rename_i hreturns
      have hqueue := hreturns.resolve_left fun hfail => Bool.noConfusion (hpolicy.symm.trans hfail)
      rw [if_pos hqueue] at hmay
      refine settles_returned ⟨h.filed, h.mine, h.others, fun hopen => ?_⟩ (fun _ => hstarted) fun _ rid howed => ?_
      · rw [Session.replyQueueOpen, hqueue] at hopen
        cases hopen
      · rcases hmay.returns (fun _ hentry => absurd hentry List.not_mem_nil) hqueue rid howed with hmem | ⟨-, hmem⟩
        · exact List.not_mem_nil hmem
        · exact List.not_mem_nil hmem
    · rename_i hgoes
      rw [if_neg (not_or.mp hgoes).2] at hmay
      exact settles_republish _ h hs (fun _ => hstarted) hmay

theorem settles_opens (h : s.Held w left) (hstarted : s.started = false) (hunasked : s.Unasked) (op : Operation)
    (step : Opening) : (s.opens w op step).Settles w := by
  unfold Session.opens
  extract_lets call t
  have hcalled : Retains s t := retains_call s _ op
  have ht : t.Held w left := h.of_retains hcalled rfl
  have hclosed : t.replyQueueOpen = false := closed_of_started hstarted
  split
  · refine settles_raised ht _ fun hopen => ?_
    rw [hclosed] at hopen
    cases hopen
  · have hallows : s.Allows (.opening call step) := ⟨hstarted, hunasked⟩
    refine settles_setStage ht (hcalled.allows h.filed hallows) (fun hopen => ?_) fun hended => ?_
    · rw [hclosed] at hopen
      cases hopen
    · cases hended

theorem settles_startConn (h : s.Held w left) (hstarted : s.started = false) (hunasked : s.Unasked) :
    (s.startConn w).Settles w := by
  have hwired : Retains s { s with lossHandled := false, link := { s.link with wired := true } } := .of_post (.inl ⟨rfl, rfl⟩) rfl
  exact settles_opens (h.of_retains hwired rfl) hstarted hunasked _ _

/-- No call has been made on a new connection. -/
theorem settles_renewed (h : s.Held w left) (hstarted : s.started = false) : (s.newConnection.startConn w).Settles w := by
  have hnew : s.newConnection.Held w left := by
    refine ⟨⟨fun r rid method call envelope hrequest => ?_, h.filed.known⟩, h.mine, h.others, fun hopen => ?_⟩
    · exact ⟨(h.filed.asked r rid method call envelope hrequest).1, .inl rfl⟩
    · have hopen : s.replyQueueOpen = true := hopen
      rw [closed_of_started hstarted] at hopen
      cases hopen
  exact settles_startConn hnew hstarted fun _ _ _ _ _ _ => rfl

theorem mem_entries_of_contains {β : Type} {d : Dict Text β} (h : d.contains rid = true) : rid ∈ d.entries.map Prod.fst :=
  Dict.mem_keys_iff.mpr h

theorem settles_openingEnded (h : s.Held w left) (hs : s.Orderly) (hstarted : s.started = false) (hunasked : s.Unasked)
    (hpolicy : s.settings.policy.failOutstanding = false) {purpose : Purpose} {call : CallId} {step : Opening}
    (hworker : s.workers w = some ⟨purpose, .opening call step⟩) (outcome : Except Exc (Option Text))
    (hmay : ∀ m, s.remainder w outcome = some m → s.MayPublish m) : (s.openingEnded w step outcome).Settles w := by
  unfold Session.openingEnded
  split
  · refine settles_raised h _ fun hopen => ?_
    rw [closed_of_started hstarted] at hopen
    cases hopen
  · exact settles_opens h hstarted hunasked _ _
  · exact settles_opens h hstarted hunasked _ _
  · rename_i queue
    have hqueue : Session.Held { s with replyQueue := queue } w left := by
      refine ⟨⟨fun r rid method call envelope hrequest => ?_, h.filed.known⟩, h.mine, h.others, fun hopen => ?_⟩
      · exact ⟨(h.filed.asked r rid method call envelope hrequest).1, .inl (hunasked r rid method call envelope hrequest)⟩
      · rw [closed_of_started (s := { s with replyQueue := queue }) hstarted] at hopen
        cases hopen
    exact settles_opens hqueue hstarted hunasked _ _
  · have hpurpose : purpose ≠ .start := by
      rintro rfl
      obtain ⟨worker, hfound, hlocks⟩ := h.mine
      rw [hworker] at hfound
      cases hfound
      cases hlocks
    have hleft := hmay _ (remainder_consumed hworker _)
    simp only [hpurpose, hpolicy, Bool.false_eq_true, false_or] at hleft
    refine settles_opened (s := Session.createLoop { s with started := true })
      ⟨⟨h.filed.asked, h.filed.known⟩, h.mine, h.others, fun _ rid howed => .inr (mem_entries_of_contains howed.1)⟩ hs rfl
        hpolicy ?_
    exact ⟨hleft.raises, hleft.returns⟩

/-! ### Tearing down -/

theorem settles_closed (h : s.Held w left) (hstarted : s.started = false) (outcome : Except Exc (Option Text)) :
    (s.closed w outcome).Settles w := by
  unfold Session.closed
  split
  · rename_i hpurpose
    obtain ⟨worker, hworker, hlocks⟩ := h.mine
    rw [hworker] at hpurpose
    rw [Option.some.inj hpurpose] at hlocks
    cases hlocks
  · refine settles_raised h _ fun hopen => ?_
    rw [closed_of_started hstarted] at hopen
    cases hopen
  · exact settles_renewed h hstarted

theorem settles_shut (h : s.Held w left) (hstarted : s.started = false) (hstage : s.Allows stage)
    (hlive : ∀ outcome, stage ≠ .ended outcome) : (s.setStage w stage).Settles w := by
  refine settles_setStage h hstage (fun hopen => ?_) fun hended => absurd hended (hlive _)
  rw [closed_of_started hstarted] at hopen
  cases hopen

theorem settles_replyStopped (h : s.Held w left) (hstarted : s.started = false) : (s.replyStopped w).Settles w := by
  unfold Session.replyStopped
  extract_lets call t
  have hcleared : Retains s { s with replyTask := none, replyQueue := none } := .of_post (.inr ⟨rfl, hstarted⟩) rfl
  have ht : t.Held w left := h.of_retains (hcleared.trans (retains_call _ _ .close)) rfl
  split
  · exact settles_closed ht hstarted _
  · exact settles_shut ht hstarted hstarted (by simp)

theorem settles_stopReply (h : s.Held w left) (hstarted : s.started = false) : (s.stopReply w).Settles w := by
  unfold Session.stopReply
  split
  · exact settles_replyStopped h hstarted
  · rename_i l _
    split
    · exact settles_replyStopped h hstarted
    · have hcancelled : Retains s (s.setCancelled (.loop l) true) := .of_post (.inl ⟨rfl, rfl⟩) rfl
      exact settles_shut (h.of_retains hcancelled rfl) hstarted hstarted (by simp)

/-- A reconnect that has got the lock returns at once if the queue is open. -/
theorem settles_reconnectLocked (h : s.Held w []) : (s.reconnectLocked w).Settles w := by
  unfold Session.reconnectLocked
  split
  · rename_i hopen
    obtain ⟨hsome, hstarted⟩ := Bool.and_eq_true_iff.mp hopen
    exact settles_returned h (fun _ => hstarted) fun hnone => absurd hnone (Option.isSome_iff_ne_none.mp hsome)
  · extract_lets t u
    have ht : t.Held w [] := by
      refine ⟨⟨h.filed.asked, h.filed.known⟩, h.mine, h.others, fun hopen => ?_⟩
      rw [closed_of_started (s := t) rfl] at hopen
      cases hopen
    have hu : u.Held w [] ∧ u.started = false := by
      dsimp only [u]
      split
      · exact ⟨ht.of_retains (retains_discardAll t _) rfl, rfl⟩
      · exact ⟨ht, rfl⟩
    exact settles_stopReply hu.1 hu.2

/-! ### Runs of a worker -/

theorem held_of_covered (h : s.Covered) (hworker : s.workers w = some worker) (hlocks : worker.purpose.locks = true)
    (hlone : s.Unheld w) : s.Held w worker.stage.lists := by
  have houtside {v : WorkerId} {found : Worker} (hv : v ≠ w) (hfound : s.workers v = some found) :
      found.stage.lockPhase ≠ .inside := by
    rcases h.reconnects v found hfound with hlocks | ⟨outcome, hended⟩
    · exact hlone v found hv hfound hlocks
    · rw [hended]
      simp [Stage.lockPhase]
  refine ⟨h.filed, ⟨worker, hworker, hlocks⟩, fun v found hv hfound => ⟨h.reconnects v found hfound, houtside hv hfound⟩,
    fun hopen rid howed => (h.owed hopen rid howed).imp_right ?_⟩
  rintro ⟨v, found, hfound, hlists⟩
  by_cases hv : v = w
  · subst hv
    cases hworker.symm.trans hfound
    exact hlists
  · rw [lists_of_outside (houtside hv hfound)] at hlists
    cases hlists

theorem unheld_of_ranked (hs : s.Ranked) (hlock : ∀ v, s.lock = some v → v = w) : s.Unheld w := by
  intro v found hv hfound hlocks hinside
  have hphase : s.reconnectLock.phase v = .inside := by rw [phase_reconnectLock hfound, lockPhase_of_locks hlocks, hinside]
  exact hv (hlock v ((hs.exclusive.inside v).mp hphase))

theorem held_of_inside (h : s.Covered) (hs : s.Ranked) (hworker : s.workers w = some worker)
    (hinside : worker.stage.lockPhase = .inside) : s.Held w worker.stage.lists := by
  have hlocks : worker.purpose.locks = true := by
    refine (h.reconnects w worker hworker).resolve_right fun ⟨outcome, hended⟩ => ?_
    rw [hended] at hinside
    cases hinside
  have hphase : s.reconnectLock.phase w = .inside := by rw [phase_reconnectLock hworker, lockPhase_of_locks hlocks, hinside]
  have hlock : s.lock = some w := (hs.exclusive.inside w).mp hphase
  refine held_of_covered h hworker hlocks (unheld_of_ranked hs fun v hholder => ?_)
  exact Option.some.inj (hholder.symm.trans hlock)

/-- A worker that is not behind the lock goes on waiting for it, or ends. -/
theorem settles_outside (h : s.Covered) (hretains : Retains s t) (hworkers : t.workers = s.workers)
    (hworker : s.workers w = some worker) (hlocks : worker.purpose.locks = true)
    (hbefore : worker.stage.lockPhase ≠ .inside) (hafter : stage.lockPhase ≠ .inside)
    (hlive : stage ≠ .ended (.ok ())) : (t.setStage w stage).Settles w := by
  rw [workers_setStage (hworkers ▸ hworker)]
  have hself : (t.setWorker w { worker with stage }).workers w = some { worker with stage } := if_pos rfl
  have hothers {v : WorkerId} (hv : v ≠ w) : (t.setWorker w { worker with stage }).workers v = s.workers v :=
    (if_neg hv).trans (congrFun hworkers v)
  refine ⟨h.of_retains (hretains.trans (.of_post (.inl ⟨rfl, rfl⟩) rfl)) (fun v found hfound => ?_) fun v found hfound hinside => ?_,
    fun purpose hended => ?_⟩
  · by_cases hv : v = w
    · subst hv
      cases hself.symm.trans hfound
      exact .inr (.inl ⟨hlocks, hafter⟩)
    · exact .inl ((hothers hv).symm.trans hfound)
  · have hv : v ≠ w := by
      rintro rfl
      cases hworker.symm.trans hfound
      exact hbefore hinside
    exact (hothers hv).trans hfound
  · exact absurd (congrArg Worker.stage (Option.some.inj (hself.symm.trans hended))) hlive

theorem settles_reconnectFrom (h : s.Covered) (hworker : s.workers w = some worker) (hlocks : worker.purpose.locks = true)
    (hstage : worker.stage.lockPhase ≠ .inside) (hlone : s.lock = none → s.Unheld w) : (s.reconnectFrom w).Settles w := by
  unfold Session.reconnectFrom
  split
  · rename_i hfree
    have hheld := held_of_covered h hworker hlocks (hlone hfree.1)
    rw [lists_of_outside hstage] at hheld
    have hlocked : Retains s { s with lock := some w } := .of_post (.inl ⟨rfl, rfl⟩) rfl
    exact settles_reconnectLocked (hheld.of_retains hlocked rfl)
  · have hline : Retains s { s with lockLine := s.lockLine ++ [w] } := .of_post (.inl ⟨rfl, rfl⟩) rfl
    exact settles_outside h hline rfl hworker hlocks hstage (by simp [Stage.lockPhase]) (by simp)

theorem settles_nextAttempt (h : s.Covered) (hworker : s.workers w = some worker) (hlocks : worker.purpose.locks = true)
    (hsleeping : worker.stage = .sleeping) (hlone : s.lock = none → s.Unheld w) : (s.nextAttempt w).Settles w := by
  have hnext {purpose : Purpose} (hpurpose : purpose.locks = true) :
      ((s.setWorker w ⟨purpose, .sleeping⟩).reconnectFrom w).Settles w := by
    have hself : (s.setWorker w ⟨purpose, .sleeping⟩).workers w = some ⟨purpose, .sleeping⟩ := if_pos rfl
    have hcounted : (s.setWorker w ⟨purpose, .sleeping⟩).Covered := by
      refine h.of_retains (.of_post (.inl ⟨rfl, rfl⟩) rfl) (fun v found hfound => ?_) fun v found hfound hinside => ?_
      · by_cases hv : v = w
        · subst hv
          cases hself.symm.trans hfound
          exact .inr (.inl ⟨hpurpose, by simp [Stage.lockPhase]⟩)
        · exact .inl ((if_neg hv).symm.trans hfound)
      · have hv : v ≠ w := by
          rintro rfl
          cases hworker.symm.trans hfound
          rw [hsleeping] at hinside
          cases hinside
        exact (if_neg hv).trans hfound
    exact settles_reconnectFrom hcounted hself hpurpose (by simp [Stage.lockPhase]) fun hfree v found hv hfound =>
      hlone hfree v found hv ((if_neg hv).symm.trans hfound)
  unfold Session.nextAttempt
  split
  · exact hnext rfl
  · exact hnext rfl
  · refine ⟨h, fun purpose hended => ?_⟩
    rw [hworker] at hended
    cases hended
    cases hsleeping

theorem settles_cancelled (h : s.Covered) (hretains : Retains s t) (hworkers : t.workers = s.workers)
    (hworker : s.workers w = some worker) (hlocks : worker.purpose.locks = true)
    (hbefore : worker.stage.lockPhase ≠ .inside) : (t.raised w .cancelledError).Settles w := by
  rw [raised_cancelled]
  exact settles_outside h (hretains.trans (retains_release t w)) ((workers_release t w).trans hworkers) hworker hlocks
    hbefore (by simp [Stage.lockPhase]) (by simp)

theorem settles_runWorker (h : s.Covered) (hs : s.Ranked) (hrun : s.runWorker w = some s') : s'.Settles w := by
  have hstage {stage : Stage} (hsome : (s.workers w).map Worker.stage = some stage) :
      ∃ worker, s.workers w = some worker ∧ worker.stage = stage := Option.map_eq_some_iff.mp hsome
  have hlocks {worker : Worker} (hworker : s.workers w = some worker)
      (hlive : ∀ outcome, worker.stage ≠ .ended outcome) : worker.purpose.locks = true :=
    (h.reconnects w worker hworker).resolve_right fun ⟨outcome, hended⟩ => hlive outcome hended
  have hfree (hnone : s.lock = none) : s.Unheld w := unheld_of_ranked hs fun v hlock => by
    rw [hnone] at hlock
    cases hlock
  have hcleared : Retains s (s.setCancelled (.worker w) false) := .of_post (.inl ⟨rfl, rfl⟩) rfl
  unfold Session.runWorker at hrun
  dsimp only at hrun
  split at hrun
  · obtain ⟨worker, hworker, hcreated⟩ := hstage ‹_›
    have hlocks := hlocks hworker (by simp [hcreated])
    have houtside : worker.stage.lockPhase ≠ .inside := by simp [hcreated, Stage.lockPhase]
    cases hrun
    split
    · exact settles_cancelled h hcleared rfl hworker hlocks houtside
    · exact settles_reconnectFrom h hworker hlocks houtside hfree
  · obtain ⟨worker, hworker, hsleeping⟩ := hstage ‹_›
    have hlocks := hlocks hworker (by simp [hsleeping])
    cases hrun
    split
    · exact settles_cancelled h hcleared rfl hworker hlocks (by simp [hsleeping, Stage.lockPhase])
    · exact settles_nextAttempt h hworker hlocks hsleeping hfree
  · obtain ⟨worker, hworker, hlocking⟩ := hstage ‹_›
    have hlocks := hlocks hworker (by simp [hlocking])
    have houtside : worker.stage.lockPhase ≠ .inside := by simp [hlocking, Stage.lockPhase]
    split at hrun
    · cases hrun
      have hline : Retains s { s.setCancelled (.worker w) false with lockLine := s.lockLine.filter (· ≠ w) } :=
        .of_post (.inl ⟨rfl, rfl⟩) rfl
      exact settles_cancelled h hline rfl hworker hlocks houtside
    · obtain ⟨⟨hnone, -⟩, ⟨⟩⟩ := Option.ite_none_right_eq_some.mp hrun
      have hheld := held_of_covered h hworker hlocks (hfree hnone)
      rw [lists_of_outside houtside] at hheld
      have hlocked : Retains s { s with lock := some w, lockLine := s.lockLine.tail } := .of_post (.inl ⟨rfl, rfl⟩) rfl
      exact settles_reconnectLocked (hheld.of_retains hlocked rfl)
  · obtain ⟨worker, hworker, hawaiting⟩ := hstage ‹_›
    have hplaced := hs.placed w worker hworker
    rw [Worker.placed, hawaiting, hlocks hworker (by simp [hawaiting])] at hplaced
    cases hplaced
  · obtain ⟨worker, hworker, hstopping⟩ := hstage ‹_›
    obtain ⟨-, ⟨⟩⟩ := Option.ite_none_right_eq_some.mp hrun
    have hheld := held_of_inside h hs hworker (by simp [hstopping, Stage.lockPhase])
    have hallows := h.staged w worker hworker
    rw [hstopping] at hallows
    exact settles_replyStopped hheld hallows
  · cases hrun

/-- The call that a worker awaits has ended. -/
theorem settles_workerResumed (h : s.Covered) (hs : s.Ranked) (horderly : s.Orderly)
    (hpolicy : s.settings.policy.failOutstanding = false) (hworker : s.workers w = some worker) {call : CallId}
    (hawaits : worker.stage.awaits = some call) {epoch : Nat}
    (hepoch : (∀ link ∈ s.previous, link.client.fresh call = true) → epoch = s.epoch) (outcome : Except Exc (Option Text))
    (hmay : ∀ m, s.remainder w outcome = some m → s.MayPublish m)
    (hraises : ∀ exc rid envelope rest, worker.stage = .republishing call rid envelope rest → outcome = .error exc →
      exc.isPublishRefusal = true ∨ s.replyQueue = none ∨ s.Discharged (rid :: rest.map Prod.fst)) :
    (s.workerResumed w epoch outcome).Settles w := by
  have hallows := h.staged w worker hworker
  have hheld (hinside : worker.stage.lockPhase = .inside) : s.Held w worker.stage.lists := held_of_inside h hs hworker hinside
  unfold Session.workerResumed
  rw [hworker, Option.map_some]
  obtain ⟨purpose, stage⟩ := worker
  cases stage with
  | closingConn call => exact settles_closed (hheld rfl) hallows outcome
  | opening call step => exact settles_openingEnded (hheld rfl) horderly hallows.1 hallows.2 hpolicy hworker outcome hmay
  | republishing call rid envelope rest =>
    cases hawaits
    obtain ⟨haddressed, hfresh, hstarted⟩ := hallows
    rw [hepoch hfresh]
    exact settles_republished hworker (hheld rfl) horderly haddressed hstarted outcome hmay
      fun exc => hraises exc rid envelope rest rfl
  | _ => cases hawaits

end Workers

end Nuropb.Sessions
