import Nuropb.Patterns.RpcServer
import Nuropb.Sessions.Order
import Nuropb.Transport.ChannelGate
import Nuropb.Transport.Lifecycle

/-! # Who closes a connection

A consumer awaits the task of its loop before it closes its connection, and takes only a
`CancelledError` of it. The loop of a session takes every exception itself.
-/
namespace Nuropb.Patterns

open Library Transport

/-- `task.cancel()` and the wait for the task of the loop, if there is one, which has ended. -/
def stopLoop : Option (Except Exc Unit) → Except Exc Unit
  | some (.error .cancelledError) | none => .ok ()
  | some outcome => outcome

/-- `close` of a consumer, up to where `conn.close()` first waits. -/
def closeConsumer (owns : Bool) (task : Option (Except Exc Unit)) (id : CallId) (c : Client) : Except Exc Unit × Client :=
  match stopLoop task with
  | .error e => (.error e, c)
  | .ok _ => (.ok (), if owns then (c.step (.close id)).getD c else c)

def RpcServer.close (ownsConn : Bool) (task : Option (Except Exc Unit)) (id : CallId) (c : Client) :
    Except Exc Unit × Client :=
  closeConsumer ownsConn task id c

def EventSubscriber.close (task : Option (Except Exc Unit)) (id : CallId) (c : Client) : Except Exc Unit × Client :=
  closeConsumer true task id c

def MeshRegistryViewer.close (task : Option (Except Exc Unit)) (id : CallId) (c : Client) : Except Exc Unit × Client :=
  closeConsumer true task id c

/-- The task has not ended with an exception, but for its cancellation. -/
def Passes (task : Option (Except Exc Unit)) : Prop := ∀ e, task = some (.error e) → e = .cancelledError

section Consumers

variable {task : Option (Except Exc Unit)} {c : Client} {id : CallId} {e : Exc}

theorem close_closed (c : Client) (id : CallId) : (c.close id).closed = true := by
  cases hclosed : c.closed with
  | true =>
    unfold Client.close
    rw [if_pos hclosed]
    exact hclosed
  | false => exact (close_begins id hclosed).1

theorem stopLoop_of_passes (h : Passes task) : stopLoop task = .ok () := by
  match task with
  | none => rfl
  | some (.ok _) => rfl
  | some (.error e) =>
    cases h e rfl
    rfl

theorem stopLoop_raises (htask : task = some (.error e)) (he : e ≠ .cancelledError) : stopLoop task = .error e := by
  subst htask
  cases e <;> first | rfl | exact absurd rfl he

/-- A consumer closes the connection it owns if and only if its loop has not ended with an exception. -/
theorem closeConsumer_iff (owns : Bool) (hopen : c.closed = false) (hfresh : c.fresh id = true) :
    (closeConsumer owns task id c).2.closed = true ↔ owns = true ∧ Passes task := by
  constructor
  · intro hclosed
    have hpasses : Passes task := by
      intro e htask
      apply Classical.byContradiction
      intro he
      rw [closeConsumer, stopLoop_raises htask he, hopen] at hclosed
      cases hclosed
    cases owns with
    | true => exact ⟨rfl, hpasses⟩
    | false =>
      rw [closeConsumer, stopLoop_of_passes hpasses] at hclosed
      exact absurd hclosed (by simp [hopen])
  · rintro ⟨rfl, hpasses⟩
    have hstep : c.step (.close id) = some (c.close id) := if_pos hfresh
    rw [closeConsumer, stopLoop_of_passes hpasses]
    simp [hstep, close_closed]

end Consumers

end Nuropb.Patterns

namespace Nuropb.Sessions

open Library Patterns Transport

def Session.ReplyEnded (s : Session) : Prop := ∀ l, s.replyTask = some l → s.loopEnded l = true

section Closing

variable {s s' : Session} {w : WorkerId}

theorem link_setStage (s : Session) (w : WorkerId) (stage : Stage) : (s.setStage w stage).link = s.link := by
  unfold Session.setStage
  split <;> rfl

theorem closed_callClose (hs : s.Orderly) (owner : Option Owner) : (s.call owner .close).link.client.closed = true := by
  have hfresh : s.link.client.fresh s.nextCall = true := (hs _ List.mem_cons_self).fresh _ le_rfl
  have hstep : s.link.client.step (.close s.nextCall) = some (s.link.client.close s.nextCall) := if_pos hfresh
  have hclient : (s.call owner .close).link.client = s.link.client.close s.nextCall := by
    dsimp only [Session.call, Session.setClient, Operation.event]
    rw [hstep, Option.getD_some]
  rw [hclient]
  exact close_closed _ _

theorem replyStopped_closes (hs : s.Orderly) (hclose : (s.workers w).map Worker.purpose = some .close) :
    (s.replyStopped w).link.client.closed = true := by
  unfold Session.replyStopped
  extract_lets id t
  have hclosed : t.link.client.closed = true := closed_callClose (s := { s with replyTask := none, replyQueue := none }) hs _
  split
  · have hpurpose : (t.workers w).map Worker.purpose = some .close := hclose
    unfold Session.closed
    rw [hpurpose, link_setStage]
    exact hclosed
  · rw [link_setStage]
    exact hclosed

theorem stopReply_closes (hs : s.Orderly) (hclose : (s.workers w).map Worker.purpose = some .close)
    (hended : s.ReplyEnded) : (s.stopReply w).link.client.closed = true := by
  unfold Session.stopReply
  split
  · exact replyStopped_closes hs hclose
  · rename_i l hl
    rw [if_pos (hended l hl)]
    exact replyStopped_closes hs hclose

/-- A call of `close` closes the connection at once, unless it first waits for the auto-reconnect task. -/
theorem close_closes (hs : s.Orderly) (hended : s.ReplyEnded) : s.close.link.client.closed = true ∨
    ∃ auto, s.autoTask = some auto ∧ s.close.workers s.nextWorker = some ⟨.close, .awaitingAuto auto⟩ := by
  unfold Session.close
  extract_lets w t
  have hworker : t.workers w = some ⟨.close, .created⟩ := by
    simp [t, w, Session.newWorker, Session.setWorker, Session.discardAll]
  have hpurpose : (t.workers w).map Worker.purpose = some .close := by rw [hworker]; rfl
  have horderly : t.Orderly := hs
  have ht : t.ReplyEnded := hended
  split
  · rename_i auto hauto
    split
    · exact .inl (stopReply_closes horderly hpurpose ht)
    · right
      refine ⟨auto, hauto, ?_⟩
      have hsame : (t.cancelWorker auto).workers w = some ⟨.close, .created⟩ := by
        rw [← hworker]
        unfold Session.cancelWorker
        split <;> rfl
      have hw : w = s.nextWorker := rfl
      rw [← hw, Session.setStage, hsame]
      exact if_pos rfl
  · exact .inl (stopReply_closes horderly hpurpose ht)

theorem runWorker_closes (hs : s.Orderly) (hended : s.ReplyEnded) {stage : Stage}
    (hworker : s.workers w = some ⟨.close, stage⟩)
    (hstage : (∃ auto, stage = .awaitingAuto auto) ∨ ∃ l, stage = .stoppingReply l) (h : s.runWorker w = some s') :
    s'.link.client.closed = true := by
  have hpurpose : (s.workers w).map Worker.purpose = some .close := by rw [hworker]; rfl
  rcases hstage with ⟨auto, rfl⟩ | ⟨l, rfl⟩
  · simp only [Session.runWorker, hworker, Option.map_some] at h
    obtain ⟨-, ⟨⟩⟩ := Option.ite_none_right_eq_some.mp h
    have horderly : Session.Orderly { s with autoTask := none } := hs
    have ht : Session.ReplyEnded { s with autoTask := none } := hended
    exact stopReply_closes horderly hpurpose ht
  · simp only [Session.runWorker, hworker, Option.map_some] at h
    obtain ⟨-, ⟨⟩⟩ := Option.ite_none_right_eq_some.mp h
    exact replyStopped_closes hs hpurpose

end Closing

/-- In every run whose steps end quietly `close` leaves the connection shut, and another call changes nothing;
a read loop that has ended with an exception makes `close` raise it and leave the writer. A consumer closes
the connection it owns if and only if its loop has not ended with an exception, and a session always does. -/
theorem closing_releases (config : ConnectionConfig) :
    (∀ s : Lifecycle, ReachesWhere Lifecycle.step (fun s e => s.endsQuietly e = true) (Lifecycle.new config) s →
      s.CloseReleases) ∧
    (∀ (s : Lifecycle) (id : CallId), s.client.closed = true → s.client.fresh id = true →
      s.step (.client (.close id)) =
        some { s with client := { s.client.setJob id (.ended (.ok ())) with closeReturned := true } }) ∧
    (∀ (s : Lifecycle) (id : CallId) (raised : Option Exc) (exc : Exc),
      s.client.jobs id = some (.closing (.reader raised)) → s.client.conn.reader = .stopped →
      s.raised = some exc → exc ≠ .cancelledError →
      ∃ s', s.step (.readerAwaited id) = some s' ∧ s'.client.jobs id = some (.ended (.error exc)) ∧
        s'.writer = s.writer) ∧
    (∀ (task : Option (Except Exc Unit)) (id : CallId) (c : Client), c.closed = false → c.fresh id = true →
      (∀ ownsConn, (RpcServer.close ownsConn task id c).2.closed = true ↔ ownsConn = true ∧ Passes task) ∧
      ((EventSubscriber.close task id c).2.closed = true ↔ Passes task) ∧
      ((MeshRegistryViewer.close task id c).2.closed = true ↔ Passes task)) ∧
    (∀ (settings : Settings) (s : Session), Reaches Session.step (Session.new settings) s → s.ReplyEnded →
      (s.close.link.client.closed = true ∨
        ∃ auto, s.autoTask = some auto ∧ s.close.workers s.nextWorker = some ⟨.close, .awaitingAuto auto⟩) ∧
      ∀ w stage s', s.workers w = some ⟨.close, stage⟩ →
        ((∃ auto, stage = .awaitingAuto auto) ∨ ∃ l, stage = .stoppingReply l) → s.runWorker w = some s' →
        s'.link.client.closed = true) := by
  refine ⟨fun s h => close_releases config h, fun s id hclosed hfresh => close_again hclosed hfresh,
    fun s id raised exc hjob hstopped hraised hexc => close_raises hjob hstopped hraised hexc, ?_, ?_⟩
  · intro task id c hopen hfresh
    have hsubscriber : (closeConsumer true task id c).2.closed = true ↔ true = true ∧ Passes task :=
      closeConsumer_iff true hopen hfresh
    simp only [true_and] at hsubscriber
    exact ⟨fun ownsConn => closeConsumer_iff ownsConn hopen hfresh, hsubscriber, hsubscriber⟩
  · intro settings s h hended
    have hs : s.Orderly := h.invariant (orderly_new settings) fun _ _ _ hinv _ hstep => orderly_step hinv hstep
    exact ⟨close_closes hs hended, fun w stage s' hworker hstage hrun => runWorker_closes hs hended hworker hstage hrun⟩

def closeOkFrame : Frame := ⟨.method, 0, [0, 10, 0, 51]⟩

def closedInOrder : List LifecycleEvent :=
  handshakeDone.map .client ++ [.client (.close 5), .client (.resumed 5 none), .client (.task (.frame closeOkFrame)),
    .client (.wakeJob 5), .readerAwaited 5, .client (.resumed 5 none)]

theorem inOrder_releases : ∃ s, run Lifecycle.step (Lifecycle.new defaultConfig) closedInOrder = some s ∧
    s.closer = some 5 ∧ s.writer = .closed ∧ s.CloseReleases := by
  have hrun : (run Lifecycle.step (Lifecycle.new defaultConfig) closedInOrder).any (fun s =>
      s.closer = some 5 ∧ s.writer = .closed) = true := by decide +kernel
  obtain ⟨s, hs, hstate⟩ := (Option.any_eq_true _ _).mp hrun
  obtain ⟨hcloser, hwriter⟩ := of_decide_eq_true hstate
  exact ⟨s, hs, hcloser, hwriter, (closing_releases defaultConfig).1 s (reaches_of_run hs (by decide +kernel))⟩

def closedAfterEof : List LifecycleEvent :=
  handshakeDone.map .client ++ [.client (.task .eof), .client (.close 5), .readerAwaited 5]

def Client.hasEnded (c : Client) (id : CallId) : Bool :=
  match c.jobs id with
  | some (.ended _) => true
  | _ => false

/-- Then `close` raises what the read loop has ended with, and leaves the writer open. -/
theorem afterEof_not_releases : ¬∀ (config : ConnectionConfig) (s : Lifecycle),
    Reaches Lifecycle.step (Lifecycle.new config) s → s.CloseReleases := by
  intro hall
  have hrun : (run Lifecycle.step (Lifecycle.new defaultConfig) closedAfterEof).any (fun s =>
      s.closer = some 5 ∧ s.writer = .open ∧ Client.hasEnded s.client 5 = true) = true := by decide +kernel
  obtain ⟨s, hs, hstate⟩ := (Option.any_eq_true _ _).mp hrun
  obtain ⟨hcloser, hwriter, hjob⟩ := of_decide_eq_true hstate
  unfold Client.hasEnded at hjob
  split at hjob
  · rename_i outcome hended
    have hshut := hall defaultConfig s (reaches_of_run hs (by decide +kernel)) 5 outcome hcloser hended
    exact hshut.writer hwriter
  · cases hjob

end Nuropb.Sessions
