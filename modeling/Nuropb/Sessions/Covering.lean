import Nuropb.Sessions.Lock
import Nuropb.Sessions.Refusals
import Nuropb.Sessions.Replies

/-! # What a reconnect owes to the parked requests

While the reply queue is open, what is parked and still pending has been published on the current connection, or the
reconnect behind the lock has yet to publish it.
-/
namespace Nuropb.Sessions

open Library Transport

/-- What a worker at the stage has yet to publish, with the publish that it awaits. -/
def Stage.lists : Stage → List Text
  | .republishing _ rid _ rest => rid :: rest.map Prod.fst
  | _ => []

namespace Session

/-- A parked publish whose request is pending. -/
def Owed (s : Session) (rid : Text) : Prop := s.parked.contains rid = true ∧ s.correlation.contains rid = true

/-- The publish has the id and the current reply queue, if there is one. -/
def Addressed (s : Session) (rid : Text) (args : PublishArgs) : Prop := ∀ queue, s.replyQueue = some queue →
  args.properties .replyTo = some (.str queue) ∧ args.properties .correlationId = some (.str rid)

/-- The id has been published on the current connection, for the current reply queue. -/
def Republished (s : Session) (rid : Text) : Prop := ∃ queue args, s.replyQueue = some queue ∧
  (s.epoch, args) ∈ s.published ∧ args.properties .replyTo = some (.str queue) ∧
    args.properties .correlationId = some (.str rid)

/-- Nothing that is parked and pending is forgotten. -/
def Remembers (s : Session) : Prop := ∀ rid, s.Owed rid → s.Republished rid

/-- Each of the ids is no longer owed, or has been published again. -/
def Discharged (s : Session) (left : List Text) : Prop := ∀ rid ∈ left, s.Owed rid → s.Republished rid

/-- No request publishes on the current connection. -/
def Unasked (s : Session) : Prop := ∀ r rid method call envelope,
  s.requests r = some ⟨rid, method, .publishing call envelope⟩ → s.link.client.fresh call = true

/-- What holds while a worker waits at the stage. -/
def Allows (s : Session) : Stage → Prop
  | .stoppingReply _ | .closingConn _ => s.started = false
  | .opening .. => s.started = false ∧ s.Unasked
  | .republishing call rid envelope _ => s.Addressed rid envelope.args ∧
      (∀ link ∈ s.previous, link.client.fresh call = true) ∧ (s.replyQueue ≠ none → s.started = true)
  | _ => True

/-- A request publishes for the current queue, if it does on the current connection, and what is parked is that of a
request. -/
structure Filed (s : Session) : Prop where
  asked : ∀ r rid method call envelope, s.requests r = some ⟨rid, method, .publishing call envelope⟩ →
    call < s.nextCall ∧ (s.link.client.fresh call = true ∨ s.Addressed rid envelope.args)
  known : ∀ rid, s.parked.contains rid = true → ∃ r request, s.requests r = some request ∧ request.rid = rid

/-- The workers that have not ended are reconnects, and while the queue is open one of them has yet to publish what is
owed and has not been published. -/
structure Covered (s : Session) : Prop where
  filed : s.Filed
  reconnects : ∀ w worker, s.workers w = some worker →
    worker.purpose.locks = true ∨ ∃ outcome, worker.stage = .ended outcome
  staged : ∀ w worker, s.workers w = some worker → s.Allows worker.stage
  owed : s.replyQueueOpen = true → ∀ rid, s.Owed rid → s.Republished rid ∨
    ∃ w worker, s.workers w = some worker ∧ rid ∈ worker.stage.lists

/-- A reconnect runs behind the lock, and has yet to publish the ids. -/
structure Held (s : Session) (w : WorkerId) (left : List Text) : Prop where
  filed : s.Filed
  mine : ∃ worker, s.workers w = some worker ∧ worker.purpose.locks = true
  others : ∀ v worker, v ≠ w → s.workers v = some worker →
    (worker.purpose.locks = true ∨ ∃ outcome, worker.stage = .ended outcome) ∧ worker.stage.lockPhase ≠ .inside
  owed : s.replyQueueOpen = true → ∀ rid, s.Owed rid → s.Republished rid ∨ rid ∈ left

def Unheld (s : Session) (w : WorkerId) : Prop := ∀ v worker, v ≠ w → s.workers v = some worker →
  worker.purpose.locks = true → worker.stage.lockPhase ≠ .inside

/-- The worker has come to its next await; if it has returned, nothing is forgotten. -/
def Settles (s : Session) (w : WorkerId) : Prop :=
  s.Covered ∧ ∀ purpose, s.workers w = some ⟨purpose, .ended (.ok ())⟩ → s.Remembers

/-- What the next publish that is wanted raises at its call. -/
def startRaises (s : Session) (m : Remainder) : Option Exc :=
  (m.left.find? fun entry => s.correlation.contains entry.1 && entry.1 ∉ m.answered).bind fun (rid, parked) =>
    match startPublish s.nextCall (parked.readdressed s.replyQueue rid).args s.link.client.conn with
    | .error exc _ => some exc
    | .ok .. => none

/-- While there is a reply queue the next publish raises nothing at its call but a refusal; without one the reconnect
returns only if all that is owed is refused. -/
structure MayPublish (s : Session) (m : Remainder) : Prop where
  raises : ∀ exc, s.startRaises m = some exc → exc.isPublishRefusal = true ∨ s.replyQueue = none
  returns : (∀ entry ∈ m.left, s.correlation.contains entry.1 = true → entry.1 ∈ m.answered ∨ s.Blocked) →
    s.replyQueue = none → ∀ rid, s.Owed rid → rid ∈ m.answered ∨ s.Blocked ∧ rid ∈ m.left.map Prod.fst

end Session

/-- The state that the parked publishes depend on, but for the reply queue and the workers. -/
structure Post where
  client : Client
  previous : List Link
  nextCall : CallId
  published : List (Nat × PublishArgs)
  requests : RequestId → Option Request
  parked : Dict Text ParkedPublish
  pending : Dict Text RequestId

def Session.post (s : Session) : Post where
  client := s.link.client
  previous := s.previous
  nextCall := s.nextCall
  published := s.published
  requests := s.requests
  parked := s.parked
  pending := s.correlation.pending

/-- Entries go, publishes are recorded and calls go on, but for a loss, that closes the queue. -/
structure Retains (s s' : Session) : Prop where
  queue : s'.replyQueue = s.replyQueue ∧ s'.started = s.started ∨ s'.replyQueue = none ∧ s'.started = false
  epoch : s'.epoch = s.epoch
  previous : ∀ id, (∀ link ∈ s.previous, link.client.fresh id = true) → ∀ link ∈ s'.previous, link.client.fresh id = true
  current : ∀ id, id < s.nextCall → s.link.client.fresh id = true → s'.link.client.fresh id = true
  nextCall : s.nextCall ≤ s'.nextCall
  published : ∀ entry ∈ s.published, entry ∈ s'.published
  asking : ∀ r rid method call envelope, s'.requests r = some ⟨rid, method, .publishing call envelope⟩ →
    s.requests r = some ⟨rid, method, .publishing call envelope⟩
  ids : KeepsIds s s'
  parked : ∀ rid, s'.parked.contains rid = true → s.parked.contains rid = true
  pending : ∀ rid, s'.correlation.contains rid = true → s.correlation.contains rid = true

section Retaining

variable {s s' s'' : Session} {w : WorkerId} {rid : Text} {left : List Text} {stage : Stage}

theorem Retains.of_post (hqueue : s'.replyQueue = s.replyQueue ∧ s'.started = s.started ∨
    s'.replyQueue = none ∧ s'.started = false) (h : s'.post = s.post) : Retains s s' := by
  have hrequests : s'.requests = s.requests := congrArg Post.requests h
  have hprevious : s'.previous = s.previous := congrArg Post.previous h
  have hclient : s'.link.client = s.link.client := congrArg Post.client h
  refine ⟨hqueue, congrArg List.length hprevious, fun call => ?_,
    fun call _ => ?_, (congrArg Post.nextCall h).ge, fun entry => ?_, fun r rid method call envelope => ?_,
    fun r request hrequest => ⟨request, (congrFun hrequests r).trans hrequest, rfl⟩, fun rid => ?_, fun rid => ?_⟩
  · rw [hprevious]
    exact id
  · rw [hclient]
    exact id
  · rw [show s'.published = s.published from congrArg Post.published h]
    exact id
  · rw [hrequests]
    exact id
  · rw [show s'.parked = s.parked from congrArg Post.parked h]
    exact id
  · rw [CorrelationTable.contains, show s'.correlation.pending = s.correlation.pending from congrArg Post.pending h]
    exact id

theorem Retains.refl (s : Session) : Retains s s := .of_post (.inl ⟨rfl, rfl⟩) rfl

theorem Retains.trans (h : Retains s s') (h' : Retains s' s'') : Retains s s'' where
  queue := by
    rcases h'.queue with ⟨hqueue, hstarted⟩ | hclosed
    · rw [hqueue, hstarted]
      exact h.queue
    · exact .inr hclosed
  epoch := h'.epoch.trans h.epoch
  previous id hfresh := h'.previous id (h.previous id hfresh)
  current id hid hfresh := h'.current id (Nat.lt_of_lt_of_le hid h.nextCall) (h.current id hid hfresh)
  nextCall := h.nextCall.trans h'.nextCall
  published entry hentry := h'.published entry (h.published entry hentry)
  asking r rid method call envelope hrequest := h.asking r rid method call envelope (h'.asking r rid method call envelope hrequest)
  ids r request hrequest := by
    obtain ⟨request', hrequest', hrid⟩ := h.ids r request hrequest
    obtain ⟨request'', hrequest'', hrid'⟩ := h'.ids r request' hrequest'
    exact ⟨request'', hrequest'', hrid'.trans hrid⟩
  parked rid hparked := h.parked rid (h'.parked rid hparked)
  pending rid hpending := h.pending rid (h'.pending rid hpending)

theorem Retains.owed (h : Retains s s') (howed : s'.Owed rid) : s.Owed rid :=
  ⟨h.parked rid howed.1, h.pending rid howed.2⟩

theorem Retains.queue_of_some (h : Retains s s') {queue : Text} (hqueue : s'.replyQueue = some queue) :
    s.replyQueue = some queue ∧ s'.started = s.started := by
  rcases h.queue with ⟨hsame, hstarted⟩ | ⟨hnone, -⟩
  · exact ⟨hsame.symm.trans hqueue, hstarted⟩
  · rw [hnone] at hqueue
    cases hqueue

theorem Retains.addressed (h : Retains s s') {args : PublishArgs} (haddressed : s.Addressed rid args) :
    s'.Addressed rid args :=
  fun queue hqueue => haddressed queue (h.queue_of_some hqueue).1

theorem Retains.opened (h : Retains s s') (hopen : s'.replyQueueOpen = true) :
    s.replyQueueOpen = true ∧ s'.replyQueue = s.replyQueue := by
  obtain ⟨hsome, hstarted⟩ := Bool.and_eq_true_iff.mp hopen
  obtain ⟨queue, hqueue⟩ := Option.isSome_iff_exists.mp hsome
  obtain ⟨hbefore, hsame⟩ := h.queue_of_some hqueue
  refine ⟨?_, hqueue.trans hbefore.symm⟩
  rw [Session.replyQueueOpen, hbefore, ← hsame, hstarted]
  rfl

theorem Retains.republished (h : Retains s s') (hqueue : s'.replyQueue = s.replyQueue) (hrid : s.Republished rid) :
    s'.Republished rid := by
  obtain ⟨queue, args, hsome, hmem, haddressed⟩ := hrid
  exact ⟨queue, args, hqueue.trans hsome, h.epoch ▸ h.published _ hmem, haddressed⟩

theorem Retains.started (h : Retains s s') (hstarted : s.started = false) : s'.started = false :=
  h.queue.elim (fun hsame => hsame.2.trans hstarted) And.right

theorem Session.Filed.of_retains (hs : s.Filed) (h : Retains s s') : s'.Filed where
  asked r rid method call envelope hrequest := by
    obtain ⟨hlt, hcall⟩ := hs.asked r rid method call envelope (h.asking r rid method call envelope hrequest)
    exact ⟨Nat.lt_of_lt_of_le hlt h.nextCall, hcall.imp (h.current call hlt) h.addressed⟩
  known rid hparked := by
    obtain ⟨r, request, hrequest, hrid⟩ := hs.known rid (h.parked rid hparked)
    obtain ⟨request', hrequest', hsame⟩ := h.ids r request hrequest
    exact ⟨r, request', hrequest', hsame.trans hrid⟩

theorem Retains.allows (h : Retains s s') (hs : s.Filed) (hallows : s.Allows stage) : s'.Allows stage := by
  cases stage with
  | stoppingReply | closingConn => exact h.started hallows
  | opening =>
    refine ⟨h.started hallows.1, fun r rid method call envelope hrequest => ?_⟩
    have hbefore := h.asking r rid method call envelope hrequest
    exact h.current call (hs.asked r rid method call envelope hbefore).1 (hallows.2 r rid method call envelope hbefore)
  | republishing call rid envelope rest =>
    obtain ⟨haddressed, hfresh, hstarted⟩ := hallows
    refine ⟨h.addressed haddressed, h.previous call hfresh, fun hsome => ?_⟩
    obtain ⟨queue, hqueue⟩ := Option.ne_none_iff_exists'.mp hsome
    obtain ⟨hbefore, hsame⟩ := h.queue_of_some hqueue
    rw [hsame]
    exact hstarted (by simp [hbefore])
  | _ => trivial

theorem allows_of_outside (h : stage.lockPhase ≠ .inside) : s.Allows stage := by
  cases stage with
  | stoppingReply | closingConn | opening | republishing => exact absurd rfl h
  | _ => trivial

theorem lists_of_outside (h : stage.lockPhase ≠ .inside) : stage.lists = [] := by
  cases stage with
  | republishing => exact absurd rfl h
  | _ => rfl

/-- The workers behind the lock go on waiting, and no other comes there. -/
theorem Session.Covered.of_retains (hs : s.Covered) (h : Retains s s')
    (hnew : ∀ v worker, s'.workers v = some worker → s.workers v = some worker ∨
      worker.purpose.locks = true ∧ worker.stage.lockPhase ≠ .inside ∨ ∃ outcome, worker.stage = .ended outcome)
    (hkept : ∀ v worker, s.workers v = some worker → worker.stage.lockPhase = .inside → s'.workers v = some worker) :
    s'.Covered where
  filed := hs.filed.of_retains h
  reconnects v worker hworker := by
    rcases hnew v worker hworker with hbefore | ⟨hlocks, -⟩ | hended
    · exact hs.reconnects v worker hbefore
    · exact .inl hlocks
    · exact .inr hended
  staged v worker hworker := by
    rcases hnew v worker hworker with hbefore | ⟨-, hphase⟩ | ⟨outcome, hended⟩
    · exact h.allows hs.filed (hs.staged v worker hbefore)
    · exact allows_of_outside hphase
    · rw [hended]
      trivial
  owed hopen rid howed := by
    obtain ⟨hbefore, hqueue⟩ := h.opened hopen
    rcases hs.owed hbefore rid (h.owed howed) with hrepublished | ⟨v, worker, hworker, hlists⟩
    · exact .inl (h.republished hqueue hrepublished)
    · refine .inr ⟨v, worker, hkept v worker hworker ?_, hlists⟩
      by_contra houtside
      rw [lists_of_outside houtside] at hlists
      cases hlists

theorem Session.Covered.of_same_workers (hs : s.Covered) (h : Retains s s') (hworkers : s'.workers = s.workers) : s'.Covered := by
  refine hs.of_retains h (fun v worker hworker => .inl ?_) fun v worker hworker _ => ?_
  · rwa [← hworkers]
  · rwa [hworkers]

theorem Session.Held.of_retains (hs : s.Held w left) (h : Retains s s') (hworkers : s'.workers = s.workers) :
    s'.Held w left where
  filed := hs.filed.of_retains h
  mine := hworkers ▸ hs.mine
  others := hworkers ▸ hs.others
  owed hopen rid howed := by
    obtain ⟨hbefore, hqueue⟩ := h.opened hopen
    exact (hs.owed hbefore rid (h.owed howed)).imp_left (h.republished hqueue)

/-! ### What retains -/

theorem retains_call (s : Session) (owner : Option Owner) (op : Operation) : Retains s (s.call owner op) := by
  refine ⟨.inl ⟨rfl, rfl⟩, rfl, fun _ hfresh => hfresh, fun id hid hfresh => ?_, Nat.le_succ _, fun _ hmem => hmem,
    fun _ _ _ _ _ hrequest => hrequest, fun _ request hrequest => ⟨request, hrequest, rfl⟩, fun _ hparked => hparked,
    fun _ hpending => hpending⟩
  have hne : some s.nextCall ≠ some id := fun heq => hid.ne (Option.some.inj heq).symm
  exact (fresh_of_turns (turns_call s.link.client op s.nextCall).1 hne).trans hfresh

theorem retains_forgetPublish (s : Session) (rid : Text) : Retains s (s.forgetPublish rid) :=
  ⟨.inl ⟨rfl, rfl⟩, rfl, fun _ hfresh => hfresh, fun _ _ hfresh => hfresh, le_rfl, fun _ hmem => hmem,
    fun _ _ _ _ _ hrequest => hrequest, fun _ request hrequest => ⟨request, hrequest, rfl⟩,
    fun _ hparked => (Dict.contains_of_erase hparked).2, fun _ hpending => hpending⟩

theorem retains_complete (s : Session) (rid : Text) (outcome : Except Exc IncomingMessage) :
    Retains s { s with correlation := s.correlation.complete rid outcome } :=
  ⟨.inl ⟨rfl, rfl⟩, rfl, fun _ hfresh => hfresh, fun _ _ hfresh => hfresh, le_rfl, fun _ hmem => hmem,
    fun _ _ _ _ _ hrequest => hrequest, fun _ request hrequest => ⟨request, hrequest, rfl⟩, fun _ hparked => hparked,
    fun _ hpending => (Dict.contains_of_erase hpending).2⟩

theorem retains_failPublish (s : Session) (rid : Text) (e : Exc) : Retains s (s.failPublish rid e) :=
  (retains_complete s rid (.error e)).trans (retains_forgetPublish _ rid)

theorem retains_discardAll (s : Session) (e : Exc) : Retains s (s.discardAll e) := by
  refine ⟨.inl ⟨rfl, rfl⟩, rfl, fun _ hfresh => hfresh, fun _ _ hfresh => hfresh, le_rfl, fun _ hmem => hmem,
    fun _ _ _ _ _ hrequest => hrequest, fun _ request hrequest => ⟨request, hrequest, rfl⟩, fun _ hparked => ?_,
    fun _ hpending => ?_⟩
  · cases hparked
  · cases hpending

theorem retains_recordPublish (s : Session) (epoch : Nat) (envelope : ParkedPublish) :
    Retains s (s.recordPublish epoch envelope) :=
  ⟨.inl ⟨rfl, rfl⟩, rfl, fun _ hfresh => hfresh, fun _ _ hfresh => hfresh, le_rfl, fun _ hmem => List.mem_append_left _ hmem,
    fun _ _ _ _ _ hrequest => hrequest, fun _ request hrequest => ⟨request, hrequest, rfl⟩, fun _ hparked => hparked,
    fun _ hpending => hpending⟩

theorem retains_release (s : Session) (w : WorkerId) : Retains s (s.release w) := by
  unfold Session.release
  split
  · exact .of_post (.inl ⟨rfl, rfl⟩) rfl
  · exact .refl s

theorem retains_setLoop (s : Session) (l : LoopId) (stage : LoopStage) : Retains s (s.setLoop l stage) :=
  .of_post (.inl ⟨rfl, rfl⟩) rfl

end Retaining

end Nuropb.Sessions
