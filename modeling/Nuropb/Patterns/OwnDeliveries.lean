import Nuropb.Library.Rounds
import Nuropb.Library.Transition
import Nuropb.Patterns.Serving
import Nuropb.Patterns.SharedConnection

/-! # Servers serve their own deliveries

Every delivery that has come to a shared connection is passed to the server whose consumer it answers, and settled on
its channel, as long as each loop that finds one in the queue finds one of its own, and can answer it.
-/
namespace Nuropb.Patterns

open Library Protocol Transport

/-- The message answers the `basic_consume` of the server. -/
def Dispatch.Own (hosts : Nat → Host) (x : Dispatch) : Prop :=
  x.delivered.channel = (hosts x.host).server.channelId ∧ x.delivered.msg.consumerTag = x.consumerTag

instance (hosts : Nat → Host) (x : Dispatch) : Decidable (x.Own hosts) :=
  inferInstanceAs (Decidable (_ ∧ _))

def SettlesOn (channel : Int) (deliveryTag : Nat) (frame : Frame) : Prop :=
  IsMethod channel (.basicAck deliveryTag false) frame ∨
    ∃ requeue, IsMethod channel (.basicNack deliveryTag false requeue) frame

def LoopState.current (k : Nat) : LoopState → List Dispatch
  | .handling consumerTag d => [⟨k, consumerTag, d⟩]
  | _ => []

section Serving

variable (stack : Nat) (jwt : JwtDecode) (hosts : Nat → Host)

def Calls (x : Dispatch) (call : HandlerCall) : Prop :=
  call.host = x.host ∧ ∃ requestId, Admitted stack jwt (hosts x.host).server (x.delivered.round (.ok .none))
    call.method call.params requestId

/-- Each delivery that has come is in the queue, or has been passed to the server that it is for, in their order; the
handlers have been called for the requests among them; and each is settled once on its channel, unless the server is
still waiting for its handler. -/
structure ServesOwn (s : Shared) : Prop where
  passed : s.arrived = s.handled.map Dispatch.delivered ++ s.deliveries.items.filterMap id
  own : ∀ x ∈ s.handled, x.Own hosts
  called : Picks (Calls stack jwt hosts) s.handled s.calls
  settled : ∀ k, s.handled.filter (·.host = k) = (s.settled.map Settled.dispatch).filter (·.host = k) ++ (s.loops k).current k
  frames : ∀ x ∈ s.settled, SettlesOn x.dispatch.delivered.channel x.dispatch.delivered.msg.deliveryTag x.frame

/-- The channel of the server is open, and its answer to the delivery can be sent. -/
def Shared.CanSettle (s : Shared) (k : Nat) (d : Delivered) (result : Except Exc PyVal) : Prop :=
  s.tasks.conn.channels.get? (hosts k).server.channelId = some .open ∧
    Answerable stack jwt (hosts k).server (d.round result) s.tasks.conn

/-- The delivery is the server's own, and if it does not call the handler, its answer can be sent. -/
def Shared.CanServe (s : Shared) (k : Nat) (consumerTag : Text) (d : Delivered) : Prop :=
  Dispatch.Own hosts ⟨k, consumerTag, d⟩ ∧
    ((∃ call, Calls stack jwt hosts ⟨k, consumerTag, d⟩ call) ∨ s.CanSettle stack jwt hosts k d (.ok .none))

/-- A loop that finds a message in the queue can serve it, and settle it when its handler has returned. -/
def servesNext (s : Shared) : SharedEvent → Prop
  | .look k => ∀ consumerTag d rest, s.loops k = .looking consumerTag → s.tasks.conn.lost = none →
      s.deliveries.items = some d :: rest → s.CanServe stack jwt hosts k consumerTag d
  | .wake k => ∀ consumerTag d rest, s.loops k = .receiving consumerTag → k ∈ s.deliveries.woken →
      s.deliveries.items = some d :: rest → s.CanServe stack jwt hosts k consumerTag d
  | .handled k result => ∀ consumerTag d, s.loops k = .handling consumerTag d → s.CanSettle stack jwt hosts k d result
  | _ => True

end Serving

section Settling

variable {channel : Int} {deliveryTag : Nat} {conn conn' conn'' : Conn} {frame : Frame}

def SettlesNone (conn conn' : Conn) : Prop :=
  ∃ more, conn'.written = conn.written ++ more ∧ ∀ s ∈ more, isSettlement s.frame = false

theorem SettlesNone.trans (h : SettlesNone conn conn') (h' : SettlesNone conn' conn'') : SettlesNone conn conn'' := by
  obtain ⟨more, hwritten, hmore⟩ := h
  obtain ⟨more', hwritten', hmore'⟩ := h'
  refine ⟨more ++ more', by rw [hwritten', hwritten, List.append_assoc], ?_⟩
  intro s hs
  rcases List.mem_append.mp hs with hs | hs
  · exact hmore s hs
  · exact hmore' s hs

theorem SettlesNone.settlementsSince (h : SettlesNone conn conn') : settlementsSince conn conn' = [] := by
  obtain ⟨more, hwritten, hmore⟩ := h
  rw [Patterns.settlementsSince, hwritten, List.drop_left, List.filter_eq_nil_iff]
  intro frame hframe
  obtain ⟨s, hs, rfl⟩ := List.mem_map.mp hframe
  simp [hmore s hs]

theorem isSettlement_of_methodIds {ids : MethodId} (h : frame.methodIds = some ids) :
    isSettlement frame = decide (ids = (60, 80) ∨ ids = (60, 90) ∨ ids = (60, 120)) := by
  simp [isSettlement, h, Bool.or_assoc]

theorem methodIds_of_isMethod {method : Method} (h : IsMethod channel method frame) : frame.methodIds = some method.ids := by
  obtain ⟨payload, hpayload, rfl⟩ := h
  exact methodIds_of_encodeMethod hpayload

variable {stack : Nat} {jwt : JwtDecode} {server : RpcServer} {round : Round} {caller : CallId}

theorem respond_conn {result : Except Exc PyVal} (hhandler : round.handler = fun _ _ => lift result) (s : Serving) :
    (resultState (server.respond stack jwt round s)).conn = s.conn := by
  have hkeeps : Keeps (fun s t : Serving => t.conn = s.conn) (server.respond stack jwt round) := by
    refine keeps_bind (fun _ _ _ h h' => h'.trans h) ?_ fun admitted => ?_
    · exact keeps_lift (R := fun s t : Serving => t.conn = s.conn) (fun _ => rfl) _
    · refine keeps_bind (fun _ _ _ h h' => h'.trans h) ?_ fun _ => ?_
      · refine keeps_bind (fun _ _ _ h h' => h'.trans h) (keeps_modify fun _ => rfl) fun _ => ?_
        intro t
        rw [hhandler, onConn]
        cases result <;> rfl
      · exact keeps_lift (R := fun s t : Serving => t.conn = s.conn) (fun _ => rfl) _
  exact hkeeps s

theorem filter_settlement (h : SettlesOn channel deliveryTag frame) : [frame].filter isSettlement = [frame] := by
  have hsettles : isSettlement frame = true := by
    rcases h with h | ⟨requeue, h⟩
    · rw [isSettlement_of_methodIds (methodIds_of_isMethod h)]
      rfl
    · rw [isSettlement_of_methodIds (methodIds_of_isMethod h)]
      rfl
  rw [List.filter_singleton, hsettles, cond_true]

theorem filter_reply {corr : Option Text} {replyTo : Text} {frames : List Frame} (h : IsReply stack channel corr replyTo frames) :
    frames.filter isSettlement = [] := by
  obtain ⟨entries, body, properties, header, chunks, first, -, -, hfirst, -, -, rfl⟩ := h
  rw [List.filter_eq_nil_iff]
  intro f hf
  rcases List.mem_cons.mp hf with rfl | hf
  · rw [isSettlement_of_methodIds (methodIds_of_isMethod hfirst)]
    simp [Method.ids]
  · rcases List.mem_cons.mp hf with rfl | hf
    · simp [isSettlement, Frame.methodIds]
    · obtain ⟨chunk, -, rfl⟩ := List.mem_map.mp hf
      simp [isSettlement, Frame.methodIds]

theorem settlements_of_settles {frames : List Frame} (h : Settles stack channel round frames) :
    ∃ frame, frames.filter isSettlement = [frame] ∧ SettlesOn channel round.msg.deliveryTag frame := by
  cases h with
  | nacked hnack => exact ⟨_, filter_settlement (.inr ⟨_, hnack⟩), .inr ⟨_, hnack⟩⟩
  | acked hnowhere hack => exact ⟨_, filter_settlement (.inl hack), .inl hack⟩
  | replied hreplyTo hreply hack =>
    refine ⟨_, ?_, .inl hack⟩
    rw [List.filter_append, filter_reply hreply, List.nil_append]
    exact filter_settlement (.inl hack)

theorem respond_run (stack : Nat) (jwt : JwtDecode) (server : RpcServer) (d : Delivered) (result : Except Exc PyVal) (conn : Conn) : ∃ outcome ended,
    observe (server.respond stack jwt (d.round result)) ⟨conn, []⟩ = .ok outcome ended ∧ ended.conn = conn := by
  obtain ⟨outcome, hobserve⟩ := observe_state (server.respond stack jwt (d.round result)) ⟨conn, []⟩
  exact ⟨outcome, _, hobserve, respond_conn rfl ⟨conn, []⟩⟩

/-- An answer that can be sent settles the delivery once. -/
theorem handle_settles {d : Delivered} {result : Except Exc PyVal} (caller : CallId)
    (hopen : conn.channels.get? server.channelId = some .open)
    (h : Answerable stack jwt server (d.round result) conn) : ∃ handled frame,
      server.handle stack jwt caller (d.round result) ⟨conn, []⟩ = .ok () handled ∧
        settlementsSince conn handled.conn = [frame] ∧ SettlesOn server.channelId d.msg.deliveryTag frame := by
  obtain ⟨outcome, ended, hobserve, rfl⟩ := respond_run stack jwt server d result conn
  obtain ⟨frames, hsettles, hhandle⟩ := handle_of_answerable caller hobserve hopen ((answerable_iff hobserve).mp h)
  obtain ⟨frame, hone, hframe⟩ := settlements_of_settles hsettles
  refine ⟨_, frame, hhandle, ?_, hframe⟩
  have hframes : frames.map (Sent.frame ∘ Sent.mk (some caller)) = frames := List.map_id frames
  rw [settlementsSince, Conn.append_written, List.drop_left, List.map_map, hframes, hone]

end Settling

/-! ## Runs -/

section Steps

variable {stack : Nat} {jwt : JwtDecode} {hosts : Nat → Host} {s s' : Shared} {k : Nat} {consumerTag : Text}
  {d : Delivered} {result : Except Exc PyVal}

/-- `_handle` settles the delivery, and its loop goes on to the drain. -/
theorem serve_of_canSettle (h : s.CanSettle stack jwt hosts k d result) : ∃ (tasks : Machine) (frame : Frame),
    s.serve stack jwt hosts k consumerTag d result =
        { s with tasks, settled := s.settled ++ [Settled.mk ⟨k, consumerTag, d⟩ frame] }.setLoop k (.draining consumerTag) ∧
      SettlesOn (hosts k).server.channelId d.msg.deliveryTag frame := by
  obtain ⟨handled, frame, hhandle, hone, hframe⟩ := handle_settles k h.1 h.2
  refine ⟨s.tasks.setConn handled.conn, frame, ?_, hframe⟩
  unfold Shared.serve
  generalize (hosts k).server.handle stack jwt k (d.round result) ⟨s.tasks.conn, []⟩ = run at hhandle ⊢
  subst hhandle
  simp only [resultState, hone, List.map_cons, List.map_nil]

theorem calls_of_accept {method requestId : Text} {params : PyVal}
    (h : (hosts k).server.accept stack jwt (d.round (.ok .none)) = .ok (method, params, requestId)) :
    Calls stack jwt hosts ⟨k, consumerTag, d⟩ ⟨k, method, params⟩ :=
  ⟨rfl, requestId, admitted_of_accept h⟩

theorem not_calls_of_accept (consumerTag : Text) {e : Exc} (h : (hosts k).server.accept stack jwt (d.round (.ok .none)) = .error e)
    (call : HandlerCall) : ¬Calls stack jwt hosts ⟨k, consumerTag, d⟩ call := by
  rintro ⟨-, requestId, hadmitted⟩
  rw [accept_of_admitted hadmitted] at h
  cases h

theorem ServesOwn.setLoop (h : ServesOwn stack jwt hosts s) {loop : LoopState} (hidle : (s.loops k).current k = loop.current k) :
    ServesOwn stack jwt hosts (s.setLoop k loop) where
  passed := h.passed
  own := h.own
  called := h.called
  settled j := by
    refine (h.settled j).trans ?_
    by_cases hj : j = k
    · subst hj
      simp [Shared.setLoop, hidle]
    · simp [Shared.setLoop, hj]
  frames := h.frames

theorem ServesOwn.queue (h : ServesOwn stack jwt hosts s) (deliveries : AsyncQueue Nat (Option Delivered))
    (hitems : deliveries.items.filterMap id = s.deliveries.items.filterMap id) :
    ServesOwn stack jwt hosts { s with deliveries } where
  passed := by
    rw [hitems]
    exact h.passed
  own := h.own
  called := h.called
  settled := h.settled
  frames := h.frames

theorem absorb_passed (s : Shared) (channel : Int) (tasks : Machine) : ∃ emitted deliveries,
    s.absorb channel tasks = { s with tasks, arrived := s.arrived ++ emitted, deliveries } ∧
      deliveries.items.filterMap id = s.deliveries.items.filterMap id ++ emitted := by
  have hqueued (emitted : List Delivered) (q : AsyncQueue Nat (Option Delivered)) :
      (emitted.foldl (fun q d => q.put (some d)) q).items.filterMap id = q.items.filterMap id ++ emitted := by
    rw [AsyncQueue.items_foldl_put, List.filterMap_append, List.filterMap_map]
    simp
  unfold Shared.absorb
  dsimp only
  split
  · refine ⟨_, _, rfl, ?_⟩
    rw [AsyncQueue.items_put, List.filterMap_append, hqueued]
    simp
  · exact ⟨_, _, rfl, hqueued _ _⟩

theorem ServesOwn.absorb (h : ServesOwn stack jwt hosts s) (channel : Int) (tasks : Machine) :
    ServesOwn stack jwt hosts (s.absorb channel tasks) := by
  obtain ⟨emitted, deliveries, heq, hitems⟩ := absorb_passed s channel tasks
  rw [heq]
  exact ⟨by rw [hitems, h.passed, List.append_assoc], h.own, h.called, h.settled, h.frames⟩

/-- A server that is handling a delivery settles it, and only it. -/
theorem serve_keeps (h : ServesOwn stack jwt hosts (s.setLoop k (.handling consumerTag d)))
    (hsettle : s.CanSettle stack jwt hosts k d result) :
    ServesOwn stack jwt hosts (s.serve stack jwt hosts k consumerTag d result) := by
  obtain ⟨tasks, frame, heq, hframe⟩ : ∃ (tasks : Machine) (frame : Frame),
    s.serve stack jwt hosts k consumerTag d result =
        { s with tasks, settled := s.settled ++ [Settled.mk ⟨k, consumerTag, d⟩ frame] }.setLoop k (.draining consumerTag) ∧
      SettlesOn (hosts k).server.channelId d.msg.deliveryTag frame := serve_of_canSettle hsettle
  have hhandling : s.handled.filter (·.host = k) =
      (s.settled.map Settled.dispatch).filter (·.host = k) ++ [⟨k, consumerTag, d⟩] := by
    simpa [Shared.setLoop, LoopState.current] using h.settled k
  have hmem : ⟨k, consumerTag, d⟩ ∈ s.handled := by
    have hlast : ⟨k, consumerTag, d⟩ ∈ s.handled.filter (·.host = k) := by
      rw [hhandling]
      simp
    exact (List.mem_filter.mp hlast).1
  rw [heq]
  refine ⟨h.passed, h.own, h.called, ?_, ?_⟩
  · intro j
    by_cases hj : j = k
    · subst hj
      simpa [Shared.setLoop, LoopState.current] using hhandling
    · have hother := h.settled j
      have hne : k ≠ j := fun heq => hj heq.symm
      simpa [Shared.setLoop, hj, hne] using hother
  · intro x hx
    rcases List.mem_append.mp hx with hx | hx
    · exact h.frames x hx
    · obtain rfl := List.mem_singleton.mp hx
      have hown := (h.own _ hmem).1
      rw [hown]
      exact hframe

theorem take_admitted {method requestId : Text} {params : PyVal} (consumerTag : Text)
    (h : (hosts k).server.accept stack jwt (d.round (.ok .none)) = .ok (method, params, requestId)) :
    s.take stack jwt hosts k consumerTag d =
      { s with
        handled := s.handled ++ [Dispatch.mk k consumerTag d]
        calls := s.calls ++ [HandlerCall.mk k method params] }.setLoop k (.handling consumerTag d) := by
  unfold Shared.take
  rw [h]

theorem take_refused {e : Exc} (consumerTag : Text)
    (h : (hosts k).server.accept stack jwt (d.round (.ok .none)) = .error e) :
    s.take stack jwt hosts k consumerTag d =
      { s with handled := s.handled ++ [Dispatch.mk k consumerTag d] }.serve stack jwt hosts k consumerTag d (.ok .none) := by
  unfold Shared.take
  rw [h]

/-- The first delivery of the queue is passed to a server that has nothing to handle. -/
theorem passed_next (deliveries : AsyncQueue Nat (Option Delivered)) {calls : List HandlerCall} (h : ServesOwn stack jwt hosts s)
    (hidle : (s.loops k).current k = [])
    (hitems : s.deliveries.items.filterMap id = d :: deliveries.items.filterMap id)
    (hown : Dispatch.Own hosts ⟨k, consumerTag, d⟩) (hcalls : Picks (Calls stack jwt hosts) [⟨k, consumerTag, d⟩] calls) :
    ServesOwn stack jwt hosts ({ s with
      deliveries
      handled := s.handled ++ [Dispatch.mk k consumerTag d]
      calls := s.calls ++ calls }.setLoop k (.handling consumerTag d)) where
  passed := by
    have hpassed := h.passed
    rw [hitems] at hpassed
    simpa [Shared.setLoop, List.append_assoc] using hpassed
  own x hx := by
    rcases List.mem_append.mp hx with hx | hx
    · exact h.own x hx
    · obtain rfl := List.mem_singleton.mp hx
      exact hown
  called := h.called.append hcalls
  settled j := by
    have hbefore := h.settled j
    by_cases hj : j = k
    · subst hj
      rw [hidle, List.append_nil] at hbefore
      simp [Shared.setLoop, LoopState.current, hbefore]
    · have hne : k ≠ j := fun heq => hj heq.symm
      simpa [Shared.setLoop, hj, hne] using hbefore
  frames := h.frames

theorem take_keeps {deliveries : AsyncQueue Nat (Option Delivered)} (h : ServesOwn stack jwt hosts s)
    (hidle : (s.loops k).current k = [])
    (hitems : s.deliveries.items.filterMap id = d :: deliveries.items.filterMap id)
    (hserve : s.CanServe stack jwt hosts k consumerTag d) :
    ServesOwn stack jwt hosts ({ s with deliveries }.take stack jwt hosts k consumerTag d) := by
  obtain ⟨hown, hanswer⟩ := hserve
  rcases ok_or_error ((hosts k).server.accept stack jwt (d.round (.ok .none))) with
    ⟨⟨method, params, requestId⟩, haccept⟩ | ⟨e, haccept⟩
  · rw [take_admitted consumerTag haccept]
    have hpassed := passed_next deliveries h hidle hitems hown (.pick (calls_of_accept haccept) .nil)
    exact hpassed
  · have hnone := fun call => not_calls_of_accept consumerTag haccept call
    have hsettle := hanswer.resolve_left fun ⟨call, hcall⟩ => hnone call hcall
    have hpassed := passed_next deliveries h hidle hitems hown (.skip hnone .nil)
    rw [List.append_nil] at hpassed
    rw [take_refused consumerTag haccept]
    exact serve_keeps hpassed hsettle

theorem looked_keeps {q : AsyncQueue Nat (Option Delivered)} (h : ServesOwn stack jwt hosts s)
    (hidle : (s.loops k).current k = []) (hq : q.items = s.deliveries.items)
    (hserve : ∀ d rest, s.deliveries.items = some d :: rest → s.CanServe stack jwt hosts k consumerTag d) :
    ServesOwn stack jwt hosts (s.looked stack jwt hosts k consumerTag (q.get k)) := by
  unfold AsyncQueue.get
  split
  · rename_i hitems
    have hqueue := h.queue { q with getters := q.getters ++ [k] } (by rw [hq])
    exact hqueue.setLoop hidle
  · rename_i item rest hitems
    rw [hq] at hitems
    cases item with
    | none =>
      have hqueue := h.queue { q with items := rest } (by rw [hitems]; rfl)
      exact hqueue.setLoop hidle
    | some d => exact take_keeps h hidle (by rw [hitems]; rfl) (hserve d rest hitems)

/-- What an event keeps, if the loop that looks at the queue can serve what it finds. -/
theorem ServesOwn.step {e : SharedEvent} (hinv : ServesOwn stack jwt hosts s) (hnext : servesNext stack jwt hosts s e)
    (h : s.step stack jwt hosts e = some s') : ServesOwn stack jwt hosts s' := by
  cases e with
  | task e =>
    obtain ⟨tasks, -, rfl⟩ := Option.map_eq_some_iff.mp h
    exact hinv.absorb _ tasks
  | start k =>
    simp only [Shared.step, Shared.started] at h
    split at h
    · rename_i hloop _ _
      obtain ⟨-, ⟨⟩⟩ := Option.ite_none_right_eq_some.mp h
      exact hinv.setLoop (by rw [hloop]; rfl)
    · cases h
  | look k =>
    simp only [Shared.step] at h
    split at h
    · rename_i hloop _
      cases h
      exact hinv.setLoop (by rw [hloop]; rfl)
    · rename_i tag hloop hlost
      cases h
      refine looked_keeps hinv (by rw [hloop]; rfl) rfl ?_
      intro d rest hitems
      exact hnext tag d rest hloop hlost hitems
    · cases h
  | wake k =>
    simp only [Shared.step] at h
    split at h
    · rename_i tag hloop
      obtain ⟨hwoken, ⟨⟩⟩ := Option.ite_none_right_eq_some.mp h
      refine looked_keeps hinv (by rw [hloop]; rfl) rfl ?_
      intro d rest hitems
      exact hnext tag d rest hloop hwoken hitems
    · cases h
  | handled k result =>
    simp only [Shared.step] at h
    split at h
    · rename_i tag d hloop
      cases h
      refine serve_keeps (hinv.setLoop (by rw [hloop])) (hnext tag d hloop)
    · cases h
  | drained k failure =>
    simp only [Shared.step] at h
    split at h
    · rename_i hloop
      cases h
      exact hinv.setLoop (by rw [hloop]; rfl)
    · rename_i hloop
      cases h
      exact hinv.setLoop (by rw [hloop]; rfl)
    · cases h
  | cancel k =>
    simp only [Shared.step] at h
    split at h
    · rename_i hloop
      cases h
      have hqueue := hinv.queue (s.deliveries.cancel k) (by rw [AsyncQueue.items_cancel])
      exact hqueue.setLoop (by rw [hloop]; rfl)
    · cases h

/-! ## What a server cannot serve -/

end Steps

section Deciding

variable (stack : Nat) (jwt : JwtDecode) (hosts : Nat → Host) (s : Shared)

instance Shared.CanSettle.instDecidable (k : Nat) (d : Delivered) (result : Except Exc PyVal) :
    Decidable (s.CanSettle stack jwt hosts k d result) :=
  decidable_of_iff (s.tasks.conn.channels.get? (hosts k).server.channelId = some .open ∧
    answersNow stack jwt (hosts k).server (d.round result) ⟨s.tasks.conn, []⟩ = true)
    (and_congr_right fun _ => answersNow_iff stack jwt (hosts k).server (d.round result) ⟨s.tasks.conn, []⟩)

theorem exists_calls_iff (k : Nat) (consumerTag : Text) (d : Delivered) :
    (∃ call, Calls stack jwt hosts ⟨k, consumerTag, d⟩ call) ↔
      ((hosts k).server.accept stack jwt (d.round (.ok .none))).toOption.isSome = true := by
  rcases ok_or_error ((hosts k).server.accept stack jwt (d.round (.ok .none))) with
    ⟨⟨method, params, requestId⟩, haccept⟩ | ⟨e, haccept⟩
  · rw [haccept]
    exact iff_of_true ⟨_, calls_of_accept haccept⟩ rfl
  · rw [haccept]
    exact iff_of_false (fun ⟨call, hcall⟩ => not_calls_of_accept consumerTag haccept call hcall) Bool.false_ne_true

instance Shared.CanServe.instDecidable (k : Nat) (consumerTag : Text) (d : Delivered) :
    Decidable (s.CanServe stack jwt hosts k consumerTag d) :=
  haveI := decidable_of_iff _ (exists_calls_iff stack jwt hosts k consumerTag d).symm
  inferInstanceAs (Decidable (_ ∧ (_ ∨ _)))

def servesNow : SharedEvent → Bool
  | .look k =>
    match s.loops k, s.tasks.conn.lost, s.deliveries.items with
    | .looking consumerTag, none, some d :: _ => s.CanServe stack jwt hosts k consumerTag d
    | _, _, _ => true
  | .wake k =>
    match s.loops k, s.deliveries.items with
    | .receiving consumerTag, some d :: _ => k ∉ s.deliveries.woken ∨ s.CanServe stack jwt hosts k consumerTag d
    | _, _ => true
  | .handled k result =>
    match s.loops k with
    | .handling _ d => s.CanSettle stack jwt hosts k d result
    | _ => true
  | _ => true

theorem servesNow_iff (e : SharedEvent) : servesNow stack jwt hosts s e = true ↔ servesNext stack jwt hosts s e := by
  cases e with
  | look k =>
    constructor
    · intro h tag d rest hloop hlost hitems
      simpa [servesNow, hloop, hlost, hitems] using h
    · intro h
      simp only [servesNow]
      split
      · rename_i tag d rest hloop hlost hitems
        exact decide_eq_true (h tag d rest hloop hlost hitems)
      · rfl
  | wake k =>
    constructor
    · intro h tag d rest hloop hwoken hitems
      simpa [servesNow, hloop, hwoken, hitems] using h
    · intro h
      simp only [servesNow]
      split
      · rename_i tag d rest hloop hitems
        by_cases hwoken : k ∈ s.deliveries.woken
        · exact decide_eq_true (.inr (h tag d rest hloop hwoken hitems))
        · exact decide_eq_true (.inl hwoken)
      · rfl
  | handled k result =>
    constructor
    · intro h tag d hloop
      simpa [servesNow, hloop] using h
    · intro h
      simp only [servesNow]
      split
      · rename_i tag d hloop
        exact decide_eq_true (h tag d hloop)
      · rfl
  | _ => exact iff_of_true rfl trivial

instance servesNext.instDecidable (e : SharedEvent) : Decidable (servesNext stack jwt hosts s e) :=
  decidable_of_iff _ (servesNow_iff stack jwt hosts s e)

end Deciding

/-! ## Two servers -/

/-- A first delivery on the channel for the consumer with the letter. -/
def delivers (channel : Int) (letter : UInt8) (body : Bytes) : List SharedEvent :=
  [.task (.frame ⟨.method, channel, [0, 60, 0, 60, 1, letter, 0, 0, 0, 0, 0, 0, 0, 1, 0, 0, 0]⟩),
    .task (.frame ⟨.header, channel, [0, 60, 0, 0, 0, 0, 0, 0, 0, 0, 0, UInt8.ofNat body.length, 0, 0]⟩),
    .task (.frame ⟨.body, channel, body⟩)]

end Nuropb.Patterns
