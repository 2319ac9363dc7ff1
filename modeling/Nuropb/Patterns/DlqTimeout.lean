import Nuropb.Patterns.Consumers
import Nuropb.Transport.Blocking
import Nuropb.Transport.Framing

/-! # The timeout processor

A request that is dead-lettered is replied to with a timeout, and acked. A reply that is due while the broker blocks
publishing ends the loop.
-/
namespace Nuropb.Patterns

open Library Protocol Transport

structure DlqTimeoutProcessor where
  channelId : Int := 1

/-- A dead-lettered delivery, or a frame by which the broker blocks or unblocks publishing. -/
inductive DlqEvent
  | delivered (d : Delivery)
  | notified (frame : Frame)

def Delivery.due (d : Delivery) : Option (Text × Text) :=
  match textOf (d.msg.properties .replyTo), textOf (d.msg.properties .correlationId) with
  | some (c :: rest), some corr => some (c :: rest, corr)
  | _, _ => none

def timeoutProperties (corr : Text) : Properties :=
  (Properties.empty.set .contentType (.str (Text.ofString "application/json"))).set .correlationId (.str corr)

section Processor

variable (stack : Nat) (processor : DlqTimeoutProcessor) (caller : CallId)

def timeoutBody (corr : Text) : Except Exc Bytes :=
  encodeError stack requestTimeout (.str (Text.ofString "request timed out")) (.str corr)
    (.dict (makeErrorData requestTimeout true (some corr) none))

def DlqTimeoutProcessor.replyArgs (replyTo corr : Text) (body : Bytes) : PublishArgs where
  channel := processor.channelId
  body
  routingKey := replyTo
  properties := timeoutProperties corr
  drain := false
  mandatory := true

def DlqTimeoutProcessor.handle (d : Delivery) : ConnM Unit :=
  match d.due with
  | some (replyTo, corr) => do
    let body ← lift (timeoutBody stack corr)
    let _ ← startPublish caller (processor.replyArgs replyTo corr body)
    settleDelivery caller (.basicAck processor.channelId d.msg.deliveryTag) d.drain
  | none => settleDelivery caller (.basicAck processor.channelId d.msg.deliveryTag) d.drain

/-- A delivery is taken and handled; the read loop takes the frames between two deliveries. -/
def DlqTimeoutProcessor.take : DlqEvent → ConnM Unit
  | .delivered d => do
    d.receive
    processor.handle stack caller d
  | .notified frame => processFrame frame

def DlqTimeoutProcessor.loop (events : List DlqEvent) : ConnM Unit := events.forM (processor.take stack caller)

/-- A timeout error to the queue, with the correlation id in the message and in its properties. -/
def IsTimeout (channel : Int) (replyTo corr : Text) (frames : List Frame) : Prop :=
  ∃ (entries error : Table) (body : Bytes) (properties : Properties) (header : Bytes) (chunks : List Bytes)
      (first : Frame),
    encodeObject stack entries = .ok body ∧ lookup (Text.ofString "id") entries = some (.str corr) ∧
      lookup (Text.ofString "error") entries = some (.dict error) ∧
      lookup (Text.ofString "code") error = some (.int requestTimeout) ∧
      properties .correlationId = some (.str corr) ∧
      IsMethod channel (.basicPublish { exchange := [], routingKey := replyTo, mandatory := true }) first ∧
      encodeContentHeader {} 60 body.length properties = .ok header ∧ chunks.flatten = body ∧
      frames = first :: ⟨.header, channel, header⟩ :: chunks.map (Frame.mk .body channel)

/-- What is written for a delivery: its ack, after the reply if one is due. -/
inductive TimesOut (channel : Int) (d : Delivery) : List Frame → Prop
  | acked {frame : Frame} (hnone : d.due = none) (hack : IsMethod channel (.basicAck d.msg.deliveryTag false) frame) :
    TimesOut channel d [frame]
  | replied {replyTo corr : Text} {reply : List Frame} {frame : Frame} (hdue : d.due = some (replyTo, corr))
    (hreply : IsTimeout stack channel replyTo corr reply)
    (hack : IsMethod channel (.basicAck d.msg.deliveryTag false) frame) : TimesOut channel d (reply ++ [frame])

def deliveries (events : List DlqEvent) : List Delivery :=
  events.filterMap fun
    | .delivered d => some d
    | .notified _ => none

/-- The loop comes to its next wait; the frames are those of the deliveries, one after the other. -/
def TimedOut (events : List DlqEvent) (conn conn' : Conn) : Prop :=
  processor.loop stack caller events conn = .ok () conn' ∧
    ∃ parts, List.Forall₂ (TimesOut stack processor.channelId) (deliveries events) parts ∧
      framesBy caller conn conn' = parts.flatten

def ReplyFits (frameMax : Nat) (replyTo corr : Text) : Prop :=
  ∃ body, timeoutBody stack corr = .ok body ∧
    (contentFrames frameMax (processor.replyArgs replyTo corr body) (timeoutProperties corr)).isSome = true

/-- If a reply is due, publishing is not blocked and the reply fits; and the ack fits. -/
structure Delivery.Answerable (frameMax : Nat) (blocked : Bool) (d : Delivery) : Prop where
  reply : ∀ replyTo corr, d.due = some (replyTo, corr) → blocked = false ∧ ReplyFits stack processor frameMax replyTo corr
  ack : d.Ackable frameMax processor.channelId

def nextBlocked (blocked : Bool) : DlqEvent → Bool
  | .delivered _ => blocked
  | .notified frame => (notification frame).getD blocked

/-- Every delivery can be answered when it comes, as the broker has blocked publishing by then or not. -/
def Unhindered (frameMax : Nat) : Bool → List DlqEvent → Prop
  | _, [] => True
  | blocked, .delivered d :: rest => d.Answerable stack processor frameMax blocked ∧ Unhindered frameMax blocked rest
  | blocked, .notified frame :: rest => Unhindered frameMax ((notification frame).getD blocked) rest

end Processor

/-- The connection stays up, and other tasks neither block publishing nor select confirms. -/
structure Quiet (channel : Int) (caller : CallId) (conn conn' : Conn) : Prop extends Calm channel caller conn conn' where
  blocked : conn'.publishBlocked = conn.publishBlocked
  confirms : (conn'.trackerOf channel).enabled = (conn.trackerOf channel).enabled

def StaysQuiet (channel : Int) (caller : CallId) (x : ConnM Unit) : Prop :=
  ∀ conn, ∃ conn', x conn = .ok () conn' ∧ Quiet channel caller conn conn'

def DlqEvent.Live (channel : Int) (caller : CallId) : DlqEvent → Prop
  | .delivered d => StaysQuiet channel caller d.receive ∧ StaysQuiet channel caller d.drain
  | .notified frame => notification frame ≠ none

section Round

variable {stack : Nat} {processor : DlqTimeoutProcessor} {channel : Int} {caller : CallId} {frameMax : Nat}
  {blocked : Bool} {conn conn' : Conn} {d : Delivery} {replyTo corr : Text}

/-- What the next round finds: the channel open, the flag, and no confirms. -/
structure Ready (channel : Int) (frameMax : Nat) (blocked : Bool) (conn : Conn) : Prop where
  isOpen : Open channel frameMax conn
  blocked : conn.publishBlocked = blocked
  unconfirmed : (conn.trackerOf channel).enabled = false

theorem Ready.quiet (h : Ready channel frameMax blocked conn) (hquiet : Quiet channel caller conn conn') :
    Ready channel frameMax blocked conn' :=
  ⟨h.isOpen.calm hquiet.toCalm, hquiet.blocked.trans h.blocked, hquiet.confirms.trans h.unconfirmed⟩

theorem Ready.append (h : Ready channel frameMax blocked conn) (frames : List Frame) :
    Ready channel frameMax blocked (conn.append (some caller) frames) := ⟨h.isOpen, h.blocked, h.unconfirmed⟩

theorem ready_notified {frame : Frame} {view : Bool} (hnotified : notification frame = some view)
    (h : Ready channel frameMax blocked conn) : ∃ conn', processFrame frame conn = .ok () conn' ∧
      conn'.written = conn.written ∧ Ready channel frameMax view conn' := by
  obtain ⟨frameType, on, payload⟩ := frame
  unfold notification at hnotified
  split at hnotified
  · rename_i htype
    obtain rfl : frameType = .method := htype
    unfold processFrame processMethod
    split at hnotified
    · rename_i reason hmethod
      cases hnotified
      refine ⟨{ conn with publishBlocked := true }, ?_, rfl, h.isOpen, rfl, h.unconfirmed⟩
      dsimp only at hmethod ⊢
      rw [hmethod, bind_run_ok (lift_ok _ _)]
      rfl
    · rename_i hmethod
      cases hnotified
      refine ⟨{ conn with publishBlocked := false }, ?_, rfl, h.isOpen, rfl, h.unconfirmed⟩
      dsimp only at hmethod ⊢
      rw [hmethod, bind_run_ok (lift_ok _ _)]
      rfl
    · cases hnotified
  · cases hnotified

theorem quiet_ack (hdrain : StaysQuiet channel caller d.drain) (hready : Ready channel frameMax blocked conn)
    (hack : d.Ackable frameMax channel) : ∃ conn',
      settleDelivery caller (.basicAck channel d.msg.deliveryTag) d.drain conn = .ok () conn' ∧
        Acked channel caller d conn conn' ∧ Ready channel frameMax blocked conn' := by
  obtain ⟨frame, hframe⟩ := Option.isSome_iff_exists.mp hack
  obtain ⟨conn', hrun, hquiet⟩ := hdrain (conn.append (some caller) [frame])
  rw [← hready.isOpen.2] at hframe
  refine ⟨conn', ?_, ⟨frame, isMethod_of_frameOf hframe, hquiet.toCalm.wrote⟩, (hready.append [frame]).quiet hquiet⟩
  rw [← hrun]
  exact settleDelivery_of_some hready.isOpen.1 hframe

theorem contentOf_timeout (hready : Ready processor.channelId frameMax blocked conn) (body : Bytes)
    (hblocked : conn.publishBlocked = false) :
    contentOf conn (processor.replyArgs replyTo corr body) .call = some (timeoutProperties corr, false) := by
  have hchecked : conn.channels.get? (processor.replyArgs replyTo corr body).channel = some .open ∧
      conn.publishBlocked = false := ⟨hready.isOpen.1, hblocked⟩
  have hwant : (processor.replyArgs replyTo corr body).wantConfirm (conn.trackerOf processor.channelId) = false :=
    hready.unconfirmed
  rw [contentOf, if_pos hchecked]
  change (if (processor.replyArgs replyTo corr body).wantConfirm (conn.trackerOf processor.channelId) = true then _
    else some (timeoutProperties corr, false)) = _
  rw [hwant, if_neg Bool.false_ne_true]

theorem code_of_errorObject {code : Int} {message data : PyVal} {error : Table}
    (h : errorObject code message data = .ok error) : lookup (Text.ofString "code") error = some (.int code) := by
  obtain ⟨cleaned, -, h⟩ := bind_eq_ok.mp h
  split at h
  · cases h
    rfl
  · cases h
    rfl

theorem isTimeout_of_contentFrames {body : Bytes} {frames : List Frame} (hbody : timeoutBody stack corr = .ok body)
    (hlt : frameMax < 2 ^ 32)
    (h : contentFrames frameMax (processor.replyArgs replyTo corr body) (timeoutProperties corr) = some frames) :
    IsTimeout stack processor.channelId replyTo corr frames := by
  obtain ⟨error, herror, hencoded⟩ := bind_eq_ok.mp hbody
  obtain ⟨first, header, chunks, hfirst, hheader, hchunks, hframes⟩ := shape_of_contentFrames hlt h
  exact ⟨_, error, body, timeoutProperties corr, header, chunks, first, hencoded, rfl, rfl, code_of_errorObject herror, rfl,
    hfirst, hheader, hchunks, hframes⟩

/-- A delivery is handled when its reply is not blocked, and the frames fit. -/
theorem handle_returns (hdrain : StaysQuiet processor.channelId caller d.drain)
    (hready : Ready processor.channelId frameMax blocked conn)
    (hfits : d.Answerable stack processor frameMax blocked) : ∃ frames conn',
      processor.handle stack caller d conn = .ok () conn' ∧ TimesOut stack processor.channelId d frames ∧
        Wrote caller frames conn conn' ∧ Ready processor.channelId frameMax blocked conn' := by
  obtain ⟨hdue, hack⟩ := hfits
  unfold DlqTimeoutProcessor.handle
  cases hcase : d.due with
  | none =>
    obtain ⟨conn', hrun, ⟨frame, hmethod, hwrote⟩, hready'⟩ := quiet_ack hdrain hready hack
    exact ⟨[frame], conn', hrun, .acked hcase hmethod, hwrote, hready'⟩
  | some reply =>
    obtain ⟨replyTo, corr⟩ := reply
    obtain ⟨rfl, body, hbody, hfits⟩ := hdue replyTo corr hcase
    obtain ⟨frames, hframes⟩ := Option.isSome_iff_exists.mp hfits
    obtain ⟨conn', hrun, ⟨frame, hmethod, hwrote⟩, hready'⟩ := quiet_ack hdrain (hready.append frames) hack
    have hlt : frameMax < 2 ^ 32 := hready.isOpen.2 ▸ conn.frameMax_lt
    have hpublish : startPublish caller (processor.replyArgs replyTo corr body) conn =
        .ok (.written none) (conn.append (some caller) frames) :=
      publishSegment_of_some caller (contentOf_timeout hready body hready.blocked) (hready.isOpen.2 ▸ hframes)
    refine ⟨frames ++ [frame], conn', ?_, .replied hcase (isTimeout_of_contentFrames hbody hlt hframes) hmethod,
      (wrote_append caller conn frames).trans hwrote, hready'⟩
    dsimp only
    rw [hbody, bind_run_ok (lift_ok body conn), bind_run_ok hpublish]
    exact hrun

theorem handle_raises (hready : Ready processor.channelId frameMax blocked conn)
    (hnot : ¬d.Answerable stack processor frameMax blocked) :
    ∃ e conn', processor.handle stack caller d conn = .error e conn' := by
  have hraises {before : Conn} (hbefore : Ready processor.channelId frameMax blocked before)
      (hack : ¬d.Ackable frameMax processor.channelId) : ∃ e,
        settleDelivery caller (.basicAck processor.channelId d.msg.deliveryTag) d.drain before = .error e before :=
    ack_raises caller hbefore.isOpen hack
  unfold DlqTimeoutProcessor.handle
  cases hcase : d.due with
  | none =>
    have hack : ¬d.Ackable frameMax processor.channelId := by
      intro hack
      refine hnot ⟨?_, hack⟩
      intro replyTo corr hdue
      rw [hcase] at hdue
      cases hdue
    obtain ⟨e, he⟩ := hraises hready hack
    exact ⟨e, conn, he⟩
  | some reply =>
    obtain ⟨replyTo, corr⟩ := reply
    dsimp only
    rcases ok_or_error (timeoutBody stack corr) with ⟨body, hbody⟩ | ⟨e, herror⟩
    · rw [hbody, bind_run_ok (lift_ok body conn)]
      by_cases hpublished : conn.publishBlocked = true ∨
          contentFrames conn.frameMax (processor.replyArgs replyTo corr body) (timeoutProperties corr) = none
      · obtain ⟨e, conn', he⟩ : ∃ e conn', startPublish caller (processor.replyArgs replyTo corr body) conn = .error e conn' :=
          startPublish_raises hready.isOpen.1 (contentOf_timeout hready body) hpublished
        exact ⟨e, conn', bind_run_error he⟩
      · rw [not_or] at hpublished
        obtain ⟨hunblocked, hfits⟩ := hpublished
        have hblocked : conn.publishBlocked = false := Bool.eq_false_of_not_eq_true hunblocked
        obtain ⟨frames, hframes⟩ := Option.ne_none_iff_exists'.mp hfits
        have hpublish : startPublish caller (processor.replyArgs replyTo corr body) conn =
            .ok (.written none) (conn.append (some caller) frames) :=
          publishSegment_of_some caller (contentOf_timeout hready body hblocked) hframes
        have hack : ¬d.Ackable frameMax processor.channelId := by
          intro hack
          refine hnot ⟨?_, hack⟩
          intro replyTo' corr' hdue
          rw [hcase] at hdue
          cases hdue
          exact ⟨hready.blocked ▸ hblocked, body, hbody, by rw [← hready.isOpen.2, hframes]; rfl⟩
        obtain ⟨e, he⟩ := hraises (hready.append frames) hack
        exact ⟨e, _, by rw [bind_run_ok hpublish, he]⟩
    · exact ⟨e, conn, by rw [herror]; exact bind_run_error (lift_error e conn)⟩

def EventFrames (stack : Nat) (channel : Int) : DlqEvent → List Frame → Prop
  | .delivered d, frames => TimesOut stack channel d frames
  | .notified _, frames => frames = []

def DlqStep (stack : Nat) (channel : Int) (caller : CallId) (event : DlqEvent) (conn conn' : Conn) : Prop :=
  ∃ frames, EventFrames stack channel event frames ∧ Wrote caller frames conn conn'

def DlqEvent.Fits (stack : Nat) (processor : DlqTimeoutProcessor) (frameMax : Nat) (blocked : Bool) : DlqEvent → Prop
  | .delivered d => d.Answerable stack processor frameMax blocked
  | .notified _ => True

theorem dlq_roundEnds (stack frameMax : Nat) {event : DlqEvent} (hlive : event.Live processor.channelId caller) :
    RoundEnds (processor.take stack caller) (Ready processor.channelId frameMax)
      (DlqEvent.Fits stack processor frameMax) nextBlocked (DlqStep stack processor.channelId caller) event where
  returns {blocked conn} hready hfits := by
    cases event with
    | delivered d =>
      obtain ⟨hreceive, hdrain⟩ := hlive
      obtain ⟨taken, hreceive, hquiet⟩ := hreceive conn
      obtain ⟨frames, conn', hrun, htimes, hwrote, hready'⟩ := handle_returns hdrain (hready.quiet hquiet) hfits
      refine ⟨conn', ?_, ⟨frames, htimes, hquiet.others.trans hwrote⟩, hready'⟩
      rw [DlqTimeoutProcessor.take, bind_run_ok hreceive, hrun]
    | notified frame =>
      obtain ⟨view, hview⟩ := Option.ne_none_iff_exists'.mp hlive
      obtain ⟨conn', hrun, hwritten, hready'⟩ := ready_notified hview hready
      refine ⟨conn', hrun, ⟨[], rfl, [], ?_, rfl⟩, ?_⟩
      · rw [hwritten, List.append_nil]
      · rw [nextBlocked, hview]
        exact hready'
  raises {blocked conn} hready hnot := by
    cases event with
    | delivered d =>
      obtain ⟨taken, hreceive, hquiet⟩ := hlive.1 conn
      obtain ⟨e, conn', he⟩ := handle_raises (hready.quiet hquiet) hnot
      exact ⟨e, conn', by rw [DlqTimeoutProcessor.take, bind_run_ok hreceive, he]⟩
    | notified frame => exact absurd trivial hnot

theorem unhindered_iff {events : List DlqEvent} :
    AllFit (DlqEvent.Fits stack processor frameMax) nextBlocked blocked events ↔
      Unhindered stack processor frameMax blocked events := by
  induction events generalizing blocked with
  | nil => exact Iff.rfl
  | cons event rest ih =>
    cases event with
    | delivered d =>
      rw [AllFit, Unhindered, ih]
      rfl
    | notified frame =>
      rw [AllFit, Unhindered, ih]
      exact ⟨And.right, And.intro trivial⟩

theorem parts_of_rounds {events : List DlqEvent} (h : Rounds (DlqStep stack channel caller) events conn conn') :
    ∃ parts, List.Forall₂ (TimesOut stack channel) (deliveries events) parts ∧
      Wrote caller parts.flatten conn conn' := by
  induction h with
  | nil conn => exact ⟨[], .nil, .refl caller conn⟩
  | @cons event rest conn mid conn' hstep _ ih =>
    obtain ⟨frames, hframes, hwrote⟩ := hstep
    obtain ⟨parts, hparts, hrest⟩ := ih
    cases event with
    | delivered d => exact ⟨frames :: parts, .cons hframes hparts, hwrote.trans hrest⟩
    | notified frame =>
      obtain rfl : frames = [] := hframes
      exact ⟨parts, hparts, hwrote.trans hrest⟩

end Round

/-- On a connection that stays up, and on which the broker may block publishing at any time, the processor answers every
sequence of dead-lettered deliveries exactly if no reply is due while publishing is blocked, and all frames fit. -/
theorem timedOut_iff (stack : Nat) (processor : DlqTimeoutProcessor) (caller : CallId) {events : List DlqEvent}
    (hlive : ∀ event ∈ events, event.Live processor.channelId caller) {conn : Conn}
    (hopen : conn.channels.get? processor.channelId = some .open)
    (hunconfirmed : (conn.trackerOf processor.channelId).enabled = false) :
    (∃ conn', TimedOut stack processor caller events conn conn') ↔
      Unhindered stack processor conn.frameMax conn.publishBlocked events := by
  have hends : ∀ event ∈ events, _ := fun event hevent =>
    dlq_roundEnds stack conn.frameMax (hlive event hevent)
  have hready : Ready processor.channelId conn.frameMax conn.publishBlocked conn := ⟨⟨hopen, rfl⟩, rfl, hunconfirmed⟩
  have hall := forM_returns_iff conn.publishBlocked hends hready
    (P := fun conn' => ∃ parts, List.Forall₂ (TimesOut stack processor.channelId) (deliveries events) parts ∧
      framesBy caller conn conn' = parts.flatten) ?_
  · rw [unhindered_iff] at hall
    exact hall
  · intro conn' hrounds
    obtain ⟨parts, hparts, hwrote⟩ := parts_of_rounds hrounds
    exact ⟨parts, hparts, hwrote.framesBy⟩

def expiredRequest : Delivery where
  receive := pure ()
  msg := { deliveryTag := 1, exchange := [], routingKey := [], redelivered := false, consumerTag := [], body := []
           properties := (Properties.empty.set .correlationId (.str (Text.ofString "1"))).set .replyTo
             (.str (Text.ofString "q")) }
  drain := pure ()

theorem staysQuiet_pure (channel : Int) (caller : CallId) : StaysQuiet channel caller (pure ()) := by
  intro conn
  exact ⟨conn, rfl, .refl conn, rfl, rfl⟩

theorem live_blockedFrame : (DlqEvent.notified blockedFrame).Live 1 0 := by
  unfold DlqEvent.Live
  decide +kernel

theorem live_expiredRequest : (DlqEvent.delivered expiredRequest).Live 1 0 := ⟨staysQuiet_pure 1 0, staysQuiet_pure 1 0⟩

theorem replyFits_one : ReplyFits 9 {} openConn.frameMax (Text.ofString "q") (Text.ofString "1") := by
  have hfits : (timeoutBody 9 (Text.ofString "1")).toOption.any (fun body => (contentFrames openConn.frameMax
      (DlqTimeoutProcessor.replyArgs {} (Text.ofString "q") (Text.ofString "1") body)
      (timeoutProperties (Text.ofString "1"))).isSome) = true := by decide +kernel
  rcases ok_or_error (timeoutBody 9 (Text.ofString "1")) with ⟨body, hbody⟩ | ⟨e, he⟩
  · rw [hbody, toOption_ok, Option.any_some] at hfits
    exact ⟨body, hbody, hfits⟩
  · rw [he] at hfits
    cases hfits

/-- The broker blocks and unblocks publishing before the request. -/
theorem unblocked_timedOut : ∃ conn', TimedOut 9 {} 0
    [.notified blockedFrame, .notified ⟨.method, 0, [0, 10, 0, 61]⟩, .delivered expiredRequest] openConn conn' := by
  refine (timedOut_iff 9 {} 0 ?_ (by decide) (by decide)).mpr ?_
  · intro event hevent
    simp only [List.mem_cons, List.not_mem_nil, or_false] at hevent
    rcases hevent with rfl | rfl | rfl
    · exact live_blockedFrame
    · unfold DlqEvent.Live
      decide +kernel
    · exact live_expiredRequest
  · have hunblocked (blocked : Bool) : (notification ⟨.method, 0, [0, 10, 0, 61]⟩).getD blocked = false := by
      have hsome : notification ⟨.method, 0, [0, 10, 0, 61]⟩ = some false := by decide +kernel
      rw [hsome, Option.getD_some]
    rw [Unhindered, Unhindered, hunblocked]
    refine ⟨⟨?_, ?_⟩, trivial⟩
    · rintro replyTo corr ⟨⟩
      exact ⟨rfl, replyFits_one⟩
    · unfold Delivery.Ackable
      decide +kernel

/-- The broker blocks publishing before the request. -/
theorem blocked_not_timedOut : (∀ event ∈ [.notified blockedFrame, .delivered expiredRequest], DlqEvent.Live 1 0 event) ∧
    expiredRequest.due ≠ none ∧
    ¬∃ conn', TimedOut 9 {} 0 [.notified blockedFrame, .delivered expiredRequest] openConn conn' := by
  refine ⟨?_, by decide +kernel, ?_⟩
  · intro event hevent
    rcases List.mem_pair.mp hevent with rfl | rfl
    · exact live_blockedFrame
    · exact live_expiredRequest
  · rintro ⟨conn', hreturns, -⟩
    have hraises : endsRaising
        (DlqTimeoutProcessor.loop 9 {} 0 [.notified blockedFrame, .delivered expiredRequest] openConn) = true := by
      decide +kernel
    rw [hreturns] at hraises
    cases hraises

end Nuropb.Patterns
