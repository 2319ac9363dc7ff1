import Nuropb.Patterns.Answers
import Nuropb.Patterns.Consumers

/-! # The event subscriber

Every event is acked, also one that is malformed or whose handler raises; but what it raises ends the loop.
-/
namespace Nuropb.Patterns

open Library Protocol Transport

/-- An event, with what its handler comes to and what the other tasks do meanwhile. -/
structure EventDelivery extends Delivery where
  handler : Text → PyVal → Except Exc Unit
  awaits : ConnM Unit

structure EventDelivery.Live (event : EventDelivery) (channel : Int) (caller : CallId) : Prop
    extends event.toDelivery.Live channel caller where
  awaits : StaysCalm channel caller event.awaits

structure EventSubscriber where
  channelId : Int := 1

structure Notifies (msg : Table) (call : Text × PyVal) : Prop extends IsCall msg call.1 call.2 where
  noResult : lookup (Text.ofString "result") msg = none
  noError : lookup (Text.ofString "error") msg = none
  noId : lookup (Text.ofString "id") msg = none

/-- The body is a well-formed notification of this method with these params. -/
def IsNotification (stack : Nat) (body : Bytes) (call : Text × PyVal) : Prop :=
  ∃ text msg, decodeUtf8 body = .ok text ∧ Json.loads stack text = .ok (.dict msg) ∧ Notifies msg call

section Subscriber

variable (stack : Nat) (subscriber : EventSubscriber) (caller : CallId)

/-- The handler, with a note of its call. -/
def callEventHandler (event : EventDelivery) (method : Text) (params : PyVal) : ServerM Unit := do
  modify fun s => { s with invoked := s.invoked ++ [(method, params)] }
  onConn event.awaits
  lift (event.handler method params)

def EventSubscriber.attempt (event : EventDelivery) : ServerM Unit := do
  let (method, params) ← lift (decodeNotification stack event.msg.body)
  callEventHandler event method params

/-- The ack is the `finally`: what the body has raised goes on after it. -/
def EventSubscriber.handle (event : EventDelivery) : ServerM Unit := do
  let outcome ← observe (EventSubscriber.attempt stack event)
  onConn (settleDelivery caller (.basicAck subscriber.channelId event.msg.deliveryTag) event.drain)
  lift outcome

def EventSubscriber.loop (events : List EventDelivery) : ServerM Unit :=
  events.forM fun event => do
    onConn event.receive
    subscriber.handle stack caller event

/-- The loop comes to its next wait, the handler has been called for the notifications in their order and for nothing
else, and all deliveries are acked. -/
structure Consumed (events : List EventDelivery) (s t : Serving) : Prop where
  returns : subscriber.loop stack caller events s = .ok () t
  invoked : ∃ calls, Picks (fun event => IsNotification stack event.msg.body) events calls ∧ t.invoked = s.invoked ++ calls
  acked : AreAcks subscriber.channelId (events.map EventDelivery.toDelivery) (framesBy caller s.conn t.conn)

def EventDelivery.Handled (event : EventDelivery) : Prop :=
  ∃ call, IsNotification stack event.msg.body call ∧ event.handler call.1 call.2 = .ok ()

end Subscriber

/-! ## What is decoded as a notification -/

section Decoding

variable {stack : Nat} {body : Bytes} {call : Text × PyVal}

theorem isNotification_of_decode (h : decodeNotification stack body = .ok call) : IsNotification stack body call := by
  obtain ⟨msg, hmsg, h⟩ := bind_eq_ok.mp h
  obtain ⟨text, htext, hloads, hversion⟩ := decodeMessage_eq_ok hmsg
  obtain ⟨u, hresponse, h⟩ := bind_eq_ok.mp h
  obtain ⟨v, hid, h⟩ := bind_eq_ok.mp h
  obtain ⟨hresult, herror⟩ := not_or.mp (raiseIf_eq_ok.mp hresponse)
  split at h
  · rename_i method hmethod
    cases h
    exact ⟨text, msg, htext, hloads, isCall_of_lookup hversion hmethod, not_not.mp hresult, not_not.mp herror,
      not_not.mp (raiseIf_eq_ok.mp hid)⟩
  · cases h

theorem decode_of_isNotification (h : IsNotification stack body call) : decodeNotification stack body = .ok call := by
  obtain ⟨text, msg, htext, hloads, hmsg⟩ := h
  rw [decodeNotification, decodeMessage_of_dict htext hloads hmsg.version, ok_bind]
  rw [raiseIf_of_not (by simp [hmsg.noResult, hmsg.noError]), ok_bind, raiseIf_of_not (by simp [hmsg.noId]), ok_bind,
    hmsg.method, hmsg.getD_params]
  rfl

theorem decodeNotification_iff : decodeNotification stack body = .ok call ↔ IsNotification stack body call :=
  ⟨isNotification_of_decode, decode_of_isNotification⟩

def EventDelivery.notification (stack : Nat) (event : EventDelivery) : Option (Text × PyVal) :=
  (decodeNotification stack event.msg.body).toOption

theorem picks_notification (stack : Nat) (events : List EventDelivery) :
    Picks (fun event => IsNotification stack event.msg.body) events (events.filterMap (EventDelivery.notification stack)) := by
  refine picks_filterMap ?_ events
  intro event call
  rw [EventDelivery.notification, toOption_eq_some, decodeNotification_iff]

end Decoding

section Round

variable {stack : Nat} {subscriber : EventSubscriber} {caller : CallId} {event : EventDelivery} {frameMax : Nat}
  {s t : Serving}

structure EventStep (stack : Nat) (channel : Int) (caller : CallId) (event : EventDelivery) (s t : Serving) : Prop where
  invoked : t.invoked = s.invoked ++ (event.notification stack).toList
  acked : Acked channel caller event.toDelivery s.conn t.conn

theorem attempt_ends (stack : Nat) (channel : Int) (hlive : event.Live channel caller) (s : Serving) : ∃ outcome conn',
    observe (EventSubscriber.attempt stack event) s =
      .ok outcome { conn := conn', invoked := s.invoked ++ (event.notification stack).toList } ∧
    Calm channel caller s.conn conn' ∧ (outcome = .ok () ↔ event.Handled stack) := by
  cases hdecode : decodeNotification stack event.msg.body with
  | error e =>
    refine ⟨.error e, s.conn, ?_, .refl s.conn, ?_⟩
    · have hrun : EventSubscriber.attempt stack event s = .error e s := by
        rw [EventSubscriber.attempt, hdecode, bind_run_error (lift_error e s)]
      rw [observe_of_error hrun, EventDelivery.notification, hdecode]
      simp
    · constructor
      · intro h
        cases h
      · rintro ⟨call, hcall, -⟩
        rw [decode_of_isNotification hcall] at hdecode
        cases hdecode
  | ok notification =>
    obtain ⟨method, params⟩ := notification
    obtain ⟨conn', hawaits, hcalm⟩ := hlive.awaits s.conn
    refine ⟨event.handler method params, conn', ?_, hcalm, ?_⟩
    · have hcall : EventSubscriber.attempt stack event s =
          lift (event.handler method params) { conn := conn', invoked := s.invoked ++ [(method, params)] } := by
        rw [EventSubscriber.attempt, hdecode, bind_run_ok (lift_ok _ s)]
        change callEventHandler event method params s = _
        rw [callEventHandler, bind_run_ok (modify_run _ s)]
        exact bind_run_ok (onConn_ok hawaits)
      rw [observe, hcall, EventDelivery.notification, hdecode]
      cases event.handler method params with
      | error e => rfl
      | ok u => rfl
    · constructor
      · intro hreturns
        exact ⟨(method, params), isNotification_of_decode hdecode, hreturns⟩
      · rintro ⟨call, hcall, hreturns⟩
        rw [decode_of_isNotification hcall] at hdecode
        cases hdecode
        exact hreturns

/-- A round with its receive: it returns exactly if the event is handled and its ack fits. -/
theorem event_roundEnds (stack frameMax : Nat) (hlive : event.Live subscriber.channelId caller) :
    RoundEnds (fun event => do onConn event.receive; subscriber.handle stack caller event)
      (fun (_ : PUnit.{1}) s => Open subscriber.channelId frameMax s.conn)
      (fun _ event => event.Handled stack ∧ event.toDelivery.Ackable frameMax subscriber.channelId)
      (fun view _ => view) (EventStep stack subscriber.channelId caller) event where
  returns {view s} hinv hfits := by
    obtain ⟨taken, hreceive, hreceived⟩ := hlive.receive s.conn
    obtain ⟨outcome, left, hobserve, hcalm, hhandled⟩ :=
      attempt_ends stack subscriber.channelId hlive { s with conn := taken }
    have hleft := hreceived.trans hcalm
    obtain ⟨acked, hack, ⟨frame, hmethod, hwrote⟩, hopen⟩ := ack_returns hlive.drain (hinv.calm hleft) hfits.2
    have hreturned := hhandled.mpr hfits.1
    refine ⟨{ conn := acked, invoked := s.invoked ++ (event.notification stack).toList }, ?_,
      ⟨rfl, frame, hmethod, hleft.others.trans hwrote⟩, hopen⟩
    rw [bind_run_ok (onConn_ok hreceive), EventSubscriber.handle, bind_run_ok hobserve, bind_run_ok (onConn_ok hack),
      hreturned]
    rfl
  raises {view s} hinv hnot := by
    obtain ⟨taken, hreceive, hreceived⟩ := hlive.receive s.conn
    obtain ⟨outcome, left, hobserve, hcalm, hhandled⟩ :=
      attempt_ends stack subscriber.channelId hlive { s with conn := taken }
    have hopen := hinv.calm (hreceived.trans hcalm)
    rw [bind_run_ok (onConn_ok hreceive), EventSubscriber.handle, bind_run_ok hobserve]
    by_cases hfits : event.toDelivery.Ackable frameMax subscriber.channelId
    · obtain ⟨acked, hack, -⟩ := ack_returns hlive.drain hopen hfits
      rw [bind_run_ok (onConn_ok hack)]
      cases outcome with
      | ok u => exact absurd ⟨hhandled.mp rfl, hfits⟩ hnot
      | error e => exact ⟨e, _, rfl⟩
    · obtain ⟨e, herror⟩ := ack_raises caller hopen hfits
      exact ⟨e, _, bind_run_error (onConn_error herror)⟩

theorem invoked_of_rounds {channel : Int} {events : List EventDelivery}
    (h : Rounds (EventStep stack channel caller) events s t) :
    t.invoked = s.invoked ++ events.filterMap (EventDelivery.notification stack) := by
  induction h with
  | nil s => simp
  | @cons event rest s t u hstep _ ih =>
    rw [ih, hstep.invoked, List.append_assoc, List.filterMap_cons]
    cases event.notification stack with
    | none => rfl
    | some notification => rfl

end Round

/-- On a connection that stays up the subscriber consumes every sequence of events exactly if each of them is a
notification whose handler returns, and each ack fits. -/
theorem consumed_iff (stack : Nat) (subscriber : EventSubscriber) (caller : CallId) {events : List EventDelivery}
    (hlive : ∀ event ∈ events, event.Live subscriber.channelId caller) {s : Serving}
    (hopen : s.conn.channels.get? subscriber.channelId = some .open) :
    (∃ t, Consumed stack subscriber caller events s t) ↔
      ∀ event ∈ events, event.Handled stack ∧ event.toDelivery.Ackable s.conn.frameMax subscriber.channelId := by
  have hends : ∀ event ∈ events, _ := fun event hevent =>
    event_roundEnds stack s.conn.frameMax (hlive event hevent)
  have hall := forM_returns_iff ⟨⟩ hends ⟨hopen, rfl⟩
    (P := fun t => (∃ calls, Picks (fun event => IsNotification stack event.msg.body) events calls ∧
      t.invoked = s.invoked ++ calls) ∧
      AreAcks subscriber.channelId (events.map EventDelivery.toDelivery) (framesBy caller s.conn t.conn))
    fun t hrounds => ⟨⟨_, picks_notification stack events, invoked_of_rounds hrounds⟩, areAcks_of_rounds EventDelivery.toDelivery Serving.conn
      (fun event s t hstep => hstep.acked) hrounds⟩
  rw [allFit_const] at hall
  rw [← hall]
  constructor
  · rintro ⟨t, hrun, hinvoked, hacked⟩
    exact ⟨t, hrun, hinvoked, hacked⟩
  · rintro ⟨t, hrun, hinvoked, hacked⟩
    exact ⟨t, hrun, hinvoked, hacked⟩

def eventOf (body : String) : EventDelivery where
  receive := pure ()
  msg := { deliveryTag := 1, exchange := [], routingKey := [], redelivered := false, consumerTag := [],
           body := body.toUTF8.toList
           properties := Properties.empty }
  drain := pure ()
  handler := fun _ _ => .ok ()
  awaits := pure ()

theorem live_eventOf (body : String) : (eventOf body).Live 1 0 where
  receive := staysCalm_pure 1 0
  drain := staysCalm_pure 1 0
  awaits := staysCalm_pure 1 0

theorem tick_consumed : ∃ t, Consumed 9 {} 0 [eventOf "\x7b\"jsonrpc\":\"2.0\",\"method\":\"tick\"\x7d"]
    ⟨confirmingConn, []⟩ t := by
  refine (consumed_iff 9 {} 0 ?_ (by decide)).mpr ?_
  · intro event hevent
    obtain rfl := List.mem_singleton.mp hevent
    exact live_eventOf _
  · intro event hevent
    obtain rfl := List.mem_singleton.mp hevent
    constructor
    · have hdecodes : (decodeNotification 9
          (eventOf "\x7b\"jsonrpc\":\"2.0\",\"method\":\"tick\"\x7d").msg.body).isOk = true := by decide +kernel
      rcases ok_or_error (decodeNotification 9
          (eventOf "\x7b\"jsonrpc\":\"2.0\",\"method\":\"tick\"\x7d").msg.body) with ⟨call, hok⟩ | ⟨e, he⟩
      · exact ⟨call, isNotification_of_decode hok, rfl⟩
      · rw [he] at hdecodes
        contradiction
    · unfold Delivery.Ackable
      decide +kernel

/-- A body that is no JSON is acked, and ends the loop. -/
theorem garbage_not_consumed : (eventOf "x").Live 1 0 ∧ ¬∃ t, Consumed 9 {} 0 [eventOf "x"] ⟨confirmingConn, []⟩ t := by
  refine ⟨live_eventOf "x", ?_⟩
  rintro ⟨t, hreturns, -⟩
  have hraises : endsRaising (EventSubscriber.loop 9 {} 0 [eventOf "x"] ⟨confirmingConn, []⟩) = true := by
    decide +kernel
  rw [hreturns] at hraises
  contradiction

end Nuropb.Patterns
