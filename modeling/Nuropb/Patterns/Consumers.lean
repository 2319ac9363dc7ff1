import Nuropb.Library.Rounds
import Nuropb.Patterns.Settling

/-! # Consumers

A consumer takes one delivery after the other and acks each of them, on a connection that stays up. -/
namespace Nuropb.Patterns

open Library Protocol Transport

/-- A delivery: the wait for it, and the drain of its ack. -/
structure Delivery where
  receive : ConnM Unit
  msg : IncomingMessage
  drain : ConnM Unit

/-- Only other tasks have written, and the channel takes frames as before. -/
structure Calm (channel : Int) (caller : CallId) (conn conn' : Conn) : Prop where
  state : conn'.channels.get? channel = conn.channels.get? channel
  frameMax : conn'.frameMax = conn.frameMax
  others : Wrote caller [] conn conn'

/-- While the task waits the connection stays up. -/
def StaysCalm (channel : Int) (caller : CallId) (x : ConnM Unit) : Prop :=
  ∀ conn, ∃ conn', x conn = .ok () conn' ∧ Calm channel caller conn conn'

structure Delivery.Live (d : Delivery) (channel : Int) (caller : CallId) : Prop where
  receive : StaysCalm channel caller d.receive
  drain : StaysCalm channel caller d.drain

/-- The ack of the delivery fits a frame. -/
def Delivery.Ackable (frameMax : Nat) (channel : Int) (d : Delivery) : Prop :=
  (frameOf frameMax .method channel (encodeMethod (.basicAck d.msg.deliveryTag false))).isSome = true

/-- The frames are the acks of the deliveries, one each and in order. -/
def AreAcks (channel : Int) : List Delivery → List Frame → Prop :=
  List.Forall₂ fun d frame => IsMethod channel (.basicAck d.msg.deliveryTag false) frame

/-- The ack of the delivery is what the task has written. -/
def Acked (channel : Int) (caller : CallId) (d : Delivery) (conn conn' : Conn) : Prop :=
  ∃ frame, IsMethod channel (.basicAck d.msg.deliveryTag false) frame ∧ Wrote caller [frame] conn conn'

/-- The channel is open, and frames are so long. -/
def Open (channel : Int) (frameMax : Nat) (conn : Conn) : Prop :=
  conn.channels.get? channel = some .open ∧ conn.frameMax = frameMax

theorem Open.calm {channel : Int} {frameMax : Nat} {caller : CallId} {conn conn' : Conn} (h : Open channel frameMax conn)
    (hcalm : Calm channel caller conn conn') : Open channel frameMax conn' :=
  ⟨hcalm.state.trans h.1, hcalm.frameMax.trans h.2⟩

section Frames

variable {channel : Int} {caller : CallId} {conn conn' conn'' : Conn} {frames more : List Frame}

theorem Calm.refl (conn : Conn) : Calm channel caller conn conn := ⟨rfl, rfl, .refl caller conn⟩

theorem Calm.trans (h : Calm channel caller conn conn') (h' : Calm channel caller conn' conn'') :
    Calm channel caller conn conn'' :=
  ⟨h'.state.trans h.state, h'.frameMax.trans h.frameMax, h.others.trans h'.others⟩

theorem staysCalm_pure (channel : Int) (caller : CallId) : StaysCalm channel caller (pure ()) := by
  intro conn
  exact ⟨conn, rfl, .refl conn⟩

theorem Calm.wrote (h : Calm channel caller (conn.append (some caller) frames) conn') : Wrote caller frames conn conn' := by
  have hwrote := (wrote_append caller conn frames).trans h.others
  rw [List.append_nil] at hwrote
  exact hwrote

end Frames

section Acking

variable {channel : Int} {caller : CallId} {conn : Conn} {d : Delivery}

theorem ack_returns {frameMax : Nat} (hdrain : StaysCalm channel caller d.drain) (hopen : Open channel frameMax conn)
    (hack : d.Ackable frameMax channel) : ∃ conn',
      settleDelivery caller (.basicAck channel d.msg.deliveryTag) d.drain conn = .ok () conn' ∧
        Acked channel caller d conn conn' ∧ Open channel frameMax conn' := by
  obtain ⟨frame, hframe⟩ := Option.isSome_iff_exists.mp hack
  obtain ⟨conn', hrun, hcalm⟩ := hdrain (conn.append (some caller) [frame])
  rw [← hopen.2] at hframe
  refine ⟨conn', ?_, ⟨frame, isMethod_of_frameOf hframe, hcalm.wrote⟩, hcalm.state.trans hopen.1,
    hcalm.frameMax.trans hopen.2⟩
  rw [← hrun]
  exact settleDelivery_of_some hopen.1 hframe

theorem ack_raises {frameMax : Nat} (caller : CallId) (hopen : Open channel frameMax conn)
    (hack : ¬d.Ackable frameMax channel) :
    ∃ e, settleDelivery caller (.basicAck channel d.msg.deliveryTag) d.drain conn = .error e conn := by
  obtain ⟨hstate, rfl⟩ := hopen
  have hnone : frameOf conn.frameMax .method channel (encodeMethod (.basicAck d.msg.deliveryTag false)) = none := by
    simpa [Delivery.Ackable] using hack
  exact settleDelivery_of_none hstate hnone

theorem areAcks_of_rounds {δ σ : Type} {Step : δ → σ → σ → Prop} (toDelivery : δ → Delivery) (connOf : σ → Conn)
    (hstep : ∀ d s t, Step d s t → Acked channel caller (toDelivery d) (connOf s) (connOf t)) {rounds : List δ}
    {s t : σ} (h : Rounds Step rounds s t) :
    AreAcks channel (rounds.map toDelivery) (framesBy caller (connOf s) (connOf t)) := by
  have hwrote : ∃ frames, AreAcks channel (rounds.map toDelivery) frames ∧
      Wrote caller frames (connOf s) (connOf t) := by
    induction h with
    | nil s => exact ⟨[], .nil, .refl caller (connOf s)⟩
    | cons hround _ ih =>
      obtain ⟨frame, hmethod, hfirst⟩ := hstep _ _ _ hround
      obtain ⟨frames, hacks, hrest⟩ := ih
      exact ⟨frame :: frames, .cons hmethod hacks, hfirst.trans hrest⟩
  obtain ⟨frames, hacks, hwrote⟩ := hwrote
  rw [hwrote.framesBy]
  exact hacks

end Acking

section Connections

variable {α : Type} {x : ConnM α} {conn' : Conn} {s : Serving}

theorem onConn_ok {a : α} (h : x s.conn = .ok a conn') : onConn x s = .ok a { s with conn := conn' } := by
  rw [onConn, h]

theorem onConn_error {e : Exc} (h : x s.conn = .error e conn') : onConn x s = .error e { s with conn := conn' } := by
  rw [onConn, h]

end Connections

end Nuropb.Patterns
