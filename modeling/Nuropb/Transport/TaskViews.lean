import Nuropb.Transport.Tasks

/-! # What invariants read of a task

The confirm a task awaits or has awaited, the request it is to be answered, and the content it
is yet to publish.
-/
namespace Nuropb.Transport

open Library Protocol

namespace Machine

def awaited (m : Machine) (id : CallId) : Option (PublishArgs × Nat) := (m.calls id).bind Phase.confirm

def nextOf (m : Machine) (id : CallId) : Option (PublishArgs × Properties) := (m.calls id).bind Phase.next

def requestOf (m : Machine) (id : CallId) : Option SyncRequest := (m.calls id).bind Phase.request

/-- The call has not come to its content. -/
def Unpublished (m : Machine) (id : CallId) : Prop := m.calls id = none ∨ (m.requestOf id).isSome = true

end Machine

section Views

variable (m : Machine) (id other : CallId) (phase : Phase) (conn : Conn)

@[simp] theorem setCall_conn : (m.setCall id phase).conn = m.conn := rfl

@[simp] theorem setCall_received : (m.setCall id phase).received = m.received := rfl

@[simp] theorem setConn_conn : (m.setConn conn).conn = conn := rfl

@[simp] theorem setConn_calls : (m.setConn conn).calls = m.calls := rfl

@[simp] theorem setConn_received : (m.setConn conn).received = m.received := rfl

@[simp] theorem setConn_awaited : (m.setConn conn).awaited id = m.awaited id := rfl

@[simp] theorem setConn_nextOf : (m.setConn conn).nextOf id = m.nextOf id := rfl

@[simp] theorem setConn_requestOf : (m.setConn conn).requestOf id = m.requestOf id := rfl

theorem setCall_calls : (m.setCall id phase).calls other = if other = id then some phase else m.calls other :=
  rfl

@[simp] theorem setCall_calls_self : (m.setCall id phase).calls id = some phase := if_pos rfl

theorem setCall_awaited :
    (m.setCall id phase).awaited other = if other = id then phase.confirm else m.awaited other := by
  rw [Machine.awaited, setCall_calls]
  split <;> rfl

theorem setCall_nextOf :
    (m.setCall id phase).nextOf other = if other = id then phase.next else m.nextOf other := by
  rw [Machine.nextOf, setCall_calls]
  split <;> rfl

theorem setCall_requestOf :
    (m.setCall id phase).requestOf other = if other = id then phase.request else m.requestOf other := by
  rw [Machine.requestOf, setCall_calls]
  split <;> rfl

@[simp] theorem setCall_setCall (second : Phase) :
    (m.setCall id phase).setCall id second = m.setCall id second := by
  simp only [Machine.setCall, Machine.mk.injEq, and_true, true_and]
  funext other
  split <;> rfl

theorem setConn_setCall : (m.setCall id phase).setConn conn = (m.setConn conn).setCall id phase := rfl

theorem afterDrain_setCall (args : PublishArgs) (tag : Option Nat) :
    (m.setCall id phase).afterDrain id args tag = m.afterDrain id args tag := by
  cases tag with
  | none => exact setCall_setCall m id phase _
  | some t =>
    simp only [Machine.afterDrain, Machine.awaitConfirm, Machine.finishConfirm, setCall_conn,
      setConn_setCall, setCall_setCall]

theorem publishReached_setCall (args : PublishArgs) (result : EStateM.Result Exc Conn PublishStep) :
    (m.setCall id phase).publishReached id args result = m.publishReached id args result := by
  cases result with
  | error e conn => simp only [Machine.publishReached, setConn_setCall, setCall_setCall]
  | ok step conn =>
    cases step with
    | selecting props => simp only [Machine.publishReached, setConn_setCall, Machine.ask, setCall_setCall]; rfl
    | written tag =>
      simp only [Machine.publishReached, setConn_setCall, setCall_setCall, afterDrain_setCall]

theorem awaited_of_unpublished {m : Machine} {id : CallId} (h : m.Unpublished id) : m.awaited id = none := by
  rcases h with hnone | hrequest
  · rw [Machine.awaited, hnone]
    rfl
  · rw [Machine.requestOf] at hrequest
    rw [Machine.awaited]
    cases hphase : m.calls id with
    | none => rfl
    | some phase =>
      rw [hphase] at hrequest
      cases phase <;> first | rfl | cases hrequest

end Views

end Nuropb.Transport
