import Nuropb.Library.Dict
import Nuropb.Library.Future
import Nuropb.Library.Outcome
import Nuropb.Python.Value

/-! # Publisher confirm tracking

Futures are named by the call that waits for them: a call registers at most one confirm.
-/
namespace Nuropb.Transport

open Library

/-- A task that runs an operation of the connection. -/
abbrev CallId := Nat

structure ConfirmTracker where
  nextTag : Nat := 1
  outstanding : Dict Nat CallId := .empty
  enabled : Bool := false

/-- A single ack or nack covers its own tag, a multiple one every tag up to its own. -/
def covers (deliveryTag : Nat) (multiple : Bool) (tag : Nat) : Bool :=
  if multiple then tag ≤ deliveryTag else tag = deliveryTag

namespace ConfirmTracker

def enable (t : ConfirmTracker) : ConfirmTracker := { t with enabled := true, nextTag := 1 }

/-- The tracker after its next tag was handed out for `fut`. -/
def handOut (t : ConfirmTracker) (fut : CallId) : ConfirmTracker :=
  { t with nextTag := t.nextTag + 1, outstanding := t.outstanding.set t.nextTag fut }

def register (t : ConfirmTracker) (fut : CallId) : Except Exc (Nat × ConfirmTracker) := do
  raiseIf (¬t.enabled) (.runtimeError "confirm mode not enabled")
  return (t.nextTag, t.handOut fut)

/-- The futures that an ack or nack pops, and the tracker without them. -/
def resolve (t : ConfirmTracker) (deliveryTag : Nat) (multiple : Bool) :
    List CallId × ConfirmTracker :=
  ((t.outstanding.keep (covers deliveryTag multiple)).values,
    { t with outstanding := t.outstanding.keep fun tag => !covers deliveryTag multiple tag })

def failAll (t : ConfirmTracker) : List CallId × ConfirmTracker :=
  (t.outstanding.values, { t with outstanding := .empty })

theorem register_of_enabled {t : ConfirmTracker} (h : t.enabled = true) (fut : CallId) :
    t.register fut = .ok (t.nextTag, t.handOut fut) := by
  simp [register, raiseIf, h]

theorem register_of_not_enabled {t : ConfirmTracker} (h : t.enabled = false) (fut : CallId) :
    t.register fut = .error (.runtimeError "confirm mode not enabled") := by
  simp [register, raiseIf, h]

theorem mem_resolve_iff {t : ConfirmTracker} {deliveryTag : Nat} {multiple : Bool} {fut : CallId} :
    fut ∈ (t.resolve deliveryTag multiple).1 ↔
      ∃ tag, covers deliveryTag multiple tag = true ∧ t.outstanding.get? tag = some fut := by
  simp only [resolve, Dict.mem_values_iff, Dict.get?_keep, Option.ite_none_right_eq_some]

end ConfirmTracker

end Nuropb.Transport
