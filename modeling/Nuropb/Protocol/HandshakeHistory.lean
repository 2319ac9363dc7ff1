import Mathlib.Data.List.Induction
import Nuropb.Protocol.StateMachines

/-! # Histories of the connection machine

A rejected call raises, and whoever has made it may catch that and go on. The calls that were accepted tell how the
machine has come to its state.
-/
namespace Nuropb.Protocol

structure ConnectionStateMachine where
  state : ConnState := .init
  heartbeat : Int := 60

inductive ConnCall
  | onTcpConnected (tls : Bool)
  | onTlsVerified
  | allowAmqpHeader
  | onConnectionStart
  | onConnectionStartOkSent
  | onConnectionTune
  | onConnectionTuneOkSent (heartbeat : Int)
  | onConnectionOpenSent
  | onConnectionOpenOk
  | beginClose
  | onCloseOk
  | assertCanSendConnectionMethod (methodId : Int)
  | reject (reason : String)
  deriving DecidableEq

namespace ConnCall

def transition : ConnCall → ConnState.Transition
  | .onTcpConnected tls => ConnState.onTcpConnected tls
  | .onTlsVerified => ConnState.onTlsVerified
  | .allowAmqpHeader => ConnState.allowAmqpHeader
  | .onConnectionStart => ConnState.onConnectionStart
  | .onConnectionStartOkSent => ConnState.onConnectionStartOkSent
  | .onConnectionTune => ConnState.onConnectionTune
  | .onConnectionTuneOkSent heartbeat => ConnState.onConnectionTuneOkSent heartbeat
  | .onConnectionOpenSent => ConnState.onConnectionOpenSent
  | .onConnectionOpenOk => ConnState.onConnectionOpenOk
  | .beginClose => ConnState.beginClose
  | .onCloseOk => fun _ => .ok .closed
  | .assertCanSendConnectionMethod methodId => fun s =>
    if methodId < 0 then .error s!"unknown connection method {methodId}"
    else ConnState.assertCanSendConnectionMethod methodId.toNat s
  | .reject reason => fun _ => .error reason

/-- The heartbeat that an accepted call leaves behind. -/
def heartbeat (old : Int) : ConnCall → Int
  | .onConnectionTuneOkSent heartbeat => heartbeat
  | _ => old

/-- The checks change nothing. -/
def isStep : ConnCall → Bool
  | .allowAmqpHeader | .assertCanSendConnectionMethod _ => false
  | _ => true

end ConnCall

/-- The machine after a call, and the reason if the call was rejected. -/
def ConnectionStateMachine.perform (sm : ConnectionStateMachine) (call : ConnCall) :
    ConnectionStateMachine × Option String :=
  match call.transition sm.state with
  | .error reason => ({ sm with state := .error }, some reason)
  | .ok next => ({ state := next, heartbeat := call.heartbeat sm.heartbeat }, none)

structure ConnHistory where
  machine : ConnectionStateMachine := {}
  accepted : List ConnCall := []
  rejected : Bool := false

namespace ConnHistory

def next (h : ConnHistory) (call : ConnCall) : ConnHistory :=
  match h.machine.perform call with
  | (machine, some _) => { h with machine, rejected := true }
  | (machine, none) => { h with machine, accepted := h.accepted ++ [call] }

/-- What a new machine makes of the calls. -/
def ofCalls (calls : List ConnCall) : ConnHistory := calls.foldl next {}

/-- The accepted calls other than the checks. -/
def steps (h : ConnHistory) : List ConnCall := h.accepted.filter ConnCall.isStep

end ConnHistory

/-! ## The way to a state -/

def connecting (tls : Bool) : List ConnCall := .onTcpConnected tls :: if tls then [.onTlsVerified] else []

/-- The exchange of methods up to a state. -/
def exchanged (heartbeat : Int) : ConnState → List ConnCall
  | .start => [.onConnectionStart]
  | .startOk => [.onConnectionStart, .onConnectionStartOkSent]
  | .tune => [.onConnectionStart, .onConnectionStartOkSent, .onConnectionTune]
  | .tuneOk => [.onConnectionStart, .onConnectionStartOkSent, .onConnectionTune, .onConnectionTuneOkSent heartbeat]
  | .open => [.onConnectionStart, .onConnectionStartOkSent, .onConnectionTune, .onConnectionTuneOkSent heartbeat,
      .onConnectionOpenSent]
  | .openOk => [.onConnectionStart, .onConnectionStartOkSent, .onConnectionTune, .onConnectionTuneOkSent heartbeat,
      .onConnectionOpenSent, .onConnectionOpenOk]
  | _ => []

/-- The whole handshake. -/
def handshake (tls : Bool) (heartbeat : Int) : List ConnCall := connecting tls ++ exchanged heartbeat .openOk

def Tuned (heartbeat : Int) : ConnState → Prop
  | .tuneOk | .open | .openOk => 1 ≤ heartbeat ∧ heartbeat ≤ 60
  | _ => True

/-- The steps that have brought a machine to its state, where that is no end. -/
def Led (sm : ConnectionStateMachine) (steps : List ConnCall) : Prop :=
  match sm.state with
  | .init => steps = []
  | .tcpConnected => steps = connecting false
  | .tlsHandshaking => steps = [.onTcpConnected true]
  | .tlsVerified => steps = connecting true
  | .closing | .closed | .error => True
  | state => (∃ tls, steps = connecting tls ++ exchanged sm.heartbeat state) ∧ Tuned sm.heartbeat state

section Steps

variable {state reached : ConnState} {heartbeat : Int} {steps : List ConnCall} {call : ConnCall}

theorem guarded_eq_ok {c : Prop} [Decidable c] {reason : String} {target : ConnState} :
    (if c then .error reason else .ok target : Except String ConnState) = .ok reached ↔ ¬c ∧ target = reached := by
  split <;> simp_all

theorem allowAmqpHeader_eq_ok (h : ConnState.allowAmqpHeader state = .ok reached) : reached = state := by
  unfold ConnState.allowAmqpHeader at h
  split at h
  · cases h
  · exact (guarded_eq_ok.mp h).2.symm

theorem assertCanSend_eq_ok {methodId : Int}
    (h : ConnCall.transition (.assertCanSendConnectionMethod methodId) state = .ok reached) : reached = state := by
  rw [ConnCall.transition] at h
  split at h
  · cases h
  · unfold ConnState.assertCanSendConnectionMethod at h
    split at h
    · cases h
    · dsimp only at h
      split at h
      · exact (Except.ok.inj h).symm
      · cases h

theorem Led.on (h : Led ⟨state, heartbeat⟩ steps) (hok : call.transition state = .ok reached) :
    Led ⟨reached, call.heartbeat heartbeat⟩ (if call.isStep then steps ++ [call] else steps) := by
  cases call with
  | onTcpConnected tls =>
    obtain ⟨hstate, rfl⟩ := guarded_eq_ok.mp hok
    obtain rfl := not_not.mp hstate
    obtain rfl : steps = [] := h
    cases tls <;> rfl
  | onTlsVerified =>
    obtain ⟨hstate, rfl⟩ := guarded_eq_ok.mp hok
    obtain rfl := not_not.mp hstate
    obtain rfl : steps = [.onTcpConnected true] := h
    rfl
  | allowAmqpHeader =>
    rw [allowAmqpHeader_eq_ok hok]
    exact h
  | onConnectionStart =>
    obtain ⟨hstate, rfl⟩ := guarded_eq_ok.mp hok
    rw [not_and_or, not_not, not_not] at hstate
    rcases hstate with rfl | rfl
    · obtain rfl : steps = connecting false := h
      exact ⟨⟨false, rfl⟩, trivial⟩
    · obtain rfl : steps = connecting true := h
      exact ⟨⟨true, rfl⟩, trivial⟩
  | onConnectionStartOkSent =>
    obtain ⟨hstate, rfl⟩ := guarded_eq_ok.mp hok
    obtain rfl := not_not.mp hstate
    obtain ⟨⟨tls, rfl⟩, -⟩ := h
    exact ⟨⟨tls, List.append_assoc ..⟩, trivial⟩
  | onConnectionTune =>
    obtain ⟨hstate, rfl⟩ := guarded_eq_ok.mp hok
    obtain rfl := not_not.mp hstate
    obtain ⟨⟨tls, rfl⟩, -⟩ := h
    exact ⟨⟨tls, List.append_assoc ..⟩, trivial⟩
  | onConnectionTuneOkSent agreed =>
    rw [ConnCall.transition, ConnState.onConnectionTuneOkSent] at hok
    split at hok
    · cases hok
    · rename_i hstate
      obtain rfl := not_not.mp hstate
      obtain ⟨hrange, rfl⟩ := guarded_eq_ok.mp hok
      obtain ⟨⟨tls, rfl⟩, -⟩ := h
      have hbounds : 1 ≤ agreed ∧ agreed ≤ 60 := by omega
      exact ⟨⟨tls, List.append_assoc ..⟩, hbounds⟩
  | onConnectionOpenSent =>
    obtain ⟨hstate, rfl⟩ := guarded_eq_ok.mp hok
    obtain rfl := not_not.mp hstate
    obtain ⟨⟨tls, rfl⟩, htuned⟩ := h
    exact ⟨⟨tls, List.append_assoc ..⟩, htuned⟩
  | onConnectionOpenOk =>
    obtain ⟨hstate, rfl⟩ := guarded_eq_ok.mp hok
    obtain rfl := not_not.mp hstate
    obtain ⟨⟨tls, rfl⟩, htuned⟩ := h
    exact ⟨⟨tls, List.append_assoc ..⟩, htuned⟩
  | beginClose =>
    obtain ⟨-, rfl⟩ := guarded_eq_ok.mp hok
    trivial
  | onCloseOk =>
    cases hok
    trivial
  | assertCanSendConnectionMethod methodId =>
    rw [assertCanSend_eq_ok hok]
    exact h
  | reject reason => cases hok

theorem led_openOk {sm : ConnectionStateMachine} (hstate : sm.state = .openOk) (h : Led sm steps) :
    (∃ tls, steps = handshake tls sm.heartbeat) ∧ 1 ≤ sm.heartbeat ∧ sm.heartbeat ≤ 60 := by
  obtain ⟨state, heartbeat⟩ := sm
  obtain rfl : state = .openOk := hstate
  exact h

theorem terminal_iff : state.terminal = true ↔ state = .closed ∨ state = .error := by
  cases state <;> simp [ConnState.terminal]

theorem terminal_of_accepted (h : state.terminal = true) (hok : call.transition state = .ok reached) :
    reached.terminal = true := by
  cases call with
  | allowAmqpHeader => rwa [allowAmqpHeader_eq_ok hok]
  | assertCanSendConnectionMethod methodId => rwa [assertCanSend_eq_ok hok]
  | onCloseOk =>
    cases hok
    rfl
  | _ => rcases terminal_iff.mp h with rfl | rfl <;> cases hok

theorem not_terminal_of_legal {methodId : Nat} {allowed : List ConnState}
    (h : ConnState.legal methodId = some allowed) (hstate : state ∈ allowed) : state.terminal = false := by
  unfold ConnState.legal at h
  split at h <;> cases h <;> revert state <;> decide

theorem no_send_of_terminal (h : state.terminal = true) (methodId : Int) :
    ∃ reason, ConnCall.transition (.assertCanSendConnectionMethod methodId) state = .error reason := by
  rw [ConnCall.transition]
  split
  · exact ⟨_, rfl⟩
  · unfold ConnState.assertCanSendConnectionMethod
    split
    · exact ⟨_, rfl⟩
    · rename_i allowed hlegal
      dsimp only
      rw [if_neg fun hstate => Bool.false_ne_true ((not_terminal_of_legal hlegal hstate).symm.trans h)]
      exact ⟨_, rfl⟩

end Steps

/-- The machine is open only after a whole handshake, and not after a rejected call; then no method may be sent
either. -/
structure HandshakeSafe (h : ConnHistory) : Prop where
  opened : h.machine.state.isOpen = true → h.rejected = false ∧ 1 ≤ h.machine.heartbeat ∧ h.machine.heartbeat ≤ 60 ∧
    ∃ tls, h.steps = handshake tls h.machine.heartbeat
  rejected : h.rejected = true → h.machine.state.isOpen = false ∧
    ∀ methodId, ∃ reason, ConnCall.transition (.assertCanSendConnectionMethod methodId) h.machine.state = .error reason

/-- What a call relies on. -/
structure Historical (h : ConnHistory) : Prop where
  led : Led h.machine h.steps
  ended : h.rejected = true → h.machine.state.terminal = true

theorem Historical.next {h : ConnHistory} (hist : Historical h) (call : ConnCall) : Historical (h.next call) := by
  cases hperformed : call.transition h.machine.state with
  | error reason =>
    have hnext : h.next call = { h with machine := { h.machine with state := .error }, rejected := true } := by
      rw [ConnHistory.next, ConnectionStateMachine.perform, hperformed]
    rw [hnext]
    exact ⟨trivial, fun _ => rfl⟩
  | ok reached =>
    have hnext : h.next call = { h with
        machine := { state := reached, heartbeat := call.heartbeat h.machine.heartbeat }
        accepted := h.accepted ++ [call] } := by
      rw [ConnHistory.next, ConnectionStateMachine.perform, hperformed]
    have hsteps : (h.next call).steps = if call.isStep then h.steps ++ [call] else h.steps := by
      rw [hnext, ConnHistory.steps, List.filter_append, List.filter_singleton, ConnHistory.steps]
      cases call.isStep <;> simp
    refine ⟨?_, fun hrejected => ?_⟩
    · rw [hsteps, hnext]
      exact hist.led.on hperformed
    · rw [hnext] at hrejected ⊢
      exact terminal_of_accepted (hist.ended hrejected) hperformed

theorem handshakeSafe_ofCalls (calls : List ConnCall) : HandshakeSafe (ConnHistory.ofCalls calls) := by
  have hist : Historical (ConnHistory.ofCalls calls) := by
    induction calls using List.reverseRecOn with
    | nil => exact ⟨rfl, nofun⟩
    | append_singleton calls call ih =>
      rw [ConnHistory.ofCalls, List.foldl_append]
      exact ih.next call
  refine ⟨fun hopen => ?_, fun hrejected => ?_⟩
  · have hstate : (ConnHistory.ofCalls calls).machine.state = .openOk := by
      revert hopen
      cases (ConnHistory.ofCalls calls).machine.state <;> simp [ConnState.isOpen]
    obtain ⟨hsteps, hlow, hhigh⟩ := led_openOk hstate hist.led
    refine ⟨?_, hlow, hhigh, hsteps⟩
    rw [← Bool.not_eq_true]
    intro hrejected
    have hterminal := hist.ended hrejected
    rw [hstate] at hterminal
    cases hterminal
  · have hterminal := hist.ended hrejected
    refine ⟨?_, no_send_of_terminal hterminal⟩
    rcases terminal_iff.mp hterminal with h | h <;> rw [h] <;> rfl

end Nuropb.Protocol
