import Mathlib.Algebra.Order.Ring.Rat
import Mathlib.Data.List.Iterate
import Mathlib.Tactic.Linarith
import Mathlib.Tactic.NormNum
import Nuropb.Sessions.Workers

/-! # Reconnect backoff

The coordinator calls `Session.reconnect` until a call succeeds or the attempts of its policy are used up, and
sleeps in between. What the calls come to is given: `outcomes n` is what the n-th of them does.
-/
namespace Nuropb.Sessions

open Library

structure BackoffPolicy extends ReconnectPolicy where
  initialBackoff : ℚ := 1 / 20
  maxBackoff : ℚ := 2
  backoff_nonneg : 0 ≤ initialBackoff ∧ 0 ≤ maxBackoff := by norm_num

def BackoffPolicy.grow (policy : BackoffPolicy) (delay : ℚ) : ℚ := min (delay * 2) policy.maxBackoff

inductive Pace
  | attempt
  | sleep (delay : ℚ)

def isException : Exc → Bool
  | .cancelledError => false
  | _ => true

/-- The loop from an attempt on, `left` being the length of the range that is left. -/
def reconnectLoop (policy : BackoffPolicy) (outcomes : Nat → Except Exc Unit) :
    (left attempt : Nat) → (delay : ℚ) → (lastExc : Option Exc) → List Pace × Except Exc Unit
  | 0, _, _, lastExc => ([], .error (lastExc.getD (.other "AssertionError")))
  | left + 1, attempt, delay, _ =>
    match outcomes attempt with
    | .ok _ => ([.attempt], .ok ())
    | .error e =>
      if ¬isException e then ([.attempt], .error e)
      else if policy.maxAttempts ≤ attempt then ([.attempt], .error e)
      else
        let (paces, result) := reconnectLoop policy outcomes left (attempt + 1) (policy.grow delay) (some e)
        (.attempt :: .sleep delay :: paces, result)

def coordinatorReconnect (policy : BackoffPolicy) (outcomes : Nat → Except Exc Unit) : List Pace × Except Exc Unit :=
  reconnectLoop policy outcomes policy.maxAttempts 1 policy.initialBackoff none

/-! ## Attempts with a sleep between each and the next -/

/-- One attempt more than there are delays. -/
def spaced : List ℚ → List Pace
  | [] => [.attempt]
  | d :: rest => .attempt :: .sleep d :: spaced rest

def Pace.delay? : Pace → Option ℚ
  | .attempt => none
  | .sleep d => some d

def delays (paces : List Pace) : List ℚ := paces.filterMap Pace.delay?

def attempts (paces : List Pace) : Nat := paces.countP fun pace => pace.delay?.isNone

@[simp] theorem delays_spaced (ds : List ℚ) : delays (spaced ds) = ds := by
  induction ds with
  | nil => rfl
  | cons d rest ih => exact congrArg (d :: ·) ih

@[simp] theorem attempts_spaced (ds : List ℚ) : attempts (spaced ds) = ds.length + 1 := by
  induction ds with
  | nil => rfl
  | cons d rest ih => simpa [attempts, spaced, Pace.delay?] using ih

def Fails (outcome : Except Exc Unit) : Prop := ∃ e, outcome = .error e ∧ isException e = true

/-- The coordinator has kept to its policy. -/
structure KeepsPolicy (policy : BackoffPolicy) (outcomes : Nat → Except Exc Unit) (paces : List Pace)
    (result : Except Exc Unit) : Prop where
  spaced : paces = spaced (delays paces)
  atMost : attempts paces ≤ policy.maxAttempts
  failed : ∀ n, 1 ≤ n → n < attempts paces → Fails (outcomes n)
  capped : ∀ d ∈ delays paces, d ≤ policy.maxBackoff
  growing : (delays paces).IsChain (· ≤ ·)
  last : result = outcomes (attempts paces)
  raises : Fails result ↔ ∀ n, 1 ≤ n → n ≤ policy.maxAttempts → Fails (outcomes n)

variable {policy : BackoffPolicy}

/-- The loop sleeps for the initial delay and its images under `grow`, one for each failure but the last
attempt's. -/
theorem reconnectLoop_eq {left attempt : Nat} (outcomes : Nat → Except Exc Unit) (delay : ℚ) (lastExc : Option Exc)
    (hleft : attempt + left = policy.maxAttempts + 1) (hpos : left ≠ 0) :
    ∃ n, reconnectLoop policy outcomes left attempt delay lastExc =
        (spaced (List.iterate policy.grow delay n), outcomes (attempt + n)) ∧
      attempt + n ≤ policy.maxAttempts ∧ (∀ i < n, Fails (outcomes (attempt + i))) ∧
      (Fails (outcomes (attempt + n)) → attempt + n = policy.maxAttempts) := by
  induction left generalizing attempt delay lastExc with
  | zero => exact absurd rfl hpos
  | succ left ih =>
    rw [reconnectLoop]
    split
    · rename_i hok
      refine ⟨0, by rw [Nat.add_zero, hok]; rfl, by omega, nofun, ?_⟩
      rintro ⟨e, he, -⟩
      rw [Nat.add_zero, hok] at he
      cases he
    · rename_i e he
      split
      · rename_i hexc
        refine ⟨0, by rw [Nat.add_zero, he]; rfl, by omega, nofun, ?_⟩
        rintro ⟨e', he', hexc'⟩
        rw [Nat.add_zero, he] at he'
        cases he'
        exact absurd hexc' hexc
      · rename_i hexc
        have hfails : Fails (outcomes attempt) := ⟨e, he, not_not.mp hexc⟩
        split
        · rename_i hlast
          exact ⟨0, by rw [Nat.add_zero, he]; rfl, by omega, nofun, fun _ => by omega⟩
        · rename_i hmore
          obtain ⟨n, hloop, hatMost, hbefore, hend⟩ := ih (policy.grow delay) (some e)
            (show attempt + 1 + left = policy.maxAttempts + 1 by omega) (by omega)
          have hshift (i : Nat) : attempt + (i + 1) = attempt + 1 + i := by omega
          refine ⟨n + 1, ?_, by omega, fun i hi => ?_, ?_⟩
          · rw [hloop, hshift n]
            rfl
          · cases i with
            | zero => exact hfails
            | succ i =>
              rw [hshift]
              exact hbefore i (by omega)
          · rw [hshift n]
            exact hend

theorem capped_grow (delay : ℚ) : policy.grow delay ≤ policy.maxBackoff := min_le_right _ _

theorem le_grow {delay : ℚ} (hpos : 0 ≤ delay) (hcap : delay ≤ policy.maxBackoff) : delay ≤ policy.grow delay :=
  le_min (by linarith) hcap

/-- From a delay within the cap on, no delay is above it, or below the one before. -/
theorem iterate_grow {delay : ℚ} (hpos : 0 ≤ delay) (hcap : delay ≤ policy.maxBackoff) (n : Nat) :
    (∀ d ∈ List.iterate policy.grow delay n, d ≤ policy.maxBackoff) ∧
      (List.iterate policy.grow delay n).IsChain (· ≤ ·) := by
  induction n generalizing delay with
  | zero => exact ⟨nofun, .nil⟩
  | succ n ih =>
    have hle := le_grow hpos hcap
    obtain ⟨hrest, hchain⟩ := ih (hpos.trans hle) (capped_grow delay)
    refine ⟨List.forall_mem_cons.mpr ⟨hcap, hrest⟩, ?_⟩
    cases n with
    | zero => exact .singleton delay
    | succ n => exact .cons_cons hle hchain

/-- The coordinator keeps to its policy exactly if it does not sleep, or its first delay is within the cap. -/
theorem keepsPolicy_iff (policy : BackoffPolicy) (outcomes : Nat → Except Exc Unit) :
    KeepsPolicy policy outcomes (coordinatorReconnect policy outcomes).1 (coordinatorReconnect policy outcomes).2 ↔
      policy.maxAttempts = 1 ∨ ¬Fails (outcomes 1) ∨ policy.initialBackoff ≤ policy.maxBackoff := by
  have hattempts := policy.attempts_pos
  obtain ⟨n, hloop, hatMost, hbefore, hend⟩ := reconnectLoop_eq outcomes policy.initialBackoff none
    (Nat.add_comm 1 policy.maxAttempts) (by omega)
  rw [coordinatorReconnect, hloop]
  constructor
  · intro h
    by_contra hnot
    push Not at hnot
    obtain ⟨hmore, hfails, hover⟩ := hnot
    cases n with
    | zero => exact hmore (hend hfails).symm
    | succ n =>
      have hfirst := h.capped policy.initialBackoff (by simp [List.iterate])
      exact absurd hfirst (not_le.mpr hover)
  · intro h
    -- Where it does not sleep there is nothing to cap.
    have hdelays : (∀ d ∈ List.iterate policy.grow policy.initialBackoff n, d ≤ policy.maxBackoff) ∧
        (List.iterate policy.grow policy.initialBackoff n).IsChain (· ≤ ·) := by
      cases n with
      | zero => exact ⟨nofun, .nil⟩
      | succ n =>
        rcases h with hone | hfirst | hcap
        · omega
        · exact absurd (hbefore 0 (by omega)) hfirst
        · exact iterate_grow policy.backoff_nonneg.1 hcap (n + 1)
    have hcount : attempts (spaced (List.iterate policy.grow policy.initialBackoff n)) = 1 + n := by
      rw [attempts_spaced, List.length_iterate, Nat.add_comm]
    refine ⟨by rw [delays_spaced], ?_, ?_, ?_, ?_, ?_, ?_⟩
    · rw [hcount]
      exact hatMost
    · intro k hk hlt
      rw [hcount] at hlt
      obtain ⟨i, rfl⟩ := Nat.exists_eq_add_of_le hk
      exact hbefore i (by omega)
    · rw [delays_spaced]
      exact hdelays.1
    · rw [delays_spaced]
      exact hdelays.2
    · rw [hcount]
    · constructor
      · intro hfails k hk hle
        obtain ⟨i, rfl⟩ := Nat.exists_eq_add_of_le hk
        rcases (show i ≤ n by have := hend hfails; omega).lt_or_eq with hi | rfl
        · exact hbefore i hi
        · exact hfails
      · intro hall
        exact hall (1 + n) (by omega) hatMost

/-- Two attempts, the second after a delay above the cap. -/
def overlongBackoff : BackoffPolicy where
  maxAttempts := 2
  initialBackoff := 3
  maxBackoff := 2

theorem overlongBackoff_not_keepsPolicy :
    ¬KeepsPolicy overlongBackoff (fun _ => .error (.runtimeError "nope"))
      (coordinatorReconnect overlongBackoff fun _ => .error (.runtimeError "nope")).1
      (coordinatorReconnect overlongBackoff fun _ => .error (.runtimeError "nope")).2 := by
  intro h
  have hslept : (3 : ℚ) ≤ 2 := h.capped 3 (List.mem_singleton.mpr rfl)
  norm_num at hslept

end Nuropb.Sessions
