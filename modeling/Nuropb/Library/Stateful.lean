import Nuropb.Library.Outcome

/-! # Computations that change a state and may raise

A raise keeps the state reached so far. A sequence is taken apart at its binds, in the
returning and in the raising direction.
-/
namespace Nuropb.Library

universe u

section Rules

variable {ε σ α β : Type u}

/-- Lift a pure fallible value. -/
def lift (x : Except ε α) : EStateM ε σ α := fun s =>
  match x with
  | .ok a => .ok a s
  | .error e => .error e s

/-- Raise `e` when `c` holds. -/
def throwIf (c : Prop) [Decidable c] (e : ε) : EStateM ε σ PUnit := fun s =>
  if c then .error e s else .ok .unit s

/-- The outcome as a value, to be looked at by what comes next. -/
def observe (x : EStateM ε σ α) : EStateM ε σ (Except ε α) := fun s =>
  match x s with
  | .ok a t => .ok (.ok a) t
  | .error e t => .ok (.error e) t

@[simp] theorem pure_run (a : α) (s : σ) : (pure a : EStateM ε σ α) s = .ok a s := rfl

@[simp] theorem throw_run (e : ε) (s : σ) : (throw e : EStateM ε σ α) s = .error e s := rfl

@[simp] theorem get_run (s : σ) : (get : EStateM ε σ σ) s = .ok s s := rfl

@[simp] theorem modify_run (f : σ → σ) (s : σ) :
    (modify f : EStateM ε σ PUnit) s = .ok .unit (f s) := rfl

@[simp] theorem lift_ok (a : α) (s : σ) : (lift (.ok a) : EStateM ε σ α) s = .ok a s := rfl

@[simp] theorem lift_error (e : ε) (s : σ) : (lift (.error e) : EStateM ε σ α) s = .error e s := rfl

theorem bind_run (x : EStateM ε σ α) (f : α → EStateM ε σ β) (s : σ) :
    (x >>= f) s = match x s with
      | .ok a t => f a t
      | .error e t => .error e t := rfl

theorem bind_run_ok {x : EStateM ε σ α} {f : α → EStateM ε σ β} {s t : σ} {a : α}
    (h : x s = .ok a t) : (x >>= f) s = f a t := by
  rw [bind_run, h]

theorem bind_run_error {x : EStateM ε σ α} {f : α → EStateM ε σ β} {s t : σ} {e : ε}
    (h : x s = .error e t) : (x >>= f) s = .error e t := by
  rw [bind_run, h]

theorem bind_returns {x : EStateM ε σ α} {f : α → EStateM ε σ β} {s s' : σ} {b : β} :
    (x >>= f) s = .ok b s' ↔ ∃ a t, x s = .ok a t ∧ f a t = .ok b s' := by
  rw [bind_run]
  cases x s with
  | ok a t => simp [and_assoc]
  | error e t => simp

theorem bind_raises {x : EStateM ε σ α} {f : α → EStateM ε σ β} {s s' : σ} {e : ε} :
    (x >>= f) s = .error e s' ↔
      x s = .error e s' ∨ ∃ a t, x s = .ok a t ∧ f a t = .error e s' := by
  rw [bind_run]
  cases x s with
  | ok a t => simp [and_assoc]
  | error e t => simp

theorem observe_of_ok {x : EStateM ε σ α} {s t : σ} {a : α} (h : x s = .ok a t) :
    observe x s = .ok (.ok a) t := by
  rw [observe, h]

theorem observe_of_error {x : EStateM ε σ α} {s t : σ} {e : ε} (h : x s = .error e t) :
    observe x s = .ok (.error e) t := by
  rw [observe, h]

theorem lift_returns {x : Except ε α} {s s' : σ} {a : α} :
    lift x s = .ok a s' ↔ x = .ok a ∧ s' = s := by
  cases x <;> simp [eq_comm]

theorem throwIf_of {c : Prop} [Decidable c] (h : c) (e : ε) (s : σ) :
    throwIf c e s = .error e s := by
  rw [throwIf, if_pos h]

theorem throwIf_of_not {c : Prop} [Decidable c] (h : ¬c) (e : ε) (s : σ) :
    throwIf c e s = .ok .unit s := by
  rw [throwIf, if_neg h]

end Rules

/-! ## What is raised -/

section Throwing

variable {ε σ α β : Type u} {P : ε → Prop}

/-- Nothing else is raised, from any state. -/
def Throws (P : ε → Prop) (x : EStateM ε σ α) : Prop := ∀ s e s', x s = .error e s' → P e

theorem throws_pure (a : α) : Throws P (pure a : EStateM ε σ α) := by
  rintro s e s' ⟨⟩

theorem throws_throw {e : ε} (h : P e) : Throws P (throw e : EStateM ε σ α) := by
  rintro s e s' ⟨⟩
  exact h

theorem throws_get : Throws P (get : EStateM ε σ σ) := by
  rintro s e s' ⟨⟩

theorem throws_modify (f : σ → σ) : Throws P (modify f : EStateM ε σ PUnit) := by
  rintro s e s' ⟨⟩

theorem throws_lift {x : Except ε α} (h : Raises P x) : Throws P (lift x : EStateM ε σ α) := by
  intro s e s' hrun
  cases x with
  | ok a => cases hrun
  | error e =>
    cases hrun
    exact h e rfl

theorem throws_throwIf {c : Prop} [Decidable c] {e : ε} (h : P e) : Throws P (throwIf c e : EStateM ε σ PUnit) := by
  intro s e' s' hrun
  unfold throwIf at hrun
  split at hrun
  · cases hrun
    exact h
  · cases hrun

theorem throws_bind {x : EStateM ε σ α} {f : α → EStateM ε σ β} (hx : Throws P x) (hf : ∀ a, Throws P (f a)) :
    Throws P (x >>= f) := by
  intro s e s' hrun
  rcases bind_raises.mp hrun with hrun | ⟨a, t, -, hrun⟩
  · exact hx s e s' hrun
  · exact hf a t e s' hrun

theorem throws_ite {c : Prop} [Decidable c] {x y : EStateM ε σ α} (hx : Throws P x) (hy : Throws P y) :
    Throws P (if c then x else y) := by
  split
  · exact hx
  · exact hy

end Throwing

/-! ## Relations that every outcome keeps -/

section Keeps

variable {ε σ α β : Type u} {R : σ → σ → Prop}

/-- The state that a computation leaves, whether it returns or raises. -/
def resultState : EStateM.Result ε σ α → σ
  | .ok _ s => s
  | .error _ s => s

/-- The computation raises. -/
def endsRaising : EStateM.Result ε σ α → Bool
  | .ok _ _ => false
  | .error _ _ => true

@[simp] theorem resultState_ok (a : α) (s : σ) : resultState (.ok a s : EStateM.Result ε σ α) = s := rfl

@[simp] theorem resultState_error (e : ε) (s : σ) : resultState (.error e s : EStateM.Result ε σ α) = s := rfl

/-- However the computation ends, it has moved the state by the relation. -/
def Keeps (R : σ → σ → Prop) (x : EStateM ε σ α) : Prop := ∀ s, R s (resultState (x s))

theorem keeps_pure (hrefl : ∀ s, R s s) (a : α) : Keeps R (pure a : EStateM ε σ α) := hrefl

theorem keeps_throw (hrefl : ∀ s, R s s) (e : ε) : Keeps R (throw e : EStateM ε σ α) := hrefl

theorem keeps_get (hrefl : ∀ s, R s s) : Keeps R (get : EStateM ε σ σ) := hrefl

theorem keeps_modify {f : σ → σ} (h : ∀ s, R s (f s)) : Keeps R (modify f : EStateM ε σ PUnit) := h

theorem keeps_lift (hrefl : ∀ s, R s s) (x : Except ε α) : Keeps R (lift x : EStateM ε σ α) := by
  intro s
  cases x with
  | ok a => exact hrefl s
  | error e => exact hrefl s

theorem keeps_throwIf (hrefl : ∀ s, R s s) (c : Prop) [Decidable c] (e : ε) :
    Keeps R (throwIf c e : EStateM ε σ PUnit) := by
  intro s
  by_cases h : c
  · rw [throwIf_of h]
    exact hrefl s
  · rw [throwIf_of_not h]
    exact hrefl s

theorem keeps_bind (htrans : ∀ s t u, R s t → R t u → R s u) {x : EStateM ε σ α} {f : α → EStateM ε σ β}
    (hx : Keeps R x) (hf : ∀ a, Keeps R (f a)) : Keeps R (x >>= f) := by
  intro s
  have hfirst := hx s
  cases hrun : x s with
  | ok a t =>
    rw [hrun] at hfirst
    rw [bind_run_ok hrun]
    exact htrans s t _ hfirst (hf a t)
  | error e t =>
    rw [hrun] at hfirst
    rw [bind_run_error hrun]
    exact hfirst

theorem keeps_ite {c : Prop} [Decidable c] {x y : EStateM ε σ α} (hx : c → Keeps R x) (hy : ¬c → Keeps R y) :
    Keeps R (if c then x else y) := by
  by_cases h : c
  · rw [if_pos h]
    exact hx h
  · rw [if_neg h]
    exact hy h

/-- Whenever the computation returns, it has moved the state by the relation. -/
def KeepsReturning (R : σ → σ → Prop) (x : EStateM ε σ α) : Prop := ∀ s a t, x s = .ok a t → R s t

theorem Keeps.returning {x : EStateM ε σ α} (h : Keeps R x) : KeepsReturning R x := by
  intro s a t hrun
  have hkept := h s
  rw [hrun] at hkept
  exact hkept

theorem keepsReturning_bind (htrans : ∀ s t u, R s t → R t u → R s u) {x : EStateM ε σ α}
    {f : α → EStateM ε σ β} (hx : KeepsReturning R x) (hf : ∀ a, KeepsReturning R (f a)) :
    KeepsReturning R (x >>= f) := by
  intro s b u hrun
  obtain ⟨a, t, hfirst, hrest⟩ := bind_returns.mp hrun
  exact htrans s t u (hx s a t hfirst) (hf a t b u hrest)

theorem keepsReturning_ite {c : Prop} [Decidable c] {x y : EStateM ε σ α} (hx : c → KeepsReturning R x)
    (hy : ¬c → KeepsReturning R y) : KeepsReturning R (if c then x else y) := by
  by_cases h : c
  · rw [if_pos h]
    exact hx h
  · rw [if_neg h]
    exact hy h

end Keeps

end Nuropb.Library
