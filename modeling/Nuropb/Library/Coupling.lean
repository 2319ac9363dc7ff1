import Nuropb.Library.Stateful

/-! # Two runs side by side

Two computations are coupled when from related states both return or both raise, in states that are related again. -/
namespace Nuropb.Library

universe u

variable {ε σ α β γ δ : Type u} {R S : σ → σ → Prop} {Q : α → β → Prop}

inductive Matched (R : σ → σ → Prop) (Q : α → β → Prop) : EStateM.Result ε σ α → EStateM.Result ε σ β → Prop
  | ok {a : α} {b : β} {s t : σ} (hvalue : Q a b) (hstate : R s t) : Matched R Q (.ok a s) (.ok b t)
  | error {e e' : ε} {s t : σ} (hstate : R s t) : Matched R Q (.error e s) (.error e' t)

def Coupled (R : σ → σ → Prop) (Q : α → β → Prop) (x : EStateM ε σ α) (y : EStateM ε σ β) : Prop :=
  ∀ s t, R s t → Matched R Q (x s) (y t)

theorem coupled_pure {a : α} {b : β} (h : Q a b) : Coupled R Q (pure a : EStateM ε σ α) (pure b) :=
  fun _ _ hstate => .ok h hstate

theorem coupled_throw (e e' : ε) : Coupled R Q (throw e : EStateM ε σ α) (throw e') := fun _ _ hstate => .error hstate

theorem coupled_get : Coupled R R (get : EStateM ε σ σ) get := fun _ _ hstate => .ok hstate hstate

theorem coupled_modify {f g : σ → σ} (h : ∀ s t, R s t → R (f s) (g t)) :
    Coupled R Eq (modify f : EStateM ε σ PUnit) (modify g) :=
  fun s t hstate => .ok rfl (h s t hstate)

theorem coupled_lift (x : Except ε α) : Coupled R Eq (lift x : EStateM ε σ α) (lift x) := by
  intro s t hstate
  cases x with
  | ok a => exact .ok rfl hstate
  | error e => exact .error hstate

theorem coupled_throwIf {c d : Prop} [Decidable c] [Decidable d] (h : c ↔ d) (e e' : ε) :
    Coupled R Eq (throwIf c e : EStateM ε σ PUnit) (throwIf d e') := by
  intro s t hstate
  by_cases hc : c
  · rw [throwIf_of hc, throwIf_of (h.mp hc)]
    exact .error hstate
  · rw [throwIf_of_not hc, throwIf_of_not (mt h.mpr hc)]
    exact .ok rfl hstate

theorem coupled_bind {P : γ → δ → Prop} {x : EStateM ε σ α} {y : EStateM ε σ β} {f : α → EStateM ε σ γ}
    {g : β → EStateM ε σ δ} (hxy : Coupled R Q x y) (hfg : ∀ a b, Q a b → Coupled R P (f a) (g b)) :
    Coupled R P (x >>= f) (y >>= g) := by
  intro s t hstate
  have hmatched := hxy s t hstate
  rw [bind_run, bind_run]
  generalize x s = r at hmatched ⊢
  generalize y t = r' at hmatched ⊢
  cases hmatched with
  | ok hvalue hstate => exact hfg _ _ hvalue _ _ hstate
  | error hstate => exact .error hstate

/-- Both computations read the state first. -/
theorem coupled_get_bind {f : σ → EStateM ε σ α} {g : σ → EStateM ε σ β} (h : ∀ s t, R s t → Coupled R Q (f s) (g t)) :
    Coupled R Q (get >>= f) (get >>= g) := coupled_bind coupled_get h

/-- The states that two computations leave are related by another relation in the end. -/
def Ends (R S : σ → σ → Prop) (x : EStateM ε σ α) (y : EStateM ε σ β) : Prop :=
  ∀ s t, R s t → S (resultState (x s)) (resultState (y t))

theorem ends_bind {x : EStateM ε σ α} {y : EStateM ε σ β} {f : α → EStateM ε σ γ} {g : β → EStateM ε σ δ}
    (hxy : Coupled R Q x y) (hweaken : ∀ s t, R s t → S s t) (hfg : ∀ a b, Q a b → Ends R S (f a) (g b)) :
    Ends R S (x >>= f) (y >>= g) := by
  intro s t hstate
  have hmatched := hxy s t hstate
  rw [bind_run, bind_run]
  generalize x s = r at hmatched ⊢
  generalize y t = r' at hmatched ⊢
  cases hmatched with
  | ok hvalue hstate => exact hfg _ _ hvalue _ _ hstate
  | error hstate => exact hweaken _ _ hstate

end Nuropb.Library
