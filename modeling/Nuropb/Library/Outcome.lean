import Mathlib.Data.List.Forall2

/-! # Computations that return or raise

Rules for taking a sequence of fallible steps apart: a bind succeeds exactly when both of
its parts do, and a guarded raise succeeds exactly when its condition fails.
-/
namespace Nuropb.Library

universe u v

/-- Raise `e` when `c` holds. -/
def raiseIf {ε : Type u} (c : Prop) [Decidable c] (e : ε) : Except ε Unit :=
  if c then .error e else .ok ()

/-- The value is there, or `e` is raised. -/
def orRaise {ε : Type u} {α : Type v} (e : ε) : Option α → Except ε α
  | some a => .ok a
  | none => .error e

section Rules

variable {ε : Type u} {α β : Type v}

@[simp] theorem ok_bind (a : α) (f : α → Except ε β) : (Except.ok a >>= f) = f a := rfl

@[simp] theorem error_bind (e : ε) (f : α → Except ε β) : (Except.error e >>= f) = .error e := rfl

@[simp] theorem pure_eq_ok (a : α) : (pure a : Except ε α) = .ok a := rfl

theorem bind_eq_ok {x : Except ε α} {f : α → Except ε β} {b : β} :
    (x >>= f) = .ok b ↔ ∃ a, x = .ok a ∧ f a = .ok b := by
  cases x with
  | error e => simp
  | ok a => simp

/-- A sequence raises when its first step does, or the rest does after it. -/
theorem bind_eq_error {x : Except ε α} {f : α → Except ε β} {e : ε} :
    (x >>= f) = .error e ↔ x = .error e ∨ ∃ a, x = .ok a ∧ f a = .error e := by
  cases x with
  | error e' => simp
  | ok a => simp

theorem raiseIf_eq_ok {c : Prop} [Decidable c] {e : ε} {u : Unit} :
    raiseIf c e = .ok u ↔ ¬c := by
  by_cases h : c <;> simp [raiseIf, h]

theorem raiseIf_of_not {c : Prop} [Decidable c] {e : ε} (h : ¬c) : raiseIf c e = .ok () := by
  rw [raiseIf, if_neg h]

theorem raiseIf_of {c : Prop} [Decidable c] {e : ε} (h : c) : raiseIf c e = .error e := by
  rw [raiseIf, if_pos h]

@[simp] theorem orRaise_some (e : ε) (a : α) : orRaise e (some a) = .ok a := rfl

@[simp] theorem orRaise_none (e : ε) : orRaise e (none : Option α) = .error e := rfl

theorem orRaise_eq_ok {e : ε} {o : Option α} {a : α} : orRaise e o = .ok a ↔ o = some a := by
  cases o <;> simp [orRaise]

theorem ok_or_error (x : Except ε α) : (∃ a, x = .ok a) ∨ ∃ e, x = .error e := by
  cases x with
  | error e => exact .inr ⟨e, rfl⟩
  | ok a => exact .inl ⟨a, rfl⟩

@[simp] theorem toOption_ok (a : α) : (Except.ok a : Except ε α).toOption = some a := rfl

@[simp] theorem toOption_error (e : ε) : (Except.error e : Except ε α).toOption = none := rfl

theorem toOption_bind (x : Except ε α) (f : α → Except ε β) :
    (x >>= f).toOption = x.toOption.bind fun a => (f a).toOption := by
  cases x <;> rfl

theorem toOption_eq_some {x : Except ε α} {a : α} : x.toOption = some a ↔ x = .ok a := by
  cases x <;> simp

theorem toOption_eq_none {x : Except ε α} : x.toOption = none ↔ ∃ e, x = .error e := by
  cases x <;> simp

theorem toOption_ite (c : Prop) [Decidable c] (x y : Except ε α) :
    (if c then x else y).toOption = if c then x.toOption else y.toOption := by
  split <;> rfl

theorem forall₂_of_mapM {f : α → Except ε β} {xs : List α} {ys : List β} (h : xs.mapM f = .ok ys) :
    List.Forall₂ (fun a b => f a = .ok b) xs ys := by
  induction xs generalizing ys with
  | nil =>
    cases h
    exact .nil
  | cons a xs ih =>
    rw [List.mapM_cons] at h
    obtain ⟨b, hb, h⟩ := bind_eq_ok.mp h
    obtain ⟨bs, hbs, h⟩ := bind_eq_ok.mp h
    cases h
    exact .cons hb (ih hbs)

/-- A map over a list returns what is wanted exactly if it does for each item. -/
theorem exists_mapM_iff {f : α → Except ε β} {xs : List α} {Q : β → Prop} :
    (∃ ys, xs.mapM f = .ok ys ∧ ∀ y ∈ ys, Q y) ↔ ∀ x ∈ xs, ∃ y, f x = .ok y ∧ Q y := by
  induction xs with
  | nil => exact iff_of_true ⟨[], rfl, by simp⟩ (by simp)
  | cons x xs ih =>
    rw [List.forall_mem_cons, ← ih, List.mapM_cons]
    constructor
    · rintro ⟨ys, hys, hall⟩
      obtain ⟨y, hy, hys⟩ := bind_eq_ok.mp hys
      obtain ⟨rest, hrest, hys⟩ := bind_eq_ok.mp hys
      cases hys
      obtain ⟨hfirst, hothers⟩ := List.forall_mem_cons.mp hall
      exact ⟨⟨y, hy, hfirst⟩, rest, hrest, hothers⟩
    · rintro ⟨⟨y, hy, hfirst⟩, ys, hys, hall⟩
      refine ⟨y :: ys, ?_, List.forall_mem_cons.mpr ⟨hfirst, hall⟩⟩
      rw [hy, ok_bind, hys]
      rfl

end Rules

/-! ## What is raised -/

section Raising

variable {ε : Type u} {α β : Type v} {P : ε → Prop} {x : Except ε α} {e : ε}

/-- Nothing else is raised. -/
def Raises (P : ε → Prop) (x : Except ε α) : Prop := ∀ e, x = .error e → P e

instance Raises.instDecidable [DecidablePred P] : Decidable (Raises P x) :=
  match x with
  | .ok _ => .isTrue (by rintro e ⟨⟩)
  | .error e => decidable_of_iff (P e) ⟨by rintro h e' ⟨⟩; exact h, fun h => h e rfl⟩

theorem Raises.mono {Q : ε → Prop} (h : Raises P x) (himp : ∀ e, P e → Q e) : Raises Q x := fun e he => himp e (h e he)

theorem raises_ok (a : α) : Raises P (.ok a) := by
  intro e he
  cases he

theorem raises_error (h : P e) : Raises P (.error e : Except ε α) := by
  intro e' he
  cases he
  exact h

theorem raises_bind {f : α → Except ε β} (hx : Raises P x) (hf : ∀ a, x = .ok a → Raises P (f a)) :
    Raises P (x >>= f) := by
  intro e he
  rcases bind_eq_error.mp he with he | ⟨a, ha, he⟩
  · exact hx e he
  · exact hf a ha e he

/-- A sequence raises no more than its first step and the rest after it. -/
theorem raises_bind_iff {f : α → Except ε β} : Raises P (x >>= f) ↔ Raises P x ∧ ∀ a, x = .ok a → Raises P (f a) := by
  constructor
  · intro h
    refine ⟨?_, ?_⟩
    · intro e he
      exact h e (bind_eq_error.mpr (.inl he))
    · intro a ha e he
      exact h e (bind_eq_error.mpr (.inr ⟨a, ha, he⟩))
  · rintro ⟨hx, hf⟩
    exact raises_bind hx hf

theorem raises_raiseIf {c : Prop} [Decidable c] (h : P e) : Raises P (raiseIf c e) := by
  unfold raiseIf
  split
  · exact raises_error h
  · exact raises_ok ()

theorem raises_orRaise {o : Option α} (h : P e) : Raises P (orRaise e o) := by
  cases o with
  | none => exact raises_error h
  | some a => exact raises_ok a

theorem raises_mapM {f : α → Except ε β} {xs : List α} (h : ∀ a ∈ xs, Raises P (f a)) : Raises P (xs.mapM f) := by
  induction xs with
  | nil => exact raises_ok []
  | cons a xs ih =>
    rw [List.mapM_cons]
    refine raises_bind (h a List.mem_cons_self) fun b _ => raises_bind ?_ fun bs _ => raises_ok _
    exact ih fun a ha => h a (List.mem_cons_of_mem _ ha)

end Raising

end Nuropb.Library
