import Mathlib.Data.List.Basic
import Mathlib.Logic.Relation

/-! # Runs of a deterministic machine with guarded steps

A machine is a partial step function on states and events. A guard names the steps a
result is about; an invariant that every guarded step keeps holds at the end of every
guarded run. Concrete runs are computed by `run` and enter through `reaches_of_run`.
-/
namespace Nuropb.Library

universe u v

section Machine

variable {σ : Type u} {ε : Type v} {step : σ → ε → Option σ} {ok : σ → ε → Prop} {s s' : σ}

/-- One step of an event that the guard admits in the state it is taken from. -/
def StepWhere (step : σ → ε → Option σ) (ok : σ → ε → Prop) (s s' : σ) : Prop :=
  ∃ e, ok s e ∧ step s e = some s'

/-- The end states of runs all of whose steps the guard admits. -/
def ReachesWhere (step : σ → ε → Option σ) (ok : σ → ε → Prop) : σ → σ → Prop :=
  Relation.ReflTransGen (StepWhere step ok)

def Reaches (step : σ → ε → Option σ) : σ → σ → Prop := ReachesWhere step fun _ _ => True

theorem ReachesWhere.refl (s : σ) : ReachesWhere step ok s s := Relation.ReflTransGen.refl

theorem ReachesWhere.snoc {m : σ} (h : ReachesWhere step ok s m) {e : ε} (hok : ok m e)
    (hstep : step m e = some s') : ReachesWhere step ok s s' :=
  Relation.ReflTransGen.tail h ⟨e, hok, hstep⟩

/-- The run rule: what every admitted step keeps holds at the end of every admitted run. -/
theorem ReachesWhere.invariant {Inv : σ → Prop} (h : ReachesWhere step ok s s') (hs : Inv s)
    (hstep : ∀ a e b, Inv a → ok a e → step a e = some b → Inv b) : Inv s' := by
  induction h with
  | refl => exact hs
  | tail _ hlast ih =>
    obtain ⟨e, hok, he⟩ := hlast
    exact hstep _ e _ ih hok he

theorem ReachesWhere.mono {ok' : σ → ε → Prop} (h : ReachesWhere step ok s s')
    (himp : ∀ a e, ok a e → ok' a e) : ReachesWhere step ok' s s' := by
  induction h with
  | refl => exact .refl _
  | tail _ hlast ih =>
    obtain ⟨e, hok, he⟩ := hlast
    exact ih.snoc (himp _ e hok) he

def run (step : σ → ε → Option σ) : σ → List ε → Option σ
  | s, [] => some s
  | s, e :: es => (step s e).bind fun s' => run step s' es

/-- Every event of the run is admitted in the state it is taken from. -/
def Admits (step : σ → ε → Option σ) (ok : σ → ε → Prop) : σ → List ε → Prop
  | _, [] => True
  | s, e :: es => ok s e ∧ match step s e with
    | some s' => Admits step ok s' es
    | none => True

instance Admits.decidable [∀ s e, Decidable (ok s e)] :
    ∀ (s : σ) (es : List ε), Decidable (Admits step ok s es)
  | _, [] => isTrue trivial
  | s, e :: es =>
    match h : step s e with
    | some s' =>
      haveI := Admits.decidable s' es
      decidable_of_iff (ok s e ∧ Admits step ok s' es) (by simp only [Admits, h])
    | none => decidable_of_iff (ok s e) (by simp only [Admits, h, and_true])

theorem reaches_of_run {es : List ε} (hrun : run step s es = some s')
    (hok : Admits step ok s es) : ReachesWhere step ok s s' := by
  induction es generalizing s with
  | nil =>
    cases hrun
    exact .refl _
  | cons e es ih =>
    obtain ⟨m, hm, hrest⟩ := Option.bind_eq_some_iff.mp hrun
    simp only [Admits, hm] at hok
    exact Relation.ReflTransGen.head ⟨e, hok.1, hm⟩ (ih hrest hok.2)

theorem admits_true (s : σ) (es : List ε) : Admits step (fun _ _ => True) s es := by
  induction es generalizing s with
  | nil => trivial
  | cons e es ih =>
    refine ⟨trivial, ?_⟩
    cases step s e with
    | none => trivial
    | some s' => exact ih s'

/-- A guard may be strengthened where an invariant holds that every step keeps. -/
theorem admits_of_invariant {I : σ → Prop} {ok' : σ → ε → Prop} {es : List ε} (hs : I s)
    (hstep : ∀ a e b, I a → step a e = some b → I b) (himp : ∀ a e, I a → ok a e → ok' a e)
    (h : Admits step ok s es) : Admits step ok' s es := by
  induction es generalizing s with
  | nil => trivial
  | cons e es ih =>
    refine ⟨himp s e hs h.1, ?_⟩
    cases hnext : step s e with
    | none => trivial
    | some s' =>
      have hrest := h.2
      simp only [hnext] at hrest
      exact ih (hstep s e s' hs hnext) hrest

theorem admits_mono {ok' : σ → ε → Prop} {es : List ε} (h : Admits step ok s es) (himp : ∀ a e, ok a e → ok' a e) :
    Admits step ok' s es :=
  admits_of_invariant (I := fun _ => True) trivial (fun _ _ _ _ _ => trivial) (fun a e _ => himp a e) h

theorem admits_append {m : σ} {es fs : List ε} (hrun : run step s es = some m) :
    Admits step ok s (es ++ fs) ↔ Admits step ok s es ∧ Admits step ok m fs := by
  induction es generalizing s with
  | nil =>
    cases hrun
    exact (true_and _).to_iff.symm
  | cons e es ih =>
    obtain ⟨s', hs', hrest⟩ := Option.bind_eq_some_iff.mp hrun
    simp only [List.cons_append, Admits, hs', ih hrest, and_assoc]

/-- Two guards that agree wherever an invariant holds admit the same runs, if every admitted step
keeps the invariant. -/
theorem admits_iff {Inv : σ → Prop} {ok' : σ → ε → Prop} (hs : Inv s)
    (hstep : ∀ a e b, Inv a → ok a e → step a e = some b → Inv b) (h : ∀ a e, Inv a → (ok a e ↔ ok' a e))
    (es : List ε) : Admits step ok s es ↔ Admits step ok' s es := by
  induction es generalizing s with
  | nil => exact Iff.rfl
  | cons e es ih =>
    simp only [Admits, ← h s e hs]
    refine and_congr_right fun hok => ?_
    cases hnext : step s e with
    | none => exact Iff.rfl
    | some s' => exact ih (hstep s e s' hs hok hnext)

end Machine

theorem snoc_eq_split_iff {α : Type u} {history before after : List α} {last x : α} :
    history ++ [last] = before ++ x :: after ↔
      last = x ∧ before = history ∧ after = [] ∨ ∃ rest, after = rest ++ [last] ∧ history = before ++ x :: rest := by
  constructor
  · intro h
    rcases List.eq_nil_or_concat' after with rfl | ⟨rest, last', rfl⟩
    · obtain ⟨rfl, hlast⟩ := List.append_inj' h rfl
      exact .inl ⟨(List.cons.inj hlast).1, rfl, rfl⟩
    · rw [← List.cons_append, ← List.append_assoc] at h
      obtain ⟨rfl, hlast⟩ := List.append_inj' h rfl
      exact .inr ⟨rest, by rw [(List.cons.inj hlast).1], rfl⟩
  · rintro (⟨rfl, rfl, rfl⟩ | ⟨rest, rfl, rfl⟩)
    · rfl
    · simp

end Nuropb.Library
