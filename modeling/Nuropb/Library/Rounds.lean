import Nuropb.Library.Stateful

/-! # A loop over rounds

When each round returns exactly if it fits what is known of the state, the loop returns exactly if all rounds do. -/
namespace Nuropb.Library

universe u v w

variable {ε σ : Type u} {τ : Type v} {δ : Type w}

def AllFit (fits : τ → δ → Prop) (next : τ → δ → τ) : τ → List δ → Prop
  | _, [] => True
  | view, d :: rest => fits view d ∧ AllFit fits next (next view d) rest

/-- A chain of rounds. -/
inductive Rounds (Step : δ → σ → σ → Prop) : List δ → σ → σ → Prop
  | nil (s : σ) : Rounds Step [] s s
  | cons {d : δ} {rest : List δ} {s t u : σ} (hstep : Step d s t) (hrest : Rounds Step rest t u) :
    Rounds Step (d :: rest) s u

/-- What is picked from a list, in its order: the one thing that belongs to an item, if any does. -/
inductive Picks {α β : Type w} (R : α → β → Prop) : List α → List β → Prop
  | nil : Picks R [] []
  | pick {a : α} {b : β} {as : List α} {bs : List β} (hpick : R a b) (hrest : Picks R as bs) : Picks R (a :: as) (b :: bs)
  | skip {a : α} {as : List α} {bs : List β} (hskip : ∀ b, ¬R a b) (hrest : Picks R as bs) : Picks R (a :: as) bs

theorem picks_filterMap {α β : Type w} {R : α → β → Prop} {f : α → Option β} (h : ∀ a b, f a = some b ↔ R a b)
    (as : List α) : Picks R as (as.filterMap f) := by
  induction as with
  | nil => exact .nil
  | cons a as ih =>
    rw [List.filterMap_cons]
    cases hpick : f a with
    | none =>
      refine .skip ?_ ih
      intro b hb
      rw [(h a b).mpr hb] at hpick
      cases hpick
    | some b => exact .pick ((h a b).mp hpick) ih

theorem Picks.append {α β : Type w} {R : α → β → Prop} {as as' : List α} {bs bs' : List β} (h : Picks R as bs)
    (h' : Picks R as' bs') : Picks R (as ++ as') (bs ++ bs') := by
  induction h with
  | nil => exact h'
  | pick hpick _ ih => exact .pick hpick ih
  | skip hskip _ ih => exact .skip hskip ih

structure RoundEnds (run : δ → EStateM ε σ PUnit) (Inv : τ → σ → Prop) (fits : τ → δ → Prop) (next : τ → δ → τ)
    (Step : δ → σ → σ → Prop) (d : δ) : Prop where
  returns {view : τ} {s : σ} (hinv : Inv view s) (hfits : fits view d) :
    ∃ t, run d s = .ok .unit t ∧ Step d s t ∧ Inv (next view d) t
  raises {view : τ} {s : σ} (hinv : Inv view s) (hnot : ¬fits view d) : ∃ e t, run d s = .error e t

section Loop

variable {run : δ → EStateM ε σ PUnit} {Inv : τ → σ → Prop} {fits : τ → δ → Prop} {next : τ → δ → τ}
  {Step : δ → σ → σ → Prop} {rounds : List δ} {view : τ} {s t : σ}

theorem forM_cons_run (d : δ) (rest : List δ) (s : σ) :
    (d :: rest).forM run s = (run d >>= fun _ => rest.forM run) s := rfl

theorem forM_returns (hends : ∀ d ∈ rounds, RoundEnds run Inv fits next Step d) (hinv : Inv view s)
    (hfits : AllFit fits next view rounds) : ∃ t, rounds.forM run s = .ok .unit t ∧ Rounds Step rounds s t := by
  induction rounds generalizing view s with
  | nil => exact ⟨s, rfl, .nil s⟩
  | cons d rest ih =>
    obtain ⟨hfirst, hrest⟩ := hfits
    obtain ⟨t, hrun, hstep, hinv⟩ := (hends d List.mem_cons_self).returns hinv hfirst
    obtain ⟨u, hruns, hrounds⟩ := ih (fun d hd => hends d (List.mem_cons_of_mem _ hd)) hinv hrest
    exact ⟨u, by rw [forM_cons_run, bind_run_ok hrun, hruns], .cons hstep hrounds⟩

theorem allFit_of_returns (hends : ∀ d ∈ rounds, RoundEnds run Inv fits next Step d) (hinv : Inv view s)
    (hrun : rounds.forM run s = .ok .unit t) : AllFit fits next view rounds := by
  induction rounds generalizing view s with
  | nil => trivial
  | cons d rest ih =>
    have hd := hends d List.mem_cons_self
    by_cases hfits : fits view d
    · obtain ⟨u, hfirst, -, hinv⟩ := hd.returns hinv hfits
      rw [forM_cons_run, bind_run_ok hfirst] at hrun
      exact ⟨hfits, ih (fun d hd => hends d (List.mem_cons_of_mem _ hd)) hinv hrun⟩
    · obtain ⟨e, u, herror⟩ := hd.raises hinv hfits
      rw [forM_cons_run, bind_run_error herror] at hrun
      cases hrun

/-- What can be said of a chain of rounds that returns: it returns exactly when all of them fit. -/
theorem forM_returns_iff (view : τ) (hends : ∀ d ∈ rounds, RoundEnds run Inv fits next Step d) (hinv : Inv view s)
    {P : σ → Prop} (hP : ∀ t, Rounds Step rounds s t → P t) :
    (∃ t, rounds.forM run s = .ok .unit t ∧ P t) ↔ AllFit fits next view rounds := by
  constructor
  · rintro ⟨t, hrun, -⟩
    exact allFit_of_returns hends hinv hrun
  · intro hfits
    obtain ⟨t, hrun, hrounds⟩ := forM_returns hends hinv hfits
    exact ⟨t, hrun, hP t hrounds⟩

/-- Rounds that all fit alike. -/
theorem allFit_const {P : δ → Prop} (view : PUnit.{v + 1}) :
    AllFit (fun _ d => P d) (fun view _ => view) view rounds ↔ ∀ d ∈ rounds, P d := by
  induction rounds with
  | nil => simp [AllFit]
  | cons d rest ih => rw [AllFit, ih, List.forall_mem_cons]

end Loop

end Nuropb.Library
