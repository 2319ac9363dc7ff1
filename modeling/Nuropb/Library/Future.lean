import Mathlib.Logic.Basic
import Mathlib.Data.List.Basic

/-! # Futures

A future is pending or done with an outcome, and a done future never changes again.
`settle` gives one outcome to every pending future of a list and leaves the others alone.
-/
namespace Nuropb.Library

universe u v w

abbrev Future (ε : Type u) (α : Type v) := Option (Except ε α)

section Heap

variable {ι : Type w} {ε : Type u} {α : Type v} [DecidableEq ι]

def settle (heap : ι → Future ε α) (ids : List ι) (outcome : Except ε α) : ι → Future ε α :=
  fun i =>
    match heap i with
    | some done => some done
    | none => if i ∈ ids then some outcome else none

variable {heap : ι → Future ε α} {ids : List ι} {outcome done : Except ε α} {i : ι}

theorem settle_of_done (h : heap i = some done) : settle heap ids outcome i = some done := by
  simp [settle, h]

theorem settle_of_mem (h : heap i = none) (hi : i ∈ ids) :
    settle heap ids outcome i = some outcome := by
  simp [settle, h, hi]

theorem settle_of_not_mem (hi : i ∉ ids) : settle heap ids outcome i = heap i := by
  cases h : heap i <;> simp [settle, h, hi]

/-- What a future is done with after `settle`: its earlier outcome, or the new one. -/
theorem settle_eq_some_iff : settle heap ids outcome i = some done ↔
    heap i = some done ∨ heap i = none ∧ i ∈ ids ∧ outcome = done := by
  cases h : heap i <;> simp [settle, h]

theorem settle_eq_none_iff : settle heap ids outcome i = none ↔ heap i = none ∧ i ∉ ids := by
  cases h : heap i <;> simp [settle, h]

@[simp] theorem settle_nil : settle heap [] outcome = heap := by
  funext i
  exact settle_of_not_mem nofun

/-- A future that is done is passed over. -/
theorem settle_cons_of_done {i : ι} {ids : List ι} (h : heap i = some done) :
    settle heap (i :: ids) outcome = settle heap ids outcome := by
  funext j
  by_cases hj : j = i
  · rw [hj, settle_of_done h, settle_of_done h]
  · simp [settle, hj]

theorem settle_singleton {i : ι} (h : heap i = none) :
    settle heap [i] outcome = fun j => if j = i then some outcome else heap j := by
  funext j
  by_cases hj : j = i
  · rw [if_pos hj, settle_of_mem (by rw [hj, h]) (by simp [hj])]
  · rw [if_neg hj, settle_of_not_mem (by simpa using hj)]

/-- Settling a future and then others is settling all of them. -/
theorem settle_cons {i : ι} {ids : List ι} :
    settle heap (i :: ids) outcome = settle (settle heap [i] outcome) ids outcome := by
  funext j
  cases hj : heap j with
  | some done => rw [settle_of_done hj, settle_of_done (settle_of_done hj)]
  | none =>
    by_cases hi : j = i
    · rw [settle_of_mem hj (by simp [hi]), settle_of_done (settle_of_mem hj (by simp [hi]))]
    · simp [settle, hj, hi]

theorem settle_congr {ids' : List ι} (h : ∀ i, i ∈ ids ↔ i ∈ ids') : settle heap ids outcome = settle heap ids' outcome := by
  funext i
  simp only [settle, h]

end Heap

end Nuropb.Library
