import Mathlib.Data.List.Nodup
import Mathlib.Logic.Function.Basic

/-! # A fair lock

Parties enter a lock one at a time. Who finds it taken, or others waiting, joins the end of a line; the first in line
enters once the lock is free, and who waits may give up.
-/
namespace Nuropb.Library

universe u

inductive LockPhase
  | outside
  | waiting
  | inside
  deriving DecidableEq

@[ext]
structure FifoLock (α : Type u) where
  holder : Option α
  line : List α
  phase : α → LockPhase

inductive LockEvent (α : Type u)
  | acquire (a : α)
  | wait (a : α)
  | enter (a : α)
  | giveUp (a : α)
  | release (a : α)

namespace FifoLock

variable {α : Type u}

/-- A lock that nobody has come to. -/
def new : FifoLock α := ⟨none, [], fun _ => .outside⟩

/-- The holder and nobody else is inside, and the line is made of those who wait, each once. -/
structure Exclusive (lock : FifoLock α) : Prop where
  inside : ∀ a, lock.phase a = .inside ↔ lock.holder = some a
  waiting : ∀ a, lock.phase a = .waiting ↔ a ∈ lock.line
  once : lock.line.Nodup

/-- The second is not inside, and waits only behind the first. -/
structure Behind (lock : FifoLock α) (a b : α) : Prop where
  out : lock.phase b ≠ .inside
  ahead : lock.phase b = .waiting → [a, b].Sublist lock.line

section Exclusion

variable {lock : FifoLock α} {a b : α}

theorem exclusive_new : (new (α := α)).Exclusive where
  inside a := by simp [new]
  waiting a := by simp [new]
  once := List.nodup_nil

/-- At most one party is inside. -/
theorem Exclusive.lone (h : lock.Exclusive) (ha : lock.phase a = .inside) (hb : lock.phase b = .inside) : a = b :=
  Option.some.inj (((h.inside a).mp ha).symm.trans ((h.inside b).mp hb))

theorem Exclusive.holder_ne (h : lock.Exclusive) (hphase : lock.phase a ≠ .inside) : lock.holder ≠ some a :=
  fun hholder => hphase ((h.inside a).mpr hholder)

theorem Exclusive.not_mem_line (h : lock.Exclusive) (hphase : lock.phase a ≠ .waiting) : a ∉ lock.line :=
  fun hmem => hphase ((h.waiting a).mpr hmem)

end Exclusion

section Steps

variable [DecidableEq α] {lock lock' : FifoLock α} {a b : α} {e : LockEvent α}

def step (lock : FifoLock α) : LockEvent α → Option (FifoLock α)
  | .acquire a =>
    if lock.phase a = .outside ∧ lock.holder = none ∧ lock.line = [] then
      some ⟨some a, [], Function.update lock.phase a .inside⟩
    else none
  | .wait a =>
    if lock.phase a = .outside ∧ ¬(lock.holder = none ∧ lock.line = []) then
      some ⟨lock.holder, lock.line ++ [a], Function.update lock.phase a .waiting⟩
    else none
  | .enter a =>
    if lock.holder = none ∧ lock.line.head? = some a then
      some ⟨some a, lock.line.tail, Function.update lock.phase a .inside⟩
    else none
  | .giveUp a =>
    if lock.phase a = .waiting then
      some ⟨lock.holder, lock.line.filter (· ≠ a), Function.update lock.phase a .outside⟩
    else none
  | .release a =>
    if lock.phase a = .inside then some ⟨none, lock.line, Function.update lock.phase a .outside⟩ else none

/-- A party moves, and the others stay where they are. -/
theorem exclusive_moves (h : lock.Exclusive) {phase : LockPhase} {holder : Option α} {line : List α}
    (hinside : phase = .inside ↔ holder = some a) (hwaiting : phase = .waiting ↔ a ∈ line)
    (hothers : ∀ b, b ≠ a → (holder = some b ↔ lock.holder = some b) ∧ (b ∈ line ↔ b ∈ lock.line)) (honce : line.Nodup) :
    Exclusive ⟨holder, line, Function.update lock.phase a phase⟩ := by
  refine ⟨fun b => ?_, fun b => ?_, honce⟩
  · change Function.update lock.phase a phase b = .inside ↔ holder = some b
    rw [Function.update_apply]
    split
    · rename_i heq
      rw [heq]
      exact hinside
    · rename_i hne
      exact (h.inside b).trans (hothers b hne).1.symm
  · change Function.update lock.phase a phase b = .waiting ↔ b ∈ line
    rw [Function.update_apply]
    split
    · rename_i heq
      rw [heq]
      exact hwaiting
    · rename_i hne
      exact (h.waiting b).trans (hothers b hne).2.symm

theorem exclusive_step (h : lock.Exclusive) (hstep : lock.step e = some lock') : lock'.Exclusive := by
  cases e with
  | acquire a =>
    obtain ⟨⟨-, hholder, hline⟩, ⟨⟩⟩ := Option.ite_none_right_eq_some.mp hstep
    exact exclusive_moves h (by simp) (by simp) (fun b hb => by simp [hholder, hline, hb.symm]) List.nodup_nil
  | wait a =>
    obtain ⟨⟨houtside, -⟩, ⟨⟩⟩ := Option.ite_none_right_eq_some.mp hstep
    have hholder := h.holder_ne (a := a) (by simp [houtside])
    have hline := h.not_mem_line (a := a) (by simp [houtside])
    refine exclusive_moves h (by simp [hholder]) (by simp) (fun b hb => by simp [hb]) ?_
    exact List.nodup_append.mpr ⟨h.once, by simp, fun b hb c hc heq => hline (by simp_all)⟩
  | enter a =>
    obtain ⟨⟨hholder, hhead⟩, ⟨⟩⟩ := Option.ite_none_right_eq_some.mp hstep
    obtain ⟨rest, hline⟩ := List.head?_eq_some_iff.mp hhead
    have honce := h.once
    rw [hline] at honce
    obtain ⟨hfresh, hrest⟩ := List.nodup_cons.mp honce
    rw [hline, List.tail_cons]
    exact exclusive_moves h (by simp) (by simp [hfresh]) (fun b hb => by simp [hholder, hline, hb, hb.symm]) hrest
  | giveUp a =>
    obtain ⟨hwaiting, ⟨⟩⟩ := Option.ite_none_right_eq_some.mp hstep
    have hholder := h.holder_ne (a := a) (by simp [hwaiting])
    exact exclusive_moves h (by simp [hholder]) (by simp) (fun b hb => by simp [hb]) (h.once.filter _)
  | release a =>
    obtain ⟨hinside, ⟨⟩⟩ := Option.ite_none_right_eq_some.mp hstep
    have hholder := (h.inside a).mp hinside
    have hline := h.not_mem_line (a := a) (by simp [hinside])
    exact exclusive_moves h (by simp) (by simp [hline]) (fun b hb => by simp [hholder, hb.symm]) h.once

theorem phase_of_update {phase : LockPhase} {c : α} (hne : b ≠ c) :
    Function.update lock.phase c phase b = lock.phase b := Function.update_of_ne hne ..

/-- Nobody is overtaken while waiting. -/
theorem behind_step (h : lock.Exclusive) (hbehind : lock.Behind a b) (hwaits : lock.phase a = .waiting)
    (hstep : lock.step e = some lock') (hwaits' : lock'.phase a = .waiting) : lock'.Behind a b := by
  have ha : a ∈ lock.line := (h.waiting a).mp hwaits
  have hne {c : α} {phase : LockPhase} (hphase : phase ≠ .waiting)
      (hupdated : Function.update lock.phase c phase a = .waiting) : a ≠ c := by
    rintro rfl
    rw [Function.update_self] at hupdated
    exact hphase hupdated
  have hout {c : α} {phase : LockPhase} (hphase : phase ≠ .inside) : Function.update lock.phase c phase b ≠ .inside := by
    rw [Function.update_apply]
    split
    · exact hphase
    · exact hbehind.out
  cases e with
  | acquire c =>
    obtain ⟨⟨-, -, hline⟩, -⟩ := Option.ite_none_right_eq_some.mp hstep
    rw [hline] at ha
    cases ha
  | wait c =>
    obtain ⟨-, ⟨⟩⟩ := Option.ite_none_right_eq_some.mp hstep
    refine ⟨hout (by simp), fun hb => ?_⟩
    by_cases hbc : b = c
    · subst hbc
      exact List.Sublist.append (List.singleton_sublist.mpr ha) (.refl [b])
    · exact (hbehind.ahead ((phase_of_update hbc).symm.trans hb)).trans (List.sublist_append_left ..)
  | enter c =>
    obtain ⟨⟨-, hhead⟩, ⟨⟩⟩ := Option.ite_none_right_eq_some.mp hstep
    obtain ⟨rest, hline⟩ := List.head?_eq_some_iff.mp hhead
    have hac : a ≠ c := hne (by simp) hwaits'
    have honce : (c :: rest).Nodup := hline ▸ h.once
    have hrest (hb : lock.phase b = .waiting) : [a, b].Sublist rest := by
      have hsub : [a, b].Sublist (c :: rest) := hline ▸ hbehind.ahead hb
      cases hsub with
      | cons _ hsub => exact hsub
      | cons_cons => exact absurd rfl hac
    have hbc : b ≠ c := by
      rintro rfl
      have hb : lock.phase b = .waiting := (h.waiting b).mpr (by simp [hline])
      exact (List.nodup_cons.mp honce).1 ((hrest hb).subset (by simp))
    refine ⟨?_, fun hb => ?_⟩
    · exact fun hb => hbehind.out ((phase_of_update hbc).symm.trans hb)
    · change [a, b].Sublist lock.line.tail
      rw [hline]
      exact hrest ((phase_of_update hbc).symm.trans hb)
  | giveUp c =>
    obtain ⟨-, ⟨⟩⟩ := Option.ite_none_right_eq_some.mp hstep
    refine ⟨hout (by simp), fun hb => ?_⟩
    have hac : a ≠ c := hne (by simp) hwaits'
    have hbc : b ≠ c := by
      rintro rfl
      have hb : Function.update lock.phase b LockPhase.outside b = .waiting := hb
      rw [Function.update_self] at hb
      cases hb
    have hsub := (hbehind.ahead ((phase_of_update hbc).symm.trans hb)).filter (· ≠ c)
    have hfiltered : [a, b].filter (· ≠ c) = [a, b] := by simp [hac, hbc]
    rw [hfiltered] at hsub
    exact hsub
  | release c =>
    obtain ⟨hinside, ⟨⟩⟩ := Option.ite_none_right_eq_some.mp hstep
    refine ⟨hout (by simp), fun hb => ?_⟩
    have hbc : b ≠ c := by
      rintro rfl
      exact hbehind.out hinside
    exact hbehind.ahead ((phase_of_update hbc).symm.trans hb)

end Steps

end FifoLock

end Nuropb.Library
