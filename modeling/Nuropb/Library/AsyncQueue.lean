import Mathlib.Data.List.Basic

/-! # Queues with waiting getters

An unbounded queue whose getters wait in line while it is empty. A put wakes the first getter in
line; a woken getter resumes later and waits again, at the end of the line, if another one has taken
the item meanwhile.
-/
namespace Nuropb.Library

universe u v

structure AsyncQueue (ι : Type u) (α : Type v) where
  items : List α := []
  /-- The getters in line, whose futures are pending. -/
  getters : List ι := []
  /-- The getters whose futures are done. -/
  woken : List ι := []

namespace AsyncQueue

variable {ι : Type u} {α : Type v}

def wakeNext (q : AsyncQueue ι α) : AsyncQueue ι α :=
  match q.getters with
  | [] => q
  | getter :: rest => { q with getters := rest, woken := q.woken ++ [getter] }

def put (q : AsyncQueue ι α) (item : α) : AsyncQueue ι α :=
  { q with items := q.items ++ [item] }.wakeNext

def get (q : AsyncQueue ι α) (getter : ι) : Option α × AsyncQueue ι α :=
  match q.items with
  | [] => (none, { q with getters := q.getters ++ [getter] })
  | item :: rest => (some item, { q with items := rest })

variable [DecidableEq ι]

/-- A woken getter looks again. -/
def resume (q : AsyncQueue ι α) (getter : ι) : Option α × AsyncQueue ι α :=
  { q with woken := q.woken.filter (· ≠ getter) }.get getter

/-- A getter that was woken in vain wakes the next one for its item. -/
def cancel (q : AsyncQueue ι α) (getter : ι) : AsyncQueue ι α :=
  if getter ∈ q.woken then
    if q.items.isEmpty then { q with woken := q.woken.filter (· ≠ getter) }
    else { q with woken := q.woken.filter (· ≠ getter) }.wakeNext
  else { q with getters := q.getters.filter (· ≠ getter) }

/-! ## The line -/

section Line

omit [DecidableEq ι]

theorem getters_wakeNext (q : AsyncQueue ι α) : q.wakeNext.getters = q.getters.tail := by
  unfold wakeNext
  split
  · rename_i hgetters
    rw [hgetters]
    rfl
  · rename_i hgetters
    rw [hgetters]
    rfl

theorem getters_put (q : AsyncQueue ι α) (item : α) : (q.put item).getters = q.getters.tail :=
  getters_wakeNext _

theorem mem_getters_put {q : AsyncQueue ι α} {item : α} {g : ι} (h : g ∈ (q.put item).getters) : g ∈ q.getters := by
  rw [getters_put] at h
  exact List.mem_of_mem_tail h

theorem mem_getters_foldl_put {β : Type v} {f : β → α} {items : List β} {q : AsyncQueue ι α} {g : ι}
    (h : g ∈ (items.foldl (fun q x => q.put (f x)) q).getters) : g ∈ q.getters := by
  induction items generalizing q with
  | nil => exact h
  | cons x rest ih => exact mem_getters_put (ih h)

/-- Whoever finds an item does not stand in line. -/
theorem get_of_items {q : AsyncQueue ι α} (h : q.items ≠ []) (g : ι) :
    ∃ item, (q.get g).1 = some item ∧ (q.get g).2.getters = q.getters := by
  unfold get
  split
  · rename_i hitems
    exact absurd hitems h
  · exact ⟨_, rfl, rfl⟩

theorem mem_getters_get {q : AsyncQueue ι α} {g other : ι} (h : other ∈ (q.get g).2.getters) :
    other ∈ q.getters ∨ other = g := by
  unfold get at h
  split at h
  · simpa using h
  · exact .inl h

@[simp] theorem items_wakeNext (q : AsyncQueue ι α) : q.wakeNext.items = q.items := by
  unfold wakeNext
  split <;> rfl

theorem items_put (q : AsyncQueue ι α) (item : α) : (q.put item).items = q.items ++ [item] := items_wakeNext _

theorem items_foldl_put {β : Type v} (f : β → α) (items : List β) (q : AsyncQueue ι α) :
    (items.foldl (fun q x => q.put (f x)) q).items = q.items ++ items.map f := by
  induction items generalizing q with
  | nil => simp
  | cons x rest ih => simp [ih, items_put]

/-- What a getter takes was in the queue, and nothing has come to it. -/
theorem items_get (q : AsyncQueue ι α) (g : ι) : q.items = (q.get g).1.toList ++ (q.get g).2.items := by
  unfold get
  split
  · simp
  · rename_i hitems
    exact hitems

end Line

theorem items_resume (q : AsyncQueue ι α) (g : ι) : q.items = (q.resume g).1.toList ++ (q.resume g).2.items :=
  items_get { q with woken := q.woken.filter (· ≠ g) } g

@[simp] theorem items_cancel (q : AsyncQueue ι α) (g : ι) : (q.cancel g).items = q.items := by
  unfold cancel
  split
  · split
    · rfl
    · simp
  · rfl

theorem mem_getters_cancel {q : AsyncQueue ι α} {g other : ι} (h : other ∈ (q.cancel g).getters) :
    other ∈ q.getters := by
  unfold cancel at h
  split at h
  · split at h
    · exact h
    · rw [getters_wakeNext] at h
      exact List.mem_of_mem_tail h
  · exact (List.mem_filter.mp h).1

end AsyncQueue

end Nuropb.Library
