import Mathlib.Data.List.Basic
import Mathlib.Data.List.Nodup

/-! # Insertion-ordered dictionaries

A dictionary lists its entries in the order of first insertion. Assigning to a present
key keeps the key's place; a new key goes last. No key occurs twice, and the structure
carries that fact.
-/
namespace Nuropb.Library

universe u v w

/-- Assignment in the entry list: replace in place, or append. -/
def assign {α : Type u} {β : Type v} [DecidableEq α] (k : α) (x : β) :
    List (α × β) → List (α × β)
  | [] => [(k, x)]
  | (k', y) :: rest => if k' = k then (k, x) :: rest else (k', y) :: assign k x rest

def lookup {α : Type u} {β : Type v} [DecidableEq α] (k : α) : List (α × β) → Option β
  | [] => none
  | (k', y) :: rest => if k' = k then some y else lookup k rest

section Entries

variable {α : Type u} {β : Type v} [DecidableEq α]

theorem mem_keys_assign (k j : α) (x : β) (xs : List (α × β)) :
    j ∈ (assign k x xs).map Prod.fst ↔ j = k ∨ j ∈ xs.map Prod.fst := by
  induction xs with
  | nil => simp [assign]
  | cons entry rest ih =>
    obtain ⟨k', y⟩ := entry
    by_cases h : k' = k
    · subst h
      simp [assign]
    · simp only [assign, if_neg h, List.map_cons, List.mem_cons, ih]
      tauto

theorem mem_of_mem_assign {k : α} {x : β} {xs : List (α × β)} {e : α × β} (h : e ∈ assign k x xs) :
    e = (k, x) ∨ e ∈ xs := by
  induction xs with
  | nil => exact .inl (List.mem_singleton.mp h)
  | cons entry rest ih =>
    obtain ⟨k', y⟩ := entry
    rw [assign] at h
    split at h
    · exact (List.mem_cons.mp h).imp_right (List.mem_cons_of_mem _)
    · rcases List.mem_cons.mp h with rfl | hrest
      · exact .inr List.mem_cons_self
      · exact (ih hrest).imp_right (List.mem_cons_of_mem _)

theorem nodup_assign {k : α} {x : β} {xs : List (α × β)} (h : (xs.map Prod.fst).Nodup) :
    ((assign k x xs).map Prod.fst).Nodup := by
  induction xs with
  | nil => simp [assign]
  | cons entry rest ih =>
    obtain ⟨k', y⟩ := entry
    rw [List.map_cons, List.nodup_cons] at h
    by_cases hk : k' = k
    · subst hk
      simpa [assign] using h
    · simp only [assign, if_neg hk, List.map_cons, List.nodup_cons, mem_keys_assign, not_or]
      exact ⟨⟨hk, h.1⟩, ih h.2⟩

theorem lookup_assign (k j : α) (x : β) (xs : List (α × β)) :
    lookup j (assign k x xs) = if k = j then some x else lookup j xs := by
  induction xs with
  | nil => simp [assign, lookup]
  | cons entry rest ih =>
    obtain ⟨k', y⟩ := entry
    by_cases hk : k' = k
    · subst hk
      by_cases hj : k' = j <;> simp [assign, lookup, hj]
    · by_cases hj : k' = j
      · subst hj
        simp [assign, lookup, hk, Ne.symm hk]
      · simp [assign, lookup, hk, hj, ih]

theorem mem_of_lookup {k : α} {x : β} {xs : List (α × β)} (h : lookup k xs = some x) : (k, x) ∈ xs := by
  induction xs with
  | nil => cases h
  | cons entry xs ih =>
    obtain ⟨k', y⟩ := entry
    rw [lookup] at h
    split at h
    · rename_i hkey
      cases h
      rw [hkey]
      exact List.mem_cons_self
    · exact List.mem_cons_of_mem _ (ih h)

theorem lookup_eq_some_iff {k : α} {x : β} {xs : List (α × β)} (h : (xs.map Prod.fst).Nodup) :
    lookup k xs = some x ↔ (k, x) ∈ xs := by
  induction xs with
  | nil => simp [lookup]
  | cons entry rest ih =>
    obtain ⟨k', y⟩ := entry
    rw [List.map_cons, List.nodup_cons] at h
    by_cases hk : k' = k
    · subst hk
      have hrest : (k', x) ∉ rest := fun hm => h.1 (List.mem_map.mpr ⟨_, hm, rfl⟩)
      simp [lookup, hrest, eq_comm]
    · simp [lookup, hk, Ne.symm hk, ih h.2]

theorem lookup_filter (p : α → Bool) (j : α) (xs : List (α × β)) :
    lookup j (xs.filter fun e => p e.1) = if p j then lookup j xs else none := by
  induction xs with
  | nil => simp [lookup]
  | cons entry rest ih =>
    obtain ⟨k, y⟩ := entry
    by_cases hp : p k
    · rw [List.filter_cons_of_pos (by simpa using hp), lookup, ih, lookup]
      by_cases hj : k = j
      · subst hj
        simp [hp]
      · simp [hj]
    · rw [List.filter_cons_of_neg (by simpa using hp), ih, lookup]
      by_cases hj : k = j
      · subst hj
        simp [hp]
      · simp [hj]

theorem filter_assign_self (k : α) (x : β) (xs : List (α × β)) :
    (assign k x xs).filter (fun e => decide (e.1 ≠ k)) = xs.filter fun e => decide (e.1 ≠ k) := by
  induction xs with
  | nil => simp [assign]
  | cons entry rest ih =>
    obtain ⟨k', y⟩ := entry
    by_cases hk : k' = k
    · simp [assign, hk]
    · rw [assign, if_neg hk, List.filter_cons_of_pos (by simpa using hk), ih,
        List.filter_cons_of_pos (by simpa using hk)]

theorem lookup_map {γ : Type w} (f : β → γ) (k : α) (xs : List (α × β)) :
    lookup k (xs.map fun e => (e.1, f e.2)) = (lookup k xs).map f := by
  induction xs with
  | nil => rfl
  | cons entry rest ih =>
    obtain ⟨k', y⟩ := entry
    by_cases hk : k' = k <;> simp [lookup, hk, ih]

theorem assign_eq_append {k : α} {x : β} {xs : List (α × β)} (h : k ∉ xs.map Prod.fst) :
    assign k x xs = xs ++ [(k, x)] := by
  induction xs with
  | nil => rfl
  | cons entry rest ih =>
    obtain ⟨k', y⟩ := entry
    rw [List.map_cons, List.mem_cons, not_or] at h
    rw [assign, if_neg (Ne.symm h.1), ih h.2, List.cons_append]

/-- Assigning the entries one after the other to `acc`. -/
def assignAll (acc xs : List (α × β)) : List (α × β) :=
  xs.foldl (fun result e => assign e.1 e.2 result) acc

@[simp] theorem assignAll_nil (acc : List (α × β)) : assignAll acc [] = acc := rfl

theorem assignAll_cons (acc : List (α × β)) (k : α) (x : β) (xs : List (α × β)) :
    assignAll acc ((k, x) :: xs) = assignAll (assign k x acc) xs := rfl

theorem nodup_assignAll {acc xs : List (α × β)} (h : (acc.map Prod.fst).Nodup) :
    ((assignAll acc xs).map Prod.fst).Nodup := by
  induction xs generalizing acc with
  | nil => exact h
  | cons e xs ih => exact ih (nodup_assign h)

theorem assignAll_of_nodup {acc xs : List (α × β)} (h : ((acc ++ xs).map Prod.fst).Nodup) :
    assignAll acc xs = acc ++ xs := by
  induction xs generalizing acc with
  | nil => simp [assignAll]
  | cons e xs ih =>
    have hnew : e.1 ∉ acc.map Prod.fst := by
      rw [List.map_append, List.map_cons, List.nodup_append] at h
      exact fun hmem => h.2.2 _ hmem _ List.mem_cons_self rfl
    have hstep : assignAll acc (e :: xs) = assignAll (acc ++ [e]) xs := by
      simp only [assignAll, List.foldl_cons, assign_eq_append hnew]
    rw [hstep, ih (by simpa using h), List.append_assoc, List.singleton_append]

end Entries

/-- An insertion-ordered finite map; the entries never repeat a key. -/
structure Dict (α : Type u) (β : Type v) where
  entries : List (α × β)
  nodup : (entries.map Prod.fst).Nodup

namespace Dict

variable {α : Type u} {β : Type v}

def empty : Dict α β := ⟨[], List.nodup_nil⟩

instance : Inhabited (Dict α β) := ⟨empty⟩

def keys (d : Dict α β) : List α := d.entries.map Prod.fst

def values (d : Dict α β) : List β := d.entries.map Prod.snd

def mapValues {γ : Type w} (f : β → γ) (d : Dict α β) : Dict α γ where
  entries := d.entries.map fun e => (e.1, f e.2)
  nodup := by simpa [List.map_map, Function.comp_def] using d.nodup

/-- The entries whose key satisfies `p`. -/
def keep (p : α → Bool) (d : Dict α β) : Dict α β where
  entries := d.entries.filter fun e => p e.1
  nodup := d.nodup.sublist (List.filter_sublist.map _)

variable [DecidableEq α]

def get? (d : Dict α β) (k : α) : Option β := lookup k d.entries

def contains (d : Dict α β) (k : α) : Bool := (d.get? k).isSome

def set (d : Dict α β) (k : α) (x : β) : Dict α β := ⟨assign k x d.entries, nodup_assign d.nodup⟩

def erase (d : Dict α β) (k : α) : Dict α β := d.keep fun j => j ≠ k

theorem get?_of_contains {d : Dict α β} {k : α} (h : d.contains k = false) : d.get? k = none :=
  Option.isSome_eq_false_iff.mp h |> Option.isNone_iff_eq_none.mp

@[simp] theorem get?_empty (k : α) : (empty : Dict α β).get? k = none := rfl

theorem mem_entries_iff {d : Dict α β} {k : α} {x : β} : (k, x) ∈ d.entries ↔ d.get? k = some x :=
  (lookup_eq_some_iff d.nodup).symm

theorem get?_set (d : Dict α β) (k j : α) (x : β) :
    (d.set k x).get? j = if k = j then some x else d.get? j := lookup_assign k j x d.entries

@[simp] theorem get?_set_self (d : Dict α β) (k : α) (x : β) : (d.set k x).get? k = some x := by
  rw [get?_set, if_pos rfl]

theorem get?_set_of_ne (d : Dict α β) {k j : α} (h : k ≠ j) (x : β) :
    (d.set k x).get? j = d.get? j := by
  rw [get?_set, if_neg h]

theorem get?_keep (p : α → Bool) (d : Dict α β) (j : α) :
    (d.keep p).get? j = if p j then d.get? j else none := lookup_filter p j d.entries

theorem get?_erase (d : Dict α β) (k j : α) :
    (d.erase k).get? j = if k = j then none else d.get? j := by
  rw [erase, get?_keep]
  by_cases h : k = j
  · simp [h]
  · simp [h, Ne.symm h]

@[simp] theorem get?_erase_self (d : Dict α β) (k : α) : (d.erase k).get? k = none := by
  rw [get?_erase, if_pos rfl]

theorem get?_erase_of_ne (d : Dict α β) {k j : α} (h : k ≠ j) : (d.erase k).get? j = d.get? j := by
  rw [get?_erase, if_neg h]

/-- An entry that is erased leaves nothing behind. -/
@[simp] theorem erase_set_self (d : Dict α β) (k : α) (x : β) : (d.set k x).erase k = d.erase k := by
  simp only [erase, keep, set, filter_assign_self]

/-- An erased dictionary maps nothing that the dictionary did not map. -/
theorem get?_of_get?_erase {d : Dict α β} {k j : α} {x : β} (h : (d.erase k).get? j = some x) :
    k ≠ j ∧ d.get? j = some x := by
  rw [get?_erase] at h
  split at h
  · cases h
  · exact ⟨‹_›, h⟩

theorem contains_of_erase {d : Dict α β} {k j : α} (h : (d.erase k).contains j = true) : k ≠ j ∧ d.contains j = true := by
  obtain ⟨x, hget⟩ := Option.isSome_iff_exists.mp h
  obtain ⟨hne, hbefore⟩ := get?_of_get?_erase hget
  exact ⟨hne, Option.isSome_iff_exists.mpr ⟨x, hbefore⟩⟩

theorem contains_erase_of_ne {d : Dict α β} {k j : α} (hne : k ≠ j) (h : d.contains j = true) :
    (d.erase k).contains j = true := by
  rw [contains, get?_erase_of_ne _ hne]
  exact h

/-- The keys of a list are deleted one after the other. -/
theorem get?_foldl_erase (ks : List α) (d : Dict α β) (j : α) :
    (ks.foldl erase d).get? j = if j ∈ ks then none else d.get? j := by
  induction ks generalizing d with
  | nil => rfl
  | cons k ks ih =>
    rw [List.foldl_cons, ih, get?_erase]
    by_cases hj : j ∈ ks
    · rw [if_pos hj, if_pos (List.mem_cons_of_mem k hj)]
    · rw [if_neg hj]
      by_cases hk : k = j
      · rw [if_pos hk, if_pos (List.mem_cons.mpr (.inl hk.symm))]
      · rw [if_neg hk, if_neg (by simp [Ne.symm hk, hj])]

theorem mem_keys_iff {d : Dict α β} {k : α} : k ∈ d.keys ↔ (d.get? k).isSome := by
  rw [Option.isSome_iff_exists]
  constructor
  · intro h
    obtain ⟨⟨j, x⟩, hmem, rfl⟩ := List.mem_map.mp h
    exact ⟨x, mem_entries_iff.mp hmem⟩
  · rintro ⟨x, hx⟩
    exact List.mem_map.mpr ⟨(k, x), mem_entries_iff.mpr hx, rfl⟩

theorem erase_of_get?_eq_none {d : Dict α β} {k : α} (h : d.get? k = none) : d.erase k = d := by
  have hentries : (d.entries.filter fun e => decide (e.1 ≠ k)) = d.entries := by
    refine List.filter_eq_self.mpr fun e he => decide_eq_true ?_
    rintro rfl
    rw [mem_entries_iff.mp he] at h
    cases h
  simp only [erase, keep, hentries]

theorem foldl_erase_eq_keep (ks : List α) (d : Dict α β) : ks.foldl erase d = d.keep fun j => j ∉ ks := by
  induction ks generalizing d with
  | nil => simp [keep]
  | cons k ks ih =>
    rw [List.foldl_cons, ih, erase, keep, keep, keep]
    simp [List.filter_filter, Bool.and_comm]

theorem keep_congr {p q : α → Bool} {d : Dict α β} (h : ∀ j x, d.get? j = some x → p j = q j) : d.keep p = d.keep q := by
  have hentries : (d.entries.filter fun e => p e.1) = d.entries.filter fun e => q e.1 :=
    List.filter_congr fun e he => h e.1 e.2 (mem_entries_iff.mp he)
  simp only [keep, hentries]

/-- The same value under every key of a list. -/
def fill (ks : List α) (x : β) : Dict α β := ks.foldr (fun k d => d.set k x) empty

theorem get?_fill (ks : List α) (x : β) (k : α) :
    (fill ks x).get? k = if k ∈ ks then some x else none := by
  induction ks with
  | nil => rfl
  | cons j ks ih =>
    rw [fill, List.foldr_cons, get?_set, ← fill, ih]
    by_cases h : j = k
    · simp [h]
    · simp [h, Ne.symm h]

@[simp] theorem get?_mapValues {γ : Type w} (f : β → γ) (d : Dict α β) (k : α) :
    (d.mapValues f).get? k = (d.get? k).map f := lookup_map f k d.entries

theorem mem_values_iff {d : Dict α β} {x : β} : x ∈ d.values ↔ ∃ k, d.get? k = some x := by
  constructor
  · intro h
    obtain ⟨⟨k, y⟩, hmem, rfl⟩ := List.mem_map.mp h
    exact ⟨k, mem_entries_iff.mp hmem⟩
  · rintro ⟨k, hk⟩
    exact List.mem_map.mpr ⟨(k, x), mem_entries_iff.mpr hk, rfl⟩

end Dict

end Nuropb.Library
