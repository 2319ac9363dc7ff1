import Mathlib.Data.List.Basic

/-! # Decoding a stream that comes in chunks

A decoder looks at a buffer and takes an item from its front, asks for more, or fails. If more
input never changes an item or a failure, the cuts between chunks make no difference.
-/
namespace Nuropb.Library

universe u v w

/-- What a decoder makes of its buffer: an item and the length it took up, or none yet, or never. -/
inductive Next (α : Type v) (ε : Type w)
  | item (a : α) (used : Nat)
  | more
  | fail (e : ε)

/-- A decoder that does not go back on what it said. -/
structure Decoder (β : Type u) (α : Type v) (ε : Type w) where
  next : List β → Next α ε
  used_pos : ∀ {xs a n}, next xs = .item a n → 0 < n
  used_le : ∀ {xs a n}, next xs = .item a n → n ≤ xs.length
  item_append : ∀ {xs a n} (ys : List β), next xs = .item a n → next (xs ++ ys) = .item a n
  fail_append : ∀ {xs e} (ys : List β), next xs = .fail e → next (xs ++ ys) = .fail e

/-- What was decoded, and what is left of the buffer or why decoding stopped. -/
structure Decoded (β : Type u) (α : Type v) (ε : Type w) where
  items : List α := []
  rest : List β := []
  failure : Option ε := none

namespace Decoded

variable {β : Type u} {α : Type v} {ε : Type w} {a b c : Decoded β α ε}

structure SameOutcome (a b : Decoded β α ε) : Prop where
  items : a.items = b.items
  failure : a.failure = b.failure
  rest : a.failure = none → a.rest = b.rest

theorem SameOutcome.trans (h : SameOutcome a b) (h' : SameOutcome b c) : SameOutcome a c where
  items := h.items.trans h'.items
  failure := h.failure.trans h'.failure
  rest hnone := (h.rest hnone).trans (h'.rest (h.failure ▸ hnone))

theorem SameOutcome.eq_of_none (h : SameOutcome a b) (hnone : b.failure = none) : a = b := by
  obtain ⟨items, rest, failure⟩ := a
  obtain ⟨items', rest', failure'⟩ := b
  obtain ⟨rfl, rfl, hrest⟩ := h
  obtain rfl : rest = rest' := hrest hnone
  rfl

end Decoded

namespace Decoder

open Decoded

variable {β : Type u} {α : Type v} {ε : Type w} (d : Decoder β α ε)

/-- Take items until the decoder asks for more or fails. -/
def drain (xs : List β) : Decoded β α ε :=
  match _h : d.next xs with
  | .item a n =>
    let decoded := drain (xs.drop n)
    { decoded with items := a :: decoded.items }
  | .more => { rest := xs }
  | .fail e => { rest := xs, failure := some e }
termination_by xs.length
decreasing_by
  have hpos := d.used_pos _h
  have hle := d.used_le _h
  rw [List.length_drop]
  omega

/-- A chunk is appended to what is left and drained, unless decoding has failed. -/
def feed (decoded : Decoded β α ε) (chunk : List β) : Decoded β α ε :=
  match decoded.failure with
  | some _ => decoded
  | none =>
    let more := d.drain (decoded.rest ++ chunk)
    { more with items := decoded.items ++ more.items }

variable {d} {xs : List β}

theorem drain_of_item {a : α} {n : Nat} (h : d.next xs = .item a n) :
    d.drain xs = { d.drain (xs.drop n) with items := a :: (d.drain (xs.drop n)).items } := by
  rw [drain]
  split
  · rename_i heq
    rw [h] at heq
    cases heq
    rfl
  · rename_i heq
    rw [h] at heq
    cases heq
  · rename_i heq
    rw [h] at heq
    cases heq

theorem drain_of_more (h : d.next xs = .more) : d.drain xs = { rest := xs } := by
  rw [drain]
  split
  · rename_i heq
    rw [h] at heq
    cases heq
  · rfl
  · rename_i heq
    rw [h] at heq
    cases heq

theorem drain_of_fail {e : ε} (h : d.next xs = .fail e) :
    d.drain xs = { rest := xs, failure := some e } := by
  rw [drain]
  split
  · rename_i heq
    rw [h] at heq
    cases heq
  · rename_i heq
    rw [h] at heq
    cases heq
  · rename_i heq
    rw [h] at heq
    cases heq
    rfl

/-- Induction along the items that are taken. -/
theorem drainInduction {P : List β → Prop} (hitem : ∀ xs a n, d.next xs = .item a n → P (xs.drop n) → P xs)
    (hmore : ∀ xs, d.next xs = .more → P xs) (hfail : ∀ xs e, d.next xs = .fail e → P xs)
    (xs : List β) : P xs := by
  cases h : d.next xs with
  | item a n =>
    have hpos := d.used_pos h
    have hle := d.used_le h
    have hlt : (xs.drop n).length < xs.length := by
      rw [List.length_drop]
      omega
    exact hitem xs a n h (drainInduction hitem hmore hfail (xs.drop n))
  | more => exact hmore xs h
  | fail e => exact hfail xs e h
termination_by xs.length

theorem drain_append_of_failure (ys : List β) {e : ε} (xs : List β) (h : (d.drain xs).failure = some e) :
    (d.drain (xs ++ ys)).items = (d.drain xs).items ∧ (d.drain (xs ++ ys)).failure = some e := by
  induction xs using drainInduction (d := d) with
  | hitem xs a n hnext ih =>
    rw [drain_of_item hnext] at h ⊢
    rw [drain_of_item (d.item_append ys hnext), List.drop_append_of_le_length (d.used_le hnext)]
    obtain ⟨hitems, hfailure⟩ := ih h
    exact ⟨by rw [hitems], hfailure⟩
  | hmore xs hnext =>
    rw [drain_of_more hnext] at h
    cases h
  | hfail xs e' hnext =>
    rw [drain_of_fail hnext] at h ⊢
    rw [drain_of_fail (d.fail_append ys hnext)]
    exact ⟨rfl, h⟩

theorem drain_append (ys : List β) (xs : List β) (h : (d.drain xs).failure = none) :
    d.drain (xs ++ ys) = { d.drain ((d.drain xs).rest ++ ys) with
      items := (d.drain xs).items ++ (d.drain ((d.drain xs).rest ++ ys)).items } := by
  induction xs using drainInduction (d := d) with
  | hitem xs a n hnext ih =>
    rw [drain_of_item hnext] at h ⊢
    rw [drain_of_item (d.item_append ys hnext), List.drop_append_of_le_length (d.used_le hnext), ih h]
    simp
  | hmore xs hnext =>
    rw [drain_of_more hnext]
    simp
  | hfail xs e hnext =>
    rw [drain_of_fail hnext] at h
    cases h

theorem feed_of_failure {decoded : Decoded β α ε} {e : ε} (h : decoded.failure = some e) (chunk : List β) :
    d.feed decoded chunk = decoded := by
  rw [feed]
  simp only [h]

theorem feed_of_none {decoded : Decoded β α ε} (h : decoded.failure = none) (chunk : List β) :
    d.feed decoded chunk = { d.drain (decoded.rest ++ chunk) with
      items := decoded.items ++ (d.drain (decoded.rest ++ chunk)).items } := by
  rw [feed]
  simp only [h]

theorem feed_drain (xs chunk : List β) :
    SameOutcome (d.feed (d.drain xs) chunk) (d.drain (xs ++ chunk)) := by
  cases hfailure : (d.drain xs).failure with
  | some e =>
    obtain ⟨hitems, hsame⟩ := drain_append_of_failure chunk xs hfailure
    rw [feed_of_failure hfailure]
    exact ⟨hitems.symm, hfailure.trans hsame.symm, fun h => by rw [hfailure] at h; cases h⟩
  | none =>
    rw [feed_of_none hfailure, drain_append chunk xs hfailure]
    exact ⟨rfl, rfl, fun _ => rfl⟩

theorem feed_congr {a b : Decoded β α ε} (h : SameOutcome a b) (chunk : List β) :
    SameOutcome (d.feed a chunk) (d.feed b chunk) := by
  cases hfailure : a.failure with
  | some e =>
    rw [feed_of_failure hfailure, feed_of_failure (h.failure ▸ hfailure)]
    exact h
  | none =>
    rw [feed_of_none hfailure, feed_of_none (h.failure ▸ hfailure), h.items, h.rest hfailure]
    exact ⟨rfl, rfl, fun _ => rfl⟩

theorem foldl_feed {decoded : Decoded β α ε} {xs : List β} (h : SameOutcome decoded (d.drain xs))
    (chunks : List (List β)) : SameOutcome (chunks.foldl d.feed decoded) (d.drain (xs ++ chunks.flatten)) := by
  induction chunks generalizing decoded xs with
  | nil => simpa using h
  | cons chunk rest ih =>
    rw [List.foldl_cons, List.flatten_cons, ← List.append_assoc]
    exact ih ((feed_congr h chunk).trans (feed_drain xs chunk))

/-- Items that are each taken from the front of what is left are all taken. -/
theorem drain_items {items : List α} {parts : List (List β)}
    (h : List.Forall₂ (fun a part => ∀ ys, d.next (part ++ ys) = .item a part.length) items parts)
    (hmore : d.next [] = .more) : d.drain parts.flatten = { items := items } := by
  induction h with
  | nil => exact drain_of_more hmore
  | cons hnext _ ih =>
    rw [List.flatten_cons, drain_of_item (hnext _), List.drop_left, ih]

end Decoder

end Nuropb.Library
