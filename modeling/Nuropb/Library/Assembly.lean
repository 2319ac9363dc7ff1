import Mathlib.Data.List.Basic

/-! # Assembling contents from pieces

A content is an opening piece, a header that announces a size, and payloads of that size in all.
An assembler that takes the pieces one by one accepts exactly the streams that are contents one
after the other, the last of them perhaps unfinished.
-/
namespace Nuropb.Library

universe u v w

variable {μ : Type u} {η : Type v} {β : Type w}

inductive Piece (μ : Type u) (η : Type v) (β : Type w)
  | opens (m : μ)
  | header (h : η)
  | body (payload : List β)

structure Content (μ : Type u) (η : Type v) (β : Type w) where
  method : μ
  header : η
  payloads : List (List β)

namespace Content

def pieces (c : Content μ η β) : List (Piece μ η β) := .opens c.method :: .header c.header :: c.payloads.map .body

def body (c : Content μ η β) : List β := c.payloads.flatten

/-- The payloads have the announced size, and none comes after it is reached. -/
structure WellFormed (size : η → Nat) (c : Content μ η β) : Prop where
  announced : c.body.length = size c.header
  needed : c.payloads ≠ [] → c.payloads.dropLast.flatten.length < size c.header

end Content

/-- What has come of a content that is not complete. -/
inductive Unfinished (μ : Type u) (η : Type v) (β : Type w)
  | nothing
  | opened (m : μ)
  | filling (m : μ) (h : η) (payloads : List (List β))

namespace Unfinished

variable {size : η → Nat}

def pieces : Unfinished μ η β → List (Piece μ η β)
  | nothing => []
  | opened m => [.opens m]
  | filling m h payloads => .opens m :: .header h :: payloads.map .body

/-- The payloads so far leave some of the announced size. -/
def Short (size : η → Nat) : Unfinished μ η β → Prop
  | filling _ h payloads => payloads.flatten.length < size h
  | _ => True

theorem short_nothing : (nothing : Unfinished μ η β).Short size := trivial

def fill (size : η → Nat) (m : μ) (h : η) (payloads : List (List β)) :
    Option (Unfinished μ η β × Option (Content μ η β)) :=
  if payloads.flatten.length < size h then some (filling m h payloads, none)
  else if payloads.flatten.length = size h then some (nothing, some ⟨m, h, payloads⟩)
  else none

/-- The next piece, in its turn: it may complete a content. -/
def step (size : η → Nat) : Unfinished μ η β → Piece μ η β →
    Option (Unfinished μ η β × Option (Content μ η β))
  | nothing, .opens m => some (opened m, none)
  | opened m, .header h => fill size m h []
  | filling m h payloads, .body payload => fill size m h (payloads ++ [payload])
  | _, _ => none

/-- The contents that a stream completes, and what is unfinished at its end. -/
def assemble (size : η → Nat) : Unfinished μ η β → List (Piece μ η β) →
    Option (List (Content μ η β) × Unfinished μ η β)
  | p, [] => some ([], p)
  | p, piece :: rest => (p.step size piece).bind fun taken =>
    (assemble size taken.1 rest).map fun later => (taken.2.toList ++ later.1, later.2)

theorem assemble_cons {p q : Unfinished μ η β} {piece : Piece μ η β} {done : Option (Content μ η β)}
    (hstep : p.step size piece = some (q, done)) (rest : List (Piece μ η β)) :
    assemble size p (piece :: rest) =
      (assemble size q rest).map fun later => (done.toList ++ later.1, later.2) := by
  rw [assemble, hstep]
  rfl

theorem fill_eq_some {m : μ} {h : η} {payloads : List (List β)} {q : Unfinished μ η β}
    {done : Option (Content μ η β)} (hfill : fill size m h payloads = some (q, done)) :
    done.toList.flatMap Content.pieces ++ q.pieces = (filling m h payloads).pieces ∧ q.Short size ∧
      ∀ c ∈ done, c = ⟨m, h, payloads⟩ ∧ c.body.length = size h := by
  unfold fill at hfill
  split at hfill
  · rename_i hshort
    cases hfill
    exact ⟨rfl, hshort, by simp⟩
  · split at hfill
    · rename_i hfull
      cases hfill
      refine ⟨by simp [Content.pieces, pieces], trivial, ?_⟩
      rintro c ⟨⟩
      exact ⟨rfl, hfull⟩
    · cases hfill

theorem step_eq_some {p q : Unfinished μ η β} {piece : Piece μ η β} {done : Option (Content μ η β)}
    (hp : p.Short size) (hstep : p.step size piece = some (q, done)) :
    p.pieces ++ [piece] = done.toList.flatMap Content.pieces ++ q.pieces ∧ q.Short size ∧
      ∀ c ∈ done, c.WellFormed size := by
  unfold step at hstep
  split at hstep
  · cases hstep
    exact ⟨rfl, trivial, by simp⟩
  · rename_i m h
    obtain ⟨hpieces, hshort, hdone⟩ := fill_eq_some hstep
    refine ⟨hpieces.symm, hshort, fun c hc => ?_⟩
    obtain ⟨rfl, hbody⟩ := hdone c hc
    exact ⟨hbody, fun hne => absurd rfl hne⟩
  · rename_i m h payloads payload
    obtain ⟨hpieces, hshort, hdone⟩ := fill_eq_some hstep
    refine ⟨?_, hshort, fun c hc => ?_⟩
    · rw [hpieces]
      simp [pieces]
    · obtain ⟨rfl, hbody⟩ := hdone c hc
      refine ⟨hbody, fun _ => ?_⟩
      rw [List.dropLast_concat]
      exact hp
  · cases hstep

/-- What the assembler accepts are contents one after the other. -/
theorem assemble_sound {p last : Unfinished μ η β} {stream : List (Piece μ η β)}
    {contents : List (Content μ η β)} (hp : p.Short size) (h : assemble size p stream = some (contents, last)) :
    p.pieces ++ stream = contents.flatMap Content.pieces ++ last.pieces ∧ last.Short size ∧
      ∀ c ∈ contents, c.WellFormed size := by
  induction stream generalizing p contents with
  | nil =>
    cases h
    exact ⟨by simp, hp, by simp⟩
  | cons piece rest ih =>
    obtain ⟨⟨q, done⟩, hstep, h⟩ := Option.bind_eq_some_iff.mp h
    obtain ⟨⟨tail, last'⟩, hrest, heq⟩ := Option.map_eq_some_iff.mp h
    cases heq
    obtain ⟨hpieces, hq, hdone⟩ := step_eq_some hp hstep
    obtain ⟨htail, hlast, hcontents⟩ := ih hq hrest
    refine ⟨?_, hlast, fun c hc => ?_⟩
    · rw [← List.singleton_append, ← List.append_assoc, hpieces, List.append_assoc, htail]
      simp
    · rcases List.mem_append.mp hc with hc | hc
      · exact hdone c (Option.mem_toList.mp hc)
      · exact hcontents c hc

theorem assemble_append {p q last : Unfinished μ η β} {front back : List (Piece μ η β)}
    {contents more : List (Content μ η β)} (hfront : assemble size p front = some (contents, q))
    (hback : assemble size q back = some (more, last)) :
    assemble size p (front ++ back) = some (contents ++ more, last) := by
  induction front generalizing p contents with
  | nil =>
    cases hfront
    exact hback
  | cons piece rest ih =>
    obtain ⟨⟨r, done⟩, hstep, h⟩ := Option.bind_eq_some_iff.mp hfront
    obtain ⟨⟨tail, q'⟩, hrest, heq⟩ := Option.map_eq_some_iff.mp h
    cases heq
    rw [List.cons_append, assemble_cons hstep, ih hrest]
    simp

theorem assemble_payloads {m : μ} {h : η} (payloads more : List (List β))
    (hshort : (payloads ++ more).flatten.length < size h) :
    assemble size (filling m h payloads) (more.map .body) = some ([], filling m h (payloads ++ more)) := by
  induction more generalizing payloads with
  | nil => simp [assemble]
  | cons payload rest ih =>
    have hfirst : (payloads ++ [payload]).flatten.length < size h := by
      simp only [List.flatten_append, List.length_append, List.flatten_cons, List.flatten_nil,
        List.append_nil] at hshort ⊢
      omega
    have hstep : (filling m h payloads).step size (.body payload) =
        some (filling m h (payloads ++ [payload]), none) := if_pos hfirst
    rw [List.map_cons, assemble_cons hstep, ih (payloads ++ [payload]) (by simpa using hshort)]
    simp

theorem assemble_content {c : Content μ η β} (h : c.WellFormed size) :
    assemble size nothing c.pieces = some ([c], nothing) := by
  obtain ⟨m, header, payloads⟩ := c
  obtain ⟨hannounced, hneeded⟩ := h
  rcases List.eq_nil_or_concat' payloads with rfl | ⟨front, payload, rfl⟩
  · have hzero : size header = 0 := hannounced.symm
    simp [Content.pieces, assemble, step, fill, hzero]
  · have hshort : front.flatten.length < size header := by
      simpa using hneeded (by simp)
    have hpos : 0 < size header := by omega
    have hfront := assemble_payloads (m := m) [] front (by simpa using hshort)
    have hfull : (front ++ [payload]).flatten.length = size header := hannounced
    have hlast : assemble size (filling m header front) [.body payload] =
        some ([⟨m, header, front ++ [payload]⟩], nothing) := by
      simp [assemble, step, fill, ← hfull]
    have hbodies := assemble_append hfront hlast
    have hopen : assemble size (nothing : Unfinished μ η β) [.opens m, .header header] =
        some ([], filling m header []) := by
      simp [assemble, step, fill, hpos]
    have hall := assemble_append hopen hbodies
    simpa [Content.pieces] using hall

theorem assemble_unfinished {p : Unfinished μ η β} (h : p.Short size) :
    assemble size nothing p.pieces = some ([], p) := by
  cases p with
  | nothing => rfl
  | opened m => rfl
  | filling m header payloads =>
    have hpos : 0 < size header := Nat.lt_of_le_of_lt (Nat.zero_le _) h
    have hopen : assemble size (nothing : Unfinished μ η β) [.opens m, .header header] =
        some ([], filling m header []) := by
      simp [assemble, step, fill, hpos]
    exact assemble_append hopen (assemble_payloads [] payloads h)

/-- The assembler accepts contents one after the other, and no other way to cut the stream up. -/
theorem assemble_complete {contents : List (Content μ η β)} {last : Unfinished μ η β}
    (hcontents : ∀ c ∈ contents, c.WellFormed size) (hlast : last.Short size) :
    assemble size nothing (contents.flatMap Content.pieces ++ last.pieces) = some (contents, last) := by
  induction contents with
  | nil => exact assemble_unfinished hlast
  | cons c rest ih =>
    rw [List.flatMap_cons, List.append_assoc]
    exact assemble_append (assemble_content (hcontents c List.mem_cons_self))
      (ih fun d hd => hcontents d (List.mem_cons_of_mem _ hd))

end Unfinished

end Nuropb.Library
