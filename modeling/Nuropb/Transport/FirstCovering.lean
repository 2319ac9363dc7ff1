import Mathlib.Data.List.Induction
import Nuropb.Library.Transition
import Nuropb.Transport.Confirm

/-! # The first covering event decides

The tracker together with the futures that it hands out. A future that is done refuses a second outcome, so the loops
of the tracker look first.
-/
namespace Nuropb.Transport

open Library

/-- How a future is done other than with a result. -/
inductive Failure
  | exception (e : Exc)
  | cancelled

abbrev Completion := Except Failure Unit

structure Confirms where
  tracker : ConfirmTracker
  futures : CallId → Future Failure Unit := fun _ => none
  created : CallId := 0
  handed : List (Nat × CallId) := []

inductive ConfirmOp
  | register
  | onAck (deliveryTag : Nat) (multiple : Bool)
  | onNack (deliveryTag : Nat) (multiple : Bool)
  | cancel (fut : CallId)
  | failAll (exc : Exc)

namespace Confirms

/-- `set_result`, `set_exception` -/
def complete (s : Confirms) (fut : CallId) (outcome : Completion) : Except Exc Confirms :=
  match s.futures fut with
  | some _ => .error (.other "InvalidStateError")
  | none => .ok { s with futures := fun other => if other = fut then some outcome else s.futures other }

def resolveEach (outcome : Completion) : List Nat → Confirms → Except Exc Confirms
  | [], s => .ok s
  | tag :: rest, s =>
    match s.tracker.outstanding.get? tag with
    | none => resolveEach outcome rest s
    | some fut =>
      let popped := { s with tracker := { s.tracker with outstanding := s.tracker.outstanding.erase tag } }
      if (popped.futures fut).isSome then resolveEach outcome rest popped
      else do
        let done ← popped.complete fut outcome
        resolveEach outcome rest done

/-- The tags that `_resolve` goes through. -/
def tagsOf (s : Confirms) (deliveryTag : Nat) (multiple : Bool) : List Nat :=
  if multiple then (s.tracker.outstanding.keys.filter (· ≤ deliveryTag)).mergeSort
  else if s.tracker.outstanding.contains deliveryTag then [deliveryTag]
  else []

def resolve (s : Confirms) (deliveryTag : Nat) (multiple : Bool) (outcome : Completion) : Except Exc Confirms :=
  resolveEach outcome (s.tagsOf deliveryTag multiple) s

def failEach (exc : Exc) : List CallId → Confirms → Except Exc Confirms
  | [], s => .ok s
  | fut :: rest, s =>
    if (s.futures fut).isSome then failEach exc rest s
    else do
      let done ← s.complete fut (.error (.exception exc))
      failEach exc rest done

def failAll (s : Confirms) (exc : Exc) : Except Exc Confirms := do
  let done ← failEach exc s.tracker.outstanding.values s
  return { done with tracker := { done.tracker with outstanding := .empty } }

def register (s : Confirms) : Except Exc Confirms := do
  let (tag, tracker) ← s.tracker.register s.created
  return { s with tracker, created := s.created + 1, handed := s.handed ++ [(tag, s.created)] }

/-- `fut.cancel()`, which has no effect on a future that is done. -/
def cancel (s : Confirms) (fut : CallId) : Confirms :=
  if fut < s.created then { s with futures := settle s.futures [fut] (.error .cancelled) } else s

def step (s : Confirms) : ConfirmOp → Except Exc Confirms
  | .register => s.register
  | .onAck deliveryTag multiple => s.resolve deliveryTag multiple (.ok ())
  | .onNack deliveryTag multiple =>
    s.resolve deliveryTag multiple (.error (.exception (.publishNack deliveryTag multiple)))
  | .cancel fut => .ok (s.cancel fut)
  | .failAll exc => s.failAll exc

def enabled : Confirms where
  tracker := ({} : ConfirmTracker).enable

def run (ops : List ConfirmOp) : Except Exc Confirms := ops.foldlM step enabled

/-! ## The loops raise nothing -/

section Loops

variable {s : Confirms}

theorem complete_of_pending {fut : CallId} (h : s.futures fut = none) (outcome : Completion) :
    s.complete fut outcome = .ok { s with futures := settle s.futures [fut] outcome } := by
  simp only [complete, h, settle_singleton h]

theorem resolveEach_eq {tags : List Nat} (hnodup : tags.Nodup) (outcome : Completion) (s : Confirms) :
    resolveEach outcome tags s = .ok { s with
      tracker := { s.tracker with outstanding := tags.foldl .erase s.tracker.outstanding }
      futures := settle s.futures (tags.filterMap s.tracker.outstanding.get?) outcome } := by
  induction tags generalizing s with
  | nil => simp [resolveEach]
  | cons tag rest ih =>
    obtain ⟨hnew, hrest⟩ := List.nodup_cons.mp hnodup
    rw [resolveEach]
    cases hget : s.tracker.outstanding.get? tag with
    | none =>
      rw [ih hrest s, List.foldl_cons, Dict.erase_of_get?_eq_none hget, List.filterMap_cons_none hget]
    | some fut =>
      have hlater : rest.filterMap (s.tracker.outstanding.erase tag).get? = rest.filterMap s.tracker.outstanding.get? :=
        List.filterMap_congr fun t ht => Dict.get?_erase_of_ne _ fun heq => hnew (heq ▸ ht)
      rw [List.foldl_cons, List.filterMap_cons_some hget]
      cases hfut : s.futures fut with
      | some done =>
        simp only [hfut, Option.isSome_some, if_true, ih hrest, hlater, settle_cons_of_done hfut]
      | none =>
        simp only [hfut, Option.isSome_none, Bool.false_eq_true, if_false, complete_of_pending, ok_bind, ih hrest, hlater]
        rw [← settle_cons]

theorem failEach_eq (exc : Exc) (futs : List CallId) (s : Confirms) :
    failEach exc futs s = .ok { s with futures := settle s.futures futs (.error (.exception exc)) } := by
  induction futs generalizing s with
  | nil => simp [failEach]
  | cons fut rest ih =>
    rw [failEach]
    cases hfut : s.futures fut with
    | some done => simp only [Option.isSome_some, if_true, ih, settle_cons_of_done hfut]
    | none =>
      simp only [Option.isSome_none, Bool.false_eq_true, if_false, complete_of_pending hfut, ok_bind, ih]
      rw [← settle_cons]

theorem nodup_tagsOf (s : Confirms) (deliveryTag : Nat) (multiple : Bool) : (s.tagsOf deliveryTag multiple).Nodup := by
  unfold tagsOf
  split
  · exact (List.mergeSort_perm _ _).nodup_iff.mpr (s.tracker.outstanding.nodup.filter _)
  · split <;> simp

theorem mem_tagsOf_iff {deliveryTag : Nat} {multiple : Bool} {tag : Nat} : tag ∈ s.tagsOf deliveryTag multiple ↔
    covers deliveryTag multiple tag = true ∧ (s.tracker.outstanding.get? tag).isSome := by
  rw [tagsOf, covers]
  split
  · rw [List.mem_mergeSort, List.mem_filter, Dict.mem_keys_iff, decide_eq_true_eq, and_comm]
  · split
    · rename_i hthere
      rw [List.mem_singleton, decide_eq_true_eq]
      exact ⟨fun h => ⟨h, h ▸ hthere⟩, fun h => h.1⟩
    · rename_i hgone
      rw [decide_eq_true_eq]
      exact ⟨nofun, fun h => absurd (h.1 ▸ h.2) hgone⟩

theorem resolve_eq (s : Confirms) (deliveryTag : Nat) (multiple : Bool) (outcome : Completion) :
    s.resolve deliveryTag multiple outcome = .ok { s with
      tracker := (s.tracker.resolve deliveryTag multiple).2
      futures := settle s.futures (s.tracker.resolve deliveryTag multiple).1 outcome } := by
  have hkept : (s.tagsOf deliveryTag multiple).foldl .erase s.tracker.outstanding =
      s.tracker.outstanding.keep fun tag => !covers deliveryTag multiple tag := by
    rw [Dict.foldl_erase_eq_keep]
    refine Dict.keep_congr fun tag fut hget => ?_
    simp [mem_tagsOf_iff, hget]
  have hfutures : ∀ fut, fut ∈ (s.tagsOf deliveryTag multiple).filterMap s.tracker.outstanding.get? ↔
      fut ∈ (s.tracker.resolve deliveryTag multiple).1 := by
    intro fut
    rw [List.mem_filterMap, ConfirmTracker.mem_resolve_iff]
    refine exists_congr fun tag => ?_
    rw [mem_tagsOf_iff, and_assoc]
    refine and_congr_right fun _ => ⟨fun h => h.2, fun h => ⟨by rw [h]; rfl, h⟩⟩
  rw [resolve, resolveEach_eq (nodup_tagsOf ..), hkept, settle_congr hfutures]
  rfl

theorem failAll_eq (s : Confirms) (exc : Exc) : s.failAll exc = .ok { s with
    tracker := s.tracker.failAll.2
    futures := settle s.futures s.tracker.failAll.1 (.error (.exception exc)) } := by
  rw [failAll, failEach_eq]
  rfl

end Loops

end Confirms

/-! ## What the history says -/

namespace ConfirmOp

/-- The event covers the tag. -/
def resolves (tag : Nat) : ConfirmOp → Bool
  | .onAck deliveryTag multiple | .onNack deliveryTag multiple => covers deliveryTag multiple tag
  | .failAll _ => true
  | .register | .cancel _ => false

def completes (tag : Nat) (fut : CallId) : ConfirmOp → Option Completion
  | .onAck deliveryTag multiple => if covers deliveryTag multiple tag then some (.ok ()) else none
  | .onNack deliveryTag multiple =>
    if covers deliveryTag multiple tag then some (.error (.exception (.publishNack deliveryTag multiple))) else none
  | .cancel other => if other = fut then some (.error .cancelled) else none
  | .failAll exc => some (.error (.exception exc))
  | .register => none

def isRegister : ConfirmOp → Bool
  | .register => true
  | _ => false

theorem completes_of_resolves {tag : Nat} {op : ConfirmOp} (fut : CallId) (h : op.resolves tag = true) :
    (op.completes tag fut).isSome := by
  cases op <;> simp_all [resolves, completes]

end ConfirmOp

def registrations (ops : List ConfirmOp) : Nat := ops.countP ConfirmOp.isRegister

/-- The future was handed out with the tag, and no event after that has covered it. -/
def Uncovered (ops : List ConfirmOp) (tag : Nat) (fut : CallId) : Prop :=
  ∃ before after, ops = before ++ .register :: after ∧ tag = registrations before + 1 ∧ fut = registrations before ∧
    ∀ op ∈ after, op.resolves tag = false

/-- The tracker is where the history has brought it: a registration got the next tag, and the first operation after it
that concerns its future has decided about it. -/
structure FirstDecides (ops : List ConfirmOp) (s : Confirms) : Prop where
  handed : s.handed = (List.range (registrations ops)).map fun i => (i + 1, i)
  decided : ∀ before after, ops = before ++ .register :: after → s.futures (registrations before) =
    after.findSome? (ConfirmOp.completes (registrations before + 1) (registrations before))
  outstanding : ∀ tag fut, s.tracker.outstanding.get? tag = some fut ↔ Uncovered ops tag fut
  /-- An event for tags that are not outstanding changes nothing. -/
  idle : ∀ deliveryTag multiple, (∀ tag, covers deliveryTag multiple tag = true → s.tracker.outstanding.get? tag = none) →
    ∀ outcome, s.resolve deliveryTag multiple outcome = .ok s

structure Tracks (ops : List ConfirmOp) (s : Confirms) : Prop extends FirstDecides ops s where
  enabled : s.tracker.enabled = true
  nextTag : s.tracker.nextTag = registrations ops + 1
  created : s.created = registrations ops
  fresh : ∀ fut, registrations ops ≤ fut → s.futures fut = none

section Histories

variable {ops before after : List ConfirmOp} {op : ConfirmOp} {s : Confirms}

theorem registrations_append (before after : List ConfirmOp) :
    registrations (before ++ after) = registrations before + registrations after := List.countP_append

theorem registrations_snoc_register (ops : List ConfirmOp) :
    registrations (ops ++ [.register]) = registrations ops + 1 := registrations_append ops [.register]

theorem registrations_snoc (ops : List ConfirmOp) (h : op.isRegister = false) :
    registrations (ops ++ [op]) = registrations ops := by
  rw [registrations_append, registrations, registrations, List.countP_cons_of_neg (by rw [h]; decide), List.countP_nil]
  rfl

theorem registrations_lt_of_split (h : ops = before ++ .register :: after) :
    registrations before < registrations ops := by
  rw [h, ← List.singleton_append, registrations_append, registrations_append]
  exact Nat.lt_add_of_pos_right (Nat.add_pos_left Nat.one_pos _)

/-- The tags that no event has covered are unknown to an event that covers none of them. -/
theorem resolve_idle (s : Confirms) {deliveryTag : Nat} {multiple : Bool} (outcome : Completion)
    (h : ∀ tag, covers deliveryTag multiple tag = true → s.tracker.outstanding.get? tag = none) :
    s.resolve deliveryTag multiple outcome = .ok s := by
  have htags : s.tagsOf deliveryTag multiple = [] := by
    refine List.eq_nil_iff_forall_not_mem.mpr fun tag htag => ?_
    obtain ⟨hcovers, hthere⟩ := Confirms.mem_tagsOf_iff.mp htag
    rw [h tag hcovers] at hthere
    cases hthere
  rw [Confirms.resolve, htags, Confirms.resolveEach]

theorem uncovered_snoc {tag : Nat} {fut : CallId} (hop : op.isRegister = false) :
    Uncovered (ops ++ [op]) tag fut ↔ Uncovered ops tag fut ∧ op.resolves tag = false := by
  constructor
  · rintro ⟨before, after, hsplit, htag, hfut, hafter⟩
    rcases snoc_eq_split_iff.mp hsplit with ⟨rfl, -, -⟩ | ⟨rest, rfl, hops⟩
    · cases hop
    · exact ⟨⟨before, rest, hops, htag, hfut, fun o ho => hafter o (List.mem_append_left _ ho)⟩,
        hafter op (List.mem_append_right _ List.mem_cons_self)⟩
  · rintro ⟨⟨before, rest, hops, htag, hfut, hrest⟩, hnot⟩
    refine ⟨before, rest ++ [op], snoc_eq_split_iff.mpr (.inr ⟨rest, rfl, hops⟩), htag, hfut, fun o ho => ?_⟩
    rcases List.mem_append.mp ho with ho | ho
    · exact hrest o ho
    · rw [List.mem_singleton.mp ho]
      exact hnot

theorem uncovered_snoc_register {tag : Nat} {fut : CallId} : Uncovered (ops ++ [.register]) tag fut ↔
    Uncovered ops tag fut ∨ tag = registrations ops + 1 ∧ fut = registrations ops := by
  constructor
  · rintro ⟨before, after, hsplit, htag, hfut, hafter⟩
    rcases snoc_eq_split_iff.mp hsplit with ⟨-, rfl, rfl⟩ | ⟨rest, rfl, hops⟩
    · exact .inr ⟨htag, hfut⟩
    · exact .inl ⟨before, rest, hops, htag, hfut, fun o ho => hafter o (List.mem_append_left _ ho)⟩
  · rintro (⟨before, rest, hops, htag, hfut, hrest⟩ | ⟨htag, hfut⟩)
    · refine ⟨before, rest ++ [.register], snoc_eq_split_iff.mpr (.inr ⟨rest, rfl, hops⟩), htag, hfut, fun o ho => ?_⟩
      rcases List.mem_append.mp ho with ho | ho
      · exact hrest o ho
      · rw [List.mem_singleton.mp ho]
        rfl
    · exact ⟨ops, [], rfl, htag, hfut, nofun⟩

theorem lt_of_uncovered {tag : Nat} {fut : CallId} (h : Uncovered ops tag fut) : tag = fut + 1 ∧ fut < registrations ops := by
  obtain ⟨before, after, hops, rfl, rfl, -⟩ := h
  exact ⟨rfl, registrations_lt_of_split hops⟩

theorem Tracks.register (h : Tracks ops s) : ∃ s', s.step .register = .ok s' ∧ Tracks (ops ++ [.register]) s' := by
  refine ⟨{ s with
    tracker := s.tracker.handOut s.created, created := s.created + 1
    handed := s.handed ++ [(s.tracker.nextTag, s.created)] }, ?_, ⟨?_, ?_, ?_, ?_⟩, h.enabled, ?_, ?_, ?_⟩
  · rw [Confirms.step, Confirms.register, ConfirmTracker.register_of_enabled h.enabled]
    rfl
  · rw [registrations_snoc_register, List.range_succ, List.map_append, h.handed, h.nextTag, h.created]
    rfl
  · intro before after hsplit
    rcases snoc_eq_split_iff.mp hsplit with ⟨-, rfl, rfl⟩ | ⟨rest, rfl, hops⟩
    · exact h.fresh _ le_rfl
    · rw [List.findSome?_append, ← h.decided before rest hops]
      exact (Option.or_none).symm
  · intro tag fut
    rw [uncovered_snoc_register, ← h.outstanding, ConfirmTracker.handOut, Dict.get?_set, h.nextTag, h.created]
    split
    · rename_i heq
      constructor
      · rintro ⟨⟩
        exact .inr ⟨heq.symm, rfl⟩
      · rintro (hold | ⟨-, rfl⟩)
        · obtain ⟨htag, hlt⟩ := lt_of_uncovered ((h.outstanding tag fut).mp hold)
          exact absurd (Nat.succ.inj (heq.trans htag)) hlt.ne'
        · rfl
    · rename_i hne
      exact ⟨.inl, fun hor => hor.resolve_right fun hnew => hne hnew.1.symm⟩
  · exact fun deliveryTag multiple hnone outcome => resolve_idle _ outcome hnone
  · rw [registrations_snoc_register, ← h.nextTag]
    rfl
  · rw [registrations_snoc_register, h.created]
  · intro fut hfut
    rw [registrations_snoc_register] at hfut
    exact h.fresh fut (Nat.le_of_succ_le hfut)

/-- An event that gives one outcome to the outstanding tags that it covers. -/
theorem Tracks.event (h : Tracks ops s) {outcome : Completion} {futs : List CallId} {left : Dict Nat CallId}
    (hop : op.isRegister = false)
    (hcompletes : ∀ tag fut, op.completes tag fut = if op.resolves tag then some outcome else none)
    (hfuts : ∀ fut, fut ∈ futs ↔ ∃ tag, op.resolves tag = true ∧ s.tracker.outstanding.get? tag = some fut)
    (hleft : ∀ tag, left.get? tag = if op.resolves tag then none else s.tracker.outstanding.get? tag) :
    Tracks (ops ++ [op]) { s with
      tracker := { s.tracker with outstanding := left }, futures := settle s.futures futs outcome } := by
  have hcount := registrations_snoc ops hop
  refine ⟨⟨?_, ?_, ?_, ?_⟩, h.enabled, ?_, ?_, ?_⟩
  · rw [hcount]
    exact h.handed
  · intro before after hsplit
    rcases snoc_eq_split_iff.mp hsplit with ⟨rfl, -, -⟩ | ⟨rest, rfl, hops⟩
    · cases hop
    · rw [List.findSome?_append, ← h.decided before rest hops]
      cases hdone : s.futures (registrations before) with
      | some done => exact settle_of_done hdone
      | none =>
        -- The future is pending, so no event in between has covered its tag.
        have hnone := (h.decided before rest hops).symm.trans hdone
        have huncovered : Uncovered ops (registrations before + 1) (registrations before) := by
          refine ⟨before, rest, hops, rfl, rfl, fun o ho => ?_⟩
          by_contra hcovered
          have hdecides := ConfirmOp.completes_of_resolves (registrations before) ((Bool.not_eq_false _).mp hcovered)
          rw [List.findSome?_eq_none_iff.mp hnone o ho] at hdecides
          cases hdecides
        rw [Option.none_or, List.findSome?_singleton, hcompletes]
        split
        · rename_i hresolves
          exact settle_of_mem hdone ((hfuts _).mpr ⟨_, hresolves, (h.outstanding _ _).mpr huncovered⟩)
        · rename_i hnot
          refine settle_eq_none_iff.mpr ⟨hdone, fun hmem => ?_⟩
          obtain ⟨tag, hresolves, htag⟩ := (hfuts _).mp hmem
          rw [(lt_of_uncovered ((h.outstanding _ _).mp htag)).1] at hresolves
          exact hnot hresolves
  · intro tag fut
    rw [uncovered_snoc hop, ← h.outstanding, hleft]
    cases op.resolves tag <;> simp
  · exact fun deliveryTag multiple hnone outcome => resolve_idle _ outcome hnone
  · rw [hcount]
    exact h.nextTag
  · rw [hcount]
    exact h.created
  · intro fut hfut
    rw [hcount] at hfut
    refine settle_eq_none_iff.mpr ⟨h.fresh fut hfut, fun hmem => ?_⟩
    obtain ⟨tag, -, htag⟩ := (hfuts fut).mp hmem
    exact absurd hfut (Nat.not_le.mpr (lt_of_uncovered ((h.outstanding tag fut).mp htag)).2)

theorem futures_cancel (s : Confirms) (fut other : CallId) : (s.cancel fut).futures other =
    (s.futures other).or (if other = fut ∧ fut < s.created then some (.error .cancelled) else none) := by
  rw [Confirms.cancel]
  cases hother : s.futures other with
  | some done =>
    split
    · exact settle_of_done hother
    · exact hother
  | none =>
    by_cases heq : other = fut
    · subst heq
      by_cases hlt : other < s.created <;> simp [hlt, settle, hother]
    · by_cases hlt : fut < s.created <;> simp [hlt, heq, settle, hother]

theorem Tracks.cancel (h : Tracks ops s) (fut : CallId) : Tracks (ops ++ [.cancel fut]) (s.cancel fut) := by
  have hcount := registrations_snoc ops (rfl : (ConfirmOp.cancel fut).isRegister = false)
  have hsame : (s.cancel fut).tracker = s.tracker ∧ (s.cancel fut).created = s.created ∧
      (s.cancel fut).handed = s.handed := by
    rw [Confirms.cancel]
    split <;> exact ⟨rfl, rfl, rfl⟩
  obtain ⟨htracker, hcreated, hhanded⟩ := hsame
  refine ⟨⟨?_, ?_, ?_, ?_⟩, ?_, ?_, ?_, ?_⟩
  · rw [hcount, hhanded]
    exact h.handed
  · intro before after hsplit
    rcases snoc_eq_split_iff.mp hsplit with ⟨hop, -, -⟩ | ⟨rest, rfl, hops⟩
    · cases hop
    · have hlt := registrations_lt_of_split hops
      rw [List.findSome?_append, ← h.decided before rest hops, futures_cancel, List.findSome?_singleton,
        ConfirmOp.completes, h.created]
      congr 1
      by_cases heq : fut = registrations before
      · rw [if_pos ⟨heq.symm, heq ▸ hlt⟩, if_pos heq]
      · rw [if_neg fun hboth => heq hboth.1.symm, if_neg heq]
  · intro tag other
    rw [uncovered_snoc rfl, ← h.outstanding, htracker]
    exact (and_iff_left rfl).symm
  · exact fun deliveryTag multiple hnone outcome => resolve_idle _ outcome hnone
  · rw [htracker]
    exact h.enabled
  · rw [htracker, hcount]
    exact h.nextTag
  · rw [hcreated, hcount]
    exact h.created
  · intro other hother
    rw [hcount] at hother
    rw [futures_cancel, h.fresh other hother, Option.none_or, h.created]
    refine if_neg ?_
    rintro ⟨rfl, hlt⟩
    exact absurd hother (Nat.not_le.mpr hlt)

theorem covers_resolve (s : Confirms) (deliveryTag : Nat) (multiple : Bool) (tag : Nat) :
    (s.tracker.resolve deliveryTag multiple).2.outstanding.get? tag =
      if covers deliveryTag multiple tag then none else s.tracker.outstanding.get? tag := by
  rw [ConfirmTracker.resolve, Dict.get?_keep]
  cases covers deliveryTag multiple tag <;> rfl

theorem Tracks.step (h : Tracks ops s) (op : ConfirmOp) : ∃ s', s.step op = .ok s' ∧ Tracks (ops ++ [op]) s' := by
  cases op with
  | register => exact h.register
  | onAck deliveryTag multiple =>
    exact ⟨_, s.resolve_eq deliveryTag multiple _, h.event rfl (fun _ _ => rfl)
      (fun _ => ConfirmTracker.mem_resolve_iff) (covers_resolve s deliveryTag multiple)⟩
  | onNack deliveryTag multiple =>
    exact ⟨_, s.resolve_eq deliveryTag multiple _, h.event rfl (fun _ _ => rfl)
      (fun _ => ConfirmTracker.mem_resolve_iff) (covers_resolve s deliveryTag multiple)⟩
  | cancel fut => exact ⟨_, rfl, h.cancel fut⟩
  | failAll exc =>
    refine ⟨_, s.failAll_eq exc, h.event rfl (fun _ _ => rfl) (fun fut => ?_) fun _ => rfl⟩
    rw [ConfirmTracker.failAll, Dict.mem_values_iff]
    exact exists_congr fun tag => (and_iff_right rfl).symm

theorem tracks_enabled : Tracks [] Confirms.enabled where
  handed := rfl
  decided before after h := by simp at h
  outstanding tag fut := ⟨nofun, fun ⟨before, after, h, _⟩ => by simp at h⟩
  idle deliveryTag multiple hnone outcome := resolve_idle _ outcome hnone
  enabled := rfl
  nextTag := rfl
  created := rfl
  fresh fut _ := rfl

/-- Over every history no operation raises, and the first covering event decides. -/
theorem firstDecides_run (ops : List ConfirmOp) : ∃ s, Confirms.run ops = .ok s ∧ FirstDecides ops s := by
  have htracks : ∃ s, Confirms.run ops = .ok s ∧ Tracks ops s := by
    induction ops using List.reverseRecOn with
    | nil => exact ⟨_, rfl, tracks_enabled⟩
    | append_singleton ops op ih =>
      obtain ⟨s, hrun, htracks⟩ := ih
      obtain ⟨s', hstep, htracks'⟩ := htracks.step op
      refine ⟨s', ?_, htracks'⟩
      rw [Confirms.run] at hrun ⊢
      rw [List.foldlM_append, hrun, ok_bind, List.foldlM_cons, hstep]
      rfl
  obtain ⟨s, hrun, htracks⟩ := htracks
  exact ⟨s, hrun, htracks.toFirstDecides⟩

end Histories

end Nuropb.Transport
