import Nuropb.Protocol.DecodeErrors

/-! # Methods that are cut short

A string or a table that is cut is noticed. A number is read with a slice, which is short at the end of
the payload, and an octet by its index: what is cut there is noticed only by a string behind it.
-/
namespace Nuropb.Protocol

open Library Transport

/-! ## The first octets of a buffer -/

section Take

variable {data : Bytes} {k offset next i j : Nat}

theorem slice_take (h : j ≤ k) : slice (data.take k) i j = slice data i j := by
  unfold slice
  rw [List.drop_take, List.take_take]
  congr 1
  omega

theorem getD_take (h : i < k) : (data.take k).getD i 0 = data.getD i 0 := by
  simp [List.getD, h]

theorem walkFixed_take {n : Nat} (h : (walkFixed data offset n).next = some next) :
    walkFixed (data.take k) offset n = if next ≤ k then walkFixed data offset n else .fault := by
  obtain ⟨rfl, hlength⟩ := next_walkFixed h
  unfold walkFixed
  rw [List.length_take]
  split <;> split <;> first | rfl | omega | skip
  rw [if_neg (by omega)]

theorem walkShortstr_take (h : (walkShortstr data offset).next = some next) :
    walkShortstr (data.take k) offset = if next ≤ k then walkShortstr data offset else .fault := by
  have hbounds := next_walkShortstr h
  unfold walkShortstr at h ⊢
  rw [List.length_take]
  rw [if_neg (by omega)] at h
  dsimp only at h ⊢
  split at h
  · cases h
  · cases h
    split
    · rw [if_neg (by omega)]
    · rw [getD_take (by omega), if_neg (show ¬data.length ≤ offset by omega)]
      split
      · rw [if_neg (by omega)]
      · rw [if_pos (by omega), slice_take (by omega)]

theorem walkExtent_take (h : (walkExtent data offset).next = some next) :
    walkExtent (data.take k) offset = if next ≤ k then walkExtent data offset else .fault := by
  have hbounds := next_walkExtent h
  unfold walkExtent at h ⊢
  rw [List.length_take]
  rw [if_neg (by omega)] at h
  dsimp only at h ⊢
  split at h
  · cases h
  · split at h
    · cases h
    · cases h
      rename_i hceiling _
      split
      · rw [if_neg (by omega)]
      · rw [slice_take (by omega), if_neg (show ¬data.length < offset + 4 by omega), if_neg hceiling]
        split
        · rw [if_neg (by omega)]
        · rw [if_pos (by omega)]

theorem walkText_take (h : (walkText data offset).next = some next) :
    walkText (data.take k) offset = if next ≤ k then walkText data offset else .fault := by
  obtain ⟨stop, hstop, hnext⟩ := next_andThen_eq_some.mp h
  cases hnext
  rw [walkText, walkExtent_take hstop]
  split
  · rename_i hle
    simp [walkText, Walk.andThen, hstop, slice_take hle]
  · rfl

end Take

/-! ## Walks over a buffer that is cut short -/

/-- Where the walk over the whole buffer comes to its end, the other comes to it too or to a fault, and can read what
it comes to. -/
def CutsShort (whole cut : Walk) : Prop :=
  ∀ next, whole.readable = true → whole.next = some next →
    cut.readable = true ∧ (cut.next = none ∨ cut.next = some next)

section Cutting

variable {v w : Walk}

theorem cutsShort_fault (w : Walk) : CutsShort w .fault := fun _ _ _ => ⟨rfl, .inl rfl⟩

theorem cutsShort_refl (w : Walk) : CutsShort w w := fun _ hread hnext => ⟨hread, .inr hnext⟩

theorem cutsShort_ite {c : Prop} [Decidable c] (h : v = if c then w else .fault) : CutsShort w v := by
  rw [h]
  split
  · exact cutsShort_refl w
  · exact cutsShort_fault w

theorem cutsShort_andThen {f g : Nat → Walk} (h : CutsShort w v)
    (hrest : ∀ next, w.next = some next → v.next = some next → CutsShort (f next) (g next)) :
    CutsShort (w.andThen f) (v.andThen g) := by
  intro last hread hlast
  obtain ⟨next, hnext, hlast'⟩ := next_andThen_eq_some.mp hlast
  rw [readable_andThen hnext, Bool.and_eq_true] at hread
  obtain ⟨hcut, hnone | hsome⟩ := h next hread.1 hnext
  · rw [andThen_of_fault g hnone]
    exact ⟨hcut, .inl hnone⟩
  · obtain ⟨hreadRest, hends⟩ := hrest next hnext hsome last hread.2 hlast'
    rw [readable_andThen hsome, next_andThen hsome, hcut, hreadRest]
    exact ⟨rfl, hends⟩

theorem cutsShort_of_next {f : Nat → Walk} (h : ∀ next, w.next = some next → v = f next) (hf : ∀ next, CutsShort w (f next)) :
    CutsShort w v := by
  intro next hread hnext
  rw [h next hnext]
  exact hf next next hread hnext

end Cutting

section Walkers

variable (data : Bytes) (k : Nat)

theorem walkFixed_cutsShort (offset n : Nat) : CutsShort (walkFixed data offset n) (walkFixed (data.take k) offset n) :=
  cutsShort_of_next (fun _ hnext => walkFixed_take hnext) fun _ => cutsShort_ite rfl

theorem walkShortstr_cutsShort (offset : Nat) : CutsShort (walkShortstr data offset) (walkShortstr (data.take k) offset) :=
  cutsShort_of_next (fun _ hnext => walkShortstr_take hnext) fun _ => cutsShort_ite rfl

theorem walkExtent_cutsShort (offset : Nat) : CutsShort (walkExtent data offset) (walkExtent (data.take k) offset) :=
  cutsShort_of_next (fun _ hnext => walkExtent_take hnext) fun _ => cutsShort_ite rfl

theorem walkText_cutsShort (offset : Nat) : CutsShort (walkText data offset) (walkText (data.take k) offset) :=
  cutsShort_of_next (fun _ hnext => walkText_take hnext) fun _ => cutsShort_ite rfl

theorem walkItems_cutsShort {walk cut : Nat → Walk} (h : ∀ pos, CutsShort (walk pos) (cut pos)) (stop rounds pos : Nat) :
    CutsShort (walkItems walk stop rounds pos) (walkItems cut stop rounds pos) := by
  induction rounds generalizing pos with
  | zero => exact cutsShort_refl _
  | succ rounds ih =>
    rw [walkItems, walkItems]
    split
    · exact cutsShort_andThen (h pos) fun next _ _ => ih next
    · exact cutsShort_refl _

theorem walkEntries_cutsShort {walk cut : Nat → Walk} (h : ∀ pos, CutsShort (walk pos) (cut pos)) (stop rounds pos : Nat) :
    CutsShort (walkEntries data walk stop rounds pos) (walkEntries (data.take k) cut stop rounds pos) := by
  induction rounds generalizing pos with
  | zero => exact cutsShort_refl _
  | succ rounds ih =>
    rw [walkEntries, walkEntries]
    split
    · apply cutsShort_andThen (walkShortstr_cutsShort data k pos)
      intro afterKey _ _
      exact cutsShort_andThen (h afterKey) fun next _ _ => ih next
    · exact cutsShort_refl _

theorem walkTagged_cutsShort {table value cutTable cutValue : Nat → Walk} (htable : ∀ pos, CutsShort (table pos) (cutTable pos))
    (hvalue : ∀ pos, CutsShort (value pos) (cutValue pos)) (tag : Char) (pos : Nat) :
    CutsShort (walkTagged data table value tag pos) (walkTagged (data.take k) cutTable cutValue tag pos) := by
  unfold walkTagged
  split
  · exact cutsShort_refl _
  all_goals first | exact walkFixed_cutsShort data k pos _ | skip
  · exact walkShortstr_cutsShort data k pos
  · exact walkText_cutsShort data k pos
  · exact walkExtent_cutsShort data k pos
  · exact htable pos
  · apply cutsShort_andThen (walkExtent_cutsShort data k pos)
    exact fun stop _ _ => walkItems_cutsShort hvalue stop _ _
  · exact cutsShort_refl _

theorem walk_cutsShort (room : Nat) :
    (∀ offset, CutsShort (walkValue data room offset) (walkValue (data.take k) room offset)) ∧
      ∀ offset, CutsShort (walkTable data room offset) (walkTable (data.take k) room offset) := by
  induction room with
  | zero => exact ⟨fun _ => cutsShort_refl _, fun _ => cutsShort_refl _⟩
  | succ room ih =>
    constructor
    · intro offset
      rw [walkValue, walkValue, List.length_take]
      split
      · rename_i hend
        rw [if_pos (by omega)]
        exact cutsShort_refl _
      · split
        · exact cutsShort_fault _
        · dsimp only
          rw [getD_take (by omega)]
          exact walkTagged_cutsShort data k ih.2 ih.1 _ _
    · intro offset
      rw [walkTable, walkTable]
      apply cutsShort_andThen (walkExtent_cutsShort data k offset)
      exact fun stop _ _ => walkEntries_cutsShort data k ih.1 stop _ _

end Walkers

/-! ## The arguments of a method -/

/-- How an argument is read: a number with a slice, flag bits where they are there, an octet by its index. -/
inductive ArgKind
  | number (octets : Nat)
  | bits
  | octet
  | shortstr
  | longstr
  | text
  | table
  deriving DecidableEq

/-- The arguments of the inbound methods that have any. -/
def layout : Nat × Nat → Option (List ArgKind)
  | (10, 10) => some [.octet, .octet, .table, .text, .text]
  | (10, 20) | (20, 11) => some [.longstr]
  | (10, 30) => some [.number 2, .number 4, .number 2]
  | (10, 41) | (10, 60) | (60, 21) | (60, 31) => some [.shortstr]
  | (10, 50) | (20, 40) => some [.number 2, .shortstr, .number 2, .number 2]
  | (50, 11) => some [.shortstr, .number 4, .number 4]
  | (60, 50) => some [.number 2, .shortstr, .shortstr, .shortstr]
  | (60, 60) => some [.shortstr, .number 8, .octet, .shortstr, .shortstr]
  | (60, 80) | (60, 120) => some [.number 8, .bits]
  | _ => none

namespace ArgKind

/-- A string or a table, whose end is compared with the end of the payload. -/
def checked : ArgKind → Bool
  | shortstr | longstr | text | table => true
  | _ => false

def isTable : ArgKind → Bool
  | table => true
  | _ => false

end ArgKind

def walkArg (data : Bytes) (offset : Nat) : ArgKind → Walk
  | .number octets => .upTo (offset + octets)
  | .bits => .upTo (offset + 1)
  | .octet => walkOctet data offset
  | .shortstr => walkShortstr data offset
  | .longstr => walkExtent data offset
  | .text => walkText data offset
  | .table => walkTable data tableRoom offset

def walkArgs (data : Bytes) : List ArgKind → (offset : Nat) → Walk
  | [], offset => .upTo offset
  | arg :: rest, offset => (walkArg data offset arg).andThen fun next => walkArgs data rest next

/-- The payload of a method with all its arguments, and nothing behind them. -/
structure Complete (payload : Bytes) (args : List ArgKind) : Prop where
  ids : 4 ≤ payload.length
  known : layout (field payload 0 2, field payload 2 2) = some args
  readable : (walkArgs payload args 4).readable = true
  ends : (walkArgs payload args 4).next = some payload.length

/-- The arguments that are not there in full among the first `k` octets. -/
def cutArgs (payload : Bytes) (k : Nat) : List ArgKind → (offset : Nat) → List ArgKind
  | [], _ => []
  | arg :: rest, offset =>
    match (walkArg payload offset arg).next with
    | some next => if next ≤ k then cutArgs payload k rest next else arg :: rest
    | none => arg :: rest

/-- A string or a table comes before any octet that is read by its index. -/
def noticed : List ArgKind → Bool
  | .number _ :: rest | .bits :: rest => noticed rest
  | arg :: _ => arg.checked
  | [] => false

/-! ## Faults -/

/-- Everything that is come to can be read, up to a fault of the structure. -/
structure Faulty (w : Walk) : Prop where
  readable : w.readable = true
  ends : w.next = none

section Faults

variable {w : Walk} {next : Nat}

/-- A reader raises a codec error exactly where its walk comes to a fault. -/
theorem codecError_iff_faulty {β : Type} {q : β → Nat → Prop} {x : Except Exc β} (h : Follows q x w) :
    (∃ reason, x = .error (.amqpCodecError reason)) ↔ Faulty w := by
  constructor
  · rintro ⟨reason, rfl⟩
    have hread : w.readable = true := h.iff_readable.mp fun e he => ⟨reason, (Except.error.inj he).symm⟩
    refine ⟨hread, Option.eq_none_iff_forall_ne_some.mpr fun next hnext => ?_⟩
    obtain ⟨b, hb, -⟩ := h.returns hread next hnext
    cases hb
  · rintro ⟨hread, hnext⟩
    exact h.faults hread hnext

theorem faulty_fault : Faulty .fault := ⟨rfl, rfl⟩

theorem not_faulty_upTo : ¬Faulty (.upTo next) := fun h => nomatch h.ends

theorem upTo_andThen (f : Nat → Walk) : (Walk.upTo next).andThen f = f next := rfl

theorem andThen_upTo (w : Walk) : w.andThen .upTo = w := by
  obtain ⟨marks, next⟩ := w
  cases next with
  | none => rfl
  | some next => simp [Walk.andThen, Walk.upTo]

theorem faulty_andThen {f : Nat → Walk} (h : w.next = some next) :
    Faulty (w.andThen f) ↔ w.readable = true ∧ Faulty (f next) := by
  constructor
  · rintro ⟨hread, hnext⟩
    rw [readable_andThen h, Bool.and_eq_true] at hread
    exact ⟨hread.1, hread.2, next_andThen h ▸ hnext⟩
  · rintro ⟨hread, hrest⟩
    refine ⟨?_, next_andThen h ▸ hrest.ends⟩
    rw [readable_andThen h, hread, hrest.readable]
    rfl

theorem faulty_andThen_of_faulty {f : Nat → Walk} (h : Faulty w) : Faulty (w.andThen f) := by
  rw [andThen_of_fault f h.ends]
  exact h

theorem readable_of_faulty_andThen {f : Nat → Walk} (h : Faulty (w.andThen f)) : w.readable = true := by
  cases hnext : w.next with
  | none => exact andThen_of_fault f hnext ▸ h.readable
  | some next => exact ((faulty_andThen hnext).mp h).1

theorem faulty_andThen_upTo (f : Nat → Nat) : Faulty (w.andThen fun next => .upTo (f next)) ↔ Faulty w := by
  cases hnext : w.next with
  | none => rw [andThen_of_fault _ hnext]
  | some next =>
    rw [faulty_andThen hnext]
    constructor
    · exact fun h => absurd h.2 not_faulty_upTo
    · exact fun h => nomatch h.ends.symm.trans hnext

end Faults

section Layout

variable {data : Bytes} {args : List ArgKind}

theorem walkOctet_andThen {offset : Nat} {f g : Nat → Walk} (h : f (offset + 1) = g (offset + 1)) :
    (walkOctet data offset).andThen f = (walkOctet data offset).andThen g := by
  unfold walkOctet
  split
  · exact h
  · rfl

theorem walkMethod_faulty_iff (hlength : 4 ≤ data.length) (h : layout (field data 0 2, field data 2 2) = some args) :
    Faulty (walkMethod data) ↔ Faulty (walkArgs data args 4) := by
  rw [walkMethod, if_neg (Nat.not_lt.mpr hlength)]
  generalize (field data 0 2, field data 2 2) = ids at h
  unfold layout at h
  split at h
  all_goals cases h
  all_goals simp only [walkArgs, walkArg, upTo_andThen, andThen_upTo, faulty_andThen_upTo, not_faulty_upTo, Nat.add_assoc,
    Nat.reduceAdd]
  exact iff_of_eq (congrArg Faulty (walkOctet_andThen (walkOctet_andThen rfl)))

end Layout

/-! ## Cutting the arguments -/

section Cut

variable {data : Bytes} {k offset next last : Nat} {arg : ArgKind} {args : List ArgKind}

theorem next_walkOctet (h : (walkOctet data offset).next = some next) : next = offset + 1 ∧ next ≤ data.length := by
  unfold walkOctet at h
  split at h
  · cases h
    omega
  · cases h

theorem le_next_walkArg (h : (walkArg data offset arg).next = some next) : offset ≤ next := by
  cases arg with
  | number octets =>
    cases h
    exact Nat.le_add_right _ _
  | bits =>
    cases h
    exact Nat.le_succ _
  | octet =>
    have hoctet := next_walkOctet h
    omega
  | shortstr => exact (next_walkShortstr h).1.le
  | longstr =>
    have hextent := next_walkExtent h
    omega
  | text =>
    have htext := next_walkText h
    omega
  | table =>
    have hextent := next_walkExtent (next_walkTable h)
    omega

theorem walkOctet_take (h : next ≤ k) (hnext : (walkOctet data offset).next = some next) :
    walkOctet (data.take k) offset = walkOctet data offset := by
  have hoctet := next_walkOctet hnext
  unfold walkOctet
  rw [List.length_take, if_pos (by omega), if_pos (by omega)]

theorem walkOctet_cut (h : k ≤ offset) : (walkOctet (data.take k) offset).readable = false := by
  unfold walkOctet
  rw [List.length_take, if_neg (by omega)]
  rfl

/-- An argument that is there in full is read as before; only a table may have looked behind its end. -/
theorem walkArg_take (harg : arg.isTable = false) (hle : next ≤ k) (h : (walkArg data offset arg).next = some next) :
    walkArg (data.take k) offset arg = walkArg data offset arg := by
  cases arg with
  | number octets => rfl
  | bits => rfl
  | octet => exact walkOctet_take hle h
  | shortstr => exact (walkShortstr_take h).trans (if_pos hle)
  | longstr => exact (walkExtent_take h).trans (if_pos hle)
  | text => exact (walkText_take h).trans (if_pos hle)
  | table => cases harg

theorem walkArg_cut (harg : arg.checked = true) (hlt : k < next) (h : (walkArg data offset arg).next = some next) :
    walkArg (data.take k) offset arg = .fault := by
  have hcut : ¬next ≤ k := Nat.not_le.mpr hlt
  cases arg with
  | shortstr => exact (walkShortstr_take h).trans (if_neg hcut)
  | longstr => exact (walkExtent_take h).trans (if_neg hcut)
  | text => exact (walkText_take h).trans (if_neg hcut)
  | table =>
    change (walkTable data (defaultMaxTableDepth + 1) offset).next = some next at h
    change walkTable (data.take k) (defaultMaxTableDepth + 1) offset = .fault
    rw [walkTable, walkExtent_take (next_walkTable h), if_neg hcut]
    rfl
  | number octets => cases harg
  | bits => cases harg
  | octet => cases harg

theorem cutArgs_behind (h : k < offset) : cutArgs data k args offset = args := by
  cases args with
  | nil => rfl
  | cons arg rest =>
    rw [cutArgs]
    split
    · rename_i next hnext
      have hle := le_next_walkArg hnext
      rw [if_neg (by omega)]
    · rfl

theorem noticed_of_checked (hargs : args.all ArgKind.checked = true) (hends : (walkArgs data args offset).next = some last)
    (hoffset : offset ≤ k) (hcut : k < last) : noticed (cutArgs data k args offset) = true := by
  induction args generalizing offset with
  | nil =>
    cases hends
    omega
  | cons arg rest ih =>
    rw [List.all_cons, Bool.and_eq_true] at hargs
    obtain ⟨next, hnext, hrest⟩ := next_andThen_eq_some.mp hends
    rw [cutArgs, hnext]
    dsimp only
    split
    · rename_i hle
      exact ih hargs.2 hrest hle
    · cases arg <;> first | rfl | cases hargs.1

/-- Tables are followed by strings and tables only. -/
def tablesLead : List ArgKind → Bool
  | [] => true
  | arg :: rest => (!arg.isTable || rest.all ArgKind.checked) && tablesLead rest

/-- A cut makes the walk over the arguments faulty exactly where a string or a table notices it. -/
theorem walkArgs_take_faulty_iff (hlead : tablesLead args = true) (hread : (walkArgs data args offset).readable = true)
    (hends : (walkArgs data args offset).next = some last) (hcut : k < last) :
    Faulty (walkArgs (data.take k) args offset) ↔ noticed (cutArgs data k args offset) = true := by
  induction args generalizing offset with
  | nil => simp [walkArgs, cutArgs, noticed, not_faulty_upTo]
  | cons arg rest ih =>
    rw [tablesLead, Bool.and_eq_true, Bool.or_eq_true, Bool.not_eq_true'] at hlead
    obtain ⟨next, hnext, hrest⟩ := next_andThen_eq_some.mp hends
    rw [walkArgs, readable_andThen hnext, Bool.and_eq_true] at hread
    have hih := ih hlead.2 hread.2 hrest
    rw [walkArgs, cutArgs, hnext]
    dsimp only
    split
    · rename_i hle
      cases htable : arg.isTable with
      | false =>
        rw [walkArg_take htable hle hnext, faulty_andThen hnext, hih, and_iff_right hread.1]
      | true =>
        -- an entry of the table may have run past its end, into what is cut off now
        have hchecked : rest.all ArgKind.checked = true := hlead.1.resolve_left (by simp [htable])
        obtain ⟨hreadTable, hfault | hsame⟩ : (walkArg (data.take k) offset arg).readable = true ∧
            ((walkArg (data.take k) offset arg).next = none ∨ (walkArg (data.take k) offset arg).next = some next) := by
          cases arg with
          | table => exact (walk_cutsShort data k tableRoom).2 offset next hread.1 hnext
          | _ => cases htable
        · exact iff_of_true (faulty_andThen_of_faulty ⟨hreadTable, hfault⟩) (noticed_of_checked hchecked hrest hle hcut)
        · rw [faulty_andThen hsame, hih, and_iff_right hreadTable]
    · rename_i hlt
      -- the argument is cut, or lies behind the cut
      rw [cutArgs_behind (Nat.not_le.mp hlt)] at hih
      have hfault (checked : arg.checked = true) : Faulty (walkArg (data.take k) offset arg) := by
        rw [walkArg_cut checked (Nat.not_le.mp hlt) hnext]
        exact faulty_fault
      cases arg with
      | number octets =>
        cases hnext
        exact hih
      | bits =>
        cases hnext
        exact hih
      | octet =>
        have hoctet := next_walkOctet hnext
        refine iff_of_false (fun hfaulty => ?_) (by simp [noticed, ArgKind.checked])
        have hmissing : (walkArg (data.take k) offset .octet).readable = false := walkOctet_cut (by omega)
        rw [readable_of_faulty_andThen hfaulty] at hmissing
        cases hmissing
      | _ => exact iff_of_true (faulty_andThen_of_faulty (hfault rfl)) rfl

end Cut

theorem tablesLead_of_layout {ids : Nat × Nat} {args : List ArgKind} (h : layout ids = some args) : tablesLead args = true := by
  unfold layout at h
  split at h <;> cases h <;> rfl

theorem field_take {payload : Bytes} {k offset width : Nat} (h : offset + width ≤ k) :
    field (payload.take k) offset width = field payload offset width := by
  rw [field, field, slice_take h]

/-- A method that is cut short is rejected exactly where a string or a table comes at or behind the cut before any octet
that is read by its index. -/
theorem decodeMethod_cut_iff {payload : Bytes} {args : List ArgKind} {k : Nat} (h : Complete payload args)
    (hcut : k < payload.length) :
    (∃ reason, decodeMethod (payload.take k) = .error (.amqpCodecError reason)) ↔
      k < 4 ∨ noticed (cutArgs payload k args 4) = true := by
  have hlength : (payload.take k).length = k := List.length_take_of_le hcut.le
  rw [codecError_iff_faulty (decodeMethod_follows (payload.take k))]
  by_cases hids : k < 4
  · rw [walkMethod, hlength, if_pos hids]
    exact iff_of_true faulty_fault (.inl hids)
  · have hknown : layout (field (payload.take k) 0 2, field (payload.take k) 2 2) = some args := by
      rw [field_take (by omega), field_take (by omega)]
      exact h.known
    rw [walkMethod_faulty_iff (by omega) hknown,
      walkArgs_take_faulty_iff (tablesLead_of_layout h.known) h.readable h.ends hcut, or_iff_right hids]

/-- A basic.return that ends within its routing key. -/
theorem cutReturn_rejected :
    Complete [0, 60, 0, 50, 1, 56, 1, 110, 0, 1, 107] [.number 2, .shortstr, .shortstr, .shortstr] ∧
      ∃ reason, decodeMethod (List.take 10 [0, 60, 0, 50, 1, 56, 1, 110, 0, 1, 107]) = .error (.amqpCodecError reason) := by
  have hcomplete : Complete [0, 60, 0, 50, 1, 56, 1, 110, 0, 1, 107] [.number 2, .shortstr, .shortstr, .shortstr] :=
    ⟨by decide, by decide, by decide +kernel, by decide⟩
  exact ⟨hcomplete, (decodeMethod_cut_iff hcomplete (by decide)).mpr (.inr (by decide))⟩

/-- A basic.ack with seven of the eight octets of its tag, 256, settles the tag 1. -/
theorem cutAck_not_rejected : ¬∀ payload args k, Complete payload args → k < payload.length →
    ∃ reason, decodeMethod (payload.take k) = .error (.amqpCodecError reason) := by
  intro h
  have hcomplete : Complete [0, 60, 0, 80, 0, 0, 0, 0, 0, 0, 1, 0, 0] [.number 8, .bits] :=
    ⟨by decide, by decide, by decide, by decide⟩
  obtain ⟨reason, hreason⟩ := h _ _ 11 hcomplete (by decide)
  have hack : (decodeMethod (List.take 11 [0, 60, 0, 80, 0, 0, 0, 0, 0, 0, 1, 0, 0])).isOk = true := by decide +kernel
  rw [hreason] at hack
  cases hack

end Nuropb.Protocol
