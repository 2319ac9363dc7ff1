import Nuropb.Transport.Contents

/-! # Assembly across channels

The frames of many channels come interleaved, and the read loop cuts what comes on each channel into
contents. Contents that come whole and in order are never rejected; of all that is not rejected, the
contents come out whole exactly when no frame opens a content over an unfinished one and none brings
a second header.
-/
namespace Nuropb.Transport

open Library Protocol

/-- Contents with their channels, in the order of their completion. -/
abbrev Completed := List (Int × FrameContent)

def Completed.onChannel (completed : Completed) (channel : Int) : List FrameContent :=
  (completed.filter fun c => c.1 = channel).map Prod.snd

def nothingUnfinished : Int → Incomplete := fun _ => .nothing

/-- What is unfinished after a channel has moved on. -/
def Moves (unfinished : Int → Incomplete) (channel : Int) (next : Incomplete) : Int → Incomplete :=
  fun other => if other = channel then next else unfinished other

/-- The contents that are complete with one of the frames, each where its last frame stands. -/
def completions (unfinished : Int → Incomplete) : List Frame → Completed
  | [] => []
  | f :: rest =>
    match f.piece.map ((unfinished f.channel).step ContentHeader.bodySize) with
    | none => completions unfinished rest
    | some none => []
    | some (some (next, done)) =>
      done.toList.map (Prod.mk f.channel) ++ completions (Moves unfinished f.channel next) rest

/-- The frames of every channel are the contents that were completed there, one after the other, and
perhaps the front of one more; the queues hold just the messages of the completed contents. -/
structure Assembled (conn conn' : Conn) (frames : List Frame) (completed : Completed) : Prop where
  channels : ∀ channel, ∃ rest : Incomplete, rest.Short ContentHeader.bodySize ∧
    piecesOn channel frames = (completed.onChannel channel).flatMap Content.pieces ++ rest.pieces
  wellFormed : ∀ c ∈ completed, c.2.WellFormed ContentHeader.bodySize
  deliveries : conn'.deliveries = conn.deliveries ++ completed.filterMap fun c => delivery c.2
  returns : conn'.returns = conn.returns ++ completed.filterMap fun c => returnedDelivery c.2

/-- The frame neither opens a content over an unfinished one nor brings a second header. -/
def Conn.InOrder (conn : Conn) (f : Frame) : Prop :=
  match f.piece with
  | some (.opens _) => conn.pendingContent.get? f.channel = none
  | some (.header _) => (conn.pendingContent.get? f.channel).bind Slot.remaining = none
  | _ => True

def KeepsOrder : Conn → List Frame → Prop
  | _, [] => True
  | conn, f :: rest => conn.InOrder f ∧
    ∀ conn', processFrame f conn = .ok () conn' → KeepsOrder conn' rest

/-- The assembler accepts what comes on every channel. -/
def Accepts (unfinished : Int → Incomplete) (frames : List Frame) : Prop :=
  ∀ channel, (Unfinished.assemble ContentHeader.bodySize (unfinished channel)
    (piecesOn channel frames)).isSome = true

/-- The two branches of the source: a body in one frame keeps its payload, else the payloads are
collected. -/
def readBody (channel : Int) (payload : Bytes) : ConnM Unit := do
  let conn ← get
  match (conn.pendingContent.get? channel).bind fun slot => slot.remaining.map fun n => (slot, n) with
  | none => reject "body frame without header"
  | some (slot, remaining) =>
    if remaining = payload.length ∧ slot.body = [] then
      modify fun conn => conn.finishDelivery channel { slot with body := payload, remaining := some 0 }
    else
      let slot := { slot with body := slot.body ++ payload, remaining := some (remaining - payload.length) }
      if remaining < payload.length then reject "body exceeded content header size"
      else if remaining = payload.length then modify fun conn => conn.finishDelivery channel slot
      else modify fun conn => conn.setSlot channel slot

theorem readBody_eq_processBody (channel : Int) (payload : Bytes) :
    readBody channel payload = processBody channel payload := by
  funext conn
  rw [readBody, processBody, bind_run_ok (get_run _), bind_run_ok (get_run _)]
  cases (conn.pendingContent.get? channel).bind fun slot => slot.remaining.map fun n => (slot, n) with
  | none => rfl
  | some pending =>
    obtain ⟨slot, remaining⟩ := pending
    by_cases hfast : remaining = payload.length ∧ slot.body = []
    · obtain ⟨rfl, hbody⟩ := hfast
      simp [hbody]
    · simp only [if_neg hfast]

section Streams

variable {conn conn' : Conn} {f : Frame} {frames rest : List Frame} {unfinished : Int → Incomplete}

theorem piecesOn_cons (channel : Int) (f : Frame) (rest : List Frame) : piecesOn channel (f :: rest) =
    (if f.channel = channel then f.piece else none).toList ++ piecesOn channel rest := by
  unfold piecesOn
  rw [List.filterMap_cons]
  split <;> simp_all

theorem piecesOn_cons_inert {channel : Int} (hpiece : f.piece = none) :
    piecesOn channel (f :: rest) = piecesOn channel rest := by
  simp [piecesOn_cons, hpiece]

theorem piecesOn_cons_self {piece : FramePiece} (hpiece : f.piece = some piece) :
    piecesOn f.channel (f :: rest) = piece :: piecesOn f.channel rest := by
  simp [piecesOn_cons, hpiece]

theorem piecesOn_cons_of_ne {channel : Int} (hne : channel ≠ f.channel) :
    piecesOn channel (f :: rest) = piecesOn channel rest := by
  simp [piecesOn_cons, Ne.symm hne]

theorem Moves_self (channel : Int) (next : Incomplete) : Moves unfinished channel next channel = next :=
  if_pos rfl

theorem Moves_of_ne {channel other : Int} (hne : other ≠ channel) (next : Incomplete) :
    Moves unfinished channel next other = unfinished other :=
  if_neg hne

theorem Moved.slotsHold {next : Incomplete} {done : Option FrameContent} (h : Moved conn conn' f.channel next done)
    (hslots : SlotsHold conn unfinished) : SlotsHold conn' (Moves unfinished f.channel next) := by
  intro channel
  by_cases hchannel : channel = f.channel
  · rw [hchannel, Moves_self]
    exact h.slot
  · rw [Moves_of_ne hchannel, h.others channel hchannel]
    exact hslots channel

theorem short_moves {next : Incomplete} {channel : Int} (hshort : ∀ c, (unfinished c).Short ContentHeader.bodySize)
    (hnext : next.Short ContentHeader.bodySize) :
    ∀ c, (Moves unfinished channel next c).Short ContentHeader.bodySize := by
  intro c
  by_cases hc : c = channel
  · rw [hc, Moves_self]
    exact hnext
  · rw [Moves_of_ne hc]
    exact hshort c

theorem accepts_cons_inert (hpiece : f.piece = none) :
    Accepts unfinished (f :: rest) ↔ Accepts unfinished rest := by
  simp only [Accepts, piecesOn_cons_inert hpiece]

theorem accepts_cons {piece : FramePiece} (hpiece : f.piece = some piece) :
    Accepts unfinished (f :: rest) ↔ ∃ next done,
      (unfinished f.channel).step ContentHeader.bodySize piece = some (next, done) ∧
        Accepts (Moves unfinished f.channel next) rest := by
  constructor
  · intro h
    have hself := h f.channel
    rw [piecesOn_cons_self hpiece, Unfinished.assemble] at hself
    cases hstep : (unfinished f.channel).step ContentHeader.bodySize piece with
    | none =>
      rw [hstep] at hself
      cases hself
    | some taken =>
      obtain ⟨next, done⟩ := taken
      refine ⟨next, done, rfl, fun channel => ?_⟩
      by_cases hchannel : channel = f.channel
      · rw [hchannel, Moves_self]
        rw [hstep] at hself
        simpa using hself
      · rw [Moves_of_ne hchannel, ← piecesOn_cons_of_ne hchannel]
        exact h channel
  · rintro ⟨next, done, hstep, h⟩ channel
    by_cases hchannel : channel = f.channel
    · have hnext := h f.channel
      rw [Moves_self] at hnext
      rw [hchannel, piecesOn_cons_self hpiece, Unfinished.assemble_cons hstep]
      simpa using hnext
    · have hother := h channel
      rw [Moves_of_ne hchannel] at hother
      rwa [piecesOn_cons_of_ne hchannel]

theorem accepts_prefix {front back : List Frame} (h : Accepts unfinished (front ++ back)) :
    Accepts unfinished front := by
  induction front generalizing unfinished with
  | nil => exact fun _ => rfl
  | cons f rest ih =>
    cases hpiece : f.piece with
    | none =>
      rw [List.cons_append, accepts_cons_inert hpiece] at h
      exact (accepts_cons_inert hpiece).mpr (ih h)
    | some piece =>
      rw [List.cons_append, accepts_cons hpiece] at h
      obtain ⟨next, done, hstep, h⟩ := h
      exact (accepts_cons hpiece).mpr ⟨next, done, hstep, ih h⟩

theorem completions_cons_inert (hpiece : f.piece = none) :
    completions unfinished (f :: rest) = completions unfinished rest := by
  rw [completions, hpiece]
  rfl

theorem completions_cons {piece : FramePiece} {next : Incomplete} {done : Option FrameContent}
    (hpiece : f.piece = some piece)
    (hstep : (unfinished f.channel).step ContentHeader.bodySize piece = some (next, done)) :
    completions unfinished (f :: rest) =
      done.toList.map (Prod.mk f.channel) ++ completions (Moves unfinished f.channel next) rest := by
  rw [completions, hpiece, Option.map_some, hstep]

theorem onChannel_append (front back : Completed) (channel : Int) :
    Completed.onChannel (front ++ back) channel =
      Completed.onChannel front channel ++ Completed.onChannel back channel := by
  simp [Completed.onChannel]

theorem onChannel_self (contents : List FrameContent) (channel : Int) :
    Completed.onChannel (contents.map (Prod.mk channel)) channel = contents := by
  induction contents with
  | nil => rfl
  | cons c rest ih => simpa [Completed.onChannel] using ih

theorem onChannel_of_ne {channel other : Int} (hne : other ≠ channel) (contents : List FrameContent) :
    Completed.onChannel (contents.map (Prod.mk channel)) other = [] := by
  simp [Completed.onChannel, Ne.symm hne]

/-- On each channel, what is completed is what its assembler makes of its pieces. -/
theorem assemble_completions (haccepts : Accepts unfinished frames) (channel : Int) : ∃ last,
    Unfinished.assemble ContentHeader.bodySize (unfinished channel) (piecesOn channel frames) =
      some ((completions unfinished frames).onChannel channel, last) := by
  induction frames generalizing unfinished with
  | nil => exact ⟨unfinished channel, rfl⟩
  | cons f rest ih =>
    cases hpiece : f.piece with
    | none =>
      rw [piecesOn_cons_inert hpiece, completions_cons_inert hpiece]
      exact ih ((accepts_cons_inert hpiece).mp haccepts)
    | some piece =>
      obtain ⟨next, done, hstep, haccepts⟩ := (accepts_cons hpiece).mp haccepts
      obtain ⟨last, hlast⟩ := ih haccepts
      refine ⟨last, ?_⟩
      rw [completions_cons hpiece hstep, onChannel_append]
      by_cases hchannel : channel = f.channel
      · rw [hchannel, Moves_self] at hlast
        rw [hchannel, piecesOn_cons_self hpiece, Unfinished.assemble_cons hstep, hlast, onChannel_self]
        rfl
      · rw [Moves_of_ne hchannel] at hlast
        rw [piecesOn_cons_of_ne hchannel, hlast, onChannel_of_ne hchannel]
        rfl

/-- Frames that the assemblers accept are processed, and what they complete is queued. -/
theorem processFrames_accepted (hcarries : ∀ f ∈ frames, f.frameType = .heartbeat ∨ f.piece.isSome = true)
    (hslots : SlotsHold conn unfinished) (hshort : ∀ c, (unfinished c).Short ContentHeader.bodySize)
    (haccepts : Accepts unfinished frames) : ∃ conn', processFrames frames conn = .ok () conn' := by
  induction frames generalizing conn unfinished with
  | nil => exact ⟨conn, rfl⟩
  | cons f rest ih =>
    have hrest : ∀ f ∈ rest, f.frameType = .heartbeat ∨ f.piece.isSome = true :=
      fun g hg => hcarries g (List.mem_cons_of_mem _ hg)
    cases hpiece : f.piece with
    | none =>
      have htype : f.frameType = .heartbeat := by
        simpa [hpiece] using hcarries f List.mem_cons_self
      have hprocess : processFrame f conn = .ok () conn := by
        rw [processFrame, htype]
        rfl
      rw [processFrames, bind_run_ok hprocess]
      exact ih hrest hslots hshort ((accepts_cons_inert hpiece).mp haccepts)
    | some piece =>
      obtain ⟨next, done, hstep, haccepts⟩ := (accepts_cons hpiece).mp haccepts
      obtain ⟨conn', hprocess, hmoved⟩ := processFrame_of_step hpiece (hslots f.channel) (hshort f.channel) hstep
      obtain ⟨-, hnext, -⟩ := Unfinished.step_eq_some (hshort f.channel) hstep
      rw [processFrames, bind_run_ok hprocess]
      exact ih hrest (hmoved.slotsHold hslots) (short_moves hshort hnext) haccepts

theorem queues_of_accepted (hslots : SlotsHold conn unfinished)
    (hshort : ∀ c, (unfinished c).Short ContentHeader.bodySize) (haccepts : Accepts unfinished frames)
    (hprocess : processFrames frames conn = .ok () conn') :
    conn'.deliveries = conn.deliveries ++ (completions unfinished frames).filterMap (fun c => delivery c.2) ∧
      conn'.returns = conn.returns ++
        (completions unfinished frames).filterMap (fun c => returnedDelivery c.2) := by
  induction frames generalizing conn unfinished with
  | nil =>
    cases hprocess
    simp [completions]
  | cons f rest ih =>
    obtain ⟨⟨⟩, mid, hfirst, hlater⟩ := bind_returns.mp hprocess
    cases hpiece : f.piece with
    | none =>
      obtain ⟨hpending, hdeliveries, hreturns⟩ := processFrame_inert hpiece hfirst
      have hslots' : SlotsHold mid unfinished := fun c => by rw [hpending]; exact hslots c
      rw [completions_cons_inert hpiece, ← hdeliveries, ← hreturns]
      exact ih hslots' hshort ((accepts_cons_inert hpiece).mp haccepts) hlater
    | some piece =>
      obtain ⟨next, done, hstep, haccepts⟩ := (accepts_cons hpiece).mp haccepts
      obtain ⟨mid', hprocess', hmoved⟩ := processFrame_of_step hpiece (hslots f.channel) (hshort f.channel) hstep
      obtain ⟨-, hnext, -⟩ := Unfinished.step_eq_some (hshort f.channel) hstep
      cases hfirst.symm.trans hprocess'
      obtain ⟨hdeliveries, hreturns⟩ := ih (hmoved.slotsHold hslots) (short_moves hshort hnext) haccepts hlater
      rw [completions_cons hpiece hstep, hdeliveries, hreturns, hmoved.deliveries, hmoved.returns]
      simp only [List.filterMap_append, List.filterMap_map, List.append_assoc]
      exact ⟨rfl, rfl⟩

theorem inOrder_iff_step {piece : FramePiece} (hslots : SlotsHold conn unfinished)
    (hshort : (unfinished f.channel).Short ContentHeader.bodySize)
    (hpiece : f.piece = some piece) (hprocess : processFrame f conn = .ok () conn') :
    conn.InOrder f ↔ ((unfinished f.channel).step ContentHeader.bodySize piece).isSome = true := by
  have hslot := hslots f.channel
  unfold Conn.InOrder
  rw [hpiece, hslot]
  cases piece with
  | opens method => cases unfinished f.channel <;> simp [slotOf, Unfinished.step]
  | header header =>
    cases hunfinished : unfinished f.channel with
    | nothing =>
      rw [hunfinished] at hslot
      obtain ⟨htype, hheader⟩ := piece_eq_header hpiece
      rw [processFrame, htype] at hprocess
      simp only [processHeader, hheader] at hprocess
      rw [bind_run_ok (lift_ok _ _), bind_run_ok (get_run _), hslot] at hprocess
      cases hprocess
    | opened method =>
      simp only [slotOf, Unfinished.step, Unfinished.fill, Option.bind_some, true_iff]
      split
      · rfl
      · rename_i hnot
        rw [if_pos (by simpa [eq_comm] using hnot)]
        rfl
    | filling method first payloads => simp [slotOf, Unfinished.step]
  | body payload =>
    obtain ⟨htype, rfl⟩ := piece_eq_body hpiece
    rw [processFrame, htype] at hprocess
    simp only [processBody] at hprocess
    rw [bind_run_ok (get_run _), hslot] at hprocess
    cases hunfinished : unfinished f.channel with
    | nothing =>
      rw [hunfinished] at hprocess
      cases hprocess
    | opened method =>
      rw [hunfinished] at hprocess
      cases hprocess
    | filling method header payloads =>
      rw [hunfinished] at hprocess hshort
      have hleft : payloads.flatten.length < header.bodySize := hshort
      simp only [slotOf, Option.bind_some, Option.map_some] at hprocess
      simp only [Unfinished.step, Unfinished.fill, true_iff]
      by_cases hover : header.bodySize - payloads.flatten.length < f.payload.length
      · rw [if_pos hover] at hprocess
        cases hprocess
      · have hlength : (payloads ++ [f.payload]).flatten.length = payloads.flatten.length + f.payload.length := by
          simp
        by_cases hmore : (payloads ++ [f.payload]).flatten.length < header.bodySize
        · rw [if_pos hmore]
          rfl
        · rw [if_neg hmore, if_pos (by omega)]
          rfl

theorem accepts_iff_keepsOrder (hslots : SlotsHold conn unfinished)
    (hshort : ∀ c, (unfinished c).Short ContentHeader.bodySize)
    (hprocess : processFrames frames conn = .ok () conn') : Accepts unfinished frames ↔ KeepsOrder conn frames := by
  induction frames generalizing conn unfinished with
  | nil => exact iff_of_true (fun _ => rfl) trivial
  | cons f rest ih =>
    obtain ⟨⟨⟩, mid, hfirst, hlater⟩ := bind_returns.mp hprocess
    have hnextOrder : (∀ conn', processFrame f conn = .ok () conn' → KeepsOrder conn' rest) ↔
        KeepsOrder mid rest := by
      refine ⟨fun h => h mid hfirst, fun h conn' hconn' => ?_⟩
      cases hfirst.symm.trans hconn'
      exact h
    rw [KeepsOrder, hnextOrder]
    cases hpiece : f.piece with
    | none =>
      obtain ⟨hpending, -, -⟩ := processFrame_inert hpiece hfirst
      have hslots' : SlotsHold mid unfinished := fun c => by rw [hpending]; exact hslots c
      have hinOrder : conn.InOrder f := by simp [Conn.InOrder, hpiece]
      rw [accepts_cons_inert hpiece, ih hslots' hshort hlater]
      exact (and_iff_right hinOrder).symm
    | some piece =>
      rw [accepts_cons hpiece, inOrder_iff_step hslots (hshort f.channel) hpiece hfirst]
      constructor
      · rintro ⟨next, done, hstep, haccepts⟩
        obtain ⟨mid', hprocess', hmoved⟩ := processFrame_of_step hpiece (hslots f.channel) (hshort f.channel) hstep
        obtain ⟨-, hnext, -⟩ := Unfinished.step_eq_some (hshort f.channel) hstep
        cases hfirst.symm.trans hprocess'
        exact ⟨by rw [hstep]; rfl, (ih (hmoved.slotsHold hslots) (short_moves hshort hnext) hlater).mp haccepts⟩
      · rintro ⟨hsome, horder⟩
        obtain ⟨⟨next, done⟩, hstep⟩ := Option.isSome_iff_exists.mp hsome
        obtain ⟨mid', hprocess', hmoved⟩ := processFrame_of_step hpiece (hslots f.channel) (hshort f.channel) hstep
        obtain ⟨-, hnext, -⟩ := Unfinished.step_eq_some (hshort f.channel) hstep
        cases hfirst.symm.trans hprocess'
        exact ⟨next, done, hstep, (ih (hmoved.slotsHold hslots) (short_moves hshort hnext) hlater).mpr horder⟩

theorem short_nothingUnfinished (channel : Int) : (nothingUnfinished channel).Short ContentHeader.bodySize :=
  Unfinished.short_nothing

theorem slotsHold_nothing (hempty : ∀ channel, conn.pendingContent.get? channel = none) :
    SlotsHold conn nothingUnfinished :=
  hempty

theorem assembled_of_accepts (hslots : SlotsHold conn nothingUnfinished)
    (haccepts : Accepts nothingUnfinished frames) (hprocess : processFrames frames conn = .ok () conn') :
    Assembled conn conn' frames (completions nothingUnfinished frames) := by
  obtain ⟨hdeliveries, hreturns⟩ := queues_of_accepted hslots short_nothingUnfinished haccepts hprocess
  refine ⟨fun channel => ?_, fun c hc => ?_, hdeliveries, hreturns⟩
  · obtain ⟨last, hlast⟩ := assemble_completions haccepts channel
    obtain ⟨hpieces, hshort, -⟩ := Unfinished.assemble_sound Unfinished.short_nothing hlast
    exact ⟨last, hshort, hpieces⟩
  · obtain ⟨last, hlast⟩ := assemble_completions haccepts c.1
    obtain ⟨-, -, hwell⟩ := Unfinished.assemble_sound Unfinished.short_nothing hlast
    refine hwell c.2 (List.mem_map.mpr ⟨c, ?_, rfl⟩)
    simpa using hc

theorem Assembled.accepts {completed : Completed} (h : Assembled conn conn' frames completed) :
    Accepts nothingUnfinished frames := by
  intro channel
  obtain ⟨last, hshort, hpieces⟩ := h.channels channel
  have hwell : ∀ c ∈ completed.onChannel channel, c.WellFormed ContentHeader.bodySize := by
    intro c hc
    obtain ⟨d, hd, rfl⟩ := List.mem_map.mp hc
    exact h.wellFormed d (List.mem_of_mem_filter hd)
  have hassemble : Unfinished.assemble ContentHeader.bodySize (nothingUnfinished channel) (piecesOn channel frames) =
      some (completed.onChannel channel, last) := by
    rw [hpieces]
    exact Unfinished.assemble_complete hwell hshort
  rw [hassemble]
  rfl

end Streams

/-! ## What the loop makes of the contents of all channels -/

section Whole

variable {frames : List Frame} {contents : Int → List FrameContent}

theorem assemble_contents (hchannels : ∀ channel, piecesOn channel frames = (contents channel).flatMap Content.pieces)
    (hwell : ∀ channel, ∀ c ∈ contents channel, c.WellFormed ContentHeader.bodySize) (channel : Int) :
    Unfinished.assemble ContentHeader.bodySize (nothingUnfinished channel) (piecesOn channel frames) =
      some (contents channel, .nothing) := by
  rw [hchannels, ← List.append_nil ((contents channel).flatMap Content.pieces)]
  exact Unfinished.assemble_complete (hwell channel) Unfinished.short_nothing

theorem accepts_of_contents (hchannels : ∀ channel, piecesOn channel frames = (contents channel).flatMap Content.pieces)
    (hwell : ∀ channel, ∀ c ∈ contents channel, c.WellFormed ContentHeader.bodySize) : Accepts nothingUnfinished frames := by
  intro channel
  rw [assemble_contents hchannels hwell]
  rfl

end Whole

/-- Contents that come whole on every channel, interleaved in any way and with heartbeats between
them, are never rejected: each frame that completes a content queues its message, and in the end
every channel has given just its contents. The branch for a body in one frame gives what the other
one gives. -/
theorem contents_assembled {conn : Conn} {frames : List Frame} {contents : Int → List FrameContent}
    (hempty : ∀ channel, conn.pendingContent.get? channel = none)
    (hcarries : ∀ f ∈ frames, f.frameType = .heartbeat ∨ f.piece.isSome = true)
    (hchannels : ∀ channel, piecesOn channel frames = (contents channel).flatMap Content.pieces)
    (hwell : ∀ channel, ∀ c ∈ contents channel, c.WellFormed ContentHeader.bodySize) :
    (∀ front, front <+: frames → ∃ conn', processFrames front conn = .ok () conn' ∧
        Assembled conn conn' front (completions nothingUnfinished front)) ∧
      (∀ channel, (completions nothingUnfinished frames).onChannel channel = contents channel) ∧
      ∀ channel payload, readBody channel payload = processBody channel payload := by
  have haccepts : Accepts nothingUnfinished frames := accepts_of_contents hchannels hwell
  refine ⟨?_, fun channel => ?_, readBody_eq_processBody⟩
  · rintro front ⟨back, rfl⟩
    have hfront := accepts_prefix haccepts
    obtain ⟨conn', hprocess⟩ := processFrames_accepted
      (fun f hf => hcarries f (List.mem_append_left back hf)) (slotsHold_nothing hempty) short_nothingUnfinished hfront
    exact ⟨conn', hprocess, assembled_of_accepts (slotsHold_nothing hempty) hfront hprocess⟩
  · obtain ⟨last, hlast⟩ := assemble_completions haccepts channel
    rw [assemble_contents hchannels hwell] at hlast
    exact (Prod.mk.inj (Option.some.inj hlast)).1.symm

def namelessDeliver (channel : Int) : Frame :=
  ⟨.method, channel, [0, 60, 0, 60, 0, 0, 0, 0, 0, 0, 0, 0, 1, 0, 0, 0]⟩

def plainHeader (channel : Int) (bodySize : UInt8) : Frame :=
  ⟨.header, channel, [0, 60, 0, 0, 0, 0, 0, 0, 0, 0, 0, bodySize, 0, 0]⟩

def namelessContent (bodySize : Nat) (payloads : List Bytes) : FrameContent where
  method := .deliver ⟨[], 1, false, [], []⟩
  header := ⟨60, bodySize, .empty⟩
  payloads := payloads

def twoDeliveries : List Frame :=
  [namelessDeliver 1, namelessDeliver 2, plainHeader 1 2, ⟨.heartbeat, 0, []⟩, plainHeader 2 0,
    ⟨.body, 1, [104]⟩, ⟨.body, 1, [105]⟩]

def twoContents (channel : Int) : List FrameContent :=
  if channel = 1 then [namelessContent 2 [[104], [105]]]
  else if channel = 2 then [namelessContent 0 []]
  else []

theorem piecesOn_twoDeliveries (channel : Int) :
    piecesOn channel twoDeliveries = (twoContents channel).flatMap Content.pieces := by
  by_cases hone : channel = 1
  · rw [hone]
    rfl
  · by_cases htwo : channel = 2
    · rw [htwo]
      rfl
    · simp [piecesOn, twoDeliveries, namelessDeliver, plainHeader, twoContents, Frame.piece, Ne.symm hone,
        Ne.symm htwo, hone, htwo]

theorem twoContents_wellFormed (channel : Int) :
    ∀ c ∈ twoContents channel, c.WellFormed ContentHeader.bodySize := by
  intro c hc
  unfold twoContents at hc
  split at hc
  · cases List.mem_singleton.mp hc
    exact ⟨rfl, fun _ => by decide⟩
  · split at hc
    · cases List.mem_singleton.mp hc
      exact ⟨rfl, fun hne => absurd rfl hne⟩
    · cases hc

/-- The two deliveries come out, the second one first. -/
theorem twoDeliveries_assembled :
    (∀ front, front <+: twoDeliveries → ∃ conn', processFrames front {} = .ok () conn' ∧
        Assembled {} conn' front (completions nothingUnfinished front)) ∧
      (∀ channel, (completions nothingUnfinished twoDeliveries).onChannel channel = twoContents channel) ∧
      ∀ channel payload, readBody channel payload = processBody channel payload :=
  contents_assembled (fun _ => rfl) (by decide) piecesOn_twoDeliveries twoContents_wellFormed

/-- An empty payload after the announced size is reached is not taken, although the payloads have the
announced size in all. -/
theorem emptyLast_rejected :
    (namelessContent 2 [[104, 105], []]).body.length = 2 ∧
      (∀ channel, piecesOn channel [namelessDeliver 1, plainHeader 1 2, ⟨.body, 1, [104, 105]⟩, ⟨.body, 1, []⟩] =
        if channel = 1 then (namelessContent 2 [[104, 105], []]).pieces else []) ∧
      ∃ conn', processFrames [namelessDeliver 1, plainHeader 1 2, ⟨.body, 1, [104, 105]⟩, ⟨.body, 1, []⟩] {} =
        .error (.protocolError "body frame without header") conn' := by
  refine ⟨rfl, fun channel => ?_, _, rfl⟩
  by_cases hone : channel = 1
  · rw [hone]
    rfl
  · simp [piecesOn, namelessDeliver, plainHeader, Frame.piece, hone, Ne.symm hone]

/-- Of all sequences that are not rejected, just those that keep their order come out whole: each
delivery or return but perhaps the last of its channel has given its message, in order and with a
body of the size that its one header announced. -/
theorem assembled_iff_keepsOrder {conn conn' : Conn} {frames : List Frame}
    (hempty : ∀ channel, conn.pendingContent.get? channel = none)
    (hprocess : processFrames frames conn = .ok () conn') :
    (∃ completed, Assembled conn conn' frames completed) ↔ KeepsOrder conn frames := by
  have hslots := slotsHold_nothing hempty
  rw [← accepts_iff_keepsOrder hslots short_nothingUnfinished hprocess]
  constructor
  · rintro ⟨completed, h⟩
    exact h.accepts
  · intro haccepts
    exact ⟨_, assembled_of_accepts hslots haccepts hprocess⟩

/-- The two deliveries keep their order and come out. -/
theorem twoDeliveries_keepOrder : ∃ conn', processFrames twoDeliveries {} = .ok () conn' ∧
    (∃ completed, Assembled {} conn' twoDeliveries completed) ∧ KeepsOrder {} twoDeliveries := by
  obtain ⟨conn', hprocess⟩ : ∃ conn', processFrames twoDeliveries {} = .ok () conn' := ⟨_, rfl⟩
  have hassembled : ∃ completed, Assembled {} conn' twoDeliveries completed :=
    ⟨_, assembled_of_accepts (slotsHold_nothing fun _ => rfl)
      (accepts_of_contents piecesOn_twoDeliveries twoContents_wellFormed) hprocess⟩
  exact ⟨conn', hprocess, hassembled, (assembled_iff_keepsOrder (fun _ => rfl) hprocess).mp hassembled⟩

/-- A delivery that opens over an unfinished one is taken, and the first of them is lost. -/
theorem openedTwice_not_assembled : ∃ conn',
    processFrames [namelessDeliver 1, namelessDeliver 1, plainHeader 1 0] {} = .ok () conn' ∧
      conn'.deliveries.length = 1 ∧
      ¬∃ completed, Assembled {} conn' [namelessDeliver 1, namelessDeliver 1, plainHeader 1 0] completed := by
  refine ⟨_, rfl, rfl, ?_⟩
  rintro ⟨completed, h⟩
  cases h.accepts 1

end Nuropb.Transport
