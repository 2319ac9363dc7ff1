import Nuropb.Library.Assembly
import Nuropb.Transport.FrameTaken
import Nuropb.Transport.Framing

/-! # Contents of many channels

The frames of a channel carry pieces of contents. The slot of the channel holds what is unfinished
there; a frame that comes in its turn moves it as the assembler does and emits the content that it
completes.
-/
namespace Nuropb.Transport

open Library Protocol

abbrev FramePiece := Piece ContentMethod ContentHeader UInt8

abbrev FrameContent := Content ContentMethod ContentHeader UInt8

abbrev Incomplete := Unfinished ContentMethod ContentHeader UInt8

/-- The piece of a content that a frame carries. -/
def Frame.piece (f : Frame) : Option FramePiece :=
  match f.frameType with
  | .method =>
    match decodeMethod f.payload with
    | .ok (.basicDeliver args) => some (.opens (.deliver args))
    | .ok (.basicReturn args) => some (.opens (.returned args))
    | _ => none
  | .header =>
    match decodeContentHeader f.payload with
    | .ok header => some (.header header)
    | .error _ => none
  | .body => some (.body f.payload)
  | .heartbeat => none

/-- The pieces that come on a channel. -/
def piecesOn (channel : Int) (frames : List Frame) : List FramePiece :=
  frames.filterMap fun f => if f.channel = channel then f.piece else none

def returnedMessage (args : BasicReturnArgs) (body : Bytes) (props : Properties) : ReturnedMessage where
  replyCode := args.replyCode.toNat
  replyText := args.replyText
  exchange := args.exchange
  routingKey := args.routingKey
  body := body
  properties := props

/-- The message for `receive` that a content makes. -/
def delivery (c : FrameContent) : Option IncomingMessage :=
  match c.method with
  | .deliver args => some (deliveredMessage args c.body c.header.properties)
  | .returned _ => none

/-- The message for `receive_return` that a content makes. -/
def returnedDelivery (c : FrameContent) : Option ReturnedMessage :=
  match c.method with
  | .deliver _ => none
  | .returned args => some (returnedMessage args c.body c.header.properties)

/-- The slot that holds what is unfinished. -/
def slotOf : Incomplete → Option Slot
  | .nothing => none
  | .opened method => some { method }
  | .filling method header payloads =>
    some { method, properties := header.properties, body := payloads.flatten,
           remaining := some (header.bodySize - payloads.flatten.length) }

/-- The slots of the channels hold what is unfinished there. -/
def SlotsHold (conn : Conn) (unfinished : Int → Incomplete) : Prop :=
  ∀ channel, conn.pendingContent.get? channel = slotOf (unfinished channel)

/-- A frame of the channel may complete a content, whose message is queued. -/
structure Moved (conn conn' : Conn) (channel : Int) (next : Incomplete) (done : Option FrameContent) : Prop where
  others : ∀ other, other ≠ channel → conn'.pendingContent.get? other = conn.pendingContent.get? other
  slot : conn'.pendingContent.get? channel = slotOf next
  deliveries : conn'.deliveries = conn.deliveries ++ done.toList.filterMap delivery
  returns : conn'.returns = conn.returns ++ done.toList.filterMap returnedDelivery

section Moves

variable {conn conn' : Conn} {f : Frame} {channel : Int}

theorem moved_setSlot {slot : Slot} {next : Incomplete} (h : slotOf next = some slot) :
    Moved conn (conn.setSlot channel slot) channel next none where
  others _ hne := Dict.get?_set_of_ne _ (Ne.symm hne) _
  slot := (Dict.get?_set_self _ _ _).trans h.symm
  deliveries := (List.append_nil _).symm
  returns := (List.append_nil _).symm

theorem finishReturn_returns (conn : Conn) (channel : Int) (args : BasicReturnArgs) (body : Bytes)
    (props : Properties) : (conn.finishReturn channel args body props).returns =
      conn.returns ++ [returnedMessage args body props] := by
  unfold Conn.finishReturn
  split <;> rfl

theorem moved_finishDelivery {method : ContentMethod} {header : ContentHeader} {payloads : List Bytes}
    {remaining : Option Nat} :
    Moved conn (conn.finishDelivery channel
        { method, properties := header.properties, body := payloads.flatten, remaining }) channel .nothing
      (some ⟨method, header, payloads⟩) := by
  cases method with
  | deliver args =>
    refine ⟨fun other hne => Dict.get?_erase_of_ne _ (Ne.symm hne), Dict.get?_erase_self _ _, rfl, ?_⟩
    exact (List.append_nil _).symm
  | returned args =>
    obtain ⟨mandatoryTags, returnByTag, returns, heq⟩ := Conn.finishReturn_eq
      { conn with pendingContent := conn.pendingContent.erase channel } channel args payloads.flatten
      header.properties
    have hreturns := finishReturn_returns { conn with pendingContent := conn.pendingContent.erase channel } channel
      args payloads.flatten header.properties
    have hfinish : conn.finishDelivery channel
        { method := .returned args, properties := header.properties, body := payloads.flatten, remaining } =
        { conn with pendingContent := conn.pendingContent.erase channel, mandatoryTags, returnByTag, returns } := heq
    rw [heq] at hreturns
    rw [hfinish]
    refine ⟨fun other hne => Dict.get?_erase_of_ne _ (Ne.symm hne), Dict.get?_erase_self _ _, ?_, hreturns⟩
    exact (List.append_nil _).symm

theorem moved_fill (conn : Conn) (channel : Int) {method : ContentMethod} {header : ContentHeader}
    {payloads : List Bytes} {next : Incomplete} {done : Option FrameContent}
    (h : Unfinished.fill ContentHeader.bodySize method header payloads = some (next, done)) :
    let slot : Slot := { method, properties := header.properties, body := payloads.flatten,
                         remaining := some (header.bodySize - payloads.flatten.length) }
    Moved conn (if header.bodySize = payloads.flatten.length then conn.finishDelivery channel slot
      else conn.setSlot channel slot) channel next done := by
  intro slot
  unfold Unfinished.fill at h
  split at h
  · rename_i hshort
    cases h
    rw [if_neg (Nat.ne_of_gt hshort)]
    exact moved_setSlot rfl
  · split at h
    · rename_i hfull
      cases h
      rw [if_pos hfull.symm]
      exact moved_finishDelivery
    · cases h

theorem piece_eq_opens {method : ContentMethod} (h : f.piece = some (.opens method)) :
    processFrame f conn = .ok () (conn.setSlot f.channel { method }) := by
  unfold Frame.piece at h
  cases htype : f.frameType with
  | method =>
    have hprocess : processFrame f conn = processMethod f.channel f.payload conn := by
      rw [processFrame, htype]
    rw [hprocess, processMethod]
    simp only [htype] at h
    split at h
    · rename_i args hmethod
      cases h
      rw [hmethod, bind_run_ok (lift_ok _ _)]
      rfl
    · rename_i args hmethod
      cases h
      rw [hmethod, bind_run_ok (lift_ok _ _)]
      rfl
    · cases h
  | header =>
    simp only [htype] at h
    split at h <;> cases h
  | body =>
    simp only [htype] at h
    cases h
  | heartbeat =>
    simp only [htype] at h
    cases h

theorem piece_eq_header {header : ContentHeader} (h : f.piece = some (.header header)) :
    f.frameType = .header ∧ decodeContentHeader f.payload = .ok header := by
  unfold Frame.piece at h
  cases htype : f.frameType with
  | method =>
    simp only [htype] at h
    split at h <;> cases h
  | header =>
    simp only [htype] at h
    split at h
    · rename_i hheader
      cases h
      exact ⟨rfl, hheader⟩
    · cases h
  | body =>
    simp only [htype] at h
    cases h
  | heartbeat =>
    simp only [htype] at h
    cases h

theorem piece_eq_body {payload : Bytes} (h : f.piece = some (.body payload)) :
    f.frameType = .body ∧ f.payload = payload := by
  unfold Frame.piece at h
  cases htype : f.frameType with
  | method =>
    simp only [htype] at h
    split at h <;> cases h
  | header =>
    simp only [htype] at h
    split at h <;> cases h
  | body =>
    simp only [htype] at h
    cases h
    exact ⟨rfl, rfl⟩
  | heartbeat =>
    simp only [htype] at h
    cases h

theorem processFrame_header {header : ContentHeader} {slot : Slot} (h : f.piece = some (.header header))
    (hslot : conn.pendingContent.get? f.channel = some slot) : processFrame f conn = .ok ()
      (if header.bodySize = 0 then conn.finishDelivery f.channel
          { slot with properties := header.properties, remaining := some header.bodySize }
        else conn.setSlot f.channel
          { slot with properties := header.properties, remaining := some header.bodySize }) := by
  obtain ⟨htype, hheader⟩ := piece_eq_header h
  have hprocess : processFrame f conn = processHeader f.channel f.payload conn := by
    rw [processFrame, htype]
  rw [hprocess, processHeader, hheader, bind_run_ok (lift_ok _ _), bind_run_ok (get_run _)]
  simp only [hslot]
  split <;> rfl

theorem processFrame_body {payload : Bytes} {slot : Slot} {remaining : Nat} (h : f.piece = some (.body payload))
    (hslot : conn.pendingContent.get? f.channel = some slot) (hremaining : slot.remaining = some remaining)
    (hfits : payload.length ≤ remaining) : processFrame f conn = .ok ()
      (if remaining = payload.length then conn.finishDelivery f.channel
          { slot with body := slot.body ++ payload, remaining := some (remaining - payload.length) }
        else conn.setSlot f.channel
          { slot with body := slot.body ++ payload, remaining := some (remaining - payload.length) }) := by
  obtain ⟨htype, rfl⟩ := piece_eq_body h
  have hprocess : processFrame f conn = processBody f.channel f.payload conn := by
    rw [processFrame, htype]
  rw [hprocess]
  exact processBody_of_slot hslot hremaining hfits

/-- A piece in its turn is taken, whatever the other channels hold. -/
theorem processFrame_of_step {piece : FramePiece} {p next : Incomplete} {done : Option FrameContent}
    (hpiece : f.piece = some piece) (hslot : conn.pendingContent.get? f.channel = slotOf p)
    (hp : p.Short ContentHeader.bodySize)
    (hstep : p.step ContentHeader.bodySize piece = some (next, done)) :
    ∃ conn', processFrame f conn = .ok () conn' ∧ Moved conn conn' f.channel next done := by
  unfold Unfinished.step at hstep
  split at hstep
  · cases hstep
    exact ⟨_, piece_eq_opens hpiece, moved_setSlot rfl⟩
  · exact ⟨_, processFrame_header hpiece hslot, moved_fill _ _ hstep⟩
  · rename_i method header payloads payload
    have hlength : (payloads ++ [payload]).flatten.length = payloads.flatten.length + payload.length := by simp
    have hfits : payload.length ≤ header.bodySize - payloads.flatten.length := by
      unfold Unfinished.fill at hstep
      split at hstep
      · omega
      · split at hstep
        · omega
        · cases hstep
    have hshort : payloads.flatten.length < header.bodySize := hp
    have hmoved := moved_fill conn f.channel hstep
    refine ⟨_, processFrame_body hpiece hslot rfl hfits, ?_⟩
    have hlast : header.bodySize - payloads.flatten.length = payload.length ↔
        header.bodySize = (payloads ++ [payload]).flatten.length := by omega
    simp only [hlast]
    simpa [Nat.sub_sub] using hmoved
  · cases hstep

theorem SlotReached.piece_ne_none {slot : Slot} (h : SlotReached conn f slot) : f.piece ≠ none := by
  unfold Frame.piece
  cases h with
  | delivered htype hmethod => simp [htype, hmethod]
  | returned htype hmethod => simp [htype, hmethod]
  | header htype hheader hslot => simp [htype, hheader]
  | body htype hslot hremaining hle => simp [htype]

theorem processFrame_inert (hpiece : f.piece = none) (h : processFrame f conn = .ok () conn') :
    conn'.pendingContent = conn.pendingContent ∧ conn'.deliveries = conn.deliveries ∧
      conn'.returns = conn.returns := by
  have htaken := readFrame_taken conn f
  rw [readFrame_of_ok h] at htaken
  cases htaken with
  | heartbeat htype => exact ⟨rfl, rfl, rfl⟩
  | confirmed htype hmethod hconfirm henabled =>
    obtain ⟨mandatoryTags, hclear⟩ := conn.clearMandatoryTags_eq f.channel _ _
    rw [hclear]
    exact ⟨rfl, rfl, rfl⟩
  | replied htype hmethod hhandled hconfirm =>
    obtain ⟨replies, heq⟩ := conn.settleWaiter_eq f.channel _
    rw [heq]
    exact ⟨rfl, rfl, rfl⟩
  | blocked publishBlocked htype hmethod hhandled => exact ⟨rfl, rfl, rfl⟩
  | closing htype hmethod hframe => exact ⟨rfl, rfl, rfl⟩
  | continued hslot hremaining => exact absurd hpiece hslot.piece_ne_none
  | finished hslot hremaining => exact absurd hpiece hslot.piece_ne_none
  | ended hhandled =>
    unfold Conn.endReader Conn.notifyLoss
    split <;> exact ⟨rfl, rfl, rfl⟩

end Moves

end Nuropb.Transport
