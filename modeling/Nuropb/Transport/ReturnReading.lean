import Nuropb.Transport.ReturnInvariant

/-! # What a frame does to mandatory tags and returns

An ack or nack takes the tags that it covers from the queue, the end of a return takes the
oldest. The invariant stays as long as the oldest is the one that was returned.
-/
namespace Nuropb.Transport

open Library Protocol

section Reading

variable {m : Machine} {ledger : Ledger} {f : Frame} {channel : Int} {id : CallId} {args : PublishArgs}

theorem mandatoryOf_clear {conn : Conn} {deliveryTag : Nat} {multiple : Bool}
    (hsorted : (conn.mandatoryOf channel).Pairwise (· < ·)) (other : Int) :
    (conn.clearMandatoryTags channel deliveryTag multiple).mandatoryOf other = if other = channel then
      (conn.mandatoryOf channel).filter fun tag => !covers deliveryTag multiple tag
    else conn.mandatoryOf other := by
  unfold Conn.mandatoryOf at hsorted ⊢
  unfold Conn.clearMandatoryTags
  cases htags : conn.mandatoryTags.get? channel with
  | none =>
    by_cases heq : other = channel
    · rw [if_pos heq, heq, htags]
      rfl
    · rw [if_neg heq]
  | some tags =>
    rw [htags] at hsorted
    simp only [Option.getD_some, Dict.get?_set] at hsorted ⊢
    by_cases heq : channel = other
    · rw [if_pos heq, if_pos heq.symm, Option.getD_some]
      cases multiple with
      | true =>
        rw [if_pos rfl]
        refine List.filter_congr fun tag _ => ?_
        simp only [covers, if_true, ← decide_not, Nat.not_le]
      | false =>
        have hnodup : tags.Nodup := hsorted.imp Nat.ne_of_lt
        rw [if_neg Bool.false_ne_true, hnodup.erase_eq_filter]
        refine List.filter_congr fun tag _ => ?_
        simp only [covers, Bool.false_eq_true, if_false, bne, beq_eq_decide]
    · rw [if_neg heq, if_neg (Ne.symm heq)]

/-! ## Confirms -/

/-- The frame acks or nacks the tags that are covered. -/
structure Frame.Confirming (f : Frame) (method : Method) (deliveryTag : Nat) (multiple : Bool)
    (outcome : Except Exc Unit) : Prop where
  frameType : f.frameType = .method
  decodes : decodeMethod f.payload = .ok method
  settles : confirmOf method = some (deliveryTag, multiple, outcome)

/-- The frame has been received, and the confirms are settled. -/
def Machine.settling (m : Machine) (f : Frame) (deliveryTag : Nat) (multiple : Bool) (outcome : Except Exc Unit) : Machine :=
  { m.setConn ((m.conn.clearMandatoryTags f.channel deliveryTag multiple).settleConfirms
      f.channel deliveryTag multiple outcome) with received := m.received ++ [f] }

section Confirming

variable {method : Method} {deliveryTag number : Nat} {multiple : Bool} {outcome : Except Exc Unit} {other : Int}

theorem le_of_covers (h : covers deliveryTag multiple number = true) : number ≤ deliveryTag := by
  unfold covers at h
  cases multiple <;> simp at h <;> omega

theorem confirmed_append_eq_false {received : List Frame} : confirmed (received ++ [f]) other number = false ↔
    confirmed received other number = false ∧ f.confirms other number = false := by
  rw [confirmed_append, Bool.or_eq_false_iff]

theorem Frame.Confirming.confirms_iff (h : f.Confirming method deliveryTag multiple outcome) :
    f.confirms other number = true ↔ other = f.channel ∧ covers deliveryTag multiple number = true := by
  rw [Frame.confirms_eq_true_iff]
  constructor
  · rintro ⟨-, rfl, method', tag', multiple', outcome', hmethod', hconfirm', hcovers⟩
    rw [h.decodes] at hmethod'
    cases hmethod'
    rw [h.settles] at hconfirm'
    cases hconfirm'
    exact ⟨rfl, hcovers⟩
  · rintro ⟨rfl, hcovers⟩
    exact ⟨h.frameType, rfl, method, deliveryTag, multiple, outcome, h.decodes, h.settles, hcovers⟩

/-- What is covered leaves the queue. -/
theorem ReturnInv.mem_settling (hinv : ReturnInv m ledger) (h : f.Confirming method deliveryTag multiple outcome) :
    number ∈ (m.settling f deliveryTag multiple outcome).conn.mandatoryOf other ↔
      number ∈ m.conn.mandatoryOf other ∧ f.confirms other number = false := by
  change number ∈ (m.conn.clearMandatoryTags f.channel deliveryTag multiple).mandatoryOf other ↔ _
  rw [mandatoryOf_clear (hinv.sorted f.channel), Bool.eq_false_iff, Ne, h.confirms_iff]
  split
  · rename_i heq
    rw [List.mem_filter, heq]
    simp
  · rename_i hne
    simp [hne]

theorem ReturnInv.sorted_settling (hinv : ReturnInv m ledger) :
    ((m.settling f deliveryTag multiple outcome).conn.mandatoryOf other).Pairwise (· < ·) := by
  change ((m.conn.clearMandatoryTags f.channel deliveryTag multiple).mandatoryOf other).Pairwise (· < ·)
  rw [mandatoryOf_clear (hinv.sorted f.channel)]
  split
  · exact (hinv.sorted f.channel).filter _
  · exact hinv.sorted other

theorem ReturnInv.queued_settling (hinv : ReturnInv m ledger) (h : f.Confirming method deliveryTag multiple outcome) :
    number ∈ (m.settling f deliveryTag multiple outcome).conn.mandatoryOf other ↔
      Owed (m.settling f deliveryTag multiple outcome) ledger other number := by
  rw [hinv.mem_settling h, hinv.queued]
  constructor
  · rintro ⟨⟨id, args, hawaited, hchannel, hmandatory, hreturned, hunconfirmed⟩, hnew⟩
    exact ⟨id, args, hawaited, hchannel, hmandatory, hreturned, confirmed_append_eq_false.mpr ⟨hunconfirmed, hnew⟩⟩
  · rintro ⟨id, args, hawaited, hchannel, hmandatory, hreturned, hunconfirmed⟩
    obtain ⟨hold, hnew⟩ := confirmed_append_eq_false.mp hunconfirmed
    exact ⟨⟨id, args, hawaited, hchannel, hmandatory, hreturned, hold⟩, hnew⟩

/-- A confirm that is still pending was not covered. -/
theorem ReturnInv.unresolved_settling (hinv : ReturnInv m ledger) (h : f.Confirming method deliveryTag multiple outcome)
    (hawaited : m.awaited id = some (args, number))
    (hnone : (m.settling f deliveryTag multiple outcome).conn.confirms id = none) :
    ((m.settling f deliveryTag multiple outcome).conn.trackerOf args.channel).outstanding.get? number = some id ∧
      confirmed (m.received ++ [f]) args.channel number = false := by
  obtain ⟨mandatoryTags, hclear⟩ := m.conn.clearMandatoryTags_eq f.channel deliveryTag multiple
  rw [Machine.settling, hclear] at hnone ⊢
  obtain ⟨hpending, hfuts⟩ := settle_eq_none_iff.mp hnone
  obtain ⟨hget, hunconfirmed⟩ := hinv.unresolved id args number hawaited hpending
  have huncovered : ¬(args.channel = f.channel ∧ covers deliveryTag multiple number = true) := by
    rintro ⟨hchannel, hcovers⟩
    exact hfuts (ConfirmTracker.mem_resolve_iff.mpr ⟨number, hcovers, hchannel ▸ hget⟩)
  refine ⟨?_, confirmed_append_eq_false.mpr ⟨hunconfirmed, Bool.eq_false_iff.mpr fun hnew => huncovered (h.confirms_iff.mp hnew)⟩⟩
  change ((Conn.setTracker _ f.channel _).trackerOf args.channel).outstanding.get? number = some id
  by_cases hchannel : args.channel = f.channel
  · rw [hchannel, Conn.trackerOf_setTracker]
    change (Dict.keep (fun tag => !covers deliveryTag multiple tag)
      (m.conn.trackerOf f.channel).outstanding).get? number = some id
    rw [Dict.get?_keep, if_pos, ← hchannel]
    · exact hget
    · rw [Bool.not_eq_true', Bool.eq_false_iff]
      exact fun hcovers => huncovered ⟨hchannel, hcovers⟩
  · rw [Conn.trackerOf_setTracker_of_ne _ (Ne.symm hchannel)]
    exact hget

theorem ReturnInv.failed_settling (hinv : ReturnInv m ledger) (h : f.Confirming method deliveryTag multiple outcome)
    {e : Exc} (hfailed : (m.settling f deliveryTag multiple outcome).conn.confirms id = some (.error e)) :
    e = .cancelledError ∨ ∃ deliveryTag multiple, e = .publishNack deliveryTag multiple := by
  obtain ⟨mandatoryTags, hclear⟩ := m.conn.clearMandatoryTags_eq f.channel deliveryTag multiple
  rw [Machine.settling, hclear] at hfailed
  rcases settle_eq_some_iff.mp hfailed with hold | ⟨-, -, rfl⟩
  · exact hinv.failed id e hold
  · have hsettles := h.settles
    cases method <;> simp [confirmOf] at hsettles
    exact .inr ⟨_, _, hsettles.2.2.symm⟩

/-- An ack or nack settles the confirms that it covers and takes their tags from the queue. -/
theorem ReturnInv.confirm (hinv : ReturnInv m ledger) (h : f.Confirming method deliveryTag multiple outcome)
    (hnumbered : deliveryTag ≤ (numbered f.channel m.conn.written).length)
    (hnack : f.isNack = true → ∀ number ∈ ledger.returned f.channel, f.confirms f.channel number = false)
    (hidle : ledger.sending f.channel = none) : ReturnInv (m.settling f deliveryTag multiple outcome) ledger := by
  obtain ⟨mandatoryTags, hclear⟩ := m.conn.clearMandatoryTags_eq f.channel deliveryTag multiple
  have hcount := (hinv.count.receive f).setConn (settleConfirms_quiet (hinv.count.receive f)
    (List.mem_append_right _ List.mem_cons_self) h.frameType h.decodes h.settles)
  refine
    { count := hcount.congr rfl rfl rfl, sorted := fun other => hinv.sorted_settling,
      queued := fun other number => hinv.queued_settling h, kept := ?_, held := ?_, known := ?_, bounded := ?_,
      unresolved := fun id args number hawaited hnone => hinv.unresolved_settling h hawaited hnone,
      failed := fun id e hfailed => hinv.failed_settling h hfailed, arriving := ?_, idle := ?_,
      ended := fun id args tag outcome hcall hmandatory =>
        ((hinv.ended id args tag outcome hcall hmandatory).receive f).congr rfl }
  · rw [Machine.settling, hclear]
    exact hinv.kept
  · rw [Machine.settling, hclear]
    exact hinv.held
  · intro other number hmem
    obtain ⟨hle, hnone⟩ := hinv.known other number hmem
    refine ⟨by rw [Machine.settling, hclear]; exact hle, fun hnacks => ?_⟩
    rcases nacks_append hnacks with hold | ⟨hisNack, rfl, htrue⟩
    · exact hnone hold
    · rw [hnack hisNack number hmem] at htrue
      cases htrue
  · intro other number hconfirmed
    rw [Machine.settling, hclear] at hconfirmed ⊢
    rw [confirmed_append, Bool.or_eq_true] at hconfirmed
    rcases hconfirmed with hold | hnew
    · exact hinv.bounded other number hold
    · obtain ⟨rfl, hcovers⟩ := h.confirms_iff.mp hnew
      exact (le_of_covers hcovers).trans hnumbered
  · intro other number rest hsending
    have hne : other ≠ f.channel := by
      rintro rfl
      rw [hidle] at hsending
      cases hsending
    obtain ⟨hmem, hunconfirmed, hrest⟩ := hinv.arriving other number rest hsending
    refine ⟨hmem, confirmed_append_eq_false.mpr ⟨hunconfirmed, ?_⟩, ?_⟩
    · exact Bool.eq_false_iff.mpr fun hnew => hne (h.confirms_iff.mp hnew).1
    · rw [Machine.settling, hclear]
      exact hrest
  · rw [Machine.settling, hclear]
    exact hinv.idle

end Confirming

/-! ## Returns -/

theorem publishNumber_inj {written : List Sent} {other : CallId} {number : Nat}
    (h : publishNumber channel written id = some number)
    (hother : publishNumber channel written other = some number) : other = id := by
  obtain ⟨i, hi, rfl⟩ := Option.map_eq_some_iff.mp h
  obtain ⟨j, hj, hij⟩ := Option.map_eq_some_iff.mp hother
  obtain rfl : j = i := Nat.add_right_cancel hij
  obtain ⟨hlt, hid, -⟩ := List.findIdx?_eq_some_iff_getElem.mp hi
  obtain ⟨hlt', hid', -⟩ := List.findIdx?_eq_some_iff_getElem.mp hj
  exact Option.some.inj ((of_decide_eq_true hid').symm.trans (of_decide_eq_true hid))

/-- The slot is the return of the oldest mandatory publish, which has neither been returned nor confirmed. -/
structure Returning (m : Machine) (ledger : Ledger) (id : CallId) (args : PublishArgs) (number : Nat) (rest : List Nat)
    (slot : Slot) : Prop where
  awaited : m.awaited id = some (args, number)
  oldest : m.conn.mandatoryOf args.channel = number :: rest
  unreturned : number ∉ ledger.returned args.channel
  unconfirmed : confirmed m.received args.channel number = false
  method : ∃ returned, slot.method = .returned returned ∧ returned.routingKey = args.routingKey
  body : slot.body = args.body

section Returning

variable {number tag : Nat} {rest : List Nat} {slot : Slot}

/-- The return is kept under the oldest mandatory tag. -/
theorem Returning.finished (h : Returning m ledger id args number rest slot) : ∃ message : ReturnedMessage,
    message.routingKey = args.routingKey ∧ message.body = args.body ∧ m.conn.finishDelivery args.channel slot =
      { m.conn with
        pendingContent := m.conn.pendingContent.erase args.channel
        mandatoryTags := m.conn.mandatoryTags.set args.channel rest
        returnByTag := m.conn.returnByTag.set args.channel
          (((m.conn.returnByTag.get? args.channel).getD .empty).set number message)
        returns := m.conn.returns ++ [message] } := by
  have htags : m.conn.mandatoryTags.get? args.channel = some (number :: rest) := by
    have holdest := h.oldest
    unfold Conn.mandatoryOf at holdest
    cases htags : m.conn.mandatoryTags.get? args.channel with
    | none =>
      rw [htags] at holdest
      cases holdest
    | some tags =>
      rw [htags] at holdest
      exact congrArg some holdest
  obtain ⟨returned, hmethod, hkey⟩ := h.method
  refine ⟨{ replyCode := returned.replyCode.toNat, replyText := returned.replyText, exchange := returned.exchange,
            routingKey := returned.routingKey, body := slot.body, properties := slot.properties }, hkey, h.body, ?_⟩
  simp only [Conn.finishDelivery, hmethod, Conn.finishReturn, htags]

theorem Returning.mandatoryOf (h : Returning m ledger id args number rest slot) :
    (m.conn.finishDelivery args.channel slot).mandatoryOf channel =
      if channel = args.channel then rest else m.conn.mandatoryOf channel := by
  obtain ⟨message, -, -, hfinish⟩ := h.finished
  rw [hfinish, Conn.mandatoryOf, Dict.get?_set]
  by_cases heq : args.channel = channel
  · rw [if_pos heq, if_pos heq.symm]
    rfl
  · rw [if_neg heq, if_neg (Ne.symm heq)]
    rfl

theorem Returning.returnOf (h : Returning m ledger id args number rest slot) : ∃ message : ReturnedMessage,
    message.routingKey = args.routingKey ∧ message.body = args.body ∧ ∀ channel tag,
      (m.conn.finishDelivery args.channel slot).returnOf channel tag =
        if channel = args.channel ∧ tag = number then some message else m.conn.returnOf channel tag := by
  obtain ⟨message, hkey, hbody, hfinish⟩ := h.finished
  refine ⟨message, hkey, hbody, fun channel tag => ?_⟩
  rw [hfinish, Conn.returnOf, Dict.get?_set]
  by_cases heq : args.channel = channel
  · rw [if_pos heq, Option.bind_some, Dict.get?_set]
    by_cases htag : number = tag
    · rw [if_pos htag, if_pos ⟨heq.symm, htag.symm⟩]
    · rw [if_neg htag, if_neg (fun hand => htag hand.2.symm), Conn.returnOf, heq]
      cases m.conn.returnByTag.get? channel <;> rfl
  · rw [if_neg heq, if_neg (fun hand => heq hand.1.symm)]
    rfl

theorem mem_addReturned (ledger : Ledger) (returnedOn : Int) : tag ∈
    ((ledger.setSending returnedOn none).addReturned returnedOn number).returned channel ↔
      tag ∈ ledger.returned channel ∨ channel = returnedOn ∧ tag = number := by
  simp only [Ledger.addReturned, Ledger.setSending]
  by_cases h : channel = returnedOn
  · simp [h]
  · simp [h]

theorem ReturnInv.sorted_returned (hinv : ReturnInv m ledger) (h : Returning m ledger id args number rest slot) :
    ((m.conn.finishDelivery args.channel slot).mandatoryOf channel).Pairwise (· < ·) := by
  rw [h.mandatoryOf]
  split
  · have hsorted := hinv.sorted args.channel
    rw [h.oldest] at hsorted
    exact hsorted.of_cons
  · exact hinv.sorted channel

/-- The tag of the return is the one that leaves the queue. -/
theorem ReturnInv.mem_returned (hinv : ReturnInv m ledger) (h : Returning m ledger id args number rest slot) :
    tag ∈ (m.conn.finishDelivery args.channel slot).mandatoryOf channel ↔
      tag ∈ m.conn.mandatoryOf channel ∧ ¬(channel = args.channel ∧ tag = number) := by
  rw [h.mandatoryOf]
  split
  · rename_i heq
    have hsorted := hinv.sorted args.channel
    rw [h.oldest] at hsorted
    rw [heq, h.oldest, List.mem_cons]
    constructor
    · intro hmem
      have hlt := (List.pairwise_cons.mp hsorted).1 tag hmem
      exact ⟨.inr hmem, fun hand => by omega⟩
    · rintro ⟨hmem, hnot⟩
      exact hmem.resolve_left fun htag => hnot ⟨rfl, htag⟩
  · rename_i hne
    exact ⟨fun hmem => ⟨hmem, fun hand => hne hand.1⟩, fun hand => hand.1⟩

theorem ReturnInv.queued_returned (hinv : ReturnInv m ledger) (h : Returning m ledger id args number rest slot) :
    tag ∈ (m.conn.finishDelivery args.channel slot).mandatoryOf channel ↔
      Owed (m.setConn (m.conn.finishDelivery args.channel slot))
        ((ledger.setSending args.channel none).addReturned args.channel number) channel tag := by
  rw [hinv.mem_returned h, hinv.queued]
  constructor
  · rintro ⟨⟨other, args', hawaited, hchannel, hmandatory, hmem, hunconfirmed⟩, hnot⟩
    refine ⟨other, args', hawaited, hchannel, hmandatory, fun hnew => ?_, hunconfirmed⟩
    rcases (mem_addReturned ledger args.channel).mp hnew with hold | hand
    · exact hmem hold
    · exact hnot hand
  · rintro ⟨other, args', hawaited, hchannel, hmandatory, hmem, hunconfirmed⟩
    have hboth := mt (mem_addReturned ledger args.channel).mpr hmem
    rw [not_or] at hboth
    exact ⟨⟨other, args', hawaited, hchannel, hmandatory, hboth.1, hunconfirmed⟩, hboth.2⟩

theorem ReturnInv.kept_returned (hinv : ReturnInv m ledger) (h : Returning m ledger id args number rest slot)
    {kept : ReturnedMessage} (hget : (m.conn.finishDelivery args.channel slot).returnOf channel tag = some kept) :
    tag ∈ ((ledger.setSending args.channel none).addReturned args.channel number).returned channel ∧
      ∀ other args', m.awaited other = some (args', tag) → args'.channel = channel →
        kept.routingKey = args'.routingKey ∧ kept.body = args'.body := by
  obtain ⟨message, hkey, hbody, hreturnOf⟩ := h.returnOf
  rw [hreturnOf] at hget
  rw [mem_addReturned]
  split at hget
  · rename_i hand
    cases hget
    refine ⟨.inr hand, fun other args' hawaited hchannel => ?_⟩
    have hsame : other = id := by
      refine publishNumber_inj (hinv.count.tagged id args number h.awaited) ?_
      rw [← hand.1, ← hand.2, ← hchannel]
      exact hinv.count.tagged other args' tag hawaited
    subst hsame
    rw [h.awaited] at hawaited
    cases hawaited
    exact ⟨hkey, hbody⟩
  · obtain ⟨hold, hargs⟩ := hinv.kept channel tag kept hget
    exact ⟨.inl hold, hargs⟩

theorem ReturnInv.arriving_returned (hinv : ReturnInv m ledger) (h : Returning m ledger id args number rest slot)
    {number' : Nat} {frames : List Frame}
    (hsending : ((ledger.setSending args.channel none).addReturned args.channel number).sending channel = some (number', frames)) :
    number' ∉ ((ledger.setSending args.channel none).addReturned args.channel number).returned channel ∧
      confirmed m.received channel number' = false ∧ ∃ id' args' slot', m.awaited id' = some (args', number') ∧
        args'.channel = channel ∧ args'.mandatory = true ∧
          (m.conn.finishDelivery args.channel slot).pendingContent.get? channel = some slot' ∧ Arriving args' slot' frames := by
  have hne : channel ≠ args.channel := by
    rintro rfl
    simp [Ledger.addReturned, Ledger.setSending] at hsending
  have hold : ledger.sending channel = some (number', frames) := by
    simpa [Ledger.addReturned, Ledger.setSending, hne] using hsending
  obtain ⟨message, -, -, hfinish⟩ := h.finished
  obtain ⟨hmem, hunconfirmed, other, args', slot', hawaited, hchannel, hmandatory, hslot, harriving⟩ :=
    hinv.arriving channel number' frames hold
  refine ⟨fun hnew => ?_, hunconfirmed, other, args', slot', hawaited, hchannel, hmandatory, ?_, harriving⟩
  · exact hmem (((mem_addReturned ledger args.channel).mp hnew).resolve_right fun hand => hne hand.1)
  · rw [hfinish]
    exact (Dict.get?_erase_of_ne _ (Ne.symm hne)).trans hslot

theorem ReturnInv.idle_returned (hinv : ReturnInv m ledger) (h : Returning m ledger id args number rest slot)
    {slot' : Slot} (hsending : ((ledger.setSending args.channel none).addReturned args.channel number).sending channel = none)
    (hslot : (m.conn.finishDelivery args.channel slot).pendingContent.get? channel = some slot') :
    ∃ args, slot'.method = .deliver args := by
  obtain ⟨message, -, -, hfinish⟩ := h.finished
  rw [hfinish] at hslot
  obtain ⟨hne, hold⟩ := Dict.get?_of_get?_erase hslot
  refine hinv.idle channel slot' ?_ hold
  simpa [Ledger.addReturned, Ledger.setSending, Ne.symm hne] using hsending

/-- What is returned now was not confirmed, so no task has ended on its confirm. -/
theorem Attributed.returned {args' : PublishArgs} {outcome : Except Exc (Option Text)}
    (h : Returning m ledger id args number rest slot) (hold : Attributed m ledger args' tag outcome) :
    Attributed (m.setConn (m.conn.finishDelivery args.channel slot))
      ((ledger.setSending args.channel none).addReturned args.channel number) args' tag outcome := by
  have hnot (hconfirmed : confirmed m.received args'.channel tag = true) :
      ¬(args'.channel = args.channel ∧ tag = number) := by
    rintro ⟨hchannel, rfl⟩
    rw [hchannel, h.unconfirmed] at hconfirmed
    cases hconfirmed
  have hstays (hconfirmed : confirmed m.received args'.channel tag = true) (hmem : tag ∉ ledger.returned args'.channel) :
      tag ∉ ((ledger.setSending args.channel none).addReturned args.channel number).returned args'.channel :=
    fun hnew => hmem (((mem_addReturned ledger args.channel).mp hnew).resolve_right (hnot hconfirmed))
  unfold Attributed at hold ⊢
  split at hold
  · exact ⟨hold.1, hstays (confirmed_of_acks hold.1) hold.2⟩
  · exact ⟨(mem_addReturned ledger args.channel).mpr (.inl hold.1), hold.2⟩
  · exact ⟨hold.1, hstays (confirmed_of_nacks hold.1) hold.2⟩
  · exact hold

/-- The end of a return is attributed to the oldest mandatory tag, which has to be its own. -/
theorem ReturnInv.finishReturn (hinv : ReturnInv m ledger) (h : Returning m ledger id args number rest slot) :
    ReturnInv (m.setConn (m.conn.finishDelivery args.channel slot))
      ((ledger.setSending args.channel none).addReturned args.channel number) := by
  obtain ⟨message, -, -, hfinish⟩ := h.finished
  have hquiet : QuietChange m (m.conn.finishDelivery args.channel slot) := by
    rw [hfinish]
    exact .of_unwritten rfl rfl (fun _ => rfl) rfl
  have hwritten : (m.conn.finishDelivery args.channel slot).written = m.conn.written := by rw [hfinish]
  refine
    { count := hinv.count.setConn hquiet, sorted := fun channel => hinv.sorted_returned h,
      queued := fun channel tag => hinv.queued_returned h,
      kept := fun channel tag kept hget => hinv.kept_returned h hget, held := ?_, known := ?_, bounded := ?_,
      unresolved := by rw [hfinish]; exact hinv.unresolved, failed := by rw [hfinish]; exact hinv.failed,
      arriving := fun channel number' frames hsending => hinv.arriving_returned h hsending,
      idle := fun channel slot' hsending hslot => hinv.idle_returned h hsending hslot,
      ended := fun other args' tag outcome hcall hmandatory =>
        (hinv.ended other args' tag outcome hcall hmandatory).returned h }
  · intro other args' tag hawaited hmem
    obtain ⟨message, -, -, hreturnOf⟩ := h.returnOf
    rw [setConn_conn, hreturnOf]
    by_cases hand : args'.channel = args.channel ∧ tag = number
    · rw [if_pos hand]
      exact .inl (by simp)
    · rw [if_neg hand]
      exact hinv.held other args' tag hawaited (((mem_addReturned ledger args.channel).mp hmem).resolve_right hand)
  · intro channel tag hmem
    rw [setConn_conn, hwritten]
    rcases (mem_addReturned ledger args.channel).mp hmem with hold | ⟨rfl, rfl⟩
    · exact hinv.known channel tag hold
    · refine ⟨hinv.count.tag_le h.awaited, fun hnacks => ?_⟩
      have hconfirmed := confirmed_of_nacks hnacks
      rw [setConn_received, h.unconfirmed] at hconfirmed
      cases hconfirmed
  · intro channel tag hconfirmed
    rw [setConn_conn, hwritten]
    exact hinv.bounded channel tag hconfirmed

end Returning

/-- The tag of the return that ends is the oldest in the queue, when all before it are settled. -/
theorem ReturnInv.oldest (hinv : ReturnInv m ledger) {number : Nat} (howed : Owed m ledger channel number)
    (hsettled : (numbered channel m.conn.written).all (settledBefore ⟨m, ledger⟩ channel number) = true) :
    ∃ rest, m.conn.mandatoryOf channel = number :: rest := by
  have hmem := (hinv.queued channel number).mpr howed
  have hsorted := hinv.sorted channel
  cases hqueue : m.conn.mandatoryOf channel with
  | nil =>
    rw [hqueue] at hmem
    cases hmem
  | cons first rest =>
    rw [hqueue] at hmem hsorted
    have hfirst : first ∈ m.conn.mandatoryOf channel := hqueue ▸ List.mem_cons_self
    obtain ⟨other, args', hawaited, rfl, hmandatory, hreturned, hunconfirmed⟩ :=
      (hinv.queued channel first).mp hfirst
    have hnumber := hinv.count.tagged other args' first hawaited
    obtain ⟨i, hi, hfirst⟩ := Option.map_eq_some_iff.mp hnumber
    obtain ⟨hlt, hcaller, -⟩ := List.findIdx?_eq_some_iff_getElem.mp hi
    have hbefore := List.all_eq_true.mp hsettled _ (List.getElem_mem hlt)
    have hearlier : m.mandatoryNumber args'.channel other = some first := by
      simp [Machine.mandatoryNumber, hawaited, hmandatory, hnumber]
    rw [settledBefore, of_decide_eq_true hcaller, Option.bind_some, hearlier] at hbefore
    simp only [hreturned, hunconfirmed, decide_eq_true_eq, Bool.false_eq_true, or_self, or_false] at hbefore
    rcases List.mem_cons.mp hmem with rfl | hlater
    · exact ⟨rest, rfl⟩
    · have hlt := (List.pairwise_cons.mp hsorted).1 number hlater
      omega

theorem ReturnInv.slot (hinv : ReturnInv m ledger) {pendingContent : Dict Int Slot} {deliveries : List IncomingMessage}
    (hothers : ∀ other, other ≠ channel → pendingContent.get? other = m.conn.pendingContent.get? other)
    (hsending : ledger.sending channel = none)
    (hdeliver : ∀ slot, pendingContent.get? channel = some slot → ∃ args, slot.method = .deliver args) :
    ReturnInv (m.setConn { m.conn with pendingContent, deliveries }) ledger := by
  refine hinv.change (.of_quiet hinv.count (.of_unwritten rfl rfl (fun _ => rfl) rfl) rfl rfl
    (fun _ => rfl) rfl) rfl ?_ ?_
  · intro other number rest hother
    have hne : other ≠ channel := by
      rintro rfl
      rw [hsending] at hother
      cases hother
    rw [hothers other hne]
    exact hinv.arriving other number rest hother
  · intro other slot hother hslot
    by_cases heq : other = channel
    · exact hdeliver slot (heq ▸ hslot)
    · rw [hothers other heq] at hslot
      exact hinv.idle other slot hother hslot

theorem SlotReached.deliver {conn : Conn} {slot : Slot} (h : SlotReached conn f slot) (hreturn : f.isReturn = false)
    (hidle : ∀ slot, conn.pendingContent.get? f.channel = some slot → ∃ args, slot.method = .deliver args) :
    ∃ args, slot.method = .deliver args := by
  cases h with
  | delivered htype hmethod => exact ⟨_, rfl⟩
  | returned htype hmethod => simp [Frame.isReturn, htype, hmethod] at hreturn
  | header htype hheader hslot =>
    obtain ⟨args, hdeliver⟩ := hidle _ hslot
    exact ⟨args, hdeliver⟩
  | body htype hslot hremaining hle =>
    obtain ⟨args, hdeliver⟩ := hidle _ hslot
    exact ⟨args, hdeliver⟩

theorem Frame.confirms_of_type (htype : f.frameType ≠ .method) (other : Int) (number : Nat) :
    f.confirms other number = false := by
  unfold Frame.confirms
  exact if_neg fun h => htype h.1

theorem Frame.confirms_of_method {method : Method} (hmethod : decodeMethod f.payload = .ok method)
    (hconfirm : confirmOf method = none) (other : Int) (number : Nat) : f.confirms other number = false := by
  unfold Frame.confirms
  split
  · rw [hmethod]
    simp [hconfirm]
  · rfl

theorem SlotReached.confirms {conn : Conn} {slot : Slot} (h : SlotReached conn f slot) (other : Int)
    (number : Nat) : f.confirms other number = false := by
  cases h with
  | delivered htype hmethod => exact Frame.confirms_of_method hmethod rfl other number
  | returned htype hmethod => exact Frame.confirms_of_method hmethod rfl other number
  | header htype hheader hslot => exact Frame.confirms_of_type (by simp [htype]) other number
  | body htype hslot hremaining hle => exact Frame.confirms_of_type (by simp [htype]) other number

theorem ReturnInv.otherFrame (hinv : ReturnInv m ledger) (hrunning : (m.conn.readFrame f).reader = .running)
    (hnumbered : confirmsNumbered m (.frame f) = true) (hreturn : f.isReturn = false)
    (hnack : f.isNack = true → ∀ number ∈ ledger.returned f.channel, f.confirms f.channel number = false)
    (hidle : ledger.sending f.channel = none) : ReturnInv (m.readFrame f) ledger := by
  have hquiet {conn' : Conn} (hf : ∀ channel number, f.confirms channel number = false)
      (hrest : ReturnInv { m with received := m.received ++ [f] } ledger →
        ReturnInv (Machine.setConn { m with received := m.received ++ [f] } conn') ledger) :
      ReturnInv { m.setConn conn' with received := m.received ++ [f] } ledger :=
    (hrest (hinv.receive hf)).congr rfl rfl rfl
  have htaken := readFrame_taken m.conn f
  rw [Machine.readFrame]
  generalize m.conn.readFrame f = conn' at hrunning htaken ⊢
  cases htaken with
  | heartbeat htype =>
    exact hquiet (Frame.confirms_of_type (by simp [htype])) fun h => h.congr rfl rfl rfl
  | confirmed htype hmethod hconfirm henabled =>
    refine hinv.confirm ⟨htype, hmethod, hconfirm⟩ ?_ hnack hidle
    simp only [confirmsNumbered, htype, if_pos, hmethod, hconfirm, decide_eq_true_eq] at hnumbered
    exact hnumbered.2
  | replied htype hmethod hhandled hconfirm =>
    rename_i method
    refine hquiet (Frame.confirms_of_method hmethod ?_) fun h => ?_
    · cases hof : confirmOf method with
      | none => rfl
      | some confirm =>
        -- Before `confirm.select` there is no number that the broker could confirm.
        have hnone := hinv.count.disabled f.channel (hconfirm (by simp [hof]))
        simp only [confirmsNumbered, htype, if_pos, hmethod, hof, hnone, List.length_nil,
          decide_eq_true_eq] at hnumbered
        omega
    · obtain ⟨replies, heq⟩ := m.conn.settleWaiter_eq f.channel method
      rw [heq]
      exact h.setConn (.of_quiet h.count (.of_unwritten rfl rfl (fun _ => rfl) rfl) rfl rfl
        (fun _ => rfl) rfl) rfl
  | blocked publishBlocked htype hmethod hhandled =>
    rename_i method
    refine hquiet (Frame.confirms_of_method hmethod ?_) fun h => ?_
    · cases method <;> first | rfl | cases hhandled
    · exact h.setConn (.of_quiet h.count (.of_unwritten rfl rfl (fun _ => rfl) rfl) rfl rfl
        (fun _ => rfl) rfl) rfl
  | closing htype hmethod hframe => cases hrunning
  | continued hslot hremaining =>
    rename_i slot
    refine hquiet hslot.confirms fun h => ?_
    refine h.slot (fun other hne => Dict.get?_set_of_ne _ (Ne.symm hne) _) hidle fun slot' hslot' => ?_
    rw [Dict.get?_set_self] at hslot'
    cases hslot'
    exact hslot.deliver hreturn fun slot => hinv.idle f.channel slot hidle
  | finished hslot hremaining =>
    rename_i slot
    refine hquiet hslot.confirms fun h => ?_
    obtain ⟨args, hmethod⟩ := hslot.deliver hreturn fun slot => hinv.idle f.channel slot hidle
    rw [Conn.finishDelivery, hmethod]
    refine h.slot (fun other hne => Dict.get?_erase_of_ne _ (Ne.symm hne)) hidle fun slot' hslot' => ?_
    exact absurd rfl (Dict.get?_of_get?_erase hslot').1
  | ended hhandled => cases hrunning

theorem carryBody_cons {body : Bytes} {next : Frame} {rest : List Frame} :
    carryBody channel body (next :: rest) = true ↔ next.frameType = .body ∧ next.channel = channel ∧
      next.payload ≠ [] ∧ ∃ left, body = next.payload ++ left ∧ carryBody channel left rest = true := by
  simp only [carryBody, List.all_cons, List.flatMap_cons, Bool.and_eq_true, decide_eq_true_eq]
  constructor
  · rintro ⟨⟨⟨htype, hchannel, hpayload⟩, hall⟩, hbody⟩
    exact ⟨htype, hchannel, hpayload, _, hbody.symm, hall, rfl⟩
  · rintro ⟨htype, hchannel, hpayload, left, rfl, hall, rfl⟩
    exact ⟨⟨⟨htype, hchannel, hpayload⟩, hall⟩, rfl⟩

/-- No body frame comes with nothing to carry, and all come before the body is complete. -/
theorem carryBody_nil_iff {body : Bytes} {rest : List Frame} (h : carryBody channel body rest = true) :
    rest = [] ↔ body = [] := by
  cases rest with
  | nil =>
    have hbody : [] = body := by simpa [carryBody] using h
    simp [← hbody]
  | cons next rest =>
    obtain ⟨-, -, hpayload, left, rfl, -⟩ := carryBody_cons.mp h
    simp [hpayload]

theorem FrameTaken.slot {conn conn' : Conn} (htaken : FrameTaken conn f conn') (hrunning : conn'.reader = .running)
    (hmethod : f.frameType ≠ .method) (hheartbeat : f.frameType ≠ .heartbeat) :
    ∃ slot, SlotReached conn f slot ∧ (slot.remaining ≠ some 0 ∧ conn' = conn.setSlot f.channel slot ∨
      slot.remaining = some 0 ∧ conn' = conn.finishDelivery f.channel slot) := by
  cases htaken with
  | heartbeat htype => exact absurd htype hheartbeat
  | confirmed htype => exact absurd htype hmethod
  | replied htype => exact absurd htype hmethod
  | blocked publishBlocked htype => exact absurd htype hmethod
  | closing htype => exact absurd htype hmethod
  | continued hslot hremaining => exact ⟨_, hslot, .inl ⟨hremaining, rfl⟩⟩
  | finished hslot hremaining => exact ⟨_, hslot, .inr ⟨hremaining, rfl⟩⟩
  | ended hhandled => cases hrunning

theorem Arriving.not_method {next : Frame} {rest : List Frame} {slot : Slot}
    (h : Arriving args slot (next :: rest)) : next.frameType = .header ∨ next.frameType = .body := by
  obtain ⟨-, ⟨-, hcontent⟩ | ⟨left, -, -, -, hcarry⟩⟩ := h
  · simp only [carryContent, decide_eq_true_eq] at hcontent
    exact .inl hcontent.1
  · exact .inr (carryBody_cons.mp hcarry).1

/-- The next frame of a return moves its slot one frame further, the last one completes it. -/
theorem Arriving.next {conn : Conn} {next : Frame} {rest : List Frame} {slot slot' : Slot}
    (h : Arriving args slot (next :: rest)) (hslot : conn.pendingContent.get? next.channel = some slot)
    (hreached : SlotReached conn next slot') : slot'.method = slot.method ∧
      (slot'.remaining = some 0 → rest = [] ∧ slot'.body = args.body) ∧
      (slot'.remaining ≠ some 0 → rest ≠ [] ∧ Arriving args slot' rest) := by
  have htype := h.not_method
  obtain ⟨hmethod, ⟨hbody, hcontent⟩ | ⟨left, -, hremaining, hleft, hcarry⟩⟩ := h
  · simp only [carryContent, decide_eq_true_eq] at hcontent
    obtain ⟨hheader, -, hannounces, hcarry⟩ := hcontent
    cases hreached with
    | delivered htype' | returned htype' => simp [htype'] at htype
    | body htype' => simp [hheader] at htype'
    | header htype' hdecode hslot' =>
      rename_i old header
      obtain rfl : old = slot := Option.some.inj (hslot'.symm.trans hslot)
      obtain hsize : header.bodySize = args.body.length := by simpa [announces, hdecode] using hannounces
      refine ⟨rfl, fun hzero => ?_, fun hzero => ?_⟩
      · have hempty : args.body = [] := by simpa [hsize] using hzero
        exact ⟨(carryBody_nil_iff hcarry).mpr hempty, hbody.trans hempty.symm⟩
      · have hempty : args.body ≠ [] := by simpa [hsize] using hzero
        have hrest := mt (carryBody_nil_iff hcarry).mp hempty
        exact ⟨hrest, hmethod, .inr ⟨args.body, hrest, by rw [hsize], by simp [hbody], hcarry⟩⟩
  · obtain ⟨hnext, -, -, left', rfl, hcarry'⟩ := carryBody_cons.mp hcarry
    cases hreached with
    | delivered htype' | returned htype' => simp [htype'] at htype
    | header htype' => simp [hnext] at htype'
    | body htype' hslot' hremaining' hle =>
      rename_i old remaining
      obtain rfl : old = slot := Option.some.inj (hslot'.symm.trans hslot)
      obtain rfl : remaining = (next.payload ++ left').length :=
        Option.some.inj (hremaining'.symm.trans hremaining)
      have hlength : (next.payload ++ left').length - next.payload.length = left'.length := by simp
      refine ⟨rfl, fun hzero => ?_, fun hzero => ?_⟩
      · have hempty : left' = [] := by simpa [hlength] using hzero
        refine ⟨(carryBody_nil_iff hcarry').mpr hempty, ?_⟩
        simpa [hempty] using hleft
      · have hempty : left' ≠ [] := by simpa [hlength] using hzero
        have hrest := mt (carryBody_nil_iff hcarry').mp hempty
        refine ⟨hrest, hmethod, .inr ⟨left', hrest, by rw [hlength], ?_, hcarry'⟩⟩
        rw [List.append_assoc]
        exact hleft

theorem ReturnInv.setSlot (hinv : ReturnInv m ledger) {number : Nat} {rest : List Frame} {slot : Slot}
    (hawaited : m.awaited id = some (args, number)) (hmandatory : args.mandatory = true)
    (hreturned : number ∉ ledger.returned args.channel)
    (hunconfirmed : confirmed m.received args.channel number = false) (harriving : Arriving args slot rest) :
    ReturnInv (m.setConn (m.conn.setSlot args.channel slot))
      (ledger.setSending args.channel (some (number, rest))) := by
  refine hinv.change (.of_quiet hinv.count (.of_unwritten rfl rfl (fun _ => rfl) rfl) rfl rfl
    (fun _ => rfl) rfl) rfl ?_ ?_
  · intro other number' rest' hother
    simp only [Ledger.setSending] at hother
    split at hother
    · rename_i heq
      cases hother
      rw [heq]
      exact ⟨hreturned, hunconfirmed, id, args, slot, hawaited, rfl, hmandatory, Dict.get?_set_self _ _ _,
        harriving⟩
    · rename_i hne
      rw [Conn.setSlot, Dict.get?_set_of_ne _ (Ne.symm hne)]
      exact hinv.arriving other number' rest' hother
  · intro other slot' hother hslot
    simp only [Ledger.setSending] at hother
    split at hother
    · cases hother
    · rename_i hne
      rw [Conn.setSlot, Dict.get?_set_of_ne _ (Ne.symm hne)] at hslot
      exact hinv.idle other slot' hother hslot

/-- The next frame of the return that is on its way on its channel. -/
theorem ReturnInv.returnFrame (hinv : ReturnInv m ledger) {number : Nat} {rest : List Frame}
    (hrunning : (m.conn.readFrame f).reader = .running)
    (hsending : ledger.sending f.channel = some (number, f :: rest))
    (holdest : rest = [] → (numbered f.channel m.conn.written).all
      (settledBefore ⟨m, ledger⟩ f.channel number) = true) :
    ReturnInv (m.readFrame f) (ledger.advance f.channel) := by
  obtain ⟨hreturned, hunconfirmed, id, args, slot, hawaited, hchannel, hmandatory, hslot, harriving⟩ :=
    hinv.arriving f.channel number (f :: rest) hsending
  have htype := harriving.not_method
  have htaken := readFrame_taken m.conn f
  rw [Machine.readFrame]
  generalize m.conn.readFrame f = conn' at hrunning htaken ⊢
  obtain ⟨slot', hreached, hmoved⟩ := htaken.slot hrunning (by rcases htype with h | h <;> simp [h])
    (by rcases htype with h | h <;> simp [h])
  obtain ⟨hmethod, hlast, hmore⟩ := harriving.next hslot hreached
  have hreceived := hinv.receive hreached.confirms
  rcases hmoved with ⟨hremaining, rfl⟩ | ⟨hremaining, rfl⟩
  · obtain ⟨hrest, harriving'⟩ := hmore hremaining
    have hadvance : ledger.advance f.channel = ledger.setSending f.channel (some (number, rest)) := by
      cases rest with
      | nil => exact absurd rfl hrest
      | cons next rest => rw [Ledger.advance, hsending]
    rw [hadvance]
    rw [← hchannel] at hreturned ⊢
    refine (hreceived.setSlot hawaited hmandatory hreturned ?_ harriving').congr rfl rfl rfl
    rw [hchannel]
    exact (hreceived.arriving _ _ _ hsending).2.1
  · obtain ⟨rfl, hbody⟩ := hlast hremaining
    have hadvance : ledger.advance f.channel =
        (ledger.setSending f.channel none).addReturned f.channel number := by
      rw [Ledger.advance, hsending]
    obtain ⟨returned, hreturn, hkey⟩ := harriving.1
    obtain ⟨others, hqueue⟩ := hinv.oldest ⟨id, args, hawaited, hchannel, hmandatory, hreturned, hunconfirmed⟩
      (holdest rfl)
    have hunconfirmed' := (hreceived.arriving _ _ _ hsending).2.1
    rw [hadvance]
    rw [← hchannel] at hqueue hreturned hunconfirmed' ⊢
    exact (hreceived.finishReturn ⟨hawaited, hqueue, hreturned, hunconfirmed', ⟨_, hmethod.trans hreturn, hkey⟩,
      hbody⟩).congr rfl rfl rfl

theorem readFrame_return {conn : Conn} {returned : BasicReturnArgs} (htype : f.frameType = .method)
    (hmethod : decodeMethod f.payload = .ok (.basicReturn returned)) :
    conn.readFrame f = conn.setSlot f.channel { method := .returned returned } := by
  refine readFrame_of_ok ?_
  rw [processFrame, htype]
  change processMethod f.channel f.payload conn = _
  rw [processMethod, hmethod, bind_run_ok (lift_ok _ _)]
  rfl

theorem ReturnInv.opens (hinv : ReturnInv m ledger) {number : Nat} {rest : List Frame}
    (hnumber : m.mandatoryNumber f.channel id = some number)
    (hlast : number ∉ ledger.returned f.channel) (hunconfirmed : confirmed m.received f.channel number = false)
    (hreturns : returnsPublish m id f rest = true) :
    ReturnInv (m.readFrame f) (ledger.setSending f.channel (some (number, rest))) := by
  obtain ⟨⟨args, tag⟩, hawaited, hnumber⟩ := Option.bind_eq_some_iff.mp hnumber
  obtain ⟨⟨hmandatory, hchannel⟩, hnumber⟩ := Option.ite_none_right_eq_some.mp hnumber
  obtain rfl : number = tag := by
    rw [← hchannel, hinv.count.tagged id args tag hawaited] at hnumber
    exact (Option.some.inj hnumber).symm
  simp only [returnsPublish, hawaited, decide_eq_true_eq] at hreturns
  obtain ⟨hopens, hcontent⟩ := hreturns
  unfold opensReturn at hopens
  split at hopens
  · rename_i returned hmethod
    simp only [decide_eq_true_eq] at hopens
    obtain ⟨htype, -, -, hkey⟩ := hopens
    have hreceived := hinv.receive (Frame.confirms_of_method hmethod rfl)
    rw [Machine.readFrame, readFrame_return htype hmethod]
    rw [← hchannel] at hlast hunconfirmed ⊢
    refine (hreceived.setSlot hawaited hmandatory hlast ?_ ⟨⟨returned, rfl, hkey⟩, .inl ⟨rfl, hcontent⟩⟩).congr
      rfl rfl rfl
    rw [confirmed_append, hunconfirmed, Frame.confirms_of_method hmethod rfl]
    rfl
  · cases hopens

end Reading

end Nuropb.Transport
