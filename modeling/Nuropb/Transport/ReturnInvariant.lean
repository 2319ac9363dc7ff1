import Nuropb.Transport.Returns

/-! # Mandatory tags and returns

The queue of a channel holds the mandatory tags that are neither returned nor confirmed, in
ascending order, and a return that is kept under a tag is that of the publish with the tag.
-/
namespace Nuropb.Transport

open Library Protocol

/-- The return that the connection keeps under a tag. -/
def Conn.returnOf (conn : Conn) (channel : Int) (tag : Nat) : Option ReturnedMessage :=
  (conn.returnByTag.get? channel).bind (Dict.get? · tag)

/-- A mandatory publish awaits its return or its confirm. -/
def Owed (m : Machine) (ledger : Ledger) (channel : Int) (tag : Nat) : Prop :=
  ∃ id args, m.awaited id = some (args, tag) ∧ args.channel = channel ∧ args.mandatory = true ∧
    tag ∉ ledger.returned channel ∧ confirmed m.received channel tag = false

/-- The slot and the frames still to come make up the return of the publish. -/
def Arriving (args : PublishArgs) (slot : Slot) (rest : List Frame) : Prop :=
  (∃ returned, slot.method = .returned returned ∧ returned.routingKey = args.routingKey) ∧
    (slot.body = [] ∧ carryContent args rest = true ∨
      ∃ left, rest ≠ [] ∧ slot.remaining = some left.length ∧ slot.body ++ left = args.body ∧
        carryBody args.channel left rest = true)

structure ReturnInv (m : Machine) (ledger : Ledger) : Prop where
  count : CountInv m
  sorted : ∀ channel, (m.conn.mandatoryOf channel).Pairwise (· < ·)
  queued : ∀ channel tag, tag ∈ m.conn.mandatoryOf channel ↔ Owed m ledger channel tag
  kept : ∀ channel tag returned, m.conn.returnOf channel tag = some returned →
    tag ∈ ledger.returned channel ∧ ∀ id args, m.awaited id = some (args, tag) → args.channel = channel →
      returned.routingKey = args.routingKey ∧ returned.body = args.body
  held : ∀ id args tag, m.awaited id = some (args, tag) → tag ∈ ledger.returned args.channel →
    m.conn.returnOf args.channel tag ≠ none ∨ ∃ confirm outcome, m.calls id = some (.done confirm outcome)
  known : ∀ channel tag, tag ∈ ledger.returned channel →
    tag ≤ (numbered channel m.conn.written).length ∧ ¬Nacks m.received channel tag
  bounded : ∀ channel tag, confirmed m.received channel tag = true →
    tag ≤ (numbered channel m.conn.written).length
  unresolved : ∀ id args tag, m.awaited id = some (args, tag) → m.conn.confirms id = none →
    (m.conn.trackerOf args.channel).outstanding.get? tag = some id ∧
      confirmed m.received args.channel tag = false
  failed : ∀ id e, m.conn.confirms id = some (.error e) →
    e = .cancelledError ∨ ∃ deliveryTag multiple, e = .publishNack deliveryTag multiple
  arriving : ∀ channel number rest, ledger.sending channel = some (number, rest) →
    number ∉ ledger.returned channel ∧ confirmed m.received channel number = false ∧
      ∃ id args slot, m.awaited id = some (args, number) ∧ args.channel = channel ∧
        args.mandatory = true ∧ m.conn.pendingContent.get? channel = some slot ∧ Arriving args slot rest
  idle : ∀ channel slot, ledger.sending channel = none →
    m.conn.pendingContent.get? channel = some slot → ∃ args, slot.method = .deliver args
  ended : ∀ id args tag outcome, m.calls id = some (.done (some (args, tag)) outcome) →
    args.mandatory = true → Attributed m ledger args tag outcome

/-! ## Rules -/

/-- A change of the connection that counts no publish and leaves mandatory tags and returns alone. -/
structure ReturnQuiet (m : Machine) (conn' : Conn) : Prop where
  count : CountInv (m.setConn conn')
  numbered : ∀ channel, numbered channel conn'.written = numbered channel m.conn.written
  mandatory : ∀ channel, conn'.mandatoryOf channel = m.conn.mandatoryOf channel
  returnOf : ∀ channel tag, conn'.returnOf channel tag = m.conn.returnOf channel tag
  outstanding : ∀ channel tag id, (m.conn.trackerOf channel).outstanding.get? tag = some id →
    (conn'.trackerOf channel).outstanding.get? tag = some id
  confirms : ∀ id, conn'.confirms id = none → m.conn.confirms id = none
  failed : ∀ id e, conn'.confirms id = some (.error e) →
    m.conn.confirms id = some (.error e) ∨ e = .cancelledError

section Rules

variable {m : Machine} {ledger : Ledger} {conn' : Conn} {id : CallId}

theorem ReturnQuiet.of_same (hcount : CountInv (m.setConn conn'))
    (hnumbered : ∀ channel, Nuropb.Transport.numbered channel conn'.written =
      Nuropb.Transport.numbered channel m.conn.written)
    (hmandatory : conn'.mandatoryTags = m.conn.mandatoryTags)
    (hreturn : conn'.returnByTag = m.conn.returnByTag)
    (htracker : ∀ channel, (conn'.trackerOf channel).outstanding = (m.conn.trackerOf channel).outstanding)
    (hconfirms : conn'.confirms = m.conn.confirms) : ReturnQuiet m conn' where
  count := hcount
  numbered := hnumbered
  mandatory channel := by rw [Conn.mandatoryOf, hmandatory, Conn.mandatoryOf]
  returnOf channel tag := by rw [Conn.returnOf, hreturn, Conn.returnOf]
  outstanding channel tag id h := by rwa [htracker]
  confirms id h := by rwa [hconfirms] at h
  failed id e h := .inl (by rwa [hconfirms] at h)

theorem Attributed.congr {m' : Machine} {args : PublishArgs} {tag : Nat} {outcome : Except Exc (Option Text)}
    (h : Attributed m ledger args tag outcome) (hreceived : m'.received = m.received) :
    Attributed m' ledger args tag outcome := by
  unfold Attributed at h ⊢
  rwa [hreceived]

/-- The contents that are on their way may change as well, on both sides. -/
theorem ReturnInv.change {ledger' : Ledger} (hinv : ReturnInv m ledger) (h : ReturnQuiet m conn')
    (hreturned : ledger'.returned = ledger.returned)
    (harriving : ∀ channel number rest, ledger'.sending channel = some (number, rest) →
      number ∉ ledger.returned channel ∧ confirmed m.received channel number = false ∧
        ∃ id args slot, m.awaited id = some (args, number) ∧ args.channel = channel ∧
          args.mandatory = true ∧ conn'.pendingContent.get? channel = some slot ∧ Arriving args slot rest)
    (hidle : ∀ channel slot, ledger'.sending channel = none →
      conn'.pendingContent.get? channel = some slot → ∃ args, slot.method = .deliver args) :
    ReturnInv (m.setConn conn') ledger' where
  count := h.count
  sorted channel := by
    rw [setConn_conn, h.mandatory]
    exact hinv.sorted channel
  queued channel tag := by
    rw [setConn_conn, h.mandatory, Owed, hreturned]
    exact hinv.queued channel tag
  kept channel tag returned hget := by
    rw [setConn_conn, h.returnOf] at hget
    rw [hreturned]
    exact hinv.kept channel tag returned hget
  held id args tag hawaited hmem := by
    rw [setConn_conn, h.returnOf]
    rw [hreturned] at hmem
    exact hinv.held id args tag hawaited hmem
  known channel tag hmem := by
    rw [hreturned] at hmem
    rw [setConn_conn, h.numbered]
    exact hinv.known channel tag hmem
  bounded channel tag hconfirmed := by
    rw [setConn_conn, h.numbered]
    exact hinv.bounded channel tag hconfirmed
  unresolved id args tag hawaited hnone := by
    obtain ⟨hget, hconfirmed⟩ := hinv.unresolved id args tag hawaited (h.confirms id hnone)
    exact ⟨h.outstanding _ _ _ hget, hconfirmed⟩
  failed id e hfailed := by
    rcases h.failed id e hfailed with hold | hcancelled
    · exact hinv.failed id e hold
    · exact .inl hcancelled
  arriving channel number rest hsending := by
    rw [hreturned]
    exact harriving channel number rest hsending
  idle := hidle
  ended id args tag outcome hcall hmandatory := by
    have hold := hinv.ended id args tag outcome hcall hmandatory
    unfold Attributed at hold ⊢
    rwa [hreturned]

theorem ReturnInv.setConn (hinv : ReturnInv m ledger) (h : ReturnQuiet m conn')
    (hpending : conn'.pendingContent = m.conn.pendingContent) : ReturnInv (m.setConn conn') ledger := by
  refine hinv.change h rfl ?_ ?_
  · rw [hpending]
    exact hinv.arriving
  · rw [hpending]
    exact hinv.idle

theorem ReturnInv.congr {m' : Machine} (hinv : ReturnInv m ledger) (hconn : m'.conn = m.conn)
    (hcalls : m'.calls = m.calls) (hreceived : m'.received = m.received) : ReturnInv m' ledger := by
  obtain ⟨conn, calls, asked, received, expired, ended⟩ := m
  obtain ⟨conn', calls', asked', received', expired', ended'⟩ := m'
  obtain rfl : conn' = conn := hconn
  obtain rfl : calls' = calls := hcalls
  obtain rfl : received' = received := hreceived
  exact
    { count := hinv.count.congr rfl rfl rfl, sorted := hinv.sorted, queued := hinv.queued,
      kept := hinv.kept, held := hinv.held, known := hinv.known, bounded := hinv.bounded,
      unresolved := hinv.unresolved, failed := hinv.failed, arriving := hinv.arriving, idle := hinv.idle,
      ended := fun id args tag outcome hcall hmandatory =>
        (hinv.ended id args tag outcome hcall hmandatory).congr rfl }

theorem ReturnInv.setCall (hinv : ReturnInv m ledger) {phase : Phase}
    (hcount : CountInv (m.setCall id phase)) (hconfirm : phase.confirm = m.awaited id)
    (hlive : (∃ confirm outcome, m.calls id = some (.done confirm outcome)) →
      ∃ confirm outcome, phase = .done confirm outcome)
    (hended : ∀ args tag outcome, phase = .done (some (args, tag)) outcome → args.mandatory = true →
      Attributed m ledger args tag outcome) : ReturnInv (m.setCall id phase) ledger := by
  have hawaited (other : CallId) : (m.setCall id phase).awaited other = m.awaited other := by
    rw [setCall_awaited]
    split
    · rename_i heq
      rw [hconfirm, heq]
    · rfl
  refine
    { count := hcount, sorted := hinv.sorted, queued := ?_, kept := ?_, held := ?_,
      known := hinv.known, bounded := hinv.bounded, unresolved := ?_,
      failed := hinv.failed, arriving := ?_,
      idle := hinv.idle, ended := ?_ }
  · intro channel tag
    refine (hinv.queued channel tag).trans (exists_congr fun other => exists_congr fun args => ?_)
    rw [hawaited]
    rfl
  · intro channel tag returned hget
    obtain ⟨hmem, hargs⟩ := hinv.kept channel tag returned hget
    refine ⟨hmem, fun other args h => hargs other args ?_⟩
    rwa [hawaited] at h
  · intro other args tag h hmem
    rw [hawaited] at h
    refine (hinv.held other args tag h hmem).imp (fun hsome => hsome) fun hdone => ?_
    rw [setCall_calls]
    split
    · rename_i heq
      obtain ⟨confirm, outcome, rfl⟩ := hlive (heq ▸ hdone)
      exact ⟨confirm, outcome, rfl⟩
    · exact hdone
  · intro other args tag h
    rw [hawaited] at h
    exact hinv.unresolved other args tag h
  · intro channel number rest hsending
    obtain ⟨hmem, hconfirmed, other, args, slot, h, hrest⟩ := hinv.arriving channel number rest hsending
    exact ⟨hmem, hconfirmed, other, args, slot, by rwa [hawaited], hrest⟩
  · intro other args tag outcome h hmandatory
    rw [setCall_calls] at h
    split at h
    · exact (hended args tag outcome (Option.some.inj h) hmandatory).congr rfl
    · exact (hinv.ended other args tag outcome h hmandatory).congr rfl

theorem ReturnQuiet.of_quiet (hcount : CountInv m) (hquiet : QuietChange m conn')
    (hmandatory : conn'.mandatoryTags = m.conn.mandatoryTags)
    (hreturn : conn'.returnByTag = m.conn.returnByTag)
    (htracker : ∀ channel, conn'.trackerOf channel = m.conn.trackerOf channel)
    (hconfirms : conn'.confirms = m.conn.confirms) : ReturnQuiet m conn' :=
  .of_same (hcount.setConn hquiet) hquiet.numbered hmandatory hreturn
    (fun channel => by rw [htracker]) hconfirms

theorem ReturnInv.enable (hinv : ReturnInv m ledger) {channel : Int}
    (hselected : selected channel m.conn.written = true)
    (hnext : (m.conn.trackerOf channel).nextTag = 1) :
    ReturnInv (m.setConn (m.conn.setTracker channel (m.conn.trackerOf channel).enable)) ledger := by
  refine hinv.setConn (.of_same (hinv.count.enable hselected hnext) (fun _ => rfl) rfl rfl ?_ rfl) rfl
  intro other
  by_cases h : other = channel
  · rw [h, Conn.trackerOf_setTracker]
    rfl
  · rw [Conn.trackerOf_setTracker_of_ne _ (Ne.symm h)]

theorem publishNumber_le {channel : Int} {written : List Sent} {number : Nat}
    (h : publishNumber channel written id = some number) : number ≤ (numbered channel written).length := by
  obtain ⟨i, hi, rfl⟩ := Option.map_eq_some_iff.mp h
  exact (List.findIdx?_eq_some_iff_findIdx_eq.mp hi).1

theorem CountInv.tag_le (hcount : CountInv m) {args : PublishArgs} {tag : Nat}
    (h : m.awaited id = some (args, tag)) : tag ≤ (numbered args.channel m.conn.written).length :=
  publishNumber_le (hcount.tagged id args tag h)

theorem mandatoryOf_registered (conn : Conn) (id : CallId) (args : PublishArgs) (channel : Int) :
    (conn.registered id args).mandatoryOf channel =
      if args.mandatory = true ∧ channel = args.channel then
        conn.mandatoryOf channel ++ [(conn.trackerOf args.channel).nextTag]
      else conn.mandatoryOf channel := by
  unfold Conn.registered Conn.recordTag
  by_cases hmandatory : args.mandatory = true
  · simp only [hmandatory, if_true, true_and, Conn.recordMandatory, Conn.mandatoryOf, Dict.get?_set]
    by_cases hchannel : args.channel = channel
    · simp [hchannel, Conn.handOut, Conn.setTracker]
    · simp [hchannel, Ne.symm hchannel, Conn.handOut, Conn.setTracker]
  · simp [hmandatory, Conn.mandatoryOf, Conn.handOut, Conn.setTracker]

theorem registered_same (conn : Conn) (id : CallId) (args : PublishArgs) :
    (conn.registered id args).returnByTag = conn.returnByTag ∧
      (conn.registered id args).pendingContent = conn.pendingContent := by
  obtain ⟨confirm, mandatoryTags, heq⟩ := beforeContent_eq conn id args true
  rw [Conn.beforeContent, if_pos rfl] at heq
  rw [heq]
  exact ⟨rfl, rfl⟩

end Rules

/-! ## A publish takes its number -/

section Published

variable {m : Machine} {ledger : Ledger} {id other : CallId} {args args' : PublishArgs} {props : Properties}
  {frames : List Frame} {channel : Int} {tag : Nat}

theorem ReturnInv.next_unreturned (hinv : ReturnInv m ledger) (henabled : (m.conn.trackerOf args.channel).enabled = true) :
    (m.conn.trackerOf args.channel).nextTag ∉ ledger.returned args.channel := by
  intro hmem
  have hle := (hinv.known _ _ hmem).1
  have hnext := (hinv.count.enabled args.channel henabled).2
  omega

theorem ReturnInv.next_unconfirmed (hinv : ReturnInv m ledger) (henabled : (m.conn.trackerOf args.channel).enabled = true) :
    confirmed m.received args.channel (m.conn.trackerOf args.channel).nextTag = false := by
  refine Bool.eq_false_iff.mpr fun hconfirmed => ?_
  have hle := hinv.bounded _ _ hconfirmed
  have hnext := (hinv.count.enabled args.channel henabled).2
  omega

theorem numbered_published_le (hframes : contentFrames m.conn.frameMax args props = some frames) :
    (numbered channel m.conn.written).length ≤ (numbered channel (m.published id args frames).conn.written).length := by
  obtain ⟨method, hnumbered⟩ := numbered_content hframes m.conn.written id
  rw [published_written, hnumbered]
  split
  · simp
  · exact le_rfl

theorem mandatoryOf_published : (m.published id args frames).conn.mandatoryOf channel =
    if args.mandatory = true ∧ channel = args.channel then
      m.conn.mandatoryOf channel ++ [(m.conn.trackerOf args.channel).nextTag]
    else m.conn.mandatoryOf channel :=
  mandatoryOf_registered m.conn id args channel

theorem returnOf_published : (m.published id args frames).conn.returnOf channel tag = m.conn.returnOf channel tag := by
  change (m.conn.registered id args).returnOf channel tag = _
  rw [Conn.returnOf, (registered_same m.conn id args).1, Conn.returnOf]

theorem ReturnInv.sorted_published (hinv : ReturnInv m ledger) (henabled : (m.conn.trackerOf args.channel).enabled = true) :
    ((m.published id args frames).conn.mandatoryOf channel).Pairwise (· < ·) := by
  rw [mandatoryOf_published]
  split
  · rename_i hmandatory
    refine List.pairwise_append.mpr ⟨hinv.sorted channel, List.pairwise_singleton _ _, ?_⟩
    intro t ht t' ht'
    obtain ⟨other, args', hawaited, hchannel, -⟩ := (hinv.queued channel t).mp ht
    have hle := hinv.count.tag_le hawaited
    have hnext := (hinv.count.enabled args.channel henabled).2
    rw [hchannel, hmandatory.2] at hle
    rw [List.mem_singleton.mp ht']
    omega
  · exact hinv.sorted channel

/-- What the new publish owes is its own number, if it is mandatory. -/
theorem ReturnInv.owed_published_iff (hinv : ReturnInv m ledger) (hunpublished : m.Unpublished id)
    (henabled : (m.conn.trackerOf args.channel).enabled = true) :
    Owed (m.published id args frames) ledger channel tag ↔ Owed m ledger channel tag ∨
      args.mandatory = true ∧ channel = args.channel ∧ tag = (m.conn.trackerOf args.channel).nextTag := by
  constructor
  · rintro ⟨other, args', hawaited, hchannel, hmandatory, hrest⟩
    rcases awaited_published_cases hawaited with ⟨-, rfl, rfl⟩ | ⟨-, hold⟩
    · exact .inr ⟨hmandatory, hchannel.symm, rfl⟩
    · exact .inl ⟨other, args', hold, hchannel, hmandatory, hrest⟩
  · rintro (⟨other, args', hawaited, hrest⟩ | ⟨hmandatory, rfl, rfl⟩)
    · exact ⟨other, args', awaited_published hunpublished hawaited, hrest⟩
    · exact ⟨id, args, by rw [published_awaited, if_pos rfl], rfl, hmandatory, hinv.next_unreturned henabled,
        hinv.next_unconfirmed henabled⟩

theorem ReturnInv.queued_published (hinv : ReturnInv m ledger) (hunpublished : m.Unpublished id)
    (henabled : (m.conn.trackerOf args.channel).enabled = true) :
    tag ∈ (m.published id args frames).conn.mandatoryOf channel ↔ Owed (m.published id args frames) ledger channel tag := by
  rw [hinv.owed_published_iff hunpublished henabled, mandatoryOf_published, ← hinv.queued]
  split
  · rename_i hmandatory
    rw [List.mem_append, List.mem_singleton]
    exact or_congr_right ⟨fun htag => ⟨hmandatory.1, hmandatory.2, htag⟩, fun h => h.2.2⟩
  · rename_i hnot
    exact ⟨.inl, fun h => h.resolve_right fun hnew => hnot ⟨hnew.1, hnew.2.1⟩⟩

theorem ReturnInv.kept_published (hinv : ReturnInv m ledger) (henabled : (m.conn.trackerOf args.channel).enabled = true)
    {returned : ReturnedMessage} (hget : (m.published id args frames).conn.returnOf channel tag = some returned) :
    tag ∈ ledger.returned channel ∧ ∀ other args', (m.published id args frames).awaited other = some (args', tag) →
      args'.channel = channel → returned.routingKey = args'.routingKey ∧ returned.body = args'.body := by
  rw [returnOf_published] at hget
  obtain ⟨hmem, hargs⟩ := hinv.kept channel tag returned hget
  refine ⟨hmem, fun other args' h hchannel => ?_⟩
  rcases awaited_published_cases h with ⟨-, rfl, rfl⟩ | ⟨-, hold⟩
  · rw [← hchannel] at hmem
    exact absurd hmem (hinv.next_unreturned henabled)
  · exact hargs other args' hold hchannel

theorem ReturnInv.held_published (hinv : ReturnInv m ledger) (henabled : (m.conn.trackerOf args.channel).enabled = true)
    (h : (m.published id args frames).awaited other = some (args', tag)) (hmem : tag ∈ ledger.returned args'.channel) :
    (m.published id args frames).conn.returnOf args'.channel tag ≠ none ∨
      ∃ confirm outcome, (m.published id args frames).calls other = some (.done confirm outcome) := by
  rcases awaited_published_cases h with ⟨-, rfl, rfl⟩ | ⟨hother, hold⟩
  · exact absurd hmem (hinv.next_unreturned henabled)
  · rw [returnOf_published, Machine.published, setCall_calls, if_neg hother]
    exact hinv.held other args' tag hold hmem

theorem ReturnInv.unresolved_published (hinv : ReturnInv m ledger) (henabled : (m.conn.trackerOf args.channel).enabled = true)
    (h : (m.published id args frames).awaited other = some (args', tag)) (hconfirm : m.conn.confirms other = none) :
    ((m.published id args frames).conn.trackerOf args'.channel).outstanding.get? tag = some other ∧
      confirmed m.received args'.channel tag = false := by
  rw [published_trackerOf]
  rcases awaited_published_cases h with ⟨rfl, rfl, rfl⟩ | ⟨hother, hold⟩
  · rw [if_pos rfl]
    exact ⟨Dict.get?_set_self _ _ _, hinv.next_unconfirmed henabled⟩
  · obtain ⟨hget, hconfirmed⟩ := hinv.unresolved other args' tag hold hconfirm
    refine ⟨?_, hconfirmed⟩
    split
    · rename_i hchannel
      have hle := hinv.count.tag_le hold
      have hnext := (hinv.count.enabled args.channel henabled).2
      rw [hchannel] at hget hle ⊢
      exact (Dict.get?_set_of_ne _ (by omega) _).trans hget
    · exact hget

/-- A written publish takes a number that was neither returned nor confirmed. -/
theorem ReturnInv.publish (hinv : ReturnInv m ledger) (hunpublished : m.Unpublished id)
    (henabled : (m.conn.trackerOf args.channel).enabled = true)
    (hframes : contentFrames m.conn.frameMax args props = some frames) :
    ReturnInv (m.published id args frames) ledger where
  count := hinv.count.publish hunpublished henabled hframes
  sorted channel := hinv.sorted_published henabled
  queued channel tag := hinv.queued_published hunpublished henabled
  kept channel tag returned hget := hinv.kept_published henabled hget
  held other args' tag h hmem := hinv.held_published henabled h hmem
  known channel tag hmem := by
    obtain ⟨hle, hnack⟩ := hinv.known channel tag hmem
    exact ⟨hle.trans (numbered_published_le hframes), hnack⟩
  bounded channel tag hconfirmed := (hinv.bounded channel tag hconfirmed).trans (numbered_published_le hframes)
  unresolved other args' tag h hconfirm :=
    hinv.unresolved_published henabled h ((confirms_registered m.conn id args).symm ▸ hconfirm)
  failed other e h := hinv.failed other e ((confirms_registered m.conn id args).symm ▸ h)
  arriving channel number rest hsending := by
    obtain ⟨hmem, hconfirmed, other, args', slot, hawaited, hchannel, hmandatory, hslot, harriving⟩ :=
      hinv.arriving channel number rest hsending
    refine ⟨hmem, hconfirmed, other, args', slot, awaited_published hunpublished hawaited, hchannel, hmandatory, ?_, harriving⟩
    exact (congrArg (Dict.get? · channel) (registered_same m.conn id args).2).trans hslot
  idle channel slot hsending hslot :=
    hinv.idle channel slot hsending ((congrArg (Dict.get? · channel) (registered_same m.conn id args).2).symm.trans hslot)
  ended other args' tag outcome hcall hmandatory := by
    rw [Machine.published, setCall_calls] at hcall
    split at hcall
    · cases hcall
    · exact (hinv.ended other args' tag outcome hcall hmandatory).congr rfl

end Published

/-! ## Frames received -/

section Received

variable {m : Machine} {ledger : Ledger}

theorem Frame.confirms_eq_true_iff {f : Frame} {channel : Int} {number : Nat} :
    f.confirms channel number = true ↔ f.frameType = .method ∧ f.channel = channel ∧
      ∃ method deliveryTag multiple outcome, decodeMethod f.payload = .ok method ∧
        confirmOf method = some (deliveryTag, multiple, outcome) ∧
          covers deliveryTag multiple number = true := by
  unfold Frame.confirms
  constructor
  · intro h
    split at h
    · rename_i hframe
      split at h
      · rename_i method hmethod
        obtain ⟨⟨deliveryTag, multiple, outcome⟩, hconfirm, hcovers⟩ := (Option.any_eq_true _ _).mp h
        exact ⟨hframe.1, hframe.2, method, deliveryTag, multiple, outcome, hmethod, hconfirm, hcovers⟩
      · cases h
    · cases h
  · rintro ⟨htype, hchannel, method, deliveryTag, multiple, outcome, hmethod, hconfirm, hcovers⟩
    rw [if_pos ⟨htype, hchannel⟩, hmethod]
    simpa [hconfirm] using hcovers

theorem confirmed_append {received : List Frame} {f : Frame} {channel : Int} {number : Nat} :
    confirmed (received ++ [f]) channel number =
      (confirmed received channel number || f.confirms channel number) := by
  simp [confirmed]

theorem nacks_append {received : List Frame} {f : Frame} {channel : Int} {number : Nat}
    (h : Nacks (received ++ [f]) channel number) : Nacks received channel number ∨
      f.isNack = true ∧ f.channel = channel ∧ f.confirms channel number = true := by
  obtain ⟨g, hg, htype, hchannel, deliveryTag, multiple, requeue, hmethod, hcovers⟩ := h
  rcases List.mem_append.mp hg with hg | hg
  · exact .inl ⟨g, hg, htype, hchannel, deliveryTag, multiple, requeue, hmethod, hcovers⟩
  · obtain rfl := List.mem_singleton.mp hg
    refine .inr ⟨by rw [Frame.isNack, hmethod], hchannel, ?_⟩
    exact Frame.confirms_eq_true_iff.mpr ⟨htype, hchannel, _, _, _, _, hmethod, rfl, hcovers⟩

theorem confirmed_of_acks {received : List Frame} {channel : Int} {number : Nat}
    (h : Acks received channel number) : confirmed received channel number = true := by
  obtain ⟨g, hg, htype, hchannel, deliveryTag, multiple, hmethod, hcovers⟩ := h
  exact List.any_eq_true.mpr ⟨g, hg, Frame.confirms_eq_true_iff.mpr
    ⟨htype, hchannel, _, _, _, _, hmethod, rfl, hcovers⟩⟩

theorem confirmed_of_nacks {received : List Frame} {channel : Int} {number : Nat}
    (h : Nacks received channel number) : confirmed received channel number = true := by
  obtain ⟨g, hg, htype, hchannel, deliveryTag, multiple, requeue, hmethod, hcovers⟩ := h
  exact List.any_eq_true.mpr ⟨g, hg, Frame.confirms_eq_true_iff.mpr
    ⟨htype, hchannel, _, _, _, _, hmethod, rfl, hcovers⟩⟩

theorem Attributed.receive {args : PublishArgs} {tag : Nat} {outcome : Except Exc (Option Text)}
    (h : Attributed m ledger args tag outcome) (f : Frame) :
    Attributed { m with received := m.received ++ [f] } ledger args tag outcome := by
  unfold Attributed at h ⊢
  split at h
  · obtain ⟨⟨g, hg, hack⟩, hmem⟩ := h
    exact ⟨⟨g, List.mem_append_left _ hg, hack⟩, hmem⟩
  · exact h
  · obtain ⟨⟨g, hg, hnack⟩, hmem⟩ := h
    exact ⟨⟨g, List.mem_append_left _ hg, hnack⟩, hmem⟩
  · exact h

theorem ReturnInv.receive (hinv : ReturnInv m ledger) {f : Frame}
    (hf : ∀ channel number, f.confirms channel number = false) :
    ReturnInv { m with received := m.received ++ [f] } ledger := by
  have hsame (channel : Int) (number : Nat) :
      confirmed (m.received ++ [f]) channel number = confirmed m.received channel number := by
    rw [confirmed_append, hf, Bool.or_false]
  refine
    { count := hinv.count.receive f, sorted := hinv.sorted, queued := ?_, kept := hinv.kept,
      held := hinv.held, known := ?_, bounded := ?_, unresolved := ?_,
      failed := hinv.failed, arriving := ?_, idle := hinv.idle,
      ended := fun id args tag outcome hcall hmandatory =>
        (hinv.ended id args tag outcome hcall hmandatory).receive f }
  · intro channel tag
    refine (hinv.queued channel tag).trans (exists_congr fun id => exists_congr fun args => ?_)
    rw [hsame]
    rfl
  · intro channel tag hmem
    obtain ⟨hle, hnack⟩ := hinv.known channel tag hmem
    refine ⟨hle, fun h => ?_⟩
    rcases nacks_append h with hold | ⟨-, -, hconfirms⟩
    · exact hnack hold
    · rw [hf] at hconfirms
      cases hconfirms
  · intro channel tag h
    rw [hsame] at h
    exact hinv.bounded channel tag h
  · intro id args tag hawaited hnone
    rw [hsame]
    exact hinv.unresolved id args tag hawaited hnone
  · intro channel number rest hsending
    rw [hsame]
    exact hinv.arriving channel number rest hsending

end Received

end Nuropb.Transport
