import Nuropb.Transport.Numbering
import Nuropb.Transport.TaskViews

/-! # The counters agree

The client counts the tags that it hands out, the broker the publishes that it reads. The
invariant ties each tracker to the log of written frames, and each confirm to the call that
awaits it.
-/
namespace Nuropb.Transport

open Library Protocol

/-- An ack on the channel covers the number. -/
def Acks (received : List Frame) (channel : Int) (number : Nat) : Prop :=
  ∃ f ∈ received, f.frameType = .method ∧ f.channel = channel ∧ ∃ deliveryTag multiple,
    decodeMethod f.payload = .ok (.basicAck deliveryTag multiple) ∧
      covers deliveryTag.toNat multiple number = true

def Nacks (received : List Frame) (channel : Int) (number : Nat) : Prop :=
  ∃ f ∈ received, f.frameType = .method ∧ f.channel = channel ∧ ∃ deliveryTag multiple requeue,
    decodeMethod f.payload = .ok (.basicNack deliveryTag multiple requeue) ∧
      covers deliveryTag.toNat multiple number = true

/-- What must have been received for an awaited confirm to end so. -/
def Settled {α : Type} (received : List Frame) (channel : Int) (number : Nat) : Except Exc α → Prop
  | .ok _ => Acks received channel number
  | .error (.publishNack ..) => Nacks received channel number
  | .error _ => True

structure CountInv (m : Machine) : Prop where
  enabled : ∀ channel, (m.conn.trackerOf channel).enabled = true → selected channel m.conn.written = true ∧
    (m.conn.trackerOf channel).nextTag = (numbered channel m.conn.written).length + 1
  disabled : ∀ channel, (m.conn.trackerOf channel).enabled = false → numbered channel m.conn.written = []
  tagged : ∀ id args tag, m.awaited id = some (args, tag) →
    publishNumber args.channel m.conn.written id = some tag
  outstanding : ∀ channel tag id, (m.conn.trackerOf channel).outstanding.get? tag = some id →
    ∃ args, m.awaited id = some (args, tag) ∧ args.channel = channel
  settled : ∀ id outcome, m.conn.confirms id = some outcome →
    ∃ args tag, m.awaited id = some (args, tag) ∧ Settled m.received args.channel tag outcome
  ended : ∀ id args tag outcome, m.calls id = some (.done (some (args, tag)) outcome) →
    Settled m.received args.channel tag outcome
  unwritten : ∀ id, m.Unpublished id → ∀ channel, ∀ s ∈ numbered channel m.conn.written, s.caller ≠ some id
  selecting : ∀ id channel, m.requestOf id = some (.confirmSelect channel) →
    selected channel m.conn.written = true
  encodable : ∀ id args props, m.nextOf id = some (args, props) →
    m.requestOf id = some (.confirmSelect args.channel) ∧
      (contentFrames m.conn.frameMax args props).isSome = true

section Settling

variable {α : Type} {received : List Frame} {channel : Int} {number : Nat} {outcome : Except Exc α}

theorem Settled.mono {more : List Frame} (h : Settled received channel number outcome) :
    Settled (received ++ more) channel number outcome := by
  unfold Settled at h ⊢
  split at h
  · obtain ⟨f, hf, hack⟩ := h
    exact ⟨f, List.mem_append_left _ hf, hack⟩
  · obtain ⟨f, hf, hnack⟩ := h
    exact ⟨f, List.mem_append_left _ hf, hnack⟩
  · trivial

theorem settled_of_confirmOf {f : Frame} {method : Method} {deliveryTag : Nat} {multiple : Bool}
    {outcome : Except Exc Unit} (hmem : f ∈ received) (htype : f.frameType = .method)
    (hmethod : decodeMethod f.payload = .ok method)
    (hconfirm : confirmOf method = some (deliveryTag, multiple, outcome))
    (hcovers : covers deliveryTag multiple number = true) :
    Settled received f.channel number outcome := by
  cases method <;> simp only [confirmOf, Option.some.injEq, Prod.mk.injEq, reduceCtorEq] at hconfirm
  case basicAck tag multiple' =>
    obtain ⟨rfl, rfl, rfl⟩ := hconfirm
    exact ⟨f, hmem, htype, rfl, tag, multiple', hmethod, hcovers⟩
  case basicNack tag multiple' requeue =>
    obtain ⟨rfl, rfl, rfl⟩ := hconfirm
    exact ⟨f, hmem, htype, rfl, tag, multiple', requeue, hmethod, hcovers⟩

end Settling

/-! ## Rules -/

/-- A change of the connection that hands out no tag and counts no publish; confirms may be
settled as the frames received say. -/
structure QuietChange (m : Machine) (conn' : Conn) : Prop where
  frameMax : conn'.frameMax = m.conn.frameMax
  log : ∃ more, conn'.written = m.conn.written ++ more
  numbered : ∀ channel, numbered channel conn'.written = numbered channel m.conn.written
  enabled : ∀ channel, (conn'.trackerOf channel).enabled = (m.conn.trackerOf channel).enabled
  nextTag : ∀ channel, (conn'.trackerOf channel).nextTag = (m.conn.trackerOf channel).nextTag
  outstanding : ∀ channel tag id, (conn'.trackerOf channel).outstanding.get? tag = some id →
    (m.conn.trackerOf channel).outstanding.get? tag = some id
  confirms : ∀ id outcome, conn'.confirms id = some outcome → m.conn.confirms id = some outcome ∨
    ∃ args tag, m.awaited id = some (args, tag) ∧ Settled m.received args.channel tag outcome

section Rules

variable {m : Machine} {conn' : Conn} {id : CallId}

/-- The change is quiet when trackers, confirms and numbering stay. -/
theorem QuietChange.of_same (hframeMax : conn'.frameMax = m.conn.frameMax)
    (hlog : ∃ more, conn'.written = m.conn.written ++ more)
    (hnumbered : ∀ channel, Nuropb.Transport.numbered channel conn'.written =
      Nuropb.Transport.numbered channel m.conn.written)
    (htracker : ∀ channel, conn'.trackerOf channel = m.conn.trackerOf channel)
    (hconfirms : conn'.confirms = m.conn.confirms) : QuietChange m conn' where
  frameMax := hframeMax
  log := hlog
  numbered := hnumbered
  enabled channel := by rw [htracker]
  nextTag channel := by rw [htracker]
  outstanding channel tag id h := by rwa [htracker] at h
  confirms id outcome h := .inl (by rwa [hconfirms] at h)

theorem QuietChange.of_unwritten (hframeMax : conn'.frameMax = m.conn.frameMax)
    (hwritten : conn'.written = m.conn.written)
    (htracker : ∀ channel, conn'.trackerOf channel = m.conn.trackerOf channel)
    (hconfirms : conn'.confirms = m.conn.confirms) : QuietChange m conn' :=
  .of_same hframeMax ⟨[], by rw [hwritten, List.append_nil]⟩ (fun _ => by rw [hwritten]) htracker hconfirms

theorem publishNumber_congr {channel : Int} {written written' : List Sent}
    (h : numbered channel written' = numbered channel written) (id : CallId) :
    publishNumber channel written' id = publishNumber channel written id := by
  rw [publishNumber, publishNumber, h]

theorem CountInv.setConn (hinv : CountInv m) (h : QuietChange m conn') : CountInv (m.setConn conn') where
  enabled channel henabled := by
    rw [setConn_conn] at henabled ⊢
    rw [h.enabled] at henabled
    obtain ⟨hselected, hnext⟩ := hinv.enabled channel henabled
    obtain ⟨more, hmore⟩ := h.log
    rw [h.nextTag, h.numbered, hmore, selected_append, hselected]
    exact ⟨rfl, hnext⟩
  disabled channel hdisabled := by
    rw [setConn_conn] at hdisabled ⊢
    rw [h.enabled] at hdisabled
    rw [h.numbered]
    exact hinv.disabled channel hdisabled
  tagged id args tag hawaited := by
    rw [setConn_conn, publishNumber_congr (h.numbered args.channel)]
    exact hinv.tagged id args tag hawaited
  outstanding channel tag id hget := hinv.outstanding channel tag id (h.outstanding channel tag id hget)
  settled id outcome hconfirm := by
    rcases h.confirms id outcome hconfirm with hold | hnew
    · exact hinv.settled id outcome hold
    · exact hnew
  ended := hinv.ended
  unwritten id hunpublished channel := by
    rw [setConn_conn, h.numbered]
    exact hinv.unwritten id hunpublished channel
  selecting id channel hrequest := by
    obtain ⟨more, hmore⟩ := h.log
    rw [setConn_conn, hmore, selected_append, hinv.selecting id channel hrequest, Bool.true_or]
  encodable id args props hnext := by
    rw [setConn_conn, h.frameMax]
    exact hinv.encodable id args props hnext

theorem CountInv.congr {m' : Machine} (hinv : CountInv m) (hconn : m'.conn = m.conn)
    (hcalls : m'.calls = m.calls) (hreceived : m'.received = m.received) : CountInv m' := by
  obtain ⟨conn, calls, asked, received, expired, ended⟩ := m
  obtain ⟨conn', calls', asked', received', expired', ended'⟩ := m'
  obtain rfl : conn' = conn := hconn
  obtain rfl : calls' = calls := hcalls
  obtain rfl : received' = received := hreceived
  exact ⟨hinv.enabled, hinv.disabled, hinv.tagged, hinv.outstanding, hinv.settled, hinv.ended,
    hinv.unwritten, hinv.selecting, hinv.encodable⟩

theorem CountInv.endRequest (hinv : CountInv m) (id : CallId) (outcome : Except Exc (Option Text)) :
    CountInv (m.endRequest id outcome) :=
  hinv.congr rfl rfl rfl

theorem CountInv.setCall (hinv : CountInv m) {phase : Phase} (hconfirm : phase.confirm = m.awaited id)
    (hended : ∀ args tag outcome, phase = .done (some (args, tag)) outcome →
      Settled m.received args.channel tag outcome)
    (hunpublished : phase.request.isSome = true → m.Unpublished id)
    (hselecting : ∀ channel, phase.request = some (.confirmSelect channel) →
      selected channel m.conn.written = true)
    (hencodable : ∀ args props, phase.next = some (args, props) →
      phase.request = some (.confirmSelect args.channel) ∧
        (contentFrames m.conn.frameMax args props).isSome = true) : CountInv (m.setCall id phase) := by
  have hawaited (other : CallId) : (m.setCall id phase).awaited other = m.awaited other := by
    rw [setCall_awaited]
    split
    · rename_i heq
      rw [hconfirm, heq]
    · rfl
  refine
    { enabled := hinv.enabled, disabled := hinv.disabled, tagged := ?_, outstanding := ?_,
      settled := ?_, ended := ?_, unwritten := ?_, selecting := ?_, encodable := ?_ }
  · intro other args tag h
    exact hinv.tagged other args tag (by rwa [hawaited] at h)
  · intro channel tag other h
    rw [hawaited]
    exact hinv.outstanding channel tag other h
  · intro other outcome h
    rw [hawaited]
    exact hinv.settled other outcome h
  · intro other args tag outcome h
    rw [setCall_calls] at h
    split at h
    · exact hended args tag outcome (Option.some.inj h)
    · exact hinv.ended other args tag outcome h
  · intro other hother
    refine hinv.unwritten other ?_
    rw [Machine.Unpublished, setCall_calls, setCall_requestOf] at hother
    split at hother
    · rename_i heq
      rw [heq]
      exact hunpublished (hother.resolve_left (by simp))
    · exact hother
  · intro other channel h
    rw [setCall_requestOf] at h
    split at h
    · exact hselecting channel h
    · exact hinv.selecting other channel h
  · intro other args props h
    rw [setCall_nextOf] at h
    rw [setCall_requestOf]
    split at h
    · rw [if_pos ‹_›]
      exact hencodable args props h
    · rw [if_neg ‹_›]
      exact hinv.encodable other args props h

theorem CountInv.setDone (hinv : CountInv m) (hawaited : m.awaited id = none)
    (outcome : Except Exc (Option Text)) : CountInv (m.setCall id (.done none outcome)) :=
  hinv.setCall hawaited.symm (by simp) (by simp [Phase.request]) (by simp [Phase.request])
    (by simp [Phase.next])

theorem trackerOf_registered (conn : Conn) (id : CallId) (args : PublishArgs) (channel : Int) :
    (conn.registered id args).trackerOf channel =
      if channel = args.channel then (conn.trackerOf channel).handOut id else conn.trackerOf channel := by
  rw [Conn.registered, recordTag_trackerOf, Conn.handOut]
  by_cases h : channel = args.channel
  · rw [if_pos h, h, Conn.trackerOf_setTracker]
  · rw [if_neg h, Conn.trackerOf_setTracker_of_ne _ (Ne.symm h)]

@[simp] theorem confirms_registered (conn : Conn) (id : CallId) (args : PublishArgs) :
    (conn.registered id args).confirms = conn.confirms := by
  by_cases h : args.mandatory <;> simp [Conn.registered, Conn.recordTag, h, Conn.recordMandatory,
    Conn.handOut, Conn.setTracker]

/-- Enabling a tracker keeps the counters together when its counter is at its start. -/
theorem CountInv.enable (hinv : CountInv m) {channel : Int}
    (hselected : selected channel m.conn.written = true)
    (hnext : (m.conn.trackerOf channel).nextTag = 1) :
    CountInv (m.setConn (m.conn.setTracker channel (m.conn.trackerOf channel).enable)) := by
  have htracker (other : Int) : (m.conn.setTracker channel (m.conn.trackerOf channel).enable).trackerOf
      other = if other = channel then (m.conn.trackerOf other).enable else m.conn.trackerOf other := by
    by_cases h : other = channel
    · rw [if_pos h, h, Conn.trackerOf_setTracker]
    · rw [if_neg h, Conn.trackerOf_setTracker_of_ne _ (Ne.symm h)]
  have hempty : numbered channel m.conn.written = [] := by
    cases henabled : (m.conn.trackerOf channel).enabled with
    | true =>
      have hlen := (hinv.enabled channel henabled).2
      rw [hnext] at hlen
      exact List.length_eq_zero_iff.mp (by omega)
    | false => exact hinv.disabled channel henabled
  refine
    { enabled := ?_, disabled := ?_, tagged := hinv.tagged, outstanding := ?_,
      settled := hinv.settled, ended := hinv.ended, unwritten := hinv.unwritten,
      selecting := hinv.selecting, encodable := hinv.encodable }
  · intro other h
    rw [setConn_conn, htracker] at h ⊢
    split at h
    · rename_i heq
      rw [if_pos heq, heq]
      exact ⟨hselected, by simp [Conn.setTracker, ConfirmTracker.enable, hempty]⟩
    · rw [if_neg ‹_›]
      exact hinv.enabled other h
  · intro other h
    rw [setConn_conn, htracker] at h
    split at h
    · cases h
    · exact hinv.disabled other h
  · intro other tag id h
    rw [setConn_conn, htracker] at h
    split at h <;> exact hinv.outstanding other tag id h

theorem CountInv.receive (hinv : CountInv m) (f : Frame) :
    CountInv { m with received := m.received ++ [f] } where
  enabled := hinv.enabled
  disabled := hinv.disabled
  tagged := hinv.tagged
  outstanding := hinv.outstanding
  settled id outcome h := by
    obtain ⟨args, tag, hawaited, hsettled⟩ := hinv.settled id outcome h
    exact ⟨args, tag, hawaited, hsettled.mono⟩
  ended id args tag outcome h := (hinv.ended id args tag outcome h).mono
  unwritten := hinv.unwritten
  selecting := hinv.selecting
  encodable := hinv.encodable

end Rules

/-! ## A publish takes its number -/

/-- The publish has been written under its tag. -/
def Machine.published (m : Machine) (id : CallId) (args : PublishArgs) (frames : List Frame) : Machine :=
  (m.setConn ((m.conn.registered id args).append id frames)).setCall id
    (.publishDraining args (some (m.conn.trackerOf args.channel).nextTag))

section Published

variable {m : Machine} {id other : CallId} {args args' : PublishArgs} {props : Properties} {frames : List Frame}
  {channel : Int} {tag : Nat}

theorem published_written : (m.published id args frames).conn.written =
    m.conn.written ++ frames.map (Sent.mk (some id)) := by
  simp [Machine.published]

theorem published_trackerOf : (m.published id args frames).conn.trackerOf channel =
    if channel = args.channel then (m.conn.trackerOf channel).handOut id else m.conn.trackerOf channel :=
  trackerOf_registered m.conn id args channel

theorem published_awaited : (m.published id args frames).awaited other =
    if other = id then some (args, (m.conn.trackerOf args.channel).nextTag) else m.awaited other := by
  rw [Machine.published, setCall_awaited]
  rfl

/-- Of what is awaited only the new publish has the tag that is handed out. -/
theorem awaited_published_cases (h : (m.published id args frames).awaited other = some (args', tag)) :
    other = id ∧ args' = args ∧ tag = (m.conn.trackerOf args.channel).nextTag ∨
      other ≠ id ∧ m.awaited other = some (args', tag) := by
  rw [published_awaited] at h
  split at h
  · cases h
    exact .inl ⟨‹_›, rfl, rfl⟩
  · exact .inr ⟨‹_›, h⟩

theorem awaited_published (hunpublished : m.Unpublished id) (h : m.awaited other = some (args', tag)) :
    (m.published id args frames).awaited other = some (args', tag) := by
  have hne : other ≠ id := by
    rintro rfl
    rw [awaited_of_unpublished hunpublished] at h
    cases h
  rw [published_awaited, if_neg hne, h]

theorem CountInv.enabled_published (hinv : CountInv m) (henabled : (m.conn.trackerOf args.channel).enabled = true)
    (hframes : contentFrames m.conn.frameMax args props = some frames)
    (h : ((m.published id args frames).conn.trackerOf channel).enabled = true) :
    selected channel (m.published id args frames).conn.written = true ∧
      ((m.published id args frames).conn.trackerOf channel).nextTag =
        (numbered channel (m.published id args frames).conn.written).length + 1 := by
  obtain ⟨method, hnumbered⟩ := numbered_content hframes m.conn.written id
  rw [published_trackerOf] at h ⊢
  rw [published_written, selected_append, hnumbered]
  by_cases hchannel : channel = args.channel
  · subst hchannel
    obtain ⟨hselected, hnext⟩ := hinv.enabled args.channel henabled
    rw [if_pos rfl, hselected, if_pos ⟨rfl, rfl⟩, List.length_append, ConfirmTracker.handOut, hnext]
    exact ⟨rfl, rfl⟩
  · rw [if_neg hchannel] at h ⊢
    obtain ⟨hselected, hnext⟩ := hinv.enabled channel h
    rw [hselected, if_neg (by simp [hchannel])]
    exact ⟨rfl, hnext⟩

theorem CountInv.disabled_published (hinv : CountInv m) (henabled : (m.conn.trackerOf args.channel).enabled = true)
    (hframes : contentFrames m.conn.frameMax args props = some frames)
    (h : ((m.published id args frames).conn.trackerOf channel).enabled = false) :
    numbered channel (m.published id args frames).conn.written = [] := by
  obtain ⟨method, hnumbered⟩ := numbered_content hframes m.conn.written id
  rw [published_trackerOf] at h
  rw [published_written, hnumbered]
  by_cases hchannel : channel = args.channel
  · rw [if_pos hchannel, hchannel] at h
    exact absurd (henabled.symm.trans h) (by simp)
  · rw [if_neg hchannel] at h
    rw [if_neg (by simp [hchannel])]
    exact hinv.disabled channel h

/-- The tag that is handed out is the number that the written publish gets. -/
theorem CountInv.tagged_published (hinv : CountInv m) (hunpublished : m.Unpublished id)
    (henabled : (m.conn.trackerOf args.channel).enabled = true)
    (hframes : contentFrames m.conn.frameMax args props = some frames)
    (h : (m.published id args frames).awaited other = some (args', tag)) :
    publishNumber args'.channel (m.published id args frames).conn.written other = some tag := by
  obtain ⟨method, hnumbered⟩ := numbered_content hframes m.conn.written id
  obtain ⟨hselected, hnext⟩ := hinv.enabled args.channel henabled
  rw [published_written]
  rcases awaited_published_cases h with ⟨rfl, rfl, rfl⟩ | ⟨-, hold⟩
  · have hnew := hnumbered args'.channel
    rw [if_pos ⟨hselected, rfl⟩] at hnew
    rw [hnext]
    exact publishNumber_new hnew (hinv.unwritten _ hunpublished _)
  · exact publishNumber_append (hinv.tagged other args' tag hold)

theorem CountInv.outstanding_published (hinv : CountInv m) (hunpublished : m.Unpublished id)
    (h : ((m.published id args frames).conn.trackerOf channel).outstanding.get? tag = some other) :
    ∃ args', (m.published id args frames).awaited other = some (args', tag) ∧ args'.channel = channel := by
  have hold (h : (m.conn.trackerOf channel).outstanding.get? tag = some other) :
      ∃ args', (m.published id args frames).awaited other = some (args', tag) ∧ args'.channel = channel := by
    obtain ⟨args', hawaited, hchannel⟩ := hinv.outstanding channel tag other h
    exact ⟨args', awaited_published hunpublished hawaited, hchannel⟩
  rw [published_trackerOf] at h
  split at h
  · rename_i hchannel
    rw [ConfirmTracker.handOut, Dict.get?_set] at h
    split at h
    · rename_i htag
      cases h
      exact ⟨args, by rw [published_awaited, if_pos rfl, ← htag, hchannel], hchannel.symm⟩
    · exact hold h
  · exact hold h

theorem CountInv.unwritten_published (hinv : CountInv m)
    (hframes : contentFrames m.conn.frameMax args props = some frames)
    (hother : (m.published id args frames).Unpublished other) :
    ∀ s ∈ numbered channel (m.published id args frames).conn.written, s.caller ≠ some other := by
  intro s hs
  obtain ⟨method, hnumbered⟩ := numbered_content hframes m.conn.written id
  rw [published_written, hnumbered] at hs
  rw [Machine.published, Machine.Unpublished, setCall_calls, setCall_requestOf] at hother
  split at hother
  · exact absurd hother (by simp [Phase.request])
  · rename_i hne
    have hold := hinv.unwritten other hother channel
    split at hs
    · rcases List.mem_append.mp hs with hs | hs
      · exact hold s hs
      · rw [List.mem_singleton.mp hs]
        exact fun heq => hne (Option.some.inj heq).symm
    · exact hold s hs

theorem CountInv.publish (hinv : CountInv m) (hunpublished : m.Unpublished id)
    (henabled : (m.conn.trackerOf args.channel).enabled = true)
    (hframes : contentFrames m.conn.frameMax args props = some frames) : CountInv (m.published id args frames) where
  enabled channel h := hinv.enabled_published henabled hframes h
  disabled channel h := hinv.disabled_published henabled hframes h
  tagged other args' tag h := hinv.tagged_published hunpublished henabled hframes h
  outstanding channel tag other h := hinv.outstanding_published hunpublished h
  settled other outcome h := by
    have hold : m.conn.confirms other = some outcome := (confirms_registered m.conn id args).symm ▸ h
    obtain ⟨args', tag, hawaited, hsettled⟩ := hinv.settled other outcome hold
    exact ⟨args', tag, awaited_published hunpublished hawaited, hsettled⟩
  ended other args' tag outcome h := by
    rw [Machine.published, setCall_calls] at h
    split at h
    · cases h
    · exact hinv.ended other args' tag outcome h
  unwritten other hother channel := hinv.unwritten_published hframes hother
  selecting other channel h := by
    rw [Machine.published, setCall_requestOf] at h
    split at h
    · cases h
    · rw [published_written, selected_append, hinv.selecting other channel h, Bool.true_or]
  encodable other args' props' h := by
    rw [Machine.published, setCall_nextOf] at h
    rw [Machine.published, setCall_requestOf]
    split at h
    · cases h
    · rw [if_neg ‹_›]
      simpa using hinv.encodable other args' props' h

end Published

section Reading

variable {m : Machine} {f : Frame}

theorem trackerOf_mapValues_failAll (conn : Conn) (channel : Int) :
    let failed : Conn := { conn with confirm := conn.confirm.mapValues fun t => t.failAll.2 }
    (failed.trackerOf channel).enabled = (conn.trackerOf channel).enabled ∧
      (failed.trackerOf channel).nextTag = (conn.trackerOf channel).nextTag ∧
      (failed.trackerOf channel).outstanding = .empty := by
  simp only [Conn.trackerOf, Dict.get?_mapValues]
  cases conn.confirm.get? channel <;> simp [ConfirmTracker.failAll]

theorem notifyLoss_quiet (m : Machine) (exc : Exc) (hinv : CountInv m) :
    QuietChange m (m.conn.notifyLoss exc) := by
  unfold Conn.notifyLoss
  split
  · exact .of_unwritten rfl rfl (fun _ => rfl) rfl
  · have htracker := trackerOf_mapValues_failAll m.conn
    refine
      { frameMax := rfl, log := ⟨[], (List.append_nil _).symm⟩, numbered := fun _ => rfl,
        enabled := fun channel => (htracker channel).1, nextTag := fun channel => (htracker channel).2.1,
        outstanding := ?_, confirms := ?_ }
    · intro channel tag id h
      have hempty := (htracker channel).2.2
      simp only [Conn.trackerOf] at h hempty
      rw [hempty] at h
      cases h
    · intro id outcome h
      rcases settle_eq_some_iff.mp h with hold | ⟨-, hmem, rfl⟩
      · exact .inl hold
      · obtain ⟨tracker, htracker, hid⟩ := List.mem_flatMap.mp hmem
        obtain ⟨channel, hchannel⟩ := Dict.mem_values_iff.mp htracker
        obtain ⟨tag, htag⟩ := Dict.mem_values_iff.mp hid
        have hget : (m.conn.trackerOf channel).outstanding.get? tag = some id := by
          rw [Conn.trackerOf, hchannel]
          exact htag
        obtain ⟨args, hawaited, -⟩ := hinv.outstanding channel tag id hget
        refine .inr ⟨args, tag, hawaited, ?_⟩
        cases exc <;> trivial

theorem endReader_quiet (hinv : CountInv m) (exc : Exc) : QuietChange m (m.conn.endReader exc) :=
  have h := notifyLoss_quiet m exc hinv
  { frameMax := h.frameMax, log := h.log, numbered := h.numbered, enabled := h.enabled,
    nextTag := h.nextTag, outstanding := h.outstanding, confirms := h.confirms }

theorem settleConfirms_quiet (hinv : CountInv m) {method : Method} {deliveryTag : Nat}
    {multiple : Bool} {outcome : Except Exc Unit} (hmem : f ∈ m.received)
    (htype : f.frameType = .method) (hmethod : decodeMethod f.payload = .ok method)
    (hconfirm : confirmOf method = some (deliveryTag, multiple, outcome)) :
    QuietChange m ((m.conn.clearMandatoryTags f.channel deliveryTag multiple).settleConfirms
      f.channel deliveryTag multiple outcome) := by
  obtain ⟨mandatoryTags, hclear⟩ := m.conn.clearMandatoryTags_eq f.channel deliveryTag multiple
  rw [hclear]
  have htracker (channel : Int) : (Conn.settleConfirms { m.conn with mandatoryTags } f.channel
      deliveryTag multiple outcome).trackerOf channel = if channel = f.channel then
        ((m.conn.trackerOf channel).resolve deliveryTag multiple).2 else m.conn.trackerOf channel := by
    by_cases h : channel = f.channel
    · rw [if_pos h, h]
      exact Conn.trackerOf_setTracker _ _ _
    · rw [if_neg h]
      exact Conn.trackerOf_setTracker_of_ne _ (Ne.symm h) _
  refine
    { frameMax := rfl, log := ⟨[], (List.append_nil _).symm⟩, numbered := fun _ => rfl,
      enabled := fun channel => ?_, nextTag := fun channel => ?_, outstanding := ?_, confirms := ?_ }
  · rw [htracker]
    split <;> rfl
  · rw [htracker]
    split <;> rfl
  · intro channel tag id h
    rw [htracker] at h
    split at h
    · rw [ConfirmTracker.resolve, Dict.get?_keep] at h
      exact (Option.ite_none_right_eq_some.mp h).2
    · exact h
  · intro id done h
    rcases settle_eq_some_iff.mp h with hold | ⟨-, hfut, rfl⟩
    · exact .inl hold
    · obtain ⟨tag, hcovers, hget⟩ := ConfirmTracker.mem_resolve_iff.mp hfut
      obtain ⟨args, hawaited, hchannel⟩ := hinv.outstanding f.channel tag id hget
      refine .inr ⟨args, tag, hawaited, ?_⟩
      rw [hchannel]
      exact settled_of_confirmOf hmem htype hmethod hconfirm hcovers

theorem FrameTaken.quiet {conn' : Conn} (h : FrameTaken m.conn f conn') (hinv : CountInv m)
    (hmem : f ∈ m.received) : QuietChange m conn' := by
  cases h with
  | heartbeat htype => exact .of_unwritten rfl rfl (fun _ => rfl) rfl
  | confirmed htype hmethod hconfirm henabled =>
    exact settleConfirms_quiet hinv hmem htype hmethod hconfirm
  | replied htype hmethod hhandled hconfirm =>
    obtain ⟨replies, heq⟩ := m.conn.settleWaiter_eq f.channel _
    rw [heq]
    exact .of_unwritten rfl rfl (fun _ => rfl) rfl
  | blocked publishBlocked htype hmethod hhandled => exact .of_unwritten rfl rfl (fun _ => rfl) rfl
  | closing htype hmethod hframe =>
    exact .of_same rfl ⟨_, rfl⟩ (fun _ => numbered_append_request hframe (by decide)) (fun _ => rfl) rfl
  | continued hslot hremaining => exact .of_unwritten rfl rfl (fun _ => rfl) rfl
  | finished hslot hremaining =>
    obtain ⟨mandatoryTags, returnByTag, returns, deliveries, heq⟩ := m.conn.finishDelivery_eq f.channel _
    rw [heq]
    exact .of_unwritten rfl rfl (fun _ => rfl) rfl
  | ended hhandled => exact endReader_quiet hinv _

end Reading

end Nuropb.Transport
