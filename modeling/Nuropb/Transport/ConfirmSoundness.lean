import Nuropb.Library.Transition
import Nuropb.Transport.CountInvariant

/-! # Confirm soundness

The client counts the tags that it hands out, the broker the publishes that it reads. While the
two counters agree, the tag of a publish is its number, and its confirm is settled by an ack or
nack that covers that number.
-/
namespace Nuropb.Transport

open Library Protocol

/-- Every tag is the number of its publish, and every publish that has awaited its confirm ended
as a confirm for its number said. -/
structure ConfirmSound (m : Machine) : Prop where
  numbered : ∀ id phase args tag, m.calls id = some phase → phase.confirm = some (args, tag) →
    publishNumber args.channel m.conn.written id = some tag
  ended : ∀ id args tag outcome, m.calls id = some (.done (some (args, tag)) outcome) →
    ∃ number, publishNumber args.channel m.conn.written id = some number ∧
      Settled m.received args.channel number outcome

/-! ## Conditions on a step -/

def encodes (m : Machine) : Event → Bool
  | .publish _ args =>
    match args.effectiveProperties with
    | .ok props => (contentFrames m.conn.frameMax args props).isSome
    | .error _ => true
  | _ => true

/-- No publish goes without a tag after `confirm.select` was written, and a reply to
`confirm.select` finds the tracker's counter at its start. -/
def keepsCount (m : Machine) : Event → Bool
  | .publish _ args =>
    match contentOf m.conn args .call with
    | some (_, false) => !selected args.channel m.conn.written
    | _ => true
  | .wake id =>
    match m.calls id, m.conn.replies id with
    | some (.expecting (.confirmSelect channel) _), some (.ok _) =>
      (m.conn.trackerOf channel).nextTag = 1
    | _, _ => true
  | _ => true

/-- The broker confirms only numbers that it has given. -/
def confirmsNumbered (m : Machine) : Event → Bool
  | .frame f =>
    if f.frameType = .method then
      match decodeMethod f.payload with
      | .ok method =>
        match confirmOf method with
        | some (deliveryTag, _, _) =>
          0 < deliveryTag ∧ deliveryTag ≤ (Nuropb.Transport.numbered f.channel m.conn.written).length
        | none => true
      | .error _ => true
    else true
  | _ => true

/-! ## What the steps keep -/

section Steps

variable {m m' : Machine} {id : CallId} {args : PublishArgs} {props : Properties} {r : SyncRequest}
  {conn' : Conn}

theorem Conn.Refused.quiet (h : m.conn.Refused conn') : QuietChange m conn' := by
  obtain ⟨channels, confirm, rfl, htracker⟩ := h
  exact .of_unwritten rfl rfl htracker rfl

theorem SyncRequest.ids_ne_publish (r : SyncRequest) : r.method.ids ≠ (60, 40) := by
  cases r <;> simp [SyncRequest.method, Method.ids]

theorem asked_quiet (r : SyncRequest) {frame : Frame} (h : m.conn.Refused conn')
    (hframe : frameOf m.conn.frameMax .method r.channel (encodeMethod r.method) = some frame) :
    QuietChange m (conn'.append id [frame]) := by
  obtain ⟨channels, confirm, rfl, htracker⟩ := h
  exact .of_same rfl ⟨_, rfl⟩ (fun _ => numbered_append_request hframe r.ids_ne_publish) htracker rfl

theorem CountInv.ask (hinv : CountInv m) {next : Option (PublishArgs × Properties)}
    (hunpublished : m.Unpublished id)
    (hselecting : ∀ channel, r = .confirmSelect channel → selected channel m.conn.written = true)
    (hencodable : ∀ args props, next = some (args, props) → r = .confirmSelect args.channel ∧
      (contentFrames m.conn.frameMax args props).isSome = true) : CountInv (m.ask id r next) := by
  have hcall : CountInv (m.setCall id (.draining r next)) := by
    refine hinv.setCall (awaited_of_unpublished hunpublished).symm (by simp) (fun _ => hunpublished)
      (fun channel hrequest => hselecting channel (Option.some.inj hrequest)) ?_
    intro args props hnext
    obtain ⟨hr, hsome⟩ := hencodable args props hnext
    exact ⟨congrArg some hr, hsome⟩
  exact hcall.congr rfl rfl rfl

theorem CountInv.finishConfirm (hinv : CountInv m) {tag : Nat} (hawaited : m.awaited id = some (args, tag))
    (hacks : Acks m.received args.channel tag) : CountInv (m.finishConfirm id args tag) := by
  have hdone {mid : Machine} (hmid : CountInv mid) (hsame : mid.awaited id = some (args, tag))
      {outcome : Except Exc (Option Text)} (hsettled : Settled mid.received args.channel tag outcome) :
      CountInv (mid.setCall id (.done (some (args, tag)) outcome)) := by
    refine hmid.setCall hsame.symm ?_ (by simp [Phase.request]) (by simp [Phase.request])
      (by simp [Phase.next])
    intro args' tag' outcome' heq
    cases heq
    exact hsettled
  have hpop : QuietChange m (m.conn.popReturn args.channel tag).2 := by
    unfold Conn.popReturn
    split <;> exact .of_unwritten rfl rfl (fun _ => rfl) rfl
  unfold Machine.finishConfirm
  split
  · split
    · rename_i returned conn heq
      rw [heq] at hpop
      exact hdone (hinv.setConn hpop) hawaited trivial
    · rename_i conn heq
      rw [heq] at hpop
      exact hdone (hinv.setConn hpop) hawaited hacks
  · exact hdone hinv hawaited hacks

/-- A publish ends as its confirm says, which was settled for its own number. -/
theorem CountInv.afterDrain (hinv : CountInv m) {tag : Option Nat}
    (hawaited : m.awaited id = tag.map fun t => (args, t)) : CountInv (m.afterDrain id args tag) := by
  cases tag with
  | none => exact hinv.setDone hawaited _
  | some t =>
    have hsame : m.awaited id = some (args, t) := hawaited
    rw [Machine.afterDrain, Machine.awaitConfirm]
    cases hconfirm : m.conn.confirms id with
    | none =>
      exact hinv.setCall hsame.symm (by simp) (by simp [Phase.request]) (by simp [Phase.request])
        (by simp [Phase.next])
    | some outcome =>
      obtain ⟨args', tag', hsettled, hnumber⟩ := hinv.settled id outcome hconfirm
      rw [hsame] at hsettled
      cases hsettled
      cases outcome with
      | ok u => exact hinv.finishConfirm hsame hnumber
      | error e =>
        refine hinv.setCall hsame.symm ?_ (by simp [Phase.request]) (by simp [Phase.request])
          (by simp [Phase.next])
        intro args' tag' outcome heq
        cases heq
        cases e <;> exact hnumber

theorem props_of_contentOf {entry : PublishEntry} {confirmed : Bool}
    (hcontent : contentOf conn' args entry = some (props, confirmed)) :
    entry = .call ∧ args.effectiveProperties = .ok props ∨ entry = .afterSelect props := by
  cases entry with
  | call =>
    simp only [contentOf, Option.ite_none_right_eq_some, Option.bind_eq_some_iff,
      toOption_eq_some] at hcontent
    grind
  | afterSelect props' =>
    simp only [contentOf, Option.ite_none_right_eq_some, Option.some.injEq, Prod.mk.injEq] at hcontent
    exact .inr (by rw [hcontent.2.1])

theorem unnumbered_quiet (id : CallId) {frames : List Frame}
    (hframes : contentFrames m.conn.frameMax args props = some frames)
    (hselected : selected args.channel m.conn.written = false) : QuietChange m (m.conn.append id frames) := by
  obtain ⟨method, hnumbered⟩ := numbered_content hframes m.conn.written id
  refine .of_same rfl ⟨_, rfl⟩ (fun channel => ?_) (fun _ => rfl) rfl
  rw [Conn.append_written, hnumbered]
  refine if_neg ?_
  rintro ⟨htrue, rfl⟩
  rw [hselected] at htrue
  cases htrue

/-- What a segment of a publish comes to keeps the invariant if all of its frames encode and it
publishes without a tag only before `confirm.select`. -/
theorem CountInv.publishReached (hinv : CountInv m) {entry : PublishEntry} (hunpublished : m.Unpublished id)
    (hencodes : ∀ props, entry = .call ∧ args.effectiveProperties = .ok props ∨
      entry = .afterSelect props → (contentFrames m.conn.frameMax args props).isSome = true)
    (hkeeps : ∀ props, contentOf m.conn args entry = some (props, false) →
      selected args.channel m.conn.written = false) :
    CountInv (m.publishReached id args (publishSegment id args entry m.conn)) := by
  have hnone := awaited_of_unpublished hunpublished
  have hwritten {tag : Option Nat} {conn : Conn}
      (hreached : CountInv ((m.setConn conn).setCall id (.publishDraining args tag))) :
      CountInv (m.publishReached id args (.ok (.written tag) conn)) := by
    rw [Machine.publishReached]
    split
    · exact hreached
    · rw [← afterDrain_setCall _ _ (.publishDraining args tag)]
      refine hreached.afterDrain ?_
      rw [setCall_awaited, if_pos rfl, Phase.confirm]
  have hreached := publishSegment_reached id args entry m.conn
  generalize publishSegment id args entry m.conn = result at hreached ⊢
  cases hreached with
  | refused hrefused => exact (hinv.setConn hrefused.quiet).setDone hnone _
  | selecting hentry hprops hframe =>
    have hquiet : QuietChange m ((m.conn.setTracker args.channel
        (m.conn.trackerOf args.channel)).append id [_]) :=
      asked_quiet (.confirmSelect args.channel)
        ⟨_, _, rfl, fun c => Conn.trackerOf_setTracker_same m.conn args.channel c⟩ hframe
    refine (hinv.setConn hquiet).ask hunpublished ?_ ?_
    · rintro channel ⟨⟩
      exact selected_of_selectFrame hframe
    · rintro args' props' ⟨⟩
      exact ⟨rfl, hencodes _ (.inl ⟨hentry, hprops⟩)⟩
  | written hcontent hframes =>
    rename_i props confirmed frames
    refine hwritten ?_
    cases confirmed with
    | true => exact hinv.publish hunpublished (enabled_of_contentOf hcontent rfl) hframes
    | false =>
      have hquiet := unnumbered_quiet id hframes (hkeeps _ hcontent)
      exact (hinv.setConn hquiet).setCall hnone.symm (by simp) (by simp [Phase.request])
        (by simp [Phase.request]) (by simp [Phase.next])
  | broken hcontent hframes =>
    have hsome := hencodes _ (props_of_contentOf hcontent)
    rw [hframes] at hsome
    cases hsome

theorem CountInv.requestReached (hinv : CountInv m) (r : SyncRequest) (hnew : m.calls id = none) :
    CountInv (m.requestReached id r (r.start id m.conn)) := by
  have hunpublished : m.Unpublished id := .inl hnew
  have hnone := awaited_of_unpublished hunpublished
  have hreached := SyncRequest.start_reached id r m.conn
  generalize r.start id m.conn = result at hreached ⊢
  cases hreached with
  | refused hrefused => exact (hinv.setConn hrefused.quiet).setDone hnone _
  | immediate hselect hrefused => exact (hinv.setConn hrefused.quiet).setDone hnone _
  | asked hrefused hframe =>
    refine (hinv.setConn (asked_quiet r hrefused hframe)).ask hunpublished ?_ (by simp)
    rintro channel rfl
    exact selected_of_selectFrame hframe

/-- A reply either enables the tracker while its counter is at its start, or changes no tracker. -/
theorem CountInv.answered (hinv : CountInv m) {next : Option (PublishArgs × Properties)} {reply : Method}
    (hcall : m.calls id = some (.expecting r next))
    (hkeeps : ∀ channel, r = .confirmSelect channel → (m.conn.trackerOf channel).nextTag = 1) :
    CountInv (m.answered id r next reply) := by
  have hrequest : m.requestOf id = some r := by
    rw [Machine.requestOf, hcall]
    rfl
  have hnext : m.nextOf id = next := by
    rw [Machine.nextOf, hcall]
    rfl
  have hunpublished : m.Unpublished id := .inr (by rw [hrequest]; rfl)
  have hnone := awaited_of_unpublished hunpublished
  rw [Machine.answered]
  by_cases hselect : ∃ channel, r = .confirmSelect channel
  · obtain ⟨channel, rfl⟩ := hselect
    rw [SyncRequest.finish, finishConfirmSelect, bind_run_ok (modify_run _ _)]
    have henable := hinv.enable (hinv.selecting id channel hrequest) (hkeeps channel rfl)
    cases next with
    | none => exact (henable.endRequest id _).setDone hnone _
    | some content =>
      obtain ⟨args, props⟩ := content
      obtain ⟨hchannel, hsome⟩ := hinv.encodable id args props hnext
      rw [hrequest] at hchannel
      cases hchannel
      refine (henable.endRequest id (.ok none)).publishReached hunpublished ?_ ?_
      · rintro props' (⟨⟨⟩, -⟩ | ⟨⟨⟩⟩)
        exact hsome
      · intro props' hcontent
        simp [contentOf] at hcontent
  · have hlast : next = none := by
      cases next with
      | none => rfl
      | some content =>
        have hchannel := (hinv.encodable id _ _ hnext).1
        rw [hrequest] at hchannel
        exact absurd ⟨_, Option.some.inj hchannel⟩ hselect
    rw [SyncRequest.finish_of_ne_select hselect, hlast]
    cases r.result reply with
    | ok result => exact (hinv.endRequest id _).setDone hnone _
    | error e => exact (hinv.endRequest id _).setDone hnone _

theorem CountInv.expected (hinv : CountInv m) {next : Option (PublishArgs × Properties)}
    {outcome : Except Exc Method} (hcall : m.calls id = some (.expecting r next))
    (hkeeps : ∀ channel reply, r = .confirmSelect channel → outcome = .ok reply →
      (m.conn.trackerOf channel).nextTag = 1) : CountInv (m.expected id r next outcome) := by
  have hforget : CountInv (m.forgetWaiter r.key) :=
    hinv.setConn (.of_unwritten rfl rfl (fun _ => rfl) rfl)
  cases outcome with
  | ok reply => exact hforget.answered hcall fun channel hr => hkeeps channel reply hr rfl
  | error e =>
    refine (hforget.endRequest id _).setDone ?_ _
    change (m.calls id).bind Phase.confirm = none
    rw [hcall]
    rfl

theorem CountInv.drained (hinv : CountInv m) {failure : Option Interrupt}
    (h : m.drained id failure = some m') : CountInv m' := by
  unfold Machine.drained at h
  split at h
  · rename_i r next hcall
    cases h
    have hquiet : QuietChange m { m.conn with waiters := m.conn.waiters.set r.key id } :=
      .of_unwritten rfl rfl (fun _ => rfl) rfl
    have hrequest : m.requestOf id = some r := by
      rw [Machine.requestOf, hcall]
      rfl
    refine (hinv.setConn hquiet).setCall ?_ (by simp) (fun _ => ?_) (fun channel heq => ?_)
      (fun args props heq => ?_)
    · rw [setConn_awaited, Machine.awaited, hcall]
      rfl
    · exact .inr (by rw [setConn_requestOf, hrequest]; rfl)
    · exact hinv.selecting id channel (hrequest.trans heq)
    · have hnext : m.nextOf id = some (args, props) := by
        rw [Machine.nextOf, hcall]
        exact heq
      obtain ⟨hr, hsome⟩ := hinv.encodable id args props hnext
      exact ⟨hrequest.symm.trans hr, hsome⟩
  · rename_i r next i hcall
    cases h
    refine hinv.setDone ?_ _
    rw [Machine.awaited, hcall]
    rfl
  · rename_i args tag hcall
    cases h
    refine hinv.afterDrain ?_
    rw [Machine.awaited, hcall]
    rfl
  · rename_i args tag i hcall
    cases h
    have hawaited : m.awaited id = tag.map fun t => (args, t) := by
      rw [Machine.awaited, hcall]
      rfl
    refine hinv.setCall hawaited.symm ?_ (by simp [Phase.request]) (by simp [Phase.request])
      (by simp [Phase.next])
    intro args' tag' outcome heq
    cases tag with
    | none => cases heq
    | some t =>
      cases heq
      cases i <;> trivial
  · cases h

theorem CountInv.wake (hinv : CountInv m) (hkeeps : keepsCount m (.wake id) = true)
    (h : m.wake id = some m') : CountInv m' := by
  unfold Machine.wake at h
  split at h
  · rename_i r next hcall
    obtain ⟨outcome, houtcome, rfl⟩ := Option.map_eq_some_iff.mp h
    refine hinv.expected hcall ?_
    rintro channel reply rfl rfl
    simpa [keepsCount, hcall, houtcome] using hkeeps
  · rename_i args tag hcall
    obtain ⟨-, ⟨⟩⟩ := Option.ite_none_right_eq_some.mp h
    have hawaited : m.awaited id = (some tag).map fun t => (args, t) := by
      rw [Machine.awaited, hcall]
      rfl
    exact hinv.afterDrain hawaited
  · cases h

theorem CountInv.step {e : Event} (hinv : CountInv m) (hencodes : encodes m e = true)
    (hkeeps : keepsCount m e = true) (h : m.step e = some m') : CountInv m' := by
  cases e with
  | request id r =>
    obtain ⟨hnew, ⟨⟩⟩ := Option.ite_none_right_eq_some.mp h
    exact hinv.requestReached r hnew
  | publish id args =>
    obtain ⟨hnew, ⟨⟩⟩ := Option.ite_none_right_eq_some.mp h
    refine hinv.publishReached (.inl hnew) ?_ ?_
    · rintro props (⟨-, hprops⟩ | ⟨⟨⟩⟩)
      simpa [encodes, hprops] using hencodes
    · intro props hcontent
      simpa [keepsCount, hcontent] using hkeeps
  | drained id failure => exact hinv.drained h
  | wake id => exact hinv.wake hkeeps h
  | deadline id =>
    simp only [Machine.step, Machine.deadline] at h
    split at h
    · cases h
      have hsettle : CountInv (m.settleReply id (.error .timeoutError)) :=
        hinv.setConn (.of_unwritten rfl rfl (fun _ => rfl) rfl)
      exact hsettle.congr rfl rfl rfl
    · cases h
  | cancel id =>
    simp only [Machine.step, Machine.cancel] at h
    split at h
    · cases h
      exact hinv.setConn (.of_unwritten rfl rfl (fun _ => rfl) rfl)
    · rename_i args tag hcall
      cases h
      refine hinv.setConn
        { frameMax := rfl, log := ⟨[], (List.append_nil _).symm⟩, numbered := fun _ => rfl,
          enabled := fun _ => rfl, nextTag := fun _ => rfl, outstanding := fun _ _ _ hget => hget,
          confirms := ?_ }
      intro other outcome (hother : (if other = id then some (.error .cancelledError) else
        m.conn.confirms other) = some outcome)
      by_cases heq : other = id
      · rw [if_pos heq] at hother
        cases hother
        exact .inr ⟨args, tag, by rw [heq, Machine.awaited, hcall]; rfl, trivial⟩
      · rw [if_neg heq] at hother
        exact .inl hother
    · cases h
  | frame f =>
    obtain ⟨-, ⟨⟩⟩ := Option.ite_none_right_eq_some.mp h
    have hmem : f ∈ m.received ++ [f] := List.mem_append_right _ List.mem_cons_self
    have htaken : FrameTaken { m with received := m.received ++ [f] }.conn f (m.conn.readFrame f) :=
      readFrame_taken m.conn f
    exact ((hinv.receive f).setConn (htaken.quiet (hinv.receive f) hmem)).congr rfl rfl rfl
  | closeDrained =>
    simp only [Machine.step] at h
    split at h
    · cases h
      exact hinv.setConn (endReader_quiet hinv _)
    · cases h
  | eof =>
    obtain ⟨-, ⟨⟩⟩ := Option.ite_none_right_eq_some.mp h
    exact hinv.setConn (endReader_quiet hinv _)
  | lose exc =>
    cases h
    exact hinv.setConn (notifyLoss_quiet m exc hinv)

end Steps

/-! ## Runs -/

theorem trackerOf_opened (frameMax : Nat) (h : frameMax < 2 ^ 32) (channels : List Int) (channel : Int) :
    (Conn.opened frameMax h channels).trackerOf channel = {} := by
  rw [Conn.trackerOf, Conn.opened, Dict.get?_fill]
  split <;> rfl

theorem CountInv.opened (frameMax : Nat) (h : frameMax < 2 ^ 32) (channels : List Int) :
    CountInv (Machine.opened frameMax h channels) where
  enabled channel henabled := by
    rw [Machine.opened, trackerOf_opened] at henabled
    cases henabled
  disabled channel _ := rfl
  tagged id args tag hawaited := by cases hawaited
  outstanding channel tag id hget := by
    rw [Machine.opened, trackerOf_opened] at hget
    cases hget
  settled id outcome hconfirm := by cases hconfirm
  ended id args tag outcome hcall := by cases hcall
  unwritten id _ channel s hs := by cases hs
  selecting id channel hrequest := by cases hrequest
  encodable id args props hnext := by cases hnext

theorem CountInv.sound {m : Machine} (hinv : CountInv m) : ConfirmSound m where
  numbered id phase args tag hcall hconfirm := by
    refine hinv.tagged id args tag ?_
    rw [Machine.awaited, hcall]
    exact hconfirm
  ended id args tag outcome hcall := by
    have hawaited : m.awaited id = some (args, tag) := by
      rw [Machine.awaited, hcall]
      rfl
    exact ⟨tag, hinv.tagged id args tag hawaited, hinv.ended id args tag outcome hcall⟩

/-- In every run whose publishes encode and whose steps keep the count, publisher confirms are
sound. -/
theorem confirms_sound (frameMax : Nat) (hframeMax : frameMax < 2 ^ 32) (channels : List Int) {m : Machine}
    (h : ReachesWhere Machine.step (fun m e => encodes m e = true ∧ keepsCount m e = true)
      (Machine.opened frameMax hframeMax channels) m) : ConfirmSound m := by
  have hinv : CountInv m := h.invariant (CountInv.opened frameMax hframeMax channels)
    fun _ _ _ hinv hok hstep => hinv.step hok.1 hok.2 hstep
  exact hinv.sound

def confirmedPublish (confirm : Bool) : PublishArgs where
  channel := 1
  body := [104, 105]
  confirm := some confirm

def selectOk : Frame := ⟨.method, 1, [0, 85, 0, 11]⟩

def ack (deliveryTag : UInt8) (multiple : Bool) : Frame :=
  ⟨.method, 1, [0, 60, 0, 80, 0, 0, 0, 0, 0, 0, 0, deliveryTag, if multiple then 1 else 0]⟩

def firstConfirmed : List Event :=
  [.publish 0 (confirmedPublish true), .drained 0 none, .frame selectOk, .wake 0]

def bothAcked : List Event := firstConfirmed ++
  [.publish 1 (confirmedPublish true), .drained 0 none, .drained 1 none, .frame (ack 2 true), .wake 0,
    .wake 1]

theorem bothAcked_sound : ∃ m, run Machine.step openedOne bothAcked = some m ∧ ConfirmSound m := by
  obtain ⟨m, hm⟩ : ∃ m, run Machine.step openedOne bothAcked = some m :=
    Option.isSome_iff_exists.mp (by decide +kernel)
  exact ⟨m, hm, confirms_sound defaultFrameMax (by decide) [1] (reaches_of_run hm (by decide +kernel))⟩

/-- Between two confirmed publishes one goes without a tag. -/
def unconfirmedBetween : List Event := firstConfirmed ++
  [.publish 1 (confirmedPublish false), .publish 2 (confirmedPublish true), .drained 2 none,
    .frame (ack 2 false), .wake 2]

/-- The third publish takes the ack of the second for its own. -/
theorem confirms_not_sound : ¬∀ m, ReachesWhere Machine.step
    (fun m e => encodes m e = true ∧ confirmsNumbered m e = true) openedOne m → ConfirmSound m := by
  intro hsound
  have hrun : (run Machine.step openedOne unconfirmedBetween).any (fun m =>
      (m.awaited 2).map Prod.snd = some 2 ∧ publishNumber 1 m.conn.written 2 = some 3 ∧
        (m.awaited 2).map (fun confirm => confirm.1.channel) = some 1) = true := by decide +kernel
  obtain ⟨m, hm, hstate⟩ := (Option.any_eq_true _ _).mp hrun
  simp only [decide_eq_true_eq] at hstate
  obtain ⟨htag, hnumber, hchannel⟩ := hstate
  have h := hsound m (reaches_of_run hm (by decide +kernel))
  obtain ⟨⟨args, tag⟩, hawaited, rfl⟩ := Option.map_eq_some_iff.mp htag
  obtain ⟨phase, hcall, hconfirm⟩ := Option.bind_eq_some_iff.mp hawaited
  have htagged := h.numbered 2 phase args _ hcall hconfirm
  rw [hawaited, Option.map_some, Option.some.injEq] at hchannel
  rw [hchannel, hnumber] at htagged
  cases htagged

end Nuropb.Transport
