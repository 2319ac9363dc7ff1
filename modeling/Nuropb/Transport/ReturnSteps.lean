import Nuropb.Transport.ReturnReading

/-! # What tasks do to mandatory tags and returns

A task takes its own return when it resumes from its confirm, and ends as the broker said.
-/
namespace Nuropb.Transport

open Library Protocol

section Steps

variable {m m' : Machine} {ledger : Ledger} {id : CallId} {args : PublishArgs} {props : Properties}
  {r : SyncRequest} {conn' : Conn}

theorem ReturnInv.refused (hinv : ReturnInv m ledger) (h : m.conn.Refused conn') :
    ReturnInv (m.setConn conn') ledger := by
  have hquiet := h.quiet
  obtain ⟨channels, confirm, rfl, htracker⟩ := h
  exact hinv.setConn (.of_quiet hinv.count hquiet rfl rfl htracker rfl) rfl

theorem ReturnInv.request (hinv : ReturnInv m ledger) {frame : Frame} (h : m.conn.Refused conn')
    (hframe : frameOf m.conn.frameMax .method r.channel (encodeMethod r.method) = some frame) :
    ReturnInv (m.setConn (conn'.append id [frame])) ledger := by
  have hquiet : QuietChange m (conn'.append id [frame]) := asked_quiet r h hframe
  obtain ⟨channels, confirm, rfl, htracker⟩ := h
  exact hinv.setConn (.of_quiet hinv.count hquiet rfl rfl htracker rfl) rfl

theorem ReturnInv.setDone (hinv : ReturnInv m ledger) (hnone : m.awaited id = none)
    (outcome : Except Exc (Option Text)) : ReturnInv (m.setCall id (.done none outcome)) ledger :=
  hinv.setCall (hinv.count.setDone hnone outcome) hnone.symm (fun _ => ⟨_, _, rfl⟩) (by simp)

theorem ReturnInv.endRequest (hinv : ReturnInv m ledger) (id : CallId) (outcome : Except Exc (Option Text)) :
    ReturnInv (m.endRequest id outcome) ledger :=
  hinv.congr rfl rfl rfl

theorem unpublished_live (h : m.Unpublished id) (confirm : Option (PublishArgs × Nat))
    (outcome : Except Exc (Option Text)) : m.calls id ≠ some (.done confirm outcome) := by
  intro hdone
  rcases h with hnone | hrequest
  · rw [hdone] at hnone
    cases hnone
  · rw [Machine.requestOf, hdone] at hrequest
    cases hrequest

theorem ReturnInv.ask (hinv : ReturnInv m ledger) {next : Option (PublishArgs × Properties)}
    (hunpublished : m.Unpublished id) (hcount : CountInv (m.ask id r next)) :
    ReturnInv (m.ask id r next) ledger := by
  have hcall : ReturnInv (m.setCall id (.draining r next)) ledger := by
    refine hinv.setCall (hcount.congr rfl rfl rfl) (awaited_of_unpublished hunpublished).symm ?_ (by simp)
    rintro ⟨confirm, outcome, hdone⟩
    exact absurd hdone (unpublished_live hunpublished confirm outcome)
  exact hcall.congr rfl rfl rfl

theorem popReturn_eq (conn : Conn) (channel : Int) (tag : Nat) : ∃ returnByTag,
    conn.popReturn channel tag = (conn.returnOf channel tag, { conn with returnByTag }) ∧
      ∀ other number, { conn with returnByTag : Conn }.returnOf other number =
        if other = channel ∧ number = tag then none else conn.returnOf other number := by
  unfold Conn.popReturn
  cases hget : conn.returnByTag.get? channel with
  | none =>
    refine ⟨conn.returnByTag, by rw [Conn.returnOf, hget]; rfl, fun other number => ?_⟩
    split
    · rename_i heq
      rw [Conn.returnOf, heq.1, hget]
      rfl
    · rfl
  | some byTag =>
    refine ⟨_, by rw [Conn.returnOf, hget]; rfl, fun other number => ?_⟩
    rw [Conn.returnOf, Dict.get?_set]
    by_cases hother : channel = other
    · rw [if_pos hother, Option.bind_some, Dict.get?_erase, Conn.returnOf, ← hother, hget]
      by_cases hnumber : tag = number
      · rw [if_pos hnumber, if_pos ⟨rfl, hnumber.symm⟩]
      · rw [if_neg hnumber, if_neg fun hand => hnumber hand.2.symm]
        rfl
    · rw [if_neg hother, if_neg fun hand => hother hand.1.symm]
      rfl

theorem ReturnInv.collect (hinv : ReturnInv m ledger) {tag : Nat} {outcome : Except Exc (Option Text)}
    {returnByTag : Dict Int (Dict Nat ReturnedMessage)} (hawaited : m.awaited id = some (args, tag))
    (hreturnOf : ∀ other number, { m.conn with returnByTag : Conn }.returnOf other number =
      if other = args.channel ∧ number = tag then none else m.conn.returnOf other number)
    (hcount : CountInv ((m.setConn { m.conn with returnByTag }).setCall id (.done (some (args, tag)) outcome)))
    (hattributed : Attributed m ledger args tag outcome) :
    ReturnInv ((m.setConn { m.conn with returnByTag }).setCall id (.done (some (args, tag)) outcome)) ledger := by
  have hsame (other : CallId) : ((m.setConn { m.conn with returnByTag }).setCall id
      (.done (some (args, tag)) outcome)).awaited other = m.awaited other := by
    rw [setCall_awaited]
    split
    · rename_i heq
      rw [heq, hawaited, Phase.confirm]
    · rfl
  refine
    { count := hcount, sorted := hinv.sorted, queued := ?_, kept := ?_, held := ?_, known := hinv.known,
      bounded := hinv.bounded, unresolved := ?_, failed := hinv.failed, arriving := ?_, idle := hinv.idle,
      ended := ?_ }
  · intro channel number
    refine (hinv.queued channel number).trans (exists_congr fun other => exists_congr fun args' => ?_)
    rw [hsame]
    rfl
  · intro channel number returned hget
    rw [setCall_conn, setConn_conn, hreturnOf] at hget
    obtain ⟨hmem, hargs⟩ := hinv.kept channel number returned (Option.ite_none_left_eq_some.mp hget).2
    refine ⟨hmem, fun other args' h => hargs other args' ?_⟩
    rwa [hsame] at h
  · intro other args' number h hmem
    rw [hsame] at h
    rw [setCall_conn, setConn_conn, hreturnOf, setCall_calls]
    by_cases heq : other = id
    · rw [if_pos heq]
      exact .inr ⟨_, _, rfl⟩
    · rw [if_neg heq]
      refine (hinv.held other args' number h hmem).imp_left fun hsome => ?_
      rw [if_neg]
      · exact hsome
      · rintro ⟨hchannel, rfl⟩
        refine heq (publishNumber_inj (hinv.count.tagged id args number hawaited) ?_)
        rw [← hchannel]
        exact hinv.count.tagged other args' number h
  · intro other args' number h
    rw [hsame] at h
    exact hinv.unresolved other args' number h
  · intro channel number rest hsending
    obtain ⟨hmem, hunconfirmed, other, args', slot, h, hrest⟩ := hinv.arriving channel number rest hsending
    exact ⟨hmem, hunconfirmed, other, args', slot, by rwa [hsame], hrest⟩
  · intro other args' number outcome' h hmandatory
    rw [setCall_calls] at h
    split at h
    · cases h
      exact hattributed.congr rfl
    · exact (hinv.ended other args' number outcome' h hmandatory).congr rfl

/-- With the ack of its number a publish ends with its own return, if there is one. -/
theorem ReturnInv.finishConfirm (hinv : ReturnInv m ledger) {tag : Nat}
    (hawaited : m.awaited id = some (args, tag)) (hlive : ∀ confirm outcome, m.calls id ≠ some (.done confirm outcome))
    (hacks : Acks m.received args.channel tag) : ReturnInv (m.finishConfirm id args tag) ledger := by
  have hcount := hinv.count.finishConfirm hawaited hacks
  unfold Machine.finishConfirm at hcount ⊢
  by_cases hmandatory : args.mandatory = true
  · rw [if_pos hmandatory] at hcount ⊢
    obtain ⟨returnByTag, hpop, hreturnOf⟩ := popReturn_eq m.conn args.channel tag
    rw [hpop] at hcount ⊢
    cases hreturned : m.conn.returnOf args.channel tag with
    | some returned =>
      rw [hreturned] at hcount
      obtain ⟨hmem, hargs⟩ := hinv.kept args.channel tag returned hreturned
      exact hinv.collect hawaited hreturnOf hcount ⟨hmem, hargs id args hawaited rfl⟩
    | none =>
      rw [hreturned] at hcount
      refine hinv.collect hawaited hreturnOf hcount ⟨hacks, fun hmem => ?_⟩
      rcases hinv.held id args tag hawaited hmem with hsome | ⟨confirm, outcome, hdone⟩
      · exact hsome hreturned
      · exact hlive confirm outcome hdone
  · rw [if_neg hmandatory] at hcount ⊢
    refine hinv.setCall hcount hawaited.symm (fun _ => ⟨_, _, rfl⟩) ?_
    intro args' tag' outcome heq hmandatory'
    cases heq
    exact absurd hmandatory' hmandatory

theorem ReturnInv.afterDrain (hinv : ReturnInv m ledger) {tag : Option Nat}
    (hawaited : m.awaited id = tag.map fun t => (args, t))
    (hlive : ∀ confirm outcome, m.calls id ≠ some (.done confirm outcome)) :
    ReturnInv (m.afterDrain id args tag) ledger := by
  have hcount := hinv.count.afterDrain hawaited
  cases tag with
  | none => exact hinv.setDone hawaited _
  | some t =>
    have hsame : m.awaited id = some (args, t) := hawaited
    rw [Machine.afterDrain, Machine.awaitConfirm] at hcount ⊢
    cases hconfirm : m.conn.confirms id with
    | none =>
      rw [hconfirm] at hcount
      refine hinv.setCall hcount hsame.symm ?_ (by simp)
      rintro ⟨confirm, outcome, hdone⟩
      exact absurd hdone (hlive _ _)
    | some outcome =>
      rw [hconfirm] at hcount
      obtain ⟨args', tag', hsettled, hnumber⟩ := hinv.count.settled id outcome hconfirm
      rw [hsame] at hsettled
      cases hsettled
      cases outcome with
      | ok u => exact hinv.finishConfirm hsame hlive hnumber
      | error e =>
        refine hinv.setCall hcount hsame.symm (fun _ => ⟨_, _, rfl⟩) ?_
        intro args' tag' outcome heq hmandatory
        cases heq
        rcases hinv.failed id e hconfirm with rfl | ⟨deliveryTag, multiple, rfl⟩
        · exact .inr rfl
        · exact ⟨hnumber, fun hmem => (hinv.known _ _ hmem).2 hnumber⟩

theorem ReturnInv.publishReached (hinv : ReturnInv m ledger) {entry : PublishEntry}
    (hunpublished : m.Unpublished id)
    (hencodes : ∀ props, entry = .call ∧ args.effectiveProperties = .ok props ∨
      entry = .afterSelect props → (contentFrames m.conn.frameMax args props).isSome = true)
    (hkeeps : ∀ props, contentOf m.conn args entry = some (props, false) →
      selected args.channel m.conn.written = false) :
    ReturnInv (m.publishReached id args (publishSegment id args entry m.conn)) ledger := by
  have hcount := hinv.count.publishReached hunpublished hencodes hkeeps
  have hnone := awaited_of_unpublished hunpublished
  have hwritten {tag : Option Nat} {conn : Conn}
      (hreached : ReturnInv ((m.setConn conn).setCall id (.publishDraining args tag)) ledger) :
      ReturnInv (m.publishReached id args (.ok (.written tag) conn)) ledger := by
    rw [Machine.publishReached]
    split
    · exact hreached
    · rw [← afterDrain_setCall _ _ (.publishDraining args tag)]
      refine hreached.afterDrain ?_ (by simp)
      rw [setCall_awaited, if_pos rfl, Phase.confirm]
  have hreached := publishSegment_reached id args entry m.conn
  generalize publishSegment id args entry m.conn = result at hcount hreached ⊢
  cases hreached with
  | refused hrefused => exact (hinv.refused hrefused).setDone hnone _
  | selecting hentry hprops hframe =>
    have hsame : m.conn.Refused (m.conn.setTracker args.channel (m.conn.trackerOf args.channel)) :=
      ⟨_, _, rfl, fun c => Conn.trackerOf_setTracker_same m.conn args.channel c⟩
    exact (hinv.request (r := .confirmSelect args.channel) hsame hframe).ask hunpublished hcount
  | written hcontent hframes =>
    rename_i props confirmed frames
    refine hwritten ?_
    cases confirmed with
    | true => exact hinv.publish hunpublished (enabled_of_contentOf hcontent rfl) hframes
    | false =>
      have hquiet := unnumbered_quiet id hframes (hkeeps _ hcontent)
      have happend : ReturnInv (m.setConn (m.conn.append id frames)) ledger :=
        hinv.setConn (.of_quiet hinv.count hquiet rfl rfl (fun _ => rfl) rfl) rfl
      refine happend.setCall ?_ hnone.symm ?_ (by simp)
      · exact happend.count.setCall hnone.symm (by simp) (by simp [Phase.request]) (by simp [Phase.request])
          (by simp [Phase.next])
      · rintro ⟨confirm, outcome, hdone⟩
        exact absurd hdone (unpublished_live hunpublished confirm outcome)
  | broken hcontent hframes =>
    have hsome := hencodes _ (props_of_contentOf hcontent)
    rw [hframes] at hsome
    cases hsome

theorem ReturnInv.requestReached (hinv : ReturnInv m ledger) (r : SyncRequest) (hnew : m.calls id = none) :
    ReturnInv (m.requestReached id r (r.start id m.conn)) ledger := by
  have hunpublished : m.Unpublished id := .inl hnew
  have hnone := awaited_of_unpublished hunpublished
  have hcount := hinv.count.requestReached r hnew
  have hreached := SyncRequest.start_reached id r m.conn
  generalize r.start id m.conn = result at hcount hreached ⊢
  cases hreached with
  | refused hrefused => exact (hinv.refused hrefused).setDone hnone _
  | immediate hselect hrefused => exact (hinv.refused hrefused).setDone hnone _
  | asked hrefused hframe => exact (hinv.request hrefused hframe).ask hunpublished hcount

theorem ReturnInv.answered (hinv : ReturnInv m ledger) {next : Option (PublishArgs × Properties)}
    {reply : Method} (hcall : m.calls id = some (.expecting r next))
    (hkeeps : ∀ channel, r = .confirmSelect channel → (m.conn.trackerOf channel).nextTag = 1) :
    ReturnInv (m.answered id r next reply) ledger := by
  have hrequest : m.requestOf id = some r := by
    rw [Machine.requestOf, hcall]
    rfl
  have hnext : m.nextOf id = next := by
    rw [Machine.nextOf, hcall]
    rfl
  have hunpublished : m.Unpublished id := .inr (by rw [hrequest]; rfl)
  have hnone := awaited_of_unpublished hunpublished
  rw [Machine.answered]
  by_cases hselect : ∃ channel, r = .confirmSelect channel
  · obtain ⟨channel, rfl⟩ := hselect
    rw [SyncRequest.finish, finishConfirmSelect, bind_run_ok (modify_run _ _)]
    have henable := hinv.enable (hinv.count.selecting id channel hrequest) (hkeeps channel rfl)
    cases next with
    | none => exact (henable.endRequest id _).setDone hnone _
    | some content =>
      obtain ⟨args, props⟩ := content
      obtain ⟨hchannel, hsome⟩ := hinv.count.encodable id args props hnext
      rw [hrequest] at hchannel
      cases hchannel
      refine (henable.endRequest id (.ok none)).publishReached hunpublished ?_ ?_
      · rintro props' (⟨⟨⟩, -⟩ | ⟨⟨⟩⟩)
        exact hsome
      · intro props' hcontent
        simp [contentOf] at hcontent
  · have hlast : next = none := by
      cases next with
      | none => rfl
      | some content =>
        have hchannel := (hinv.count.encodable id _ _ hnext).1
        rw [hrequest] at hchannel
        exact absurd ⟨_, Option.some.inj hchannel⟩ hselect
    rw [SyncRequest.finish_of_ne_select hselect, hlast]
    cases r.result reply with
    | ok result => exact (hinv.endRequest id _).setDone hnone _
    | error e => exact (hinv.endRequest id _).setDone hnone _

theorem ReturnInv.expected (hinv : ReturnInv m ledger) {next : Option (PublishArgs × Properties)}
    {outcome : Except Exc Method} (hcall : m.calls id = some (.expecting r next))
    (hkeeps : ∀ channel reply, r = .confirmSelect channel → outcome = .ok reply →
      (m.conn.trackerOf channel).nextTag = 1) : ReturnInv (m.expected id r next outcome) ledger := by
  have hforget : ReturnInv (m.forgetWaiter r.key) ledger :=
    hinv.setConn (.of_quiet hinv.count (.of_unwritten rfl rfl (fun _ => rfl) rfl) rfl rfl (fun _ => rfl) rfl) rfl
  cases outcome with
  | ok reply => exact hforget.answered hcall fun channel hr => hkeeps channel reply hr rfl
  | error e =>
    refine (hforget.endRequest id _).setDone ?_ _
    change (m.calls id).bind Phase.confirm = none
    rw [hcall]
    rfl

theorem ReturnInv.drained (hinv : ReturnInv m ledger) {failure : Option Interrupt}
    (h : m.drained id failure = some m') : ReturnInv m' ledger := by
  have hcount := hinv.count.drained h
  unfold Machine.drained at h
  split at h
  · rename_i r next hcall
    cases h
    have hset : ReturnInv (m.setConn { m.conn with waiters := m.conn.waiters.set r.key id }) ledger :=
      hinv.setConn (.of_quiet hinv.count (.of_unwritten rfl rfl (fun _ => rfl) rfl) rfl rfl (fun _ => rfl) rfl)
        rfl
    refine hset.setCall hcount ?_ ?_ (by simp)
    · rw [setConn_awaited, Machine.awaited, hcall]
      rfl
    · rintro ⟨confirm, outcome, hdone⟩
      rw [setConn_calls, hcall] at hdone
      cases hdone
  · rename_i r next i hcall
    cases h
    refine hinv.setDone ?_ _
    rw [Machine.awaited, hcall]
    rfl
  · rename_i args tag hcall
    cases h
    refine hinv.afterDrain ?_ (by simp [hcall])
    rw [Machine.awaited, hcall]
    rfl
  · rename_i args tag i hcall
    cases h
    refine hinv.setCall hcount ?_ (fun _ => ⟨_, _, rfl⟩) ?_
    · rw [Machine.awaited, hcall]
      rfl
    · intro args' tag' outcome heq _
      cases tag with
      | none => cases heq
      | some t =>
        cases heq
        cases i
        · exact .inl rfl
        · exact .inr rfl
  · cases h

theorem ReturnInv.wake (hinv : ReturnInv m ledger) (hkeeps : keepsCount m (.wake id) = true)
    (h : m.wake id = some m') : ReturnInv m' ledger := by
  unfold Machine.wake at h
  split at h
  · rename_i r next hcall
    obtain ⟨outcome, houtcome, rfl⟩ := Option.map_eq_some_iff.mp h
    refine hinv.expected hcall ?_
    rintro channel reply rfl rfl
    simpa [keepsCount, hcall, houtcome] using hkeeps
  · rename_i args tag hcall
    obtain ⟨-, ⟨⟩⟩ := Option.ite_none_right_eq_some.mp h
    have hawaited : m.awaited id = (some tag).map fun t => (args, t) := by
      rw [Machine.awaited, hcall]
      rfl
    exact hinv.afterDrain hawaited (by simp [hcall])
  · cases h

theorem ReturnInv.deadline (hinv : ReturnInv m ledger) (h : m.deadline id = some m') : ReturnInv m' ledger := by
  unfold Machine.deadline at h
  split at h
  · cases h
    have hsettle : ReturnInv (m.settleReply id (.error .timeoutError)) ledger :=
      hinv.setConn (.of_quiet hinv.count (.of_unwritten rfl rfl (fun _ => rfl) rfl) rfl rfl (fun _ => rfl) rfl)
        rfl
    exact hsettle.congr rfl rfl rfl
  · cases h

theorem ReturnInv.cancel (hinv : ReturnInv m ledger) (hcount : CountInv m') (h : m.cancel id = some m') :
    ReturnInv m' ledger := by
  unfold Machine.cancel at h
  split at h
  · cases h
    exact hinv.setConn (.of_quiet hinv.count (.of_unwritten rfl rfl (fun _ => rfl) rfl) rfl rfl (fun _ => rfl)
      rfl) rfl
  · cases h
    refine hinv.setConn
      { count := hcount, numbered := fun _ => rfl, mandatory := fun _ => rfl, returnOf := fun _ _ => rfl,
        outstanding := fun _ _ _ hget => hget, confirms := ?_, failed := ?_ } rfl
    · intro other (hother : (if other = id then some (.error .cancelledError) else
        m.conn.confirms other) = none)
      split at hother
      · cases hother
      · exact hother
    · intro other e (hother : (if other = id then some (.error .cancelledError) else
        m.conn.confirms other) = some (.error e))
      split at hother
      · cases hother
        exact .inr rfl
      · exact .inl hother
  · cases h

end Steps

end Nuropb.Transport
