import Nuropb.Transport.ChannelGate
import Nuropb.Transport.Shutdown

/-! # What a call of `open_channel` leaves behind

The call registers its channel in four maps before its first step that can fail, and no step takes the entries out again.
A run of the call ends with the step that ends it; other tasks take steps in between.
-/
namespace Nuropb.Transport

open Library Protocol

def openKey (channel : Int) : WaiterKey := (channel, (20, 11))

structure SameAt (channel : Int) (conn conn' : Conn) : Prop where
  channels : conn'.channels.get? channel = conn.channels.get? channel
  confirm : conn'.confirm.get? channel = conn.confirm.get? channel
  mandatoryTags : conn'.mandatoryTags.get? channel = conn.mandatoryTags.get? channel
  returnByTag : conn'.returnByTag.get? channel = conn.returnByTag.get? channel
  waiters : conn'.waiters.get? (openKey channel) = conn.waiters.get? (openKey channel)

/-- The entries of the other channels are the same, and so are the other waiters. -/
structure SameElsewhere (channel : Int) (conn conn' : Conn) : Prop where
  channels : ∀ other ≠ channel, conn'.channels.get? other = conn.channels.get? other
  confirm : ∀ other ≠ channel, conn'.confirm.get? other = conn.confirm.get? other
  mandatoryTags : ∀ other ≠ channel, conn'.mandatoryTags.get? other = conn.mandatoryTags.get? other
  returnByTag : ∀ other ≠ channel, conn'.returnByTag.get? other = conn.returnByTag.get? other
  waiters : ∀ key ≠ openKey channel, conn'.waiters.get? key = conn.waiters.get? key

structure Registers (channel : Int) (conn conn' : Conn) : Prop where
  absent : conn.channels.get? channel = none
  channels : conn'.channels.get? channel = some .opening
  confirm : conn'.confirm.get? channel = some {}
  mandatoryTags : conn'.mandatoryTags.get? channel = some []
  returnByTag : conn'.returnByTag.get? channel = some .empty

theorem SameElsewhere.refl (channel : Int) (conn : Conn) : SameElsewhere channel conn conn :=
  ⟨fun _ _ => rfl, fun _ _ => rfl, fun _ _ => rfl, fun _ _ => rfl, fun _ _ => rfl⟩

theorem SameElsewhere.trans {channel : Int} {conn conn' conn'' : Conn} (h : SameElsewhere channel conn conn')
    (h' : SameElsewhere channel conn' conn'') : SameElsewhere channel conn conn'' where
  channels other hother := (h'.channels other hother).trans (h.channels other hother)
  confirm other hother := (h'.confirm other hother).trans (h.confirm other hother)
  mandatoryTags other hother := (h'.mandatoryTags other hother).trans (h.mandatoryTags other hother)
  returnByTag other hother := (h'.returnByTag other hother).trans (h.returnByTag other hother)
  waiters key hkey := (h'.waiters key hkey).trans (h.waiters key hkey)

/-! ## The segments of the call -/

section Segments

variable {conn : Conn} {channel : Int}

def Conn.opening (conn : Conn) (channel : Int) : Conn :=
  { conn with
    channels := (conn.channels.set channel .closed).set channel .opening
    confirm := conn.confirm.set channel {}
    mandatoryTags := conn.mandatoryTags.set channel []
    returnByTag := conn.returnByTag.set channel .empty }

theorem registers_opening (habsent : conn.channels.get? channel = none) (caller : CallId) (frames : List Frame) :
    Registers channel conn ((conn.opening channel).append caller frames) :=
  ⟨habsent, Dict.get?_set_self _ _ _, Dict.get?_set_self _ _ _, Dict.get?_set_self _ _ _, Dict.get?_set_self _ _ _⟩

theorem sameElsewhere_opening (conn : Conn) (channel : Int) (caller : CallId) (frames : List Frame) :
    SameElsewhere channel conn ((conn.opening channel).append caller frames) where
  channels _ hother := (Dict.get?_set_of_ne _ hother.symm _).trans (Dict.get?_set_of_ne _ hother.symm _)
  confirm _ hother := Dict.get?_set_of_ne _ hother.symm _
  mandatoryTags _ hother := Dict.get?_set_of_ne _ hother.symm _
  returnByTag _ hother := Dict.get?_set_of_ne _ hother.symm _
  waiters _ _ := rfl

/-- The frame of `channel.open` can be written: the id is one that a frame can carry. -/
def Conn.encodesOpen (conn : Conn) (channel : Int) : Bool :=
  (frameOf conn.frameMax .method channel (encodeMethod (.channelOpen []))).isSome

/-- With the connection open, the first segment is refused for an id that is taken; else it has registered the channel,
whether or not its frame can be written. -/
theorem startOpenChannel_cases (caller : CallId) (channel : Int) (hopen : conn.sm.isOpen = true) :
    (conn.channels.contains channel = true ∧ ∃ e, startOpenChannel caller channel conn = .error e conn) ∨
      conn.channels.contains channel = false ∧
        ((conn.encodesOpen channel = true ∧ ∃ frame,
            startOpenChannel caller channel conn = .ok () ((conn.opening channel).append caller [frame])) ∨
          conn.encodesOpen channel = false ∧
            ∃ e, startOpenChannel caller channel conn = .error e ((conn.opening channel).append caller [])) := by
  rw [startOpenChannel, bind_run_ok (get_run _), bind_run_ok (throwIf_of_not (not_not.mpr hopen) _ _)]
  by_cases htaken : conn.channels.contains channel = true
  · exact .inl ⟨htaken, _, bind_run_error (throwIf_of htaken _ _)⟩
  refine .inr ⟨Bool.eq_false_iff.mpr htaken, ?_⟩
  rw [bind_run_ok (throwIf_of_not htaken _ _), bind_run_ok (modify_run _ _)]
  have htransition : channelTransition channel ChanState.onOpenSent { conn with
      channels := conn.channels.set channel .closed
      confirm := conn.confirm.set channel {}
      mandatoryTags := conn.mandatoryTags.set channel []
      returnByTag := conn.returnByTag.set channel .empty } = .ok () (conn.opening channel) := by
    simp [channelTransition, bind_run, ChanState.onOpenSent, Conn.opening]
  rw [bind_run_ok htransition]
  cases hframe : frameOf conn.frameMax .method channel (encodeMethod (.channelOpen [])) with
  | some frame =>
    have hframe' : frameOf (conn.opening channel).frameMax .method channel (encodeMethod (.channelOpen [])) = some frame :=
      hframe
    exact .inl ⟨by rw [Conn.encodesOpen, hframe]; rfl, frame, writePayload_of_some hframe'⟩
  | none =>
    have hframe' : frameOf (conn.opening channel).frameMax .method channel (encodeMethod (.channelOpen [])) = none :=
      hframe
    obtain ⟨e, he⟩ := writePayload_of_none (some caller) hframe'
    exact .inr ⟨by rw [Conn.encodesOpen, hframe]; rfl, e, by rw [Conn.append_nil]; exact he⟩

theorem sameElsewhere_setChannel (conn : Conn) (channel : Int) (state : ChanState) :
    SameElsewhere channel conn { conn with channels := conn.channels.set channel state } where
  channels _ hother := Dict.get?_set_of_ne _ hother.symm _
  confirm _ _ := rfl
  mandatoryTags _ _ := rfl
  returnByTag _ _ := rfl
  waiters _ _ := rfl

theorem onOpenOk_cases (conn : Conn) (channel : Int) :
    (conn.channels.get? channel = some .opening ∧ channelTransition channel ChanState.onOpenOk conn =
        .ok () { conn with channels := conn.channels.set channel .open }) ∨
      conn.channels.get? channel ≠ some .opening ∧ ∃ e conn', channelTransition channel ChanState.onOpenOk conn =
        .error e conn' ∧ SameElsewhere channel conn conn' := by
  rw [channelTransition, bind_run_ok (get_run _)]
  cases hstate : conn.channels.get? channel with
  | none => exact .inr ⟨by simp, _, conn, rfl, .refl channel conn⟩
  | some state =>
    rw [orRaise_some, bind_run_ok (lift_ok _ _)]
    by_cases hopening : state = .opening
    · subst hopening
      exact .inl ⟨rfl, rfl⟩
    · rw [ChanState.onOpenOk, if_pos hopening]
      exact .inr ⟨fun h => hopening (Option.some.inj h), _, _, rfl, sameElsewhere_setChannel conn channel .error⟩

end Segments

/-! ## The call in a run -/

def Client.result (c : Client) (id : CallId) : Option (Except Exc Unit) :=
  match c.jobs id with
  | some (.ended result) => some result
  | _ => none

def ClientEvent.drives (id : CallId) : ClientEvent → Bool
  | .openChannel other _ | .resumed other _ | .wakeJob other => other == id
  | _ => false

def spares (id : CallId) (channel : Int) (c : Client) : ClientEvent → Bool
  | .openChannel other _ => other != id || c.conn.channels.contains channel || c.conn.encodesOpen channel
  | .resumed other failure => other != id || failure.isNone
  | .wakeJob other => other != id ||
    (c.conn.replies id).any (·.toOption.isSome) && c.conn.channels.get? channel == some .opening
  | _ => true

/-- A step of the call leaves the other channels and waiters alone. -/
def ActsAlone (id : CallId) (channel : Int) (c : Client) (e : ClientEvent) : Prop :=
  e.drives id = true → ∀ c', c.step e = some c' → SameElsewhere channel c.conn c'.conn

/-- A failed call has changed no entry of its channel, a successful one has added them, and no step of the call has changed
any other entry. -/
structure LeavesNoTrace (id : CallId) (channel : Int) (c₀ : Client) (es : List ClientEvent) (c : Client)
    (result : Except Exc Unit) : Prop where
  failed : ∀ e, result = .error e → SameAt channel c₀.conn c.conn
  registered : result = .ok () → ∀ c₁, c₀.step (.openChannel id channel) = some c₁ → Registers channel c₀.conn c₁.conn
  opened : result = .ok () → c.conn.channels.get? channel = some .open ∧ c.conn.waiters.get? (openKey channel) = none
  elsewhere : Admits Client.step (ActsAlone id channel) c₀ (.openChannel id channel :: es)

section Run

variable {id : CallId} {channel : Int} {c c' : Client} {e : ClientEvent}

structure Underway (id : CallId) (channel : Int) (c : Client) : Prop where
  waits : c.jobs id = some (.openDraining channel) ∨ c.jobs id = some (.openExpecting channel)
  known : c.conn.channels.get? channel ≠ none

structure Returned (id : CallId) (channel : Int) (c : Client) : Prop where
  ended : c.jobs id = some (.ended (.ok ()))
  opened : c.conn.channels.get? channel = some .open
  forgotten : c.conn.waiters.get? (openKey channel) = none

structure Stranded (id : CallId) (channel : Int) (c : Client) : Prop where
  ended : ∃ e, c.jobs id = some (.ended (.error e))
  known : c.conn.channels.get? channel ≠ none

/-- What a step comes to while the call is under way. -/
inductive OpenStep (id : CallId) (channel : Int) (c : Client) (e : ClientEvent) (c' : Client) : Prop
  | waits (hspares : spares id channel c e = true) (h : Underway id channel c')
  | returned (hspares : spares id channel c e = true) (h : Returned id channel c')
  | stranded (hfails : spares id channel c e = false) (h : Stranded id channel c')

theorem underway_resumed {failure : Option Exc} (h : Underway id channel c) (hknown : c'.conn.channels.get? channel ≠ none)
    (hstep : c.resumed id failure = some c') :
    OpenStep id channel c (.resumed id failure) c' ∧ SameElsewhere channel c.conn c'.conn := by
  rcases h.waits with hjob | hjob
  · cases failure with
    | none =>
      simp only [Client.resumed, hjob] at hstep
      cases hstep
      refine ⟨.waits (by simp [spares]) ⟨.inr (setJob_jobs _ _ _), hknown⟩, ?_⟩
      rw [expectJob_conn]
      refine ⟨fun _ _ => rfl, fun _ _ => rfl, fun _ _ => rfl, fun _ _ => rfl, fun key hkey => ?_⟩
      exact Dict.get?_set_of_ne _ hkey.symm _
    | some e =>
      simp only [Client.resumed, hjob] at hstep
      cases hstep
      exact ⟨.stranded (by simp [spares]) ⟨⟨e, setJob_jobs _ _ _⟩, hknown⟩, .refl channel c.conn⟩
  · simp only [Client.resumed, hjob] at hstep
    cases hstep

theorem underway_wakeJob (h : Underway id channel c) (hknown : c'.conn.channels.get? channel ≠ none)
    (hstep : c.wakeJob id = some c') :
    OpenStep id channel c (.wakeJob id) c' ∧ SameElsewhere channel c.conn c'.conn := by
  rcases h.waits with hjob | hjob
  · simp only [Client.wakeJob, hjob, Job.key, Option.bind_none] at hstep
    cases hstep
  · have hforget : SameElsewhere channel c.conn (c.conn.forget (openKey channel)) :=
      ⟨fun _ _ => rfl, fun _ _ => rfl, fun _ _ => rfl, fun _ _ => rfl, fun key hkey => Dict.get?_erase_of_ne _ hkey.symm⟩
    simp only [Client.wakeJob, hjob, Job.key, Option.bind_some] at hstep
    obtain ⟨outcome, houtcome, rfl⟩ := Option.map_eq_some_iff.mp hstep
    cases outcome with
    | error e =>
      refine ⟨.stranded (by simp [spares, houtcome]) ⟨⟨e, setJob_jobs _ _ _⟩, hknown⟩, ?_⟩
      have hreplied : (c.replied id (channel, (20, 11)) (.openExpecting channel) (.error e)).conn =
          c.conn.forget (openKey channel) := client_setConn_conn c _
      rw [hreplied]
      exact hforget
    | ok reply =>
      have hreplied : c.replied id (channel, (20, 11)) (.openExpecting channel) (.ok reply) =
          (c.setConn (c.conn.forget (openKey channel))).openReplied id channel := rfl
      rw [hreplied] at hknown ⊢
      unfold Client.openReplied at hknown ⊢
      rw [client_setConn_conn] at hknown ⊢
      rcases onOpenOk_cases (c.conn.forget (openKey channel)) channel with
        ⟨hopening, hrun⟩ | ⟨hnot, e, conn', hrun, hsame⟩
      · simp only [hrun, setJob_conn, client_setConn_conn]
        refine ⟨.returned ?_ ⟨setJob_jobs _ _ _, ?_, ?_⟩, ?_⟩
        · have hopening' : c.conn.channels.get? channel = some .opening := hopening
          simp [spares, houtcome, hopening']
        · rw [setJob_conn, client_setConn_conn]
          exact Dict.get?_set_self _ _ _
        · rw [setJob_conn, client_setConn_conn]
          exact Dict.get?_erase_self _ _
        · exact hforget.trans (sameElsewhere_setChannel _ channel .open)
      · simp only [hrun] at hknown ⊢
        refine ⟨.stranded ?_ ⟨⟨e, setJob_jobs _ _ _⟩, hknown⟩, ?_⟩
        · have hnot' : c.conn.channels.get? channel ≠ some .opening := hnot
          simp [spares, houtcome, hnot']
        · rw [setJob_conn, client_setConn_conn]
          exact hforget.trans hsame

/-- While the call is under way a step of another task leaves it there, and one of its own leaves it there, ends it well,
or strands its channel. -/
theorem underway_step (h : Underway id channel c) (hstep : c.step e = some c') :
    OpenStep id channel c e c' ∧ (e.drives id = true → SameElsewhere channel c.conn c'.conn) := by
  have hknown := (step_effect hstep).known channel h.known
  obtain ⟨job, hjob, hreceives⟩ : ∃ job, c.jobs id = some job ∧ job.receives = false := by
    rcases h.waits with hjob | hjob
    · exact ⟨_, hjob, rfl⟩
    · exact ⟨_, hjob, rfl⟩
  have hfresh : c.fresh id = false := by simp [Client.fresh, hjob]
  have hstays (hjobs : c'.jobs id = c.jobs id) : Underway id channel c' := ⟨hjobs ▸ h.waits, hknown⟩
  by_cases hsubject : e.subject = some id
  · cases e with
    | task e =>
      obtain ⟨-, hstep⟩ := Option.ite_none_right_eq_some.mp hstep
      obtain ⟨tasks, -, rfl⟩ := Option.map_eq_some_iff.mp hstep
      exact ⟨.waits rfl (hstays (congrFun (absorb_jobs c tasks) id)), by simp [ClientEvent.drives]⟩
    | connect | openChannel | settle | receive | receiveReturn | close | forceDrop =>
      cases hsubject
      simp [Client.step, hfresh] at hstep
    | resumed other failure =>
      cases hsubject
      obtain ⟨hcomes, hsame⟩ := underway_resumed h hknown hstep
      exact ⟨hcomes, fun _ => hsame⟩
    | wakeJob other =>
      cases hsubject
      obtain ⟨hcomes, hsame⟩ := underway_wakeJob h hknown hstep
      exact ⟨hcomes, fun _ => hsame⟩
    | expire other =>
      cases hsubject
      exact ⟨.waits rfl (hstays (congrFun (jobs_expire hjob hreceives hstep) id)), by simp [ClientEvent.drives]⟩
    | cancelJob other =>
      cases hsubject
      exact ⟨.waits rfl (hstays (congrFun (jobs_cancelJob hjob hreceives hstep) id)), by simp [ClientEvent.drives]⟩
    | heartbeat | readerStops => cases hsubject
  · refine ⟨.waits ?_ (hstays ((turns_step hstep).jobs id hsubject)), fun hdrives => absurd ?_ hsubject⟩
    · cases e <;> simp_all [spares, ClientEvent.subject]
    · cases e <;> simp_all [ClientEvent.drives, ClientEvent.subject]

theorem openChannel_step (hopen : c.conn.sm.isOpen = true) (hstep : c.step (.openChannel id channel) = some c') :
    (c.conn.channels.contains channel = true ∧ c'.conn = c.conn ∧ ∃ e, c'.jobs id = some (.ended (.error e))) ∨
      c.conn.channels.contains channel = false ∧ Registers channel c.conn c'.conn ∧
        SameElsewhere channel c.conn c'.conn ∧
          (spares id channel c (.openChannel id channel) = true ∧ Underway id channel c' ∨
            spares id channel c (.openChannel id channel) = false ∧ Stranded id channel c') := by
  obtain ⟨-, ⟨⟩⟩ := Option.ite_none_right_eq_some.mp hstep
  unfold Client.openChannel
  rcases startOpenChannel_cases id channel hopen with
    ⟨htaken, e, hrun⟩ | ⟨habsent, ⟨hencodes, frame, hrun⟩ | ⟨hnot, e, hrun⟩⟩
  · simp only [hrun]
    exact .inl ⟨htaken, by rw [setJob_conn, client_setConn_conn], e, setJob_jobs _ _ _⟩
  · simp only [hrun]
    refine .inr ⟨habsent, ?_⟩
    have hregisters := registers_opening (Dict.get?_of_contains habsent) id [frame]
    rw [setJob_conn, client_setConn_conn]
    refine ⟨hregisters, sameElsewhere_opening c.conn channel id [frame], .inl ⟨by simp [spares, hencodes], ?_, ?_⟩⟩
    · exact .inl (setJob_jobs _ _ _)
    · rw [setJob_conn, client_setConn_conn, hregisters.channels]
      exact Option.some_ne_none _
  · simp only [hrun]
    refine .inr ⟨habsent, ?_⟩
    have hregisters := registers_opening (Dict.get?_of_contains habsent) id []
    rw [setJob_conn, client_setConn_conn]
    refine ⟨hregisters, sameElsewhere_opening c.conn channel id [], .inr ⟨by simp [spares, hnot, habsent], ?_, ?_⟩⟩
    · exact ⟨e, setJob_jobs _ _ _⟩
    · rw [setJob_conn, client_setConn_conn, hregisters.channels]
      exact Option.some_ne_none _

theorem last_of_ended {es : List ClientEvent} {result : Except Exc Unit} (hjob : c.jobs id = some (.ended result))
    (hbefore : Admits Client.step (fun d _ => d.result id = none) c es) : es = [] := by
  cases es with
  | nil => rfl
  | cons e es =>
    have hongoing : c.result id = none := hbefore.1
    simp [Client.result, hjob] at hongoing

/-- A run of a call that is under way ends well exactly if every step is spared. -/
theorem underway_run {es : List ClientEvent} {result : Except Exc Unit} (h : Underway id channel c)
    (hrun : run Client.step c es = some c') (hbefore : Admits Client.step (fun d _ => d.result id = none) c es)
    (hended : c'.result id = some result) :
    Admits Client.step (ActsAlone id channel) c es ∧
      (Admits Client.step (fun d e => spares id channel d e = true) c es ∧ Returned id channel c' ∨
        ¬Admits Client.step (fun d e => spares id channel d e = true) c es ∧ Stranded id channel c') := by
  induction es generalizing c with
  | nil =>
    cases hrun
    rcases h.waits with hjob | hjob
    · simp [Client.result, hjob] at hended
    · simp [Client.result, hjob] at hended
  | cons e es ih =>
    obtain ⟨m, hm, hrest⟩ := Option.bind_eq_some_iff.mp hrun
    obtain ⟨hcomes, hsame⟩ := underway_step h hm
    have hsame' : ActsAlone id channel c e := by
      intro hdrives d' hd
      rw [hm] at hd
      cases hd
      exact hsame hdrives
    simp only [Admits, hm] at hbefore ⊢
    cases hcomes with
    | waits hspares hunderway =>
      obtain ⟨helsewhere, ⟨hadmits, hreturned⟩ | ⟨hadmits, hstranded⟩⟩ := ih hunderway hrest hbefore.2
      · exact ⟨⟨hsame', helsewhere⟩, .inl ⟨⟨hspares, hadmits⟩, hreturned⟩⟩
      · exact ⟨⟨hsame', helsewhere⟩, .inr ⟨fun h => hadmits h.2, hstranded⟩⟩
    | returned hspares hreturned =>
      obtain rfl := last_of_ended hreturned.ended hbefore.2
      cases hrest
      exact ⟨⟨hsame', trivial⟩, .inl ⟨⟨hspares, trivial⟩, hreturned⟩⟩
    | stranded hfails hstranded =>
      obtain ⟨raised, hjob⟩ := hstranded.ended
      obtain rfl := last_of_ended hjob hbefore.2
      cases hrest
      refine ⟨⟨hsame', trivial⟩, .inr ⟨fun h => ?_, hstranded⟩⟩
      rw [hfails] at h
      cases h.1

end Run

section Main

variable {id : CallId} {channel : Int} {c₀ c : Client} {es : List ClientEvent} {result : Except Exc Unit}

theorem Stranded.not_leavesNoTrace (h : Stranded id channel c) (habsent : c₀.conn.channels.get? channel = none)
    (hended : c.result id = some result) : ¬LeavesNoTrace id channel c₀ es c result := by
  intro hleaves
  obtain ⟨e, hjob⟩ := h.ended
  simp only [Client.result, hjob, Option.some.injEq] at hended
  exact h.known ((hleaves.failed e hended.symm).channels.trans habsent)

/-- A call of `open_channel` on an open connection leaves no trace of a failure, and opens exactly its channel otherwise, if
and only if its id is taken or nothing fails in its steps. -/
theorem leavesNoTrace_iff (hopen : c₀.conn.sm.isOpen = true)
    (hrun : run Client.step c₀ (.openChannel id channel :: es) = some c)
    (hbefore : Admits Client.step (fun d _ => d.result id = none) c₀ (.openChannel id channel :: es))
    (hended : c.result id = some result) :
    LeavesNoTrace id channel c₀ es c result ↔
      Admits Client.step (fun d e => spares id channel d e = true) c₀ (.openChannel id channel :: es) := by
  obtain ⟨c₁, hc₁, hrest⟩ := Option.bind_eq_some_iff.mp hrun
  have hbefore₁ : Admits Client.step (fun d _ => d.result id = none) c₁ es := by
    simp only [Admits, hc₁] at hbefore
    exact hbefore.2
  have hguard : Admits Client.step (fun d e => spares id channel d e = true) c₀ (.openChannel id channel :: es) ↔
      spares id channel c₀ (.openChannel id channel) = true ∧
        Admits Client.step (fun d e => spares id channel d e = true) c₁ es := by
    simp only [Admits, hc₁]
  have halone (hsame : SameElsewhere channel c₀.conn c₁.conn) (hrest : Admits Client.step (ActsAlone id channel) c₁ es) :
      Admits Client.step (ActsAlone id channel) c₀ (.openChannel id channel :: es) := by
    simp only [Admits, hc₁]
    refine ⟨fun _ d hd => ?_, hrest⟩
    rw [hc₁] at hd
    cases hd
    exact hsame
  rw [hguard]
  rcases openChannel_step hopen hc₁ with ⟨htaken, hconn, e, hjob⟩ | ⟨habsent, hregisters, hsame, hfirst⟩
  · obtain rfl := last_of_ended hjob hbefore₁
    cases hrest
    simp only [Client.result, hjob, Option.some.injEq] at hended
    subst hended
    refine iff_of_true ⟨fun _ _ => ?_, nofun, nofun, halone ?_ trivial⟩ ⟨by simp [spares, htaken], trivial⟩
    · rw [hconn]
      exact ⟨rfl, rfl, rfl, rfl, rfl⟩
    · rw [hconn]
      exact .refl channel c₀.conn
  · have hnone := Dict.get?_of_contains habsent
    rcases hfirst with ⟨hspares, hunderway⟩ | ⟨hfails, hstranded⟩
    · obtain ⟨helsewhere, ⟨hadmits, hreturned⟩ | ⟨hadmits, hstranded⟩⟩ := underway_run hunderway hrest hbefore₁ hended
      · simp only [Client.result, hreturned.ended, Option.some.injEq] at hended
        subst hended
        refine iff_of_true ⟨nofun, fun _ d hd => ?_, fun _ => ⟨hreturned.opened, hreturned.forgotten⟩, halone hsame helsewhere⟩
          ⟨hspares, hadmits⟩
        rw [hc₁] at hd
        cases hd
        exact hregisters
      · exact iff_of_false (hstranded.not_leavesNoTrace hnone hended) fun h => hadmits h.2
    · obtain ⟨raised, hjob⟩ := hstranded.ended
      obtain rfl := last_of_ended hjob hbefore₁
      cases hrest
      refine iff_of_false (hstranded.not_leavesNoTrace hnone hended) fun h => ?_
      rw [hfails] at h
      cases h.1

end Main

def answered : List ClientEvent := [.resumed 1 none, .task (.frame channelOpenOkFrame), .wakeJob 1]

def unanswered : List ClientEvent := [.resumed 1 none, .expire 1, .wakeJob 1]

theorem answered_leavesNoTrace : ∃ c₀ c, run Client.step (Client.new defaultConfig) handshakeDone = some c₀ ∧
    run Client.step c₀ (.openChannel 1 1 :: answered) = some c ∧ LeavesNoTrace 1 1 c₀ answered c (.ok ()) := by
  have hfacts : (run Client.step (Client.new defaultConfig) handshakeDone).any (fun c₀ =>
      c₀.conn.sm.isOpen = true ∧ Admits Client.step (fun d _ => d.result 1 = none) c₀ (.openChannel 1 1 :: answered) ∧
        Admits Client.step (fun d e => spares 1 1 d e = true) c₀ (.openChannel 1 1 :: answered) ∧
          (run Client.step c₀ (.openChannel 1 1 :: answered)).any fun c =>
            (c.result 1).any (·.toOption.isSome)) = true := by decide +kernel
  obtain ⟨c₀, hc₀, hfacts⟩ := (Option.any_eq_true _ _).mp hfacts
  obtain ⟨hopen, hbefore, hspares, hrun⟩ := of_decide_eq_true hfacts
  obtain ⟨c, hc, hended⟩ := (Option.any_eq_true _ _).mp hrun
  obtain ⟨result, hresult, hok⟩ := (Option.any_eq_true _ _).mp hended
  cases result with
  | error e => cases hok
  | ok u => exact ⟨c₀, c, hc₀, hc, (leavesNoTrace_iff hopen hc hbefore hresult).mpr hspares⟩

theorem unanswered_not_leavesNoTrace : ¬∀ id channel c₀ c es result, c₀.conn.sm.isOpen = true →
    run Client.step c₀ (.openChannel id channel :: es) = some c →
      Admits Client.step (fun d _ => d.result id = none) c₀ (.openChannel id channel :: es) →
        c.result id = some result → LeavesNoTrace id channel c₀ es c result := by
  intro h
  have hfacts : (run Client.step (Client.new defaultConfig) handshakeDone).any (fun c₀ =>
      c₀.conn.sm.isOpen = true ∧ Admits Client.step (fun d _ => d.result 1 = none) c₀ (.openChannel 1 1 :: unanswered) ∧
        c₀.conn.channels.get? 1 = none ∧ (run Client.step c₀ (.openChannel 1 1 :: unanswered)).any fun c =>
          (c.result 1).any (·.toOption.isNone) ∧ c.conn.channels.get? 1 ≠ none) = true := by decide +kernel
  obtain ⟨c₀, -, hfacts⟩ := (Option.any_eq_true _ _).mp hfacts
  obtain ⟨hopen, hbefore, habsent, hrun⟩ := of_decide_eq_true hfacts
  obtain ⟨c, hc, hfacts⟩ := (Option.any_eq_true _ _).mp hrun
  obtain ⟨hended, hknown⟩ := of_decide_eq_true hfacts
  obtain ⟨result, hresult, hraised⟩ := (Option.any_eq_true _ _).mp hended
  cases result with
  | ok u => cases hraised
  | error e =>
    have hleaves := h 1 1 c₀ c unanswered (.error e) hopen hc hbefore hresult
    exact hknown ((hleaves.failed e rfl).channels.trans habsent)

end Nuropb.Transport
