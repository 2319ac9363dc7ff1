import Nuropb.Transport.ReturnSteps

/-! # Return attribution

A return goes to the oldest mandatory tag that is neither returned nor confirmed. It is its own as
long as the broker has settled every earlier mandatory publish by the time the return is complete.
-/
namespace Nuropb.Transport

open Library Protocol

section Steps

variable {x x' : Exchange}

theorem notifyLoss_lost (conn : Conn) (exc : Exc) : (conn.notifyLoss exc).lost.isSome = true := by
  unfold Conn.notifyLoss
  split
  · simp [*]
  · rfl

theorem Arriving.cons {args : PublishArgs} {slot : Slot} {frames : List Frame} (h : Arriving args slot frames) :
    ∃ next rest, frames = next :: rest := by
  obtain ⟨-, ⟨-, hcontent⟩ | ⟨left, hne, -⟩⟩ := h
  · cases frames with
    | nil => cases hcontent
    | cons next rest => exact ⟨next, rest, rfl⟩
  · exact List.exists_cons_of_ne_nil hne

theorem ReturnInv.frameStep {m : Machine} {ledger : Ledger} {f : Frame} (hinv : ReturnInv m ledger)
    (hrunning : (m.readFrame f).conn.reader = .running) (hnumbered : confirmsNumbered m (.frame f) = true)
    (hexpects : ledger.expects f = true)
    (hnack : f.isNack = true → ∀ number ∈ ledger.returned f.channel, f.confirms f.channel number = false)
    (holdest : returnsOldest ⟨m, ledger⟩ (.local (.frame f)) = true) :
    ReturnInv (m.readFrame f) (ledger.advance f.channel) := by
  cases hsending : ledger.sending f.channel with
  | none =>
    have hadvance : ledger.advance f.channel = ledger := by rw [Ledger.advance, hsending]
    have hreturn : f.isReturn = false := by simpa [Ledger.expects, hsending] using hexpects
    rw [hadvance]
    exact hinv.otherFrame hrunning hnumbered hreturn hnack hsending
  | some sending =>
    obtain ⟨number, frames⟩ := sending
    obtain ⟨-, -, id, args, slot, -, -, -, -, harriving⟩ := hinv.arriving f.channel number frames hsending
    obtain ⟨next, rest, rfl⟩ := harriving.cons
    obtain rfl : f = next := by simpa [Ledger.expects, hsending] using hexpects
    refine hinv.returnFrame hrunning hsending ?_
    rintro rfl
    simpa only [returnsOldest, hsending] using holdest

theorem ReturnInv.clientStep {m m' : Machine} {ledger : Ledger} {e : Event} (hinv : ReturnInv m ledger)
    (hframe : ∀ f, e ≠ .frame f) (hup : staysUp m e = true)
    (hencodes : encodes m e = true) (hcounts : keepsCount m e = true) (h : m.step e = some m') :
    ReturnInv m' ledger := by
  simp only [staysUp, h, Option.all_some, decide_eq_true_eq] at hup
  obtain ⟨hlost, hrunning⟩ := hup
  have hcount := hinv.count.step hencodes hcounts h
  cases e with
  | request id r =>
    obtain ⟨hnew, ⟨⟩⟩ := Option.ite_none_right_eq_some.mp h
    exact hinv.requestReached r hnew
  | publish id args =>
    obtain ⟨hnew, ⟨⟩⟩ := Option.ite_none_right_eq_some.mp h
    refine hinv.publishReached (.inl hnew) ?_ ?_
    · rintro props (⟨-, hprops⟩ | ⟨⟨⟩⟩)
      simpa [encodes, hprops] using hencodes
    · intro props hcontent
      simpa [keepsCount, hcontent] using hcounts
  | drained id failure => exact hinv.drained h
  | wake id => exact hinv.wake hcounts h
  | deadline id => exact hinv.deadline h
  | cancel id => exact hinv.cancel hcount h
  | frame f => exact absurd rfl (hframe f)
  | closeDrained =>
    simp only [Machine.step] at h
    split at h
    · cases h
      cases hrunning
    · cases h
  | eof =>
    obtain ⟨-, ⟨⟩⟩ := Option.ite_none_right_eq_some.mp h
    cases hrunning
  | lose exc =>
    cases h
    have hsome := notifyLoss_lost m.conn exc
    rw [setConn_conn, Option.isNone_iff_eq_none] at hlost
    rw [hlost] at hsome
    cases hsome

theorem ReturnInv.step {e : ExchangeEvent} (hinv : ReturnInv x.machine x.ledger)
    (hkeeps : keepsProtocol x e = true) (hcounts : countsPublishes x e = true)
    (holdest : returnsOldest x e = true) (h : x.step e = some x') : ReturnInv x'.machine x'.ledger := by
  obtain ⟨m, ledger⟩ := x
  cases e with
  | returns id f rest =>
    obtain ⟨number, hnumber, h⟩ := Option.bind_eq_some_iff.mp h
    obtain ⟨m', hstep, rfl⟩ := Option.map_eq_some_iff.mp h
    obtain ⟨-, ⟨⟩⟩ := Option.ite_none_right_eq_some.mp hstep
    simp only [keepsProtocol, stillReturnable, hnumber, decide_eq_true_eq, List.all_eq_true] at hkeeps
    obtain ⟨-, -, ⟨hlater, hunconfirmed⟩, hreturns⟩ := hkeeps
    refine hinv.opens hnumber (fun hmem => ?_) hunconfirmed hreturns
    have hlt := hlater number hmem
    omega
  | «local» e =>
    by_cases hframe : ∃ f, e = .frame f
    · obtain ⟨f, rfl⟩ := hframe
      obtain ⟨m', hstep, rfl⟩ := Option.map_eq_some_iff.mp h
      simp only [keepsProtocol, staysUp, hstep, Option.all_some, decide_eq_true_eq] at hkeeps
      obtain ⟨⟨-, hrunning⟩, hnumbered, hexpects, hnack⟩ := hkeeps
      obtain ⟨-, ⟨⟩⟩ := Option.ite_none_right_eq_some.mp hstep
      refine hinv.frameStep hrunning hnumbered hexpects (fun hisNack number hmem => ?_) holdest
      simpa using List.all_eq_true.mp (hnack hisNack) number hmem
    · rw [not_exists] at hframe
      have hlocal : Exchange.step ⟨m, ledger⟩ (.local e) = (m.step e).map fun m => ⟨m, ledger⟩ := by
        cases e <;> first | rfl | exact absurd rfl (hframe _)
      rw [hlocal] at h
      obtain ⟨m', hstep, rfl⟩ := Option.map_eq_some_iff.mp h
      simp only [countsPublishes, decide_eq_true_eq] at hcounts
      have hup : staysUp m e = true := by
        cases e <;> first | exact hkeeps | exact absurd rfl (hframe _)
      exact hinv.clientStep hframe hup hcounts.1 hcounts.2 hstep

end Steps

/-! ## Runs -/

theorem mandatoryOf_opened (frameMax : Nat) (h : frameMax < 2 ^ 32) (channels : List Int) (channel : Int) :
    (Conn.opened frameMax h channels).mandatoryOf channel = [] := by
  rw [Conn.mandatoryOf, Conn.opened, Dict.get?_fill]
  split <;> rfl

theorem returnOf_opened (frameMax : Nat) (h : frameMax < 2 ^ 32) (channels : List Int) (channel : Int)
    (tag : Nat) : (Conn.opened frameMax h channels).returnOf channel tag = none := by
  rw [Conn.returnOf, Conn.opened, Dict.get?_fill]
  split <;> rfl

theorem ReturnInv.opened (frameMax : Nat) (h : frameMax < 2 ^ 32) (channels : List Int) :
    ReturnInv (Machine.opened frameMax h channels) {} where
  count := CountInv.opened frameMax h channels
  sorted channel := by
    rw [Machine.opened, mandatoryOf_opened]
    exact .nil
  queued channel tag := by
    rw [Machine.opened, mandatoryOf_opened]
    constructor
    · intro hmem
      cases hmem
    · rintro ⟨id, args, hawaited, -⟩
      cases hawaited
  kept channel tag returned hget := by
    rw [Machine.opened, returnOf_opened] at hget
    cases hget
  held id args tag hawaited := by cases hawaited
  known channel tag hmem := by cases hmem
  bounded channel tag hconfirmed := by cases hconfirmed
  unresolved id args tag hawaited := by cases hawaited
  failed id e hconfirm := by cases hconfirm
  arriving channel number rest hsending := by cases hsending
  idle channel slot hsending hslot := by cases hslot
  ended id args tag outcome hcall := by cases hcall

theorem ReturnInv.attributed {x : Exchange} (hinv : ReturnInv x.machine x.ledger) : ReturnsAttributed x where
  ended id args tag outcome hcall hmandatory := by
    have hawaited : x.machine.awaited id = some (args, tag) := by
      rw [Machine.awaited, hcall]
      rfl
    exact ⟨tag, hinv.count.tagged id args tag hawaited, hinv.ended id args tag outcome hcall hmandatory⟩
  ready id args tag number hcall hnumber hconfirmed := by
    have hawaited : x.machine.awaited id = some (args, tag) := by
      rw [Machine.awaited, hcall]
      rfl
    obtain rfl : tag = number := Option.some.inj ((hinv.count.tagged id args tag hawaited).symm.trans hnumber)
    simp only [Machine.step, Machine.wake, hcall]
    cases hconfirm : x.machine.conn.confirms id with
    | some outcome => rfl
    | none =>
      rw [(hinv.unresolved id args tag hawaited hconfirm).2] at hconfirmed
      cases hconfirmed

def Exchange.Invariant (x : Exchange) : Prop := ReturnInv x.machine x.ledger

/-- In every run in which each return ends after all earlier mandatory publishes of its channel
were returned or confirmed, returns are attributed to their own publishes. -/
theorem returns_attributed (frameMax : Nat) (hframeMax : frameMax < 2 ^ 32) (channels : List Int) {x : Exchange}
    (h : ReachesWhere Exchange.step
      (fun x e => keepsProtocol x e = true ∧ countsPublishes x e = true ∧ returnsOldest x e = true)
      ⟨Machine.opened frameMax hframeMax channels, {}⟩ x) : ReturnsAttributed x := by
  have hrun := h.invariant (ReturnInv.opened frameMax hframeMax channels : Exchange.Invariant ⟨_, _⟩)
    fun _ _ _ hinv hok hstep => ReturnInv.step hinv hok.1 hok.2.1 hok.2.2 hstep
  exact ReturnInv.attributed hrun

def mandatoryPublish (routingKey : Text) : PublishArgs where
  channel := 1
  body := [104, 105]
  routingKey := routingKey
  confirm := some true
  mandatory := true

/-- `basic.return` of a message with a one-byte routing key. -/
def returnFrame (key : UInt8) : Frame := ⟨.method, 1, [0, 60, 0, 50, 1, 56, 0, 0, 1, key]⟩

def returnedContent : List Frame :=
  [⟨.header, 1, [0, 60, 0, 0, 0, 0, 0, 0, 0, 0, 0, 2, 0, 0]⟩, ⟨.body, 1, [104, 105]⟩]

def bothMandatory : List ExchangeEvent :=
  [.publish 0 (mandatoryPublish (Text.ofString "a")), .drained 0 none, .frame selectOk, .wake 0,
    .publish 1 (mandatoryPublish (Text.ofString "b")), .drained 0 none, .drained 1 none].map .local

/-- The first is returned before both are acked. -/
def firstReturned : List ExchangeEvent := bothMandatory ++ [.returns 0 (returnFrame 97) returnedContent] ++
  (returnedContent.map Event.frame ++ [Event.frame (ack 2 true), .wake 0, .wake 1]).map .local

theorem firstReturned_attributed : ∃ x, run Exchange.step ⟨openedOne, {}⟩ firstReturned = some x ∧
    ReturnsAttributed x := by
  obtain ⟨x, hx⟩ : ∃ x, run Exchange.step ⟨openedOne, {}⟩ firstReturned = some x :=
    Option.isSome_iff_exists.mp (by decide +kernel)
  exact ⟨x, hx, returns_attributed defaultFrameMax (by decide) [1] (reaches_of_run hx (by decide +kernel))⟩

/-- The second is returned while the ack of the first is yet to come. -/
def secondReturned : List ExchangeEvent := bothMandatory ++ [.returns 1 (returnFrame 98) returnedContent] ++
  (returnedContent.map Event.frame ++ [Event.frame (ack 2 true), .wake 0]).map .local

def Machine.endedReturned (m : Machine) (id : CallId) : Bool :=
  match m.calls id with
  | some (.done (some (args, _)) (.error (.publishReturned _))) => decide (args.channel = 1 ∧ args.mandatory = true)
  | _ => false

/-- The first publish takes the return of the second for its own. -/
theorem returns_not_attributed : ¬∀ x, ReachesWhere Exchange.step
    (fun x e => keepsProtocol x e = true ∧ countsPublishes x e = true) ⟨openedOne, {}⟩ x →
      ReturnsAttributed x := by
  intro hattributed
  have hrun : (run Exchange.step ⟨openedOne, {}⟩ secondReturned).any (fun x =>
      x.ledger.returned 1 = [2] ∧ publishNumber 1 x.machine.conn.written 0 = some 1 ∧
        x.machine.endedReturned 0 = true) = true := by decide +kernel
  obtain ⟨x, hx, hstate⟩ := (Option.any_eq_true _ _).mp hrun
  simp only [decide_eq_true_eq] at hstate
  obtain ⟨hledger, hnumber, hcall⟩ := hstate
  unfold Machine.endedReturned at hcall
  split at hcall
  · rename_i args tag returned hdone
    obtain ⟨hchannel, hmandatory⟩ := of_decide_eq_true hcall
    obtain ⟨number, hpublish, hended⟩ :=
      (hattributed x (reaches_of_run hx (by decide +kernel))).ended 0 args tag _ hdone hmandatory
    rw [hchannel, hnumber] at hpublish
    cases hpublish
    have hmem := hended.1
    rw [hchannel, hledger] at hmem
    simp at hmem
  · cases hcall

end Nuropb.Transport
