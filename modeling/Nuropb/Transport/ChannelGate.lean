import Nuropb.Library.Transition
import Nuropb.Transport.StepEffects

/-! # Operations of a connection that is gone

The operations look only at the machine of their channel, and nothing takes it out of OPEN when the
connection ends. They are refused on a connection that is gone as long as no channel is OPEN when it
goes.
-/
namespace Nuropb.Transport

open Library Protocol

/-- The connection is lost, or its machine is not OPEN_OK. -/
def Conn.Gone (conn : Conn) : Prop := conn.lost ≠ none ∨ conn.sm ≠ .openOk

/-- Every operation on the channel raises; no frame, waiter or confirm comes of it. -/
structure Conn.RefusesOn (conn : Conn) (channel : Int) : Prop where
  requests : ∀ id (r : SyncRequest), (∀ secret reason, r ≠ .updateSecret secret reason) → r.channel = channel →
    ∃ e conn', r.start id conn = .error e conn' ∧ conn.Refused conn'
  publishes : ∀ id (args : PublishArgs), args.channel = channel →
    ∃ e conn', publishSegment id args .call conn = .error e conn' ∧ conn.Refused conn'
  settlements : ∀ id (op : Settlement), op.channel = channel →
    ∃ e conn', op.start id conn = .error e conn' ∧ conn.Refused conn'

/-- A channel is OPEN only on a connection that is OPEN_OK and not lost. -/
def Conn.OpenAlive (conn : Conn) : Prop :=
  ∀ channel, conn.channels.get? channel = some .open → conn.sm = .openOk ∧ conn.lost = none

def Conn.noneOpen (conn : Conn) : Bool := conn.channels.values.all (· ≠ .open)

/-- No channel is OPEN when the connection ends, and a channel opens only while the connection is
OPEN_OK and not lost. -/
def keepsGate (c : Client) (e : ClientEvent) : Bool :=
  (!c.ends e || c.conn.noneOpen) && (!c.opens e || (c.conn.sm.isOpen && c.conn.lost.isNone))

section Gate

variable {conn : Conn} {channel : Int} {c c' : Client}

theorem noneOpen_iff : conn.noneOpen = true ↔ ∀ channel, conn.channels.get? channel ≠ some .open := by
  simp only [Conn.noneOpen, List.all_eq_true, Dict.mem_values_iff, decide_eq_true_eq]
  constructor
  · intro h channel hopen
    exact h .open ⟨channel, hopen⟩ rfl
  · rintro h state ⟨channel, hget⟩ rfl
    exact h channel hget

theorem assertOpenForOps_of_not_open (h : conn.channels.get? channel ≠ some .open) :
    ∃ e conn', assertOpenForOps channel conn = .error e conn' ∧ conn.Refused conn' := by
  cases hrun : assertOpenForOps channel conn with
  | ok u conn' => exact absurd (assertOpenForOps_returns.mp hrun).1 h
  | error e conn' => exact ⟨e, conn', rfl, (assertOpenForOps_raises hrun).2⟩

theorem refused_by_check {α : Type} (h : conn.channels.get? channel ≠ some .open) (rest : Unit → ConnM α) :
    ∃ e conn', (assertOpenForOps channel >>= rest) conn = .error e conn' ∧ conn.Refused conn' := by
  obtain ⟨e, conn', hrun, hrefused⟩ := assertOpenForOps_of_not_open h
  exact ⟨e, conn', bind_run_error hrun, hrefused⟩

theorem refusesOn_of_not_open (h : conn.channels.get? channel ≠ some .open) : conn.RefusesOn channel where
  requests id r hsecret hchannel := by
    subst hchannel
    cases r with
    | updateSecret secret reason => exact absurd rfl (hsecret secret reason)
    | _ => exact refused_by_check h _
  publishes id args hchannel := by
    subst hchannel
    exact refused_by_check h _
  settlements id op hchannel := by
    subst hchannel
    exact refused_by_check h _

/-- The reply to `open_channel` does not move the connection itself. -/
theorem opens_alive {e : ClientEvent} (h : c.step e = some c') (hopens : c.opens e = true) :
    c'.conn.sm = c.conn.sm ∧ c'.conn.lost = c.conn.lost := by
  cases e with
  | wakeJob id =>
    simp only [Client.opens] at hopens
    split at hopens
    · rename_i channel reply hjob hreply
      have hwake : c.wakeJob id = some c' := h
      simp only [Client.wakeJob, hjob, Job.key, Option.bind_some, hreply, Option.map_some,
        Option.some.injEq] at hwake
      subst hwake
      have hforget : (c.setConn (c.conn.forget (channel, (20, 11)))).conn = c.conn.forget (channel, (20, 11)) :=
        client_setConn_conn c _
      obtain ⟨channels, heq, -⟩ := openReplied_eq (c.setConn (c.conn.forget (channel, (20, 11)))) id channel
      rw [hforget] at heq
      have hconn : ∀ d : Client, d.conn = { c.conn.forget (channel, (20, 11)) with channels } →
          d.conn.sm = c.conn.sm ∧ d.conn.lost = c.conn.lost := by
        rintro d hd
        rw [hd]
        exact ⟨rfl, rfl⟩
      exact hconn _ heq
    · cases hopens
  | _ => cases hopens

theorem OpenAlive.step {e : ClientEvent} (hinv : c.conn.OpenAlive) (hkeeps : keepsGate c e = true)
    (h : c.step e = some c') : c'.conn.OpenAlive := by
  simp only [keepsGate, Bool.and_eq_true, Bool.or_eq_true, Bool.not_eq_true'] at hkeeps
  obtain ⟨hends, hopens⟩ := hkeeps
  have heffect := step_effect h
  intro channel hopen
  rcases hopens with hcloses | ⟨hsm, hlost⟩
  · have hbefore := (heffect.confined hcloses).opened channel hopen
    rcases hends with hends | hnone
    · have hoperates := heffect.operates hcloses hends
      rw [hoperates.sm, hoperates.lost]
      exact hinv channel hbefore
    · exact absurd hbefore (noneOpen_iff.mp hnone channel)
  · cases hcase : c.opens e with
    | true =>
      obtain ⟨hsm', hlost'⟩ := opens_alive h hcase
      rw [hsm', hlost']
      refine ⟨?_, Option.isNone_iff_eq_none.mp hlost⟩
      generalize c.conn.sm = sm at hsm ⊢
      cases sm <;> first | rfl | cases hsm
    | false =>
      have hbefore := (heffect.confined hcase).opened channel hopen
      rcases hends with hends | hnone
      · have hoperates := heffect.operates hcase hends
        rw [hoperates.sm, hoperates.lost]
        exact hinv channel hbefore
      · exact absurd hbefore (noneOpen_iff.mp hnone channel)

end Gate

/-- In every run that keeps the gate, a channel is OPEN only on a live connection, and once the
connection is gone every operation on every channel is refused. -/
theorem refused_once_gone (config : ConnectionConfig) {c : Client}
    (h : ReachesWhere Client.step (fun c e => keepsGate c e = true) (Client.new config) c) :
    c.conn.OpenAlive ∧ (c.conn.Gone → ∀ channel, c.conn.RefusesOn channel) := by
  have hinv : c.conn.OpenAlive :=
    h.invariant (fun _ hopen => absurd hopen (by simp [Client.new, Client.conn, ConnectionConfig.newConn]))
      fun _ _ _ hinv hkeeps hstep => OpenAlive.step hinv hkeeps hstep
  refine ⟨hinv, fun hgone channel => refusesOn_of_not_open fun hopen => ?_⟩
  obtain ⟨hsm, hlost⟩ := hinv channel hopen
  rcases hgone with hgone | hgone
  · exact hgone hlost
  · exact hgone hsm

def defaultConfig : ConnectionConfig := {}

def startFrame : Frame := ⟨.method, 0, [0, 10, 0, 10, 0, 9, 0, 0, 0, 0, 0, 0, 0, 5, 80, 76, 65, 73, 78, 0, 0, 0, 0]⟩

def tuneFrame : Frame := ⟨.method, 0, [0, 10, 0, 30, 7, 255, 0, 2, 0, 0, 0, 60]⟩

def openOkFrame : Frame := ⟨.method, 0, [0, 10, 0, 41, 0]⟩

def channelOpenOkFrame : Frame := ⟨.method, 1, [0, 20, 0, 11, 0, 0, 0, 0]⟩

def handshakeDone : List ClientEvent :=
  [.connect 0, .resumed 0 none, .resumed 0 none, .task (.frame startFrame), .wakeJob 0, .resumed 0 none,
    .task (.frame tuneFrame), .wakeJob 0, .resumed 0 none, .resumed 0 none, .task (.frame openOkFrame), .wakeJob 0]

def channelOpened : List ClientEvent :=
  handshakeDone ++ [.openChannel 1 1, .resumed 1 none, .task (.frame channelOpenOkFrame), .wakeJob 1]

def goneEarly : List ClientEvent := handshakeDone ++ [.openChannel 1 1, .resumed 1 none, .task .eof]

theorem goneEarly_refused : ∃ c, run Client.step (Client.new defaultConfig) goneEarly = some c ∧
    c.conn.channels.get? 1 = some .opening ∧ c.conn.Gone ∧ ∀ channel, c.conn.RefusesOn channel := by
  have hrun : (run Client.step (Client.new defaultConfig) goneEarly).any (fun c =>
      c.conn.channels.get? 1 = some .opening ∧ c.conn.lost.isSome = true) = true := by decide +kernel
  obtain ⟨c, hc, hstate⟩ := (Option.any_eq_true _ _).mp hrun
  obtain ⟨hopening, hlost⟩ := of_decide_eq_true hstate
  have hgone : c.conn.Gone := .inl (Option.isSome_iff_ne_none.mp hlost)
  exact ⟨c, hc, hopening, hgone, (refused_once_gone defaultConfig (reaches_of_run hc (by decide +kernel))).2 hgone⟩

def Conn.publishes (conn : Conn) : Bool :=
  match publishSegment 2 { channel := 1, body := [104, 105] } .call conn with
  | .ok (.written none) conn' => decide (conn.written.length < conn'.written.length)
  | _ => false

/-- Once the broker has gone away from an open channel, a publish still writes its content. -/
theorem publish_after_loss : ∃ c, run Client.step (Client.new defaultConfig) (channelOpened ++ [.task .eof]) = some c ∧
    c.conn.lost.isSome = true ∧ c.conn.channels.get? 1 = some .open ∧
      ∃ conn', publishSegment 2 { channel := 1, body := [104, 105] } .call c.conn = .ok (.written none) conn' ∧
        c.conn.written.length < conn'.written.length := by
  have hrun : (run Client.step (Client.new defaultConfig) (channelOpened ++ [.task .eof])).any (fun c =>
      c.conn.lost.isSome = true ∧ c.conn.channels.get? 1 = some .open ∧
        c.conn.publishes = true) = true := by decide +kernel
  obtain ⟨c, hc, hstate⟩ := (Option.any_eq_true _ _).mp hrun
  simp only [decide_eq_true_eq] at hstate
  obtain ⟨hlost, hopen, hpublish⟩ := hstate
  refine ⟨c, hc, hlost, hopen, ?_⟩
  unfold Conn.publishes at hpublish
  split at hpublish
  · rename_i conn' hsegment
    exact ⟨conn', hsegment, of_decide_eq_true hpublish⟩
  · cases hpublish

end Nuropb.Transport
