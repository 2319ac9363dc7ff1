import Nuropb.Transport.Client
import Nuropb.Transport.Numbering

/-! # What operations leave alone

No step of a connection but the reply to `open_channel` opens a channel, and none ever writes
`channel.close-ok`. An operation of a channel does not end the connection either.
-/
namespace Nuropb.Transport

open Library Protocol

/-- The ids of `channel.close-ok`. -/
def closeOkIds : MethodId := (20, 41)

/-- The log has grown, and not by a `channel.close-ok`. -/
def Logs (conn conn' : Conn) : Prop :=
  ∃ more, conn'.written = conn.written ++ more ∧ ∀ s ∈ more, s.frame.methodIds ≠ some closeOkIds

/-- No channel that there was is gone. -/
def KeepsChannels (conn conn' : Conn) : Prop :=
  ∀ channel, conn.channels.get? channel ≠ none → conn'.channels.get? channel ≠ none

/-- No channel has come open. -/
structure Confined (conn conn' : Conn) : Prop where
  opened : ∀ channel, conn'.channels.get? channel = some .open → conn.channels.get? channel = some .open
  known : KeepsChannels conn conn'
  logs : Logs conn conn'

structure Operates (conn conn' : Conn) : Prop extends Confined conn conn' where
  sm : conn'.sm = conn.sm
  lost : conn'.lost = conn.lost

section Rules

variable {conn conn' conn'' : Conn}

theorem Logs.of_written (h : conn'.written = conn.written) : Logs conn conn' :=
  ⟨[], by rw [h, List.append_nil], by simp⟩

theorem Logs.trans (h : Logs conn conn') (h' : Logs conn' conn'') : Logs conn conn'' := by
  obtain ⟨more, hwritten, hmore⟩ := h
  obtain ⟨more', hwritten', hmore'⟩ := h'
  refine ⟨more ++ more', by rw [hwritten', hwritten, List.append_assoc], fun s hs => ?_⟩
  rcases List.mem_append.mp hs with hs | hs
  · exact hmore s hs
  · exact hmore' s hs

theorem Confined.of_same (hchannels : conn'.channels = conn.channels) (hwritten : conn'.written = conn.written) :
    Confined conn conn' where
  opened channel h := by rwa [hchannels] at h
  known channel h := by rwa [hchannels]
  logs := .of_written hwritten

theorem Confined.trans (h : Confined conn conn') (h' : Confined conn' conn'') : Confined conn conn'' where
  opened channel hopen := h.opened channel (h'.opened channel hopen)
  known channel hknown := h'.known channel (h.known channel hknown)
  logs := h.logs.trans h'.logs

theorem Operates.of_same (hsm : conn'.sm = conn.sm) (hlost : conn'.lost = conn.lost)
    (hchannels : conn'.channels = conn.channels) (hwritten : conn'.written = conn.written) :
    Operates conn conn' where
  toConfined := .of_same hchannels hwritten
  sm := hsm
  lost := hlost

theorem Operates.refl (conn : Conn) : Operates conn conn := .of_same rfl rfl rfl rfl

theorem Operates.trans (h : Operates conn conn') (h' : Operates conn' conn'') : Operates conn conn'' where
  toConfined := h.toConfined.trans h'.toConfined
  sm := h'.sm.trans h.sm
  lost := h'.lost.trans h.lost

theorem keepsChannels_set (conn : Conn) (channel : Int) (state : ChanState) :
    KeepsChannels conn { conn with channels := conn.channels.set channel state } := by
  intro other hknown
  by_cases hother : channel = other
  · subst hother
    rw [Dict.get?_set_self]
    exact Option.some_ne_none state
  · rwa [Dict.get?_set_of_ne _ hother]

theorem operates_setChannel (conn : Conn) (channel : Int) {state : ChanState} (h : state ≠ .open) :
    Operates conn { conn with channels := conn.channels.set channel state } where
  opened other hopen := by
    by_cases hother : channel = other
    · subst hother
      rw [Dict.get?_set_self] at hopen
      exact absurd (Option.some.inj hopen) h
    · rwa [Dict.get?_set_of_ne _ hother] at hopen
  known := keepsChannels_set conn channel state
  logs := .of_written rfl
  sm := rfl
  lost := rfl

theorem operates_append (conn : Conn) (caller : Option CallId) {frame : Frame}
    (h : frame.methodIds ≠ some closeOkIds) : Operates conn (conn.append caller [frame]) where
  opened _ hopen := hopen
  known _ hknown := hknown
  logs := ⟨[⟨caller, frame⟩], rfl, by simpa using h⟩
  sm := rfl
  lost := rfl

theorem operates_setTracker (conn : Conn) (channel : Int) (tracker : ConfirmTracker) :
    Operates conn (conn.setTracker channel tracker) :=
  .of_same rfl rfl rfl rfl

theorem operates_recordTag (conn : Conn) (args : PublishArgs) (tag : Option Nat) :
    Operates conn (conn.recordTag args tag) := by
  unfold Conn.recordTag
  split
  · split
    · exact .of_same rfl rfl rfl rfl
    · exact .refl conn
  · exact .refl conn

end Rules

/-! ## Operations -/

section Operations

theorem operates_bind {α β : Type} {x : ConnM α} {f : α → ConnM β} (hx : Keeps Operates x)
    (hf : ∀ a, Keeps Operates (f a)) : Keeps Operates (x >>= f) :=
  keeps_bind (fun _ _ _ => .trans) hx hf

theorem operates_modify {f : Conn → Conn} (h : ∀ conn, Operates conn (f conn)) :
    Keeps Operates (modify f : ConnM Unit) :=
  keeps_modify h

theorem operates_writeFrame (caller : Option CallId) {frame : Frame} (h : frame.methodIds ≠ some closeOkIds) :
    Keeps Operates (writeFrame caller frame) :=
  operates_bind (keeps_get .refl) fun _ => operates_bind (keeps_lift .refl _) fun _ =>
    operates_modify fun conn => operates_append conn caller h

theorem operates_sendMethod (caller : Option CallId) (channel : Int) {method : Method}
    (h : method.ids ≠ closeOkIds) : Keeps Operates (sendMethod caller channel method) := by
  intro conn
  cases hframe : frameOf conn.frameMax .method channel (encodeMethod method) with
  | none =>
    obtain ⟨e, he⟩ := writePayload_of_none caller hframe
    rw [sendMethod, he]
    exact .refl conn
  | some frame =>
    rw [sendMethod, writePayload_of_some hframe]
    refine operates_append conn caller ?_
    rw [(methodIds_of_frameOf hframe).2]
    exact fun heq => h (Option.some.inj heq)

theorem operates_assertOpenForOps (channel : Int) : Keeps Operates (assertOpenForOps channel) :=
  operates_bind (keeps_get .refl) fun _ => operates_bind (keeps_lift .refl _) fun _ =>
    keeps_ite
      (fun _ => operates_bind (operates_modify fun conn => operates_setChannel conn channel (by decide)) fun _ =>
        keeps_throw .refl _)
      (fun _ => keeps_pure .refl _)

theorem operates_startConfirmSelect (caller : Option CallId) (channel : Int) :
    Keeps Operates (startConfirmSelect caller channel) :=
  operates_bind (operates_assertOpenForOps channel) fun _ => operates_bind (keeps_get .refl) fun _ =>
    operates_bind (operates_modify fun conn => operates_setTracker conn channel _) fun _ =>
      keeps_ite (fun _ => keeps_pure .refl _) fun _ =>
        operates_bind (operates_sendMethod caller channel (by decide)) fun _ => keeps_pure .refl _

theorem operates_writeChunks (caller : CallId) (channel : Int) (payloadMax rounds : Nat) (rest : Bytes) :
    Keeps Operates (writeChunks caller channel payloadMax rounds rest) := by
  induction rounds, rest using writeChunks.induct payloadMax with
  | case1 rounds =>
    rw [writeChunks]
    exact keeps_pure .refl _
  | case2 b rest =>
    rw [writeChunks]
    exact keeps_throw .refl _
  | case3 rounds b rest ih =>
    rw [writeChunks]
    exact operates_bind (operates_writeFrame _ (by simp [Frame.methodIds])) fun _ => ih

theorem operates_writeContent (caller : CallId) (args : PublishArgs) (props : Properties) (tag : Option Nat) :
    Keeps Operates (writeContent caller args props tag) := by
  refine operates_bind (operates_modify fun conn => operates_recordTag conn args tag) fun _ => ?_
  refine operates_bind (operates_sendMethod _ _ (by simp [PublishArgs.method, Method.ids, closeOkIds])) fun _ => ?_
  have hheader : Keeps Operates
      (writePayload caller .header args.channel (encodeContentHeader args.python 60 args.body.length props)) :=
    operates_bind (keeps_lift .refl _) fun _ => operates_writeFrame _ (by simp [Frame.methodIds])
  refine operates_bind hheader fun _ => operates_bind (keeps_get .refl) fun _ =>
    operates_bind (keeps_lift .refl _) fun _ => keeps_ite ?_ ?_
  · exact fun _ => operates_writeFrame _ (by simp [Frame.methodIds])
  · exact fun _ => operates_writeChunks caller args.channel _ _ _

theorem operates_publishRegistered (caller : CallId) (args : PublishArgs) (props : Properties) :
    Keeps Operates (publishRegistered caller args props) := by
  have hregister : Keeps Operates (registerConfirm caller args.channel) :=
    operates_bind (keeps_get .refl) fun _ => operates_bind (keeps_lift .refl _) fun _ =>
      operates_bind (operates_modify fun conn => operates_setTracker conn args.channel _) fun _ =>
        keeps_pure .refl _
  exact operates_bind hregister fun _ => operates_bind (operates_writeContent caller args props _) fun _ =>
    keeps_pure .refl _

theorem operates_publishSegment (caller : CallId) (args : PublishArgs) (entry : PublishEntry) :
    Keeps Operates (publishSegment caller args entry) := by
  cases entry with
  | afterSelect props => exact operates_publishRegistered caller args props
  | call =>
    have hchecked (props : Properties) (tracker : ConfirmTracker) :
        Keeps Operates (publishChecked caller args props tracker) :=
      keeps_ite
        (fun _ => keeps_ite (fun _ => operates_publishRegistered caller args props) fun _ =>
          operates_bind (operates_startConfirmSelect caller args.channel) fun _ =>
            keeps_ite (fun _ => keeps_pure .refl _) fun _ => operates_publishRegistered caller args props)
        (fun _ => operates_bind (operates_writeContent caller args props none) fun _ => keeps_pure .refl _)
    exact operates_bind (operates_assertOpenForOps args.channel) fun _ => operates_bind (keeps_get .refl) fun _ =>
      operates_bind (keeps_throwIf .refl _ _) fun _ => operates_bind (keeps_lift .refl _) fun _ =>
        hchecked _ _

theorem SyncRequest.ids_ne_closeOk (r : SyncRequest) : r.method.ids ≠ closeOkIds := by
  cases r <;> simp [SyncRequest.method, Method.ids, closeOkIds]

theorem operates_request (caller : CallId) (r : SyncRequest) : Keeps Operates (r.start caller) := by
  have hsend : Keeps Operates (do sendMethod caller r.channel r.method
                                  return true) :=
    operates_bind (operates_sendMethod caller r.channel r.ids_ne_closeOk) fun _ => keeps_pure .refl _
  cases r with
  | confirmSelect channel => exact operates_startConfirmSelect caller channel
  | updateSecret newSecret reason =>
    exact operates_bind (keeps_get .refl) fun _ => operates_bind (keeps_throwIf .refl _ _) fun _ => hsend
  | _ => exact operates_bind (operates_assertOpenForOps _) fun _ => hsend

theorem operates_finish (r : SyncRequest) (reply : Method) : Keeps Operates (r.finish reply) := by
  by_cases hselect : ∃ channel, r = .confirmSelect channel
  · obtain ⟨channel, rfl⟩ := hselect
    exact operates_bind (operates_modify fun conn => operates_setTracker conn channel _) fun _ =>
      keeps_pure .refl _
  · rw [SyncRequest.finish_of_ne_select hselect]
    exact keeps_lift .refl _

theorem operates_settlement (caller : CallId) (op : Settlement) : Keeps Operates (op.start caller) := by
  refine operates_bind (operates_assertOpenForOps op.channel) fun _ => operates_sendMethod caller op.channel ?_
  cases op <;> simp [Settlement.method, Method.ids, closeOkIds]

end Operations

end Nuropb.Transport
