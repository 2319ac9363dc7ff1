import Nuropb.Transport.ChannelGate

/-! # A channel that the broker closes

The read loop knows `channel.close` but gives it to the waiters like any reply. It is never answered,
and the channel stays as it was.
-/
namespace Nuropb.Transport

open Library Protocol

def sentSince (conn conn' : Conn) (channel : Int) : List Frame :=
  ((conn'.written.drop conn.written.length).filter fun s => s.frame.channel = channel).map Sent.frame

/-- What a `channel.close` that is taken between the two states is to do: the channel is not OPEN,
the next frame that is sent on it is `channel.close-ok`, what waits on it has failed, its operations
are refused from then on, and the other channels are as before. -/
structure ClosesChannel (c c' : Client) (channel : Int) : Prop where
  notOpen : c'.conn.channels.get? channel ≠ some .open
  answered : ∃ d, Reaches Client.step c' d ∧ ∃ first rest,
    sentSince c.conn d.conn channel = first :: rest ∧ first.methodIds = some closeOkIds
  confirms : ∀ tag fut, (c.conn.trackerOf channel).outstanding.get? tag = some fut →
    ∃ e, c'.conn.confirms fut = some (.error e)
  waiters : ∀ ids fut, c.conn.waiters.get? (channel, ids) = some fut → ∃ e, c'.conn.replies fut = some (.error e)
  refused : ∀ d, Reaches Client.step c' d → d.conn.RefusesOn channel
  others : ∀ other, other ≠ channel → c'.conn.channels.get? other = c.conn.channels.get? other ∧
    c'.conn.trackerOf other = c.conn.trackerOf other

structure LeavesChannels (conn conn' : Conn) : Prop where
  channels : conn'.channels = conn.channels
  confirm : conn'.confirm = conn.confirm
  confirms : conn'.confirms = conn.confirms
  waiters : conn'.waiters = conn.waiters
  written : conn'.written = conn.written

section Runs

variable {c c' d : Client} {conn conn' : Conn} {channel : Int} {f : Frame} {args : CloseArgs}

theorem logs_of_reaches (h : Reaches Client.step c d) : Logs c.conn d.conn := by
  have hstart : Logs c.conn c.conn := .of_written rfl
  exact h.invariant hstart fun _ _ _ hlogs _ hstep => Logs.trans hlogs (step_effect hstep).logs

theorem Logs.sentSince (h : Logs conn conn') (channel : Int) :
    ∀ f ∈ sentSince conn conn' channel, f.methodIds ≠ some closeOkIds := by
  obtain ⟨more, hwritten, hmore⟩ := h
  intro f hf
  rw [Transport.sentSince, hwritten, List.drop_left] at hf
  obtain ⟨s, hs, rfl⟩ := List.mem_map.mp hf
  exact hmore s (List.mem_filter.mp hs).1

theorem readFrame_channelClose (htype : f.frameType = .method)
    (hmethod : decodeMethod f.payload = .ok (.channelClose args)) (conn : Conn) :
    conn.readFrame f = conn.settleWaiter f.channel (.channelClose args) := by
  have hprocess : processFrame f conn = processMethod f.channel f.payload conn := by
    rw [processFrame, htype]
  refine readFrame_of_ok ?_
  rw [hprocess, processMethod, hmethod, bind_run_ok (lift_ok _ _)]
  rfl

theorem leavesChannels_settleWaiter (conn : Conn) (channel : Int) (method : Method) :
    LeavesChannels conn (conn.settleWaiter channel method) := by
  obtain ⟨replies, heq⟩ := conn.settleWaiter_eq channel method
  rw [heq]
  exact ⟨rfl, rfl, rfl, rfl, rfl⟩

theorem frameStep_conn (h : c.step (.task (.frame f)) = some c') : c'.conn = c.conn.readFrame f := by
  have hmap : (c.tasks.step (.frame f)).map c.absorb = some c' := h
  obtain ⟨tasks, htasks, rfl⟩ := Option.map_eq_some_iff.mp hmap
  obtain ⟨-, ⟨⟩⟩ := Option.ite_none_right_eq_some.mp htasks
  exact absorb_conn c _

end Runs

/-- Whatever the state, a `channel.close` closes nothing: the channel, its confirms and its waiters
are as before, and no run ever answers it. -/
theorem channelClose_ignored {c c' : Client} {f : Frame} {args : CloseArgs} (htype : f.frameType = .method)
    (hmethod : decodeMethod f.payload = .ok (.channelClose args))
    (hstep : c.step (.task (.frame f)) = some c') :
    LeavesChannels c.conn c'.conn ∧
      (∀ d, Reaches Client.step c' d → ∀ sent ∈ sentSince c.conn d.conn f.channel,
        sent.methodIds ≠ some closeOkIds) ∧
      ¬ClosesChannel c c' f.channel := by
  have hleaves : LeavesChannels c.conn c'.conn := by
    rw [frameStep_conn hstep, readFrame_channelClose htype hmethod]
    exact leavesChannels_settleWaiter _ _ _
  have hnever (d : Client) (hd : Reaches Client.step c' d) :
      ∀ sent ∈ sentSince c.conn d.conn f.channel, sent.methodIds ≠ some closeOkIds :=
    ((Logs.of_written hleaves.written).trans (logs_of_reaches hd)).sentSince f.channel
  refine ⟨hleaves, hnever, fun hcloses => ?_⟩
  obtain ⟨d, hd, first, rest, hsent, hids⟩ := hcloses.answered
  exact hnever d hd first (by rw [hsent]; exact List.mem_cons_self) hids

def channelCloseFrame : Frame := ⟨.method, 1, [0, 20, 0, 40, 1, 148, 0, 0, 50, 0, 10]⟩

/-- The broker closes an open channel. -/
theorem openChannel_ignores : ∃ c c', run Client.step (Client.new defaultConfig) channelOpened = some c ∧
    c.step (.task (.frame channelCloseFrame)) = some c' ∧ LeavesChannels c.conn c'.conn ∧
      (∀ d, Reaches Client.step c' d → ∀ sent ∈ sentSince c.conn d.conn 1, sent.methodIds ≠ some closeOkIds) ∧
      ¬ClosesChannel c c' 1 := by
  have hrun : (run Client.step (Client.new defaultConfig) channelOpened).any (fun c =>
      (c.step (.task (.frame channelCloseFrame))).isSome) = true := by decide +kernel
  obtain ⟨c, hc, hsome⟩ := (Option.any_eq_true _ _).mp hrun
  obtain ⟨c', hc'⟩ := Option.isSome_iff_exists.mp hsome
  exact ⟨c, c', hc, hc', channelClose_ignored rfl rfl hc'⟩

def closedWhileConfirming : List ClientEvent :=
  channelOpened ++ [.task (.publish 2 { channel := 1, body := [104, 105], confirm := some true }),
    .task (.drained 2 none), .task (.frame ⟨.method, 1, [0, 85, 0, 11]⟩), .task (.wake 2),
    .task (.drained 2 none)]

/-- The channel stays OPEN and the publish waits on. -/
theorem channelClose_not_closes : ∃ c c',
    run Client.step (Client.new defaultConfig) closedWhileConfirming = some c ∧
      c.step (.task (.frame channelCloseFrame)) = some c' ∧ c'.waiting 2 = true ∧ ¬ClosesChannel c c' 1 := by
  have hrun : (run Client.step (Client.new defaultConfig) closedWhileConfirming).any (fun c =>
      (c.step (.task (.frame channelCloseFrame))).any fun c' =>
        c'.waiting 2 = true ∧ c'.conn.channels.get? 1 = some .open) = true := by decide +kernel
  obtain ⟨c, hc, hsome⟩ := (Option.any_eq_true _ _).mp hrun
  obtain ⟨c', hc', hstate⟩ := (Option.any_eq_true _ _).mp hsome
  obtain ⟨hwaiting, hopen⟩ := of_decide_eq_true hstate
  exact ⟨c, c', hc, hc', hwaiting, fun hcloses => hcloses.notOpen hopen⟩

end Nuropb.Transport
