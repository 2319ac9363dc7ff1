import Nuropb.Patterns.Authorisation

/-! # How a delivery is settled

What has come of the `try` is answered with a nack, or with a reply and an ack, if that can be encoded, is not refused
as blocked, and fits its frames.
-/
namespace Nuropb.Patterns

open Library Protocol Transport

/-- What the other tasks leave alone: the channel stays open, and their frames are their own. -/
structure StaysUp (channel : Int) (caller : CallId) (conn conn' : Conn) : Prop where
  isOpen : conn.channels.get? channel = some .open → conn'.channels.get? channel = some .open
  others : ∃ sent, conn'.written = conn.written ++ sent ∧ ∀ s ∈ sent, s.caller ≠ some caller

/-- The connection stays up while the server waits. -/
structure Round.Live (round : Round) (channel : Int) (caller : CallId) : Prop where
  receive : ∀ conn, ∃ conn', round.receive conn = .ok () conn' ∧ StaysUp channel caller conn conn'
  handler : ∀ method params, Keeps (StaysUp channel caller) (round.handler method params)
  drain : ∀ conn, ∃ conn', round.drain conn = .ok () conn' ∧ StaysUp channel caller conn conn'

/-- The frames that the task has written since. -/
def framesBy (caller : CallId) (conn conn' : Conn) : List Frame :=
  ((conn'.written.drop conn.written.length).filter fun s => s.caller = some caller).map Sent.frame

/-- The log has grown by these frames of the task, and by frames of others. -/
def Wrote (caller : CallId) (frames : List Frame) (conn conn' : Conn) : Prop :=
  ∃ sent, conn'.written = conn.written ++ sent ∧
    (sent.filter fun s => s.caller = some caller).map Sent.frame = frames

def IsMethod (channel : Int) (method : Method) (frame : Frame) : Prop :=
  ∃ payload, encodeMethod method = .ok payload ∧ frame = ⟨.method, channel, payload⟩

/-- A whole message to the queue: a JSON-RPC object, which has the id of the request, as has the message. -/
def IsReply (stack : Nat) (channel : Int) (corr : Option Text) (replyTo : Text) (frames : List Frame) : Prop :=
  ∃ (entries : Table) (body : Bytes) (properties : Properties) (header : Bytes) (chunks : List Bytes) (first : Frame),
    encodeObject stack entries = .ok body ∧
      (∀ c rest, corr = some (c :: rest) → lookup (Text.ofString "id") entries = some (.str (c :: rest)) ∧
        properties .correlationId = some (.str (c :: rest))) ∧
      IsMethod channel (.basicPublish { exchange := [], routingKey := replyTo, mandatory := false }) first ∧
      encodeContentHeader {} 60 body.length properties = .ok header ∧ chunks.flatten = body ∧
      frames = first :: ⟨.header, channel, header⟩ :: chunks.map (Frame.mk .body channel)

/-- One settlement, after one reply if it is an ack and there is somewhere to reply to. -/
inductive Settles (stack : Nat) (channel : Int) (round : Round) : List Frame → Prop
  | nacked {requeue : Bool} {frame : Frame}
    (hnack : IsMethod channel (.basicNack round.msg.deliveryTag false requeue) frame) :
    Settles stack channel round [frame]
  | acked {frame : Frame} (hnowhere : round.replyTo = none)
    (hack : IsMethod channel (.basicAck round.msg.deliveryTag false) frame) : Settles stack channel round [frame]
  | replied {replyTo : Text} {reply : List Frame} {frame : Frame} (hreplyTo : round.replyTo = some replyTo)
    (hreply : IsReply stack channel round.corr replyTo reply)
    (hack : IsMethod channel (.basicAck round.msg.deliveryTag false) frame) :
    Settles stack channel round (reply ++ [frame])

section Server

variable (stack : Nat) (server : RpcServer)

def methodFits (conn : Conn) (channel : Int) (method : Method) : Bool :=
  (frameOf conn.frameMax .method channel (encodeMethod method)).isSome

/-- The reply is not refused as blocked, and its frames fit. -/
def replyFits (round : Round) (conn : Conn) (out : Bytes) : Bool :=
  match round.replyTo with
  | none => true
  | some replyTo =>
    !conn.publishBlocked &&
      (contentFrames conn.frameMax (server.replyArgs round.corr replyTo out) (replyProperties round.corr)).isSome

/-- What has come of the `try` can be answered: a nack fits, or the reply encodes and fits, and the ack. -/
def answerable (round : Round) (conn : Conn) : Except Exc Bytes → Bool
  | .error (.nackDelivery requeue) =>
    methodFits conn server.channelId (.basicNack round.msg.deliveryTag false requeue)
  | outcome =>
    match replyBody stack round.corr outcome with
    | .ok out => replyFits server round conn out &&
        methodFits conn server.channelId (.basicAck round.msg.deliveryTag false)
    | .error _ => false

end Server

section Frames

variable {channel : Int} {caller : CallId} {conn conn' conn'' : Conn} {frames more : List Frame}

theorem StaysUp.refl (conn : Conn) : StaysUp channel caller conn conn := ⟨id, [], by simp, by simp⟩

theorem StaysUp.trans (h : StaysUp channel caller conn conn') (h' : StaysUp channel caller conn' conn'') :
    StaysUp channel caller conn conn'' := by
  obtain ⟨sent, hsent, hothers⟩ := h.others
  obtain ⟨more, hmore, hothers'⟩ := h'.others
  refine ⟨h'.isOpen ∘ h.isOpen, sent ++ more, by rw [hmore, hsent, List.append_assoc], ?_⟩
  intro s hs
  rcases List.mem_append.mp hs with hs | hs
  · exact hothers s hs
  · exact hothers' s hs

theorem filter_others {sent : List Sent} (h : ∀ s ∈ sent, s.caller ≠ some caller) :
    sent.filter (fun s => s.caller = some caller) = [] := by
  rw [List.filter_eq_nil_iff]
  intro s hs
  simpa using h s hs

theorem filter_own (caller : CallId) (frames : List Frame) :
    (frames.map (Sent.mk (some caller))).filter (fun s => s.caller = some caller) =
      frames.map (Sent.mk (some caller)) := by
  rw [List.filter_eq_self]
  intro s hs
  obtain ⟨f, -, rfl⟩ := List.mem_map.mp hs
  simp

theorem Wrote.refl (caller : CallId) (conn : Conn) : Wrote caller [] conn conn := ⟨[], by simp, rfl⟩

theorem Wrote.trans (h : Wrote caller frames conn conn') (h' : Wrote caller more conn' conn'') :
    Wrote caller (frames ++ more) conn conn'' := by
  obtain ⟨sent, hsent, hframes⟩ := h
  obtain ⟨sent', hsent', hmore⟩ := h'
  refine ⟨sent ++ sent', by rw [hsent', hsent, List.append_assoc], ?_⟩
  rw [List.filter_append, List.map_append, hframes, hmore]

theorem wrote_append (caller : CallId) (conn : Conn) (frames : List Frame) :
    Wrote caller frames conn (conn.append (some caller) frames) := by
  refine ⟨frames.map (Sent.mk (some caller)), Conn.append_written conn _ frames, ?_⟩
  rw [filter_own, List.map_map]
  exact List.map_id frames

theorem Wrote.framesBy (h : Wrote caller frames conn conn') : framesBy caller conn conn' = frames := by
  obtain ⟨sent, hsent, hframes⟩ := h
  rw [Patterns.framesBy, hsent, List.drop_left, hframes]

theorem StaysUp.wrote (h : StaysUp channel caller conn conn') : Wrote caller [] conn conn' := by
  obtain ⟨sent, hsent, hothers⟩ := h.others
  exact ⟨sent, hsent, by rw [filter_others hothers, List.map_nil]⟩

theorem wrote_between {frames : List Frame} (h : StaysUp channel caller conn conn')
    (h' : StaysUp channel caller (conn'.append caller frames) conn'') : Wrote caller frames conn conn'' := by
  have hwrote := (h.wrote.trans (wrote_append caller conn' frames)).trans h'.wrote
  rw [List.nil_append, List.append_nil] at hwrote
  exact hwrote

theorem isMethod_of_frameOf {frameMax : Nat} {method : Method} {frame : Frame}
    (h : frameOf frameMax .method channel (encodeMethod method) = some frame) : IsMethod channel method frame := by
  obtain ⟨payload, hpayload, rfl, -⟩ := frameOf_eq_some_iff.mp h
  exact ⟨payload, hpayload, rfl⟩

end Frames

section Settling

variable {stack : Nat} {jwt : JwtDecode} {server : RpcServer} {caller : CallId} {round : Round} {conn : Conn}
  {s t : Serving}

/-- A settlement on an open channel is written exactly when it fits. -/
theorem settleDelivery_of_some {op : Settlement} {frame : Frame} {drain : ConnM Unit}
    (hopen : conn.channels.get? op.channel = some .open)
    (hframe : frameOf conn.frameMax .method op.channel (encodeMethod op.method) = some frame) :
    settleDelivery caller op drain conn = drain (conn.append caller [frame]) := by
  have hsend : sendMethod caller op.channel op.method conn = .ok () (conn.append caller [frame]) :=
    writePayload_of_some hframe
  have hstart : op.start caller conn = .ok () (conn.append caller [frame]) := by
    rw [Settlement.start, bind_run_ok (assertOpenForOps_of_open hopen), hsend]
  rw [settleDelivery, bind_run_ok hstart]

theorem settleDelivery_of_none {op : Settlement} {drain : ConnM Unit}
    (hopen : conn.channels.get? op.channel = some .open)
    (hframe : frameOf conn.frameMax .method op.channel (encodeMethod op.method) = none) :
    ∃ e, settleDelivery caller op drain conn = .error e conn := by
  obtain ⟨e, he⟩ := writePayload_of_none (some caller) hframe
  have hsend : sendMethod caller op.channel op.method conn = .error e conn := he
  have hstart : op.start caller conn = .error e conn := by
    rw [Settlement.start, bind_run_ok (assertOpenForOps_of_open hopen), hsend]
  exact ⟨e, by rw [settleDelivery, bind_run_error hstart]⟩

theorem contentOf_reply {corr : Option Text} {replyTo : Text} {out : Bytes}
    (hopen : conn.channels.get? server.channelId = some .open) (hblocked : conn.publishBlocked = false) :
    contentOf conn (server.replyArgs corr replyTo out) .call = some (replyProperties corr, false) := by
  have hchecked : conn.channels.get? (server.replyArgs corr replyTo out).channel = some .open ∧
      conn.publishBlocked = false := ⟨hopen, hblocked⟩
  rw [contentOf, if_pos hchecked]
  rfl

/-- A publish without a confirm that is blocked, or does not fit, raises. -/
theorem startPublish_raises {args : PublishArgs} {props : Properties}
    (hopen : conn.channels.get? args.channel = some .open)
    (hcontent : conn.publishBlocked = false → contentOf conn args .call = some (props, false))
    (h : conn.publishBlocked = true ∨ contentFrames conn.frameMax args props = none) :
    ∃ e conn', startPublish caller args conn = .error e conn' := by
  cases hblocked : conn.publishBlocked with
  | true =>
      have hcheck : assertOpenForOps args.channel conn = .ok () conn := assertOpenForOps_of_open hopen
      exact ⟨_, conn, by rw [startPublish, bind_run_ok hcheck, bind_run_ok (get_run _),
        bind_run_error (throwIf_of hblocked _ _)]⟩
  | false =>
      have hnone : contentFrames conn.frameMax args props = none := by
        rcases h with h | h
        · rw [hblocked] at h
          cases h
        · exact h
      obtain ⟨e, he⟩ := publishSegment_of_none caller (hcontent hblocked) hnone
      exact ⟨e, _, he⟩

theorem startPublish_of_not_fits {corr : Option Text} {replyTo : Text} {out : Bytes}
    (hopen : conn.channels.get? server.channelId = some .open)
    (h : conn.publishBlocked = true ∨
      contentFrames conn.frameMax (server.replyArgs corr replyTo out) (replyProperties corr) = none) :
    ∃ e conn', startPublish caller (server.replyArgs corr replyTo out) conn = .error e conn' :=
  startPublish_raises hopen (contentOf_reply hopen) h

theorem startPublish_of_fits {corr : Option Text} {replyTo : Text} {out : Bytes} {frames : List Frame}
    (hopen : conn.channels.get? server.channelId = some .open) (hblocked : conn.publishBlocked = false)
    (hframes : contentFrames conn.frameMax (server.replyArgs corr replyTo out) (replyProperties corr) = some frames) :
    startPublish caller (server.replyArgs corr replyTo out) conn =
      .ok (.written none) (conn.append caller frames) :=
  publishSegment_of_some caller (contentOf_reply hopen hblocked) hframes

/-- The body of a reply is an object with the request's id. -/
def HasId (stack : Nat) (corr : Option Text) (out : Bytes) : Prop :=
  ∃ entries, encodeObject stack entries = .ok out ∧
    ∀ c rest, corr = some (c :: rest) → lookup (Text.ofString "id") entries = some (.str (c :: rest))

theorem replyProperties_correlationId {c : CodePoint} {rest : Text} :
    replyProperties (some (c :: rest)) .correlationId = some (.str (c :: rest)) := rfl

/-- The frames of a publish: its method, its header, and its body in chunks. -/
theorem shape_of_contentFrames {args : PublishArgs} {props : Properties} {frames : List Frame} {frameMax : Nat}
    (hlt : frameMax < 2 ^ 32) (h : contentFrames frameMax args props = some frames) :
    ∃ (first : Frame) (header : Bytes) (chunks : List Bytes), IsMethod args.channel args.method first ∧
      encodeContentHeader args.python 60 args.body.length props = .ok header ∧ chunks.flatten = args.body ∧
      frames = first :: ⟨.header, args.channel, header⟩ :: chunks.map (Frame.mk .body args.channel) := by
  obtain ⟨method, hmethod, h⟩ := Option.bind_eq_some_iff.mp h
  obtain ⟨header, hheader, rfl⟩ := Option.map_eq_some_iff.mp h
  let conn : Conn := { frameMax, frameMax_lt := hlt }
  have hfits : methodFrame conn.frameMax args = some method := hmethod
  obtain ⟨hroom, -⟩ := fits_chunk hfits
  obtain ⟨raw, hraw, rfl, -⟩ := frameOf_eq_some_iff.mp hheader
  refine ⟨method, raw, bodyPayloads (frameMax - frameOverhead) args.body, isMethod_of_frameOf hmethod, hraw, ?_, rfl⟩
  unfold bodyPayloads
  split
  · rename_i hbody
    simp [hbody]
  · exact flatten_bodyChunks hroom le_rfl

theorem isReply_of_contentFrames {replyTo : Text} {out : Bytes} {frames : List Frame} {frameMax : Nat}
    (hid : HasId stack round.corr out) (hlt : frameMax < 2 ^ 32)
    (h : contentFrames frameMax (server.replyArgs round.corr replyTo out) (replyProperties round.corr) = some frames) :
    IsReply stack server.channelId round.corr replyTo frames := by
  obtain ⟨entries, hentries, hids⟩ := hid
  obtain ⟨first, header, chunks, hfirst, hheader, hchunks, hframes⟩ := shape_of_contentFrames hlt h
  refine ⟨entries, out, replyProperties round.corr, header, chunks, first, hentries, ?_, hfirst, hheader, hchunks,
    hframes⟩
  intro c rest hcorr
  refine ⟨hids c rest hcorr, ?_⟩
  rw [hcorr]
  exact replyProperties_correlationId

theorem replyAndAck_of_fits {out : Bytes} (hopen : conn.channels.get? server.channelId = some .open)
    (hid : HasId stack round.corr out) (hreply : replyFits server round conn out = true)
    (hack : methodFits conn server.channelId (.basicAck round.msg.deliveryTag false) = true) :
    ∃ frames, Settles stack server.channelId round frames ∧
      server.replyAndAck caller round out conn = round.drain (conn.append caller frames) := by
  obtain ⟨frame, hframe⟩ := Option.isSome_iff_exists.mp hack
  have hisAck := isMethod_of_frameOf hframe
  have hacked (before : Conn) (hbefore : before.channels.get? server.channelId = some .open)
      (hsame : before.frameMax = conn.frameMax) : settleDelivery caller
        (.basicAck server.channelId round.msg.deliveryTag) round.drain before =
          round.drain (before.append caller [frame]) :=
    settleDelivery_of_some hbefore (by rw [hsame]; exact hframe)
  rw [RpcServer.replyAndAck]
  cases hreplyTo : round.replyTo with
  | none => exact ⟨[frame], .acked hreplyTo hisAck, hacked conn hopen rfl⟩
  | some replyTo =>
      rw [replyFits, hreplyTo] at hreply
      simp only [Bool.and_eq_true, Bool.not_eq_true'] at hreply
      obtain ⟨hblocked, hfits⟩ := hreply
      obtain ⟨reply, hframes⟩ := Option.isSome_iff_exists.mp hfits
      refine ⟨reply ++ [frame], .replied hreplyTo (isReply_of_contentFrames hid conn.frameMax_lt hframes) hisAck, ?_⟩
      dsimp only
      rw [bind_run_ok (startPublish_of_fits hopen hblocked hframes), hacked (conn.append caller reply) hopen rfl,
        Conn.append_append]

theorem replyAndAck_of_not_fits {out : Bytes} (hopen : conn.channels.get? server.channelId = some .open)
    (h : replyFits server round conn out = false ∨
      methodFits conn server.channelId (.basicAck round.msg.deliveryTag false) = false) :
    ∃ e conn', server.replyAndAck caller round out conn = .error e conn' := by
  have hnotAcked (before : Conn) (hbefore : before.channels.get? server.channelId = some .open)
      (hsame : before.frameMax = conn.frameMax)
      (hack : methodFits conn server.channelId (.basicAck round.msg.deliveryTag false) = false) :
      ∃ e, settleDelivery caller (.basicAck server.channelId round.msg.deliveryTag) round.drain before =
        .error e before := by
    apply settleDelivery_of_none hbefore
    rw [hsame]
    have hnone : frameOf conn.frameMax .method server.channelId
        (encodeMethod (.basicAck round.msg.deliveryTag false)) = none := by
      simpa [methodFits] using hack
    exact hnone
  rw [RpcServer.replyAndAck]
  cases hreplyTo : round.replyTo with
  | none =>
      have hack : methodFits conn server.channelId (.basicAck round.msg.deliveryTag false) = false := by
        simpa [replyFits, hreplyTo] using h
      obtain ⟨e, he⟩ := hnotAcked conn hopen rfl hack
      exact ⟨e, conn, he⟩
  | some replyTo =>
      dsimp only
      by_cases hfits : replyFits server round conn out = true
      · have hack := h.resolve_left (by simp [hfits])
        rw [replyFits, hreplyTo] at hfits
        simp only [Bool.and_eq_true, Bool.not_eq_true'] at hfits
        obtain ⟨reply, hframes⟩ := Option.isSome_iff_exists.mp hfits.2
        obtain ⟨e, he⟩ := hnotAcked (conn.append caller reply) hopen rfl hack
        exact ⟨e, _, by rw [bind_run_ok (startPublish_of_fits hopen hfits.1 hframes), he]⟩
      · rw [replyFits, hreplyTo] at hfits
        have hrefused : conn.publishBlocked = true ∨ contentFrames conn.frameMax
            (server.replyArgs round.corr replyTo out) (replyProperties round.corr) = none := by
          cases hblocked : conn.publishBlocked with
          | true => exact .inl rfl
          | false => exact .inr (by simpa [hblocked] using hfits)
        obtain ⟨e, conn', he⟩ := startPublish_of_not_fits hopen hrefused
        exact ⟨e, conn', bind_run_error he⟩

theorem hasId_encodeResult {result : PyVal} {requestId : Text} {out : Bytes} {corr : Option Text}
    (h : encodeResult stack result (.str requestId) = .ok out) (hid : ∀ c, corr = some c → c = requestId) :
    HasId stack corr out := by
  refine ⟨_, h, ?_⟩
  intro c rest hcorr
  rw [← hid _ hcorr]
  rfl

theorem hasId_encodeError {code : Int} {message id data : PyVal} {corr : Option Text} {out : Bytes}
    (h : encodeError stack code message ((corr.map .str).getD id) data = .ok out) : HasId stack corr out := by
  obtain ⟨error, -, h⟩ := bind_eq_ok.mp h
  refine ⟨_, h, ?_⟩
  rintro c rest rfl
  rfl

/-- Whatever the `try` ends with, the reply that is made of it has the request's id. -/
theorem hasId_replyBody {corr : Option Text} {outcome : Except Exc Bytes} {out : Bytes}
    (hok : ∀ out, outcome = .ok out → HasId stack corr out) (h : replyBody stack corr outcome = .ok out) :
    HasId stack corr out := by
  unfold replyBody at h
  split at h
  · exact hok out h
  · exact hasId_encodeError h
  · cases h
  · exact hasId_encodeError h

theorem hasId_respond {out : Bytes} (h : server.respond stack jwt round s = .ok out t) :
    HasId stack round.corr out := by
  obtain ⟨⟨method, params, requestId⟩, s₁, haccept, hrest⟩ := bind_returns.mp h
  obtain ⟨result, s₂, -, hencode⟩ := bind_returns.mp hrest
  obtain ⟨hencoded, -⟩ := lift_returns.mp hencode
  exact hasId_encodeResult hencoded (accept_returns (lift_returns.mp haccept).1).2.1

/-- Until the `try` has ended, only the other tasks have changed the connection. -/
theorem staysUp_respond (hlive : round.Live server.channelId caller) :
    Keeps (fun s t : Serving => StaysUp server.channelId caller s.conn t.conn) (server.respond stack jwt round) := by
  have hrefl (s : Serving) : StaysUp server.channelId caller s.conn s.conn := .refl s.conn
  have htrans (s t u : Serving) (h : StaysUp server.channelId caller s.conn t.conn)
      (h' : StaysUp server.channelId caller t.conn u.conn) : StaysUp server.channelId caller s.conn u.conn := h.trans h'
  refine keeps_bind htrans (keeps_lift hrefl _) ?_
  rintro ⟨method, params, requestId⟩
  refine keeps_bind htrans (keeps_bind htrans (keeps_modify fun s => .refl s.conn) ?_) ?_
  · intro _ s
    have hkept := hlive.handler method params s.conn
    rw [onConn]
    cases hrun : round.handler method params s.conn with
    | ok a conn' =>
        rw [hrun] at hkept
        exact hkept
    | error e conn' =>
        rw [hrun] at hkept
        exact hkept
  · intro result
    exact keeps_lift hrefl _

/-- Every outcome but a refusal of the delivery is answered with a body. -/
theorem answerable_of_other {outcome : Except Exc Bytes} (h : ∀ requeue, outcome ≠ .error (.nackDelivery requeue)) :
    answerable stack server round conn outcome =
      match replyBody stack round.corr outcome with
      | .ok out => replyFits server round conn out &&
          methodFits conn server.channelId (.basicAck round.msg.deliveryTag false)
      | .error _ => false := by
  unfold answerable
  split
  · exact absurd rfl (h _)
  · rfl

theorem finish_of_other {outcome : Except Exc Bytes} (h : ∀ requeue, outcome ≠ .error (.nackDelivery requeue)) :
    server.finish stack caller round outcome =
      (lift (replyBody stack round.corr outcome) >>= fun out => server.replyAndAck caller round out) := by
  unfold RpcServer.finish
  split
  · exact absurd rfl (h _)
  · rfl

theorem finish_of_not_answerable {outcome : Except Exc Bytes} (hopen : conn.channels.get? server.channelId = some .open)
    (h : answerable stack server round conn outcome = false) :
    ∃ e conn', server.finish stack caller round outcome conn = .error e conn' := by
  by_cases hnack : ∃ requeue, outcome = .error (.nackDelivery requeue)
  · obtain ⟨requeue, rfl⟩ := hnack
    have h : methodFits conn server.channelId (.basicNack round.msg.deliveryTag false requeue) = false := h
    have hnone : frameOf conn.frameMax .method server.channelId
        (encodeMethod (.basicNack round.msg.deliveryTag false requeue)) = none := by
      simpa [methodFits] using h
    obtain ⟨e, he⟩ : ∃ e, settleDelivery caller (.basicNack server.channelId round.msg.deliveryTag requeue false)
        round.drain conn = .error e conn := settleDelivery_of_none hopen hnone
    exact ⟨e, conn, he⟩
  · have hother (requeue : Bool) : outcome ≠ .error (.nackDelivery requeue) := fun heq => hnack ⟨requeue, heq⟩
    rw [answerable_of_other hother] at h
    rw [finish_of_other hother]
    cases hbody : replyBody stack round.corr outcome with
    | error e => exact ⟨e, conn, bind_run_error (lift_error e conn)⟩
    | ok out =>
        rw [hbody] at h
        simp only [Bool.and_eq_false_iff] at h
        obtain ⟨e, conn', he⟩ := replyAndAck_of_not_fits hopen h
        exact ⟨e, conn', by rw [bind_run_ok (lift_ok out conn), he]⟩

theorem finish_of_answerable {outcome : Except Exc Bytes} (hopen : conn.channels.get? server.channelId = some .open)
    (hid : ∀ out, outcome = .ok out → HasId stack round.corr out)
    (h : answerable stack server round conn outcome = true) : ∃ frames, Settles stack server.channelId round frames ∧
      server.finish stack caller round outcome conn = round.drain (conn.append caller frames) := by
  by_cases hnack : ∃ requeue, outcome = .error (.nackDelivery requeue)
  · obtain ⟨requeue, rfl⟩ := hnack
    have h : methodFits conn server.channelId (.basicNack round.msg.deliveryTag false requeue) = true := h
    obtain ⟨frame, hframe⟩ := Option.isSome_iff_exists.mp h
    have hrun : settleDelivery caller (.basicNack server.channelId round.msg.deliveryTag requeue false)
        round.drain conn = round.drain (conn.append caller [frame]) := settleDelivery_of_some hopen hframe
    exact ⟨[frame], .nacked (isMethod_of_frameOf hframe), hrun⟩
  · have hother (requeue : Bool) : outcome ≠ .error (.nackDelivery requeue) := fun heq => hnack ⟨requeue, heq⟩
    rw [answerable_of_other hother] at h
    rw [finish_of_other hother]
    cases hbody : replyBody stack round.corr outcome with
    | error e =>
        rw [hbody] at h
        cases h
    | ok out =>
        rw [hbody] at h
        simp only [Bool.and_eq_true] at h
        obtain ⟨frames, hsettles, hrun⟩ := replyAndAck_of_fits hopen (hasId_replyBody hid hbody) h.1 h.2
        exact ⟨frames, hsettles, by rw [bind_run_ok (lift_ok out conn), hrun]⟩

/-- After the `try` the server writes the answer and drains, or it raises. -/
theorem handle_of_answerable {outcome : Except Exc Bytes} {ended : Serving} (caller : CallId)
    (hobserve : observe (server.respond stack jwt round) s = .ok outcome ended)
    (hopen : ended.conn.channels.get? server.channelId = some .open)
    (h : answerable stack server round ended.conn outcome = true) : ∃ frames, Settles stack server.channelId round frames ∧
      server.handle stack jwt caller round s = onConn round.drain { ended with conn := ended.conn.append caller frames } := by
  have hid : ∀ out, outcome = .ok out → HasId stack round.corr out := by
    rintro out rfl
    cases hrun : server.respond stack jwt round s with
    | error e t =>
        rw [observe_of_error hrun] at hobserve
        cases hobserve
    | ok a t =>
        rw [observe_of_ok hrun] at hobserve
        cases hobserve
        exact hasId_respond hrun
  obtain ⟨frames, hsettles, hrun⟩ : ∃ frames, Settles stack server.channelId round frames ∧
      server.finish stack caller round outcome ended.conn = round.drain (ended.conn.append caller frames) :=
    finish_of_answerable hopen hid h
  exact ⟨frames, hsettles, by rw [RpcServer.handle, bind_run_ok hobserve, onConn, hrun, onConn]⟩

theorem handle_of_not_answerable {outcome : Except Exc Bytes} {ended : Serving} (caller : CallId)
    (hobserve : observe (server.respond stack jwt round) s = .ok outcome ended)
    (hopen : ended.conn.channels.get? server.channelId = some .open)
    (h : answerable stack server round ended.conn outcome = false) :
    ∃ e raised, server.handle stack jwt caller round s = .error e raised := by
  obtain ⟨e, conn', he⟩ : ∃ e conn', server.finish stack caller round outcome ended.conn = .error e conn' :=
    finish_of_not_answerable hopen h
  exact ⟨e, { ended with conn := conn' }, by rw [RpcServer.handle, bind_run_ok hobserve, onConn, he]⟩

end Settling

end Nuropb.Patterns
