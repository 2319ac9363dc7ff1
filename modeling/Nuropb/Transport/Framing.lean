import Nuropb.Transport.Publish
import Nuropb.Transport.ReadLoop

/-! # What a publish sends, the read loop can receive

The chunk loop of `basic_publish` and the content assembler of the read loop agree on every
body but the empty one, whose empty BODY frame the assembler rejects.
-/
namespace Nuropb.Transport

open Library Protocol

def deliveredMessage (args : BasicDeliverArgs) (body : Bytes) (props : Properties) : IncomingMessage where
  deliveryTag := args.deliveryTag
  exchange := args.exchange
  routingKey := args.routingKey
  body := body
  properties := props
  redelivered := args.redelivered
  consumerTag := args.consumerTag

section Assembly

variable {channel : Int} {peer : Conn} {slot : Slot}

theorem processBody_of_slot {payload : Bytes} {remaining : Nat}
    (hslot : peer.pendingContent.get? channel = some slot) (hrem : slot.remaining = some remaining)
    (hfits : payload.length ≤ remaining) :
    processBody channel payload peer =
      .ok () (if remaining = payload.length then
        peer.finishDelivery channel { slot with
          body := slot.body ++ payload, remaining := some (remaining - payload.length) }
      else peer.setSlot channel { slot with
          body := slot.body ++ payload, remaining := some (remaining - payload.length) }) := by
  rw [processBody, bind_run_ok (get_run _)]
  simp only [hslot, Option.bind_some, hrem, Option.map_some, if_neg (Nat.not_lt.mpr hfits)]
  split <;> rfl

@[simp] theorem finishDelivery_setSlot (peer : Conn) (channel : Int) (a b : Slot) :
    (peer.setSlot channel a).finishDelivery channel b = peer.finishDelivery channel b := by
  simp only [Conn.finishDelivery, Conn.setSlot, Dict.erase_set_self]

/-- BODY frames that make up the announced rest finish the delivery with the last of them. -/
theorem processFrames_bodies {chunks : List Bytes} (hchunks : ∀ chunk ∈ chunks, chunk ≠ [])
    (hne : chunks ≠ []) (hslot : peer.pendingContent.get? channel = some slot)
    (hrem : slot.remaining = some chunks.flatten.length) :
    processFrames (chunks.map (Frame.mk .body channel)) peer =
      .ok () (peer.finishDelivery channel { slot with
        body := slot.body ++ chunks.flatten, remaining := some 0 }) := by
  induction chunks generalizing peer slot with
  | nil => exact absurd rfl hne
  | cons chunk rest ih =>
    have hlen : chunk.length ≤ (chunk :: rest).flatten.length := by simp
    have hstep := processBody_of_slot hslot hrem hlen
    rw [List.map_cons, processFrames, processFrame]
    cases rest with
    | nil =>
      rw [if_pos (by simp)] at hstep
      rw [bind_run_ok hstep]
      simp [processFrames]
    | cons next rest =>
      have hnext : next ≠ [] := hchunks next (by simp)
      have hpos : 0 < next.length := List.length_pos_iff.mpr hnext
      have hmore : (chunk :: next :: rest).flatten.length ≠ chunk.length := by
        simp only [List.flatten_cons, List.length_append]
        omega
      rw [if_neg hmore] at hstep
      rw [bind_run_ok hstep, ih (fun c hc => hchunks c (List.mem_cons_of_mem _ hc)) (by simp)
        (Dict.get?_set_self _ _ _) (by simp), finishDelivery_setSlot]
      simp [List.append_assoc]

end Assembly

section Content

variable {channel : Int} {peer : Conn} {deliver : BasicDeliverArgs} {header : Bytes}
  {classId bodySize : Nat} {props : Properties} {chunks : List Bytes}

theorem processHeader_of_slot {slot : Slot} (hslot : peer.pendingContent.get? channel = some slot)
    (hdecode : decodeContentHeader header = .ok ⟨classId, bodySize, props⟩) (hsize : bodySize ≠ 0) :
    processHeader channel header peer = .ok () (peer.setSlot channel
      { slot with properties := props, remaining := some bodySize }) := by
  rw [processHeader, hdecode, bind_run_ok (lift_ok _ _), bind_run_ok (get_run _)]
  simp only [hslot, if_neg hsize]
  rfl

theorem processFrames_content
    (hslot : peer.pendingContent.get? channel = some { method := .deliver deliver })
    (hdecode : decodeContentHeader header = .ok ⟨classId, chunks.flatten.length, props⟩)
    (hchunks : ∀ chunk ∈ chunks, chunk ≠ []) (hne : chunks ≠ []) :
    processFrames (⟨.header, channel, header⟩ :: chunks.map (Frame.mk .body channel)) peer =
      .ok () { peer with
        pendingContent := peer.pendingContent.erase channel
        deliveries := peer.deliveries ++ [deliveredMessage deliver chunks.flatten props] } := by
  have hsize : chunks.flatten.length ≠ 0 := by
    obtain ⟨chunk, hmem⟩ := List.exists_mem_of_ne_nil chunks hne
    have hlen := List.length_pos_iff.mpr (hchunks chunk hmem)
    have hle := (List.sublist_flatten_of_mem hmem).length_le
    omega
  rw [processFrames, processFrame, bind_run_ok (processHeader_of_slot hslot hdecode hsize),
    processFrames_bodies hchunks hne (Dict.get?_set_self _ _ _) rfl, finishDelivery_setSlot]
  rfl

end Content

/-- The payloads of the BODY frames: each non-empty and within the limit, as many as the limit asks
for, and together the body. -/
structure CutsBody (payloadMax : Nat) (body : Bytes) (chunks : List Bytes) : Prop where
  nonempty : ∀ chunk ∈ chunks, chunk ≠ []
  bounded : ∀ chunk ∈ chunks, chunk.length ≤ payloadMax
  flatten : chunks.flatten = body
  count : chunks.length = (body.length + (payloadMax - 1)) / payloadMax

/-- Every peer that has seen a delivery open on the channel makes one message of the frames. -/
def Receives (channel : Int) (header : Bytes) (chunks : List Bytes) (props : Properties) : Prop :=
  ∀ (peer : Conn) (deliver : BasicDeliverArgs),
    peer.pendingContent.get? channel = some { method := .deliver deliver } →
    ∃ peer', processFrames (⟨.header, channel, header⟩ :: chunks.map (Frame.mk .body channel)) peer =
        .ok () peer' ∧
      peer'.deliveries = peer.deliveries ++ [deliveredMessage deliver chunks.flatten props] ∧
      peer'.pendingContent.get? channel = none

/-- The segment returns with a well-cut content on the wire that every peer receives. -/
def SendsReceivable (caller : CallId) (args : PublishArgs) (entry : PublishEntry) (conn : Conn)
    (props : Properties) : Prop :=
  ∃ tag conn' method header chunks,
    publishSegment caller args entry conn = .ok (.written tag) conn' ∧
    conn'.written = conn.written ++ ((⟨.method, args.channel, method⟩ : Frame) ::
      ⟨.header, args.channel, header⟩ :: chunks.map (Frame.mk .body args.channel)).map (Sent.mk caller) ∧
    encodeMethod args.method = .ok method ∧
    encodeContentHeader args.python 60 args.body.length props = .ok header ∧
    CutsBody (conn.frameMax - frameOverhead) args.body chunks ∧
    Receives args.channel header chunks props

def receivingConn (channel : Int) (deliver : BasicDeliverArgs) : Conn where
  pendingContent := Dict.empty.set channel { method := .deliver deliver }

section Framing

variable {caller : CallId} {args : PublishArgs} {entry : PublishEntry} {conn : Conn}
  {props : Properties} {confirmed : Bool}

theorem cutsBody_bodyPayloads_iff {payloadMax : Nat} (body : Bytes) (hpos : 0 < payloadMax) :
    CutsBody payloadMax body (bodyPayloads payloadMax body) ↔ body ≠ [] := by
  constructor
  · rintro hcut rfl
    exact hcut.nonempty [] List.mem_cons_self rfl
  · intro hbody
    rw [bodyPayloads, if_neg hbody]
    exact ⟨fun chunk h => (mem_bodyChunks hpos h).1, fun chunk h => (mem_bodyChunks hpos h).2,
      flatten_bodyChunks hpos le_rfl, length_bodyChunks hpos le_rfl⟩

theorem receives_iff {header : Bytes} {chunks : List Bytes}
    (henc : encodeContentHeader args.python 60 chunks.flatten.length props = .ok header)
    (hchunks : ∀ chunk ∈ chunks, chunk ≠ []) (hne : chunks ≠ []) :
    Receives args.channel header chunks props ↔ propertiesReadBack args.python props := by
  obtain ⟨⟨flags, body⟩, hprops, -⟩ := bind_eq_ok.mp henc
  rw [← imageProperties_eq_some_iff_readsBack hprops]
  have hread := toOption_decodeContentHeader henc
  constructor
  · intro hreceives
    have hopen : (receivingConn args.channel ⟨[], 0, false, [], []⟩).pendingContent.get? args.channel =
        some { method := .deliver ⟨[], 0, false, [], []⟩ } := Dict.get?_set_self _ _ _
    obtain ⟨peer', hrun, hdeliveries, -⟩ := hreceives _ _ hopen
    cases himage : imageProperties args.python props PropertyName.all .empty with
    | none =>
      rw [himage, Option.map_none, toOption_eq_none] at hread
      obtain ⟨e, he⟩ := hread
      rw [processFrames, processFrame, processHeader, he] at hrun
      cases hrun
    | some image =>
      rw [himage, Option.map_some, toOption_eq_some] at hread
      rw [processFrames_content hopen hread hchunks hne] at hrun
      cases hrun
      have hmessage := List.append_cancel_left hdeliveries
      simp only [deliveredMessage, List.cons.injEq, IncomingMessage.mk.injEq] at hmessage
      rw [hmessage.1.2.2.2.2.1]
  · intro himage peer deliver hslot
    rw [himage, Option.map_some, toOption_eq_some] at hread
    exact ⟨_, processFrames_content hslot hread hchunks hne, rfl, Dict.get?_erase_self _ _⟩

theorem sendsReceivable_iff_payloads {header : Bytes}
    (hcontent : contentOf conn args entry = some (props, confirmed))
    (hframes : (contentFrames conn.frameMax args props).isSome = true)
    (hheader : encodeContentHeader args.python 60 args.body.length props = .ok header) :
    SendsReceivable caller args entry conn props ↔
      CutsBody (conn.frameMax - frameOverhead) args.body
          (bodyPayloads (conn.frameMax - frameOverhead) args.body) ∧
        Receives args.channel header (bodyPayloads (conn.frameMax - frameOverhead) args.body) props := by
  obtain ⟨frames, hframes⟩ := Option.isSome_iff_exists.mp hframes
  have hrun := publishSegment_of_some caller hcontent hframes
  obtain ⟨method, hmethod, hrest⟩ := Option.bind_eq_some_iff.mp hframes
  obtain ⟨headerFrame, hheaderFrame, rfl⟩ := Option.map_eq_some_iff.mp hrest
  obtain ⟨rawMethod, hencMethod, rfl, -⟩ := frameOf_eq_some_iff.mp hmethod
  obtain ⟨rawHeader, hencHeader, rfl, -⟩ := frameOf_eq_some_iff.mp hheaderFrame
  cases hencHeader.symm.trans hheader
  constructor
  · rintro ⟨tag, conn', method, header', chunks, hrun', hwritten, -, -, hcut, hreceives⟩
    cases hrun.symm.trans hrun'
    rw [Conn.append_written, beforeContent_written] at hwritten
    have hsent := List.map_injective_iff.mpr (fun a b h => (Sent.mk.inj h).2)
      (List.append_cancel_left hwritten)
    obtain ⟨-, htail⟩ := List.cons.inj hsent
    obtain ⟨hheaderEq, hbodies⟩ := List.cons.inj htail
    have hpayloads : bodyPayloads (conn.frameMax - frameOverhead) args.body = chunks :=
      List.map_injective_iff.mpr (fun a b h => (Frame.mk.inj h).2.2) hbodies
    rw [hpayloads, (Frame.mk.inj hheaderEq).2.2]
    exact ⟨hcut, hreceives⟩
  · rintro ⟨hcut, hreceives⟩
    refine ⟨_, _, rawMethod, header, _, hrun, ?_, hencMethod, hencHeader, hcut, hreceives⟩
    rw [Conn.append_written, beforeContent_written]
    rfl

end Framing

/-- A publish whose method and header frames fit sends what every peer receives exactly when the
body is not empty and each property has the form in which it is read. -/
theorem sendsReceivable_iff (caller : CallId) {args : PublishArgs} {entry : PublishEntry}
    {conn : Conn} {props : Properties} {confirmed : Bool}
    (hcontent : contentOf conn args entry = some (props, confirmed))
    (hframes : (contentFrames conn.frameMax args props).isSome = true) :
    SendsReceivable caller args entry conn props ↔
      args.body ≠ [] ∧ propertiesReadBack args.python props = true := by
  obtain ⟨frames, hsome⟩ := Option.isSome_iff_exists.mp hframes
  obtain ⟨method, hmethod, hrest⟩ := Option.bind_eq_some_iff.mp hsome
  obtain ⟨headerFrame, hheaderFrame, -⟩ := Option.map_eq_some_iff.mp hrest
  obtain ⟨header, hheader, -⟩ := frameOf_eq_some_iff.mp hheaderFrame
  have hcuts := cutsBody_bodyPayloads_iff args.body (fits_chunk hmethod).1
  rw [sendsReceivable_iff_payloads hcontent hframes hheader, ← hcuts]
  refine and_congr_right fun hcut => ?_
  refine receives_iff (by rwa [hcut.flatten]) hcut.nonempty fun hnil => ?_
  exact hcuts.mp hcut (by rw [← hcut.flatten, hnil, List.flatten_nil])

def openConn : Conn where
  channels := Dict.empty.set 1 .open

def greeting : PublishArgs where
  channel := 1
  body := [104, 105]
  properties := Properties.empty.set .contentType (.str (Text.ofString "text/plain"))

theorem greeting_sendsReceivable :
    contentOf openConn greeting .call = some (greeting.properties, false) ∧
      (contentFrames openConn.frameMax greeting greeting.properties).isSome = true ∧
      SendsReceivable 0 greeting .call openConn greeting.properties := by
  have hcontent : contentOf openConn greeting .call = some (greeting.properties, false) := by rfl
  have hframes : (contentFrames openConn.frameMax greeting greeting.properties).isSome = true := by
    decide +kernel
  exact ⟨hcontent, hframes, (sendsReceivable_iff 0 hcontent hframes).mpr ⟨by decide, by decide⟩⟩

def emptyPublish : PublishArgs where
  channel := 1
  body := []

/-- The empty body goes out as an empty BODY frame, which a peer rejects. -/
theorem emptyPublish_not_sendsReceivable :
    ¬SendsReceivable 0 emptyPublish .call openConn .empty ∧
      ∃ header, encodeContentHeader {} 60 0 .empty = .ok header ∧ ∃ peer',
        processFrames [⟨.header, 1, header⟩, ⟨.body, 1, []⟩] (receivingConn 1 ⟨[], 1, false, [], []⟩) =
          .error (.protocolError "body frame without header") peer' := by
  have hcontent : contentOf openConn emptyPublish .call = some (.empty, false) := by rfl
  have hframes : (contentFrames openConn.frameMax emptyPublish .empty).isSome = true := by
    decide +kernel
  obtain ⟨header, hheader⟩ : ∃ header, encodeContentHeader {} 60 0 .empty = .ok header := ⟨_, rfl⟩
  refine ⟨?_, header, hheader, ?_⟩
  · rw [sendsReceivable_iff_payloads hcontent hframes hheader]
    rintro ⟨hcut, -⟩
    exact hcut.nonempty [] List.mem_cons_self rfl
  · have hdecode : decodeContentHeader header = .ok ⟨60, 0, .empty⟩ :=
      toOption_eq_some.mp (toOption_decodeContentHeader hheader)
    rw [processFrames, processFrame, processHeader, hdecode]
    exact ⟨_, rfl⟩

end Nuropb.Transport
