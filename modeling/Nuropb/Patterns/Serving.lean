import Nuropb.Patterns.Answers
import Nuropb.Patterns.Settling

/-! # Every delivery is settled once

While the connection stays up, the server goes on to the next delivery exactly when the answer to this one can be sent.
-/
namespace Nuropb.Patterns

open Library Protocol Transport

section Runs

variable (stack : Nat) (jwt : JwtDecode) (server : RpcServer) (caller : CallId)

/-- The loop comes to its next wait, and what it has written settles each delivery, one after the other. -/
structure Served (rounds : List Round) (s t : Serving) : Prop where
  returns : server.loop stack jwt caller rounds s = .ok () t
  settled : ∃ parts, List.Forall₂ (Settles stack server.channelId) rounds parts ∧
    framesBy caller s.conn t.conn = parts.flatten

/-- Whenever the loop has come to a delivery, whatever it is to be answered with can be sent. -/
def AnswersAll (rounds : List Round) (s : Serving) : Prop :=
  ∀ before round after t taken, rounds = before ++ round :: after → server.loop stack jwt caller before s = .ok () t →
    onConn round.receive t = .ok () taken → Answerable stack jwt server round taken.conn

end Runs

/-! ## What can be sent -/

section Sending

variable {stack : Nat} {jwt : JwtDecode} {server : RpcServer} {round : Round} {conn : Conn} {answer : Answer} {s : Serving}

theorem methodFits_ack_iff : methodFits conn server.channelId (.basicAck round.msg.deliveryTag false) = true ↔
    Settleable server round conn :=
  (isSome_frameOf_iff conn.frameMax_lt).trans exists_ack_iff

theorem methodFits_nack_iff (requeue : Bool) :
    methodFits conn server.channelId (.basicNack round.msg.deliveryTag false requeue) = true ↔
      Settleable server round conn :=
  (isSome_frameOf_iff conn.frameMax_lt).trans exists_nack_iff

theorem exists_contentType : ∃ raw,
    encodeProperty {} .shortstr (.str (Text.ofString "application/json")) = .ok raw ∧ raw.length = 17 := by
  have hshort : ShortText (Text.ofString "application/json") 16 := ⟨by decide, by decide, by decide⟩
  exact (@exists_shortstr_iff _ fun length => length = 17).mpr ⟨16, hshort, rfl⟩

theorem encodeProperties_plain {raw : Bytes}
    (hraw : encodeProperty {} .shortstr (.str (Text.ofString "application/json")) = .ok raw) :
    encodeProperties {} (Properties.empty.set .contentType (.str (Text.ofString "application/json"))) PropertyName.all =
      .ok (2 ^ PropertyName.contentType.bit, raw) := by
  simp [encodeProperties, PropertyName.all, Properties.set, Properties.empty, PropertyName.format, hraw]

theorem encodeProperties_corr {raw : Bytes} (c : CodePoint) (rest : Text)
    (hraw : encodeProperty {} .shortstr (.str (Text.ofString "application/json")) = .ok raw) :
    encodeProperties {} (replyProperties (some (c :: rest))) PropertyName.all = (do
      let id ← encodeShortstr (c :: rest)
      return (2 ^ PropertyName.contentType.bit ||| 2 ^ PropertyName.correlationId.bit, raw ++ id)) := by
  simp [encodeProperties, PropertyName.all, replyProperties, Properties.set, Properties.empty, PropertyName.format, hraw]
  rfl

theorem hasRoom_mono {frameMax octets less : Nat} {channel : Int} (h : HasRoom frameMax channel octets) (hle : less ≤ octets) :
    HasRoom frameMax channel less :=
  ⟨h.channel_nonneg, h.channel_le, Nat.le_trans (Nat.add_le_add_right hle _) h.size⟩

/-- The properties of a reply are its content type, and the correlation id unless that is empty. -/
theorem replyProperties_iff {frameMax : Nat} {channel : Int} (corr : Option Text) :
    (∃ encoded, encodeProperties {} (replyProperties corr) PropertyName.all = .ok encoded ∧
        HasRoom frameMax channel (encoded.2.length + 14)) ↔
      HasRoom frameMax channel 31 ∧ ∀ c rest, corr = some (c :: rest) →
        ∃ octets, ShortText (c :: rest) octets ∧ HasRoom frameMax channel (octets + 32) := by
  obtain ⟨raw, hraw, hlength⟩ := exists_contentType
  have hplain {corr : Option Text} (hnone : ∀ c rest, corr ≠ some (c :: rest))
      (hprops : replyProperties corr = Properties.empty.set .contentType (.str (Text.ofString "application/json"))) :
      (∃ encoded, encodeProperties {} (replyProperties corr) PropertyName.all = .ok encoded ∧
          HasRoom frameMax channel (encoded.2.length + 14)) ↔
        HasRoom frameMax channel 31 ∧ ∀ c rest, corr = some (c :: rest) →
          ∃ octets, ShortText (c :: rest) octets ∧ HasRoom frameMax channel (octets + 32) := by
    rw [hprops, encodeProperties_plain hraw]
    constructor
    · rintro ⟨encoded, hencoded, hroom⟩
      cases hencoded
      rw [hlength] at hroom
      exact ⟨hroom, fun c rest hcorr => absurd hcorr (hnone c rest)⟩
    · rintro ⟨hroom, -⟩
      exact ⟨_, rfl, by rw [hlength]; exact hroom⟩
  rcases corr with - | - | ⟨c, rest⟩
  · exact hplain (by simp) rfl
  · exact hplain (by simp) rfl
  · rw [encodeProperties_corr c rest hraw]
    have hid := @exists_shortstr_iff (c :: rest) fun length => HasRoom frameMax channel (length + 31)
    constructor
    · rintro ⟨encoded, hencoded, hroom⟩
      obtain ⟨id, hencode, hencoded⟩ := bind_eq_ok.mp hencoded
      cases hencoded
      rw [List.length_append, hlength, Nat.add_comm 17, Nat.add_assoc] at hroom
      refine ⟨hasRoom_mono hroom (Nat.le_add_left _ _), ?_⟩
      rintro c' rest' ⟨⟩
      exact hid.mp ⟨id, hencode, hroom⟩
    · rintro ⟨-, hcorr⟩
      obtain ⟨id, hencode, hroom⟩ := hid.mpr (hcorr c rest rfl)
      refine ⟨_, by rw [hencode]; rfl, ?_⟩
      rw [List.length_append, hlength, Nat.add_comm 17, Nat.add_assoc]
      exact hroom

theorem replyFits_iff {out : Bytes} : replyFits server round conn out = true ↔
    ∀ replyTo, round.replyTo = some replyTo → Publishable server round conn replyTo out.length := by
  rw [replyFits]
  cases hreplyTo : round.replyTo with
  | none => simp
  | some replyTo =>
    have hmethod : (methodFrame conn.frameMax (server.replyArgs round.corr replyTo out)).isSome = true ↔
        ∃ octets, ShortText replyTo octets ∧ HasRoom conn.frameMax server.channelId (octets + 9) :=
      (isSome_frameOf_iff conn.frameMax_lt).trans exists_publish_iff
    have hheader : (headerFrame conn.frameMax (server.replyArgs round.corr replyTo out) (replyProperties round.corr)).isSome = true ↔
        out.length < 2 ^ 64 ∧ _ :=
      (isSome_frameOf_iff conn.frameMax_lt).trans (exists_header_iff.trans (and_congr_right fun _ => replyProperties_iff round.corr))
    dsimp only
    rw [Bool.and_eq_true, Bool.not_eq_true', isSome_contentFrames_iff, hmethod, hheader]
    constructor
    · rintro ⟨hblocked, hqueue, hsize, hroom, hcorr⟩ replyTo' ⟨⟩
      exact ⟨hblocked, hqueue, hsize, hroom, hcorr⟩
    · intro h
      obtain ⟨hblocked, hqueue, hsize, hroom, hcorr⟩ := h replyTo rfl
      exact ⟨hblocked, hqueue, hsize, hroom, hcorr⟩

theorem answerable_of_becomes {outcome : Except Exc Bytes} (hbecomes : Becomes stack round.corr outcome answer)
    (hsendable : answer.Sendable stack server round conn) : answerable stack server round conn outcome = true := by
  have hreplied {value : PyVal} {out : Bytes} (hbody : replyBody stack round.corr outcome = .ok out)
      (hwritten : IsWritten stack out value) (hother : ∀ requeue, outcome ≠ .error (.nackDelivery requeue))
      (hsendable : (Answer.reply value).Sendable stack server round conn) :
      answerable stack server round conn outcome = true := by
    cases hsendable with
    | replied hencodes hreply hsettleable =>
      rw [answerable_of_other hother, hbody]
      dsimp only
      rw [replyFits_iff.mpr fun replyTo hreplyTo => hreply replyTo out hreplyTo hwritten, methodFits_ack_iff.mpr hsettleable]
      rfl
  cases hbecomes with
  | returned hwritten => exact hreplied rfl hwritten (by simp) hsendable
  | raised hanswers =>
    rename_i e
    cases answer with
    | nack requeue =>
      cases hanswers with
      | nacked =>
        cases hsendable with
        | nacked hsettleable => exact (methodFits_nack_iff requeue).mpr hsettleable
    | reply value =>
      have hnack (requeue : Bool) : e ≠ .nackDelivery requeue := by
        rintro rfl
        cases hanswers with
        | coarse h => exact h.1 requeue rfl
      have hencodes : Json.Encodes stack value := by
        cases hsendable with
        | replied hencodes _ _ => exact hencodes
      obtain ⟨out, hwritten⟩ := (Json.encodes_iff value).mp hencodes
      refine hreplied ((replyBody_iff hnack).mpr ⟨value, hanswers, hwritten⟩) hwritten ?_ hsendable
      rintro requeue ⟨⟩
      exact hnack requeue rfl

theorem sendable_of_fits {value : PyVal} {out : Bytes} (hwritten : IsWritten stack out value)
    (hfits : replyFits server round conn out = true)
    (hack : methodFits conn server.channelId (.basicAck round.msg.deliveryTag false) = true) :
    (Answer.reply value).Sendable stack server round conn := by
  refine .replied ((Json.encodes_iff value).mpr ⟨out, hwritten⟩) ?_ (methodFits_ack_iff.mp hack)
  intro replyTo body hreplyTo hbody
  rw [IsWritten, hwritten] at hbody
  cases hbody
  exact replyFits_iff.mp hfits replyTo hreplyTo

theorem answerable_iff {outcome : Except Exc Bytes} {ended : Serving}
    (h : observe (server.respond stack jwt round) s = .ok outcome ended) :
    Answerable stack jwt server round s.conn ↔ answerable stack server round ended.conn outcome = true := by
  constructor
  · rintro ⟨answer, conn', hcomes, hsendable⟩
    obtain ⟨outcome', ended', hobserve, rfl, hbecomes⟩ := observe_of_comes hcomes
    rw [h] at hobserve
    cases hobserve
    exact answerable_of_becomes hbecomes hsendable
  · intro hanswer
    cases hrespond : server.respond stack jwt round s with
    | ok body t =>
      rw [observe_of_ok hrespond] at h
      cases h
      obtain ⟨value, hcomes, hwritten⟩ := comes_of_returned hrespond
      rw [answerable_of_other (by simp)] at hanswer
      have hbody : replyBody stack round.corr (.ok body) = .ok body := rfl
      rw [hbody] at hanswer
      simp only [Bool.and_eq_true] at hanswer
      exact ⟨_, _, hcomes, sendable_of_fits hwritten hanswer.1 hanswer.2⟩
    | error e t =>
      rw [observe_of_error hrespond] at h
      cases h
      by_cases hnack : ∃ requeue, e = .nackDelivery requeue
      · obtain ⟨requeue, rfl⟩ := hnack
        exact ⟨_, _, comes_of_raised hrespond .nacked, .nacked ((methodFits_nack_iff requeue).mp hanswer)⟩
      · have hnack (requeue : Bool) : e ≠ .nackDelivery requeue := fun heq => hnack ⟨requeue, heq⟩
        rw [answerable_of_other (by simpa using hnack)] at hanswer
        cases hbody : replyBody stack round.corr (.error e) with
        | error e' =>
          rw [hbody] at hanswer
          cases hanswer
        | ok out =>
          rw [hbody] at hanswer
          simp only [Bool.and_eq_true] at hanswer
          obtain ⟨value, hanswers, hwritten⟩ := (replyBody_iff hnack).mp hbody
          exact ⟨_, _, comes_of_raised hrespond hanswers, sendable_of_fits hwritten hanswer.1 hanswer.2⟩

end Sending

/-! ## Every run of the loop -/

section Loop

variable {stack : Nat} {jwt : JwtDecode} {server : RpcServer} {caller : CallId} {round : Round} {rounds : List Round}
  {s t : Serving}

/-- A delivery is settled if its answer can be sent; otherwise the loop ends. -/
theorem handle_ends (stack : Nat) (jwt : JwtDecode) (hlive : round.Live server.channelId caller)
    (hopen : s.conn.channels.get? server.channelId = some .open) :
    Answerable stack jwt server round s.conn ∧ (∃ frames handled, server.handle stack jwt caller round s = .ok () handled ∧
        handled.conn.channels.get? server.channelId = some .open ∧ Settles stack server.channelId round frames ∧
        Wrote caller frames s.conn handled.conn) ∨
      ¬Answerable stack jwt server round s.conn ∧ ∃ e raised, server.handle stack jwt caller round s = .error e raised := by
  obtain ⟨outcome, hobserve⟩ := observe_state (server.respond stack jwt round) s
  have hup : StaysUp server.channelId caller s.conn (resultState (server.respond stack jwt round s)).conn :=
    staysUp_respond hlive s
  generalize resultState (server.respond stack jwt round s) = ended at hobserve hup
  have hopened := hup.isOpen hopen
  rw [answerable_iff hobserve]
  cases hanswer : answerable stack server round ended.conn outcome with
  | true =>
      obtain ⟨frames, hsettles, hhandle⟩ := handle_of_answerable caller hobserve hopened hanswer
      obtain ⟨conn', hdrain, hdrained⟩ := hlive.drain (ended.conn.append caller frames)
      refine .inl ⟨rfl, frames, { ended with conn := conn' }, ?_, hdrained.isOpen hopened, hsettles, wrote_between hup hdrained⟩
      rw [hhandle, onConn, hdrain]
  | false => exact .inr ⟨by simp, handle_of_not_answerable caller hobserve hopened hanswer⟩

theorem receive_returns (hlive : round.Live server.channelId caller)
    (hopen : s.conn.channels.get? server.channelId = some .open) : ∃ taken, onConn round.receive s = .ok () taken ∧
      taken.conn.channels.get? server.channelId = some .open ∧ Wrote caller [] s.conn taken.conn := by
  obtain ⟨conn, hreceive, hup⟩ := hlive.receive s.conn
  exact ⟨{ s with conn }, by rw [onConn, hreceive], hup.isOpen hopen, hup.wrote⟩

theorem loop_cons {taken : Serving} (hreceive : onConn round.receive s = .ok () taken) :
    server.loop stack jwt caller (round :: rounds) s =
      (server.handle stack jwt caller round >>= fun _ => server.loop stack jwt caller rounds) taken := by
  rw [RpcServer.loop, bind_run_ok hreceive]

theorem loop_append (before after : List Round) (s : Serving) : server.loop stack jwt caller (before ++ after) s =
    (server.loop stack jwt caller before >>= fun _ => server.loop stack jwt caller after) s := by
  induction before generalizing s with
  | nil => rfl
  | cons round before ih =>
    simp only [List.cons_append, RpcServer.loop, bind_run]
    cases onConn round.receive s with
    | error e raised => rfl
    | ok _ taken =>
      dsimp only
      cases server.handle stack jwt caller round taken with
      | error e raised => rfl
      | ok _ handled => exact ih handled

theorem loop_open (hlive : ∀ round ∈ rounds, round.Live server.channelId caller)
    (hopen : s.conn.channels.get? server.channelId = some .open) (h : server.loop stack jwt caller rounds s = .ok () t) :
    t.conn.channels.get? server.channelId = some .open := by
  induction rounds generalizing s with
  | nil =>
    cases h
    exact hopen
  | cons round rest ih =>
    obtain ⟨hround, hrest⟩ := List.forall_mem_cons.mp hlive
    obtain ⟨taken, hreceive, hopened, -⟩ := receive_returns hround hopen
    rw [loop_cons hreceive] at h
    obtain ⟨_, handled, hhandle, hloop⟩ := bind_returns.mp h
    rcases handle_ends stack jwt hround hopened with ⟨-, frames, handled', hhandled, hstill, -⟩ | ⟨-, e, raised, hraised⟩
    · rw [hhandle] at hhandled
      cases hhandled
      exact ih hrest hstill hloop
    · rw [hhandle] at hraised
      cases hraised

theorem answersAll_cons : AnswersAll stack jwt server caller (round :: rounds) s ↔
    ∀ taken, onConn round.receive s = .ok () taken → Answerable stack jwt server round taken.conn ∧
      ∀ handled, server.handle stack jwt caller round taken = .ok () handled →
        AnswersAll stack jwt server caller rounds handled := by
  constructor
  · intro h taken hreceive
    refine ⟨h [] round rounds s taken rfl rfl hreceive, ?_⟩
    rintro handled hhandle before next after t taken' rfl hloop htaken
    refine h (round :: before) next after t taken' rfl ?_ htaken
    rw [loop_cons hreceive, bind_run_ok hhandle, hloop]
  · rintro h (- | ⟨first, before⟩) next after t taken hrounds hloop htaken
    · cases hrounds
      cases hloop
      exact (h taken htaken).1
    · cases hrounds
      obtain ⟨_, taken', hreceive, hrest⟩ := bind_returns.mp hloop
      obtain ⟨_, handled, hhandle, hbefore⟩ := bind_returns.mp hrest
      exact (h taken' hreceive).2 handled hhandle before next after t taken rfl hbefore htaken

/-- By induction on the deliveries, each of which is answered. -/
theorem served_of_answersAll (hlive : ∀ round ∈ rounds, round.Live server.channelId caller)
    (hopen : s.conn.channels.get? server.channelId = some .open) (h : AnswersAll stack jwt server caller rounds s) :
    ∃ t parts, server.loop stack jwt caller rounds s = .ok () t ∧ List.Forall₂ (Settles stack server.channelId) rounds parts ∧
      Wrote caller parts.flatten s.conn t.conn := by
  induction rounds generalizing s with
  | nil => exact ⟨s, [], rfl, .nil, .refl caller s.conn⟩
  | cons round rest ih =>
    obtain ⟨hround, hrest⟩ := List.forall_mem_cons.mp hlive
    obtain ⟨taken, hreceive, hopened, hwaited⟩ := receive_returns hround hopen
    obtain ⟨hanswerable, hlater⟩ := answersAll_cons.mp h taken hreceive
    rcases handle_ends stack jwt hround hopened with ⟨-, frames, handled, hhandle, hstill, hsettles, hwrote⟩ | ⟨hnot, -⟩
    · obtain ⟨t, parts, hloop, hparts, hmore⟩ := ih hrest hstill (hlater handled hhandle)
      refine ⟨t, frames :: parts, ?_, .cons hsettles hparts, ?_⟩
      · rw [loop_cons hreceive, bind_run_ok hhandle, hloop]
      · exact (hwaited.trans hwrote).trans hmore
    · exact absurd hanswerable hnot

end Loop

section Deciding

variable (stack : Nat) (jwt : JwtDecode) (server : RpcServer) (caller : CallId)

def ifReturns {α : Type} (result : EStateM.Result Exc Serving α) (test : α → Serving → Bool) : Bool :=
  match result with
  | .ok a t => test a t
  | .error _ _ => true

def answersNow (round : Round) (s : Serving) : Bool :=
  ifReturns (observe (server.respond stack jwt round) s) fun outcome ended => answerable stack server round ended.conn outcome

def answersAll : List Round → Serving → Bool
  | [], _ => true
  | round :: rest, s => ifReturns (onConn round.receive s) fun _ taken => answersNow stack jwt server round taken &&
      ifReturns (server.handle stack jwt caller round taken) fun _ handled => answersAll rest handled

theorem answersNow_iff (round : Round) (s : Serving) :
    answersNow stack jwt server round s = true ↔ Answerable stack jwt server round s.conn := by
  obtain ⟨outcome, hobserve⟩ := observe_state (server.respond stack jwt round) s
  rw [answerable_iff hobserve, answersNow, hobserve]
  rfl

theorem answersAll_iff (rounds : List Round) (s : Serving) :
    answersAll stack jwt server caller rounds s = true ↔ AnswersAll stack jwt server caller rounds s := by
  induction rounds generalizing s with
  | nil =>
    refine iff_of_true rfl ?_
    intro before round after t taken hrounds
    simp at hrounds
  | cons round rest ih =>
    rw [answersAll, answersAll_cons]
    cases hreceive : onConn round.receive s with
    | error e raised => exact iff_of_true rfl (by simp)
    | ok _ taken =>
      rw [ifReturns, Bool.and_eq_true, answersNow_iff]
      cases hhandle : server.handle stack jwt caller round taken with
      | error e raised =>
        constructor
        · rintro ⟨hnow, -⟩ taken' ⟨⟩
          exact ⟨hnow, by simp [hhandle]⟩
        · intro h
          exact ⟨(h taken rfl).1, rfl⟩
      | ok _ handled =>
        constructor
        · rintro ⟨hnow, hlater⟩ taken' ⟨⟩
          refine ⟨hnow, ?_⟩
          intro handled' hhandled
          rw [hhandle] at hhandled
          cases hhandled
          exact (ih handled).mp hlater
        · intro h
          exact ⟨(h taken rfl).1, (ih handled).mpr ((h taken rfl).2 handled hhandle)⟩

instance AnswersAll.instDecidable (rounds : List Round) (s : Serving) :
    Decidable (AnswersAll stack jwt server caller rounds s) :=
  decidable_of_iff _ (answersAll_iff stack jwt server caller rounds s)

end Deciding

/-- Over every sequence of deliveries on a connection that stays up, the loop goes on and settles each of them once
exactly when all of their answers can be sent. -/
theorem serves_iff (stack : Nat) (jwt : JwtDecode) (server : RpcServer) (caller : CallId) {rounds : List Round}
    (hlive : ∀ round ∈ rounds, round.Live server.channelId caller) {s : Serving}
    (hopen : s.conn.channels.get? server.channelId = some .open) :
    (∃ t, Served stack jwt server caller rounds s t) ↔ AnswersAll stack jwt server caller rounds s := by
  constructor
  · rintro ⟨t, hreturns, -⟩ before round after mid taken rfl hbefore hreceive
    have hround : round.Live server.channelId caller := hlive round (by simp)
    have hbeforeLive : ∀ r ∈ before, r.Live server.channelId caller := fun r hr => hlive r (by simp [hr])
    have hmid := loop_open hbeforeLive hopen hbefore
    obtain ⟨taken', htaken, hopened, -⟩ := receive_returns hround hmid
    rw [hreceive] at htaken
    cases htaken
    rw [loop_append, bind_run_ok hbefore, loop_cons hreceive] at hreturns
    obtain ⟨_, handled, hhandle, -⟩ := bind_returns.mp hreturns
    rcases handle_ends stack jwt hround hopened with ⟨hanswerable, -⟩ | ⟨-, e, raised, hraised⟩
    · exact hanswerable
    · rw [hhandle] at hraised
      cases hraised
  · intro h
    obtain ⟨t, parts, hloop, hparts, hwrote⟩ := served_of_answersAll hlive hopen h
    exact ⟨t, hloop, parts, hparts, hwrote.framesBy⟩

def poisonRound : Round where
  receive := pure ()
  msg := { deliveryTag := 1, exchange := [], routingKey := [], redelivered := false, consumerTag := [],
           body := "\x7b\"jsonrpc\":\"2.0\",\"method\":\"\\ud800\",\"id\":\"b\"\x7d".toUTF8.toList
           properties := Properties.empty.set .correlationId (.str (Text.ofString "a")) }
  handler := fun _ _ => pure .none
  drain := pure ()

theorem live_of_pure {round : Round} {channel : Int} {caller : CallId} (hreceive : round.receive = pure ())
    (hhandler : ∀ method params, round.handler method params = pure .none) (hdrain : round.drain = pure ()) :
    round.Live channel caller where
  receive conn := ⟨conn, by rw [hreceive, pure_run], .refl conn⟩
  handler method params := by
    rw [hhandler]
    exact keeps_pure StaysUp.refl _
  drain conn := ⟨conn, by rw [hdrain, pure_run], .refl conn⟩

/-- A request is replied to and acked, and so is a body that is no JSON. -/
theorem replied_served : ∃ t, Served 9 (fun _ => .invalid) {} 0
    [repliedRound, { repliedRound with msg := { repliedRound.msg with deliveryTag := 2, body := [0xff] } }]
    ⟨confirmingConn, []⟩ t := by
  refine (serves_iff 9 (fun _ => .invalid) {} 0 ?_ (by decide)).mpr (by decide +kernel)
  intro round hround
  simp only [List.mem_cons, List.not_mem_nil, or_false] at hround
  rcases hround with rfl | rfl <;> exact live_of_pure rfl (fun _ _ => rfl) rfl

/-- The error reply to the poison message does not encode, and ends the server. -/
theorem poison_not_served : ¬∃ t, Served 9 (fun _ => .invalid) {} 0 [poisonRound] ⟨confirmingConn, []⟩ t := by
  rintro ⟨t, hreturns, -⟩
  have hraises : endsRaising (RpcServer.loop 9 (fun _ => .invalid) {} 0 [poisonRound] ⟨confirmingConn, []⟩) = true := by
    decide +kernel
  rw [hreturns] at hraises
  cases hraises

end Nuropb.Patterns
