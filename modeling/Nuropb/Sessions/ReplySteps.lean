import Nuropb.Patterns.RpcServer
import Nuropb.Sessions.Order
import Nuropb.Sessions.RequestSteps

/-! # What a step is to the replies

In a step at most one reply loop takes a reply. The future with its id gets the reply, and the reply is
acked; every other step gives no reply to a request and acks nothing.
-/
namespace Nuropb.Sessions

open Library Patterns Protocol Transport

namespace Session

/-- The reply that the loop takes when the call that it awaits has ended. -/
def takes (s : Session) (l : LoopId) (outcome : Except Exc (Option Text)) (taken : Option IncomingMessage) :
    Option IncomingMessage :=
  match s.loops l, outcome with
  | some (.receiving _), .ok _ => taken
  | some (.acking _), .ok _ => s.link.client.taken (.receive s.nextCall false)
  | _, _ => none

/-- The reply that a loop takes in a step of a connection. -/
def movedReply (s : Session) (epoch : Nat) (link : Link) (c' : Client) (call : Option CallId)
    (taken : Option IncomingMessage) : Option IncomingMessage :=
  call.bind fun id => (c'.outcome id).bind fun outcome =>
    match (s.owners id).filter fun owner => s.awaits owner = some id with
    | some (.loop l) => (s.setLink epoch { link with client := c' }).takes l outcome taken
    | _ => none

/-- The reply that a loop takes in the step. -/
def reply (s : Session) : SessionEvent → Option IncomingMessage
  | .conn epoch e =>
    (s.linkAt epoch).bind fun link => (link.client.step e).bind fun c' =>
      s.movedReply epoch link c' e.addressee (link.client.taken e)
  | .interrupt epoch id =>
    (s.owners id).bind fun owner => (s.linkAt epoch).bind fun link => (link.client.interrupt id).bind fun c' =>
      (s.setCancelled owner false).movedReply epoch link c' (some id) none
  | .runLoop l =>
    match s.loops l with
    | some .created => if s.cancelled (.loop l) then none else s.link.client.taken (.receive s.nextCall false)
    | _ => none
  | _ => none

/-- The future with the id of the reply gets it. -/
def answered (s : Session) (msg : IncomingMessage) : Session :=
  match msg.properties .correlationId with
  | some (.str cid) => { s with correlation := s.correlation.resolve cid msg }.forgetPublish cid
  | _ => s

end Session

def Owner.isLoop : Owner → Bool
  | loop _ => true
  | _ => false

/-- What the reply loops have written on a connection. -/
def loopFrames (owners : CallId → Option Owner) (conn : Conn) : List Frame :=
  (conn.written.filter fun x => (x.caller.bind owners).any Owner.isLoop).map Sent.frame

/-- What the reply loops have written. -/
def Session.acks (s : Session) : List Frame :=
  s.previous.flatMap (fun link => loopFrames s.owners link.client.conn) ++ loopFrames s.owners s.link.client.conn

/-- The ack of a reply. -/
def ackOf (msg : IncomingMessage) : Frame :=
  ⟨.method, channelId, [0, 60, 0, 80] ++ toBE 8 msg.deliveryTag ++ [0]⟩

/-- The channel of the session is open, and an ack fits a frame. -/
def Session.Live (s : Session) : Prop :=
  s.link.client.conn.channels.get? channelId = some .open ∧ 13 + frameOverhead ≤ s.link.client.conn.frameMax

instance (s : Session) : Decidable s.Live := by
  unfold Session.Live
  infer_instance

/-- What does not take a reply neither gives one nor acks one. -/
def Dealing.Quiet (d : Dealing) : Prop := d ≠ .reply ∧ d ≠ .ack

/-- A loop may have called `receive`. -/
structure Waits (s s' : Session) : Prop where
  conducts : Conducts Dealing.Quiet s s'
  correlation : s'.correlation = s.correlation
  requests : s'.requests = s.requests
  nextRequest : s'.nextRequest = s.nextRequest
  conn : s'.link.client.conn = s.link.client.conn

section Replies

variable {s s' : Session} {c c' : Client} {id : CallId} {l : LoopId} {msg : IncomingMessage}

theorem quiet_of_replace {d : Dealing} (h : d = .replace) : d.Quiet := by
  subst h
  exact ⟨by simp, by simp⟩

theorem Waits.refl (s : Session) : Waits s s := ⟨.refl s, rfl, rfl, rfl, rfl⟩

/-! ### Receiving -/

theorem receive_conn (c : Client) (id : CallId) (timeout : Bool) :
    ((c.step (.receive id timeout)).getD c).conn = c.conn := by
  cases hstep : c.step (.receive id timeout) with
  | none => rfl
  | some c' =>
      obtain ⟨-, ⟨⟩⟩ := Option.ite_none_right_eq_some.mp hstep
      rw [Option.getD_some, Client.receive]
      split
      · rfl
      · exact looked_conn ..

theorem waits_receive (s : Session) (l : LoopId) : Waits s (s.call (some (.loop l)) (.receive false)) where
  conducts := .receive s l ⟨by simp, by simp⟩
  correlation := rfl
  requests := rfl
  nextRequest := rfl
  conn := receive_conn _ _ _

theorem receiveNext_cases (s : Session) (l : LoopId) :
    (s.link.client.taken (.receive s.nextCall false) = none ∧ Conducts Dealing.Quiet s (s.receiveNext l)) ∨
    ∃ msg t, s.link.client.taken (.receive s.nextCall false) = some msg ∧ Waits s t ∧ s.receiveNext l = t.onReply l msg := by
  have hwaits := waits_receive s l
  unfold Session.receiveNext
  extract_lets id taken t
  split
  · rename_i msg htaken
    exact .inr ⟨msg, t, htaken, hwaits, rfl⟩
  · rename_i htaken _
    exact .inl ⟨htaken, hwaits.conducts.trans (conducts_loopRaised t l _)⟩
  · rename_i htaken _
    exact .inl ⟨htaken, hwaits.conducts.trans (conducts_setLoop t l _)⟩

theorem loopResumed_cases (s : Session) (l : LoopId) (outcome : Except Exc (Option Text))
    (taken : Option IncomingMessage) :
    (s.takes l outcome taken = none ∧ Conducts Dealing.Quiet s (s.loopResumed l outcome taken)) ∨
    ∃ msg t, s.takes l outcome taken = some msg ∧ Waits s t ∧ s.loopResumed l outcome taken = t.onReply l msg := by
  unfold Session.takes Session.loopResumed
  cases hloop : s.loops l with
  | none => exact .inl ⟨rfl, .refl s⟩
  | some stage =>
      cases stage with
      | created => exact .inl ⟨rfl, .refl s⟩
      | receiving call =>
          cases outcome with
          | error e => exact .inl ⟨rfl, conducts_loopRaised s l e⟩
          | ok result =>
              cases taken with
              | none => exact .inl ⟨rfl, .refl s⟩
              | some msg => exact .inr ⟨msg, s, rfl, .refl s, rfl⟩
      | acking call =>
          cases outcome with
          | error e => exact .inl ⟨rfl, conducts_loopRaised s l e⟩
          | ok result => exact receiveNext_cases s l
      | ended raised => exact .inl ⟨rfl, .refl s⟩

/-! ### Steps of connections -/

theorem heard_of_conn (s : Session) (wired : Bool) (h : c'.conn = c.conn) : s.heard wired c c' = s := by
  unfold Session.heard
  rw [h]
  split
  · rename_i hlive hlost
    rw [hlive] at hlost
    cases hlost
  · rfl

theorem resume_quiet (s : Session) (hother : ∀ l, s.owners id ≠ some (.loop l)) (epoch : Nat)
    (outcome : Except Exc (Option Text)) (taken : Option IncomingMessage) :
    Conducts Dealing.Quiet s (s.resume epoch id outcome taken) := by
  unfold Session.resume
  split
  · exact conducts_publishEnded s _ epoch outcome
  · rename_i hfound
    exact absurd (Option.filter_eq_some_iff.mp hfound).1 (hother _)
  · exact (conducts_workerResumed s _ epoch outcome).mono fun _ => quiet_of_replace
  · exact .refl s

/-- A step in which the call of a loop goes on leaves the connection as it was. -/
theorem moved_cases (s : Session) (epoch : Nat) (link : Link) (c' : Client) (call : Option CallId)
    (taken : Option IncomingMessage)
    (hrests : ∀ id l, call = some id → s.owners id = some (.loop l) → c'.conn = link.client.conn) :
    (s.movedReply epoch link c' call taken = none ∧
      Conducts Dealing.Quiet (s.setLink epoch { link with client := c' }) (s.moved epoch link c' call taken)) ∨
    ∃ msg t l, s.movedReply epoch link c' call taken = some msg ∧ c'.conn = link.client.conn ∧
      Waits (s.setLink epoch { link with client := c' }) t ∧ s.moved epoch link c' call taken = t.onReply l msg := by
  have hheard : Conducts Dealing.Quiet _ _ :=
    conducts_heard (s.setLink epoch { link with client := c' }) link.wired link.client c'
  unfold Session.moved Session.movedReply
  extract_lets t
  have howners : t.owners = s.owners := (hearsOnly_heard ..).owners.trans (owners_setLink ..)
  cases call with
  | none => exact .inl ⟨rfl, hheard⟩
  | some id =>
      cases houtcome : c'.outcome id with
      | none => exact .inl ⟨by simp [houtcome], by simpa [houtcome] using hheard⟩
      | some outcome =>
          simp only [houtcome, Option.bind_some]
          by_cases hloop : ∃ l, s.owners id = some (.loop l)
          · obtain ⟨l, howner⟩ := hloop
            have hconn := hrests id l rfl howner
            have ht : t = s.setLink epoch { link with client := c' } := heard_of_conn _ _ hconn
            have hawaits : t.awaits (.loop l) = s.awaits (.loop l) := by
              rw [ht, Session.awaits, loops_setLink]
              rfl
            by_cases hcall : s.awaits (.loop l) = some id
            · simp only [Session.resume, howners, howner, hawaits, hcall, Option.filter, decide_true, if_true]
              rw [ht]
              obtain ⟨hnone, hquiet⟩ | ⟨msg, u, hsome, hwaits, heq⟩ :=
                loopResumed_cases (s.setLink epoch { link with client := c' }) l outcome taken
              · exact .inl ⟨hnone, hquiet⟩
              · exact .inr ⟨msg, u, l, hsome, hconn, hwaits, heq⟩
            · refine .inl ⟨by simp [howner, Option.filter, hcall], ?_⟩
              simpa [Session.resume, howners, howner, hawaits, hcall, Option.filter] using hheard
          · have hother : ∀ l, s.owners id ≠ some (.loop l) := fun l howner => hloop ⟨l, howner⟩
            refine .inl ⟨?_, hheard.trans (resume_quiet t (by rwa [howners]) epoch outcome taken)⟩
            split
            · rename_i hfound
              exact absurd (Option.filter_eq_some_iff.mp hfound).1 (hother _)
            · rfl

/-! ### Acks -/

theorem loopFrames_congr {owners owners' : CallId → Option Owner} {conn : Conn} {nextCall : CallId}
    (hsigned : ∀ x ∈ conn.written, ∀ id, x.caller = some id → id < nextCall)
    (howners : ∀ id, id < nextCall → owners' id = owners id) : loopFrames owners' conn = loopFrames owners conn := by
  unfold loopFrames
  congr 1
  apply List.filter_congr
  intro x hx
  cases hcaller : x.caller with
  | none => rfl
  | some id => rw [Option.bind_some, Option.bind_some, howners id (hsigned x hx id hcaller)]

theorem loopFrames_of_written {owners : CallId → Option Owner} {conn conn' : Conn} {more : List Sent}
    (h : conn'.written = conn.written ++ more) :
    loopFrames owners conn' = loopFrames owners conn ++
      (more.filter fun x => (x.caller.bind owners).any Owner.isLoop).map Sent.frame := by
  rw [loopFrames, h, List.filter_append, List.map_append]
  rfl

theorem acks_call (hs : s.Orderly) (owner : Option Owner) (op : Operation) {more : List Sent}
    (hwritten : (s.call owner op).link.client.conn.written = s.link.client.conn.written ++ more) :
    (s.call owner op).acks = s.acks ++
      (more.filter fun x => (x.caller.bind (s.call owner op).owners).any Owner.isLoop).map Sent.frame := by
  have howners : ∀ id, id < s.nextCall → (s.call owner op).owners id = s.owners id := by
    intro id hid
    simp [Session.call, Session.setClient, Nat.ne_of_lt hid]
  have hold (link : Link) (hlink : link ∈ s.links) :
      loopFrames (s.call owner op).owners link.client.conn = loopFrames s.owners link.client.conn :=
    loopFrames_congr (hs link hlink).signed howners
  have hprevious : (s.call owner op).previous.flatMap (fun link => loopFrames (s.call owner op).owners link.client.conn) =
      s.previous.flatMap (fun link => loopFrames s.owners link.client.conn) :=
    List.flatMap_congr fun link hlink => hold link (List.mem_cons_of_mem _ hlink)
  rw [Session.acks, Session.acks, hprevious, loopFrames_of_written hwritten, hold s.link List.mem_cons_self,
    List.append_assoc]

theorem filter_loops {owners : CallId → Option Owner} {own : Option CallId} {more : List Sent}
    (hmore : ∀ x ∈ more, x.caller = none ∨ x.caller = own) (hown : ∀ id l, own = some id → owners id ≠ some (.loop l)) :
    more.filter (fun x => (x.caller.bind owners).any Owner.isLoop) = [] := by
  rw [List.filter_eq_nil_iff]
  intro x hx hloop
  obtain ⟨owner, howner, hloop⟩ := (Option.any_eq_true _ _).mp hloop
  obtain ⟨id, hcaller, howner⟩ := Option.bind_eq_some_iff.mp howner
  have hid : own = some id := by
    rcases hmore x hx with hnone | hsame
    · rw [hnone] at hcaller
      cases hcaller
    · rw [← hsame, hcaller]
  cases owner with
  | loop l => exact hown id l hid howner
  | request r => cases hloop
  | worker w => cases hloop

theorem Conducts.acks {allowed : Dealing → Prop} (h : Conducts allowed s s') (hack : ¬allowed .ack) (hs : s.Orderly) :
    s'.acks = s.acks := by
  induction h with
  | @same s s' hclient hprevious hnext howners hfades =>
      rw [Session.acks, Session.acks, hclient, hprevious, howners]
  | @call s owner op howner =>
      obtain ⟨more, hwritten, hmore⟩ := (turns_call s.link.client op s.nextCall).2.signed
      rw [acks_call hs owner op hwritten, filter_loops hmore, List.map_nil, List.append_nil]
      rintro id l ⟨⟩ hloop
      exact howner l (by simpa [Session.call, Session.setClient] using hloop)
  | receive s l hallowed =>
      have hwritten : (s.call (some (.loop l)) (.receive false)).link.client.conn.written =
          s.link.client.conn.written ++ [] := by
        rw [(waits_receive s l).conn, List.append_nil]
      rw [acks_call hs _ _ hwritten]
      simp
  | reply s rid msg hallowed => rfl
  | ack s l tag hallowed => exact absurd hallowed hack
  | replace s hallowed =>
      have hnew : loopFrames s.owners s.newConnection.link.client.conn = [] := rfl
      rw [Session.acks, Session.acks, Session.newConnection, List.flatMap_append, List.flatMap_singleton]
      exact List.append_nil _
  | trans h h' ih ih' => rw [ih' (h.orderly hs), ih hs]

theorem Ordered.loopFrames_step {owners : CallId → Option Owner} {nextCall : CallId} (h : Ordered nextCall owners c)
    {e : ClientEvent} (hstep : c.step e = some c') (hbegins : e.begins = false) :
    loopFrames owners c'.conn = loopFrames owners c.conn := by
  by_cases hloop : ∃ id l, e.subject = some id ∧ owners id = some (.loop l)
  · obtain ⟨id, l, hsubject, howner⟩ := hloop
    rw [(rests_subject hstep hbegins (h.rests id l howner) hsubject).2]
  · obtain ⟨more, hwritten, hmore⟩ := (carries_step hstep).signed
    rw [loopFrames_of_written hwritten, filter_loops hmore fun id l hid howner => hloop ⟨id, l, hid, howner⟩,
      List.map_nil, List.append_nil]

theorem loopFrames_of_move {e : SessionEvent} {m : Move} (hs : s.Orderly) (hstep : s.step e = some s')
    (hmove : s.move e = some m) : loopFrames s.owners m.after.conn = loopFrames s.owners m.link.client.conn :=
  (move_induction (motive := fun d => Ordered s.nextCall s.owners d ∧
      loopFrames s.owners d.conn = loopFrames s.owners m.link.client.conn) hstep hmove
    ⟨hs _ (mem_of_linkAt (linkAt_of_move hmove)), rfl⟩ fun _ _ _ hd hnext hcalls _ =>
      ⟨hd.1.step hnext hcalls, (hd.1.loopFrames_step hnext hcalls).trans hd.2⟩).2

theorem acks_setLink {epoch : Nat} {link link' : Link} (hlink : s.linkAt epoch = some link)
    (hframes : loopFrames s.owners link'.client.conn = loopFrames s.owners link.client.conn) :
    (s.setLink epoch link').acks = s.acks := by
  unfold Session.linkAt at hlink
  unfold Session.setLink
  split
  · rename_i hepoch
    rw [if_pos hepoch] at hlink
    cases hlink
    rw [Session.acks, Session.acks, hframes]
  · rename_i hepoch
    rw [if_neg hepoch] at hlink
    obtain ⟨hlt, hget⟩ := List.getElem?_eq_some_iff.mp hlink
    have hmap : (s.previous.set epoch link').map (fun link => loopFrames s.owners link.client.conn) =
        s.previous.map (fun link => loopFrames s.owners link.client.conn) := by
      rw [List.map_set, hframes, ← hget, ← List.map_set, List.set_getElem_self hlt]
    rw [Session.acks, Session.acks, List.flatMap_def, List.flatMap_def, hmap]

/-! ### What is taken -/

theorem taken_fits {e : ClientEvent} (hc : c.Tagged) (h : c.taken e = some msg) : TagFits msg := by
  cases e with
  | receive id timeout =>
      obtain ⟨-, h⟩ := Option.ite_none_right_eq_some.mp h
      have hitem : (c.deliveries.get id).1 = some (some msg) := Option.join_eq_some_iff.mp h
      apply hc.queued
      rw [AsyncQueue.items_get c.deliveries id, hitem]
      exact List.mem_cons_self
  | wakeJob id =>
      simp only [Client.taken] at h
      split at h
      · have hitem : (c.deliveries.resume id).1 = some (some msg) := Option.join_eq_some_iff.mp h
        apply hc.queued
        rw [AsyncQueue.items_resume c.deliveries id, hitem]
        exact List.mem_cons_self
      · cases h
  | _ => cases h

theorem takes_fits {outcome : Except Exc (Option Text)} {taken : Option IncomingMessage} (hs : s.link.client.Tagged)
    (htaken : ∀ msg, taken = some msg → TagFits msg) (h : s.takes l outcome taken = some msg) : TagFits msg := by
  unfold Session.takes at h
  split at h
  · exact htaken msg h
  · exact taken_fits hs h
  · cases h

theorem movedReply_fits (hs : s.Orderly) {epoch : Nat} {link : Link} {call : Option CallId}
    {taken : Option IncomingMessage} (hafter : Ordered s.nextCall s.owners c')
    (htaken : ∀ msg, taken = some msg → TagFits msg) (h : s.movedReply epoch link c' call taken = some msg) :
    TagFits msg := by
  obtain ⟨id, -, h⟩ := Option.bind_eq_some_iff.mp h
  obtain ⟨outcome, -, h⟩ := Option.bind_eq_some_iff.mp h
  split at h
  · have hset : (s.setLink epoch { link with client := c' }).Orderly := orderly_setLink hs epoch hafter
    exact takes_fits (hset _ List.mem_cons_self).tagged htaken h
  · cases h

/-! ### Steps of a session -/

/-- A loop is about to handle a reply. -/
structure Takes (s t : Session) : Prop where
  orderly : t.Orderly
  correlation : t.correlation = s.correlation
  requests : t.requests = s.requests
  nextRequest : t.nextRequest = s.nextRequest
  conn : t.link.client.conn = s.link.client.conn
  acks : t.acks = s.acks

theorem Takes.of_uncancelled {t : Session} {owner : Owner} (h : Takes (s.setCancelled owner false) t) : Takes s t :=
  ⟨h.orderly, h.correlation, h.requests, h.nextRequest, h.conn, h.acks⟩

theorem Waits.takes {t : Session} (h : Waits s t) (hs : s.Orderly) : Takes s t :=
  ⟨h.conducts.orderly hs, h.correlation, h.requests, h.nextRequest, h.conn,
    h.conducts.acks (by simp [Dealing.Quiet]) hs⟩

theorem conn_setLink {epoch : Nat} {link : Link} (hlink : s.linkAt epoch = some link) (hconn : c'.conn = link.client.conn) :
    (s.setLink epoch { link with client := c' }).link.client.conn = s.link.client.conn := by
  unfold Session.linkAt at hlink
  unfold Session.setLink
  split
  · rename_i hepoch
    rw [if_pos hepoch] at hlink
    cases hlink
    exact hconn
  · rfl

theorem moved_reply (hs : s.Orderly) {epoch : Nat} {link : Link} (hlink : s.linkAt epoch = some link)
    (call : Option CallId) (taken : Option IncomingMessage) (hafter : Ordered s.nextCall s.owners c')
    (hframes : loopFrames s.owners c'.conn = loopFrames s.owners link.client.conn)
    (hrests : ∀ id l, call = some id → s.owners id = some (.loop l) → c'.conn = link.client.conn) :
    (s.movedReply epoch link c' call taken = none ∧ Fades s (s.moved epoch link c' call taken) ∧
      (s.moved epoch link c' call taken).acks = s.acks) ∨
    ∃ msg t l, s.movedReply epoch link c' call taken = some msg ∧ Takes s t ∧
      s.moved epoch link c' call taken = t.onReply l msg := by
  have hset : (s.setLink epoch { link with client := c' }).Orderly := orderly_setLink hs epoch hafter
  have hacks : (s.setLink epoch { link with client := c' }).acks = s.acks := acks_setLink hlink hframes
  obtain ⟨hcorrelation, hrequests, hnext⟩ := requests_setLink s epoch { link with client := c' }
  obtain ⟨hnone, hquiet⟩ | ⟨msg, t, l, hsome, hconn, hwaits, heq⟩ := moved_cases s epoch link c' call taken hrests
  · refine .inl ⟨hnone, ?_, (hquiet.acks (by simp [Dealing.Quiet]) hset).trans hacks⟩
    exact (Fades.of_same hcorrelation hnext).trans (hquiet.fades (by simp [Dealing.Quiet]))
  · refine .inr ⟨msg, t, l, hsome, ?_, heq⟩
    have htakes := hwaits.takes hset
    exact ⟨htakes.orderly, htakes.correlation.trans hcorrelation, htakes.requests.trans hrequests,
      htakes.nextRequest.trans hnext, htakes.conn.trans (conn_setLink hlink hconn), htakes.acks.trans hacks⟩

theorem movedReply_setCancelled (s : Session) (owner : Owner) (cancelled : Bool) (epoch : Nat) (link : Link) (c' : Client)
    (call : Option CallId) (taken : Option IncomingMessage) :
    (s.setCancelled owner cancelled).movedReply epoch link c' call taken = s.movedReply epoch link c' call taken := by
  unfold Session.movedReply
  rw [setCancelled_setLink]
  rfl

theorem reply_of_move {e : SessionEvent} {m : Move} {t : Session} (hstep : s.step e = some s') (hmove : s.move e = some m)
    (ht : t = s ∨ ∃ owner, t = s.setCancelled owner false) :
    s.reply e = t.movedReply m.epoch m.link m.after m.call (s.handed e) := by
  have hsame : t.movedReply m.epoch m.link m.after m.call (s.handed e) =
      s.movedReply m.epoch m.link m.after m.call (s.handed e) := by
    rcases ht with rfl | ⟨owner, rfl⟩
    · rfl
    · exact movedReply_setCancelled ..
  rw [hsame]
  cases e with
  | conn epoch e =>
    obtain ⟨link, hlink, h⟩ := Option.bind_eq_some_iff.mp hmove
    obtain ⟨after, hafter, rfl⟩ := Option.map_eq_some_iff.mp h
    simp only [Session.reply, Session.handed, hlink, hafter, Option.bind_some]
  | interrupt epoch id =>
    obtain ⟨owner, howner, -⟩ := Option.bind_eq_some_iff.mp hstep
    obtain ⟨link, hlink, h⟩ := Option.bind_eq_some_iff.mp hmove
    obtain ⟨after, hafter, rfl⟩ := Option.map_eq_some_iff.mp h
    simp only [Session.reply, howner, hlink, hafter, Option.bind_some]
    exact movedReply_setCancelled ..
  | _ => cases hmove

/-- Either no loop takes a reply in the step, and then no request is given one and nothing is acked, or a loop
handles the reply. -/
theorem reply_cases {e : SessionEvent} (hs : s.Orderly) (h : s.step e = some s') :
    (s.reply e = none ∧ Fades s s' ∧ s'.acks = s.acks) ∨
    ∃ msg t l, s.reply e = some msg ∧ Takes s t ∧ s' = t.onReply l msg := by
  have hmoved {m : Move} (hmove : s.move e = some m) : (s.reply e = none ∧ Fades s s' ∧ s'.acks = s.acks) ∨
      ∃ msg t l, s.reply e = some msg ∧ Takes s t ∧ s' = t.onReply l msg := by
    have hlink := linkAt_of_move hmove
    have hafter := ordered_of_move hs h hmove
    have hframes := loopFrames_of_move hs h hmove
    have hrests (id : CallId) (l : LoopId) (hcall : m.call = some id) (howner : s.owners id = some (.loop l)) :
        m.after.conn = m.link.client.conn := conn_of_move hs h hmove hcall howner
    obtain ⟨t, ht, rfl⟩ := step_of_move h hmove
    rw [reply_of_move h hmove ht]
    rcases ht with rfl | ⟨owner, rfl⟩
    · exact moved_reply hs hlink m.call _ hafter hframes hrests
    · have hcleared : (s.setCancelled owner false).Orderly := hs
      obtain ⟨hnone, hfades, hacks⟩ | ⟨msg, t, l, hsome, htakes, heq⟩ :=
        moved_reply hcleared hlink m.call (s.handed e) hafter hframes hrests
      · exact .inl ⟨hnone, ⟨hfades.futures, hfades.pending, hfades.nextRequest⟩, hacks⟩
      · exact .inr ⟨msg, t, l, hsome, htakes.of_uncancelled, heq⟩
  cases e with
  | conn epoch e =>
    obtain ⟨m, hmove⟩ := move_of_step h
    exact hmoved hmove
  | interrupt epoch id =>
    obtain ⟨m, hmove⟩ := move_of_interrupt h
    exact hmoved hmove
  | runLoop l =>
    have hrun : s.runLoop l = some s' := h
    unfold Session.runLoop at hrun
    unfold Session.reply
    split at hrun
    · rename_i hloop
      cases hrun
      simp only [hloop]
      split
      · have hcleared : Conducts Dealing.Quiet s (s.setCancelled (.loop l) false) := .of_same rfl rfl rfl rfl rfl rfl
        have hquiet := hcleared.trans (conducts_loopRaised _ l .cancelledError)
        exact .inl ⟨rfl, hquiet.fades (by simp [Dealing.Quiet]), hquiet.acks (by simp [Dealing.Quiet]) hs⟩
      · obtain ⟨hnone, hquiet⟩ | ⟨msg, t, hsome, hwaits, heq⟩ := receiveNext_cases s l
        · exact .inl ⟨hnone, hquiet.fades (by simp [Dealing.Quiet]), hquiet.acks (by simp [Dealing.Quiet]) hs⟩
        · exact .inr ⟨msg, t, l, hsome, hwaits.takes hs, heq⟩
    · cases hrun
  | _ =>
    have hconducts := conducts_step h (by simp) (by simp) (by simp)
    exact .inl ⟨rfl, hconducts.fades (by simp), hconducts.acks (by simp) hs⟩

/-- The message that the step hands to a receiver has a tag that fits. -/
theorem handed_fits {e : SessionEvent} (hs : s.Orderly) (h : s.handed e = some msg) : TagFits msg := by
  cases e with
  | conn epoch e =>
    obtain ⟨link, hlink, htaken⟩ := Option.bind_eq_some_iff.mp h
    exact taken_fits (hs link (mem_of_linkAt hlink)).tagged htaken
  | _ => cases h

theorem reply_fits {e : SessionEvent} (hs : s.Orderly) (hstep : s.step e = some s') (h : s.reply e = some msg) :
    TagFits msg := by
  have hmoved {m : Move} (hmove : s.move e = some m) : TagFits msg := by
    rw [reply_of_move hstep hmove (.inl rfl)] at h
    exact movedReply_fits hs (ordered_of_move hs hstep hmove) (fun _ => handed_fits hs) h
  cases e with
  | conn epoch e =>
    obtain ⟨m, hmove⟩ := move_of_step hstep
    exact hmoved hmove
  | interrupt epoch id =>
    obtain ⟨m, hmove⟩ := move_of_interrupt hstep
    exact hmoved hmove
  | runLoop l =>
    simp only [Session.reply] at h
    split at h
    · split at h
      · cases h
      · exact taken_fits (hs _ List.mem_cons_self).tagged h
    · cases h
  | _ => cases h

/-! ### Replies -/

theorem answered_cases (s : Session) (msg : IncomingMessage) :
    (textOf (msg.properties .correlationId) = none ∧ s.answered msg = s) ∨
    ∃ cid, textOf (msg.properties .correlationId) = some cid ∧
      s.answered msg = { s with correlation := s.correlation.resolve cid msg }.forgetPublish cid := by
  unfold Session.answered
  generalize msg.properties .correlationId = value
  cases value with
  | none => exact .inl ⟨rfl, rfl⟩
  | some value =>
      cases value with
      | str cid => exact .inr ⟨cid, rfl, rfl⟩
      | _ => exact .inl ⟨rfl, rfl⟩

theorem answered_futures {r : RequestId} {outcome : IncomingMessage}
    (h : (s.answered msg).correlation.futures r = some (.ok outcome)) :
    s.correlation.futures r = some (.ok outcome) ∨ outcome = msg ∧
      ∃ cid, textOf (msg.properties .correlationId) = some cid ∧ s.correlation.pending.get? cid = some r := by
  obtain ⟨-, heq⟩ | ⟨cid, hcid, heq⟩ := answered_cases s msg
  · rw [heq] at h
    exact .inl h
  · rw [heq] at h
    obtain hdone | ⟨-, hentry, houtcome⟩ := settle_eq_some_iff.mp h
    · exact .inl hdone
    · cases houtcome
      exact .inr ⟨rfl, cid, hcid, Option.mem_toList.mp hentry⟩

theorem answered_pending {rid : Text} {r : RequestId} (h : (s.answered msg).correlation.pending.get? rid = some r) :
    s.correlation.pending.get? rid = some r ∧ textOf (msg.properties .correlationId) ≠ some rid := by
  obtain ⟨hnone, heq⟩ | ⟨cid, hcid, heq⟩ := answered_cases s msg
  · rw [heq] at h
    exact ⟨h, by simp [hnone]⟩
  · rw [heq] at h
    obtain ⟨hne, hget⟩ := Dict.get?_of_get?_erase h
    refine ⟨hget, ?_⟩
    rw [hcid]
    rintro ⟨⟩
    exact hne rfl

theorem onReply_acks (s : Session) (l : LoopId) (msg : IncomingMessage) :
    ∃ t, t = (s.answered msg).call (some (.loop l)) (.settle (.basicAck channelId msg.deliveryTag)) ∧
      s.onReply l msg = match t.link.client.outcome (s.answered msg).nextCall with
        | some (.error e) => t.loopRaised l e
        | _ => t.setLoop l (.acking (s.answered msg).nextCall) :=
  ⟨_, rfl, rfl⟩

theorem onReply_fades (s : Session) (l : LoopId) (msg : IncomingMessage) : Fades (s.answered msg) (s.onReply l msg) := by
  obtain ⟨t, ht, heq⟩ := onReply_acks s l msg
  have hcalled : Conducts (· = .ack) (s.answered msg) t := by
    rw [ht]
    exact .ack _ l _ rfl
  have hconducts : Conducts (· = .ack) (s.answered msg) (s.onReply l msg) := by
    rw [heq]
    split
    · exact hcalled.trans (conducts_loopRaised t l _)
    · exact hcalled.trans (conducts_setLoop t l _)
  exact hconducts.fades (by simp)

theorem encodeMethod_ack (h : TagFits msg) :
    encodeMethod (.basicAck msg.deliveryTag false) = .ok (ackOf msg).payload := by
  have htag : toBytes 8 (msg.deliveryTag : Int) = .ok (toBE 8 msg.deliveryTag) := toBytes_natCast h
  simp only [encodeMethod, Method.ids, encodeArgs, htag, ok_bind]
  rfl

/-- An ack is written in the name of its call, which then waits for its drain. -/
theorem settle_ack (hopen : c.conn.channels.get? channelId = some .open)
    (hroom : 13 + frameOverhead ≤ c.conn.frameMax) (hfresh : c.fresh id = true) (hfits : TagFits msg) :
    ∃ d, c.step (.settle id (.basicAck channelId msg.deliveryTag) true) = some d ∧
      d.conn.written = c.conn.written ++ [⟨some id, ackOf msg⟩] ∧ d.outcome id = none := by
  have hlength : (ackOf msg).payload.length = 13 := by simp [ackOf]
  have hframe : (ackOf msg).Fits c.conn.frameMax := by
    refine ⟨(by decide : (0 : Int) ≤ channelId), (by decide : channelId ≤ 0xFFFF), ?_, ?_⟩
    · rw [hlength]
      exact hroom
    · rw [hlength]
      decide
  have hsend : sendMethod (some id) channelId (.basicAck msg.deliveryTag false) c.conn =
      .ok () (c.conn.append (some id) [ackOf msg]) := by
    rw [sendMethod, encodeMethod_ack hfits, writePayload, bind_run_ok (lift_ok ..)]
    exact writeFrame_of_fits hframe
  have hstart : (Settlement.basicAck channelId msg.deliveryTag).start id c.conn =
      .ok () (c.conn.append (some id) [ackOf msg]) := by
    rw [Settlement.start]
    exact (bind_run_ok (assertOpenForOps_of_open hopen)).trans hsend
  have hcalls (conn : Conn) : (c.setConn conn).tasks.calls id = none := by
    rw [← (fresh_iff.mp hfresh).1]
    exact (turns_setConn none c conn).calls id (by simp)
  refine ⟨_, if_pos hfresh, ?_, ?_⟩
  · rw [Client.settle, hstart]
    change (c.setConn _).conn.written = _
    rw [client_setConn_conn]
    rfl
  · rw [Client.settle, hstart]
    simp only [if_true]
    have hnone : ((c.setConn (c.conn.append (some id) [ackOf msg])).setJob id .settling).tasks.calls id = none := hcalls _
    rw [Client.outcome, hnone, setJob_jobs]

theorem answered_same (s : Session) (msg : IncomingMessage) : (s.answered msg).link = s.link ∧
    (s.answered msg).previous = s.previous ∧ (s.answered msg).owners = s.owners ∧
    (s.answered msg).nextCall = s.nextCall ∧ (s.answered msg).requests = s.requests ∧
    (s.answered msg).nextRequest = s.nextRequest := by
  obtain ⟨-, heq⟩ | ⟨cid, -, heq⟩ := answered_cases s msg
  · rw [heq]
    exact ⟨rfl, rfl, rfl, rfl, rfl, rfl⟩
  · rw [heq]
    exact ⟨rfl, rfl, rfl, rfl, rfl, rfl⟩

theorem live_of_conn {t : Session} (h : t.link.client.conn = s.link.client.conn) (hlive : s.Live) : t.Live := by
  rw [Session.Live, h]
  exact hlive

/-- On a live session the ack of a reply is written, and the loop goes on to await it. -/
theorem onReply_acking (hs : s.Orderly) (hlive : s.Live) (hfits : TagFits msg) (l : LoopId) :
    ∃ t, t = (s.answered msg).call (some (.loop l)) (.settle (.basicAck channelId msg.deliveryTag)) ∧
      t.acks = s.acks ++ [ackOf msg] ∧ s.onReply l msg = t.setLoop l (.acking (s.answered msg).nextCall) := by
  obtain ⟨hlink, hprevious, howners, hnext, -, -⟩ := answered_same s msg
  have horderly : (s.answered msg).Orderly := by
    intro link hmem
    rw [Session.links, hlink, hprevious] at hmem
    rw [howners, hnext]
    exact hs link hmem
  have hfresh : (s.answered msg).link.client.fresh (s.answered msg).nextCall = true :=
    (horderly _ List.mem_cons_self).fresh _ le_rfl
  obtain ⟨hopen, hroom⟩ := hlive
  rw [← hlink] at hopen hroom
  obtain ⟨d, hstep, hwritten, houtcome⟩ := settle_ack hopen hroom hfresh hfits
  obtain ⟨t, ht, heq⟩ := onReply_acks s l msg
  have hclient : t.link.client = d := by
    rw [ht]
    change ((s.answered msg).link.client.step (.settle _ _ true)).getD _ = d
    rw [hstep, Option.getD_some]
  refine ⟨t, ht, ?_, by rw [heq, hclient, houtcome]⟩
  have hacks : t.acks = (s.answered msg).acks ++ [ackOf msg] := by
    rw [← hclient, ht] at hwritten
    rw [ht, acks_call horderly _ _ hwritten]
    simp [Session.call, Owner.isLoop]
  rw [hacks, Session.acks, Session.acks, hlink, hprevious, howners]

/-- On a live session a reply reaches its request and is acked, and that is all. -/
theorem onReply_live (hs : s.Orderly) (hlive : s.Live) (hfits : TagFits msg) (l : LoopId) :
    (s.onReply l msg).correlation = (s.answered msg).correlation ∧ (s.onReply l msg).requests = s.requests ∧
      (s.onReply l msg).acks = s.acks ++ [ackOf msg] := by
  obtain ⟨-, -, -, -, hrequests, -⟩ := answered_same s msg
  obtain ⟨t, ht, hacks, heq⟩ := onReply_acking hs hlive hfits l
  rw [heq]
  exact ⟨by rw [ht]; rfl, by rw [ht]; exact hrequests, hacks⟩

end Replies

end Nuropb.Sessions
