import Nuropb.Sessions.Conduct
import Nuropb.Sessions.Moves
import Nuropb.Sessions.Turns
import Nuropb.Transport.Release

/-! # The order of calls

A number that is still to come is fresh on every connection of the session, and what a reply loop calls
only waits.
-/
namespace Nuropb.Sessions

open Library Transport

/-- The operations that a reply loop calls. -/
def Operation.waits : Operation → Bool
  | .receive _ | .settle _ => true
  | _ => false

/-- The calls that are still to come are fresh on the connection, those of the reply loops only wait, nobody has
written in the name of a call that is still to come, and a loss is a `ConnectionLost`. -/
structure Ordered (nextCall : CallId) (owners : CallId → Option Owner) (c : Client) : Prop where
  fresh : ∀ id, nextCall ≤ id → c.fresh id = true
  rests : ∀ id l, owners id = some (.loop l) → c.Rests id
  signed : ∀ x ∈ c.conn.written, ∀ id, x.caller = some id → id < nextCall
  tagged : c.Tagged
  lost : ∀ exc, c.conn.lost = some exc → ∃ reason, exc = .connectionLost reason

namespace Session

def links (s : Session) : List Link := s.link :: s.previous

def Orderly (s : Session) : Prop := ∀ link ∈ s.links, Ordered s.nextCall s.owners link.client

end Session

section Order

variable {s s' : Session} {c c' : Client} {id nextCall : CallId} {owners : CallId → Option Owner}

/-! ### Calls -/

theorem subject_event (op : Operation) (id : CallId) : (op.event id).subject = some id := by
  cases op <;> rfl

theorem Ordered.lost_step (h : Ordered nextCall owners c) {e : ClientEvent} (hstep : c.step e = some c') (exc : Exc)
    (hlost : c'.conn.lost = some exc) : ∃ reason, exc = .connectionLost reason := by
  rcases lost_of_step hstep with hsame | ⟨reason, hnew⟩
  · exact h.lost exc (hsame ▸ hlost)
  · rw [hnew] at hlost
    exact ⟨reason, (Option.some.inj hlost).symm⟩

theorem turns_call (c : Client) (op : Operation) (id : CallId) :
    Turns (some id) c ((c.step (op.event id)).getD c) ∧ Carries (some id) c ((c.step (op.event id)).getD c) := by
  cases h : c.step (op.event id) with
  | none => exact ⟨.refl c, .refl c⟩
  | some c' =>
      rw [Option.getD_some, ← subject_event op id]
      exact ⟨turns_step h, carries_step h⟩

theorem rests_call (op : Operation) (hop : op.waits = true) (hfresh : c.fresh id = true) :
    ((c.step (op.event id)).getD c).Rests id := by
  have hcalls := (fresh_iff.mp hfresh).1
  cases op with
  | receive timeout =>
      have hstep : c.step (.receive id timeout) = some (c.receive id timeout) := if_pos hfresh
      rw [Operation.event, hstep, Option.getD_some, Client.receive]
      split
      · exact rests_setJob hcalls rfl
      · exact rests_looked hcalls timeout _
  | settle op =>
      have hstep : c.step (.settle id op true) = some (c.settle id op true) := if_pos hfresh
      rw [Operation.event, hstep, Option.getD_some, Client.settle]
      have hconn (conn : Conn) : (c.setConn conn).tasks.calls id = none := by
        rw [← hcalls]
        exact (turns_setConn none c conn).calls id (by simp)
      split
      · exact rests_setJob (hconn _) rfl
      · exact rests_setJob (hconn _) rfl
  | _ => cases hop

theorem ordered_call (h : Ordered s.nextCall s.owners c) {owner : Option Owner} (op : Operation)
    (howner : ∀ l, owner = some (.loop l) → op.waits = true) :
    Ordered (s.call owner op).nextCall (s.call owner op).owners ((c.step (op.event s.nextCall)).getD c) := by
  obtain ⟨hturns, hcarries⟩ := turns_call c op s.nextCall
  refine ⟨fun id hid => ?_, fun id l hl => ?_, fun x hx id hcaller => ?_, hcarries.tagged h.tagged, ?_⟩
  · have hlt : s.nextCall < id := hid
    rw [fresh_of_turns hturns (by simpa using hlt.ne)]
    exact h.fresh id hlt.le
  · by_cases hnext : id = s.nextCall
    · subst hnext
      have howned : owner = some (.loop l) := by simpa [Session.call, Session.setClient] using hl
      exact rests_call op (howner l howned) (h.fresh _ le_rfl)
    · have howned : s.owners id = some (.loop l) := by simpa [Session.call, Session.setClient, hnext] using hl
      exact rests_of_turns hturns (by simpa using Ne.symm hnext) (h.rests id l howned)
  · change id < s.nextCall + 1
    obtain ⟨more, hwritten, hmore⟩ := hcarries.signed
    rw [hwritten] at hx
    rcases List.mem_append.mp hx with hx | hx
    · exact Nat.lt_succ_of_lt (h.signed x hx id hcaller)
    · rcases hmore x hx with hnone | hown
      · rw [hnone] at hcaller
        cases hcaller
      · rw [hown] at hcaller
        cases hcaller
        exact Nat.lt_succ_self _
  · cases hstep : c.step (op.event s.nextCall) with
    | none => exact h.lost
    | some c' => exact h.lost_step hstep

theorem ordered_uncalled (h : Ordered s.nextCall s.owners c) (owner : Option Owner) (op : Operation) :
    Ordered (s.call owner op).nextCall (s.call owner op).owners c where
  fresh id hid := h.fresh id (Nat.le_of_succ_le hid)
  rests id l hl := by
    by_cases hnext : id = s.nextCall
    · subst hnext
      exact rests_of_fresh (h.fresh _ le_rfl)
    · refine h.rests id l ?_
      simpa [Session.call, Session.setClient, hnext] using hl
  signed x hx id hcaller := Nat.lt_succ_of_lt (h.signed x hx id hcaller)
  tagged := h.tagged
  lost := h.lost

theorem ordered_new (config : ConnectionConfig) : Ordered nextCall owners (Client.new config) where
  fresh _ _ := rfl
  rests _ _ _ := rests_of_fresh rfl
  signed _ hx := by cases hx
  tagged := ⟨⟨fun _ _ hslot => (nomatch hslot), fun _ hmsg => (nomatch hmsg)⟩, fun _ hmsg => (nomatch hmsg)⟩
  lost _ hlost := by cases hlost

theorem orderly_call (h : s.Orderly) {owner : Option Owner} (op : Operation)
    (howner : ∀ l, owner = some (.loop l) → op.waits = true) : (s.call owner op).Orderly := by
  intro link hlink
  rcases List.mem_cons.mp hlink with rfl | hlink
  · exact ordered_call (h _ List.mem_cons_self) op howner
  · exact ordered_uncalled (h link (List.mem_cons_of_mem _ hlink)) owner op

theorem Conducts.orderly {allowed : Dealing → Prop} (h : Conducts allowed s s') (hs : s.Orderly) : s'.Orderly := by
  induction h with
  | @same s s' hclient hprevious hnext howners hfades =>
      intro link hlink
      rcases List.mem_cons.mp hlink with rfl | hlink
      · rw [hclient, hnext, howners]
        exact hs _ List.mem_cons_self
      · rw [hprevious] at hlink
        rw [hnext, howners]
        exact hs link (List.mem_cons_of_mem _ hlink)
  | call s op howner => exact orderly_call hs op fun l hl => absurd hl (howner l)
  | receive s l hallowed => exact orderly_call hs _ fun _ _ => rfl
  | reply s rid msg hallowed => exact hs
  | ack s l tag hallowed => exact orderly_call hs _ fun _ _ => rfl
  | replace s hallowed =>
      intro link hlink
      rcases List.mem_cons.mp hlink with rfl | hlink
      · exact ordered_new _
      · rcases List.mem_append.mp hlink with hlink | hlink
        · exact hs link (List.mem_cons_of_mem _ hlink)
        · cases List.mem_singleton.mp hlink
          exact hs _ List.mem_cons_self
  | trans _ _ ih ih' => exact ih' (ih hs)

/-! ### Steps of connections -/

theorem Ordered.step (h : Ordered nextCall owners c) {e : ClientEvent} (hstep : c.step e = some c')
    (hbegins : e.begins = false) : Ordered nextCall owners c' where
  fresh id hid := fresh_step hstep hbegins (h.fresh id hid)
  rests id l hl := rests_step hstep hbegins (h.rests id l hl)
  signed x hx id hcaller := by
    obtain ⟨more, hwritten, hmore⟩ := (carries_step hstep).signed
    rw [hwritten] at hx
    rcases List.mem_append.mp hx with hx | hx
    · exact h.signed x hx id hcaller
    · have hsubject : e.subject = some id := by
        rcases hmore x hx with hnone | hown
        · rw [hnone] at hcaller
          cases hcaller
        · rw [← hown, hcaller]
      rw [← Nat.not_le]
      intro hle
      have hfresh := h.fresh id hle
      rw [not_fresh_of_step hstep hbegins hsubject] at hfresh
      cases hfresh
  tagged := (carries_step hstep).tagged h.tagged
  lost := h.lost_step hstep

theorem interrupt_induction {motive : Client → Prop} (hinterrupt : c.interrupt id = some c') (hc : motive c)
    (hstep : ∀ d e d', motive d → d.step e = some d' → e.begins = false → e.subject = some id → motive d') :
    motive c' := by
  unfold Client.interrupt at hinterrupt
  split at hinterrupt
  · exact hstep _ _ _ hc hinterrupt rfl rfl
  · exact hstep _ _ _ hc hinterrupt rfl rfl
  · obtain ⟨d, hcancel, hwake⟩ := Option.bind_eq_some_iff.mp hinterrupt
    exact hstep _ _ _ (hstep _ _ _ hc hcancel rfl rfl) hwake rfl rfl
  · exact hstep _ _ _ hc hinterrupt rfl rfl
  · exact hstep _ _ _ hc hinterrupt rfl rfl
  · split at hinterrupt
    · obtain ⟨d, hcancel, hwake⟩ := Option.bind_eq_some_iff.mp hinterrupt
      exact hstep _ _ _ (hstep _ _ _ hc hcancel rfl rfl) hwake rfl rfl
    · exact hstep _ _ _ hc hinterrupt rfl rfl
  · cases hinterrupt

theorem mem_of_linkAt {epoch : Nat} {link : Link} (h : s.linkAt epoch = some link) : link ∈ s.links := by
  unfold Session.linkAt at h
  split at h
  · cases h
    exact List.mem_cons_self
  · exact List.mem_cons_of_mem _ (List.mem_of_getElem? h)

theorem orderly_setLink (hs : s.Orderly) (epoch : Nat) {link : Link} (hlink : Ordered s.nextCall s.owners link.client) :
    (s.setLink epoch link).Orderly := by
  unfold Session.setLink
  split
  · intro other hother
    rcases List.mem_cons.mp hother with rfl | hother
    · exact hlink
    · exact hs other (List.mem_cons_of_mem _ hother)
  · intro other hother
    rcases List.mem_cons.mp hother with rfl | hother
    · exact hs _ List.mem_cons_self
    · rcases List.mem_or_eq_of_mem_set hother with hother | rfl
      · exact hs other (List.mem_cons_of_mem _ hother)
      · exact hlink

theorem orderly_moved (hs : s.Orderly) {epoch : Nat} {link : Link} (call : Option CallId)
    (taken : Option IncomingMessage) (hafter : Ordered s.nextCall s.owners c') :
    (s.moved epoch link c' call taken).Orderly := by
  have hset : (s.setLink epoch { link with client := c' }).Orderly := orderly_setLink hs epoch hafter
  exact (conducts_moved s epoch link c' call taken).orderly hset

/-! ### Moves -/

theorem subject_of_addressee {e : ClientEvent} (h : e.addressee = some id) : e.subject = some id := by
  cases e with
  | task e => cases e <;> first | exact h | cases h
  | _ => first | exact h | cases h

/-- A step of the session takes a connection through steps that begin no call, in the name of the call that runs. -/
theorem move_induction {motive : Client → Prop} {e : SessionEvent} {m : Move} (hstep : s.step e = some s')
    (hmove : s.move e = some m) (hc : motive m.link.client)
    (hnext : ∀ d e d', motive d → d.step e = some d' → e.begins = false →
      (∀ id, m.call = some id → e.subject = some id) → motive d') : motive m.after := by
  cases e with
  | conn epoch e =>
    obtain ⟨hbegins, -⟩ := Option.ite_none_left_eq_some.mp hstep
    have hcalls : e.begins = false := by simpa using fun hbegins' => hbegins (.inl hbegins')
    obtain ⟨link, -, h⟩ := Option.bind_eq_some_iff.mp hmove
    obtain ⟨after, hafter, rfl⟩ := Option.map_eq_some_iff.mp h
    exact hnext _ _ _ hc hafter hcalls fun id => subject_of_addressee
  | interrupt epoch id =>
    obtain ⟨link, -, h⟩ := Option.bind_eq_some_iff.mp hmove
    obtain ⟨after, hafter, rfl⟩ := Option.map_eq_some_iff.mp h
    refine interrupt_induction hafter hc fun d e d' hd hclient hcalls hsubject => hnext d e d' hd hclient hcalls ?_
    rintro other ⟨⟩
    exact hsubject
  | _ => cases hmove

theorem fresh_of_move {e : SessionEvent} {m : Move} (hstep : s.step e = some s') (hmove : s.move e = some m)
    (hfresh : m.link.client.fresh id = true) : m.after.fresh id = true :=
  move_induction hstep hmove hfresh fun _ _ _ hd hnext hcalls _ => fresh_step hnext hcalls hd

theorem ordered_of_move {e : SessionEvent} {m : Move} (hs : s.Orderly) (hstep : s.step e = some s')
    (hmove : s.move e = some m) : Ordered s.nextCall s.owners m.after :=
  move_induction hstep hmove (hs _ (mem_of_linkAt (linkAt_of_move hmove))) fun _ _ _ hd hnext hcalls _ => hd.step hnext hcalls

/-- A step in which the call of a reply loop goes on leaves the connection as it was. -/
theorem conn_of_move {e : SessionEvent} {m : Move} {l : LoopId} (hs : s.Orderly) (hstep : s.step e = some s')
    (hmove : s.move e = some m) (hcall : m.call = some id) (howner : s.owners id = some (.loop l)) :
    m.after.conn = m.link.client.conn :=
  (move_induction (motive := fun d => d.Rests id ∧ d.conn = m.link.client.conn) hstep hmove
    ⟨(hs _ (mem_of_linkAt (linkAt_of_move hmove))).rests id l howner, rfl⟩ fun _ _ _ hd hnext hcalls hsubject =>
      have hrested := rests_subject hnext hcalls hd.1 (hsubject id hcall)
      ⟨hrested.1, hrested.2.trans hd.2⟩).2

theorem orderly_heardIn {e : SessionEvent} (hs : s.Orderly) (hstep : s.step e = some s') : (s.heardIn e).Orderly := by
  unfold Session.heardIn
  split
  · rename_i m hmove
    exact @orderly_moved _ _ hs _ m.link none none (ordered_of_move hs hstep hmove)
  · exact hs

theorem orderly_of_move {e : SessionEvent} {m : Move} (hs : s.Orderly) (hstep : s.step e = some s')
    (hmove : s.move e = some m) : s'.Orderly := by
  have hafter := ordered_of_move hs hstep hmove
  obtain ⟨t, ht, rfl⟩ := step_of_move hstep hmove
  rcases ht with rfl | ⟨owner, rfl⟩
  · exact orderly_moved hs m.call _ hafter
  · have hcleared : (s.setCancelled owner false).Orderly := hs
    exact orderly_moved hcleared m.call _ hafter

theorem orderly_step {e : SessionEvent} (hs : s.Orderly) (h : s.step e = some s') : s'.Orderly := by
  cases e with
  | conn epoch e =>
    obtain ⟨m, hmove⟩ := move_of_step h
    exact orderly_of_move hs h hmove
  | interrupt epoch id =>
    obtain ⟨m, hmove⟩ := move_of_interrupt h
    exact orderly_of_move hs h hmove
  | runLoop l => exact (conducts_runLoop h).orderly hs
  | _ => exact (conducts_step h (by simp) (by simp) (by simp)).orderly hs

theorem orderly_new (settings : Settings) : (Session.new settings).Orderly := by
  intro link hlink
  cases List.mem_singleton.mp hlink
  exact ordered_new _

end Order

end Nuropb.Sessions
