import Nuropb.Library.Transition
import Nuropb.Transport.Tasks

/-! # Queues declared with a profile

`queue_declare_profile` awaits up to two operations: the declare of the dead-letter exchange and
the declare of the queue. Other tasks run in between, so each operation finds a connection of its
own and its wait ends in a way of its own. What is asked of the declared queue is read off the
`queue.declare` and the operations awaited before it.
-/
namespace Nuropb.Transport

open Library Protocol Config

/-- What an operation finds on its turn, and how the wait for its reply ends. -/
structure Turn where
  conn : Conn
  reply : Except Exc Method

/-- A request that was written, and how its operation ended. -/
abbrev Asked := SyncRequest × Except Exc (Option Text)

abbrev AskM := EStateM Exc (List Asked)

section Operations

variable (caller : CallId) (turns : Nat → Turn)

def perform (r : SyncRequest) : AskM (Option Text) := do
  let asked ← get
  let turn := turns asked.length
  match r.start caller turn.conn with
  | .error e _ => throw e
  | .ok _ _ =>
    let outcome := turn.reply.bind r.result
    set (asked ++ [(r, outcome)])
    lift outcome

def deadLetterDeclare (exchange : Text) : ExchangeDeclareArgs :=
  { exchange, type := Text.ofString "topic", durable := true, autoDelete := false }

def ensureProfileDlx (channel : Int) (profile : QueueProfile) : AskM Unit :=
  match profile.deadLetterExchange with
  | none => return
  | some exchange => do
    if profile.requiresDlx then
      let _ ← perform caller turns (.exchangeDeclare channel (deadLetterDeclare exchange))

def queueDeclareProfile (channel : Int) (queue : Text) (profile : QueueProfile) (exclusive : Bool := false)
    (autoDelete : Option Bool := none) : AskM (Option Text) := do
  throwIf (exclusive ∧ profile.queueType = .quorum) (.valueError "quorum queues cannot be exclusive")
  let autoDelete := autoDelete.getD !profile.durable
  throwIf (autoDelete ∧ profile.queueType = .quorum) (.valueError "quorum queues cannot be auto-delete")
  throwIf (autoDelete ∧ profile.durable) (profile.refusal "durable queues must not be auto_delete")
  ensureProfileDlx caller turns channel profile
  perform caller turns (.queueDeclare channel
    { queue, durable := profile.durable, exclusive, autoDelete, arguments := profile.declareArguments })

end Operations

/-! ## What an awaited operation leaves -/

section Inversion

variable {caller : CallId} {turns : Nat → Turn} {channel : Int} {profile : QueueProfile}

/-- An operation is refused before anything is written, or leaves its request behind. -/
theorem perform_cases (caller : CallId) (turns : Nat → Turn) (r : SyncRequest) (asked : List Asked) :
    (∃ e, perform caller turns r asked = .error e asked) ∨
      ∃ outcome, perform caller turns r asked = lift outcome (asked ++ [(r, outcome)]) := by
  rw [perform, bind_run_ok (get_run _)]
  cases hstart : r.start caller (turns asked.length).conn with
  | error e conn' => exact .inl ⟨e, rfl⟩
  | ok requested conn' => exact .inr ⟨_, rfl⟩

/-- The entries are declares of exchanges. -/
def ExchangesOnly (asked : List Asked) : Prop := ∀ a ∈ asked, ∃ channel args, a.1 = .exchangeDeclare channel args

/-- The profile's dead-letter exchange, if it has one, has been declared. -/
def DeclaredFirst (channel : Int) (profile : QueueProfile) (earlier : List Asked) : Prop :=
  ∀ exchange, profile.deadLetterExchange = some exchange → exchange ≠ [] →
    ∃ result, (.exchangeDeclare channel (deadLetterDeclare exchange), .ok result) ∈ earlier

theorem ensureProfileDlx_cases (caller : CallId) (turns : Nat → Turn) (channel : Int) (profile : QueueProfile) :
    ∃ asked, ExchangesOnly asked ∧ ((∃ e, ensureProfileDlx caller turns channel profile [] = .error e asked) ∨
      ensureProfileDlx caller turns channel profile [] = .ok () asked ∧ DeclaredFirst channel profile asked) := by
  have hnone : ExchangesOnly [] := by simp [ExchangesOnly]
  cases hdlx : profile.deadLetterExchange with
  | none =>
    rw [ensureProfileDlx, hdlx]
    refine ⟨[], hnone, .inr ⟨rfl, fun exchange hexchange => ?_⟩⟩
    rw [hdlx] at hexchange
    cases hexchange
  | some exchange =>
    rw [ensureProfileDlx, hdlx]
    by_cases hrequires : profile.requiresDlx = true
    · simp only [hrequires, if_true]
      rcases perform_cases caller turns (.exchangeDeclare channel (deadLetterDeclare exchange)) [] with
        ⟨e, he⟩ | ⟨outcome, hrun⟩
      · exact ⟨[], hnone, .inl ⟨e, bind_run_error he⟩⟩
      · rw [List.nil_append] at hrun
        refine ⟨[(.exchangeDeclare channel (deadLetterDeclare exchange), outcome)], by simp [ExchangesOnly], ?_⟩
        cases outcome with
        | error e => exact .inl ⟨e, bind_run_error hrun⟩
        | ok result =>
          refine .inr ⟨bind_run_ok hrun, fun other hother _ => ⟨result, ?_⟩⟩
          rw [hdlx] at hother
          cases hother
          exact List.mem_singleton.mpr rfl
    · simp only [hrequires, Bool.false_eq_true, if_false]
      refine ⟨[], hnone, .inr ⟨rfl, fun other hother hne => absurd ?_ hrequires⟩⟩
      rw [ProfileSettings.requiresDlx, hother]
      simpa using hne

/-- What a `queue.declare` that was written tells of the call. -/
structure Declared (channel : Int) (profile : QueueProfile) (earlier : List Asked) (args : QueueDeclareArgs) : Prop where
  durable_eq : args.durable = profile.durable
  arguments_eq : args.arguments = profile.declareArguments
  shared : profile.queueType = .quorum → args.exclusive = false ∧ args.autoDelete = false
  kept : profile.durable = true → args.autoDelete = false
  declaredFirst : DeclaredFirst channel profile earlier

/-- The call writes its `queue.declare` last, after its three checks and the dead-letter exchange. -/
theorem queueDeclareProfile_cases (caller : CallId) (turns : Nat → Turn) (channel : Int) (queue : Text)
    (profile : QueueProfile) (exclusive : Bool) (autoDelete : Option Bool) :
    ∃ asked, ExchangesOnly asked ∧
      (resultState (queueDeclareProfile caller turns channel queue profile exclusive autoDelete []) = asked ∨
        ∃ args outcome, resultState (queueDeclareProfile caller turns channel queue profile exclusive autoDelete []) =
          asked ++ [(.queueDeclare channel args, outcome)] ∧ Declared channel profile asked args) := by
  have hnone : ExchangesOnly [] := by simp [ExchangesOnly]
  unfold queueDeclareProfile
  by_cases hexclusive : exclusive ∧ profile.queueType = .quorum
  · rw [bind_run_error (throwIf_of hexclusive _ _)]
    exact ⟨[], hnone, .inl rfl⟩
  rw [bind_run_ok (throwIf_of_not hexclusive _ _)]
  by_cases hquorum : autoDelete.getD !profile.durable ∧ profile.queueType = .quorum
  · rw [bind_run_error (throwIf_of hquorum _ _)]
    exact ⟨[], hnone, .inl rfl⟩
  rw [bind_run_ok (throwIf_of_not hquorum _ _)]
  by_cases hdurable : autoDelete.getD !profile.durable ∧ profile.durable
  · rw [bind_run_error (throwIf_of hdurable _ _)]
    exact ⟨[], hnone, .inl rfl⟩
  rw [bind_run_ok (throwIf_of_not hdurable _ _)]
  obtain ⟨asked, honly, ⟨e, he⟩ | ⟨hok, hfirst⟩⟩ := ensureProfileDlx_cases caller turns channel profile
  · rw [bind_run_error he]
    exact ⟨asked, honly, .inl rfl⟩
  rw [bind_run_ok hok]
  refine ⟨asked, honly, ?_⟩
  rcases perform_cases caller turns (.queueDeclare channel
    { queue, durable := profile.durable, exclusive, autoDelete := autoDelete.getD !profile.durable
      arguments := profile.declareArguments }) asked with ⟨e, he⟩ | ⟨outcome, hrun⟩
  · exact .inl (congrArg resultState he)
  · refine .inr ⟨_, outcome, (congrArg resultState hrun).trans (by cases outcome <;> rfl), rfl, rfl, ?_, ?_, hfirst⟩
    · intro htype
      exact ⟨Bool.eq_false_iff.mpr fun h => hexclusive ⟨h, htype⟩, Bool.eq_false_iff.mpr fun h => hquorum ⟨h, htype⟩⟩
    · intro hkept
      exact Bool.eq_false_iff.mpr fun h => hdurable ⟨h, hkept⟩

theorem declared_of_asked {queue : Text} {exclusive : Bool} {autoDelete : Option Bool} {earlier later : List Asked}
    {channel' : Int} {args : QueueDeclareArgs} {outcome : Except Exc (Option Text)}
    (h : resultState (queueDeclareProfile caller turns channel queue profile exclusive autoDelete []) =
      earlier ++ (.queueDeclare channel' args, outcome) :: later) :
    channel' = channel ∧ Declared channel profile earlier args := by
  obtain ⟨asked, honly, hasked | ⟨args', outcome', hasked, hdeclared⟩⟩ :=
    queueDeclareProfile_cases caller turns channel queue profile exclusive autoDelete
  · rw [hasked] at h
    obtain ⟨c, a, ha⟩ := honly (.queueDeclare channel' args, outcome) (h ▸ by simp)
    cases ha
  · rw [hasked] at h
    rcases snoc_eq_split_iff.mp h with ⟨hlast, rfl, -⟩ | ⟨rest, -, rfl⟩
    · cases hlast
      exact ⟨rfl, hdeclared⟩
    · obtain ⟨c, a, ha⟩ := honly (.queueDeclare channel' args, outcome) (by simp)
      cases ha

end Inversion

/-! ## A declared queue is consistent -/

def Sets (args : QueueDeclareArgs) (a : QueueArgument) : Prop := (lookup a.key args.arguments).isSome

def IsQuorum (args : QueueDeclareArgs) : Prop :=
  lookup QueueArgument.queueType.key args.arguments = some (.str (Text.ofString "quorum"))

structure Consistent (channel : Int) (profile : QueueProfile) (earlier : List Asked) (args : QueueDeclareArgs) : Prop where
  expires_iff : Sets args .messageTtl ↔ Sets args .deadLetterExchange
  deadLetters : ∀ v, lookup QueueArgument.deadLetterExchange.key args.arguments = some v →
    ∃ exchange declare result, v = .str exchange ∧ exchange ≠ [] ∧ declare.exchange = exchange ∧
      (.exchangeDeclare channel declare, .ok result) ∈ earlier
  limited_iff : Sets args .deliveryLimit ↔ IsQuorum args
  quorum : IsQuorum args → args.durable = true ∧ args.exclusive = false ∧ args.autoDelete = false
  durable : args.durable = true → args.autoDelete = false
  delivers : ∀ properties deliveryMode props, profile.applyPublishProperties properties deliveryMode = .ok props →
    (props .deliveryMode = some (.int deliveryPersistent) ↔ args.durable = true)

section Consistency

variable {channel : Int} {profile : QueueProfile} {earlier : List Asked} {args : QueueDeclareArgs}

theorem Declared.lookup_eq (h : Declared channel profile earlier args) (a : QueueArgument) :
    lookup a.key args.arguments = profile.argument a := by
  rw [h.arguments_eq, ProfileSettings.lookup_declareArguments]

theorem Declared.isQuorum_iff (h : Declared channel profile earlier args) :
    IsQuorum args ↔ profile.queueType = .quorum := by
  rw [IsQuorum, h.lookup_eq]
  simp [ProfileSettings.argument]

theorem Declared.consistent_iff (h : Declared channel profile earlier args) : Consistent channel profile earlier args ↔
    profile.deadLetterExchange ≠ some [] ∧ (profile.queueType = .quorum → profile.durable = true) := by
  constructor
  · intro hconsistent
    constructor
    · intro hempty
      obtain ⟨exchange, -, -, hstr, hne, -⟩ := hconsistent.deadLetters (.str [])
        (by rw [h.lookup_eq, ProfileSettings.argument, hempty]; rfl)
      cases hstr
      exact hne rfl
    · intro hquorum
      rw [← h.durable_eq]
      exact (hconsistent.quorum (h.isQuorum_iff.mpr hquorum)).1
  · rintro ⟨hnonempty, hdurable⟩
    refine ⟨?_, ?_, ?_, ?_, ?_, ?_⟩
    · rw [Sets, Sets, h.lookup_eq, h.lookup_eq, ProfileSettings.argument, ProfileSettings.argument,
        Option.isSome_map, Option.isSome_map, profile.expires_iff, ProfileSettings.requiresDlx]
      cases hexchange : profile.deadLetterExchange with
      | none => simp
      | some exchange =>
        have hne : exchange ≠ [] := fun hempty => hnonempty (hempty ▸ hexchange)
        simpa using hne
    · intro v hv
      rw [h.lookup_eq, ProfileSettings.argument] at hv
      obtain ⟨exchange, hexchange, rfl⟩ := Option.map_eq_some_iff.mp hv
      have hne : exchange ≠ [] := fun hempty => hnonempty (hempty ▸ hexchange)
      obtain ⟨result, hmem⟩ := h.declaredFirst exchange hexchange hne
      exact ⟨exchange, _, result, rfl, hne, rfl, hmem⟩
    · rw [Sets, h.lookup_eq, h.isQuorum_iff, ProfileSettings.argument, Option.isSome_map, profile.limited_iff]
    · intro hquorum
      have htype := h.isQuorum_iff.mp hquorum
      exact ⟨h.durable_eq.trans (hdurable htype), h.shared htype⟩
    · intro hkept
      exact h.kept (h.durable_eq ▸ hkept)
    · intro properties deliveryMode props hprops
      rw [QueueProfile.deliveryMode_of_apply hprops, h.durable_eq, profile.durable_iff]
      simp

end Consistency

/-- A queue declared with a profile is consistent exactly if the profile does not name the empty dead-letter exchange
and, for a quorum queue, is durable. -/
theorem declares_consistently_iff (caller : CallId) (turns : Nat → Turn) (channel : Int) (queue : Text)
    (profile : QueueProfile) (exclusive : Bool) (autoDelete : Option Bool) (earlier later : List Asked) (channel' : Int)
    (args : QueueDeclareArgs) (outcome : Except Exc (Option Text))
    (h : resultState (queueDeclareProfile caller turns channel queue profile exclusive autoDelete []) =
      earlier ++ (.queueDeclare channel' args, outcome) :: later) :
    Consistent channel profile earlier args ↔
      profile.deadLetterExchange ≠ some [] ∧ (profile.queueType = .quorum → profile.durable = true) :=
  (declared_of_asked h).2.consistent_iff

/-- An open channel and the replies that the broker gives when it agrees. -/
def agreeing (asked : Nat) : Turn where
  conn := openedOne.conn
  reply := .ok (if asked = 0 then .exchangeDeclareOk else .queueDeclareOk [] 0 0)

def declaresQueue (asked : List Asked) : Bool := asked.any fun a => a.1.replyIds == (50, 11)

theorem exists_declared (asked : List Asked) (h : declaresQueue asked = true) :
    ∃ earlier channel args outcome later, asked = earlier ++ (.queueDeclare channel args, outcome) :: later := by
  obtain ⟨⟨r, outcome⟩, hmem, hids⟩ := List.any_eq_true.mp h
  obtain ⟨earlier, later, hasked⟩ := List.append_of_mem hmem
  cases r with
  | queueDeclare channel args => exact ⟨earlier, channel, args, outcome, later, hasked⟩
  | _ => simp [SyncRequest.replyIds, SyncRequest.method, Method.ids] at hids

theorem durableAtLeastOnce_consistent : ∃ earlier channel args outcome later,
    resultState (queueDeclareProfile 0 agreeing 1 [] durableAtLeastOnce false none []) =
      earlier ++ (.queueDeclare channel args, outcome) :: later ∧ Consistent 1 durableAtLeastOnce earlier args := by
  obtain ⟨earlier, channel, args, outcome, later, hasked⟩ := exists_declared
    (resultState (queueDeclareProfile 0 agreeing 1 [] durableAtLeastOnce false none [])) (by decide +kernel)
  exact ⟨earlier, channel, args, outcome, later, hasked, (declares_consistently_iff 0 agreeing 1 [] durableAtLeastOnce false none earlier later channel
    args outcome hasked).mpr ⟨by decide, fun _ => rfl⟩⟩

/-- A profile whose dead-letter exchange is the empty text passes the checks. -/
def emptyDeadLetters : QueueProfile where
  name := Text.ofString "empty-dead-letters"
  queueType := .classic
  durable := true
  deliveryMode := deliveryPersistent
  deadLetterExchange := some []
  valid := by rfl

theorem emptyDeadLetters_not_consistent : ¬∀ caller turns channel queue profile exclusive autoDelete earlier channel' args
    outcome later, resultState (queueDeclareProfile caller turns channel queue profile exclusive autoDelete []) =
      earlier ++ (.queueDeclare channel' args, outcome) :: later → Consistent channel profile earlier args := by
  intro h
  obtain ⟨earlier, channel, args, outcome, later, hasked⟩ := exists_declared
    (resultState (queueDeclareProfile 0 agreeing 1 [] emptyDeadLetters false none [])) (by decide +kernel)
  have hconsistent := h _ _ _ _ _ _ _ _ _ _ _ _ hasked
  exact ((declared_of_asked hasked).2.consistent_iff.mp hconsistent).1 rfl

end Nuropb.Transport
