import Nuropb.Patterns.Errors

/-! # Service identities and their routing keys

An identity owns the keys that begin with its name and a dot. Names and methods may contain dots, so one
name can lie in the namespace of another.
-/
namespace Nuropb.Patterns

open Library

/-! ## Names -/

def dot : CodePoint := .scalar '.'

def newline : CodePoint := .scalar '\n'

/-- `[A-Za-z0-9]` -/
def isNameStart : CodePoint → Bool
  | .scalar c => c.isAlphanum
  | .surrogate _ => false

/-- `[A-Za-z0-9._-]` -/
def isNameChar (c : CodePoint) : Bool := isNameStart c || [dot, .scalar '_', .scalar '-'].contains c

/-- `$` matches before a newline at the end, too. -/
def withoutFinalNewline (t : Text) : Text := if t.getLast? = some newline then t.dropLast else t

/-- `^[A-Za-z0-9][A-Za-z0-9._-]{0,62}$`, for services and for methods. -/
def safeName : Text → Bool
  | [] => false
  | first :: rest =>
    let body := withoutFinalNewline rest
    isNameStart first && decide (body.length ≤ 62) && body.all isNameChar

structure ServiceIdentity where
  service : Text
  safe : safeName service = true
  deriving DecidableEq

namespace ServiceIdentity

def new (service : Text) : Except Exc ServiceIdentity :=
  if h : safeName service = true then .ok ⟨service, h⟩
  else .error (.valueError "service must be 1..63 chars in [A-Za-z0-9._-] starting alphanumeric")

def namespacePrefix (identity : ServiceIdentity) : Text := identity.service ++ [dot]

def routingKey (identity : ServiceIdentity) (method : Text) : Except Exc Text := do
  raiseIf (safeName method = false) (.valueError "method name invalid for mesh routing key")
  return identity.service ++ dot :: method

/-- A refusal is the message of its `NamespaceError`. -/
def assertInNamespace (identity : ServiceIdentity) (key : Text) : Except Text Text := do
  raiseIf (key = []) (Text.ofString "routing key required")
  let outside := Text.ofString "routing key outside namespace: " ++ key
  if key = identity.service ∨ identity.namespacePrefix <+: key then
    let rest := key.drop identity.namespacePrefix.length
    raiseIf (identity.namespacePrefix <+: key ∧ (rest = [] ∨ [dot, dot] <:+: key)) outside
    return key
  else .error outside

end ServiceIdentity

/-! ## Services -/

/-- What `queue.bind` is asked for. -/
structure Binding where
  queue : Text
  exchange : Text
  routingKey : Text

/-- The keys of an identity's methods. -/
abbrev OwnKeys (identity : ServiceIdentity) : Type :=
  { keys : List Text // ∀ key ∈ keys, ∃ method, identity.routingKey method = .ok key }

structure MeshService where
  identity : ServiceIdentity
  methods : List Text
  exchange : Text
  queueName : Text
  routingKeys : OwnKeys identity

namespace MeshService

def checkKeys (identity : ServiceIdentity) : List Text → Except Exc (OwnKeys identity)
  | [] => .ok ⟨[], fun _ h => nomatch h⟩
  | method :: rest =>
    match hkey : identity.routingKey method with
    | .error e => .error e
    | .ok key =>
      match identity.assertInNamespace key with
      | .error _ => .error (.other "NamespaceError")
      | .ok _ => do
        let keys ← checkKeys identity rest
        return ⟨key :: keys.val, List.forall_mem_cons.mpr ⟨⟨method, hkey⟩, keys.property⟩⟩

def new (identity : ServiceIdentity) (methods : List Text) (exchange : Text) (queue : Option Text) : Except Exc MeshService := do
  raiseIf (methods = []) (.valueError "methods must be non-empty")
  let queueName := (queue.filter (· ≠ [])).getD (Text.ofString "nr.svc." ++ identity.service)
  let routingKeys ← checkKeys identity methods
  return { identity, methods, exchange, queueName, routingKeys }

def assertBindAllowed (mesh : MeshService) (key : Text) : Except Exc Text :=
  match mesh.identity.assertInNamespace key with
  | .ok key => .ok key
  | .error message =>
    .error (.rpcError { code := bindRefused, message := .str message,
                        data := .dict (makeErrorData bindRefused false none (some key)) })

/-- The loop of `start` over the keys; each bind is asked for once the guard has passed. -/
def bindAll (mesh : MeshService) : List Text → Except Exc (List Binding)
  | [] => .ok []
  | key :: rest => do
    let _ ← mesh.assertBindAllowed key
    let bindings ← bindAll mesh rest
    return { queue := mesh.queueName, exchange := mesh.exchange, routingKey := key } :: bindings

def start (mesh : MeshService) : Except Exc (List Binding) := mesh.bindAll mesh.routingKeys.val

theorem routingKey_of_bindAll {mesh : MeshService} {keys : List Text} {bindings : List Binding}
    (h : mesh.bindAll keys = .ok bindings) {binding : Binding} (hbinding : binding ∈ bindings) : binding.routingKey ∈ keys := by
  induction keys generalizing bindings with
  | nil =>
    cases h
    cases hbinding
  | cons key rest ih =>
    obtain ⟨_, -, hrest⟩ := bind_eq_ok.mp h
    obtain ⟨others, hothers, hcons⟩ := bind_eq_ok.mp hrest
    cases hcons
    rcases List.mem_cons.mp hbinding with rfl | hmem
    · exact List.mem_cons_self
    · exact List.mem_cons_of_mem _ (ih hothers hmem)

theorem own_of_start {mesh : MeshService} {bindings : List Binding} (h : mesh.start = .ok bindings) {binding : Binding}
    (hbinding : binding ∈ bindings) : ∃ method, mesh.identity.routingKey method = .ok binding.routingKey :=
  mesh.routingKeys.property _ (routingKey_of_bindAll h hbinding)

end MeshService

/-! ## Keys with a separator -/

theorem append_cons_eq_append_cons {α : Type} {sep : α} {a b c d : List α} (h : a ++ sep :: b = c ++ sep :: d) :
    (a = c ∧ b = d) ∨ (∃ w, c = a ++ sep :: w ∧ b = w ++ sep :: d) ∨ ∃ w, a = c ++ sep :: w ∧ d = w ++ sep :: b := by
  rcases List.append_eq_append_iff.mp h with ⟨w, hc, hb⟩ | ⟨w, ha, hd⟩
  · cases w with
    | nil =>
      rw [List.append_nil] at hc
      exact .inl ⟨hc.symm, List.cons.inj hb |>.2⟩
    | cons x w =>
      obtain ⟨hx, htail⟩ := List.cons.inj hb
      exact .inr (.inl ⟨w, hx ▸ hc, htail⟩)
  · cases w with
    | nil =>
      rw [List.append_nil] at ha
      exact .inl ⟨ha, (List.cons.inj hd).2.symm⟩
    | cons x w =>
      obtain ⟨hx, htail⟩ := List.cons.inj hd
      exact .inr (.inr ⟨w, hx ▸ ha, htail⟩)

section Names

variable {t w : Text} {c : CodePoint}

theorem isNameStart_of_safeName (h : safeName t = true) : ∃ first rest, t = first :: rest ∧ isNameStart first = true := by
  cases t with
  | nil => cases h
  | cons first rest =>
    simp only [safeName, Bool.and_eq_true] at h
    exact ⟨first, rest, rfl, h.1.1⟩

theorem ne_dot_of_isNameStart (h : isNameStart c = true) : c ≠ dot := by
  rintro rfl
  revert h
  decide

theorem ne_newline_of_isNameStart (h : isNameStart c = true) : c ≠ newline := by
  rintro rfl
  revert h
  decide

theorem withoutFinalNewline_append (s : Text) (h : t ≠ []) :
    withoutFinalNewline (s ++ t) = s ++ withoutFinalNewline t := by
  unfold withoutFinalNewline
  rw [List.getLast?_append_of_ne_nil _ h]
  split
  · exact List.dropLast_append_of_ne_nil h
  · rfl

theorem withoutFinalNewline_cons (h : c ≠ newline) : withoutFinalNewline (c :: t) = c :: withoutFinalNewline t := by
  cases t with
  | nil => simp [withoutFinalNewline, h]
  | cons d t => exact withoutFinalNewline_append [c] (by simp)

/-- What follows a dot of a name is a name where it begins like one. -/
theorem safeName_of_append {s : Text} (hs : s ≠ []) (h : safeName (s ++ dot :: c :: w) = true) (hc : isNameStart c = true) :
    safeName (c :: w) = true := by
  obtain ⟨first, s, rfl⟩ := List.exists_cons_of_ne_nil hs
  have hbody : withoutFinalNewline (s ++ dot :: c :: w) = s ++ dot :: c :: withoutFinalNewline w := by
    rw [withoutFinalNewline_append s (by simp), withoutFinalNewline_cons (by decide),
      withoutFinalNewline_cons (ne_newline_of_isNameStart hc)]
  simp only [List.cons_append, safeName, hbody, Bool.and_eq_true, decide_eq_true_eq, List.length_append, List.length_cons,
    List.all_append, List.all_cons] at h
  simp only [safeName, Bool.and_eq_true, decide_eq_true_eq]
  exact ⟨⟨hc, by omega⟩, h.2.2.2.2⟩

end Names

/-! ## Namespaces -/

section Namespaces

variable {s₁ s₂ : ServiceIdentity} {method key : Text}

theorem routingKey_eq_ok : s₁.routingKey method = .ok key ↔ safeName method = true ∧ key = s₁.service ++ dot :: method := by
  simp only [ServiceIdentity.routingKey, bind_eq_ok, raiseIf_eq_ok, exists_const, pure_eq_ok, Except.ok.injEq, Bool.not_eq_false]
  exact and_congr_right fun _ => eq_comm

theorem prefix_iff : s₁.namespacePrefix <+: key ↔ ∃ rest, key = s₁.service ++ dot :: rest := by
  constructor
  · rintro ⟨rest, rfl⟩
    exact ⟨rest, by simp [ServiceIdentity.namespacePrefix]⟩
  · rintro ⟨rest, rfl⟩
    exact ⟨rest, by simp [ServiceIdentity.namespacePrefix]⟩

theorem drop_namespace (rest : Text) : (s₁.service ++ dot :: rest).drop s₁.namespacePrefix.length = rest := by
  have hsplit : s₁.service ++ dot :: rest = s₁.namespacePrefix ++ rest := by simp [ServiceIdentity.namespacePrefix]
  rw [hsplit, List.drop_left]

/-- What an identity takes for its own: its name, or something behind its prefix with no `..` anywhere. -/
theorem assertInNamespace_eq_ok {result : Text} :
    s₁.assertInNamespace key = .ok result ↔
      result = key ∧ (key = s₁.service ∨ ∃ rest, key = s₁.service ++ dot :: rest ∧ rest ≠ [] ∧ ¬[dot, dot] <:+: key) := by
  have hkey : s₁.service ≠ [] := by
    obtain ⟨first, rest, heq, -⟩ := isNameStart_of_safeName s₁.safe
    simp [heq]
  simp only [ServiceIdentity.assertInNamespace, bind_eq_ok, raiseIf_eq_ok, exists_const]
  constructor
  · rintro ⟨-, h⟩
    split at h
    · rename_i hinside
      obtain ⟨_, hescape, hresult⟩ := bind_eq_ok.mp h
      cases hresult
      rw [raiseIf_eq_ok] at hescape
      refine ⟨rfl, hinside.imp_right fun hnamespace => ?_⟩
      obtain ⟨rest, rfl⟩ := prefix_iff.mp hnamespace
      rw [drop_namespace] at hescape
      exact ⟨rest, rfl, fun hrest => hescape ⟨hnamespace, .inl hrest⟩, fun hdots => hescape ⟨hnamespace, .inr hdots⟩⟩
    · cases h
  · rintro ⟨rfl, rfl | ⟨rest, rfl, hrest, hdots⟩⟩
    · have houtside : ¬s₁.namespacePrefix <+: s₁.service := by
        intro hnamespace
        have hlength := hnamespace.length_le
        simp [ServiceIdentity.namespacePrefix] at hlength
      refine ⟨hkey, ?_⟩
      rw [if_pos (.inl rfl), raiseIf_of_not (fun h => houtside h.1)]
      rfl
    · have hnamespace : s₁.namespacePrefix <+: s₁.service ++ dot :: rest := prefix_iff.mpr ⟨rest, rfl⟩
      refine ⟨by simp, ?_⟩
      rw [if_pos (.inr hnamespace), drop_namespace, raiseIf_of_not (fun h => h.2.elim hrest hdots)]
      rfl

/-- The second name lies in the namespace of the first: behind the dot it goes on like a name, or no `..` gives it
away. -/
def Nested (s₁ s₂ : ServiceIdentity) : Prop :=
  ∃ w, s₂.service = s₁.service ++ dot :: w ∧
    (w.head?.any isNameStart = true ∨ ¬[dot, dot] <:+: s₂.service ++ [dot])

theorem head_of_method {w rest : Text} (h : safeName (w ++ dot :: rest) = true) : w.head?.any isNameStart = true := by
  obtain ⟨first, tail, heq, hfirst⟩ := isNameStart_of_safeName h
  cases w with
  | nil =>
    obtain ⟨rfl, -⟩ := List.cons.inj heq
    exact absurd rfl (ne_dot_of_isNameStart hfirst)
  | cons c w =>
    obtain ⟨rfl, -⟩ := List.cons.inj heq
    simpa using hfirst

theorem head_of_safeName (h : safeName method = true) : method.head?.any isNameStart = true := by
  obtain ⟨first, tail, rfl, hfirst⟩ := isNameStart_of_safeName h
  simpa using hfirst

theorem routingKey_injective_of_not_nested (h₁ : ¬Nested s₁ s₂) (h₂ : ¬Nested s₂ s₁) {m₁ m₂ : Text}
    (hkey₁ : s₁.routingKey m₁ = .ok key) (hkey₂ : s₂.routingKey m₂ = .ok key) : s₁ = s₂ ∧ m₁ = m₂ := by
  obtain ⟨hsafe₁, heq₁⟩ := routingKey_eq_ok.mp hkey₁
  obtain ⟨hsafe₂, heq₂⟩ := routingKey_eq_ok.mp hkey₂
  rcases append_cons_eq_append_cons (heq₁.symm.trans heq₂) with ⟨hservice, hmethod⟩ | ⟨w, hservice, rfl⟩ | ⟨w, hservice, rfl⟩
  · obtain ⟨service, safe⟩ := s₁
    cases hservice
    exact ⟨rfl, hmethod⟩
  · exact absurd ⟨w, hservice, .inl (head_of_method hsafe₁)⟩ h₁
  · exact absurd ⟨w, hservice, .inl (head_of_method hsafe₂)⟩ h₂

theorem infix_of_append {s t : Text} (h : [dot, dot] <:+: s ++ [dot]) : [dot, dot] <:+: s ++ dot :: t := by
  have hnamespace : s ++ [dot] <+: s ++ dot :: t := ⟨t, by simp⟩
  exact h.trans hnamespace.isInfix

theorem refuses_of_not_nested (hne : s₁ ≠ s₂) (h₁ : ¬Nested s₁ s₂) (h₂ : ¬Nested s₂ s₁)
    (hkey : s₁.routingKey method = .ok key) : ∃ message, s₂.assertInNamespace key = .error message := by
  obtain ⟨hsafe, rfl⟩ := routingKey_eq_ok.mp hkey
  rcases ok_or_error (s₂.assertInNamespace (s₁.service ++ dot :: method)) with ⟨result, hok⟩ | herror
  · exfalso
    obtain ⟨-, hname | ⟨rest, hrest, -, hdots⟩⟩ := assertInNamespace_eq_ok.mp hok
    · exact h₁ ⟨method, hname.symm, .inl (head_of_safeName hsafe)⟩
    · rcases append_cons_eq_append_cons hrest with ⟨hservice, -⟩ | ⟨w, hservice, rfl⟩ | ⟨w, hservice, -⟩
      · obtain ⟨service, safe⟩ := s₁
        cases hservice
        exact hne rfl
      · exact h₁ ⟨w, hservice, .inl (head_of_method hsafe)⟩
      · exact h₂ ⟨w, hservice, .inr fun hinfix => hdots (infix_of_append hinfix)⟩
  · exact herror

end Namespaces

/-- The two identities own disjoint namespaces. -/
structure OwnsApart (s₁ s₂ : ServiceIdentity) : Prop where
  injective : ∀ m₁ m₂ key, s₁.routingKey m₁ = .ok key → s₂.routingKey m₂ = .ok key → s₁ = s₂ ∧ m₁ = m₂
  binds : s₁ ≠ s₂ → ∀ mesh₁ mesh₂ : MeshService, mesh₁.identity = s₁ → mesh₂.identity = s₂ →
    ∀ bindings₁ bindings₂, mesh₁.start = .ok bindings₁ → mesh₂.start = .ok bindings₂ →
      ∀ b₁ ∈ bindings₁, ∀ b₂ ∈ bindings₂, b₁.routingKey ≠ b₂.routingKey
  left : s₁ ≠ s₂ → ∀ method key, s₁.routingKey method = .ok key → ∃ message, s₂.assertInNamespace key = .error message
  right : s₁ ≠ s₂ → ∀ method key, s₂.routingKey method = .ok key → ∃ message, s₁.assertInNamespace key = .error message

theorem ownsApart_symm {s₁ s₂ : ServiceIdentity} (h : OwnsApart s₁ s₂) : OwnsApart s₂ s₁ where
  injective m₁ m₂ key hkey₁ hkey₂ := by
    obtain ⟨hservice, hmethod⟩ := h.injective m₂ m₁ key hkey₂ hkey₁
    exact ⟨hservice.symm, hmethod.symm⟩
  binds hne mesh₁ mesh₂ h₁ h₂ bindings₁ bindings₂ hstart₁ hstart₂ b₁ hb₁ b₂ hb₂ :=
    (h.binds hne.symm mesh₂ mesh₁ h₂ h₁ bindings₂ bindings₁ hstart₂ hstart₁ b₂ hb₂ b₁ hb₁).symm
  left hne := h.right hne.symm
  right hne := h.left hne.symm

/-- The inner identity takes its own name for a key of the outer, or the outer a key of the inner. -/
theorem not_nested_of_ownsApart {s₁ s₂ : ServiceIdentity} (h : OwnsApart s₁ s₂) : ¬Nested s₁ s₂ := by
  rintro ⟨w, hservice, hnested⟩
  have hne : s₁ ≠ s₂ := by
    rintro rfl
    have hlength := congrArg List.length hservice
    simp at hlength
  have houter : s₁.service ≠ [] := by
    obtain ⟨first, rest, heq, -⟩ := isNameStart_of_safeName s₁.safe
    simp [heq]
  rcases hnested with hhead | hdots
  · obtain ⟨c, w, rfl⟩ : ∃ c rest, w = c :: rest := by
      cases w with
      | nil => cases hhead
      | cons c rest => exact ⟨c, rest, rfl⟩
    have hsafe : safeName (c :: w) = true :=
      safeName_of_append houter (hservice ▸ s₂.safe) (by simpa using hhead)
    obtain ⟨message, hrefused⟩ := h.left hne (c :: w) s₂.service (routingKey_eq_ok.mpr ⟨hsafe, hservice⟩)
    have htaken := assertInNamespace_eq_ok.mpr ⟨rfl, .inl (rfl : s₂.service = s₂.service)⟩
    cases htaken.symm.trans hrefused
  · have hmethod : safeName [.scalar 'm'] = true := by decide
    obtain ⟨message, hrefused⟩ := h.right hne _ _ (routingKey_eq_ok.mpr ⟨hmethod, rfl⟩)
    have hkey : s₂.service ++ dot :: [.scalar 'm'] = s₁.service ++ dot :: (w ++ dot :: [.scalar 'm']) := by
      rw [hservice]
      simp
    have hinfix : ¬[dot, dot] <:+: s₂.service ++ dot :: [.scalar 'm'] := by
      rw [List.append_cons, List.infix_concat_iff]
      rintro (⟨start, heq⟩ | hinfix)
      · have hlast := congrArg List.getLast? heq
        simp [dot] at hlast
      · exact hdots hinfix
    have htaken := assertInNamespace_eq_ok.mpr ⟨rfl, .inr ⟨_, hkey, by simp, hinfix⟩⟩
    cases htaken.symm.trans hrefused

/-- Two identities own disjoint namespaces exactly when neither lies in the namespace of the other. -/
theorem ownsApart_iff (s₁ s₂ : ServiceIdentity) : OwnsApart s₁ s₂ ↔ ¬Nested s₁ s₂ ∧ ¬Nested s₂ s₁ := by
  constructor
  · exact fun h => ⟨not_nested_of_ownsApart h, not_nested_of_ownsApart (ownsApart_symm h)⟩
  · rintro ⟨h₁, h₂⟩
    refine ⟨fun _ _ _ => routingKey_injective_of_not_nested h₁ h₂, ?_, ?_, ?_⟩
    rotate_left
    · exact fun hne _ _ => refuses_of_not_nested hne h₁ h₂
    · exact fun hne _ _ => refuses_of_not_nested hne.symm h₂ h₁
    rintro hne mesh₁ mesh₂ rfl rfl bindings₁ bindings₂ hstart₁ hstart₂ b₁ hb₁ b₂ hb₂ hsame
    obtain ⟨m₁, hkey₁⟩ := MeshService.own_of_start hstart₁ hb₁
    obtain ⟨m₂, hkey₂⟩ := MeshService.own_of_start hstart₂ hb₂
    exact hne (routingKey_injective_of_not_nested h₁ h₂ hkey₁ (hsame ▸ hkey₂)).1

/-- `a` with the method `b.c` has the key of `a.b` with the method `c`. -/
theorem dottedMethod_sharesKey : ¬∀ s₁ s₂ : ServiceIdentity, ∀ m₁ m₂ key,
    s₁.routingKey m₁ = .ok key → s₂.routingKey m₂ = .ok key → s₁ = s₂ ∧ m₁ = m₂ := by
  intro h
  have hboth := h ⟨Text.ofString "a", by decide⟩ ⟨Text.ofString "a.b", by decide⟩ (Text.ofString "b.c") (Text.ofString "c")
    (Text.ofString "a.b.c") (routingKey_eq_ok.mpr ⟨by decide, by decide⟩) (routingKey_eq_ok.mpr ⟨by decide, by decide⟩)
  exact absurd hboth.2 (by decide)

end Nuropb.Patterns
