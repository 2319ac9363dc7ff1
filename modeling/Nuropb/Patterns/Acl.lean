import Nuropb.Patterns.Mesh

/-! # Permissions of the broker

A permission is a list of patterns, and a name is allowed that begins with one of them. What a service may configure
begins with its name.
-/
namespace Nuropb.Patterns

open Library

def matchesPrefix (pattern name : Text) : Bool := name = pattern || pattern.isPrefixOf name

def allowed (patterns : List Text) (name : Text) : Bool := patterns.any fun pattern => matchesPrefix pattern name

structure Perms where
  configure : List Text
  write : List Text
  read : List Text

namespace Perms

def canConfigure (perms : Perms) (name : Text) : Bool := allowed perms.configure name

end Perms

def meshBindNamespaced (service : Text) : Perms where
  configure := [service]
  write := [service, Text.ofString "nr.mesh"]
  read := [service, Text.ofString "nr.mesh"]

/-- The three definitions of a namespace agree on a method and on a name. -/
structure AgreesOnNamespace (identity : ServiceIdentity) (method name : Text) : Prop where
  routed : ∀ key, identity.routingKey method = .ok key → identity.assertInNamespace key = .ok key
  configured : ∀ key, identity.assertInNamespace name = .ok key →
    (meshBindNamespaced identity.service).canConfigure name = true
  inside : (meshBindNamespaced identity.service).canConfigure name = true →
    name = identity.service ∨ identity.namespacePrefix <+: name

section Namespaces

variable {identity : ServiceIdentity} {method name key : Text}

theorem canConfigure_iff : (meshBindNamespaced identity.service).canConfigure name = true ↔ identity.service <+: name := by
  simp only [Perms.canConfigure, allowed, meshBindNamespaced, matchesPrefix, List.any_cons, List.any_nil, Bool.or_false,
    Bool.or_eq_true, decide_eq_true_eq, List.isPrefixOf_iff_prefix]
  constructor
  · rintro (rfl | hprefix)
    · exact List.prefix_rfl
    · exact hprefix
  · exact .inr

/-- A key of a method is taken for the identity's own unless a dot follows a dot in it. -/
theorem assertInNamespace_routingKey (h : identity.routingKey method = .ok key) :
    identity.assertInNamespace key = .ok key ↔ ¬[dot, dot] <:+: identity.service ++ dot :: method := by
  obtain ⟨hsafe, rfl⟩ := routingKey_eq_ok.mp h
  rw [assertInNamespace_eq_ok]
  constructor
  · rintro ⟨-, hname | ⟨rest, hrest, -, hdots⟩⟩
    · have hlength := congrArg List.length hname
      simp at hlength
    · exact hdots
  · intro hdots
    refine ⟨rfl, .inr ⟨method, rfl, ?_, hdots⟩⟩
    rintro rfl
    cases hsafe

theorem canConfigure_of_assert (h : identity.assertInNamespace name = .ok key) :
    (meshBindNamespaced identity.service).canConfigure name = true := by
  rw [canConfigure_iff]
  obtain ⟨-, rfl | ⟨rest, rfl, -, -⟩⟩ := assertInNamespace_eq_ok.mp h
  · exact List.prefix_rfl
  · exact List.prefix_append _ _

theorem inside_iff : (identity.service <+: name → name = identity.service ∨ identity.namespacePrefix <+: name) ↔
    ∀ c rest, name = identity.service ++ c :: rest → c = dot := by
  constructor
  · rintro h c rest rfl
    rcases h (List.prefix_append _ _) with hname | hprefix
    · have hlength := congrArg List.length hname
      simp at hlength
    · obtain ⟨rest', heq⟩ := prefix_iff.mp hprefix
      exact (List.cons.inj (List.append_cancel_left heq)).1
  · rintro h ⟨rest, rfl⟩
    cases rest with
    | nil => exact .inl (List.append_nil _)
    | cons c rest =>
      rw [h c rest rfl]
      exact .inr (prefix_iff.mpr ⟨rest, rfl⟩)

end Namespaces

/-- The definitions agree exactly when the key of the method holds no two dots in a row, and the name does not go on
behind the service with anything but a dot. -/
theorem agreesOnNamespace_iff (identity : ServiceIdentity) (method name : Text) :
    AgreesOnNamespace identity method name ↔
      (safeName method = true → ¬[dot, dot] <:+: identity.service ++ dot :: method) ∧
        ∀ c rest, name = identity.service ++ c :: rest → c = dot := by
  constructor
  · intro h
    constructor
    · intro hsafe
      have hkey : identity.routingKey method = .ok (identity.service ++ dot :: method) := routingKey_eq_ok.mpr ⟨hsafe, rfl⟩
      exact (assertInNamespace_routingKey hkey).mp (h.routed _ hkey)
    · apply inside_iff.mp
      rw [← canConfigure_iff]
      exact h.inside
  · rintro ⟨hdots, hname⟩
    constructor
    · intro key hkey
      exact (assertInNamespace_routingKey hkey).mpr (hdots (routingKey_eq_ok.mp hkey).1)
    · intro key hown
      exact canConfigure_of_assert hown
    · rw [canConfigure_iff]
      exact inside_iff.mpr hname

/-- `orders` may configure what belongs to `orders2`, and refuses a key of its own method `a..b`. -/
theorem orders_not_agrees :
    ¬AgreesOnNamespace ⟨Text.ofString "orders", by decide⟩ (Text.ofString "ping") (Text.ofString "orders2") ∧
      ¬AgreesOnNamespace ⟨Text.ofString "orders", by decide⟩ (Text.ofString "a..b") (Text.ofString "orders") := by
  constructor
  · intro h
    exact absurd (h.inside (by decide)) (by decide)
  · intro h
    have hkey : (ServiceIdentity.mk (Text.ofString "orders") (by decide)).routingKey (Text.ofString "a..b") =
      .ok (Text.ofString "orders.a..b") := routingKey_eq_ok.mpr ⟨by decide, by decide⟩
    cases h.routed _ hkey

end Nuropb.Patterns
