import Nuropb.Patterns.Verdict

/-! # The order of the algorithms

A token is valid under the algorithm that it names at most. Only a listed algorithm without its key makes the order
matter, since the loop stops there.
-/
namespace Nuropb.Patterns

open Library

/-- `decode` takes a token for invalid where the algorithm is not allowed that the token names. -/
def NamesAlgorithm (jwt : JwtDecode) : Prop :=
  ∀ token, ∃ named, ∀ call, call.token = token → named ∉ call.algorithms → jwt call = .invalid

namespace AuthConfig

def withAlgorithms (config : AuthConfig) (algorithms : List Text) : AuthConfig := { config with algorithms }

/-- The token verifies under a listed algorithm whose key is there, and the request stands up to the checks. -/
structure Passes (config : AuthConfig) (jwt : JwtDecode) (method : Text) (params : PyVal) (correlationId : Text)
    (properties : Properties) (token alg : Text) (claims : Table) : Prop where
  presented : claimsToken method correlationId properties = .ok token
  listed : alg ∈ config.algorithms
  verified : config.attempt jwt token alg = some (.claims claims)
  bound : Bound claims method correlationId
  ascii : isAscii correlationId = true ∧ isAscii method = true
  agrees : config.Agrees claims method params

/-- The request is let through with the same claims, or refused, under every order; one that passes under an
algorithm is let through. -/
structure OrderFree (config : AuthConfig) (jwt : JwtDecode) (method : Text) (params : PyVal) (correlationId : Text)
    (properties : Properties) : Prop where
  same : ∀ algorithms, algorithms.Perm config.algorithms →
    ((config.withAlgorithms algorithms).verifyRequest jwt method params correlationId properties).toOption =
      (config.verifyRequest jwt method params correlationId properties).toOption
  passes : config.isPublic method = false → ∀ token alg claims,
    config.Passes jwt method params correlationId properties token alg claims →
      config.verifyRequest jwt method params correlationId properties = .ok (some claims)

def Keyed (config : AuthConfig) : Prop := ∀ alg ∈ config.algorithms, ∃ key, config.HasKey alg key

end AuthConfig

section Order

variable {config : AuthConfig} {jwt : JwtDecode} {method correlationId token alg : Text} {params : PyVal}
  {properties : Properties} {claims : Table} {algorithms : List Text}

theorem keyForAlg_of_hasKey {key : JwtKey} (h : config.HasKey alg key) : config.keyForAlg alg = .ok key := by
  unfold AuthConfig.HasKey at h
  unfold AuthConfig.keyForAlg
  split at h
  · rw [if_pos ‹_›, h]
    rfl
  · rw [if_neg ‹_›, h]
    rfl

/-- With all keys there, the loop stops at the named algorithm or nowhere. -/
theorem eq_named_of_stops {named : Text}
    (hnamed : ∀ call, call.token = token → named ∉ call.algorithms → jwt call = .invalid)
    (hkey : ∃ key, config.HasKey alg key) (hstops : config.stops jwt token alg = true) : alg = named := by
  by_contra hne
  obtain ⟨key, hkey⟩ := hkey
  have hinvalid : jwt (config.jwtCall token alg key) = .invalid :=
    hnamed _ rfl (by simpa [AuthConfig.jwtCall] using Ne.symm hne)
  rw [AuthConfig.stops, attempt_of_key (keyForAlg_of_hasKey hkey), hinvalid] at hstops
  cases hstops

theorem checkBound_ascii {claim : Option PyVal} {bound : Text} {e : Exc} {u : Unit}
    (h : AuthConfig.checkBound claim bound e = .ok u) : isAscii bound = true := by
  rw [checkBound_returns h] at h
  by_contra hascii
  rw [checkBound_of_not_ascii fun hboth => hascii hboth.2] at h
  cases h

theorem mem_of_claimsFound (h : config.claimsFound jwt token = some claims) :
    ∃ alg ∈ config.algorithms, config.attempt jwt token alg = some (.claims claims) := by
  obtain ⟨alg, hstop, h⟩ := Option.bind_eq_some_iff.mp h
  refine ⟨alg, List.mem_of_find?_eq_some hstop, ?_⟩
  split at h
  · rename_i hattempt
    cases h
    exact hattempt
  · cases h

/-- What is let through has passed under a listed algorithm, the one at which the loop has stopped. -/
theorem passes_of_verifyRequest {result : Option Table} (hpublic : config.isPublic method = false)
    (h : config.verifyRequest jwt method params correlationId properties = .ok result) :
    ∃ token alg claims, result = some claims ∧ config.Passes jwt method params correlationId properties token alg claims := by
  cases htoken : AuthConfig.claimsToken method correlationId properties with
  | error e =>
    rw [verifyRequest_of_tokenless hpublic htoken] at h
    cases h
  | ok token =>
    cases hfound : config.claimsFound jwt token with
    | none =>
      obtain ⟨e, he, -⟩ := verifyRequest_of_not_found hpublic htoken hfound
      rw [he] at h
      cases h
    | some claims =>
      rw [verifyRequest_of_found hpublic htoken hfound] at h
      obtain ⟨_, hjti, h⟩ := bind_eq_ok.mp h
      obtain ⟨_, hmethod, h⟩ := bind_eq_ok.mp h
      obtain ⟨_, hauthorized, h⟩ := bind_eq_ok.mp h
      cases h
      obtain ⟨alg, hlisted, hattempt⟩ := mem_of_claimsFound hfound
      exact ⟨token, alg, claims, rfl, htoken, hlisted, hattempt, ⟨checkBound_returns hjti, checkBound_returns hmethod⟩,
        ⟨checkBound_ascii hjti, checkBound_ascii hmethod⟩, checkAuthorized_returns hauthorized⟩

theorem passes_withAlgorithms (h : config.Passes jwt method params correlationId properties token alg claims)
    (hlisted : alg ∈ algorithms) :
    (config.withAlgorithms algorithms).Passes jwt method params correlationId properties token alg claims :=
  ⟨h.presented, hlisted, h.verified, h.bound, h.ascii, h.agrees⟩

theorem passes_of_withAlgorithms (hperm : algorithms.Perm config.algorithms)
    (h : (config.withAlgorithms algorithms).Passes jwt method params correlationId properties token alg claims) :
    config.Passes jwt method params correlationId properties token alg claims :=
  ⟨h.presented, hperm.mem_iff.mp h.listed, h.verified, h.bound, h.ascii, h.agrees⟩

theorem verifyRequest_of_passes (hjwt : NamesAlgorithm jwt) (hkeyed : config.Keyed)
    (hpublic : config.isPublic method = false)
    (h : config.Passes jwt method params correlationId properties token alg claims) :
    config.verifyRequest jwt method params correlationId properties = .ok (some claims) := by
  obtain ⟨named, hnamed⟩ := hjwt token
  have hstops : config.stops jwt token alg = true := by
    rw [AuthConfig.stops, h.verified]
  have hstop : config.firstStop jwt token = some alg := by
    cases hfind : config.firstStop jwt token with
    | none => exact absurd hstops (List.find?_eq_none.mp hfind alg h.listed)
    | some first =>
      rw [eq_named_of_stops hnamed (hkeyed first (List.mem_of_find?_eq_some hfind)) (List.find?_some hfind),
        eq_named_of_stops hnamed (hkeyed alg h.listed) hstops]
  have hfound : config.claimsFound jwt token = some claims := by
    rw [AuthConfig.claimsFound, hstop, Option.bind_some, h.verified]
  rw [verifyRequest_of_found hpublic h.presented hfound, h.bound.jti, checkBound_self h.ascii.1, ok_bind, h.bound.method,
    checkBound_self h.ascii.2, ok_bind, checkAuthorized_of_agrees h.agrees]
  rfl

theorem toOption_verifyRequest (hpublic : config.isPublic method = false)
    (hnone : ¬∃ token alg claims, config.Passes jwt method params correlationId properties token alg claims) :
    (config.verifyRequest jwt method params correlationId properties).toOption = none := by
  rw [toOption_eq_none]
  rcases ok_or_error (config.verifyRequest jwt method params correlationId properties) with ⟨result, hok⟩ | herror
  · obtain ⟨token, alg, claims, -, hpasses⟩ := passes_of_verifyRequest hpublic hok
    exact absurd ⟨token, alg, claims, hpasses⟩ hnone
  · exact herror

theorem refused_of_keyless_first {keyless : Text} (hpublic : config.isPublic method = false)
    (hkeyless : ¬∃ key, config.HasKey keyless key) :
    ((config.withAlgorithms (keyless :: algorithms)).verifyRequest jwt method params correlationId properties).toOption =
      none := by
  have hpublic' : (config.withAlgorithms (keyless :: algorithms)).isPublic method = false := hpublic
  rw [toOption_eq_none]
  cases htoken : AuthConfig.claimsToken method correlationId properties with
  | error e => exact ⟨e, verifyRequest_of_tokenless hpublic' htoken⟩
  | ok token =>
    obtain ⟨e, hkey⟩ : ∃ e, config.keyForAlg keyless = .error e := by
      rcases ok_or_error (config.keyForAlg keyless) with ⟨key, hkey⟩ | herror
      · exact absurd ⟨key, keyForAlg_returns hkey⟩ hkeyless
      · exact herror
    have hattempt : config.attempt jwt token keyless = none := attempt_of_keyless hkey
    have hstops : config.stops jwt token keyless = true := by
      rw [AuthConfig.stops, hattempt]
    have hstop : (config.withAlgorithms (keyless :: algorithms)).firstStop jwt token = some keyless :=
      List.find?_cons_of_pos hstops
    have hfound : (config.withAlgorithms (keyless :: algorithms)).claimsFound jwt token = none := by
      have hattempt' : (config.withAlgorithms (keyless :: algorithms)).attempt jwt token keyless = none := hattempt
      rw [AuthConfig.claimsFound, hstop, Option.bind_some, hattempt']
    obtain ⟨e, he, -⟩ := verifyRequest_of_not_found hpublic' htoken hfound
    exact ⟨e, he⟩

end Order

/-- The order of the algorithms does not matter exactly when every listed one has its key, or none of them lets the
request through, which is to no public method. -/
theorem orderFree_iff (config : AuthConfig) (jwt : JwtDecode) (hjwt : NamesAlgorithm jwt) (method : Text)
    (params : PyVal) (correlationId : Text) (properties : Properties) :
    config.OrderFree jwt method params correlationId properties ↔
      config.isPublic method = true ∨ config.Keyed ∨
        ¬∃ token alg claims, config.Passes jwt method params correlationId properties token alg claims := by
  cases hpublic : config.isPublic method with
  | true =>
    refine iff_of_true ⟨?_, ?_⟩ (.inl rfl)
    · intro algorithms _
      have hpublic' : (config.withAlgorithms algorithms).isPublic method = true := hpublic
      rw [verifyRequest_of_public hpublic, verifyRequest_of_public hpublic']
    · intro hprivate
      rw [hpublic] at hprivate
      cases hprivate
  | false =>
    constructor
    · intro h
      refine .inr (or_iff_not_imp_left.mpr ?_)
      rintro hkeyed ⟨token, alg, claims, hpasses⟩
      obtain ⟨keyless, hmem, hkeyless⟩ : ∃ keyless ∈ config.algorithms, ¬∃ key, config.HasKey keyless key := by
        simpa [AuthConfig.Keyed] using hkeyed
      have hsame := h.same _ (List.perm_cons_erase hmem).symm
      rw [refused_of_keyless_first hpublic hkeyless, h.passes hpublic token alg claims hpasses] at hsame
      cases hsame
    · rintro (hpublic' | hkeyed | hnone)
      · cases hpublic'
      · constructor
        · intro algorithms hperm
          have hkeyed' : (config.withAlgorithms algorithms).Keyed := fun alg halg => hkeyed alg (hperm.mem_iff.mp halg)
          by_cases hpasses : ∃ token alg claims, config.Passes jwt method params correlationId properties token alg claims
          · obtain ⟨token, alg, claims, hpasses⟩ := hpasses
            rw [verifyRequest_of_passes hjwt hkeyed hpublic hpasses, verifyRequest_of_passes hjwt hkeyed' hpublic
              (passes_withAlgorithms hpasses (hperm.mem_iff.mpr hpasses.listed))]
          · have hpublic' : (config.withAlgorithms algorithms).isPublic method = false := hpublic
            rw [toOption_verifyRequest hpublic hpasses, toOption_verifyRequest hpublic']
            rintro ⟨token, alg, claims, hother⟩
            exact hpasses ⟨token, alg, claims, passes_of_withAlgorithms hperm hother⟩
        · intro _ token alg claims hpasses
          exact verifyRequest_of_passes hjwt hkeyed hpublic hpasses
      · constructor
        · intro algorithms hperm
          have hpublic' : (config.withAlgorithms algorithms).isPublic method = false := hpublic
          rw [toOption_verifyRequest hpublic hnone, toOption_verifyRequest hpublic']
          rintro ⟨token, alg, claims, hother⟩
          exact hnone ⟨token, alg, claims, passes_of_withAlgorithms hperm hother⟩
        · intro _ token alg claims hpasses
          exact absurd ⟨token, alg, claims, hpasses⟩ hnone

theorem knowsOneToken_names : NamesAlgorithm knowsOneToken := by
  intro token
  refine ⟨Text.ofString "HS256", ?_⟩
  intro call _ hnamed
  refine if_neg ?_
  rintro rfl
  exact hnamed List.mem_cons_self

def twoKeys : AuthConfig where
  jwtSecret := some (.bytes [115])
  jwtPublicKey := some (.bytes [112])
  algorithms := [Text.ofString "RS256", Text.ofString "HS256"]
  keyed := .inl (by simp)

theorem greet_orderFree :
    twoKeys.OrderFree knowsOneToken (Text.ofString "greet") .none (Text.ofString "1") greetProperties ∧
      (twoKeys.verifyRequest knowsOneToken (Text.ofString "greet") .none (Text.ofString "1")
        greetProperties).toOption.isSome = true := by
  refine ⟨(orderFree_iff twoKeys knowsOneToken knowsOneToken_names _ _ _ _).mpr (.inr (.inl ?_)), rfl⟩
  intro alg halg
  rcases List.mem_cons.mp halg with rfl | halg
  · exact ⟨.bytes [112], rfl⟩
  · obtain rfl := List.mem_singleton.mp halg
    exact ⟨.bytes [115], rfl⟩

/-- Where an algorithm without its key is listed first, the same token is refused. -/
theorem keyless_not_orderFree : NamesAlgorithm knowsOneToken ∧
    ¬(greetAuth.withAlgorithms [Text.ofString "RS256", Text.ofString "HS256"]).OrderFree knowsOneToken
      (Text.ofString "greet") .none (Text.ofString "1") greetProperties := by
  refine ⟨knowsOneToken_names, ?_⟩
  intro h
  have hsame := congrArg Option.isSome (h.same [Text.ofString "HS256", Text.ofString "RS256"] (List.Perm.swap _ _ _))
  revert hsame
  decide +kernel

end Nuropb.Patterns
