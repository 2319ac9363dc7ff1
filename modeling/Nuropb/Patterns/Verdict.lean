import Nuropb.Patterns.Authorisation

/-! # The verdict on a request

The loop over the algorithms stops at the first one whose key is missing, or under which the token is
not merely invalid. What stops it decides about the request.
-/
namespace Nuropb.Patterns

open Library

/-- `RpcError` with one of the codes of a refusal. -/
def IsRefusal (e : Exc) : Prop :=
  ∃ error, e = .rpcError error ∧ error.code ∈ [unauthorized, claimsMissing, claimsExpired, claimsUnbound]

namespace AuthConfig

/-- What `decode` makes of the token under one algorithm, if its key is there. -/
def attempt (config : AuthConfig) (jwt : JwtDecode) (token alg : Text) : Option JwtOutcome :=
  (config.keyForAlg alg).toOption.map fun key => jwt (config.jwtCall token alg key)

def stops (config : AuthConfig) (jwt : JwtDecode) (token alg : Text) : Bool :=
  match config.attempt jwt token alg with
  | some .invalid => false
  | _ => true

/-- Where the loop stops, if it does. -/
def firstStop (config : AuthConfig) (jwt : JwtDecode) (token : Text) : Option Text :=
  config.algorithms.find? (config.stops jwt token)

/-- The claims under which the loop stops. -/
def claimsFound (config : AuthConfig) (jwt : JwtDecode) (token : Text) : Option Table :=
  (config.firstStop jwt token).bind fun alg =>
    match config.attempt jwt token alg with
    | some (.claims claims) => some claims
    | _ => none

/-- `authorize_func`, if there is one, agrees. -/
def Agrees (config : AuthConfig) (claims : Table) (method : Text) (params : PyVal) : Prop :=
  ∀ f, config.authorizeFunc = some f → ∃ verdict, f claims method params = .ok verdict ∧ truthy verdict = true

/-- The claims are bound to the request. -/
structure Bound (claims : Table) (method correlationId : Text) : Prop where
  jti : lookup (Text.ofString "jti") claims = some (.str correlationId)
  method : lookup (Text.ofString "method") claims = some (.str method)

end AuthConfig

section Loop

variable {config : AuthConfig} {jwt : JwtDecode} {method correlationId token alg : Text}

theorem attempt_of_key {key : JwtKey} (h : config.keyForAlg alg = .ok key) :
    config.attempt jwt token alg = some (jwt (config.jwtCall token alg key)) := by
  rw [AuthConfig.attempt, h]
  rfl

theorem attempt_of_keyless {e : Exc} (h : config.keyForAlg alg = .error e) : config.attempt jwt token alg = none := by
  rw [AuthConfig.attempt, h]
  rfl

theorem decodeClaims_eq_find (algorithms : List Text) :
    config.decodeClaims jwt method correlationId token algorithms =
      match algorithms.find? (config.stops jwt token) with
      | none => .ok none
      | some alg => config.decodeClaims jwt method correlationId token [alg] := by
  induction algorithms with
  | nil => rfl
  | cons alg rest ih =>
    by_cases hstops : config.stops jwt token alg = true
    · rw [List.find?_cons_of_pos hstops]
      simp only [AuthConfig.decodeClaims]
      cases hkey : config.keyForAlg alg with
      | error e => rfl
      | ok key =>
        rw [AuthConfig.stops, attempt_of_key hkey] at hstops
        rw [ok_bind, ok_bind]
        cases hdecode : jwt (config.jwtCall token alg key) with
        | invalid =>
          rw [hdecode] at hstops
          cases hstops
        | claims | expired | raises => rfl
    · rw [List.find?_cons_of_neg hstops, ← ih, AuthConfig.decodeClaims]
      cases hkey : config.keyForAlg alg with
      | error e =>
        rw [AuthConfig.stops, attempt_of_keyless hkey] at hstops
        exact absurd rfl hstops
      | ok key =>
        rw [AuthConfig.stops, attempt_of_key hkey] at hstops
        rw [ok_bind]
        cases hdecode : jwt (config.jwtCall token alg key) with
        | invalid => rfl
        | claims | expired | raises =>
          rw [hdecode] at hstops
          exact absurd rfl hstops

theorem isRefusal_rpcError {code : Int} {message : String} {correlationId method : Option Text}
    (h : code ∈ [unauthorized, claimsMissing, claimsExpired, claimsUnbound]) :
    IsRefusal (rpcError code message false correlationId method .none) :=
  ⟨_, rfl, h⟩

theorem isRefusal_refusal {code : Int} {message : String}
    (h : code ∈ [unauthorized, claimsMissing, claimsExpired, claimsUnbound]) :
    IsRefusal (AuthConfig.refusal code message method correlationId) :=
  isRefusal_rpcError h

theorem keyForAlg_raises {e : Exc} (h : config.keyForAlg alg = .error e) : IsRefusal e := by
  unfold AuthConfig.keyForAlg at h
  split at h
  · cases hsecret : config.jwtSecret with
    | none =>
      rw [hsecret] at h
      cases h
      exact isRefusal_rpcError (by simp)
    | some key =>
      rw [hsecret] at h
      cases h
  · cases hpublic : config.jwtPublicKey with
    | none =>
      rw [hpublic] at h
      cases h
      exact isRefusal_rpcError (by simp)
    | some key =>
      rw [hpublic] at h
      cases h

/-- The loop raises, or returns the claims under which it has stopped. -/
theorem decodeClaims_cases (config : AuthConfig) (jwt : JwtDecode) (method correlationId token : Text) :
    config.decodeClaims jwt method correlationId token config.algorithms = .ok (config.claimsFound jwt token) ∨
      config.claimsFound jwt token = none ∧ ∃ e,
        config.decodeClaims jwt method correlationId token config.algorithms = .error e ∧
          (IsRefusal e ∨ ∃ alg, config.firstStop jwt token = some alg ∧
            config.attempt jwt token alg = some (.raises e)) := by
  rw [decodeClaims_eq_find, AuthConfig.claimsFound]
  cases hstop : config.firstStop jwt token with
  | none =>
    have hfind : config.algorithms.find? (config.stops jwt token) = none := hstop
    rw [hfind]
    exact .inl rfl
  | some alg =>
    have hfind : config.algorithms.find? (config.stops jwt token) = some alg := hstop
    rw [hfind, Option.bind_some]
    simp only [AuthConfig.decodeClaims]
    cases hkey : config.keyForAlg alg with
    | error e =>
      rw [attempt_of_keyless hkey]
      exact .inr ⟨rfl, e, rfl, .inl (keyForAlg_raises hkey)⟩
    | ok key =>
      rw [attempt_of_key hkey, ok_bind]
      cases hdecode : jwt (config.jwtCall token alg key) with
      | claims claims => exact .inl rfl
      | invalid => exact .inl rfl
      | expired => exact .inr ⟨rfl, _, rfl, .inl (isRefusal_refusal (by simp))⟩
      | raises e =>
        refine .inr ⟨rfl, e, rfl, .inr ⟨alg, rfl, ?_⟩⟩
        rw [attempt_of_key hkey, hdecode]

theorem decodeClaims_eq_ok {claims : Table} :
    config.decodeClaims jwt method correlationId token config.algorithms = .ok (some claims) ↔
      config.claimsFound jwt token = some claims := by
  rcases decodeClaims_cases config jwt method correlationId token with hok | ⟨hnone, e, herror, -⟩
  · rw [hok, Except.ok.injEq]
  · rw [herror, hnone]
    simp

end Loop

/-! ## The checks -/

section Checks

variable {config : AuthConfig} {jwt : JwtDecode} {method correlationId token : Text} {params : PyVal}
  {properties : Properties} {claims : Table}

theorem checkBound_self {bound : Text} {e : Exc} (hascii : isAscii bound = true) :
    AuthConfig.checkBound (some (.str bound)) bound e = .ok () := by
  simp [AuthConfig.checkBound, compareDigest, hascii, raiseIf]

theorem checkBound_of_not_ascii {t bound : Text} {e : Exc} (h : ¬(isAscii t = true ∧ isAscii bound = true)) :
    AuthConfig.checkBound (some (.str t)) bound e = .error .typeError := by
  rw [AuthConfig.checkBound, compareDigest, if_neg h]
  rfl

theorem checkAuthorized_of_agrees (h : config.Agrees claims method params) :
    config.checkAuthorized claims method params correlationId = .ok () := by
  unfold AuthConfig.checkAuthorized
  cases hf : config.authorizeFunc with
  | none => rfl
  | some f =>
    obtain ⟨verdict, hverdict, htruthy⟩ := h f hf
    simp only [hverdict]
    exact raiseIf_of_not (by simp [htruthy])

theorem verifyRequest_of_public (h : config.isPublic method = true) :
    config.verifyRequest jwt method params correlationId properties = .ok none := by
  rw [AuthConfig.verifyRequest, if_pos h]
  rfl

theorem verifyRequest_of_tokenless {e : Exc} (hpublic : config.isPublic method = false)
    (htoken : AuthConfig.claimsToken method correlationId properties = .error e) :
    config.verifyRequest jwt method params correlationId properties = .error e := by
  rw [AuthConfig.verifyRequest, if_neg (by simp [hpublic]), htoken]
  rfl

theorem verifyRequest_of_found (hpublic : config.isPublic method = false)
    (htoken : AuthConfig.claimsToken method correlationId properties = .ok token)
    (hfound : config.claimsFound jwt token = some claims) :
    config.verifyRequest jwt method params correlationId properties = (do
      AuthConfig.checkBound (lookup (Text.ofString "jti") claims) correlationId
        (AuthConfig.refusal claimsUnbound "claims jti not bound to correlation id" method correlationId)
      AuthConfig.checkBound (lookup (Text.ofString "method") claims) method
        (AuthConfig.refusal claimsUnbound "claims method not bound to request method" method correlationId)
      config.checkAuthorized claims method params correlationId
      return some claims) := by
  rw [AuthConfig.verifyRequest, if_neg (by simp [hpublic]), htoken, ok_bind, decodeClaims_eq_ok.mpr hfound]
  rfl

theorem verifyRequest_of_not_found (hpublic : config.isPublic method = false)
    (htoken : AuthConfig.claimsToken method correlationId properties = .ok token)
    (hfound : config.claimsFound jwt token = none) : ∃ e,
      config.verifyRequest jwt method params correlationId properties = .error e ∧
        (IsRefusal e ∨ ∃ alg, config.firstStop jwt token = some alg ∧
          config.attempt jwt token alg = some (.raises e)) := by
  rw [AuthConfig.verifyRequest, if_neg (by simp [hpublic]), htoken, ok_bind]
  rcases decodeClaims_cases config jwt method correlationId token with hok | ⟨-, e, herror, hcause⟩
  · rw [hok, hfound]
    exact ⟨_, rfl, .inl (isRefusal_refusal (by simp))⟩
  · rw [herror]
    exact ⟨e, rfl, hcause⟩

end Checks

end Nuropb.Patterns
