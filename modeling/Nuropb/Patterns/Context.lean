import Nuropb.Patterns.Errors

/-! # Claims in the headers of a request

The JWT library is given by what its `decode` makes of a call.
-/
namespace Nuropb.Patterns

open Library

def claimsHeader : Text := Text.ofString "nr.claims"

def claimsTypHeader : Text := Text.ofString "nr.claims_typ"

def claimsTypJwt : Text := Text.ofString "JWT"

inductive JwtKey
  | str (t : Text)
  | bytes (b : Bytes)
  deriving DecidableEq

/-- A call of `jwt.decode`; an audience or issuer that is not given is not checked. -/
structure JwtCall where
  token : Text
  key : JwtKey
  algorithms : List Text
  require : List Text
  audience : Option Text
  issuer : Option Text
  deriving DecidableEq

/-- How `jwt.decode` ends: with claims, an expired signature, another invalid token, or another
exception. -/
inductive JwtOutcome
  | claims (claims : Table)
  | expired
  | invalid
  | raises (e : Exc)

abbrev JwtDecode := JwtCall → JwtOutcome

structure AuthConfig where
  jwtSecret : Option JwtKey := none
  jwtPublicKey : Option JwtKey := none
  algorithms : List Text := [Text.ofString "HS256"]
  publicMethods : List Text := []
  authorizeFunc : Option (Table → Text → PyVal → Except Exc PyVal) := none
  audience : Option Text := none
  issuer : Option Text := none
  /-- `__post_init__` -/
  keyed : jwtSecret ≠ none ∨ jwtPublicKey ≠ none

def truthy : PyVal → Bool
  | .none => false
  | .bool b => b
  | .int n => n ≠ 0
  | .float bits => bits.toNat % 2 ^ 63 ≠ 0
  | .str t => t ≠ []
  | .bytes b => b ≠ []
  | .dict entries => ¬entries.isEmpty
  | .tuple items | .list items => ¬items.isEmpty
  | .decimal _ coefficient _ => coefficient ≠ 0
  | .decimalSpecial _ | .datetime _ | .object => true

def isAscii (t : Text) : Bool :=
  t.all fun
    | .scalar c => c.toNat < 128
    | .surrogate _ => false

/-- `hmac.compare_digest` of two `str`. -/
def compareDigest (a b : Text) : Except Exc Bool :=
  if isAscii a ∧ isAscii b then .ok (a = b) else .error .typeError

namespace AuthConfig

def refusal (code : Int) (message : String) (method correlationId : Text) : Exc :=
  rpcError code message false (some correlationId) (some method) .none

def isPublic (config : AuthConfig) (method : Text) : Bool := method ∈ config.publicMethods

def keyForAlg (config : AuthConfig) (alg : Text) : Except Exc JwtKey :=
  if (Text.ofString "HS").isPrefixOf alg then
    orRaise (rpcError unauthorized "HS* algorithm configured but jwt_secret missing" false none none .none)
      config.jwtSecret
  else
    orRaise (rpcError unauthorized "asymmetric algorithm configured but jwt_public_key missing" false none none .none)
      config.jwtPublicKey

def jwtCall (config : AuthConfig) (token : Text) (alg : Text) (key : JwtKey) : JwtCall where
  token := token
  key := key
  algorithms := [alg]
  require := [Text.ofString "exp", Text.ofString "jti", Text.ofString "method"]
  audience := config.audience
  issuer := config.issuer

/-- The loop over the algorithms: the claims under the first one that verifies. -/
def decodeClaims (config : AuthConfig) (jwt : JwtDecode) (method correlationId token : Text) :
    List Text → Except Exc (Option Table)
  | [] => .ok none
  | alg :: rest => do
    let key ← config.keyForAlg alg
    match jwt (config.jwtCall token alg key) with
    | .claims claims => .ok (some claims)
    | .expired => .error (refusal claimsExpired "claims expired" method correlationId)
    | .invalid => decodeClaims config jwt method correlationId token rest
    | .raises e => .error e

/-- A claim is text and the same as what it is bound to. -/
def checkBound (claim : Option PyVal) (bound : Text) (e : Exc) : Except Exc Unit :=
  match claim with
  | some (.str t) => do
    let same ← compareDigest t bound
    raiseIf (¬same) e
  | _ => .error e

def checkAuthorized (config : AuthConfig) (claims : Table) (method : Text) (params : PyVal)
    (correlationId : Text) : Except Exc Unit :=
  match config.authorizeFunc with
  | none => .ok ()
  | some authorizeFunc =>
    match authorizeFunc claims method params with
    | .ok verdict =>
      raiseIf (¬truthy verdict) (refusal unauthorized "authorize_func denied" method correlationId)
    | .error .cancelledError => .error .cancelledError
    | .error _ => .error (refusal unauthorized "authorize_func rejected request" method correlationId)

/-- `properties.get("headers") or {}` -/
def claimsHeaders (method correlationId : Text) (properties : Properties) : Except Exc Table :=
  match (properties .headers).getD .none with
  | .dict headers => .ok headers
  | other =>
    if truthy other then .error (refusal claimsMissing "claims headers missing" method correlationId)
    else .ok []

def claimsToken (method correlationId : Text) (properties : Properties) : Except Exc Text := do
  let headers ← claimsHeaders method correlationId properties
  let typ := (lookup claimsTypHeader headers).getD .none
  let token := (lookup claimsHeader headers).getD .none
  match typ, token with
  | .none, .none => .error (refusal claimsMissing "claims missing" method correlationId)
  | .str typ, token => do
    raiseIf (typ ≠ claimsTypJwt) (refusal unauthorized "unsupported claims type" method correlationId)
    match token with
    | .str (c :: token) => return c :: token
    | _ => .error (refusal claimsMissing "claims token missing" method correlationId)
  | _, _ => .error (refusal unauthorized "unsupported claims type" method correlationId)

def verifyRequest (config : AuthConfig) (jwt : JwtDecode) (method : Text) (params : PyVal) (correlationId : Text)
    (properties : Properties) : Except Exc (Option Table) := do
  if config.isPublic method then return none
  let token ← claimsToken method correlationId properties
  let decoded ← config.decodeClaims jwt method correlationId token config.algorithms
  let claims ← orRaise (refusal unauthorized "claims signature invalid" method correlationId) decoded
  checkBound (lookup (Text.ofString "jti") claims) correlationId
    (refusal claimsUnbound "claims jti not bound to correlation id" method correlationId)
  checkBound (lookup (Text.ofString "method") claims) method
    (refusal claimsUnbound "claims method not bound to request method" method correlationId)
  config.checkAuthorized claims method params correlationId
  return some claims

end AuthConfig

/-! ## What a verified request has passed -/

/-- The key that goes with the algorithm: the secret for HS*, the public key otherwise. -/
def AuthConfig.HasKey (config : AuthConfig) (alg : Text) (key : JwtKey) : Prop :=
  if (Text.ofString "HS").isPrefixOf alg then config.jwtSecret = some key else config.jwtPublicKey = some key

/-- The token is there, verifies, and is bound to the request; whoever decides agrees. -/
structure AuthConfig.Verified (config : AuthConfig) (jwt : JwtDecode) (method : Text) (params : PyVal)
    (requestId : Text) (headers claims : Table) (token alg : Text) (key : JwtKey) : Prop where
  typHeader : lookup claimsTypHeader headers = some (.str claimsTypJwt)
  tokenHeader : lookup claimsHeader headers = some (.str token)
  configured : alg ∈ config.algorithms
  hasKey : config.HasKey alg key
  decoded : jwt (config.jwtCall token alg key) = .claims claims
  jtiClaim : lookup (Text.ofString "jti") claims = some (.str requestId)
  methodClaim : lookup (Text.ofString "method") claims = some (.str method)
  authorized : ∀ f, config.authorizeFunc = some f → ∃ verdict, f claims method params = .ok verdict ∧
    truthy verdict = true

section Verification

variable {config : AuthConfig} {jwt : JwtDecode} {method correlationId token : Text} {params : PyVal}
  {properties : Properties}

theorem keyForAlg_returns {alg : Text} {key : JwtKey} (h : config.keyForAlg alg = .ok key) :
    config.HasKey alg key := by
  unfold AuthConfig.keyForAlg at h
  unfold AuthConfig.HasKey
  split at h
  · rw [if_pos ‹_›]
    exact orRaise_eq_ok.mp h
  · rw [if_neg ‹_›]
    exact orRaise_eq_ok.mp h

/-- The loop ends with claims only under one of its algorithms and the key for that algorithm. -/
theorem decodeClaims_returns {algorithms : List Text} {claims : Table}
    (h : config.decodeClaims jwt method correlationId token algorithms = .ok (some claims)) :
    ∃ alg key, alg ∈ algorithms ∧ config.HasKey alg key ∧ jwt (config.jwtCall token alg key) = .claims claims := by
  induction algorithms with
  | nil => cases h
  | cons alg rest ih =>
      obtain ⟨key, hkey, hrest⟩ := bind_eq_ok.mp h
      cases hdecode : jwt (config.jwtCall token alg key) with
      | claims found =>
          rw [hdecode] at hrest
          cases hrest
          exact ⟨alg, key, List.mem_cons_self, keyForAlg_returns hkey, hdecode⟩
      | expired =>
          rw [hdecode] at hrest
          cases hrest
      | invalid =>
          rw [hdecode] at hrest
          obtain ⟨other, key, hmem, hfound⟩ := ih hrest
          exact ⟨other, key, List.mem_cons_of_mem _ hmem, hfound⟩
      | raises e =>
          rw [hdecode] at hrest
          cases hrest

theorem compareDigest_returns {a b : Text} (h : compareDigest a b = .ok true) : a = b := by
  unfold compareDigest at h
  split at h
  · simpa using h
  · cases h

theorem checkBound_returns {claim : Option PyVal} {bound : Text} {e : Exc} {u : Unit}
    (h : AuthConfig.checkBound claim bound e = .ok u) : claim = some (.str bound) := by
  unfold AuthConfig.checkBound at h
  split at h
  · obtain ⟨same, hsame, hraise⟩ := bind_eq_ok.mp h
    have htrue : same = true := by simpa using raiseIf_eq_ok.mp hraise
    subst htrue
    rw [compareDigest_returns hsame]
  · cases h

theorem checkAuthorized_returns {claims : Table} {u : Unit}
    (h : config.checkAuthorized claims method params correlationId = .ok u) (f : Table → Text → PyVal → Except Exc PyVal)
    (hf : config.authorizeFunc = some f) : ∃ verdict, f claims method params = .ok verdict ∧ truthy verdict = true := by
  rw [AuthConfig.checkAuthorized, hf] at h
  cases hverdict : f claims method params with
  | ok verdict =>
      simp only [hverdict] at h
      exact ⟨verdict, rfl, by simpa using raiseIf_eq_ok.mp h⟩
  | error e =>
      simp only [hverdict] at h
      cases e <;> cases h

theorem getD_none_eq_str {o : Option PyVal} {t : Text} (h : o.getD .none = .str t) : o = some (.str t) := by
  cases o with
  | none => cases h
  | some v => rw [← h, Option.getD_some]

theorem claimsHeaders_returns {headers : Table} (h : AuthConfig.claimsHeaders method correlationId properties = .ok headers) :
    headers = [] ∨ properties .headers = some (.dict headers) := by
  unfold AuthConfig.claimsHeaders at h
  split at h
  · rename_i found hfound
    cases h
    cases hproperty : properties .headers with
    | none =>
        rw [hproperty] at hfound
        cases hfound
    | some v =>
        rw [hproperty, Option.getD_some] at hfound
        exact .inr (by rw [hfound])
  · split at h
    · cases h
    · cases h
      exact .inl rfl

theorem claimsToken_returns (h : AuthConfig.claimsToken method correlationId properties = .ok token) :
    ∃ headers, properties .headers = some (.dict headers) ∧
      lookup claimsTypHeader headers = some (.str claimsTypJwt) ∧ lookup claimsHeader headers = some (.str token) := by
  obtain ⟨headers, hheaders, hrest⟩ := bind_eq_ok.mp h
  have htoken : lookup claimsTypHeader headers = some (.str claimsTypJwt) ∧
      lookup claimsHeader headers = some (.str token) := by
    dsimp only at hrest
    split at hrest
    · cases hrest
    · rename_i typ htyp
      obtain ⟨_, hjwt, hrest⟩ := bind_eq_ok.mp hrest
      have heq : typ = claimsTypJwt := not_not.mp (raiseIf_eq_ok.mp hjwt)
      rw [heq] at htyp
      split at hrest
      · cases hrest
        exact ⟨getD_none_eq_str htyp, getD_none_eq_str ‹_›⟩
      · cases hrest
    · cases hrest
  rcases claimsHeaders_returns hheaders with rfl | hproperty
  · cases htoken.1
  · exact ⟨headers, hproperty, htoken⟩

theorem verifyRequest_returns {claims : Option Table}
    (h : config.verifyRequest jwt method params correlationId properties = .ok claims) :
    method ∈ config.publicMethods ∨ ∃ headers claims token alg key, properties .headers = some (.dict headers) ∧
      config.Verified jwt method params correlationId headers claims token alg key := by
  unfold AuthConfig.verifyRequest at h
  by_cases hpublic : config.isPublic method = true
  · exact .inl (by simpa [AuthConfig.isPublic] using hpublic)
  · rw [if_neg hpublic] at h
    obtain ⟨token, htoken, h⟩ := bind_eq_ok.mp h
    obtain ⟨decoded, hdecoded, h⟩ := bind_eq_ok.mp h
    obtain ⟨claims, hclaims, h⟩ := bind_eq_ok.mp h
    obtain ⟨_, hjti, h⟩ := bind_eq_ok.mp h
    obtain ⟨_, hmethod, h⟩ := bind_eq_ok.mp h
    obtain ⟨_, hauthorized, -⟩ := bind_eq_ok.mp h
    obtain ⟨headers, hheaders, htyp, hheader⟩ := claimsToken_returns htoken
    obtain rfl := orRaise_eq_ok.mp hclaims
    obtain ⟨alg, key, hconfigured, hkey, hjwt⟩ := decodeClaims_returns hdecoded
    exact .inr ⟨headers, claims, token, alg, key, hheaders, htyp, hheader, hconfigured, hkey, hjwt,
      checkBound_returns hjti, checkBound_returns hmethod, checkAuthorized_returns hauthorized⟩

end Verification

end Nuropb.Patterns
