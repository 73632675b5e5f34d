import SmartLock.Data.DefaultData
import SmartLock.DotNet.Text
import SmartLock.Jwt.JwtToken

/-!
# What the code relies on of the JWT library

The documented behaviour of the library, as conditions on a handler that the results name where they
use them. `Enforces` says which tokens the bearer validation accepts, `MapsClaims` what the principal
of an accepted one claims; `ReadsBack` and `Stamps` say what is read of a token that was written.
-/

namespace SmartLock

def ticksPerSecond : ℕ := 10000000

/-- 1 January 1970, from where the dates of a token count. -/
def unixEpoch : DateTime := 621355968000000000

/-- A date that a token can carry: its seconds are read as an `int`. -/
def Datable (t : DateTime) : Prop := unixEpoch ≤ t ∧ t < unixEpoch + 2 ^ 31 * ticksPerSecond

instance (t : DateTime) : Decidable (Datable t) := inferInstanceAs (Decidable (_ ∧ _))

/-! ## The bearer validation -/

/-- The default clock skew of five minutes. -/
def clockSkew : ℕ := 3000000000

/-- A token needs an expiry; a date from which it is valid it may have. -/
def LifetimeValid (token : JwtSecurityToken) (utcNow : DateTime) : Prop :=
  ∃ validTo ∈ token.validTo, utcNow ≤ validTo + clockSkew ∧
    ∀ validFrom ∈ token.validFrom, validFrom ≤ validTo ∧ validFrom ≤ utcNow + clockSkew

/-- Nothing is valid where none is configured. A slash at the end of an audience is ignored. -/
def AudienceValid (valid : String) (audiences : List String) : Prop :=
  isNullOrWhiteSpace (some valid) = false ∧ ∃ a ∈ audiences, isNullOrWhiteSpace (some a) = false ∧
    (a = valid ∨ a = valid ++ "/" ∨ valid = a ++ "/")

def IssuerValid (valid issuer : String) : Prop :=
  isNullOrWhiteSpace (some valid) = false ∧ issuer = valid

instance (token : JwtSecurityToken) (utcNow : DateTime) : Decidable (LifetimeValid token utcNow) :=
  inferInstanceAs (Decidable (∃ validTo ∈ token.validTo, _ ∧ ∀ validFrom ∈ token.validFrom, _))

instance (valid : String) (audiences : List String) : Decidable (AudienceValid valid audiences) :=
  inferInstanceAs (Decidable (_ ∧ ∃ a ∈ audiences, _))

instance (valid issuer : String) : Decidable (IssuerValid valid issuer) :=
  inferInstanceAs (Decidable (_ ∧ _))

/-- The token `t`, decoded as `token`, meets the parameters. A signature is required always. -/
structure Trusted (validSignature : (key : String) → (token : String) → Bool)
    (p : TokenValidationParameters) (utcNow : DateTime) (t : String) (token : JwtSecurityToken) :
    Prop where
  signature : validSignature p.issuerSigningKey t = true
  lifetime : p.validateLifetime = true → LifetimeValid token utcNow
  audience : p.validateAudience = true → AudienceValid p.validAudience token.audiences
  issuer : p.validateIssuer = true → IssuerValid p.validIssuer token.issuer

instance (validSignature : (key : String) → (token : String) → Bool)
    (p : TokenValidationParameters) (utcNow : DateTime) (t : String) (token : JwtSecurityToken) :
    Decidable (Trusted validSignature p utcNow t token) :=
  decidable_of_iff (validSignature p.issuerSigningKey t = true ∧
      (p.validateLifetime = true → LifetimeValid token utcNow) ∧
      (p.validateAudience = true → AudienceValid p.validAudience token.audiences) ∧
      (p.validateIssuer = true → IssuerValid p.validIssuer token.issuer))
    ⟨fun ⟨h₁, h₂, h₃, h₄⟩ => ⟨h₁, h₂, h₃, h₄⟩, fun ⟨h₁, h₂, h₃, h₄⟩ => ⟨h₁, h₂, h₃, h₄⟩⟩

/-- The claims of a principal. -/
def inboundClaims (inboundClaimType : String → String) (claims : List Claim) : List Claim :=
  claims.map fun c => ⟨inboundClaimType c.type, c.value⟩

/-- Renaming the types of claims does not change the values of a type that is kept and that no
other type is renamed to. -/
theorem valuesOf_inboundClaims {claims : List Claim} {f : String → String} {type : String}
    (hf : ∀ c ∈ claims, f c.type = type ↔ c.type = type) :
    valuesOf (inboundClaims f claims) type = valuesOf claims type := by
  unfold valuesOf inboundClaims
  rw [List.filter_map, List.map_map]
  have hfilter : claims.filter ((fun c : Claim => decide (c.type = type)) ∘
      fun c => ⟨f c.type, c.value⟩) = claims.filter fun c => c.type = type := by
    apply List.filter_congr
    intro c hc
    exact decide_eq_decide.mpr (hf c hc)
  rw [hfilter]
  rfl

namespace JwtSecurityTokenHandler

variable (handler : JwtSecurityTokenHandler)

/-- The bearer validation accepts the readable tokens that meet the parameters, and no others. -/
def Enforces : Prop :=
  ∀ p utcNow t, (handler.validateToken p utcNow t).isSome ↔
    ∃ token, handler.readJwtToken t = some token ∧
      Trusted handler.validSignature p utcNow t token

/-- A principal has the claims of its token under their inbound names, and these names neither
change the two types that matter nor turn another type of an issued token into one of them. -/
structure MapsClaims : Prop where
  principal : ∀ p utcNow t claims, handler.validateToken p utcNow t = some claims →
    ∃ token, handler.readJwtToken t = some token ∧
      claims = inboundClaims handler.inboundClaimType token.claims
  inbound : ∀ type ∈ [ClaimTypes.userData, ClaimTypes.role], handler.inboundClaimType type = type ∧
    ∀ other ∈ [JwtRegisteredClaimNames.jti, ClaimTypes.name, ClaimTypes.nameIdentifier,
      JwtRegisteredClaimNames.iss, JwtRegisteredClaimNames.aud, JwtRegisteredClaimNames.exp],
      handler.inboundClaimType other ≠ type

/-! ## Written tokens -/

/-- A token written for `d` can be read, and has the claims of `d`, those of one type in their
order, with only `iss`, `aud` and `exp` added. -/
structure ReadsBack (d : TokenDescriptor) : Prop where
  readable : ∀ t, handler.writeToken d = some t → ∃ token, handler.readJwtToken t = some token
  keeps : ∀ t token, handler.writeToken d = some t → handler.readJwtToken t = some token →
    ∀ type, type ∉ [JwtRegisteredClaimNames.iss, JwtRegisteredClaimNames.aud,
      JwtRegisteredClaimNames.exp] → valuesOf token.claims type = valuesOf d.claims type
  adds : ∀ t token, handler.writeToken d = some t → handler.readJwtToken t = some token →
    ∀ c ∈ token.claims, c ∈ d.claims ∨ c.type ∈ [JwtRegisteredClaimNames.iss,
      JwtRegisteredClaimNames.aud, JwtRegisteredClaimNames.exp]

/-- A token written for `d` has the issuer and the audience of `d`, where these are not empty, and
its expiry, which is converted to UTC and cut to seconds; its signature verifies with the key. -/
structure Stamps (toUniversalTime : DateTime → DateTime) (d : TokenDescriptor) : Prop where
  signed : ∀ t, handler.writeToken d = some t → handler.validSignature d.signingKey t = true
  issuer : ∀ t token, handler.writeToken d = some t → handler.readJwtToken t = some token →
    d.issuer ≠ "" → token.issuer = d.issuer
  audience : ∀ t token, handler.writeToken d = some t → handler.readJwtToken t = some token →
    d.audience ≠ "" → token.audiences = [d.audience]
  expiry : ∀ t token, handler.writeToken d = some t → handler.readJwtToken t = some token →
    Datable (toUniversalTime d.expires) → token.validFrom = none ∧
      ∃ validTo, token.validTo = some validTo ∧ validTo ≤ toUniversalTime d.expires ∧
        toUniversalTime d.expires < validTo + ticksPerSecond

end JwtSecurityTokenHandler

/-! ## A handler that behaves so -/

/-- The handler with a validation that meets its description. -/
def enforcing (readJwtToken : String → Option JwtSecurityToken)
    (writeToken : TokenDescriptor → Option String)
    (validSignature : (key : String) → (token : String) → Bool)
    (inboundClaimType : String → String) : JwtSecurityTokenHandler where
  readJwtToken := readJwtToken
  writeToken := writeToken
  validSignature := validSignature
  inboundClaimType := inboundClaimType
  validateToken p utcNow t := (readJwtToken t).bind fun token =>
    if Trusted validSignature p utcNow t token then
      some (inboundClaims inboundClaimType token.claims)
    else none

section Enforcing

variable {readJwtToken : String → Option JwtSecurityToken}
  {writeToken : TokenDescriptor → Option String}
  {validSignature : (key : String) → (token : String) → Bool} {inboundClaimType : String → String}

theorem validateToken_enforcing {p : TokenValidationParameters} {utcNow : DateTime} {t : String}
    {claims : List Claim} :
    (enforcing readJwtToken writeToken validSignature inboundClaimType).validateToken p utcNow t =
        some claims ↔
      ∃ token, readJwtToken t = some token ∧ Trusted validSignature p utcNow t token ∧
        claims = inboundClaims inboundClaimType token.claims := by
  unfold enforcing
  dsimp only
  rw [Option.bind_eq_some_iff]
  simp only [Option.ite_none_right_eq_some, Option.some.injEq, eq_comm (b := claims)]

theorem enforces_enforcing :
    (enforcing readJwtToken writeToken validSignature inboundClaimType).Enforces := by
  intro p utcNow t
  rw [Option.isSome_iff_exists]
  constructor
  · rintro ⟨claims, h⟩
    obtain ⟨token, hread, htrusted, -⟩ := validateToken_enforcing.mp h
    exact ⟨token, hread, htrusted⟩
  · rintro ⟨token, hread, htrusted⟩
    exact ⟨_, validateToken_enforcing.mpr ⟨token, hread, htrusted, rfl⟩⟩

end Enforcing

/-! ## The manager's token -/

/-- The settings of `appsettings.Development.json`. -/
def developmentOptions : JwtOptions :=
  JwtOptions.appsettings "SmartLockClient" "https://localhost:5001" "1@3$5^7AbCdEf&*90PoIuY" 30

/-- 6 April 2023, 9:25:19. -/
def loginTime : DateTime := 638163699190000000

/-- 0f8fad5b-d9cb-469f-a165-70867728950e -/
def managerJti : Guid := Guid.ofNat 0x0f8fad5bd9cb469fa16570867728950e

/-- What the generator hands to the library when the manager logs in. -/
def managerDescriptor : TokenDescriptor :=
  issuedToken developmentOptions managerJti loginTime DefaultData.managerEmail
    DefaultData.managerId [DefaultData.managerRoleName, DefaultData.employeeRoleName]

/-- What the library writes of it, on a server whose clock runs in UTC. -/
def managerToken : String :=
  "eyJhbGciOiJIUzI1NiIsInR5cCI6IkpXVCJ9.eyJqdGkiOiIwZjhmYWQ1Yi1kOWNiLTQ2OWYtYTE2NS03MDg2NzcyODk" ++
  "1MGUiLCJodHRwOi8vc2NoZW1hcy54bWxzb2FwLm9yZy93cy8yMDA1LzA1L2lkZW50aXR5L2NsYWltcy9uYW1lIjoibWF" ++
  "uYWdlckBjb21wYW55LmNvbSIsImh0dHA6Ly9zY2hlbWFzLnhtbHNvYXAub3JnL3dzLzIwMDUvMDUvaWRlbnRpdHkvY2x" ++
  "haW1zL25hbWVpZGVudGlmaWVyIjoibWFuYWdlckBjb21wYW55LmNvbSIsImh0dHA6Ly9zY2hlbWFzLm1pY3Jvc29mdC5" ++
  "jb20vd3MvMjAwOC8wNi9pZGVudGl0eS9jbGFpbXMvdXNlcmRhdGEiOiI2M2QzOTZlNy0xM2IxLTQ1ZDEtYTM4OC0yNTg" ++
  "5NDcyMTIwNWEiLCJodHRwOi8vc2NoZW1hcy5taWNyb3NvZnQuY29tL3dzLzIwMDgvMDYvaWRlbnRpdHkvY2xhaW1zL3J" ++
  "vbGUiOlsiTWFuYWdlciIsIkVtcGxveWVlIl0sImV4cCI6MTY4MzM2NTExOSwiaXNzIjoiaHR0cHM6Ly9sb2NhbGhvc3Q" ++
  "6NTAwMSIsImF1ZCI6IlNtYXJ0TG9ja0NsaWVudCJ9.2XM9bolFIQafDVMwRVa48XCUSvx8CSr-eDTnPY34IjY"

/-- What it reads of that token: the payload names the claims in this order. -/
def managerRead : JwtSecurityToken where
  issuer := "https://localhost:5001"
  audiences := ["SmartLockClient"]
  validFrom := none
  validTo := some 638189619190000000
  claims := [⟨"jti", "0f8fad5b-d9cb-469f-a165-70867728950e"⟩,
    ⟨ClaimTypes.name, "manager@company.com"⟩, ⟨ClaimTypes.nameIdentifier, "manager@company.com"⟩,
    ⟨ClaimTypes.userData, "63d396e7-13b1-45d1-a388-25894721205a"⟩, ⟨ClaimTypes.role, "Manager"⟩,
    ⟨ClaimTypes.role, "Employee"⟩, ⟨"exp", "1683365119"⟩, ⟨"iss", "https://localhost:5001"⟩,
    ⟨"aud", "SmartLockClient"⟩]

/-- The part of the inbound map that a role claim can meet. -/
def shortRoleNames (type : String) : String :=
  if type = "role" ∨ type = "roles" then ClaimTypes.role else type

/-- The handler as far as the manager's token is concerned. -/
def managerHandler : JwtSecurityTokenHandler :=
  enforcing (fun t => if t = managerToken then some managerRead else none)
    (fun d => if d = managerDescriptor then some managerToken else none)
    (fun key t => key = developmentOptions.secretKey && t = managerToken) shortRoleNames

theorem managerHandler_writeToken {d : TokenDescriptor} {t : String} :
    managerHandler.writeToken d = some t ↔ d = managerDescriptor ∧ t = managerToken := by
  show (if d = managerDescriptor then some managerToken else none) = some t ↔ _
  rw [Option.ite_none_right_eq_some, Option.some.injEq, eq_comm (b := t)]

theorem managerHandler_readJwtToken {t : String} {token : JwtSecurityToken} :
    managerHandler.readJwtToken t = some token ↔ t = managerToken ∧ token = managerRead := by
  show (if t = managerToken then some managerRead else none) = some token ↔ _
  rw [Option.ite_none_right_eq_some, Option.some.injEq, eq_comm (b := token)]

theorem managerHandler_validSignature {key t : String} :
    managerHandler.validSignature key t = true ↔
      key = developmentOptions.secretKey ∧ t = managerToken := by
  show (decide (key = developmentOptions.secretKey) && decide (t = managerToken)) = true ↔ _
  rw [Bool.and_eq_true, decide_eq_true_eq, decide_eq_true_eq]

theorem managerRead_claims : managerRead.claims = managerDescriptor.claims ++
    [⟨JwtRegisteredClaimNames.exp, "1683365119"⟩,
      ⟨JwtRegisteredClaimNames.iss, managerDescriptor.issuer⟩,
      ⟨JwtRegisteredClaimNames.aud, managerDescriptor.audience⟩] := by
  decide +kernel

theorem managerHandler_enforces : managerHandler.Enforces := enforces_enforcing

theorem managerHandler_mapsClaims : managerHandler.MapsClaims where
  principal p utcNow t claims h := by
    obtain ⟨token, hread, -, hclaims⟩ := validateToken_enforcing.mp h
    exact ⟨token, hread, hclaims⟩
  inbound := by
    show ∀ type ∈ _, shortRoleNames type = type ∧ ∀ other ∈ _, shortRoleNames other ≠ type
    decide

theorem managerHandler_readsBack (d : TokenDescriptor) : managerHandler.ReadsBack d where
  readable t h := by
    obtain ⟨-, rfl⟩ := managerHandler_writeToken.mp h
    exact ⟨managerRead, managerHandler_readJwtToken.mpr ⟨rfl, rfl⟩⟩
  keeps t token h hread type htype := by
    obtain ⟨rfl, -⟩ := managerHandler_writeToken.mp h
    obtain ⟨-, rfl⟩ := managerHandler_readJwtToken.mp hread
    rw [managerRead_claims]
    simp only [List.mem_cons, List.not_mem_nil, or_false, not_or] at htype
    simp [valuesOf, List.filter_append, Ne.symm htype.1, Ne.symm htype.2.1, Ne.symm htype.2.2]
  adds t token h hread c hc := by
    obtain ⟨rfl, -⟩ := managerHandler_writeToken.mp h
    obtain ⟨-, rfl⟩ := managerHandler_readJwtToken.mp hread
    rw [managerRead_claims, List.mem_append] at hc
    rcases hc with hc | hc
    · exact Or.inl hc
    · simp only [List.mem_cons, List.not_mem_nil, or_false] at hc
      rcases hc with rfl | rfl | rfl <;> exact Or.inr (by simp)

theorem managerHandler_stamps (d : TokenDescriptor) : managerHandler.Stamps id d where
  signed t h := by
    obtain ⟨rfl, rfl⟩ := managerHandler_writeToken.mp h
    exact managerHandler_validSignature.mpr ⟨rfl, rfl⟩
  issuer t token h hread _ := by
    obtain ⟨rfl, -⟩ := managerHandler_writeToken.mp h
    obtain ⟨-, rfl⟩ := managerHandler_readJwtToken.mp hread
    rfl
  audience t token h hread _ := by
    obtain ⟨rfl, -⟩ := managerHandler_writeToken.mp h
    obtain ⟨-, rfl⟩ := managerHandler_readJwtToken.mp hread
    rfl
  expiry t token h hread _ := by
    obtain ⟨rfl, -⟩ := managerHandler_writeToken.mp h
    obtain ⟨-, rfl⟩ := managerHandler_readJwtToken.mp hread
    exact ⟨rfl, _, rfl, by decide, by decide⟩

theorem managerHandler_accepts {utcNow : DateTime} (h : utcNow ≤ 638189619190000000 + clockSkew) :
    ∃ principal, managerHandler.validateToken (addJwtAuthentication developmentOptions) utcNow
      managerToken = some principal := by
  have hlife : LifetimeValid managerRead utcNow := ⟨_, rfl, h, nofun⟩
  have hnames : AudienceValid "SmartLockClient" managerRead.audiences ∧
      IssuerValid "https://localhost:5001" managerRead.issuer := by decide +kernel
  have hsig : managerHandler.validSignature developmentOptions.secretKey managerToken = true :=
    managerHandler_validSignature.mpr ⟨rfl, rfl⟩
  rw [← Option.isSome_iff_exists, managerHandler_enforces]
  exact ⟨managerRead, managerHandler_readJwtToken.mpr ⟨rfl, rfl⟩,
    ⟨hsig, fun _ => hlife, fun _ => hnames.1, fun _ => hnames.2⟩⟩

end SmartLock
