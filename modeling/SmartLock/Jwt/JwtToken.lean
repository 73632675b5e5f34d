import SmartLock.DotNet.Guid
import SmartLock.Domain

/-!
# JSON web tokens

The token generator of `JwtTokenGenerator.cs` and the parameters that `AddJwtAuthentication` sets.
`JwtSecurityTokenHandler` belongs to the JWT library: its decoding, its encoding, its signature
check, its map of inbound claim types and the validation of the bearer middleware are the fields of
a structure, so that a result about the code holds for every handler with the properties it names.
-/

namespace SmartLock

structure Claim where
  type : String
  value : String
  deriving DecidableEq, Repr

namespace ClaimTypes

def name : String := "http://schemas.xmlsoap.org/ws/2005/05/identity/claims/name"
def nameIdentifier : String :=
  "http://schemas.xmlsoap.org/ws/2005/05/identity/claims/nameidentifier"
def userData : String := "http://schemas.microsoft.com/ws/2008/06/identity/claims/userdata"
def role : String := "http://schemas.microsoft.com/ws/2008/06/identity/claims/role"

end ClaimTypes

namespace JwtRegisteredClaimNames

def jti : String := "jti"
def iss : String := "iss"
def aud : String := "aud"
def exp : String := "exp"

end JwtRegisteredClaimNames

/-- The section `Jwt` of the settings. -/
structure JwtOptions where
  audience : String
  issuer : String
  secretKey : String
  expireDays : ℕ
  validateAudience : Bool
  validateIssuer : Bool
  validateIssuerSigningKey : Bool
  validateLifetime : Bool
  deriving DecidableEq, Repr

/-- The settings with the flags of both `appsettings.json` files. -/
def JwtOptions.appsettings (audience issuer secretKey : String) (expireDays : ℕ) : JwtOptions where
  audience := audience
  issuer := issuer
  secretKey := secretKey
  expireDays := expireDays
  validateAudience := true
  validateIssuer := true
  validateIssuerSigningKey := true
  validateLifetime := true

/-- A decoded token. -/
structure JwtSecurityToken where
  issuer : String
  audiences : List String
  validFrom : Option DateTime
  validTo : Option DateTime
  claims : List Claim
  deriving DecidableEq, Repr

/-- The arguments of the constructor that `GenerateJwtToken` calls. -/
structure TokenDescriptor where
  issuer : String
  audience : String
  claims : List Claim
  expires : DateTime
  signingKey : String
  deriving DecidableEq, Repr

/-- The parameters that `AddJwtAuthentication` sets. -/
structure TokenValidationParameters where
  validateAudience : Bool
  validateIssuer : Bool
  validateIssuerSigningKey : Bool
  validateLifetime : Bool
  validAudience : String
  validIssuer : String
  issuerSigningKey : String
  deriving DecidableEq, Repr

def addJwtAuthentication (jwtOptions : JwtOptions) : TokenValidationParameters where
  validateAudience := jwtOptions.validateAudience
  validateIssuer := jwtOptions.validateIssuer
  validateIssuerSigningKey := jwtOptions.validateIssuerSigningKey
  validateLifetime := jwtOptions.validateLifetime
  validAudience := jwtOptions.audience
  validIssuer := jwtOptions.issuer
  issuerSigningKey := jwtOptions.secretKey

/-- The handler of the JWT library. `readJwtToken` only decodes; `validateToken` is the bearer
validation at a time of UTC, with the claims of the principal that it makes. Reading, writing and
validating fail by an exception. -/
structure JwtSecurityTokenHandler where
  readJwtToken : String → Option JwtSecurityToken
  writeToken : TokenDescriptor → Option String
  validSignature : (key : String) → (token : String) → Bool
  inboundClaimType : String → String
  validateToken : TokenValidationParameters → (utcNow : DateTime) → String → Option (List Claim)

/-! ## Issuing -/

def ticksPerDay : ℕ := 864000000000

/-- The claims of an issued token. -/
def issuedClaims (jti : Guid) (userName userId : String) (roles : List String) : List Claim :=
  [⟨JwtRegisteredClaimNames.jti, jti.toString⟩, ⟨ClaimTypes.name, userName⟩,
    ⟨ClaimTypes.nameIdentifier, userName⟩, ⟨ClaimTypes.userData, userId⟩] ++
    roles.map fun role => ⟨ClaimTypes.role, role⟩

/-- The token that `GenerateJwtToken` builds. `now` is `DateTime.Now`, on the clock of the server's
time zone, and so is the expiry; the library converts it to UTC when it writes the token. -/
def issuedToken (options : JwtOptions) (jti : Guid) (now : DateTime) (userName userId : String)
    (roles : List String) : TokenDescriptor where
  issuer := options.issuer
  audience := options.audience
  claims := issuedClaims jti userName userId roles
  expires := now + options.expireDays * ticksPerDay
  signingKey := options.secretKey

/-- `GenerateJwtToken`. A null name is refused by the constructor of `Claim`. -/
def generateJwtToken (handler : JwtSecurityTokenHandler) (options : JwtOptions) (jti : Guid)
    (now : DateTime) (userName : Option String) (userId : String) (roles : List String) :
    Option String :=
  match userName with
  | none => none
  | some userName => handler.writeToken (issuedToken options jti now userName userId roles)

theorem generateJwtToken_eq_some {handler : JwtSecurityTokenHandler} {options : JwtOptions}
    {jti : Guid} {now : DateTime} {name : Option String} {userId t : String}
    {roles : List String} : generateJwtToken handler options jti now name userId roles = some t ↔
      ∃ userName, name = some userName ∧
        handler.writeToken (issuedToken options jti now userName userId roles) = some t := by
  cases name with
  | none => simp [generateJwtToken]
  | some userName => simp [generateJwtToken]

/-! ## Reading an identity off a list of claims -/

/-- The value of the first claim of a type. -/
def firstValue (claims : List Claim) (type : String) : Option String :=
  (claims.find? fun c => c.type = type).map Claim.value

/-- The values of all claims of a type, in order. -/
def valuesOf (claims : List Claim) (type : String) : List String :=
  (claims.filter fun c => c.type = type).map Claim.value

theorem firstValue_eq_head? (claims : List Claim) (type : String) :
    firstValue claims type = (valuesOf claims type).head? := by
  unfold firstValue valuesOf
  rw [List.head?_map, List.head?_filter]

theorem mem_valuesOf {claims : List Claim} {type v : String} :
    v ∈ valuesOf claims type ↔ ⟨type, v⟩ ∈ claims := by
  unfold valuesOf
  simp only [List.mem_map, List.mem_filter, decide_eq_true_eq]
  constructor
  · rintro ⟨⟨ty, w⟩, ⟨hmem, rfl⟩, rfl⟩
    exact hmem
  · intro h
    exact ⟨⟨type, v⟩, ⟨h, rfl⟩, rfl⟩

end SmartLock
