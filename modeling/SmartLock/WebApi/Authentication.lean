import SmartLock.Jwt.JwtLibrary
import SmartLock.WebApi.PublishPayload

/-!
# A publish against the bearer validation

The HTTP entry point answers a caller by the identity of a validated principal, the MQTT entry
point by whatever the token of a publish says. `publish_granted_only_if_bearer_iff` says, by the
fields of the token and the roles of the lock, when the second is no weaker than the first.
-/

namespace SmartLock

variable (handler : JwtSecurityTokenHandler) (g : LockGrain) (utcNow : DateTime)

/-- The answer of the lock's grain to a publish, if the handler calls it. -/
def publishAnswer (arg : InterceptingPublishEventArgs) : Option LockAccessResult :=
  (handleInterceptingPublishAsync handler arg).call.map fun call =>
    (g.requestAccessAsync utcNow call.request).result.accessResult

/-- The answer to the id and the roles of the principal that the bearer validation makes of a
token, if it accepts it. -/
def bearerAnswer (p : TokenValidationParameters) (t : String) : Option LockAccessResult :=
  (handler.validateToken p utcNow t).map fun principal =>
    (g.requestAccessAsync utcNow ⟨getId principal, getRoles principal, none⟩).result.accessResult

/-- Some role claim of the decoded token names a role of the grain's lock. -/
def NamesRole (t : String) : Prop :=
  ∃ token l r name, handler.readJwtToken t = some token ∧ g.lock = some l ∧
    r ∈ l.rolesAccesses ∧ r.name = some name ∧ ⟨ClaimTypes.role, name⟩ ∈ token.claims

variable {handler g utcNow}

theorem requestAccessAsync_granted {req : AccessRequest} :
    (g.requestAccessAsync utcNow req).result.accessResult = .granted ↔
      ∃ l, g.lock = some l ∧ ∃ r ∈ l.rolesAccesses, ∃ name ∈ req.requesterRoles,
        r.name = some name := by
  rw [LockGrain.requestAccessAsync_result]
  cases g.lock with
  | none => simp
  | some l =>
    rw [LockEntity.hasAccess_eq_granted]
    constructor
    · intro h
      exact ⟨l, rfl, h⟩
    · rintro ⟨_, ⟨⟩, h⟩
      exact h

theorem publishAnswer_granted {arg : InterceptingPublishEventArgs} {t : String}
    (hid : (Guid.tryParse arg.clientId).isSome)
    (hmsg : payloadMessage arg.payload = .ok ⟨some t⟩) :
    publishAnswer handler g utcNow arg = some .granted ↔ NamesRole handler g t := by
  obtain ⟨lockId, hid⟩ := Option.isSome_iff_exists.mp hid
  have htoken : payloadToken handler arg.payload = handler.readJwtToken t := by
    unfold payloadToken
    rw [hmsg]
  unfold publishAnswer NamesRole
  rw [handleInterceptingPublishAsync_call, hid, Option.bind_some, htoken]
  cases handler.readJwtToken t with
  | none => simp
  | some token =>
    simp only [Option.map_some, Option.some.injEq, requestAccessAsync_granted, tokenCall,
      mem_valuesOf]
    constructor
    · rintro ⟨l, hl, r, hr, name, hmem, hname⟩
      exact ⟨token, l, r, name, rfl, hl, hr, hname, hmem⟩
    · rintro ⟨_, l, r, name, rfl, hl, hr, hname, hmem⟩
      exact ⟨l, hl, r, hr, name, hmem, hname⟩

theorem bearerAnswer_granted {p : TokenValidationParameters} {t : String}
    (hM : handler.MapsClaims) (hacc : (handler.validateToken p utcNow t).isSome)
    (hnames : NamesRole handler g t) : bearerAnswer handler g utcNow p t = some .granted := by
  obtain ⟨principal, hp⟩ := Option.isSome_iff_exists.mp hacc
  obtain ⟨token, hread, rfl⟩ := hM.principal _ _ _ _ hp
  obtain ⟨token', l, r, name, hread', hl, hr, hname, hmem⟩ := hnames
  obtain rfl : token = token' := Option.some.inj (hread.symm.trans hread')
  have hrole := (hM.inbound ClaimTypes.role (by simp)).1
  unfold bearerAnswer
  rw [hp, Option.map_some, requestAccessAsync_granted.mpr]
  refine ⟨l, hl, r, hr, name, ?_, hname⟩
  show name ∈ valuesOf _ ClaimTypes.role
  rw [mem_valuesOf]
  exact List.mem_map.mpr ⟨⟨ClaimTypes.role, name⟩, hmem, by rw [hrole]⟩

/-- **When a publish is as strong as a bearer token.** With the validation of the settings, a
publish of the token `t` is granted only if the bearer validation accepts `t` and its principal is
granted too, if and only if `t` is signed with the key, names the configured issuer and audience and
is in its lifetime, or no role claim in `t` is the name of a role of the lock. -/
theorem publish_granted_only_if_bearer_iff (hV : handler.Enforces) (hM : handler.MapsClaims)
    (audience issuer secretKey : String) (expireDays : ℕ) {arg : InterceptingPublishEventArgs}
    {t : String} (hid : (Guid.tryParse arg.clientId).isSome)
    (hmsg : payloadMessage arg.payload = .ok ⟨some t⟩) :
    let p := addJwtAuthentication (JwtOptions.appsettings audience issuer secretKey expireDays)
    (publishAnswer handler g utcNow arg = some .granted →
        (handler.validateToken p utcNow t).isSome ∧
          bearerAnswer handler g utcNow p t = some .granted) ↔
      ((∃ token, handler.readJwtToken t = some token ∧
          handler.validSignature secretKey t = true ∧ LifetimeValid token utcNow ∧
          AudienceValid audience token.audiences ∧ IssuerValid issuer token.issuer) ∨
        ¬ NamesRole handler g t) := by
  intro p
  rw [publishAnswer_granted hid hmsg]
  have haccept : (handler.validateToken p utcNow t).isSome ↔
      ∃ token, handler.readJwtToken t = some token ∧ handler.validSignature secretKey t = true ∧
        LifetimeValid token utcNow ∧ AudienceValid audience token.audiences ∧
        IssuerValid issuer token.issuer := by
    rw [hV p utcNow t]
    refine exists_congr fun token => and_congr_right fun _ => ?_
    constructor
    · intro h
      exact ⟨h.signature, h.lifetime rfl, h.audience rfl, h.issuer rfl⟩
    · rintro ⟨hsig, hlife, haud, hiss⟩
      exact ⟨hsig, fun _ => hlife, fun _ => haud, fun _ => hiss⟩
  rw [← haccept]
  constructor
  · intro h
    by_cases hn : NamesRole handler g t
    · exact Or.inl (h hn).1
    · exact Or.inr hn
  · rintro (hacc | hn) hnames
    · exact ⟨hacc, bearerAnswer_granted hM hacc hnames⟩
    · exact absurd hnames hn

/-- The manager's token at the entrance, half a day after the login. -/
theorem publish_granted_only_if_bearer_manager :
    let later := loginTime + ticksPerDay / 2
    let p := addJwtAuthentication developmentOptions
    let arg : InterceptingPublishEventArgs := ⟨DefaultData.entranceLockId,
      DefaultData.entranceLockId, tokenPayload managerToken, true⟩
    publishAnswer managerHandler ⟨some DefaultData.entranceLock, []⟩ later arg = some .granted ∧
      (managerHandler.validateToken p later managerToken).isSome ∧
      bearerAnswer managerHandler ⟨some DefaultData.entranceLock, []⟩ later p managerToken =
        some .granted := by
  intro later p arg
  have hmsg := payloadMessage_tokenPayload managerToken
  have hid : (Guid.tryParse arg.clientId).isSome := by decide +kernel
  have hread : managerHandler.readJwtToken managerToken = some managerRead :=
    managerHandler_readJwtToken.mpr ⟨rfl, rfl⟩
  have hnames : NamesRole managerHandler ⟨some DefaultData.entranceLock, []⟩ managerToken :=
    ⟨managerRead, DefaultData.entranceLock, DefaultData.managerRole, DefaultData.managerRoleName,
      hread, rfl, List.mem_cons_self, rfl, by decide +kernel⟩
  have hgranted : publishAnswer managerHandler ⟨some DefaultData.entranceLock, []⟩ later arg =
      some .granted := (publishAnswer_granted hid hmsg).mpr hnames
  have hgood : LifetimeValid managerRead later ∧
      AudienceValid "SmartLockClient" managerRead.audiences ∧
      IssuerValid "https://localhost:5001" managerRead.issuer := by decide +kernel
  exact ⟨hgranted, (publish_granted_only_if_bearer_iff managerHandler_enforces
    managerHandler_mapsClaims _ _ _ _ hid hmsg).mpr (Or.inl ⟨managerRead, hread,
      managerHandler_validSignature.mpr ⟨rfl, rfl⟩, hgood⟩) hgranted⟩

/-! ## An unsigned token -/

/-- The token with the header `alg: none`, one claim, the role `Manager`, and no signature. -/
def unsignedToken : String :=
  "eyJhbGciOiJub25lIiwidHlwIjoiSldUIn0.eyJodHRwOi8vc2NoZW1hcy5taWNyb3NvZnQuY29tL3dzLzIwMDgvMDYv" ++
  "aWRlbnRpdHkvY2xhaW1zL3JvbGUiOiJNYW5hZ2VyIn0."

/-- A handler that decodes `unsignedToken`, and finds no valid signature on anything. -/
def unsignedHandler : JwtSecurityTokenHandler where
  readJwtToken t :=
    if t = unsignedToken then
      some ⟨"", [], none, none, [⟨ClaimTypes.role, DefaultData.managerRoleName⟩]⟩
    else none
  writeToken _ := none
  validSignature _ _ := false
  inboundClaimType type := type
  validateToken _ _ _ := none

theorem unsignedHandler_enforces : unsignedHandler.Enforces := by
  intro p utcNow t
  constructor
  · intro h
    cases h
  · rintro ⟨token, -, htrusted⟩
    cases htrusted.signature

/-- A publish by the entrance lock with `unsignedToken` as its token. -/
def unsignedPublish : InterceptingPublishEventArgs where
  clientId := DefaultData.entranceLockId
  topic := DefaultData.entranceLockId
  payload := Utf8.getBytes ("\x7b\"jwtToken\":\"" ++ unsignedToken ++ "\"\x7d")
  processPublish := true

/-- The unsigned token opens the entrance over MQTT, and the bearer validation refuses it. -/
theorem unsigned_token_opens :
    let p := addJwtAuthentication developmentOptions
    unsignedHandler.Enforces ∧
      payloadMessage unsignedPublish.payload = .ok ⟨some unsignedToken⟩ ∧
      publishAnswer unsignedHandler ⟨some DefaultData.entranceLock, []⟩ 0 unsignedPublish =
        some .granted ∧
      unsignedHandler.validateToken p 0 unsignedToken = none :=
  ⟨unsignedHandler_enforces, by decide +kernel, by decide +kernel, rfl⟩

end SmartLock
