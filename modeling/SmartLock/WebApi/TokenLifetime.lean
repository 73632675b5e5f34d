import SmartLock.WebApi.LoginToDoor
import SmartLock.WebApi.PublishPayload

/-!
# How long a token is good

An issued token passes the bearer validation until five minutes after its expiry, which the library
converts to UTC and keeps in whole seconds. A publish is read without a look at the clock, so the
same token makes its call at any time (`issued_token_window`).
-/

namespace SmartLock

variable {handler : JwtSecurityTokenHandler} {options : JwtOptions} {jti : Guid} {now : DateTime}
  {userName userId : String} {roles : List String} {t : String}
  {toUniversalTime : DateTime → DateTime}

theorem ne_empty_of_not_blank {s : String} (h : isNullOrWhiteSpace (some s) = false) : s ≠ "" := by
  rintro rfl
  cases h

section Validation

variable (hV : handler.Enforces)
  (hS : handler.Stamps toUniversalTime (issuedToken options jti now userName userId roles))
  (hw : handler.writeToken (issuedToken options jti now userName userId roles) = some t)
  (hdate : Datable (toUniversalTime (now + options.expireDays * ticksPerDay)))

include hV hS hw hdate

theorem le_of_validateToken_issued (hlife : options.validateLifetime = true) {at' : DateTime}
    (h : (handler.validateToken (addJwtAuthentication options) at' t).isSome) :
    at' ≤ toUniversalTime (now + options.expireDays * ticksPerDay) + clockSkew := by
  obtain ⟨token, hread, htrusted⟩ := (hV _ _ _).mp h
  obtain ⟨validTo, hto, hat, -⟩ := htrusted.lifetime hlife
  obtain ⟨-, validTo', hto', hle, -⟩ := hS.expiry _ _ hw hread hdate
  obtain rfl : validTo = validTo' := Option.some.inj ((Option.mem_def.mp hto).symm.trans hto')
  exact hat.trans (Nat.add_le_add_right hle clockSkew)

/-- The bearer validation of an issued token looks at the clock only, when it looks at it. -/
theorem validateToken_issued_iff
    (hR : handler.ReadsBack (issuedToken options jti now userName userId roles))
    (haud : options.validateAudience = true → isNullOrWhiteSpace (some options.audience) = false)
    (hiss : options.validateIssuer = true → isNullOrWhiteSpace (some options.issuer) = false) :
    ∃ validTo, validTo ≤ toUniversalTime (now + options.expireDays * ticksPerDay) ∧
      toUniversalTime (now + options.expireDays * ticksPerDay) < validTo + ticksPerSecond ∧
      ∀ at', (handler.validateToken (addJwtAuthentication options) at' t).isSome ↔
        (options.validateLifetime = true → at' ≤ validTo + clockSkew) := by
  obtain ⟨token, hread⟩ := hR.readable _ hw
  obtain ⟨hfrom, validTo, hto, hle, hlt⟩ := hS.expiry _ _ hw hread hdate
  refine ⟨validTo, hle, hlt, fun at' => ?_⟩
  rw [hV]
  constructor
  · rintro ⟨token', hread', htrusted⟩ hlife
    obtain rfl : token = token' := Option.some.inj (hread.symm.trans hread')
    obtain ⟨validTo', hto', hat, -⟩ := htrusted.lifetime hlife
    obtain rfl : validTo = validTo' := Option.some.inj (hto.symm.trans hto')
    exact hat
  · intro hat
    refine ⟨token, hread, hS.signed _ hw, fun hlife => ?_, fun h => ?_, fun h => ?_⟩
    · refine ⟨validTo, hto, hat hlife, fun validFrom hmem => ?_⟩
      rw [hfrom] at hmem
      cases hmem
    · have hnames : token.audiences = [options.audience] :=
        hS.audience _ _ hw hread (ne_empty_of_not_blank (haud h))
      refine ⟨haud h, options.audience, ?_, haud h, Or.inl rfl⟩
      rw [hnames]
      exact List.mem_singleton_self options.audience
    · exact ⟨hiss h, hS.issuer _ _ hw hread (ne_empty_of_not_blank (hiss h))⟩

end Validation

theorem publish_call_of_issued
    (hR : handler.ReadsBack (issuedToken options jti now userName userId roles))
    (hw : handler.writeToken (issuedToken options jti now userName userId roles) = some t)
    {arg : InterceptingPublishEventArgs} {lockId : Guid}
    (hid : Guid.tryParse arg.clientId = some lockId)
    (hmsg : payloadMessage arg.payload = .ok ⟨some t⟩) :
    (handleInterceptingPublishAsync handler arg).call =
      some ⟨lockId.toString, some userId, roles, none⟩ := by
  obtain ⟨token, hread, huser, hroles⟩ := read_issued hR hw
  have htoken : payloadToken handler arg.payload = some token := by
    unfold payloadToken
    rw [hmsg]
    exact hread
  rw [handleInterceptingPublishAsync_call, hid, Option.bind_some, htoken, Option.map_some, tokenCall,
    firstValue_eq_head?, huser, hroles]
  rfl

/-- **The window of a token.** With the lifetime check on, and an audience and an issuer where they
are checked, the bearer validation accepts an issued token up to five minutes after its expiry in
UTC, less than a second of which is lost to rounding, and never after; then the controller sees the
user and the roles it was issued for. A publish of it asks for the same user with the same roles at
any time. -/
theorem issued_token_window (hV : handler.Enforces) (hM : handler.MapsClaims)
    (hR : handler.ReadsBack (issuedToken options jti now userName userId roles))
    (hS : handler.Stamps toUniversalTime (issuedToken options jti now userName userId roles))
    (hw : handler.writeToken (issuedToken options jti now userName userId roles) = some t)
    (hdate : Datable (toUniversalTime (now + options.expireDays * ticksPerDay)))
    (hlife : options.validateLifetime = true)
    (haud : options.validateAudience = true → isNullOrWhiteSpace (some options.audience) = false)
    (hiss : options.validateIssuer = true → isNullOrWhiteSpace (some options.issuer) = false) :
    (∃ validTo, validTo ≤ toUniversalTime (now + options.expireDays * ticksPerDay) ∧
      toUniversalTime (now + options.expireDays * ticksPerDay) < validTo + ticksPerSecond ∧
      (∀ at', at' ≤ validTo + clockSkew → ∃ principal,
        handler.validateToken (addJwtAuthentication options) at' t = some principal ∧
        getId principal = some userId ∧ getRoles principal = roles) ∧
      ∀ at', validTo + clockSkew < at' →
        handler.validateToken (addJwtAuthentication options) at' t = none) ∧
    ∀ (arg : InterceptingPublishEventArgs) (lockId : Guid),
      Guid.tryParse arg.clientId = some lockId → payloadMessage arg.payload = .ok ⟨some t⟩ →
      (handleInterceptingPublishAsync handler arg).call =
        some ⟨lockId.toString, some userId, roles, none⟩ := by
  obtain ⟨validTo, hle, hlt, hiff⟩ := validateToken_issued_iff hV hS hw hdate hR haud hiss
  refine ⟨⟨validTo, hle, hlt, ?_, ?_⟩, fun _ _ => publish_call_of_issued hR hw⟩
  · intro at' hat
    obtain ⟨principal, hp⟩ := Option.isSome_iff_exists.mp ((hiff at').mpr fun _ => hat)
    exact ⟨principal, hp, bearer_identity_of_issued hR hw hM hp⟩
  · intro at' hat
    rw [← Option.not_isSome_iff_eq_none, hiff]
    exact fun h => absurd (h hlife) (Nat.not_le_of_lt hat)

/-- The manager's token of 6 April 2023, on a server in UTC, a month and a day later: the bearer
validation has stopped accepting it, and a publish of it by the entrance lock still makes its
call. -/
theorem issued_token_window_manager :
    let later := loginTime + 31 * ticksPerDay
    let arg : InterceptingPublishEventArgs :=
      ⟨DefaultData.entranceLockId, DefaultData.entranceLockId, tokenPayload managerToken, true⟩
    managerHandler.validateToken (addJwtAuthentication developmentOptions) later managerToken =
        none ∧
      (handleInterceptingPublishAsync managerHandler arg).call = some ⟨DefaultData.entranceLockId,
        some DefaultData.managerId, [DefaultData.managerRoleName, DefaultData.employeeRoleName],
        none⟩ := by
  intro later arg
  have hblank : isNullOrWhiteSpace (some developmentOptions.audience) = false ∧
      isNullOrWhiteSpace (some developmentOptions.issuer) = false := by decide
  obtain ⟨⟨validTo, hle, -, -, hafter⟩, hcall⟩ := issued_token_window managerHandler_enforces
    managerHandler_mapsClaims (managerHandler_readsBack managerDescriptor)
    (managerHandler_stamps managerDescriptor) (managerHandler_writeToken.mpr ⟨rfl, rfl⟩)
    (by decide) rfl (fun _ => hblank.1) fun _ => hblank.2
  obtain ⟨g, hname⟩ : ∃ g : Guid, DefaultData.entranceLockId = g.toString :=
    Guid.exists_eq_toString_iff.mpr (by decide +kernel)
  refine ⟨hafter later ?_, ?_⟩
  · calc validTo + clockSkew
      _ ≤ loginTime + developmentOptions.expireDays * ticksPerDay + clockSkew :=
        Nat.add_le_add_right hle clockSkew
      _ < later := by decide
  · rw [hname]
    exact hcall arg g (by rw [show arg.clientId = g.toString from hname, Guid.tryParse_toString])
      (payloadMessage_tokenPayload managerToken)

end SmartLock
