import SmartLock.Jwt.JwtLibrary
import SmartLock.Jwt.UserService
import SmartLock.WebApi.MqttHostedService

/-!
# From the login to the door

A token handed out by `GetJwtTokenAsync`, presented at either entry point, gives the id and the
roles of its user, so both reach the decision of those roles. Of the JWT library this takes that an
issued token is read back with its claims (`ReadsBack`) and that the principal of a validated one
has them too (`MapsClaims`).
-/

namespace SmartLock

section Issued

variable {handler : JwtSecurityTokenHandler} {options : JwtOptions} {jti : Guid} {now : DateTime}
  {userName userId : String} {roles : List String} {t : String}

theorem valuesOf_map_role (type : String) :
    valuesOf (roles.map fun role => ⟨ClaimTypes.role, role⟩) type =
      if ClaimTypes.role = type then roles else [] := by
  unfold valuesOf
  by_cases h : ClaimTypes.role = type
  · rw [if_pos h, List.filter_eq_self.mpr, List.map_map]
    · exact List.map_id'' (fun _ => rfl) roles
    · intro c hc
      obtain ⟨_, _, rfl⟩ := List.mem_map.mp hc
      exact decide_eq_true h
  · rw [if_neg h, List.filter_eq_nil_iff.mpr, List.map_nil]
    intro c hc
    obtain ⟨_, _, rfl⟩ := List.mem_map.mp hc
    exact fun e => h (of_decide_eq_true e)

theorem valuesOf_issuedClaims_userData :
    valuesOf (issuedClaims jti userName userId roles) ClaimTypes.userData = [userId] := by
  unfold issuedClaims
  rw [valuesOf, List.filter_append, List.map_append]
  show _ ++ valuesOf _ _ = _
  rw [valuesOf_map_role, if_neg (by decide), List.append_nil]
  rfl

theorem valuesOf_issuedClaims_role :
    valuesOf (issuedClaims jti userName userId roles) ClaimTypes.role = roles := by
  unfold issuedClaims
  rw [valuesOf, List.filter_append, List.map_append]
  show _ ++ valuesOf _ _ = _
  rw [valuesOf_map_role, if_pos rfl]
  rfl

theorem type_mem_of_mem_issuedClaims {c : Claim}
    (h : c ∈ issuedClaims jti userName userId roles) :
    c.type ∈ [JwtRegisteredClaimNames.jti, ClaimTypes.name, ClaimTypes.nameIdentifier] ∨
      c.type = ClaimTypes.userData ∨ c.type = ClaimTypes.role := by
  unfold issuedClaims at h
  rcases List.mem_append.mp h with h | h
  · simp only [List.mem_cons, List.not_mem_nil, or_false] at h
    rcases h with rfl | rfl | rfl | rfl
    · exact Or.inl (by simp)
    · exact Or.inl (by simp)
    · exact Or.inl (by simp)
    · exact Or.inr (Or.inl rfl)
  · obtain ⟨_, _, rfl⟩ := List.mem_map.mp h
    exact Or.inr (Or.inr rfl)

variable (hR : handler.ReadsBack (issuedToken options jti now userName userId roles))
  (hw : handler.writeToken (issuedToken options jti now userName userId roles) = some t)

include hR hw

theorem read_issued : ∃ token, handler.readJwtToken t = some token ∧
    valuesOf token.claims ClaimTypes.userData = [userId] ∧
    valuesOf token.claims ClaimTypes.role = roles := by
  obtain ⟨token, hread⟩ := hR.readable _ hw
  refine ⟨token, hread, ?_, ?_⟩
  · rw [hR.keeps _ _ hw hread _ (by decide)]
    exact valuesOf_issuedClaims_userData
  · rw [hR.keeps _ _ hw hread _ (by decide)]
    exact valuesOf_issuedClaims_role

theorem mqtt_identity_of_issued :
    getUserIdAndRolesFromToken handler (some t) = .ok (some userId, roles) := by
  obtain ⟨token, hread, hid, hroles⟩ := read_issued hR hw
  unfold getUserIdAndRolesFromToken
  dsimp only
  rw [hread]
  dsimp only
  rw [firstValue_eq_head?, hid, hroles]
  rfl

/-- The HTTP path reads the id and the roles off every principal made of the token. -/
theorem bearer_identity_of_issued (hM : handler.MapsClaims) {p : TokenValidationParameters}
    {at' : DateTime} {principal : List Claim} (hp : handler.validateToken p at' t = some principal) :
    getId principal = some userId ∧ getRoles principal = roles := by
  obtain ⟨token, hread, hid, hroles⟩ := read_issued hR hw
  obtain ⟨token', hread', rfl⟩ := hM.principal _ _ _ _ hp
  obtain rfl : token = token' := Option.some.inj (hread.symm.trans hread')
  have hkeep : ∀ type ∈ [ClaimTypes.userData, ClaimTypes.role], ∀ c ∈ token.claims,
      handler.inboundClaimType c.type = type ↔ c.type = type := by
    intro type htype c hc
    obtain ⟨hsame, hother⟩ := hM.inbound type htype
    constructor
    · intro h
      by_contra hne
      rcases hR.adds _ _ hw hread c hc with hmem | hmem
      · rcases type_mem_of_mem_issuedClaims hmem with hmem | hmem | hmem
        · refine hother c.type ?_ h
          simp only [List.mem_cons, List.not_mem_nil, or_false] at hmem ⊢
          tauto
        · have := (hM.inbound ClaimTypes.userData (by simp)).1
          rw [hmem] at h hne
          exact hne (this.symm.trans h)
        · have := (hM.inbound ClaimTypes.role (by simp)).1
          rw [hmem] at h hne
          exact hne (this.symm.trans h)
      · refine hother c.type ?_ h
        simp only [List.mem_cons, List.not_mem_nil, or_false] at hmem ⊢
        tauto
    · intro h
      rw [h, hsame]
  constructor
  · unfold getId
    rw [firstValue_eq_head?, valuesOf_inboundClaims (hkeep _ (by simp)), hid]
    rfl
  · unfold getRoles
    rw [valuesOf_inboundClaims (hkeep _ (by simp)), hroles]

end Issued

theorem decided_of_lock {g : LockGrain} {l : LockEntity} (hl : g.lock = some l) (utcNow : DateTime)
    (req : AccessRequest) :
    (g.requestAccessAsync utcNow req).result = ⟨l.hasAccess req.requesterRoles⟩ ∧
      ∃ r, (g.requestAccessAsync utcNow req).grain.lockAccesses = g.lockAccesses ++ [r] ∧
        r.requesterId = req.requesterId := by
  have hresult := g.requestAccessAsync_result utcNow req
  rw [hl] at hresult
  refine ⟨congrArg LockAccessResultDto.mk hresult, LockAccessHistoryEntity.create l.id
    req.requesterId (l.hasAccess req.requesterRoles) req.requestForEmployeeId utcNow, ?_, rfl⟩
  rw [LockGrain.requestAccessAsync_lockAccesses, g.record_of_some _ _ hl, Option.toList_some]

/-- **Login to door.** A token is handed out only to a user who exists and whose password is
right. Both entry points read the id and the roles of that user off it. At every lock both reach
one decision, which is a grant exactly when one of the roles is the name of a role of the lock, and
leave a record with the user as requester. -/
theorem login_to_door {handler : JwtSecurityTokenHandler} (hM : handler.MapsClaims)
    {options : JwtOptions} {userManager : UserManager} {jti : Guid} {now : DateTime}
    {username password : String} {dto : JwtTokenDto}
    (hR : ∀ user userName, userManager.findByNameAsync username = some user →
      user.userName = some userName → handler.ReadsBack
        (issuedToken options jti now userName user.id (userManager.getRolesAsync user)))
    (h : getJwtTokenAsync handler options userManager jti now username password = .ok dto) :
    ∃ user, userManager.findByNameAsync username = some user ∧
      userManager.checkPasswordAsync user password = true ∧
      let roles := userManager.getRolesAsync user
      (∀ at' principal,
        handler.validateToken (addJwtAuthentication options) at' dto.token = some principal →
        getId principal = some user.id ∧ getRoles principal = roles) ∧
      getUserIdAndRolesFromToken handler (some dto.token) = .ok (some user.id, roles) ∧
      ∀ (l : LockEntity) (g : LockGrain) (utcNow : DateTime), g.lock = some l →
        let mqtt := g.requestAccessAsync utcNow ⟨some user.id, roles, none⟩
        (mqtt.result.accessResult = .granted ↔
          ∃ name ∈ roles, ∃ r ∈ l.rolesAccesses, r.name = some name) ∧
        (∃ r, mqtt.grain.lockAccesses = g.lockAccesses ++ [r] ∧ r.requesterId = some user.id) ∧
        ∀ (at' : DateTime) (principal : List Claim) (body : LockAccessRequest),
          handler.validateToken (addJwtAuthentication options) at' dto.token = some principal →
          let http := g.requestAccessAsync utcNow
            ⟨getId principal, getRoles principal, body.employeeId⟩
          http.result = mqtt.result ∧
          ∃ r, http.grain.lockAccesses = g.lockAccesses ++ [r] ∧ r.requesterId = some user.id := by
  obtain ⟨user, hfind, hpw, hgen⟩ := getJwtTokenAsync_eq_ok.mp h
  obtain ⟨userName, hname, hw⟩ := generateJwtToken_eq_some.mp hgen
  have hread := hR user userName hfind hname
  refine ⟨user, hfind, hpw, ?_⟩
  intro roles
  have hbearer : ∀ at' principal,
      handler.validateToken (addJwtAuthentication options) at' dto.token = some principal →
      getId principal = some user.id ∧ getRoles principal = roles :=
    fun at' principal hp => bearer_identity_of_issued hread hw hM hp
  refine ⟨hbearer, mqtt_identity_of_issued hread hw, ?_⟩
  intro l g utcNow hl mqtt
  obtain ⟨hresult, hrecord⟩ := decided_of_lock hl utcNow ⟨some user.id, roles, none⟩
  refine ⟨?_, hrecord, ?_⟩
  · rw [show mqtt.result = _ from hresult, LockEntity.hasAccess_eq_granted]
    constructor
    · rintro ⟨r, hr, name, hmem, e⟩
      exact ⟨name, hmem, r, hr, e⟩
    · rintro ⟨name, hmem, r, hr, e⟩
      exact ⟨r, hr, name, hmem, e⟩
  · intro at' principal body hp http
    obtain ⟨hid, hroles⟩ := hbearer at' principal hp
    obtain ⟨hresult', r, hr, hrequester⟩ := decided_of_lock hl utcNow
      ⟨getId principal, getRoles principal, body.employeeId⟩
    refine ⟨?_, r, hr, hrequester.trans hid⟩
    rw [show http.result = _ from hresult', show mqtt.result = _ from hresult, hroles]

/-! ## The manager's login -/

/-- The manager with both default roles, as the only user. -/
def managerStore : UserManager where
  findByNameAsync username :=
    if username = DefaultData.managerEmail then
      some ⟨DefaultData.managerId, some DefaultData.managerEmail, none, "John", "Doe"⟩
    else none
  checkPasswordAsync _ password := password = "UserPassword"
  getRolesAsync _ := [DefaultData.managerRoleName, DefaultData.employeeRoleName]

/-- Half a day after the login the manager opens the entrance, over MQTT and, for the employee, over
HTTP. -/
theorem login_to_door_manager :
    let later := loginTime + ticksPerDay / 2
    let g : LockGrain := ⟨some DefaultData.entranceLock, []⟩
    ∃ principal id roles,
      managerHandler.validateToken (addJwtAuthentication developmentOptions) later managerToken =
        some principal ∧
      id = some DefaultData.managerId ∧
      roles = [DefaultData.managerRoleName, DefaultData.employeeRoleName] ∧
      getId principal = id ∧ getRoles principal = roles ∧
      getUserIdAndRolesFromToken managerHandler (some managerToken) = .ok (id, roles) ∧
      let mqtt := g.requestAccessAsync later ⟨id, roles, none⟩
      let http := g.requestAccessAsync later
        ⟨getId principal, getRoles principal, some DefaultData.employeeId⟩
      mqtt.result = ⟨.granted⟩ ∧ http.result = ⟨.granted⟩ ∧
        ∃ r, http.grain.lockAccesses = [r] ∧ r.requesterId = id := by
  intro later g
  have hlogin : getJwtTokenAsync managerHandler developmentOptions managerStore managerJti loginTime
      DefaultData.managerEmail "UserPassword" = .ok ⟨managerToken⟩ :=
    getJwtTokenAsync_eq_ok.mpr ⟨⟨DefaultData.managerId, some DefaultData.managerEmail, none, "John",
      "Doe"⟩, rfl, rfl, managerHandler_writeToken.mpr ⟨rfl, rfl⟩⟩
  obtain ⟨user, hfind, -, hbearer, hmqtt, hlock⟩ := login_to_door managerHandler_mapsClaims
    (fun _ _ _ _ => managerHandler_readsBack _) hlogin
  obtain rfl : _ = user := Option.some.inj hfind
  have hlater : later ≤ 638189619190000000 + clockSkew := by decide
  obtain ⟨principal, hp⟩ := managerHandler_accepts hlater
  obtain ⟨hid, hroles⟩ := hbearer later principal hp
  obtain ⟨hgranted, -, hhttp⟩ := hlock DefaultData.entranceLock g later rfl
  have hgrant := hgranted.mpr ⟨DefaultData.managerRoleName, by decide, DefaultData.managerRole,
    by decide, rfl⟩
  obtain ⟨hsame, r, hr, hrequester⟩ :=
    hhttp later principal ⟨some DefaultData.employeeId⟩ hp
  have hresult := congrArg LockAccessResultDto.mk hgrant
  exact ⟨principal, _, _, hp, rfl, rfl, hid, hroles, hmqtt, hresult, hsame.trans hresult, r, hr,
    hrequester⟩

end SmartLock
