import SmartLock.Cluster.ServedHistory
import SmartLock.WebApi.TokenLifetime
import SmartLock.WebApi.UsersController

/-!
# The service behind its API

The token endpoint and the bearer validation in front of the posts. `Authorize` on
`ApiControllerBase` lets a post through to its action when the token validates and the package
`DynamicAuthorization` permits it; its answer is part of the event. The state keeps the tokens that
were handed out. Under the assumption that only they carry a valid signature, every decision
answers a publish, or a post that a login came before (`decision_of_login`).
-/

namespace SmartLock

/-- The service with the tokens that its endpoint has handed out. -/
structure Api where
  cluster : Cluster
  tokens : List String

/-- `token` is a request to the token endpoint at a local time, with the users and their passwords
of the moment; `access` a post to a lock at a time of UTC, with the token of its `Authorization`
header. -/
inductive ApiEvent
  | token (userManager : UserManager) (jti : Guid) (now : DateTime) (path : String)
      (request : TokenRequest)
  | access (utcNow : DateTime) (bearer : String) (permitted : Bool) (id : String)
      (request : LockAccessRequest)
  | service (e : ClusterEvent)

namespace Api

variable (handler : JwtSecurityTokenHandler) (options : JwtOptions) (c : Collation)

def init (db : SmartLockDb) : Api := ⟨Cluster.init db, []⟩

/-- The token in the response to an event. -/
def handedOut : ApiEvent → Option String
  | .token userManager jti now path request =>
    match (tokenResponse handler options userManager jti now path request).body with
    | .token dto => some dto.token
    | .validationProblem | .problem _ => none
  | .access _ _ _ _ _ | .service _ => none

/-- The event of the service behind an event of the API. -/
def serviceEvent : ApiEvent → Option ClusterEvent
  | .token _ _ _ _ _ => none
  | .access utcNow bearer permitted id request =>
    if permitted then
      (handler.validateToken (addJwtAuthentication options) utcNow bearer).map fun user =>
        .post id user request
    else none
  | .service e => some e

/-- A post reaches the service with a validated principal only. -/
def bypasses : ApiEvent → Bool
  | .service (.post _ _ _) => true
  | _ => false

/-- The service after the event that passed, if one did. -/
def clusterAfter (s : Api) : Option ClusterEvent → Option Cluster
  | some e => s.cluster.step handler c e
  | none => some s.cluster

def step (s : Api) (e : ApiEvent) : Option Api :=
  if bypasses e then none
  else (s.clusterAfter handler c (serviceEvent handler options e)).map fun cluster =>
    ⟨cluster, s.tokens ++ (handedOut handler options e).toList⟩

end Api

/-- The service behind its API as a machine. -/
def api (handler : JwtSecurityTokenHandler) (options : JwtOptions) (c : Collation) :
    Machine Api ApiEvent :=
  ⟨Api.step handler options c⟩

namespace Api

variable {handler : JwtSecurityTokenHandler} {options : JwtOptions} {c : Collation} {s s' : Api}
  {db : SmartLockDb} {es : List ApiEvent}

theorem step_eq_some {e : ApiEvent} (h : s.step handler options c e = some s') :
    bypasses e = false ∧
    s.clusterAfter handler c (serviceEvent handler options e) = some s'.cluster ∧
    s'.tokens = s.tokens ++ (handedOut handler options e).toList := by
  unfold step at h
  rw [Option.ite_none_left_eq_some] at h
  obtain ⟨hbypass, h⟩ := h
  obtain ⟨cluster, hcluster, rfl⟩ := Option.map_eq_some_iff.mp h
  exact ⟨Bool.not_eq_true _ ▸ hbypass, hcluster, rfl⟩

theorem projects_cluster : Machine.Projects (api handler options c) (SmartLock.cluster handler c)
    (fun _ _ => True) Api.cluster (serviceEvent handler options) := by
  rintro s e s' - (h : s.step handler options c e = some s')
  obtain ⟨-, hcluster, -⟩ := step_eq_some h
  cases he : serviceEvent handler options e with
  | none =>
    rw [he] at hcluster
    exact (Option.some.inj hcluster).symm
  | some e' =>
    rw [he] at hcluster
    exact hcluster

theorem run_cluster (h : (api handler options c).run s es = some s') :
    (SmartLock.cluster handler c).run s.cluster (es.filterMap (serviceEvent handler options)) =
      some s'.cluster :=
  Machine.run_project projects_cluster (Machine.along_of_forall fun _ _ _ => trivial) h

/-! ## The logins -/

/-- The event is a login: its user has the name and the password of the request, and `t` is the
token issued for that user's roles. -/
def Login (handler : JwtSecurityTokenHandler) (options : JwtOptions) (e : ApiEvent)
    (user : UserEntity) (roles : List String) (now : DateTime) (t : String) : Prop :=
  ∃ userManager jti path request userName, e = .token userManager jti now path request ∧
    Authenticates userManager request user ∧ userManager.getRolesAsync user = roles ∧
    user.userName = some userName ∧
    handler.writeToken (issuedToken options jti now userName user.id roles) = some t

theorem exists_login {e : ApiEvent} {t : String} (h : handedOut handler options e = some t) :
    ∃ user roles now, Login handler options e user roles now t := by
  cases e with
  | access | service => cases h
  | token userManager jti now path request =>
    cases hbody : (tokenResponse handler options userManager jti now path request).body with
    | validationProblem | problem => simp only [handedOut, hbody, reduceCtorEq] at h
    | token dto =>
      simp only [handedOut, hbody] at h
      obtain rfl : dto.token = t := Option.some.inj h
      obtain ⟨user, huser, hbuild⟩ := exists_authenticates hbody
      obtain ⟨userName, hname, hwrite⟩ := generateJwtToken_eq_some.mp hbuild
      exact ⟨user, _, now, userManager, jti, path, request, userName, rfl, huser, rfl, hname,
        hwrite⟩

/-- The signatures cannot be forged: when a post comes with a token that verifies with the secret
key, the endpoint has handed that token out. -/
def Unforged (handler : JwtSecurityTokenHandler) (options : JwtOptions) (s : Api) : ApiEvent → Prop
  | .access _ bearer _ _ _ =>
    handler.validSignature options.secretKey bearer = true → bearer ∈ s.tokens
  | .token _ _ _ _ _ | .service _ => True

/-- The token of a login is read back, and expires as asked on a date that it can carry. -/
def Kept (handler : JwtSecurityTokenHandler) (options : JwtOptions)
    (toUniversalTime : DateTime → DateTime) : ApiEvent → Prop
  | .token userManager jti now _ request =>
    ∀ user userName, Authenticates userManager request user → user.userName = some userName →
      let d := issuedToken options jti now userName user.id (userManager.getRolesAsync user)
      Datable (toUniversalTime (now + options.expireDays * ticksPerDay)) ∧
        handler.ReadsBack d ∧ handler.Stamps toUniversalTime d
  | .access _ _ _ _ _ | .service _ => True

variable {toUniversalTime : DateTime → DateTime}

theorem exists_login_of_validateToken (hV : handler.Enforces) (hM : handler.MapsClaims)
    (hlife : options.validateLifetime = true)
    (hkept : ∀ e ∈ es, Kept handler options toUniversalTime e)
    (h : (api handler options c).run (init db) es = some s) {at' : DateTime} {bearer id : String}
    {permitted : Bool} {request : LockAccessRequest} {principal : List Claim}
    (hunforged : Unforged handler options s (.access at' bearer permitted id request))
    (hvalid : handler.validateToken (addJwtAuthentication options) at' bearer = some principal) :
    ∃ login ∈ es, ∃ user roles now, Login handler options login user roles now bearer ∧
      at' ≤ toUniversalTime (now + options.expireDays * ticksPerDay) + clockSkew ∧
      getId principal = some user.id ∧ getRoles principal = roles := by
  have haccepted : (handler.validateToken (addJwtAuthentication options) at' bearer).isSome := by
    rw [hvalid]
    rfl
  obtain ⟨token, -, htrusted⟩ := (hV _ _ _).mp haccepted
  have hlog : ∀ s e s', (api handler options c).step s e = some s' →
      s'.tokens = s.tokens ++ (handedOut handler options e).toList :=
    fun _ _ _ hstep => (step_eq_some hstep).2.2
  obtain hnil | ⟨pre, login, post, _, rfl, -, hgain⟩ :=
    Machine.mem_history hlog h (hunforged htrusted.signature)
  · cases hnil
  · have hmem : login ∈ pre ++ login :: post := by simp
    obtain ⟨user, roles, now, hlogin⟩ := exists_login hgain
    have hlogin' := hlogin
    obtain ⟨_, jti, _, _, userName, rfl, huser, rfl, hname, hwrite⟩ := hlogin'
    obtain ⟨hdate, hR, hS⟩ := hkept _ hmem user userName huser hname
    exact ⟨_, hmem, user, _, now, hlogin,
      le_of_validateToken_issued hV hS hwrite hdate hlife haccepted,
      bearer_identity_of_issued hR hwrite hM hvalid⟩

instance (s : Api) (e : ApiEvent) : Decidable (Unforged handler options s e) :=
  match e with
  | .access _ bearer _ _ _ =>
    inferInstanceAs (Decidable (handler.validSignature options.secretKey bearer = true →
      bearer ∈ s.tokens))
  | .token _ _ _ _ _ => inferInstanceAs (Decidable True)
  | .service _ => inferInstanceAs (Decidable True)

/-- **No decision without a login.** With the lifetime check on, and as long as nobody forges a
signature: a decision of a run answers the publish of a client, or a permitted post with a token
that a login before the post was handed out, and that expired in UTC at most five minutes before it.
Then the decision is about the user of the login, with the roles of that moment, and it is a grant
only if one of them is the name of a role of the lock. -/
theorem decision_of_login (hV : handler.Enforces) (hM : handler.MapsClaims)
    (hlife : options.validateLifetime = true)
    (hkept : ∀ e ∈ es, Kept handler options toUniversalTime e)
    (hunforged : (api handler options c).Along (Unforged handler options) (init db) es)
    (h : (api handler options c).run (init db) es = some s) {d : Decision}
    (hd : d ∈ s.cluster.silo.decisions) :
    (∃ session topic payload, .service (.publish session topic payload) ∈ es ∧
      Cluster.made handler (.publish session topic payload) = some d.call) ∨
    ∃ pre at' bearer id request post login user roles now,
      es = pre ++ .access at' bearer true id request :: post ∧ login ∈ pre ∧
      Login handler options login user roles now bearer ∧
      at' ≤ toUniversalTime (now + options.expireDays * ticksPerDay) + clockSkew ∧
      d.call = ⟨id, some user.id, roles, request.employeeId⟩ ∧
      (d.outcome.result = ⟨.granted⟩ → ∃ l name, d.before.lock = some l ∧ name ∈ roles ∧
        ∃ r ∈ l.rolesAccesses, r.name = some name) := by
  have hrun : (SmartLock.cluster handler c).run (Cluster.init db)
    (es.filterMap (serviceEvent handler options)) = some s.cluster := run_cluster h
  obtain ⟨e', he', hmade⟩ := Cluster.made_of_decision hrun hd
  obtain ⟨e, he, hevent⟩ := List.mem_filterMap.mp he'
  obtain ⟨pre, post, rfl⟩ := List.append_of_mem he
  obtain ⟨m, hpre, hrest⟩ := (api handler options c).run_append_eq_some.mp h
  obtain ⟨t, hstep, -⟩ := (api handler options c).run_cons_eq_some.mp hrest
  obtain ⟨hbypass, -, -⟩ := step_eq_some (show m.step handler options c e = some t from hstep)
  cases e with
  | token userManager jti now path request => cases hevent
  | service e =>
    obtain rfl : e = e' := Option.some.inj hevent
    cases e with
    | publish session topic payload => exact Or.inl ⟨session, topic, payload, he, hmade⟩
    | post id user request => cases hbypass
    | connect | inject | sendFault | silo => cases hmade
  | access at' bearer permitted id request =>
    right
    simp only [serviceEvent, Option.ite_none_right_eq_some] at hevent
    obtain ⟨rfl, hevent⟩ := hevent
    obtain ⟨principal, hvalid, rfl⟩ := Option.map_eq_some_iff.mp hevent
    obtain ⟨login, hmem, user, roles, now, hlogin, hat, hid, rfl⟩ :=
      exists_login_of_validateToken hV hM hlife (fun e he => hkept e (List.mem_append_left _ he)) hpre
        (Machine.along_of_append hunforged hpre).1 hvalid
    have hcall : d.call = ⟨id, some user.id, getRoles principal, request.employeeId⟩ := by
      simp only [Cluster.made, postAccessAsync, Option.ite_none_right_eq_some] at hmade
      rw [← Option.some.inj hmade.2, hid]
    refine ⟨pre, at', bearer, id, request, post, login, user, _, now, rfl, hmem, hlogin, hat, hcall,
      fun hgranted => ?_⟩
    have hanswer : d.outcome.result.accessResult = .granted := congrArg _ hgranted
    rw [Decision.outcome, requestAccessAsync_granted] at hanswer
    obtain ⟨l, hl, r, hr, name, hname, hrole⟩ := hanswer
    have hroles : d.request.requesterRoles = getRoles principal :=
      congrArg (fun call => call.request.requesterRoles) hcall
    rw [hroles] at hname
    exact ⟨l, name, hl, hname, r, hr, hrole⟩

/-- The manager logs in, and a minute later opens the entrance for the employee. -/
theorem decision_of_login_manager :
    let key := DefaultData.entranceLockId
    let login : ApiEvent := .token managerStore managerJti loginTime "/api/v1/users/token"
      ⟨some DefaultData.managerEmail, some "UserPassword"⟩
    let call : GrainCall := ⟨key, some DefaultData.managerId,
      [DefaultData.managerRoleName, DefaultData.employeeRoleName], some DefaultData.employeeId⟩
    let es : List ApiEvent := [login, .access (loginTime + 60 * ticksPerSecond) managerToken true
      key ⟨some DefaultData.employeeId⟩, .service (.silo (.activate key)),
      .service (.silo (.handle 1 call))]
    ∃ s : Api, ∃ d ∈ s.cluster.silo.decisions,
      (api managerHandler developmentOptions .sqlServerDefault).run (init DefaultData.seededDb) es =
        some s ∧
      ∃ event ∈ es, ∃ user roles now bearer,
        Login managerHandler developmentOptions event user roles now bearer ∧
        user.id = DefaultData.managerId ∧ d.outcome.result = ⟨.granted⟩ := by
  intro key login call es
  obtain ⟨s, hs, d, hd, hcall, hgranted⟩ : ∃ s, (api managerHandler developmentOptions
      .sqlServerDefault).run (init DefaultData.seededDb) es = some s ∧
      ∃ d ∈ s.cluster.silo.decisions, d.call = call ∧ d.outcome.result = ⟨.granted⟩ :=
    Machine.exists_run_of_any (by decide +kernel)
  have hunforged : (api managerHandler developmentOptions .sqlServerDefault).Along
      (Unforged managerHandler developmentOptions) (init DefaultData.seededDb) es := by
    decide +kernel
  have hkept : ∀ e ∈ es, Kept managerHandler developmentOptions id e := by
    simp only [es, List.forall_mem_cons, List.not_mem_nil, false_implies, implies_true, and_true]
    exact ⟨fun _ _ _ _ => ⟨by decide, managerHandler_readsBack _, managerHandler_stamps _⟩,
      trivial, trivial, trivial⟩
  obtain ⟨_, _, _, hpublish, -⟩ | ⟨pre, _, bearer, _, _, _, event, user, roles, now, hes, hevent,
      hissued, -, hcall', -⟩ :=
    decision_of_login managerHandler_enforces managerHandler_mapsClaims rfl hkept hunforged hs hd
  · exact absurd hpublish (by simp [es, login])
  · have hid : d.call.request.requesterId = some DefaultData.managerId := by rw [hcall]
    rw [hcall'] at hid
    exact ⟨s, d, hd, hs, event, hes ▸ List.mem_append_left _ hevent, user, roles, now, bearer,
      hissued, Option.some.inj hid, hgranted⟩

end Api

end SmartLock
