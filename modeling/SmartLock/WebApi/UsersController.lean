import SmartLock.WebApi.LoginToDoor

/-!
# The token endpoint

`GetTokenAsync` of `UsersController.cs` behind `ApiExceptionHandlingMiddleware.cs`: the validation
of the body, the login, and what the middleware writes for its exceptions. `token_response` says
when each status is sent, and that every refused login gets the same response.
-/

namespace SmartLock

/-- The body of a token request. -/
structure TokenRequest where
  username : Option String
  password : Option String
  deriving DecidableEq, Repr

/-- `ModelState.IsValid` for a token request. -/
def TokenRequest.isValid (r : TokenRequest) : Bool :=
  required r.username && maxLength 128 r.username && required r.password &&
    maxLength 128 r.password

/-- `GetTokenAsync`: the token, or nothing for a validation problem. -/
def getTokenAsync (handler : JwtSecurityTokenHandler) (options : JwtOptions)
    (userManager : UserManager) (jti : Guid) (now : DateTime) (request : TokenRequest) :
    Except LoginException (Option JwtTokenDto) :=
  match request.username, request.password with
  | some username, some password =>
    if request.isValid then
      (getJwtTokenAsync handler options userManager jti now username password).map some
    else .ok none
  | _, _ => .ok none

/-! ## The middleware -/

/-- `ProblemDetails`, and `ValidationProblemDetails` with its errors. -/
structure ProblemDetails where
  type : String
  title : String
  status : ℕ
  path : String
  detail : Option String
  errors : List (String × List String)
  deriving DecidableEq, Repr

/-- What is written to a response. The problem of an invalid body is the framework's own. -/
inductive ResponseBody
  | token (dto : JwtTokenDto)
  | validationProblem
  | problem (details : ProblemDetails)
  deriving DecidableEq, Repr

structure HttpResponse where
  statusCode : ℕ
  body : ResponseBody
  deriving DecidableEq, Repr

/-- `HandleExceptionAsync`, for a request to `path`. -/
def handleExceptionAsync (path : String) : LoginException → HttpResponse
  | .domain message => ⟨400, .problem {
      type := "https://tools.ietf.org/html/rfc7231#section-6.5.1"
      title := "One or more validation errors occurred."
      status := 400
      path := path
      detail := none
      errors := [("validation", [message])] }⟩
  | .tokenGeneration => ⟨500, .problem {
      type := "https://tools.ietf.org/html/rfc7231#section-6.6.1"
      title := "Internal Server Error."
      status := 500
      path := path
      detail := some "Internal server error occurred!"
      errors := [] }⟩

/-- `Invoke`: no exception leaves the middleware. -/
def invoke (path : String) (next : Except LoginException HttpResponse) : HttpResponse :=
  match next with
  | .ok response => response
  | .error ex => handleExceptionAsync path ex

/-- The result of the action as MVC writes it. -/
def actionResult : Option JwtTokenDto → HttpResponse
  | some dto => ⟨200, .token dto⟩
  | none => ⟨400, .validationProblem⟩

/-- The response to a token request. -/
def tokenResponse (handler : JwtSecurityTokenHandler) (options : JwtOptions)
    (userManager : UserManager) (jti : Guid) (now : DateTime) (path : String)
    (request : TokenRequest) : HttpResponse :=
  invoke path ((getTokenAsync handler options userManager jti now request).map actionResult)

/-- The response to a login that is refused. -/
def refusal (path : String) : HttpResponse :=
  handleExceptionAsync path (.domain "Invalid username or password.")

/-! ## The responses -/

variable {handler : JwtSecurityTokenHandler} {options : JwtOptions} {userManager : UserManager}
  {jti : Guid} {now : DateTime} {path : String} {request : TokenRequest}

/-- The request names a user and has the password of that user. -/
def Authenticates (userManager : UserManager) (request : TokenRequest) (user : UserEntity) : Prop :=
  ∃ username password, request.username = some username ∧ request.password = some password ∧
    userManager.findByNameAsync username = some user ∧
    userManager.checkPasswordAsync user password = true

theorem Authenticates.unique {u v : UserEntity} (hu : Authenticates userManager request u)
    (hv : Authenticates userManager request v) : u = v := by
  obtain ⟨username, _, hname, -, hfind, -⟩ := hu
  obtain ⟨username', _, hname', -, hfind', -⟩ := hv
  obtain rfl : username = username' := Option.some.inj (hname.symm.trans hname')
  exact Option.some.inj (hfind.symm.trans hfind')

theorem tokenResponse_of_invalid (h : request.isValid = false) :
    tokenResponse handler options userManager jti now path request = ⟨400, .validationProblem⟩ := by
  have hnone : getTokenAsync handler options userManager jti now request = .ok none := by
    unfold getTokenAsync
    rw [h]
    cases request.username <;> cases request.password <;> rfl
  unfold tokenResponse
  rw [hnone]
  rfl

theorem TokenRequest.exists_of_isValid (h : request.isValid = true) : ∃ username password,
    request.username = some username ∧ request.password = some password := by
  unfold isValid required at h
  simp only [Bool.and_eq_true] at h
  cases hu : request.username with
  | none =>
    rw [hu] at h
    exact absurd h.1.1.1 (by decide)
  | some username =>
    cases hp : request.password with
    | none =>
      rw [hp] at h
      exact absurd h.1.2 (by decide)
    | some password => exact ⟨username, password, rfl, rfl⟩

theorem getTokenAsync_of_valid (h : request.isValid = true) {username password : String}
    (hu : request.username = some username) (hp : request.password = some password) :
    getTokenAsync handler options userManager jti now request =
      (getJwtTokenAsync handler options userManager jti now username password).map some := by
  unfold getTokenAsync
  rw [hu, hp]
  exact if_pos h

theorem tokenResponse_of_refused (h : request.isValid = true)
    (hnone : ∀ user, ¬ Authenticates userManager request user) :
    tokenResponse handler options userManager jti now path request = refusal path := by
  obtain ⟨username, password, hu, hp⟩ := TokenRequest.exists_of_isValid h
  unfold tokenResponse
  rw [getTokenAsync_of_valid h hu hp]
  unfold getJwtTokenAsync
  cases hfind : userManager.findByNameAsync username with
  | none => rfl
  | some user =>
    have hcheck : ¬ userManager.checkPasswordAsync user password = true :=
      fun hcheck => hnone user ⟨username, password, hu, hp, hfind, hcheck⟩
    dsimp only
    rw [if_neg hcheck]
    rfl

theorem tokenResponse_of_authenticates (h : request.isValid = true) {user : UserEntity}
    (huser : Authenticates userManager request user) :
    tokenResponse handler options userManager jti now path request =
      match generateJwtToken handler options jti now user.userName user.id
        (userManager.getRolesAsync user) with
      | some token => ⟨200, .token ⟨token⟩⟩
      | none => handleExceptionAsync path .tokenGeneration := by
  obtain ⟨username, password, hu, hp, hfind, hcheck⟩ := huser
  unfold tokenResponse
  rw [getTokenAsync_of_valid h hu hp]
  unfold getJwtTokenAsync
  rw [hfind]
  dsimp only
  rw [if_pos hcheck]
  cases generateJwtToken handler options jti now user.userName user.id
    (userManager.getRolesAsync user) <;> rfl

theorem exists_authenticates {dto : JwtTokenDto}
    (h : (tokenResponse handler options userManager jti now path request).body = .token dto) :
    ∃ user, Authenticates userManager request user ∧
      generateJwtToken handler options jti now user.userName user.id
        (userManager.getRolesAsync user) = some dto.token := by
  cases hvalid : request.isValid with
  | false =>
    rw [tokenResponse_of_invalid hvalid] at h
    cases h
  | true =>
    by_cases huser : ∃ user, Authenticates userManager request user
    · obtain ⟨user, huser⟩ := huser
      rw [tokenResponse_of_authenticates hvalid huser] at h
      cases hbuild : generateJwtToken handler options jti now user.userName user.id
          (userManager.getRolesAsync user) with
      | none =>
        rw [hbuild] at h
        cases h
      | some token =>
        rw [hbuild] at h
        obtain rfl : ⟨token⟩ = dto := ResponseBody.token.inj h
        exact ⟨user, huser, hbuild⟩
    · rw [tokenResponse_of_refused hvalid (not_exists.mp huser)] at h
      cases h

/-- **The responses of the token endpoint.** A body that breaks an annotation gets the problem of
the framework. A valid one gets a token exactly if it authenticates a user for whom a token can be
built; an internal error exactly if it does and none can be built; and in all other cases one and
the same refusal, whether the user exists or not. -/
theorem token_response (handler : JwtSecurityTokenHandler) (options : JwtOptions)
    (userManager : UserManager) (jti : Guid) (now : DateTime) (path : String)
    (request : TokenRequest) :
    let response := tokenResponse handler options userManager jti now path request
    let build (user : UserEntity) := generateJwtToken handler options jti now user.userName user.id
      (userManager.getRolesAsync user)
    (response = ⟨400, .validationProblem⟩ ↔ request.isValid = false) ∧
    (∀ dto, response = ⟨200, .token dto⟩ ↔ request.isValid = true ∧
      ∃ user, Authenticates userManager request user ∧ build user = some dto.token) ∧
    (response.statusCode = 500 ↔ request.isValid = true ∧
      ∃ user, Authenticates userManager request user ∧ build user = none) ∧
    (response = refusal path ↔ request.isValid = true ∧
      ∀ user, ¬ Authenticates userManager request user) := by
  intro response build
  cases hvalid : request.isValid with
  | false =>
    have hresponse : response = _ := tokenResponse_of_invalid hvalid
    simp [hresponse, refusal, handleExceptionAsync]
  | true =>
    by_cases huser : ∃ user, Authenticates userManager request user
    · obtain ⟨user, huser⟩ := huser
      have hresponse : response = _ := tokenResponse_of_authenticates hvalid huser
      have hex : ∀ p : UserEntity → Prop,
          (∃ v, Authenticates userManager request v ∧ p v) ↔ p user := by
        intro p
        constructor
        · rintro ⟨v, hv, hp⟩
          rwa [huser.unique hv]
        · exact fun hp => ⟨user, huser, hp⟩
      have hall : ¬ ∀ v, ¬ Authenticates userManager request v := fun h => h user huser
      cases hbuild : build user with
      | none =>
        have herror : response = handleExceptionAsync path .tokenGeneration := by
          rw [hresponse, show generateJwtToken handler options jti now user.userName user.id
            (userManager.getRolesAsync user) = none from hbuild]
        simp [herror, refusal, handleExceptionAsync, hex, hbuild, hall]
      | some token =>
        have hok : response = ⟨200, .token ⟨token⟩⟩ := by
          rw [hresponse, show generateJwtToken handler options jti now user.userName user.id
            (userManager.getRolesAsync user) = some token from hbuild]
        refine ⟨by simp [hok], fun dto => ?_, by simp [hok, hex, hbuild], ?_⟩
        · rw [hok, hex, hbuild]
          obtain ⟨token'⟩ := dto
          simp
        · simp [hok, refusal, handleExceptionAsync, hall]
    · have hnone := not_exists.mp huser
      have hresponse : response = refusal path := tokenResponse_of_refused hvalid hnone
      simp [hresponse, refusal, handleExceptionAsync, hnone]

end SmartLock
