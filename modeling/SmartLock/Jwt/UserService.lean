import SmartLock.Jwt.JwtToken

/-!
# Login

`UserService.cs`. The user manager of ASP.NET Identity is a parameter: the lookup by name, the
password check and the role names of a user.
-/

namespace SmartLock

/-- What `UserService` asks of `UserManager<UserEntity>`. -/
structure UserManager where
  findByNameAsync : String → Option UserEntity
  checkPasswordAsync : UserEntity → String → Bool
  getRolesAsync : UserEntity → List String

/-- How `GetJwtTokenAsync` fails: by a `DomainException`, or by an exception of the generator. -/
inductive LoginException
  | domain (message : String)
  | tokenGeneration
  deriving DecidableEq, Repr

structure JwtTokenDto where
  token : String
  deriving DecidableEq, Repr

/-- `GetJwtTokenAsync`, with the new token id and the clock as arguments. -/
def getJwtTokenAsync (handler : JwtSecurityTokenHandler) (options : JwtOptions)
    (userManager : UserManager) (jti : Guid) (now : DateTime) (username password : String) :
    Except LoginException JwtTokenDto :=
  match userManager.findByNameAsync username with
  | none => .error (.domain "Invalid username or password.")
  | some user =>
    if userManager.checkPasswordAsync user password then
      match generateJwtToken handler options jti now user.userName user.id
          (userManager.getRolesAsync user) with
      | some token => .ok ⟨token⟩
      | none => .error .tokenGeneration
    else .error (.domain "Invalid username or password.")

/-- A token is handed out only to a user who exists and whose password is right, and it is the
token generated for that user's name, id and roles. -/
theorem getJwtTokenAsync_eq_ok {handler : JwtSecurityTokenHandler} {options : JwtOptions}
    {userManager : UserManager} {jti : Guid} {now : DateTime} {username password : String}
    {dto : JwtTokenDto} :
    getJwtTokenAsync handler options userManager jti now username password = .ok dto ↔
      ∃ user, userManager.findByNameAsync username = some user ∧
        userManager.checkPasswordAsync user password = true ∧
        generateJwtToken handler options jti now user.userName user.id
          (userManager.getRolesAsync user) = some dto.token := by
  unfold getJwtTokenAsync
  cases userManager.findByNameAsync username with
  | none => simp
  | some user =>
    by_cases hp : userManager.checkPasswordAsync user password = true
    · cases hg : generateJwtToken handler options jti now user.userName user.id
          (userManager.getRolesAsync user) with
      | none => simp [hp, hg]
      | some token =>
        obtain ⟨token'⟩ := dto
        simp [hp, hg]
    · simp [hp]

end SmartLock
