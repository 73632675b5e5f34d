import SmartLock.DotNet.Text
import SmartLock.Jwt.JwtToken
import SmartLock.Services.LockService

/-!
# The HTTP entry point

`PostAccessAsync` and `GetHistoryAsync` of `LocksController.cs`, as they run for a validated
principal, with the model validation of `LockAccessRequest` and the extensions of `ClaimsPrincipal`.
-/

namespace SmartLock

/-- A call of `RequestAccessAsync` on its way to the grain with the given key. -/
structure GrainCall where
  key : String
  request : AccessRequest
  deriving DecidableEq, Repr

/-- The body of a post. -/
structure LockAccessRequest where
  employeeId : Option String
  deriving DecidableEq, Repr

/-- `[Required]`: not null, and not blank. -/
def required (s : Option String) : Bool := !isNullOrWhiteSpace s

/-- `[MaxLength(n)]`. -/
def maxLength (n : ℕ) : Option String → Bool
  | none => true
  | some s => utf16Length s ≤ n

/-- `ModelState.IsValid`: the annotations of the body, and the route value, which is required
because its type is not nullable. -/
def modelStateIsValid (id : String) (r : LockAccessRequest) : Bool :=
  required (some id) && required r.employeeId && maxLength 64 r.employeeId

/-- `ClaimsPrincipalExtensions.GetId`. -/
def getId (user : List Claim) : Option String := firstValue user ClaimTypes.userData

/-- `ClaimsPrincipalExtensions.GetRoles`. -/
def getRoles (user : List Claim) : List String := valuesOf user ClaimTypes.role

/-- `PostAccessAsync`: the grain call, or a validation problem. The route value is the grain key
as it stands. -/
def postAccessAsync (id : String) (user : List Claim) (request : LockAccessRequest) :
    Option GrainCall :=
  if modelStateIsValid id request then some ⟨id, getId user, getRoles user, request.employeeId⟩
  else none

/-- `page` as `GetHistoryAsync` uses it. -/
def normalPage (page : Int32) : Int32 := if page < 1 then 1 else page

/-- `size` as `GetHistoryAsync` uses it. -/
def normalSize (size : Int32) : Int32 := if size < 10 ∨ 100 < size then 10 else size

/-- `GetHistoryAsync`, or nothing when the query fails. A blank route value is left out: the
framework answers it before the action. -/
def getHistoryAsync (c : Collation) (db : SmartLockDb) (scan : Enumeration) (id : String)
    (page size : Int32) : Option (List LockAccessHistoryDto) :=
  getLockAccessesAsync c db scan id (normalPage page) (normalSize size)

end SmartLock
