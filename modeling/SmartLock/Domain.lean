import Mathlib.Data.Nat.Notation

/-!
# Entities and messages of the domain

The classes of `SmartLock.Domain` with the fields that the modelled code reads. A nullable string
is an `Option`. `DateTime` counts ticks of 100 ns.
-/

namespace SmartLock

/-- A point in time, in ticks. -/
abbrev DateTime := ℕ

/-- The enumeration `LockAccessResult : byte`. -/
inductive LockAccessResult
  | granted
  | denied
  deriving DecidableEq, Repr

/-- A row of `AspNetUsers`. -/
structure UserEntity where
  id : String
  userName : Option String
  normalizedUserName : Option String
  firstName : String
  lastName : String
  deriving DecidableEq, Repr

/-- A row of `AspNetRoles`; both names are nullable columns. -/
structure RoleEntity where
  id : String
  name : Option String
  normalizedName : Option String
  deriving DecidableEq, Repr

/-- A lock together with the roles that its links name, as the grain loads it. -/
structure LockEntity where
  id : String
  name : String
  rolesAccesses : List RoleEntity
  deriving DecidableEq, Repr

/-- A history record. The generated key `Id` is left out: no modelled function reads it. -/
structure LockAccessHistoryEntity where
  accessDate : DateTime
  accessResult : LockAccessResult
  lockId : String
  requesterId : Option String
  requestForEmployeeId : Option String
  deriving DecidableEq, Repr

/-- `LockAccessHistoryEntity.Create`, with the clock as its last argument. -/
def LockAccessHistoryEntity.create (lockId : String) (requesterId : Option String)
    (accessResult : LockAccessResult) (requestForEmployeeId : Option String) (utcNow : DateTime) :
    LockAccessHistoryEntity where
  accessDate := utcNow
  accessResult := accessResult
  lockId := lockId
  requesterId := requesterId
  requestForEmployeeId := requestForEmployeeId

/-- The record without its access time. -/
def LockAccessHistoryEntity.undated (r : LockAccessHistoryEntity) : LockAccessHistoryEntity :=
  { r with accessDate := 0 }

/-- The answer to an access request, which is also the message sent to the lock. -/
structure LockAccessResultDto where
  accessResult : LockAccessResult
  deriving DecidableEq, Repr

/-- An entry of the access history. -/
structure LockAccessHistoryDto where
  accessDate : DateTime
  accessResult : LockAccessResult
  requesterName : String
  requestForEmployeeName : Option String
  deriving DecidableEq, Repr

/-- The arguments of `RequestAccessAsync`. -/
structure AccessRequest where
  requesterId : Option String
  requesterRoles : List String
  requestForEmployeeId : Option String
  deriving DecidableEq, Repr

end SmartLock
