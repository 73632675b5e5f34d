import Mathlib.Data.List.DropRight
import SmartLock.Data.DefaultData
import SmartLock.DotNet.Guid

/-!
# The database

The tables of `SmartLockDbContext` that the grains and their records touch, as the migration
declares them. The server compares strings up to a `Collation`; keys are unique, references hold
and `ON DELETE` actions run up to it too. `SaveChangesAsync` on a batch of history records is one
transaction: it stores every row, or throws and stores none.
-/

namespace SmartLock

/-! ## Collations -/

/-- How the server compares strings: two are equal when they have the same spelling. The text of
a Guid in lower case is its own spelling. -/
structure Collation where
  spelling : String → String
  spelling_of_canonical : ∀ s : String, (∀ c ∈ s.toList, Guid.isCanonical c = true) →
    spelling s = s

namespace Collation

/-- Equality of the server. -/
def same (c : Collation) (a b : String) : Bool := c.spelling a = c.spelling b

variable {c : Collation} {a b d : String}

theorem same_iff : c.same a b = true ↔ c.spelling a = c.spelling b := by
  unfold same
  exact decide_eq_true_iff

theorem spelling_toString (c : Collation) (g : Guid) : c.spelling g.toString = g.toString :=
  c.spelling_of_canonical _ (Guid.canonical_toString g)

/-- The default collation of the server on ASCII text: letter case and trailing blanks are
ignored. -/
def sqlServerDefault : Collation where
  spelling s := String.ofList ((s.toList.map Char.toLower).rdropWhile (· = ' '))
  spelling_of_canonical s h := by
    have hmap : s.toList.map Char.toLower = s.toList := by
      rw [List.map_congr_left fun x hx => Guid.toLower_of_canonical (h x hx), List.map_id']
    have hdrop : s.toList.rdropWhile (· = ' ') = s.toList := by
      rw [List.rdropWhile_eq_self_iff]
      intro hne hblank
      have hcan := h _ (List.getLast_mem hne)
      rw [of_decide_eq_true hblank] at hcan
      exact absurd hcan (by decide)
    rw [hmap, hdrop, String.ofList_toList]

/-- The server equates no text of a Guid with the printed form of another Guid. -/
def GuidsApart (c : Collation) : Prop :=
  ∀ (s : String) (g g' : Guid), Guid.tryParse s = some g → c.spelling s = g'.toString → g = g'

/-- What is spelled like the printed form of a Guid is that form in another letter case, before
blanks, so `Guid.TryParse` gives the Guid back. -/
theorem tryParse_of_spelling {s : String} {g : Guid}
    (h : sqlServerDefault.spelling s = g.toString) : Guid.tryParse s = some g := by
  have hdrop : (s.toList.map Char.toLower).rdropWhile (· = ' ') = g.toString.toList := by
    rw [← h, sqlServerDefault, String.toList_ofList]
  have hsplit := List.rdropWhile_append_rtakeWhile (p := (· = ' ')) (l := s.toList.map Char.toLower)
  obtain ⟨t, blanks, hs, ht, hb⟩ := List.map_eq_append_iff.mp hsplit.symm
  refine Guid.tryParse_of_toLower hs (ht.trans hdrop) fun x hx => ?_
  have hlow : x.toLower = ' ' := by
    have hmem : x.toLower ∈ (s.toList.map Char.toLower).rtakeWhile (· = ' ') := by
      rw [← hb]
      exact List.mem_map_of_mem hx
    simpa using List.mem_rtakeWhile_imp hmem
  rw [Hex.eq_of_toLower (by decide) hlow]
  rfl

theorem sqlServerDefault_guidsApart : sqlServerDefault.GuidsApart := by
  intro s g g' hg hs
  rw [tryParse_of_spelling hs] at hg
  exact (Option.some.inj hg).symm

end Collation

/-! ## Tables -/

/-- A row of `Locks`. -/
structure LockRow where
  id : String
  name : String
  deriving DecidableEq, Repr

/-- A row of `LockEntityRoleEntity`, the link between a lock and a role. -/
structure LockRole where
  locksId : String
  rolesAccessesId : String
  deriving DecidableEq, Repr

/-- A row of `AspNetUserRoles`. -/
structure UserRoleEntity where
  userId : String
  roleId : String
  deriving DecidableEq, Repr

/-- The tables. -/
structure SmartLockDb where
  users : List UserEntity
  roles : List RoleEntity
  userRoles : List UserRoleEntity
  locks : List LockRow
  lockRoles : List LockRole
  lockAccesses : List LockAccessHistoryEntity
  deriving DecidableEq, Repr

namespace SmartLockDb

variable (c : Collation) (db : SmartLockDb)

def hasUser (id : String) : Bool := db.users.any fun u => c.same u.id id
def hasRole (id : String) : Bool := db.roles.any fun r => c.same r.id id
def hasLock (id : String) : Bool := db.locks.any fun l => c.same l.id id

/-- The roles that the links of a lock name. -/
def rolesAccesses (lockId : String) : List RoleEntity :=
  (db.lockRoles.filter fun link => c.same link.locksId lockId).flatMap fun link =>
    db.roles.filter fun r => c.same r.id link.rolesAccessesId

/-- The query of `OnActivateAsync`: the lock whose id equals the key, with its roles. -/
def findLock (key : String) : Option LockEntity :=
  (db.locks.find? fun l => c.same l.id key).map fun l => ⟨l.id, l.name, db.rolesAccesses c l.id⟩

/-- The constraints on a row of `LockAccesses`: `RequesterId` is not null, and every id names an
existing row. -/
def satisfiesConstraints (r : LockAccessHistoryEntity) : Bool :=
  db.hasLock c r.lockId &&
    (match r.requesterId with
    | none => false
    | some id => db.hasUser c id) &&
    match r.requestForEmployeeId with
    | none => true
    | some id => db.hasUser c id

/-- `SaveChangesAsync` after `LockAccesses.AddRange(batch)`, when the database is reachable. -/
def saveChangesAsync (batch : List LockAccessHistoryEntity) : Option SmartLockDb :=
  if batch.all (db.satisfiesConstraints c) then
    some { db with lockAccesses := db.lockAccesses ++ batch }
  else none

end SmartLockDb

/-! ## Other changes -/

/-- The committed changes of the other tables, by the Identity pages, by an instance that seeds or
by hand: users, roles and locks are created and deleted, users and roles are renamed, and locks are
linked to roles and unlinked. The roles of a user are left out: no modelled query reads them. -/
inductive DbChange
  | linkRole (lockId roleId : String)
  | unlinkRole (lockId roleId : String)
  | createRole (row : RoleEntity)
  | deleteRole (roleId : String)
  | renameRole (roleId : String) (name normalizedName : Option String)
  | createLock (row : LockRow)
  | deleteLock (lockId : String)
  | createUser (row : UserEntity)
  | deleteUser (userId : String)
  | renameUser (userId : String) (userName normalizedUserName : Option String)
      (firstName lastName : String)
  deriving DecidableEq, Repr

/-- The tables after a change, or nothing when a constraint refuses it. -/
def DbChange.apply (c : Collation) (db : SmartLockDb) : DbChange → Option SmartLockDb
  | .linkRole lockId roleId =>
    if db.hasLock c lockId ∧ db.hasRole c roleId ∧
        ¬ db.lockRoles.any fun l => c.same l.locksId lockId && c.same l.rolesAccessesId roleId then
      some { db with lockRoles := db.lockRoles ++ [⟨lockId, roleId⟩] }
    else none
  | .unlinkRole lockId roleId =>
    some { db with
      lockRoles := db.lockRoles.filter fun l =>
        !(c.same l.locksId lockId && c.same l.rolesAccessesId roleId) }
  | .createRole row =>
    -- `RoleNameIndex` is unique where the normalized name is not null
    if db.hasRole c row.id ∨ row.normalizedName.any fun n => db.roles.any fun r =>
        r.normalizedName.any (c.same n) then none
    else some { db with roles := db.roles ++ [row] }
  | .deleteRole roleId =>
    -- both references to a role cascade
    some { db with
      roles := db.roles.filter fun r => !c.same r.id roleId
      userRoles := db.userRoles.filter fun u => !c.same u.roleId roleId
      lockRoles := db.lockRoles.filter fun l => !c.same l.rolesAccessesId roleId }
  | .renameRole roleId name normalizedName =>
    if normalizedName.any fun n => db.roles.any fun r =>
        !c.same r.id roleId && r.normalizedName.any (c.same n) then none
    else
      some { db with
        roles := db.roles.map fun r =>
          if c.same r.id roleId then { r with name := name, normalizedName := normalizedName }
          else r }
  | .createLock row =>
    if db.hasLock c row.id then none else some { db with locks := db.locks ++ [row] }
  | .deleteLock lockId =>
    some { db with
      locks := db.locks.filter fun l => !c.same l.id lockId
      lockRoles := db.lockRoles.filter fun l => !c.same l.locksId lockId
      lockAccesses := db.lockAccesses.filter fun r => !c.same r.lockId lockId }
  | .createUser row =>
    -- and so is `UserNameIndex`
    if db.hasUser c row.id ∨ row.normalizedUserName.any fun n => db.users.any fun u =>
        u.normalizedUserName.any (c.same n) then none
    else some { db with users := db.users ++ [row] }
  | .deleteUser userId =>
    -- `RequesterId` cascades; `RequestForEmployeeId` then has to name no deleted user
    let lockAccesses := db.lockAccesses.filter fun r => !r.requesterId.any (c.same userId)
    if lockAccesses.any fun r => r.requestForEmployeeId.any (c.same userId) then none
    else
      some { db with
        users := db.users.filter fun u => !c.same u.id userId
        userRoles := db.userRoles.filter fun u => !c.same u.userId userId
        lockAccesses := lockAccesses }
  | .renameUser userId userName normalizedUserName firstName lastName =>
    if normalizedUserName.any fun n => db.users.any fun u =>
        !c.same u.id userId && u.normalizedUserName.any (c.same n) then none
    else
      some { db with
        users := db.users.map fun u =>
          if c.same u.id userId then
            { u with
              userName := userName
              normalizedUserName := normalizedUserName
              firstName := firstName
              lastName := lastName }
          else u }

/-! ## What the queries and the save do -/

namespace SmartLockDb

variable {c : Collation} {db db' : SmartLockDb}

theorem spelling_of_findLock {key : String} {l : LockEntity} (h : db.findLock c key = some l) :
    c.spelling l.id = c.spelling key := by
  unfold findLock at h
  obtain ⟨row, hrow, rfl⟩ := Option.map_eq_some_iff.mp h
  have hsame := List.find?_some hrow
  exact Collation.same_iff.mp hsame

theorem saveChangesAsync_eq_some {batch : List LockAccessHistoryEntity} :
    db.saveChangesAsync c batch = some db' ↔
      (∀ r ∈ batch, db.satisfiesConstraints c r = true) ∧
        db' = { db with lockAccesses := db.lockAccesses ++ batch } := by
  unfold saveChangesAsync
  rw [Option.ite_none_right_eq_some, List.all_eq_true, Option.some.injEq, eq_comm (b := db')]

end SmartLockDb

namespace DefaultData

/-- The tables after `DbDataSeeder` has run on empty ones. -/
def seededDb : SmartLockDb where
  users := [⟨managerId, some managerEmail, some "MANAGER@COMPANY.COM", "John", "Doe"⟩,
    ⟨employeeId, some employeeEmail, some "EMPLOYEE@COMPANY.COM", "Jill", "Doe"⟩]
  roles := [managerRole, employeeRole]
  userRoles := [⟨managerId, managerRoleId⟩, ⟨employeeId, employeeRoleId⟩]
  locks := [⟨entranceLockId, "Entrance Lock"⟩, ⟨storageLockId, "Storage Room"⟩]
  lockRoles := [⟨entranceLockId, managerRoleId⟩, ⟨entranceLockId, employeeRoleId⟩,
    ⟨storageLockId, managerRoleId⟩]
  lockAccesses := []

example : seededDb.findLock Collation.sqlServerDefault entranceLockId = some entranceLock := by
  decide +kernel

end DefaultData

end SmartLock
