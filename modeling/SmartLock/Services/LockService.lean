import SmartLock.Data.Database

/-!
# Reading the history

`GetLockAccessesAsync` of `LockService.cs`. The query has no `ORDER BY`, so each run of it reads
the matching rows in an order that the server chooses, an `Enumeration`. `Skip` and `Take` cut that
order before the names of the users are joined.
-/

namespace SmartLock

/-- The order in which one run of a query reads the rows that match. -/
structure Enumeration where
  order : List LockAccessHistoryEntity → List LockAccessHistoryEntity
  perm : ∀ rows, (order rows).Perm rows

namespace Enumeration

/-- The order of the table. -/
def asStored : Enumeration := ⟨id, List.Perm.refl⟩

/-- Reads the rows `rows` in the order `rows'`. -/
def reading (rows rows' : List LockAccessHistoryEntity) (h : rows'.Perm rows) : Enumeration where
  order xs := if xs = rows then rows' else xs
  perm xs := by
    split_ifs with hxs
    · rw [hxs]
      exact h
    · exact List.Perm.refl xs

@[simp] theorem reading_order {rows rows' : List LockAccessHistoryEntity}
    (h : rows'.Perm rows) : (reading rows rows' h).order rows = rows' := if_pos rfl

end Enumeration

/-- `$"{u.FirstName} {u.LastName}"`. -/
def UserEntity.fullName (u : UserEntity) : String := u.firstName ++ " " ++ u.lastName

namespace SmartLockDb

variable (c : Collation) (db : SmartLockDb)

/-- The user that a reference names. -/
def findUser (id : String) : Option UserEntity := db.users.find? fun u => c.same u.id id

/-- `Where(l => l.LockId == lockId)`. -/
def accessesOf (lockId : String) : List LockAccessHistoryEntity :=
  db.lockAccesses.filter fun l => c.same l.lockId lockId

/-- The `Select`. A row whose requester is missing is dropped by the join; the employee may be
missing. -/
def historyDto (l : LockAccessHistoryEntity) : Option LockAccessHistoryDto :=
  (l.requesterId.bind (db.findUser c)).map fun requester => {
    accessDate := l.accessDate
    accessResult := l.accessResult
    requesterName := requester.fullName
    requestForEmployeeName :=
      (l.requestForEmployeeId.bind (db.findUser c)).map UserEntity.fullName }

end SmartLockDb

/-- The argument of `Skip`, in the arithmetic of `int`. -/
def skipCount (page count : Int32) : Int32 := (page - 1) * count

/-- `OFFSET offset ROWS FETCH NEXT fetch ROWS ONLY`, an error for a negative offset and for a fetch
of no rows. -/
def offsetFetch {α : Type} (rows : List α) (offset fetch : Int32) : Option (List α) :=
  if offset < 0 ∨ fetch < 1 then none
  else some ((rows.drop offset.toInt.toNat).take fetch.toInt.toNat)

/-- `GetLockAccessesAsync`, or nothing when the query fails. -/
def getLockAccessesAsync (c : Collation) (db : SmartLockDb) (scan : Enumeration) (lockId : String)
    (page count : Int32) : Option (List LockAccessHistoryDto) :=
  (offsetFetch (scan.order (db.accessesOf c lockId)) (skipCount page count) count).map
    (List.filterMap (db.historyDto c))

end SmartLock
