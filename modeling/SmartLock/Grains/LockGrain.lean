import Mathlib.Data.List.Basic
import SmartLock.Domain

/-!
# The lock grain

`LockGrain.cs`, method by method. `requestAccessAsync` is the whole of `RequestAccessAsync`, which
runs in one turn: the grain after the call, the answer, and the arguments of the `SendMessageAsync`
call that it starts. `SaveLockAccessAsync` awaits the database, so it is two turns: `saveBatch` is
what it hands to the context before the await, `removeSaved` what it does after it.
-/

namespace SmartLock

/-- The fields of a grain. -/
structure LockGrain where
  lock : Option LockEntity
  lockAccesses : List LockAccessHistoryEntity
  deriving DecidableEq, Repr

/-- A call of `SendMessageAsync`. -/
structure LockMessage where
  topic : String
  message : LockAccessResultDto
  deriving DecidableEq, Repr

/-- What one call of `RequestAccessAsync` leaves behind. -/
structure RequestOutcome where
  grain : LockGrain
  result : LockAccessResultDto
  sent : Option LockMessage

/-- `_lock.RolesAccesses.Any(r => requesterRoles.Contains(r.Name))`. -/
def LockEntity.admits (l : LockEntity) (requesterRoles : List String) : Bool :=
  l.rolesAccesses.any fun r =>
    match r.name with
    | some name => requesterRoles.contains name
    | none => false

/-- The value of `hasAccess`. -/
def LockEntity.hasAccess (l : LockEntity) (requesterRoles : List String) : LockAccessResult :=
  if l.admits requesterRoles then .granted else .denied

theorem LockEntity.hasAccess_eq_granted {l : LockEntity} {roles : List String} :
    l.hasAccess roles = .granted ↔ ∃ r ∈ l.rolesAccesses, ∃ name ∈ roles, r.name = some name := by
  unfold LockEntity.hasAccess
  have hany : l.admits roles = true ↔
      ∃ r ∈ l.rolesAccesses, ∃ name ∈ roles, r.name = some name := by
    unfold LockEntity.admits
    rw [List.any_eq_true]
    refine exists_congr fun r => and_congr_right fun _ => ?_
    cases r.name with
    | none => simp
    | some name => simp
  rw [← hany]
  split_ifs with h
  · exact ⟨fun _ => h, fun _ => rfl⟩
  · exact ⟨fun e => (by cases e), fun e => absurd e h⟩

namespace LockGrain

/-- `OnActivateAsync`, given the row that the query found. -/
def onActivateAsync (row : Option LockEntity) : LockGrain := ⟨row, []⟩

/-- `RequestAccessAsync`. A grain without a lock denies and leaves no trace. -/
def requestAccessAsync (g : LockGrain) (utcNow : DateTime) (req : AccessRequest) :
    RequestOutcome :=
  match g.lock with
  | none => ⟨g, ⟨.denied⟩, none⟩
  | some l =>
    let hasAccess := l.hasAccess req.requesterRoles
    let record := LockAccessHistoryEntity.create l.id req.requesterId hasAccess
      req.requestForEmployeeId utcNow
    ⟨{ g with lockAccesses := g.lockAccesses ++ [record] }, ⟨hasAccess⟩, some ⟨l.id, ⟨hasAccess⟩⟩⟩

/-- The first half of `SaveLockAccessAsync`: nothing to do on an empty list, else the count that is
kept across the await and the records given to `AddRange`. -/
def saveBatch (g : LockGrain) : Option (ℕ × List LockAccessHistoryEntity) :=
  if g.lockAccesses.length = 0 then none
  else
    let count := g.lockAccesses.length
    some (count, g.lockAccesses.take count)

end LockGrain

/-- `List<T>.RemoveRange`, which throws when the range does not fit the list. -/
def removeRange {α : Type} (xs : List α) (index count : ℕ) : Option (List α) :=
  if index + count ≤ xs.length then some (xs.take index ++ xs.drop (index + count)) else none

namespace LockGrain

/-- The second half of `SaveLockAccessAsync`, after `SaveChangesAsync` has returned. -/
def removeSaved (g : LockGrain) (count : ℕ) : Option LockGrain :=
  (removeRange g.lockAccesses 0 count).map fun rest => { g with lockAccesses := rest }

end LockGrain

theorem removeRange_zero {α : Type} (xs : List α) (count : ℕ) :
    removeRange xs 0 count = if count ≤ xs.length then some (xs.drop count) else none := by
  unfold removeRange
  rw [Nat.zero_add, List.take_zero, List.nil_append]

/-! ## What one request does -/

namespace LockGrain

/-- The record that a request leaves in the list, if it leaves one. -/
def record (g : LockGrain) (utcNow : DateTime) (req : AccessRequest) :
    Option LockAccessHistoryEntity :=
  g.lock.map fun l => LockAccessHistoryEntity.create l.id req.requesterId
    (l.hasAccess req.requesterRoles) req.requestForEmployeeId utcNow

variable (g : LockGrain) (utcNow : DateTime) (req : AccessRequest)

@[simp] theorem requestAccessAsync_lock :
    (g.requestAccessAsync utcNow req).grain.lock = g.lock := by
  unfold requestAccessAsync
  cases h : g.lock with
  | none => exact h
  | some l => rfl

theorem requestAccessAsync_lockAccesses :
    (g.requestAccessAsync utcNow req).grain.lockAccesses =
      g.lockAccesses ++ (g.record utcNow req).toList := by
  unfold requestAccessAsync record
  cases g.lock with
  | none => exact (List.append_nil _).symm
  | some l => rfl

theorem record_of_some {l : LockEntity} (h : g.lock = some l) :
    g.record utcNow req = some (LockAccessHistoryEntity.create l.id req.requesterId
      (l.hasAccess req.requesterRoles) req.requestForEmployeeId utcNow) := by
  unfold record
  rw [h]
  rfl

theorem requestAccessAsync_of_none (h : g.lock = none) :
    g.requestAccessAsync utcNow req = ⟨g, ⟨.denied⟩, none⟩ := by
  unfold requestAccessAsync
  rw [h]

/-- The answer, the record and the message of one decision carry the same result, and the message
goes to the topic of the lock. -/
theorem requestAccessAsync_of_some {l : LockEntity} (h : g.lock = some l) :
    ∃ r, g.record utcNow req = some r ∧ r.lockId = l.id ∧
      r.accessResult = (g.requestAccessAsync utcNow req).result.accessResult ∧
      (g.requestAccessAsync utcNow req).sent =
        some ⟨l.id, (g.requestAccessAsync utcNow req).result⟩ := by
  refine ⟨_, g.record_of_some utcNow req h, rfl, ?_, ?_⟩
  · unfold requestAccessAsync
    rw [h]
    rfl
  · unfold requestAccessAsync
    rw [h]

theorem requestAccessAsync_result :
    (g.requestAccessAsync utcNow req).result.accessResult =
      match g.lock with
      | none => .denied
      | some l => l.hasAccess req.requesterRoles := by
  unfold requestAccessAsync
  cases g.lock <;> rfl

/-- The answer and the message depend on nothing of a grain but its lock, and not on the clock. -/
theorem requestAccessAsync_congr {g g' : LockGrain} (h : g.lock = g'.lock)
    (utcNow utcNow' : DateTime) (req : AccessRequest) :
    (g.requestAccessAsync utcNow req).result = (g'.requestAccessAsync utcNow' req).result ∧
      (g.requestAccessAsync utcNow req).sent = (g'.requestAccessAsync utcNow' req).sent := by
  unfold requestAccessAsync
  rw [h]
  cases g'.lock <;> exact ⟨rfl, rfl⟩

end LockGrain

end SmartLock
