import SmartLock.Cluster.AuditTrail
import SmartLock.Data.Constraints

/-!
# What happens to stored rows

The application writes `LockAccesses` by the saves of its grains and by deletions of user accounts.
A save only appends. A deletion takes the rows of the deleted requester with it, since `RequesterId`
cascades, and it is refused where another requester's row names the user as the employee
(`kept_but_requesters`). `deletion_wipes` is a deletion that empties the history.
-/

namespace SmartLock

/-- What the application does to the history: saves, and deletions of user accounts. -/
def SiloEvent.ofApplication : SiloEvent → Bool
  | .change (.deleteUser _) => true
  | .change _ => false
  | _ => true

/-- The event deletes the requester of the row. -/
def SiloEvent.deletesRequester (c : Collation) (e : SiloEvent) (r : LockAccessHistoryEntity) :
    Bool :=
  match e with
  | .change (.deleteUser userId) => r.requesterId.any (c.same userId)
  | _ => false

namespace SmartLockDb

variable {c : Collation} {db : SmartLockDb} {userId : String}

/-- A row of another requester names the user as the employee. -/
def NamedByOthers (c : Collation) (db : SmartLockDb) (userId : String) : Prop :=
  ∃ r ∈ db.lockAccesses, r.requesterId.any (c.same userId) = false ∧
    r.requestForEmployeeId.any (c.same userId) = true

theorem deleteUser_eq_none :
    (DbChange.deleteUser userId).apply c db = none ↔ db.NamedByOthers c userId := by
  unfold DbChange.apply NamedByOthers
  dsimp only
  rw [ite_eq_left_iff]
  simp only [reduceCtorEq, imp_false, not_not, List.any_eq_true, List.mem_filter,
    Bool.not_eq_eq_eq_not, Bool.not_true, and_assoc]

theorem deleteUser_lockAccesses {db' : SmartLockDb}
    (h : (DbChange.deleteUser userId).apply c db = some db') :
    db'.lockAccesses = db.lockAccesses.filter fun r => !r.requesterId.any (c.same userId) := by
  unfold DbChange.apply at h
  dsimp only at h
  rw [Option.ite_none_left_eq_some] at h
  rw [← Option.some.inj h.2]

end SmartLockDb

namespace Silo

variable {c : Collation} {s s' : Silo}

/-! ## The constraints -/

theorem consistent_commitBatch {db db' : SmartLockDb} (h : db.Consistent c)
    {batch : Option (List LockAccessHistoryEntity)} (hb : commitBatch c db batch = some db') :
    db'.Consistent c := by
  cases batch with
  | none =>
    cases hb
    exact h
  | some batch => exact h.save hb

theorem consistent_step {e : SiloEvent} (hs : s.db.Consistent c) (h : s.step c e = some s') :
    s'.db.Consistent c := by
  cases e with
  | activate key =>
    obtain ⟨g, -, rfl⟩ := activate_eq_some h
    exact hs
  | handle utcNow call =>
    obtain ⟨a, g, -, -, rfl⟩ := handle_eq_some h
    exact hs
  | timer | late | deactivate =>
    obtain ⟨g, db, -, hdb, rfl⟩ := turn_eq_some h
    exact consistent_commitBatch hs hdb
  | change ch =>
    obtain ⟨db, hdb, rfl⟩ := change_eq_some h
    exact hs.change hdb

/-- The declared constraints hold in every state of every run from tables where they hold. -/
theorem run_consistent {es : List SiloEvent} (hs : s.db.Consistent c)
    (h : (silo c).run s es = some s') : s'.db.Consistent c :=
  Machine.run_invariant (I := fun s : Silo => s.db.Consistent c)
    (fun _ _ _ hs hstep => consistent_step hs hstep) hs h

/-! ## The stored rows -/

/-- **What one operation does to the stored rows.** It keeps those whose requester it does not
delete, and appends the batch that it saves. -/
theorem step_lockAccesses {e : SiloEvent} (he : e.ofApplication = true)
    (h : s.step c e = some s') : s'.db.lockAccesses =
      (s.db.lockAccesses.filter fun r => !e.deletesRequester c r) ++
        ((s.saved e).map Prod.snd).toList.flatten := by
  have hkeep : ∀ rows : List LockAccessHistoryEntity, (rows.filter fun _ => !false) = rows :=
    fun rows => List.filter_eq_self.mpr fun _ _ => rfl
  cases e with
  | change ch =>
    cases ch with
    | deleteUser userId =>
      obtain ⟨db, hdb, rfl⟩ := change_eq_some h
      rw [SmartLockDb.deleteUser_lockAccesses hdb]
      exact (List.append_nil _).symm
    | linkRole | unlinkRole | createRole | deleteRole | renameRole | createLock | deleteLock
    | createUser | renameUser => cases he
  | activate | handle | timer | late | deactivate =>
    rw [step_db h rfl]
    unfold SiloEvent.deletesRequester
    rw [hkeep]

theorem run_lockAccesses {es : List SiloEvent} (hes : ∀ e ∈ es, e.ofApplication = true)
    (h : (silo c).run s es = some s') :
    (s.db.lockAccesses.filter fun r => es.all fun e => !e.deletesRequester c r) <+:
      s'.db.lockAccesses := by
  induction es generalizing s with
  | nil =>
    cases h
    simp
  | cons e es ih =>
    obtain ⟨m, hm, hrun⟩ := (silo c).run_cons_eq_some.mp h
    have hrest := ih (fun e' he' => hes e' (List.mem_cons_of_mem _ he')) hrun
    rw [step_lockAccesses (hes e List.mem_cons_self) hm, List.filter_append,
      List.filter_filter] at hrest
    refine List.IsPrefix.trans ?_ hrest
    simp only [List.all_cons, Bool.and_comm]
    exact List.prefix_append _ _

/-- **The stored rows.** In every run of the application, a stored row stays as it is and in its
place until its requester is deleted. The next operation, if it succeeds, keeps every row but those
of the requester that it deletes, and appends what it saves; a deletion is refused exactly when the
row of another requester names the user as the employee. -/
theorem kept_but_requesters {db : SmartLockDb} {es : List SiloEvent}
    (hes : ∀ e ∈ es, e.ofApplication = true) (h : (silo c).run (init db) es = some s) :
    (db.lockAccesses.filter fun r => es.all fun e => !e.deletesRequester c r) <+:
      s.db.lockAccesses ∧
    (∀ e s', e.ofApplication = true → (silo c).step s e = some s' → s'.db.lockAccesses =
      (s.db.lockAccesses.filter fun r => !e.deletesRequester c r) ++
        ((s.saved e).map Prod.snd).toList.flatten) ∧
    ∀ userId, (silo c).step s (.change (.deleteUser userId)) = none ↔
      s.db.NamedByOthers c userId := by
  refine ⟨run_lockAccesses hes h, fun e s' he hstep => step_lockAccesses he hstep, ?_⟩
  intro userId
  rw [← SmartLockDb.deleteUser_eq_none]
  show (((DbChange.deleteUser userId).apply c s.db).bind fun db => some { s with db := db }) =
    none ↔ _
  cases (DbChange.deleteUser userId).apply c s.db <;> simp

/-! ## At the entrance -/

/-- The manager and the employee each open the entrance for themselves. -/
def bothRecords : List LockAccessHistoryEntity := [
  .create DefaultData.entranceLockId (some DefaultData.managerId) .granted
    (some DefaultData.managerId) 1,
  Cluster.employeeRecord]

theorem kept_but_requesters_manager :
    let db : SmartLockDb := { DefaultData.seededDb with lockAccesses := bothRecords }
    let e : SiloEvent := .change (.deleteUser DefaultData.managerId)
    ∃ s, (silo .sqlServerDefault).run (init db) [e] = some s ∧
      [Cluster.employeeRecord] <+: s.db.lockAccesses := by
  intro db e
  obtain ⟨s, hs, -⟩ : ∃ s, (silo .sqlServerDefault).run (init db) [e] = some s ∧
      s.db.users.length = 1 :=
    Machine.exists_run_of_any (by decide +kernel)
  refine ⟨s, hs, ?_⟩
  have hkept := (kept_but_requesters (by decide) hs).1
  rw [show (db.lockAccesses.filter fun r => [e].all fun e => !e.deletesRequester
    .sqlServerDefault r) = [Cluster.employeeRecord] by decide +kernel] at hkept
  exact hkept

/-- The employee opens the entrance, the record is stored, and the employee deletes the account:
the deletion succeeds and the row is gone. -/
theorem deletion_wipes :
    let key := DefaultData.entranceLockId
    ∃ s, (silo .sqlServerDefault).run (init DefaultData.seededDb) [.activate key,
        .handle 2 (Cluster.employeeCall key), .timer key .tick, .timer key .commit] = some s ∧
      s.db.lockAccesses = [Cluster.employeeRecord] ∧
      ((silo .sqlServerDefault).step s (.change (.deleteUser DefaultData.employeeId))).any
        (fun t => t.db.lockAccesses = []) = true :=
  Machine.exists_run_of_any (by decide +kernel)

end Silo

end SmartLock
