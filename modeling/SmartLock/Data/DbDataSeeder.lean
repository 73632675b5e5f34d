import Mathlib.Logic.Function.Basic
import SmartLock.Data.Constraints
import SmartLock.Lib.Machine

/-!
# Seeding

`DbDataSeeder.cs`, run by every instance of the application when it starts. `SeedDbAsync` is two
steps on the shared tables: `AnyAsync` looks for a lock, and `SaveChangesAsync` inserts the default
rows in one transaction, which throws when a constraint refuses one of them. The steps of several
instances interleave.

`seeding_iff`: on tables without locks all goes well exactly when no default user or role is there
in part already, and the first instance inserts before any other looks.
-/

namespace SmartLock

namespace DbDataSeeder

/-- `AddLocks`: the entrance and the storage room. -/
def addLocks : LockRow × LockRow :=
  (⟨DefaultData.entranceLockId, "Entrance Lock"⟩, ⟨DefaultData.storageLockId, "Storage Room"⟩)

/-- `ToUpper`, on ASCII text. -/
def toUpper (s : String) : String := String.ofList (s.toList.map Char.toUpper)

/-- `AddUsers`: the manager and the employee. -/
def addUsers : UserEntity × UserEntity :=
  (⟨DefaultData.managerId, some DefaultData.managerEmail,
      some (toUpper DefaultData.managerEmail), "John", "Doe"⟩,
    ⟨DefaultData.employeeId, some DefaultData.employeeEmail,
      some (toUpper DefaultData.employeeEmail), "Jill", "Doe"⟩)

/-- `AddRoles`: the manager's and the employee's role, each with its `Locks`. -/
def addRoles (entranceLock storageLock : LockRow) :
    (RoleEntity × List LockRow) × (RoleEntity × List LockRow) :=
  ((⟨DefaultData.managerRoleId, some DefaultData.managerRoleName,
      some (toUpper DefaultData.managerRoleName)⟩, [entranceLock, storageLock]),
    (⟨DefaultData.employeeRoleId, some DefaultData.employeeRoleName,
      some (toUpper DefaultData.employeeRoleName)⟩, [entranceLock]))

/-- The rows that the context holds when `SeedDbAsync` saves it. A role in whose `Locks` a lock is
gives a row of the link table. -/
def added : SmartLockDb :=
  let (entranceLock, storageLock) := addLocks
  let (managerUser, employeeUser) := addUsers
  let (managerRole, employeeRole) := addRoles entranceLock storageLock
  { users := [managerUser, employeeUser]
    roles := [managerRole.1, employeeRole.1]
    userRoles := [⟨managerUser.id, managerRole.1.id⟩, ⟨employeeUser.id, employeeRole.1.id⟩]
    locks := [entranceLock, storageLock]
    lockRoles := [entranceLock, storageLock].flatMap fun l =>
      ([managerRole, employeeRole].filter fun r => r.2.contains l).map fun r => ⟨l.id, r.1.id⟩
    lockAccesses := [] }

theorem added_eq : added = DefaultData.seededDb := by decide +kernel

theorem added_consistent : added.Consistent .sqlServerDefault := by
  rw [added_eq]
  exact DefaultData.seededDb_consistent

/-- `Locks.AnyAsync`. -/
def anyAsync (db : SmartLockDb) : Bool := !db.locks.isEmpty

/-- `SaveChangesAsync`: all rows are inserted, or it throws and none is. -/
def saveChangesAsync (c : Collation) (db : SmartLockDb) : Option SmartLockDb :=
  if (db.append added).Consistent c then some (db.append added) else none

/-- `SeedDbAsync` of an instance that nobody disturbs, or nothing when it throws. -/
def seedDbAsync (c : Collation) (db : SmartLockDb) : Option SmartLockDb :=
  if anyAsync db then some db else saveChangesAsync c db

end DbDataSeeder

/-! ## Several instances -/

/-- How far an instance is in `SeedDbAsync`. -/
inductive SeederState
  | notStarted
  | saving
  | completed
  | faulted
  deriving DecidableEq, Repr

/-- The tables and the instances, named by `ι`. -/
structure Seeding (ι : Type) where
  db : SmartLockDb
  instances : ι → SeederState

inductive SeedEvent (ι : Type)
  | anyAsync (i : ι)
  | saveChangesAsync (i : ι)
  deriving DecidableEq, Repr

namespace Seeding

open DbDataSeeder

variable {ι : Type} [DecidableEq ι] {c : Collation}

/-- No instance has started. -/
def init (db : SmartLockDb) : Seeding ι := ⟨db, fun _ => .notStarted⟩

/-- The instance `i` moves to the state `x`. -/
def enter (s : Seeding ι) (i : ι) (x : SeederState) : Seeding ι :=
  { s with instances := Function.update s.instances i x }

/-- How far an instance is after its check: it returns if there is a lock. -/
def checked (db : SmartLockDb) : SeederState :=
  if DbDataSeeder.anyAsync db then .completed else .saving

def step (c : Collation) (s : Seeding ι) : SeedEvent ι → Option (Seeding ι)
  | .anyAsync i =>
    if s.instances i = .notStarted then some (s.enter i (checked s.db)) else none
  | .saveChangesAsync i =>
    if s.instances i = .saving then
      match DbDataSeeder.saveChangesAsync c s.db with
      | some db => some (enter { s with db := db } i .completed)
      | none => some (s.enter i .faulted)
    else none

/-- No instance is between its check and the end of its save. -/
def Finished (s : Seeding ι) : Prop := ∀ i, s.instances i ≠ .saving

end Seeding

/-- The instances as one machine. -/
def seeding {ι : Type} [DecidableEq ι] (c : Collation) : Machine (Seeding ι) (SeedEvent ι) :=
  ⟨Seeding.step c⟩

namespace Seeding

open DbDataSeeder

variable {ι : Type} [DecidableEq ι] {c : Collation} {s s' : Seeding ι} {db : SmartLockDb} {i : ι}

theorem checked_of_ne_nil (h : db.locks ≠ []) : checked db = .completed := by
  unfold checked
  rw [DbDataSeeder.anyAsync, List.isEmpty_eq_false_iff.mpr h]
  rfl

theorem checked_of_nil (h : db.locks = []) : checked db = .saving := by
  unfold checked
  rw [DbDataSeeder.anyAsync, h]
  rfl

@[simp] theorem enter_self (x : SeederState) : (s.enter i x).instances i = x := by
  simp only [enter, Function.update_self]

@[simp] theorem enter_of_ne {j : ι} (hne : j ≠ i) (x : SeederState) :
    (s.enter i x).instances j = s.instances j := by
  simp only [enter, Function.update_of_ne hne]

theorem step_cases {e : SeedEvent ι} (h : (seeding c).step s e = some s') :
    (∃ i, e = .anyAsync i ∧ s.instances i = .notStarted ∧ s' = s.enter i (checked s.db)) ∨
    (∃ i, e = .saveChangesAsync i ∧ s.instances i = .saving ∧ (s.db.append added).Consistent c ∧
      s' = enter { s with db := s.db.append added } i .completed) ∨
    ∃ i, e = .saveChangesAsync i ∧ s.instances i = .saving ∧ ¬ (s.db.append added).Consistent c ∧
      s' = s.enter i .faulted := by
  cases e with
  | anyAsync i =>
    simp only [seeding, step, Option.ite_none_right_eq_some, Option.some.injEq] at h
    exact Or.inl ⟨i, rfl, h.1, h.2.symm⟩
  | saveChangesAsync i =>
    simp only [seeding, step, Option.ite_none_right_eq_some] at h
    obtain ⟨hi, h⟩ := h
    refine Or.inr ?_
    by_cases hfits : (s.db.append added).Consistent c
    · rw [DbDataSeeder.saveChangesAsync, if_pos hfits] at h
      exact Or.inl ⟨i, rfl, hi, hfits, (Option.some.inj h).symm⟩
    · rw [DbDataSeeder.saveChangesAsync, if_neg hfits] at h
      exact Or.inr ⟨i, rfl, hi, hfits, (Option.some.inj h).symm⟩

/-! ## After a successful save -/

/-- There is a lock, and every instance that started has completed. -/
structure Settled (db : SmartLockDb) (s : Seeding ι) : Prop where
  rows : s.db = db
  locks : db.locks ≠ []
  instances : ∀ i, s.instances i = .notStarted ∨ s.instances i = .completed

omit [DecidableEq ι] in
theorem settled_init (h : db.locks ≠ []) : Settled db (init db : Seeding ι) where
  rows := rfl
  locks := h
  instances _ := Or.inl rfl

omit [DecidableEq ι] in
theorem Settled.not_saving (hs : Settled db s) : s.instances i ≠ .saving := by
  rcases hs.instances i with hi | hi <;> rw [hi] <;> nofun

theorem Settled.step (hs : Settled db s) {e : SeedEvent ι} (h : (seeding c).step s e = some s') :
    Settled db s' := by
  obtain ⟨i, -, -, rfl⟩ | ⟨i, -, hi, -, -⟩ | ⟨i, -, hi, -, -⟩ := step_cases h
  · refine ⟨hs.rows, hs.locks, fun j => ?_⟩
    by_cases hj : j = i
    · rw [hj, enter_self, hs.rows]
      exact Or.inr (checked_of_ne_nil hs.locks)
    · rw [enter_of_ne hj]
      exact hs.instances j
  · exact absurd hi hs.not_saving
  · exact absurd hi hs.not_saving

/-- Once the tables have a lock, seeding changes nothing and nobody faults. -/
theorem Settled.run (hs : Settled db s) {es : List (SeedEvent ι)}
    (h : (seeding c).run s es = some s') : s'.db = db ∧ ∀ i, s'.instances i ≠ .faulted := by
  have hend : Settled db s' := Machine.run_invariant (fun _ _ _ hs hstep => hs.step hstep) hs h
  refine ⟨hend.rows, fun i hi => ?_⟩
  rcases hend.instances i with hi' | hi' <;> rw [hi'] at hi <;> cases hi

/-! ## Two instances that both save -/

/-- The entrance lock is there. -/
def Seeded (c : Collation) (db : SmartLockDb) : Prop :=
  db.hasLock c DefaultData.entranceLockId = true

theorem seeded_append (db : SmartLockDb) : Seeded c (db.append added) := by
  refine SmartLockDb.hasLock_append.mpr (Or.inr ?_)
  exact List.any_eq_true.mpr ⟨addLocks.1, List.mem_cons_self, Collation.same_iff.mpr rfl⟩

theorem Seeded.refuses (h : Seeded c db) : ¬ (db.append added).Consistent c := by
  intro hfits
  obtain ⟨l, hl, hsame⟩ := List.any_eq_true.mp h
  have hcross := (List.pairwise_append.mp hfits.lockKeys).2.2 l hl addLocks.1 List.mem_cons_self
  rw [show addLocks.1.id = DefaultData.entranceLockId from rfl, hsame] at hcross
  cases hcross

/-- Some instance has faulted, or one of those that save will. -/
inductive Doomed (c : Collation) (s : Seeding ι) : Prop
  | faulted (i : ι) (hi : s.instances i = .faulted)
  | two (i j : ι) (hne : i ≠ j) (hi : s.instances i = .saving) (hj : s.instances j = .saving)
  | late (i : ι) (hi : s.instances i = .saving) (hdb : Seeded c s.db)

theorem Doomed.step (hs : Doomed c s) {e : SeedEvent ι} (h : (seeding c).step s e = some s') :
    Doomed c s' := by
  obtain ⟨i, -, hi, rfl⟩ | ⟨i, -, hi, hfits, rfl⟩ | ⟨i, -, -, -, rfl⟩ := step_cases h
  · -- the instance that checks had not started, so it is none of those that doom the run
    have hkeep : ∀ j x, s.instances j = x → x ≠ .notStarted →
        (s.enter i (checked s.db)).instances j = x := by
      rintro j x hj hx
      rw [enter_of_ne]
      · exact hj
      · rintro rfl
        exact hx (hj.symm.trans hi)
    cases hs with
    | faulted j hj => exact .faulted j (hkeep j _ hj nofun)
    | two j k hne hj hk => exact .two j k hne (hkeep j _ hj nofun) (hkeep k _ hk nofun)
    | late j hj hdb => exact .late j (hkeep j _ hj nofun) hdb
  · cases hs with
    | faulted j hj =>
      refine .faulted j ?_
      rw [enter_of_ne]
      · exact hj
      · rintro rfl
        rw [hj] at hi
        cases hi
    | two j k hne hj hk =>
      -- one of the two still has to save, and the rows are there
      obtain ⟨l, hli, hl⟩ : ∃ l, l ≠ i ∧ s.instances l = .saving := by
        by_cases hji : j = i
        · exact ⟨k, hji ▸ hne.symm, hk⟩
        · exact ⟨j, hji, hj⟩
      refine .late l ?_ (seeded_append s.db)
      rw [enter_of_ne hli]
      exact hl
    | late j hj hdb => exact absurd hfits hdb.refuses
  · exact .faulted i (enter_self _)

theorem Doomed.run (hs : Doomed c s) {es : List (SeedEvent ι)}
    (h : (seeding c).run s es = some s') (hend : s'.Finished) : ∃ i, s'.instances i = .faulted := by
  have hdoomed : Doomed c s' := Machine.run_invariant (fun _ _ _ hs hstep => hs.step hstep) hs h
  cases hdoomed with
  | faulted i hi => exact ⟨i, hi⟩
  | two i _ _ hi _ => exact absurd hi (hend i)
  | late i hi _ => exact absurd hi (hend i)

/-! ## Whole runs -/

section Start

variable {e : SeedEvent ι}

/-- The first step is a check that finds no lock. -/
theorem step_init (hlocks : db.locks = []) (h : (seeding c).step (init db : Seeding ι) e = some s) :
    ∃ i, e = .anyAsync i ∧ s = (init db).enter i .saving := by
  obtain ⟨i, he, -, hs⟩ | ⟨i, -, hi, -⟩ | ⟨i, -, hi, -⟩ := step_cases h
  · rw [show (init db : Seeding ι).db = db from rfl, checked_of_nil hlocks] at hs
    exact ⟨i, he, hs⟩
  · cases hi
  · cases hi

theorem eq_of_saving {j : ι} (h : ((init db : Seeding ι).enter i .saving).instances j = .saving) :
    j = i := by
  by_contra hne
  rw [enter_of_ne hne] at h
  cases h

/-- After that the same instance saves, or the run is doomed. -/
theorem step_after_check (hlocks : db.locks = [])
    (h : (seeding c).step ((init db : Seeding ι).enter i .saving) e = some s) :
    (e = .saveChangesAsync i ∧ (db.append added).Consistent c) ∨ Doomed c s := by
  obtain ⟨j, -, hj, rfl⟩ | ⟨j, rfl, hj, hfits, -⟩ | ⟨j, -, -, -, rfl⟩ := step_cases h
  · -- a second check before the save finds no lock either
    have hne : i ≠ j := by
      rintro rfl
      rw [enter_self] at hj
      cases hj
    refine Or.inr (.two i j hne ?_ ?_)
    · rw [enter_of_ne hne, enter_self]
    · rw [enter_self]
      exact checked_of_nil hlocks
  · rw [eq_of_saving hj]
    exact Or.inl ⟨rfl, hfits⟩
  · exact Or.inr (.faulted j (enter_self _))

theorem settled_of_save (hfits : (db.append added).Consistent c)
    (h : (seeding c).step ((init db : Seeding ι).enter i .saving) (.saveChangesAsync i) = some s) :
    Settled (db.append added) s := by
  obtain ⟨_, he, -⟩ | ⟨j, -, hj, -, rfl⟩ | ⟨_, -, -, hnot, -⟩ := step_cases h
  · cases he
  · rw [eq_of_saving hj]
    refine ⟨rfl, List.append_ne_nil_of_right_ne_nil _ nofun, fun k => ?_⟩
    by_cases hk : k = i
    · rw [hk, enter_self]
      exact Or.inr rfl
    · rw [enter_of_ne hk]
      exact Or.inl (enter_of_ne hk _)
  · exact absurd hfits hnot

end Start

/-- **Seeding.** On consistent tables without locks, in every run that has ended, nobody faulted,
the default rows were inserted once, and any further run changes nothing, if and only if the
default users and roles were apart from those that were there and the run began with the check and
the save of one instance. -/
theorem seeding_iff (hseed : added.Consistent c) (hdb : db.Consistent c) (hlocks : db.locks = [])
    {es : List (SeedEvent ι)} (h : (seeding c).run (init db) es = some s) (hend : s.Finished) :
    ((∀ i, s.instances i ≠ .faulted) ∧ s.db = db.append added ∧
      ∀ es' s', (seeding c).run (init s.db : Seeding ι) es' = some s' →
        s'.db = s.db ∧ ∀ i, s'.instances i ≠ .faulted) ↔
    db.Apart c added ∧ ∃ i rest, es = .anyAsync i :: .saveChangesAsync i :: rest := by
  have hapart : (db.append added).Consistent c ↔ db.Apart c added :=
    SmartLockDb.consistent_append_iff hdb hseed
  constructor
  · rintro ⟨hfine, hrows, -⟩
    cases es with
    | nil =>
      cases h
      have hlen := congrArg (fun t => t.locks.length) hrows
      rw [show (init db : Seeding ι).db = db from rfl] at hlen
      simp [SmartLockDb.append, added, addLocks] at hlen
    | cons e es =>
      obtain ⟨s₁, hs₁, hrest⟩ := Machine.run_cons_eq_some _ |>.mp h
      obtain ⟨i, rfl, rfl⟩ := step_init hlocks hs₁
      cases es with
      | nil =>
        cases hrest
        exact absurd (enter_self _) (hend i)
      | cons e es =>
        obtain ⟨s₂, hs₂, hrest⟩ := Machine.run_cons_eq_some _ |>.mp hrest
        rcases step_after_check hlocks hs₂ with ⟨rfl, hfits⟩ | hdoomed
        · exact ⟨hapart.mp hfits, i, es, rfl⟩
        · obtain ⟨j, hj⟩ := hdoomed.run hrest hend
          exact absurd hj (hfine j)
  · rintro ⟨hnew, i, es, rfl⟩
    obtain ⟨s₁, hs₁, hrest⟩ := Machine.run_cons_eq_some _ |>.mp h
    obtain ⟨j, hj, rfl⟩ := step_init hlocks hs₁
    cases hj
    obtain ⟨s₂, hs₂, hrest⟩ := Machine.run_cons_eq_some _ |>.mp hrest
    have hsettled := settled_of_save (hapart.mpr hnew) hs₂
    obtain ⟨hrows, hfine⟩ := hsettled.run hrest
    refine ⟨hfine, hrows, fun es' s' hagain => ?_⟩
    rw [hrows] at hagain ⊢
    exact (settled_init hsettled.locks).run hagain

/-- Two instances on tables with a role of their own, one after the other. -/
theorem seeding_guests :
    let db : SmartLockDb := ⟨[], [⟨"guests", some "Guest", some "GUEST"⟩], [], [], [], []⟩
    ∃ s, (seeding .sqlServerDefault).run (init db : Seeding (Fin 2))
        [.anyAsync 0, .saveChangesAsync 0, .anyAsync 1] = some s ∧
      (∀ i, s.instances i ≠ .faulted) ∧ s.db = db.append added := by
  intro db
  obtain ⟨s, h, hend⟩ : ∃ s, (seeding .sqlServerDefault).run (init db : Seeding (Fin 2))
      [.anyAsync 0, .saveChangesAsync 0, .anyAsync 1] = some s ∧
      ∀ i, s.instances i ≠ .saving :=
    Machine.exists_run_of_any (by decide +kernel)
  have hnew : db.Apart .sqlServerDefault added := by
    rw [added_eq]
    exact ⟨by decide, by decide +kernel, by decide⟩
  obtain ⟨hfine, hrows, -⟩ := (seeding_iff added_consistent (by decide) rfl h hend).mpr
    ⟨hnew, 0, [.anyAsync 1], rfl⟩
  exact ⟨s, h, hfine, hrows⟩

/-- Two instances that check before either saves: the second faults. An instance on tables that
have the manager's role but no lock: it faults, and there are no locks after it. -/
theorem seeding_faults :
    (∃ s, (seeding .sqlServerDefault).run (init ⟨[], [], [], [], [], []⟩ : Seeding (Fin 2))
        [.anyAsync 0, .anyAsync 1, .saveChangesAsync 0, .saveChangesAsync 1] = some s ∧
      s.instances 0 = .completed ∧ s.instances 1 = .faulted) ∧
    ∃ s, (seeding .sqlServerDefault).run
        (init ⟨[], [DefaultData.managerRole], [], [], [], []⟩ : Seeding (Fin 1))
        [.anyAsync 0, .saveChangesAsync 0] = some s ∧
      s.instances 0 = .faulted ∧ s.db = ⟨[], [DefaultData.managerRole], [], [], [], []⟩ :=
  ⟨Machine.exists_run_of_any (by decide +kernel), Machine.exists_run_of_any (by decide +kernel)⟩

/-! ## One instance -/

theorem finished_of (hi : s.instances i ≠ .saving)
    (hothers : ∀ j, j ≠ i → s.instances j = .notStarted) : s.Finished := by
  intro j
  by_cases hj : j = i
  · rw [hj]
    exact hi
  · rw [hothers j hj]
    nofun

theorem step_saveChangesAsync (hi : s.instances i = .saving) :
    (seeding c).step s (.saveChangesAsync i) =
      match DbDataSeeder.saveChangesAsync c s.db with
      | some db => some (enter { s with db := db } i .completed)
      | none => some (s.enter i .faulted) :=
  if_pos hi

theorem run_seedDbAsync (c : Collation) (i : ι) (db : SmartLockDb) :
    ∃ es s, (seeding c).run (init db : Seeding ι) es = some s ∧ s.Finished ∧
      match seedDbAsync c db with
      | some db' => s.db = db' ∧ s.instances i = .completed
      | none => s.db = db ∧ s.instances i = .faulted := by
  have hcheck : (seeding c).step (init db : Seeding ι) (.anyAsync i) =
      some ((init db).enter i (checked db)) := by
    simp [seeding, step, init]
  unfold seedDbAsync
  by_cases hany : DbDataSeeder.anyAsync db = true
  · rw [show checked db = .completed from if_pos hany] at hcheck
    rw [if_pos hany]
    refine ⟨[.anyAsync i], (init db).enter i .completed, by rw [Machine.run_singleton, hcheck],
      finished_of (i := i) ?_ ?_, rfl, enter_self _⟩
    · rw [enter_self]
      nofun
    · exact fun j hj => enter_of_ne hj _
  · rw [show checked db = .saving from if_neg hany] at hcheck
    rw [if_neg hany]
    have hsave := step_saveChangesAsync (c := c) (enter_self (s := init db) (i := i) .saving)
    have hdb : ((init db : Seeding ι).enter i .saving).db = db := rfl
    rw [hdb] at hsave
    cases hsaved : DbDataSeeder.saveChangesAsync c db with
    | some db' =>
      rw [hsaved] at hsave
      refine ⟨[.anyAsync i, .saveChangesAsync i], _,
        (seeding c).run_cons_eq_some.mpr ⟨_, hcheck, by rw [Machine.run_singleton, hsave]⟩,
        finished_of (i := i) ?_ ?_, rfl, enter_self _⟩
      · rw [enter_self]
        nofun
      · intro j hj
        rw [enter_of_ne hj]
        exact enter_of_ne hj _
    | none =>
      rw [hsaved] at hsave
      refine ⟨[.anyAsync i, .saveChangesAsync i], _,
        (seeding c).run_cons_eq_some.mpr ⟨_, hcheck, by rw [Machine.run_singleton, hsave]⟩,
        finished_of (i := i) ?_ ?_, rfl, enter_self _⟩
      · rw [enter_self]
        nofun
      · intro j hj
        rw [enter_of_ne hj]
        exact enter_of_ne hj _

end Seeding

end SmartLock
