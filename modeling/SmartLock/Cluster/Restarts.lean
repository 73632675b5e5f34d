import SmartLock.Cluster.Deletions
import SmartLock.Cluster.Policy
import SmartLock.Data.DbDataSeeder

/-!
# The service over its restarts

`Program.cs` seeds the tables and then serves, and the process ends at any moment. The tables stay;
the grains with their lists, the sessions and the sends go. A run of `deployment` is any number of
such lifetimes, with changes of the tables also in between.

`rows_over_restarts`: what a lifetime decided is stored, or its grains had not saved it.
`start_over_restarts`: when the service can start, and that it then leaves the tables as they were.
`revoked_over_restarts`: a restart enforces what was unlinked, and brings nothing back.
-/

namespace SmartLock

/-- The service, or the tables that it has left. -/
inductive Process
  | stopped (db : SmartLockDb)
  | running (s : Cluster)

/-- The tables. -/
def Process.db : Process → SmartLockDb
  | .stopped db => db
  | .running s => s.silo.db

/-- The lifetime that has not ended. -/
def Process.running? : Process → Option Cluster
  | .stopped _ => none
  | .running s => some s

/-- The process, and the lifetimes before it as they were at their ends. -/
structure Deployment where
  process : Process
  ended : List Cluster

inductive DeploymentEvent
  | start
  | exit
  | offline (ch : DbChange)
  | traffic (e : ClusterEvent)
  deriving DecidableEq, Repr

namespace Deployment

def init (db : SmartLockDb) : Deployment := ⟨.stopped db, []⟩

/-- All lifetimes so far. -/
def lifetimes (s : Deployment) : List Cluster := s.ended ++ s.process.running?.toList

def step (handler : JwtSecurityTokenHandler) (c : Collation) (s : Deployment) :
    DeploymentEvent → Option Deployment
  | .start =>
    match s.process with
    | .stopped db =>
      (DbDataSeeder.seedDbAsync c db).map fun db => { s with process := .running (Cluster.init db) }
    | .running _ => none
  | .exit =>
    match s.process with
    | .stopped _ => none
    | .running t => some ⟨.stopped t.silo.db, s.ended ++ [t]⟩
  | .offline ch =>
    match s.process with
    | .stopped db => (ch.apply c db).map fun db => { s with process := .stopped db }
    | .running _ => none
  | .traffic e =>
    match s.process with
    | .stopped _ => none
    | .running t => (t.step handler c e).map fun t => { s with process := .running t }

end Deployment

/-- The service over its restarts as a machine. -/
def deployment (handler : JwtSecurityTokenHandler) (c : Collation) :
    Machine Deployment DeploymentEvent :=
  ⟨Deployment.step handler c⟩

/-! ## What a step does -/

namespace Deployment

variable {handler : JwtSecurityTokenHandler} {c : Collation} {s s' : Deployment}

theorem start_eq_some (h : s.step handler c .start = some s') : ∃ db db', s.process = .stopped db ∧
    DbDataSeeder.seedDbAsync c db = some db' ∧
    s' = { s with process := .running (Cluster.init db') } := by
  unfold step at h
  dsimp only at h
  cases hp : s.process with
  | stopped db =>
    rw [hp] at h
    obtain ⟨db', hdb', rfl⟩ := Option.map_eq_some_iff.mp h
    exact ⟨db, db', rfl, hdb', rfl⟩
  | running t =>
    rw [hp] at h
    cases h

theorem exit_eq_some (h : s.step handler c .exit = some s') : ∃ t, s.process = .running t ∧
    s' = ⟨.stopped t.silo.db, s.ended ++ [t]⟩ := by
  unfold step at h
  dsimp only at h
  cases hp : s.process with
  | stopped db =>
    rw [hp] at h
    cases h
  | running t =>
    rw [hp] at h
    exact ⟨t, rfl, (Option.some.inj h).symm⟩

theorem offline_eq_some {ch : DbChange} (h : s.step handler c (.offline ch) = some s') :
    ∃ db db', s.process = .stopped db ∧ ch.apply c db = some db' ∧
      s' = { s with process := .stopped db' } := by
  unfold step at h
  dsimp only at h
  cases hp : s.process with
  | stopped db =>
    rw [hp] at h
    obtain ⟨db', hdb', rfl⟩ := Option.map_eq_some_iff.mp h
    exact ⟨db, db', rfl, hdb', rfl⟩
  | running t =>
    rw [hp] at h
    cases h

theorem traffic_eq_some {e : ClusterEvent} (h : s.step handler c (.traffic e) = some s') :
    ∃ t t', s.process = .running t ∧ t.step handler c e = some t' ∧
      s' = { s with process := .running t' } := by
  unfold step at h
  dsimp only at h
  cases hp : s.process with
  | stopped db =>
    rw [hp] at h
    cases h
  | running t =>
    rw [hp] at h
    obtain ⟨t', ht', rfl⟩ := Option.map_eq_some_iff.mp h
    exact ⟨t, t', rfl, ht', rfl⟩

/-! ## Invariants -/

/-- `T` holds of the tables while the service is stopped, and `I` of every lifetime that is not yet
among `before`: at each moment of the one that runs, and so at the end of those that have ended. -/
structure Holds (before : List Cluster) (T : SmartLockDb → Prop) (I : Cluster → Prop)
    (s : Deployment) : Prop where
  stopped : ∀ db, s.process = .stopped db → T db
  running : ∀ t, s.process = .running t → I t
  ended : ∃ ts, s.ended = before ++ ts ∧ ∀ t ∈ ts, I t

theorem holds_stopped {T : SmartLockDb → Prop} {I : Cluster → Prop} {db : SmartLockDb} (hT : T db)
    (hs : s.process = .stopped db) : Holds s.ended T I s where
  stopped db' h := by
    rw [hs] at h
    injection h with h
    exact h ▸ hT
  running t h := by
    rw [hs] at h
    cases h
  ended := ⟨[], (List.append_nil _).symm, nofun⟩

section Invariants

variable {before : List Cluster} {T : SmartLockDb → Prop} {I : Cluster → Prop}
  {P : Deployment → DeploymentEvent → Prop}

theorem Holds.lifetimes (hs : Holds before T I s) : ∀ t ∈ s.lifetimes.drop before.length, I t := by
  obtain ⟨ts, hts, hI⟩ := hs.ended
  intro t ht
  rw [Deployment.lifetimes, hts, List.append_assoc, List.drop_left, List.mem_append] at ht
  rcases ht with ht | ht
  · exact hI t ht
  · refine hs.running t ?_
    cases hp : s.process with
    | stopped db =>
      rw [hp] at ht
      cases ht
    | running t' =>
      rw [hp] at ht
      rw [List.mem_singleton.mp ht]

variable
  (hstart : ∀ s db db', s.process = .stopped db → P s .start → T db →
    DbDataSeeder.seedDbAsync c db = some db' → I (Cluster.init db'))
  (hexit : ∀ t, I t → T t.silo.db)
  (hoffline : ∀ s ch db db', P s (.offline ch) → T db → ch.apply c db = some db' → T db')
  (htraffic : ∀ s e t t', P s (.traffic e) → I t → t.step handler c e = some t' → I t')

include hstart hexit hoffline htraffic

theorem Holds.step (hs : Holds before T I s) {e : DeploymentEvent} (he : P s e)
    (h : s.step handler c e = some s') : Holds before T I s' := by
  cases e with
  | start =>
    obtain ⟨db, db', hp, hdb', rfl⟩ := start_eq_some h
    refine ⟨nofun, ?_, hs.ended⟩
    rintro t ⟨⟩
    exact hstart s db db' hp he (hs.stopped db hp) hdb'
  | exit =>
    obtain ⟨t, hp, rfl⟩ := exit_eq_some h
    have ht := hs.running t hp
    obtain ⟨ts, hts, hI⟩ := hs.ended
    refine ⟨?_, nofun, ts ++ [t], by rw [hts, List.append_assoc], ?_⟩
    · rintro db ⟨⟩
      exact hexit t ht
    · intro t' ht'
      rcases List.mem_append.mp ht' with ht' | ht'
      · exact hI t' ht'
      · rw [List.mem_singleton.mp ht']
        exact ht
  | offline ch =>
    obtain ⟨db, db', hp, hdb', rfl⟩ := offline_eq_some h
    refine ⟨?_, nofun, hs.ended⟩
    rintro _ ⟨⟩
    exact hoffline s ch db db' he (hs.stopped db hp) hdb'
  | traffic e =>
    obtain ⟨t, t', hp, ht', rfl⟩ := traffic_eq_some h
    refine ⟨nofun, ?_, hs.ended⟩
    rintro _ ⟨⟩
    exact htraffic s e t t' he (hs.running t hp) ht'

/-- **Invariants over restarts.** -/
theorem Holds.run (hs : Holds before T I s) {es : List DeploymentEvent}
    (hP : (deployment handler c).Along P s es) (h : (deployment handler c).run s es = some s') :
    Holds before T I s' :=
  Machine.run_induction (I := Holds before T I)
    (fun _ _ _ hs he hstep => hs.step hstart hexit hoffline htraffic he hstep) hs hP h

end Invariants

/-- Every lifetime is a run of the service from the tables of its start. -/
theorem run_lifetimes {db : SmartLockDb} {es : List DeploymentEvent}
    (h : (deployment handler c).run (init db) es = some s) {t : Cluster} (ht : t ∈ s.lifetimes) :
    ∃ db' es', (cluster handler c).run (Cluster.init db') es' = some t := by
  have hinit : Holds [] (fun _ => True)
      (fun t => ∃ db' es', (cluster handler c).run (Cluster.init db') es' = some t) (init db) :=
    holds_stopped (s := init db) trivial rfl
  have hend := hinit.run (P := fun _ _ => True) (fun _ _ db' _ _ _ _ => ⟨db', [], rfl⟩)
    (fun _ _ => trivial) (fun _ _ _ _ _ _ _ => trivial) ?_
    (Machine.along_of_forall fun _ _ _ => trivial) h
  · exact hend.lifetimes t ht
  · rintro _ e t t' - ⟨db', es', hrun⟩ hstep
    refine ⟨db', es' ++ [e], (cluster handler c).run_append_eq_some.mpr ⟨t, hrun, ?_⟩⟩
    rw [Machine.run_singleton]
    exact hstep

/-! ## The rows -/

/-- The event changes the tables otherwise than by a save. -/
def changes : DeploymentEvent → Bool
  | .offline _ => true
  | .traffic (.silo e) => e.isChange
  | _ => false

/-- The rows that a lifetime has stored. -/
def savedRows (t : Cluster) : List LockAccessHistoryEntity := (t.silo.batches.map Prod.snd).flatten

/-- The table is what it was, with the rows of all lifetimes behind. -/
def Stored (db : SmartLockDb) (s : Deployment) : Prop :=
  s.process.db.lockAccesses = db.lockAccesses ++ s.lifetimes.flatMap savedRows

theorem stored_init (db : SmartLockDb) : Stored db (init db) := (List.append_nil _).symm

theorem seedDbAsync_lockAccesses {db db' : SmartLockDb}
    (h : DbDataSeeder.seedDbAsync c db = some db') : db'.lockAccesses = db.lockAccesses := by
  unfold DbDataSeeder.seedDbAsync at h
  by_cases hany : DbDataSeeder.anyAsync db = true
  · rw [if_pos hany] at h
    rw [← Option.some.inj h]
  · rw [if_neg hany, DbDataSeeder.saveChangesAsync, Option.ite_none_right_eq_some] at h
    rw [← Option.some.inj h.2]
    exact List.append_nil _

theorem exists_saved {t t' : Cluster} {e : ClusterEvent} (he : changes (.traffic e) = false)
    (h : t.step handler c e = some t') : ∃ rows,
      t'.silo.db.lockAccesses = t.silo.db.lockAccesses ++ rows ∧
      savedRows t' = savedRows t ++ rows := by
  have hsilo := Cluster.projects_silo t e t' trivial h
  cases e with
  | silo e =>
    have hstep : t.silo.step c e = some t'.silo := hsilo
    refine ⟨((t.silo.saved e).map Prod.snd).toList.flatten, ?_, ?_⟩
    · rw [Silo.step_db hstep he]
    · unfold savedRows
      rw [Silo.step_batches hstep, List.map_append, List.flatten_append]
      cases t.silo.saved e <;> rfl
  | connect | publish | post | inject | sendFault =>
    have hsame : t'.silo = t.silo := hsilo
    unfold savedRows
    rw [hsame]
    exact ⟨[], (List.append_nil _).symm, (List.append_nil _).symm⟩

theorem Stored.step {db : SmartLockDb} (hs : Stored db s) {e : DeploymentEvent}
    (he : changes e = false) (h : s.step handler c e = some s') : Stored db s' := by
  unfold Stored lifetimes at hs ⊢
  cases e with
  | start =>
    obtain ⟨db₁, db₂, hp, hseed, rfl⟩ := start_eq_some h
    rw [hp] at hs
    simp only [Process.running?, Option.toList_none, List.append_nil] at hs
    rw [List.flatMap_append, ← List.append_assoc, ← hs]
    exact (seedDbAsync_lockAccesses hseed).trans (List.append_nil _).symm
  | exit =>
    obtain ⟨t, hp, rfl⟩ := exit_eq_some h
    rw [hp] at hs
    rw [show (Process.stopped t.silo.db).running?.toList = [] from rfl, List.append_nil]
    exact hs
  | offline ch => cases he
  | traffic e =>
    obtain ⟨t, t', hp, hstep, rfl⟩ := traffic_eq_some h
    obtain ⟨rows, hdb, hsaved⟩ := exists_saved he hstep
    rw [hp, List.flatMap_append, ← List.append_assoc] at hs
    rw [List.flatMap_append, ← List.append_assoc]
    simp only [Process.running?, Option.toList_some, List.flatMap_singleton, Process.db] at hs ⊢
    rw [hdb, hs, hsaved, List.append_assoc, List.append_assoc]

theorem run_booked {db : SmartLockDb} {es : List SiloEvent} {t : Silo}
    (h : (silo c).run (Silo.init db) es = some t) (key : String) : (t.grains key).Booked :=
  Machine.run_invariant (I := fun t : Silo => ∀ key, (t.grains key).Booked)
    (fun _ _ _ hs hstep => Silo.forall_grains_step (fun _ _ _ _ _ hI _ hmove => hI.step hmove) hs
      hstep)
    (fun _ => GrainSlot.booked_empty) h key

/-- **The rows over all restarts.** While nothing but the service changes the tables, whatever
starts and exits there are: the rows are those from before followed by the batches of all
lifetimes. In each lifetime the records of the decisions under a key are, each once, those of its
stored batches and those that an activation had not saved when it ended or the process did. -/
theorem rows_over_restarts {db : SmartLockDb} {es : List DeploymentEvent}
    (hes : ∀ e ∈ es, changes e = false)
    (h : (deployment handler c).run (init db) es = some s) :
    s.process.db.lockAccesses = db.lockAccesses ++ s.lifetimes.flatMap savedRows ∧
    ∀ t ∈ s.lifetimes, ∀ key, (recordsOf t.silo.decisions key).Perm
      ((batchesOf t.silo.batches key).flatten ++ (t.silo.grains key).outstanding) := by
  constructor
  · exact Machine.run_induction_of_forall (P := fun e => changes e = false) (I := Stored db)
      (fun _ _ _ hs he hstep => hs.step he hstep) (stored_init db) hes h
  · intro t ht key
    obtain ⟨db', es', hrun⟩ := run_lifetimes h ht
    have hsilo := Cluster.run_silo hrun
    have hrec := Silo.run_recorded hsilo
    have hbooks := (run_booked hsilo key).created (hrec.sound key)
    rw [hrec.created, hrec.stored] at hbooks
    exact hbooks

/-- The employee opens the entrance twice, and the process ends before the second record is saved. -/
theorem rows_over_restarts_employee :
    let key := DefaultData.entranceLockId
    let saved : LockAccessHistoryEntity := .create key (some DefaultData.employeeId) .granted
      (some DefaultData.employeeId) 2
    let lost : LockAccessHistoryEntity := .create key (some DefaultData.employeeId) .granted
      (some DefaultData.employeeId) 3
    let es : List DeploymentEvent := [.start, .traffic (Cluster.employeePost key),
      .traffic (.silo (.activate key)), .traffic (.silo (.handle 2 (Cluster.employeeCall key))),
      .traffic (.silo (.timer key .tick)), .traffic (.silo (.timer key .commit)),
      .traffic (Cluster.employeePost key),
      .traffic (.silo (.handle 3 (Cluster.employeeCall key))), .exit, .start]
    ∃ s, (deployment unsignedHandler .sqlServerDefault).run (init DefaultData.seededDb) es =
        some s ∧
      s.process.db.lockAccesses = [saved] ∧ ∃ t ∈ s.lifetimes, [saved, lost].Perm
        ((batchesOf t.silo.batches key).flatten ++ (t.silo.grains key).outstanding) := by
  intro key saved lost es
  obtain ⟨s, hs, t, ht, hrecords, hrows⟩ : ∃ s, (deployment unsignedHandler .sqlServerDefault).run
      (init DefaultData.seededDb) es = some s ∧ ∃ t ∈ s.lifetimes,
        recordsOf t.silo.decisions key = [saved, lost] ∧ s.lifetimes.flatMap savedRows = [saved] :=
    Machine.exists_run_of_any (by decide +kernel)
  obtain ⟨htable, hbooks⟩ := rows_over_restarts (by decide +kernel) hs
  have hperm := hbooks t ht key
  rw [hrecords] at hperm
  rw [hrows] at htable
  exact ⟨s, hs, htable, t, ht, hperm⟩

/-! ## Starting -/

theorem consistent_seedDbAsync {db db' : SmartLockDb} (hdb : db.Consistent c)
    (h : DbDataSeeder.seedDbAsync c db = some db') : db'.Consistent c := by
  unfold DbDataSeeder.seedDbAsync at h
  by_cases hany : DbDataSeeder.anyAsync db = true
  · rw [if_pos hany] at h
    exact Option.some.inj h ▸ hdb
  · rw [if_neg hany, DbDataSeeder.saveChangesAsync, Option.ite_none_right_eq_some] at h
    exact Option.some.inj h.2 ▸ h.1

theorem step_consistent {t t' : Cluster} {e : ClusterEvent} (ht : t.silo.db.Consistent c)
    (h : t.step handler c e = some t') : t'.silo.db.Consistent c := by
  have hsilo := Cluster.projects_silo t e t' trivial h
  cases e with
  | silo e => exact Silo.consistent_step ht hsilo
  | connect | publish | post | inject | sendFault =>
    rw [show t'.silo = t.silo from hsilo]
    exact ht

theorem run_consistent {db : SmartLockDb} {es : List DeploymentEvent} (hdb : db.Consistent c)
    (h : (deployment handler c).run (init db) es = some s) : s.process.db.Consistent c := by
  have hinit : Holds [] (SmartLockDb.Consistent c) (fun t => t.silo.db.Consistent c) (init db) :=
    holds_stopped (s := init db) hdb rfl
  have hend := hinit.run (P := fun _ _ => True) (fun _ _ _ _ _ => consistent_seedDbAsync)
    (fun _ ht => ht) (fun _ _ _ _ _ hdb hch => hdb.change hch)
    (fun _ _ _ _ _ => step_consistent) (Machine.along_of_forall fun _ _ _ => trivial) h
  cases hp : s.process with
  | stopped db' => exact hend.stopped db' hp
  | running t => exact hend.running t hp

theorem anyAsync_iff {db : SmartLockDb} : DbDataSeeder.anyAsync db = true ↔ db.locks ≠ [] := by
  rw [DbDataSeeder.anyAsync, Bool.not_eq_true', List.isEmpty_eq_false_iff]

/-- Seeding succeeds where a lock is, and where the default users and roles are not. -/
theorem seedDbAsync_isSome (hseed : DbDataSeeder.added.Consistent c) {db : SmartLockDb}
    (hdb : db.Consistent c) : (DbDataSeeder.seedDbAsync c db).isSome ↔
      db.locks ≠ [] ∨ db.Apart c DbDataSeeder.added := by
  rw [← anyAsync_iff, ← SmartLockDb.consistent_append_iff hdb hseed]
  unfold DbDataSeeder.seedDbAsync
  by_cases hany : DbDataSeeder.anyAsync db = true
  · simp [hany]
  · rw [if_neg hany, DbDataSeeder.saveChangesAsync, or_iff_right hany]
    by_cases hfits : (db.append DbDataSeeder.added).Consistent c <;> simp [hfits]

/-- **Starting again.** In every state of every run from consistent tables the tables are
consistent. When the service is stopped, it can start exactly if some lock is left, or none of the
default users and roles is. If some lock is left, it starts on the tables as they are. -/
theorem start_over_restarts (hseed : DbDataSeeder.added.Consistent c) {db : SmartLockDb}
    {es : List DeploymentEvent} (hdb : db.Consistent c)
    (h : (deployment handler c).run (init db) es = some s) :
    s.process.db.Consistent c ∧ ∀ db', s.process = .stopped db' →
      ((s.step handler c .start).isSome ↔
        db'.locks ≠ [] ∨ db'.Apart c DbDataSeeder.added) ∧
      (db'.locks ≠ [] → s.step handler c .start =
        some { s with process := .running (Cluster.init db') }) := by
  have hconsistent := run_consistent hdb h
  refine ⟨hconsistent, fun db' hp => ?_⟩
  rw [hp] at hconsistent
  have hstart : s.step handler c .start = (DbDataSeeder.seedDbAsync c db').map fun db =>
      { s with process := .running (Cluster.init db) } := by
    unfold step
    rw [hp]
  rw [hstart, Option.isSome_map]
  refine ⟨seedDbAsync_isSome hseed hconsistent, fun hlocks => ?_⟩
  rw [DbDataSeeder.seedDbAsync, if_pos (anyAsync_iff.mpr hlocks)]
  rfl

/-- Both locks are deleted and the service exits: it cannot start again. -/
theorem start_over_restarts_without_locks :
    let es : List DeploymentEvent := [.start,
      .traffic (.silo (.change (.deleteLock DefaultData.entranceLockId))),
      .traffic (.silo (.change (.deleteLock DefaultData.storageLockId))), .exit]
    ∃ s, (deployment unsignedHandler .sqlServerDefault).run (init DefaultData.seededDb) es =
        some s ∧
      ¬ (s.step unsignedHandler .sqlServerDefault .start).isSome := by
  intro es
  obtain ⟨s, hs, hend⟩ : ∃ s, (deployment unsignedHandler .sqlServerDefault).run
      (init DefaultData.seededDb) es = some s ∧
      s.process.running?.isSome = false ∧ s.process.db.locks = [] ∧
        s.process.db.users = DefaultData.seededDb.users :=
    Machine.exists_run_of_any (by decide +kernel)
  refine ⟨s, hs, ?_⟩
  cases hp : s.process with
  | running t =>
    rw [hp] at hend
    cases hend.1
  | stopped db =>
    rw [hp] at hend
    obtain ⟨-, hlocks, husers⟩ := hend
    rw [((start_over_restarts DbDataSeeder.added_consistent DefaultData.seededDb_consistent hs).2 db
      hp).1]
    rintro (hne | hapart)
    · exact hne hlocks
    · -- the manager is still there
      have hmanager : DbDataSeeder.addUsers.1 ∈ db.users := by
        rw [show db.users = DefaultData.seededDb.users from husers]
        decide +kernel
      have hsame := (hapart.users _ hmanager DbDataSeeder.addUsers.1 List.mem_cons_self).1
      rw [Collation.same_iff.mpr rfl] at hsame
      cases hsame

/-! ## Revoking -/

/-- The event links the lock to the role, or seeds links of which theirs is one. -/
def relinks (c : Collation) (lockId roleId : String) (s : Deployment) : DeploymentEvent → Bool
  | .start => s.process.db.locks.isEmpty && DbDataSeeder.added.linked c lockId roleId
  | .offline ch => (SiloEvent.change ch).links c lockId roleId
  | .traffic (.silo e) => e.links c lockId roleId
  | _ => false

section Revoking

variable {lockId roleId : String}

theorem linked_seedDbAsync {db db' : SmartLockDb} (hdb : db.linked c lockId roleId = false)
    (hseed : (db.locks.isEmpty && DbDataSeeder.added.linked c lockId roleId) = false)
    (h : DbDataSeeder.seedDbAsync c db = some db') : db'.linked c lockId roleId = false := by
  unfold DbDataSeeder.seedDbAsync at h
  by_cases hany : DbDataSeeder.anyAsync db = true
  · rw [if_pos hany] at h
    exact Option.some.inj h ▸ hdb
  · rw [if_neg hany, DbDataSeeder.saveChangesAsync, Option.ite_none_right_eq_some] at h
    have hempty : db.locks.isEmpty = true := by simpa [DbDataSeeder.anyAsync] using hany
    rw [hempty, Bool.true_and] at hseed
    rw [← Option.some.inj h.2]
    unfold SmartLockDb.linked at hdb hseed ⊢
    rw [SmartLockDb.append, List.any_append, hdb, hseed]
    rfl

/-- The lifetime has decided without the role so far, and will. -/
def Revoked (c : Collation) (lockId roleId : String) (t : Cluster) : Prop :=
  Silo.WithoutRole c lockId roleId t.silo ∧
    ∀ d ∈ t.silo.decisions, d.WithoutRole c lockId roleId

theorem revoked_init {db : SmartLockDb} (h : db.linked c lockId roleId = false) :
    Revoked c lockId roleId (Cluster.init db) := by
  refine ⟨⟨h, ?_⟩, nofun⟩
  intro key a l ha
  cases ha

theorem Revoked.step {t t' : Cluster} (ht : Revoked c lockId roleId t) {e : ClusterEvent}
    (he : relinks c lockId roleId s (.traffic e) = false) (h : t.step handler c e = some t') :
    Revoked c lockId roleId t' := by
  have hsilo := Cluster.projects_silo t e t' trivial h
  cases e with
  | silo e =>
    have hstep : t.silo.step c e = some t'.silo := hsilo
    refine ⟨ht.1.step he hstep, fun d hd => ?_⟩
    rw [Silo.step_decisions hstep] at hd
    rcases List.mem_append.mp hd with hd | hd
    · exact ht.2 d hd
    · exact ht.1.decided hd
  | connect | publish | post | inject | sendFault =>
    unfold Revoked
    rw [show t'.silo = t.silo from hsilo]
    exact ht

/-- **A restart revokes.** Let the service be stopped, whatever its grains had loaded, and a lock
not be linked to a role. As long as no change and no seeding links the two again, no decision of
any later lifetime on the lock knows the role: each grant is by another role. The tables do not
link them either. -/
theorem revoked_over_restarts {db : SmartLockDb} {fs : List DeploymentEvent}
    (hp : s.process = .stopped db) (hlink : db.linked c lockId roleId = false)
    (hfs : (deployment handler c).Along (fun s e => relinks c lockId roleId s e = false) s fs)
    (h : (deployment handler c).run s fs = some s') :
    s'.process.db.linked c lockId roleId = false ∧
    ∀ t ∈ s'.lifetimes.drop s.ended.length, ∀ d ∈ t.silo.decisions, ∀ l,
      d.before.lock = some l → c.spelling l.id = c.spelling lockId →
      (∀ r ∈ l.rolesAccesses, c.spelling r.id ≠ c.spelling roleId) ∧
      (d.outcome.result.accessResult = .granted → ∃ r ∈ l.rolesAccesses,
        c.spelling r.id ≠ c.spelling roleId ∧ ∃ name ∈ d.request.requesterRoles,
          r.name = some name) := by
  have hinit : Holds s.ended (fun db => db.linked c lockId roleId = false)
      (Revoked c lockId roleId) s := holds_stopped hlink hp
  have hend := hinit.run
    (fun s db db' hp he hdb hseed => revoked_init (linked_seedDbAsync hdb (by
      rw [relinks, hp] at he
      exact he) hseed))
    (fun t ht => ht.1.tables) (fun s ch db db' he hdb hch => DbChange.linked_apply he hdb hch)
    (fun s e t t' he ht hstep => ht.step he hstep) hfs h
  constructor
  · cases hp' : s'.process with
    | stopped db' => exact hend.stopped db' hp'
    | running t => exact (hend.running t hp').1.tables
  · intro t ht d hd l hl hid
    have hroles := (hend.lifetimes t ht).2 d hd
    exact ⟨hroles l hl hid, hroles.granted hl hid⟩

end Revoking

/-- The grain of the entrance knows the role of employees when the process ends. The role is
unlinked, and the grain of the next lifetime knows the managers only. -/
theorem revoked_over_restarts_employee :
    let key := DefaultData.entranceLockId
    let asks : List DeploymentEvent := [.start, .traffic (Cluster.employeePost key),
      .traffic (.silo (.activate key)), .traffic (.silo (.handle 2 (Cluster.employeeCall key)))]
    let l : LockEntity := ⟨key, "Entrance Lock", [DefaultData.managerRole]⟩
    ∃ s s', (deployment unsignedHandler .sqlServerDefault).run (init DefaultData.seededDb)
        (asks ++ [.exit, .offline (.unlinkRole key DefaultData.employeeRoleId)]) = some s ∧
      (deployment unsignedHandler .sqlServerDefault).run s asks = some s' ∧
      ∃ t ∈ s'.lifetimes.drop s.ended.length, ∃ d ∈ t.silo.decisions, d.before.lock = some l ∧
        ¬ d.outcome.result.accessResult = .granted := by
  intro key asks l
  let es : List DeploymentEvent :=
    asks ++ [.exit, .offline (.unlinkRole key DefaultData.employeeRoleId)]
  obtain ⟨s, hs, hended, hrunning, hlink⟩ : ∃ s, (deployment unsignedHandler
      .sqlServerDefault).run (init DefaultData.seededDb) es = some s ∧ s.ended.length = 1 ∧
      s.process.running?.isSome = false ∧
      s.process.db.linked .sqlServerDefault key DefaultData.employeeRoleId = false :=
    Machine.exists_run_of_any (by decide +kernel)
  obtain ⟨s', hs', t, ht, d, hd, hl, hcall⟩ : ∃ s', (deployment unsignedHandler
      .sqlServerDefault).run (init DefaultData.seededDb) (es ++ asks) = some s' ∧
      ∃ t ∈ s'.lifetimes.drop 1, ∃ d ∈ t.silo.decisions, d.before.lock = some l ∧
        d.call = Cluster.employeeCall key :=
    Machine.exists_run_of_any (by decide +kernel)
  obtain ⟨m, hm, hrun⟩ := (deployment unsignedHandler .sqlServerDefault).run_append_eq_some.mp hs'
  obtain rfl : s = m := Option.some.inj (hs.symm.trans hm)
  refine ⟨s, s', hs, hrun, t, hended ▸ ht, d, hd, hl, fun hgranted => ?_⟩
  cases hp : s.process with
  | running t =>
    rw [hp] at hrunning
    cases hrunning
  | stopped db =>
    rw [hp] at hlink
    have hall : (deployment unsignedHandler .sqlServerDefault).Along
        (fun s e => relinks .sqlServerDefault key DefaultData.employeeRoleId s e = false)
        (init DefaultData.seededDb) (es ++ asks) := by decide +kernel
    obtain ⟨r, hr, -, name, hname, hrole⟩ := ((revoked_over_restarts hp hlink
      (Machine.along_of_append hall hs) hrun).2 t (hended ▸ ht) d hd l hl rfl).2 hgranted
    rw [show d.request = (Cluster.employeeCall key).request from congrArg GrainCall.request hcall]
      at hname
    rw [List.mem_singleton.mp hr, List.mem_singleton.mp hname] at hrole
    exact absurd hrole (by decide)

end Deployment

end SmartLock
