import Mathlib.Data.Set.Basic
import SmartLock.Cluster.Freshness
import SmartLock.Cluster.Isolation

/-!
# The policy that the doors enforce

The role names that open a lock, as a set. On fixed tables every decision is membership in it, so
more links open more (`more_links_open_more`), and the seeded tables open what the defaults say
(`seeded_policy`). Where the links change, a role that is unlinked while no grain of the lock is
live opens nothing from then on (`unlinked_role_opens_nothing`).
-/

namespace SmartLock

namespace SmartLockDb

variable (c : Collation) (db : SmartLockDb)

/-- The names of roles that open the lock under a key. -/
def opens (key : String) : Set String :=
  {name | ∃ l, db.findLock c key = some l ∧ ∃ r ∈ l.rolesAccesses, r.name = some name}

/-- The lock is linked to the role. -/
def linked (lockId roleId : String) : Bool :=
  db.lockRoles.any fun l => c.same l.locksId lockId && c.same l.rolesAccessesId roleId

end SmartLockDb

variable {c : Collation} {db : SmartLockDb}

theorem SmartLockDb.findLock_congr {key key' : String} (h : c.spelling key = c.spelling key') :
    db.findLock c key = db.findLock c key' := by
  unfold findLock Collation.same
  rw [h]

theorem SmartLockDb.mem_rolesAccesses {lockId : String} {r : RoleEntity} :
    r ∈ db.rolesAccesses c lockId ↔ r ∈ db.roles ∧ ∃ link ∈ db.lockRoles,
      c.same link.locksId lockId = true ∧ c.same r.id link.rolesAccessesId = true := by
  unfold rolesAccesses
  simp only [List.mem_flatMap, List.mem_filter]
  constructor
  · rintro ⟨link, ⟨hlink, hlock⟩, hr, hsame⟩
    exact ⟨hr, link, hlink, hlock, hsame⟩
  · rintro ⟨hr, link, hlink, hlock, hsame⟩
    exact ⟨link, ⟨hlink, hlock⟩, hr, hsame⟩

/-! ## Fixed tables -/

/-- The answer of a decision on the lock that the tables have under its key. -/
theorem Decision.granted_iff_opens {d : Decision} {key : String}
    (h : d.before.lock = db.findLock c key) : d.outcome.result.accessResult = .granted ↔
      ∃ name ∈ d.request.requesterRoles, name ∈ db.opens c key := by
  rw [Decision.outcome, requestAccessAsync_granted, h]
  constructor
  · rintro ⟨l, hl, r, hr, name, hname, hrole⟩
    exact ⟨name, hname, l, hl, r, hr, hrole⟩
  · rintro ⟨name, hname, l, hl, r, hr, hrole⟩
    exact ⟨l, hl, r, hr, name, hname, hrole⟩

theorem SmartLockDb.opens_mono {db₁ db₂ : SmartLockDb} (hlocks : db₁.locks = db₂.locks)
    (hroles : db₁.roles ⊆ db₂.roles) (hlinks : db₁.lockRoles ⊆ db₂.lockRoles) (key : String) :
    db₁.opens c key ⊆ db₂.opens c key := by
  rintro name ⟨l, hl, r, hr, hname⟩
  obtain ⟨row, hrow, rfl⟩ := Option.map_eq_some_iff.mp hl
  rw [hlocks] at hrow
  obtain ⟨hmem, link, hlink, hsame⟩ := mem_rolesAccesses.mp hr
  exact ⟨_, Option.map_eq_some_iff.mpr ⟨row, hrow, rfl⟩, r,
    mem_rolesAccesses.mpr ⟨hroles hmem, link, hlinks hlink, hsame⟩, hname⟩

namespace Cluster

open Silo

variable {handler : JwtSecurityTokenHandler} {s s' : Cluster}

/-- **More links open more.** Two runs over tables that nothing else changes, the second with all
roles and links of the first and perhaps more: what a decision of the first grants, a decision of
the second on the same lock grants to whoever has at least the same roles. -/
theorem more_links_open_more {handler₁ handler₂ : JwtSecurityTokenHandler} {db₁ db₂ : SmartLockDb}
    (hlocks : db₁.locks = db₂.locks) (hroles : db₁.roles ⊆ db₂.roles)
    (hlinks : db₁.lockRoles ⊆ db₂.lockRoles) {es₁ es₂ : List ClusterEvent} {s₁ s₂ : Cluster}
    (hes₁ : NoChange (es₁.filterMap siloEvent)) (hes₂ : NoChange (es₂.filterMap siloEvent))
    (h₁ : (cluster handler₁ c).run (init db₁) es₁ = some s₁)
    (h₂ : (cluster handler₂ c).run (init db₂) es₂ = some s₂) {d₁ d₂ : Decision}
    (hd₁ : d₁ ∈ s₁.silo.decisions) (hd₂ : d₂ ∈ s₂.silo.decisions)
    (hkey : c.spelling d₁.key = c.spelling d₂.key)
    (hsub : d₁.request.requesterRoles ⊆ d₂.request.requesterRoles)
    (hgranted : d₁.outcome.result.accessResult = .granted) :
    d₂.outcome.result.accessResult = .granted := by
  have hlock₁ : d₁.before.lock = db₁.findLock c d₂.key :=
    ((run_fixed hes₁ (run_silo h₁)).decided hd₁).trans (SmartLockDb.findLock_congr hkey)
  obtain ⟨name, hname, hopens⟩ := (Decision.granted_iff_opens hlock₁).mp hgranted
  exact (Decision.granted_iff_opens ((run_fixed hes₂ (run_silo h₂)).decided hd₂)).mpr
    ⟨name, hsub hname, SmartLockDb.opens_mono hlocks hroles hlinks d₂.key hopens⟩

/-- The employee at the entrance, and again with the storage room linked to employees too. -/
theorem more_links_open_more_employee :
    let key := DefaultData.entranceLockId
    let db : SmartLockDb := { DefaultData.seededDb with
      lockRoles := DefaultData.seededDb.lockRoles ++
        [⟨DefaultData.storageLockId, DefaultData.employeeRoleId⟩] }
    ∃ s, (cluster unsignedHandler .sqlServerDefault).run (init db)
        [employeePost key, .silo (.activate key), .silo (.handle 2 (employeeCall key))] = some s ∧
      ∃ d ∈ s.silo.decisions, d.outcome.result.accessResult = .granted := by
  intro key db
  let es : List ClusterEvent :=
    [employeePost key, .silo (.activate key), .silo (.handle 2 (employeeCall key))]
  let d : Decision := ⟨key, 2, (employeeCall key).request, ⟨some DefaultData.entranceLock, []⟩⟩
  have hes : NoChange (es.filterMap siloEvent) := by decide +kernel
  obtain ⟨s₁, h₁, hd₁⟩ : ∃ s₁, (cluster unsignedHandler .sqlServerDefault).run
      (init DefaultData.seededDb) es = some s₁ ∧ d ∈ s₁.silo.decisions :=
    Machine.exists_run_of_any (by decide +kernel)
  obtain ⟨s₂, h₂, hd₂⟩ : ∃ s₂, (cluster unsignedHandler .sqlServerDefault).run (init db) es =
      some s₂ ∧ d ∈ s₂.silo.decisions :=
    Machine.exists_run_of_any (by decide +kernel)
  have hroles : DefaultData.seededDb.roles ⊆ db.roles := List.Subset.refl _
  have hlinks : DefaultData.seededDb.lockRoles ⊆ db.lockRoles := List.subset_append_left _ _
  have hgranted : d.outcome.result.accessResult = .granted := by decide +kernel
  exact ⟨s₂, h₂, d, hd₂, more_links_open_more (show DefaultData.seededDb.locks = db.locks from rfl)
    hroles hlinks hes hes h₁ h₂ hd₁ hd₂ rfl (List.Subset.refl _) hgranted⟩

end Cluster

/-! ## The seeded tables -/

namespace DefaultData

/-- Lower-case digits and hyphens only. -/
def canonical (s : String) : Prop := ∀ x ∈ s.toList, Guid.isCanonical x = true

instance (s : String) : Decidable (canonical s) :=
  decidable_of_iff (s.toList.all Guid.isCanonical = true) List.all_eq_true

theorem same_of_canonical {a b : String} (ha : canonical a) (hb : canonical b) :
    c.same a b = decide (a = b) := by
  unfold Collation.same
  rw [c.spelling_of_canonical a ha, c.spelling_of_canonical b hb]

theorem rolesAccesses_seededDb {lockId : String} (h : canonical lockId) :
    seededDb.rolesAccesses c lockId = seededDb.rolesAccesses .sqlServerDefault lockId := by
  have hlinks : ∀ link ∈ seededDb.lockRoles,
      canonical link.locksId ∧ canonical link.rolesAccessesId := by decide +kernel
  have hroles : ∀ r ∈ seededDb.roles, canonical r.id := by decide +kernel
  unfold SmartLockDb.rolesAccesses
  rw [List.filter_congr fun link hlink => (same_of_canonical (hlinks link hlink).1 h).trans
    (same_of_canonical (c := Collation.sqlServerDefault) (hlinks link hlink).1 h).symm]
  simp only [List.flatMap_def]
  refine congrArg List.flatten (List.map_congr_left fun link hlink => ?_)
  have hrole := (hlinks link (List.mem_of_mem_filter hlink)).2
  exact List.filter_congr fun r hr => (same_of_canonical (hroles r hr) hrole).trans
    (same_of_canonical (c := Collation.sqlServerDefault) (hroles r hr) hrole).symm

/-- The lock query on the seeded tables, whatever the collation. -/
theorem findLock_seededDb (key : String) : seededDb.findLock c key =
    if c.spelling key = entranceLockId then some entranceLock
    else if c.spelling key = storageLockId then some storageLock else none := by
  have hentrance : canonical entranceLockId := by decide +kernel
  have hstorage : canonical storageLockId := by decide +kernel
  have hsame : ∀ {id : String}, canonical id →
      c.same id key = decide (c.spelling key = id) := by
    intro id hid
    unfold Collation.same
    rw [c.spelling_of_canonical id hid]
    exact decide_eq_decide.mpr eq_comm
  unfold SmartLockDb.findLock
  rw [show seededDb.locks = [⟨entranceLockId, "Entrance Lock"⟩, ⟨storageLockId, "Storage Room"⟩]
    from rfl, List.find?_cons, List.find?_cons, hsame hentrance, hsame hstorage]
  by_cases he : c.spelling key = entranceLockId
  · rw [if_pos he, decide_eq_true he]
    dsimp only
    rw [Option.map_some, rolesAccesses_seededDb hentrance]
    decide +kernel
  · rw [if_neg he, decide_eq_false he]
    dsimp only
    by_cases hs : c.spelling key = storageLockId
    · rw [if_pos hs, decide_eq_true hs]
      dsimp only
      rw [Option.map_some, rolesAccesses_seededDb hstorage]
      decide +kernel
    · rw [if_neg hs, decide_eq_false hs]
      rfl

theorem mem_opens_seededDb {key name : String} : name ∈ seededDb.opens c key ↔
    (c.spelling key = entranceLockId ∧ (name = managerRoleName ∨ name = employeeRoleName)) ∨
      (c.spelling key = storageLockId ∧ name = managerRoleName) := by
  unfold SmartLockDb.opens
  rw [Set.mem_ofPred_eq, findLock_seededDb]
  have hne : entranceLockId ≠ storageLockId := by decide
  by_cases he : c.spelling key = entranceLockId
  · simp [he, hne, entranceLock, managerRole, employeeRole, eq_comm]
  · by_cases hs : c.spelling key = storageLockId
    · simp [hs, hne.symm, storageLock, managerRole, eq_comm]
    · simp [he, hs]

end DefaultData

namespace Cluster

open Silo DefaultData

variable {handler : JwtSecurityTokenHandler} {s : Cluster}

/-- **The default policy.** In every run from the seeded tables that nothing else changes, whoever
asks over whichever entry point and under whichever spelling of a lock: a decision is a grant
exactly if it is about the entrance for a manager or an employee, or about the storage room for a
manager. -/
theorem seeded_policy {es : List ClusterEvent} (hes : NoChange (es.filterMap siloEvent))
    (h : (cluster handler c).run (init seededDb) es = some s) {d : Decision}
    (hd : d ∈ s.silo.decisions) : d.outcome.result.accessResult = .granted ↔
      (c.spelling d.key = entranceLockId ∧ (managerRoleName ∈ d.request.requesterRoles ∨
        employeeRoleName ∈ d.request.requesterRoles)) ∨
      (c.spelling d.key = storageLockId ∧ managerRoleName ∈ d.request.requesterRoles) := by
  rw [Decision.granted_iff_opens ((run_fixed hes (run_silo h)).decided hd)]
  simp only [mem_opens_seededDb]
  constructor
  · rintro ⟨name, hname, ⟨hkey, rfl | rfl⟩ | ⟨hkey, rfl⟩⟩
    · exact Or.inl ⟨hkey, Or.inl hname⟩
    · exact Or.inl ⟨hkey, Or.inr hname⟩
    · exact Or.inr ⟨hkey, hname⟩
  · rintro (⟨hkey, hname | hname⟩ | ⟨hkey, hname⟩)
    · exact ⟨_, hname, Or.inl ⟨hkey, Or.inl rfl⟩⟩
    · exact ⟨_, hname, Or.inl ⟨hkey, Or.inr rfl⟩⟩
    · exact ⟨_, hname, Or.inr ⟨hkey, rfl⟩⟩

theorem seeded_policy_storage :
    ∃ s, (cluster unsignedHandler .sqlServerDefault).run (init seededDb)
        [employeePost storageLockId, .silo (.activate storageLockId),
          .silo (.handle 2 (employeeCall storageLockId))] = some s ∧
      ∃ d ∈ s.silo.decisions, ¬ d.outcome.result.accessResult = .granted := by
  let d : Decision := ⟨storageLockId, 2, (employeeCall storageLockId).request,
    ⟨some storageLock, []⟩⟩
  obtain ⟨s, hs, hd⟩ : ∃ s, (cluster unsignedHandler .sqlServerDefault).run (init seededDb)
      [employeePost storageLockId, .silo (.activate storageLockId),
        .silo (.handle 2 (employeeCall storageLockId))] = some s ∧ d ∈ s.silo.decisions :=
    Machine.exists_run_of_any (by decide +kernel)
  refine ⟨s, hs, d, hd, ?_⟩
  rw [seeded_policy (by decide +kernel) hs hd]
  decide +kernel

end Cluster

/-! ## Unlinking a role -/

/-- The event links the lock to the role. -/
def SiloEvent.links (c : Collation) (lockId roleId : String) : SiloEvent → Bool
  | .change (.linkRole l r) => c.same l lockId && c.same r roleId
  | _ => false

theorem DbChange.linked_apply {db' : SmartLockDb} {ch : DbChange} {lockId roleId : String}
    (hch : (SiloEvent.change ch).links c lockId roleId = false)
    (hdb : db.linked c lockId roleId = false) (h : ch.apply c db = some db') :
    db'.linked c lockId roleId = false := by
  have hsub : db'.lockRoles ⊆ db.lockRoles → db'.linked c lockId roleId = false := by
    intro hsub
    unfold SmartLockDb.linked at hdb ⊢
    rw [List.any_eq_false] at hdb ⊢
    exact fun l hl => hdb l (hsub hl)
  cases ch with
  | linkRole l r =>
    unfold apply at h
    rw [Option.ite_none_right_eq_some] at h
    rw [← Option.some.inj h.2]
    unfold SmartLockDb.linked at hdb ⊢
    rw [List.any_append, hdb, Bool.false_or, List.any_cons, List.any_nil, Bool.or_false]
    exact hch
  | unlinkRole | deleteRole | deleteLock =>
    refine hsub ?_
    rw [← Option.some.inj h]
    exact List.filter_sublist.subset
  | createRole | renameRole | createLock | createUser | deleteUser | renameUser =>
    refine hsub ?_
    unfold apply at h
    rw [Option.ite_none_left_eq_some] at h
    rw [← Option.some.inj h.2]
    exact List.Subset.refl _

theorem SmartLockDb.role_ne_of_not_linked {lockId roleId key : String} {l : LockEntity}
    (hdb : db.linked c lockId roleId = false) (h : db.findLock c key = some l)
    (hl : c.spelling l.id = c.spelling lockId) {r : RoleEntity} (hr : r ∈ l.rolesAccesses) :
    c.spelling r.id ≠ c.spelling roleId := by
  obtain ⟨row, -, rfl⟩ := Option.map_eq_some_iff.mp h
  obtain ⟨-, link, hlink, hlock, hrole⟩ := mem_rolesAccesses.mp hr
  intro hsame
  unfold linked at hdb
  refine absurd ?_ (List.any_eq_false.mp hdb link hlink)
  rw [Bool.and_eq_true, Collation.same_iff, Collation.same_iff]
  exact ⟨(Collation.same_iff.mp hlock).trans hl, (Collation.same_iff.mp hrole).symm.trans hsame⟩

namespace Silo

variable {s s' : Silo}

/-- No grain of the lock has the role, and the tables do not link the two. -/
structure WithoutRole (c : Collation) (lockId roleId : String) (s : Silo) : Prop where
  tables : s.db.linked c lockId roleId = false
  grains : ∀ key a l, (s.grains key).live = some a → a.grain.lock = some l →
    c.spelling l.id = c.spelling lockId → ∀ r ∈ l.rolesAccesses, c.spelling r.id ≠ c.spelling roleId

theorem WithoutRole.step {lockId roleId : String} (hs : WithoutRole c lockId roleId s)
    {e : SiloEvent} (he : e.links c lockId roleId = false) (h : s.step c e = some s') :
    WithoutRole c lockId roleId s' := by
  constructor
  · obtain ⟨ch, rfl, hch⟩ | hdb := db_cases h
    · exact DbChange.linked_apply he hs.tables hch
    · rw [hdb]
      exact hs.tables
  · intro key a l ha hl hid r hr
    obtain ⟨-, hstay⟩ | ⟨e', hev, hmove⟩ := grain_cases h key
    · rw [hstay] at ha
      exact hs.grains key a l ha hl hid r hr
    · rcases GrainSlot.live_step hmove ha with rfl | ⟨-, b, hb, hlock⟩
      · obtain ⟨-, hrow⟩ := grainEvent_eq_activate hev
        exact SmartLockDb.role_ne_of_not_linked hs.tables (hrow.trans hl) hid hr
      · exact hs.grains key b l hb (hlock.symm.trans hl) hid r hr

end Silo

/-- If the decision is about the lock, it does not know the role. -/
def Decision.WithoutRole (c : Collation) (lockId roleId : String) (d : Decision) : Prop :=
  ∀ l, d.before.lock = some l → c.spelling l.id = c.spelling lockId →
    ∀ r ∈ l.rolesAccesses, c.spelling r.id ≠ c.spelling roleId

theorem Decision.WithoutRole.granted {lockId roleId : String} {d : Decision}
    (hd : d.WithoutRole c lockId roleId) {l : LockEntity} (hl : d.before.lock = some l)
    (hid : c.spelling l.id = c.spelling lockId)
    (hgranted : d.outcome.result.accessResult = .granted) : ∃ r ∈ l.rolesAccesses,
      c.spelling r.id ≠ c.spelling roleId ∧ ∃ name ∈ d.request.requesterRoles,
        r.name = some name := by
  obtain ⟨l', hl', r, hr, name, hname, hrole⟩ := requestAccessAsync_granted.mp hgranted
  obtain rfl : l = l' := Option.some.inj (hl.symm.trans hl')
  exact ⟨r, hr, hd l hl hid r hr, name, hname, hrole⟩

theorem Silo.WithoutRole.decided {s : Silo} {lockId roleId : String}
    (hs : Silo.WithoutRole c lockId roleId s) {e : SiloEvent} {d : Decision}
    (hd : d ∈ (s.decided e).toList) : d.WithoutRole c lockId roleId := by
  cases e with
  | handle utcNow call =>
    obtain ⟨a, ha, rfl⟩ := Option.map_eq_some_iff.mp (Option.mem_toList.mp hd)
    exact fun l hl hid => hs.grains call.key a l ha hl hid
  | activate | timer | late | deactivate | change => cases hd

namespace Cluster

open Silo

variable {handler : JwtSecurityTokenHandler} {s s' : Cluster}

/-- **An unlinked role opens nothing.** Let a lock not be linked to a role, and let no grain of the
lock be live. From then on, as long as no change links the two again, whatever other changes of
`DbChange` are committed and whoever asks with whatever token, no decision on the lock knows the
role: each grant is by another role of the lock. -/
theorem unlinked_role_opens_nothing {lockId roleId : String} {fs : List ClusterEvent}
    (hlink : s.silo.db.linked c lockId roleId = false)
    (hidle : ∀ key a l, (s.silo.grains key).live = some a → a.grain.lock = some l →
      c.spelling l.id ≠ c.spelling lockId)
    (hfs : ∀ e ∈ fs.filterMap siloEvent, e.links c lockId roleId = false)
    (h : (cluster handler c).run s fs = some s') {d : Decision}
    (hd : d ∈ s'.silo.decisions.drop s.silo.decisions.length) {l : LockEntity}
    (hl : d.before.lock = some l) (hid : c.spelling l.id = c.spelling lockId) :
    (∀ r ∈ l.rolesAccesses, c.spelling r.id ≠ c.spelling roleId) ∧
    (d.outcome.result.accessResult = .granted → ∃ r ∈ l.rolesAccesses,
      c.spelling r.id ≠ c.spelling roleId ∧ ∃ name ∈ d.request.requesterRoles,
        r.name = some name) := by
  have hinv := Machine.run_induction_of_forall
    (P := fun e : SiloEvent => e.links c lockId roleId = false)
    (I := fun t : Silo => WithoutRole c lockId roleId t ∧
      ∃ ds, t.decisions = s.silo.decisions ++ ds ∧ ∀ d ∈ ds, d.WithoutRole c lockId roleId)
    (fun t e t' ⟨ht, ds, hds, hroles⟩ he hstep => by
      refine ⟨ht.step he hstep, ds ++ (t.decided e).toList, ?_, ?_⟩
      · rw [step_decisions hstep, hds, List.append_assoc]
      · intro d hd
        rcases List.mem_append.mp hd with hd | hd
        · exact hroles d hd
        · exact ht.decided hd)
    ⟨⟨hlink, fun key a l ha hl hid => absurd hid (hidle key a l ha hl)⟩, [],
      (List.append_nil _).symm, fun _ h => by cases h⟩ hfs (run_silo h)
  obtain ⟨-, ds, hds, hroles⟩ := hinv
  rw [hds, List.drop_left] at hd
  exact ⟨hroles d hd l hl hid, (hroles d hd).granted hl hid⟩

/-- The role of employees is taken off the entrance before its grain is activated. -/
theorem unlinked_role_opens_nothing_employee :
    let key := DefaultData.entranceLockId
    ∃ (s s' : Cluster) (d : Decision),
      (cluster unsignedHandler .sqlServerDefault).run (init DefaultData.seededDb)
        [employeePost key, .silo (.change (.unlinkRole key DefaultData.employeeRoleId))] = some s ∧
      (cluster unsignedHandler .sqlServerDefault).run s
        [.silo (.activate key), .silo (.handle 2 (employeeCall key))] = some s' ∧
      s'.silo.decisions = [d] ∧ ∀ l, d.before.lock = some l →
        ∀ r ∈ l.rolesAccesses, Collation.sqlServerDefault.spelling r.id ≠
          Collation.sqlServerDefault.spelling DefaultData.employeeRoleId := by
  intro key
  let es : List ClusterEvent :=
    [employeePost key, .silo (.change (.unlinkRole key DefaultData.employeeRoleId))]
  let fs : List ClusterEvent := [.silo (.activate key), .silo (.handle 2 (employeeCall key))]
  obtain ⟨s, hs, hlink, hnone, hactivations⟩ : ∃ s, (cluster unsignedHandler .sqlServerDefault).run
      (init DefaultData.seededDb) es = some s ∧
      s.silo.db.linked .sqlServerDefault key DefaultData.employeeRoleId = false ∧
      s.silo.decisions = [] ∧ s.silo.activations = [] :=
    Machine.exists_run_of_any (by decide +kernel)
  obtain ⟨s', hs', hkeys⟩ : ∃ s', (cluster unsignedHandler .sqlServerDefault).run
      (init DefaultData.seededDb) (es ++ fs) = some s' ∧
      s'.silo.decisions.map Decision.key = [key] :=
    Machine.exists_run_of_any (by decide +kernel)
  obtain ⟨m, hm, hrun⟩ := (cluster unsignedHandler .sqlServerDefault).run_append_eq_some.mp hs'
  obtain rfl : s = m := Option.some.inj (hs.symm.trans hm)
  obtain ⟨d, hd, hkey⟩ := List.map_eq_singleton_iff.mp hkeys
  refine ⟨s, s', d, hs, hrun, hd, fun l hl => ?_⟩
  have hidle : ∀ key' a l, (s.silo.grains key').live = some a → a.grain.lock = some l →
      Collation.sqlServerDefault.spelling l.id ≠ Collation.sqlServerDefault.spelling key := by
    intro key' a l ha
    have hloaded := (run_recorded (run_silo hs)).loaded key' a
      (List.mem_append_right _ (Option.mem_toList.mpr ha))
    rw [hactivations] at hloaded
    cases hloaded
  have hmem : d ∈ s'.silo.decisions.drop s.silo.decisions.length := by
    rw [hnone, hd]
    exact List.mem_singleton_self d
  refine (unlinked_role_opens_nothing hlink hidle (by decide +kernel) hrun hmem hl ?_).1
  have hrec := run_recorded (run_silo hs')
  rw [← hkey]
  refine hrec.spelled d.key l ?_
  rw [← hl]
  exact hrec.decided d (hd ▸ List.mem_singleton_self d)

end Cluster

end SmartLock
