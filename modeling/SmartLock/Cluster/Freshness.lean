import SmartLock.Cluster.Silo

/-!
# The lock in memory and the tables

A grain reads its lock once, when it is activated, and answers from that copy until it is
deactivated: the README's grain as a cache. `answer` is the answer that the rows of a database
give. `decision_as_loaded`: every decision is the answer of the rows that were current at the
activation, and no deactivation lies in between; it is the answer of the current rows when the
lock query returns the same at both moments.
-/

namespace SmartLock

/-- The answer to a call that the rows of `db` give. -/
def SmartLockDb.answer (c : Collation) (db : SmartLockDb) (utcNow : DateTime) (call : GrainCall) :
    LockAccessResultDto :=
  ((LockGrain.onActivateAsync (db.findLock c call.key)).requestAccessAsync utcNow
    call.request).result

theorem GrainSlot.live_step {g g' : GrainSlot} {e : GrainEvent} (h : g.step e = some g')
    {a : Activation} (ha : g'.live = some a) : e = .activate a.grain.lock ∨
      (e ≠ .deactivate ∧ ∃ b, g.live = some b ∧ a.grain.lock = b.grain.lock) := by
  cases e with
  | activate row =>
    obtain ⟨-, rfl⟩ := activate_eq_some h
    cases ha
    exact Or.inl rfl
  | request utcNow req =>
    obtain ⟨b, hb, rfl⟩ := request_eq_some h
    cases ha
    exact Or.inr ⟨nofun, b, hb, Activation.request_lock _ _⟩
  | timer t =>
    obtain ⟨b, b', hb, hstep, rfl⟩ := timer_eq_some h
    cases ha
    exact Or.inr ⟨nofun, b, hb, Activation.timerStep_lock hstep⟩
  | late i t =>
    obtain ⟨b, b', -, -, -, rfl⟩ := late_eq_some h
    exact Or.inr ⟨nofun, a, ha, rfl⟩
  | deactivate =>
    obtain ⟨b, -, rfl⟩ := deactivate_eq_some h
    cases ha

namespace Silo

variable {c : Collation} {db : SmartLockDb} {s s' : Silo}

/-- The run `es` from the tables `db` last activated `key` in a state whose lock query gave
`row`, and has not deactivated it since. -/
def LoadedIn (c : Collation) (db : SmartLockDb) (es : List SiloEvent) (key : String)
    (row : Option LockEntity) : Prop :=
  ∃ pre mid s₀, es = pre ++ .activate key :: mid ∧ .deactivate key ∉ mid ∧
    (silo c).run (init db) pre = some s₀ ∧ s₀.db.findLock c key = row

theorem LoadedIn.concat {es : List SiloEvent} {key : String} {row : Option LockEntity}
    (h : LoadedIn c db es key row) {e : SiloEvent} (he : e ≠ .deactivate key) :
    LoadedIn c db (es ++ [e]) key row := by
  obtain ⟨pre, mid, s₀, rfl, hmid, hpre, hrow⟩ := h
  refine ⟨pre, mid ++ [e], s₀, by simp, ?_, hpre, hrow⟩
  simp only [List.mem_append, List.mem_singleton, not_or]
  exact ⟨hmid, Ne.symm he⟩

/-- The lock of every live activation is the row that the last activation of its key found. -/
theorem run_loadedIn {es : List SiloEvent} (h : (silo c).run (init db) es = some s)
    {key : String} {a : Activation} (ha : (s.grains key).live = some a) :
    LoadedIn c db es key a.grain.lock := by
  induction es using List.reverseRecOn generalizing s a with
  | nil =>
    cases h
    cases ha
  | append_singleton es e ih =>
    obtain ⟨m, hm, hstep⟩ := Machine.run_append_eq_some _ |>.mp h
    rw [Machine.run_singleton] at hstep
    obtain ⟨he, hstay⟩ | ⟨e', he, hmove⟩ := grain_cases hstep key
    · rw [hstay] at ha
      refine (ih hm ha).concat ?_
      rintro rfl
      simp [grainEvent] at he
    · rcases GrainSlot.live_step hmove ha with rfl | ⟨hne, b, hb, hlock⟩
      · obtain ⟨rfl, hrow⟩ := grainEvent_eq_activate he
        exact ⟨es, [], m, rfl, List.not_mem_nil, hm, hrow⟩
      · rw [hlock]
        refine (ih hm hb).concat ?_
        rintro rfl
        simp only [grainEvent, if_true, Option.some.injEq] at he
        exact hne he.symm

/-- **Decisions and the tables.** Every decision is the answer of the rows that were current when
its grain was activated, and of the current rows if the lock query still returns the same. -/
theorem decision_as_loaded {es : List SiloEvent} {utcNow : DateTime} {call : GrainCall}
    (h : (silo c).run (init db) es = some s)
    (hstep : (silo c).step s (.handle utcNow call) = some s') :
    ∃ pre mid s₀, es = pre ++ .activate call.key :: mid ∧ .deactivate call.key ∉ mid ∧
      (silo c).run (init db) pre = some s₀ ∧
      ∃ d, s'.decisions = s.decisions ++ [d] ∧ d.call = call ∧
        d.outcome.result = s₀.db.answer c utcNow call ∧
        (s.db.findLock c call.key = s₀.db.findLock c call.key →
          d.outcome.result = s.db.answer c utcNow call) := by
  obtain ⟨a, g, ha, -, rfl⟩ := handle_eq_some (c := c) hstep
  obtain ⟨pre, mid, s₀, hes, hmid, hpre, hrow⟩ := run_loadedIn h ha
  have hres : ∀ {row}, row = a.grain.lock →
      (a.grain.requestAccessAsync utcNow call.request).result =
        ((LockGrain.onActivateAsync row).requestAccessAsync utcNow call.request).result :=
    fun hrow => (LockGrain.requestAccessAsync_congr hrow.symm utcNow utcNow call.request).1
  exact ⟨pre, mid, s₀, hes, hmid, hpre, _, rfl, rfl, hres hrow,
    fun hsame => hres (hsame.trans hrow)⟩

/-- A request at the entrance that is handled by the activation of the second step. -/
theorem decision_as_loaded_manager :
    let call : GrainCall := ⟨DefaultData.entranceLockId, some DefaultData.managerId,
      [DefaultData.managerRoleName], none⟩
    let es : List SiloEvent := [.change (.deleteRole DefaultData.employeeRoleId),
      .activate call.key]
    ∃ s s', (silo .sqlServerDefault).run (init DefaultData.seededDb) es = some s ∧
      (silo .sqlServerDefault).step s (.handle 1 call) = some s' ∧
      ∃ pre mid s₀, es = pre ++ .activate call.key :: mid ∧ .deactivate call.key ∉ mid ∧
        (silo .sqlServerDefault).run (init DefaultData.seededDb) pre = some s₀ ∧
        ∃ d, s'.decisions = s.decisions ++ [d] ∧ d.call = call ∧
          d.outcome.result = s₀.db.answer .sqlServerDefault 1 call := by
  intro call es
  have hrun : (((silo .sqlServerDefault).run (init DefaultData.seededDb) es).bind fun s =>
      (silo .sqlServerDefault).step s (.handle 1 call)).isSome := by decide +kernel
  obtain ⟨s', hbind⟩ := Option.isSome_iff_exists.mp hrun
  obtain ⟨s, hs, hstep⟩ := Option.bind_eq_some_iff.mp hbind
  obtain ⟨pre, mid, s₀, hes, hmid, hpre, d, hd, hcall, hres, -⟩ := decision_as_loaded hs hstep
  exact ⟨s, s', hs, hstep, pre, mid, s₀, hes, hmid, hpre, d, hd, hcall, hres⟩

/-- A manager gets into the storage room after its link to the role is gone, and is kept out of a
room that was created after its grain was activated. -/
theorem stale_decisions :
    let roles := [DefaultData.managerRoleName]
    let storage : GrainCall := ⟨DefaultData.storageLockId, some DefaultData.managerId, roles, none⟩
    let annex : GrainCall := ⟨"annex", some DefaultData.managerId, roles, none⟩
    (∃ s, (silo .sqlServerDefault).run (init DefaultData.seededDb) [.activate storage.key,
        .change (.unlinkRole storage.key DefaultData.managerRoleId), .handle 1 storage] = some s ∧
      s.decisions.map (fun d => d.outcome.result) = [⟨.granted⟩] ∧
      s.db.answer .sqlServerDefault 1 storage = ⟨.denied⟩) ∧
    ∃ s, (silo .sqlServerDefault).run (init DefaultData.seededDb) [.activate annex.key,
        .change (.createLock ⟨annex.key, "Annex"⟩),
        .change (.linkRole annex.key DefaultData.managerRoleId), .handle 1 annex] = some s ∧
      s.decisions.map (fun d => d.outcome.result) = [⟨.denied⟩] ∧
      s.db.answer .sqlServerDefault 1 annex = ⟨.granted⟩ :=
  ⟨Machine.exists_run_of_any (by decide +kernel), Machine.exists_run_of_any (by decide +kernel)⟩

end Silo

end SmartLock
