import SmartLock.Cluster.FrontEnd
import SmartLock.Cluster.History
import SmartLock.WebApi.Authentication

/-!
# A flush is one transaction

`SaveLockAccessAsync` hands the whole list to one `SaveChangesAsync`. A flush takes what the list
holds when it starts, and when the database answers it stores all of that or none of it
(`flush_all_or_nothing`), so one record that breaks a constraint keeps the records of the same batch
out too (`bad_record_blocks`).
-/

namespace SmartLock

/-- The list of the `i`-th activation. -/
def GrainSlot.listOf (g : GrainSlot) (i : ℕ) : Option (List LockAccessHistoryEntity) :=
  g.activations[i]?.map fun a => a.grain.lockAccesses

namespace Silo

variable {c : Collation} {s s' : Silo} {key : String} {i : ℕ}

/-- The turn of the callback of the `i`-th activation of `key`. -/
def callback (s : Silo) (key : String) (i : ℕ) (t : TimerEvent) : SiloEvent :=
  if i = (s.grains key).ended.length then .timer key t else .late key i t

/-- The save of an activation ends while the database is reachable: it commits what the database
accepts and throws otherwise. -/
def saveEnds (c : Collation) (s : Silo) (key : String) (i : ℕ) : Option Silo :=
  (s.step c (s.callback key i .commit)).or (s.step c (s.callback key i .throw))

theorem eq_callback {e : SiloEvent} {t : TimerEvent}
    (h : grainEvent c s key e = some ((s.grains key).callback i t)) : e = s.callback key i t := by
  unfold GrainSlot.callback at h
  unfold callback
  cases e with
  | timer k t' =>
    simp only [grainEvent, Option.ite_none_right_eq_some, Option.some.injEq] at h
    obtain ⟨rfl, h⟩ := h
    split_ifs at h ⊢
    cases h
    rfl
  | late k j t' =>
    simp only [grainEvent, Option.ite_none_right_eq_some, Option.some.injEq] at h
    obtain ⟨rfl, h⟩ := h
    split_ifs at h ⊢
    cases h
    rfl
  | activate | handle | deactivate =>
    simp only [grainEvent, Option.ite_none_right_eq_some, Option.some.injEq] at h
    obtain ⟨-, h⟩ := h
    split_ifs at h
  | change => cases h

theorem step_callback (t : TimerEvent) : s.step c (s.callback key i t) =
    s.turn c key ((s.grains key).callback i t) := by
  unfold callback GrainSlot.callback
  split_ifs <;> rfl

theorem callback_step {a b : Activation} {t : TimerEvent}
    (ha : (s.grains key).activations[i]? = some a) (hb : a.timerStep t = some b) (ht : t ≠ .tick) :
    ∃ g, g.activations[i]? = some b ∧ s.step c (s.callback key i t) =
      (commitBatch c s.db (a.committing t)).map fun db => { s with
        db := db
        grains := Function.update s.grains key g
        batches := s.batches ++ ((a.committing t).map fun batch => (key, batch)).toList } := by
  obtain ⟨g, hg, hlist, hcom⟩ := GrainSlot.callback_step ha hb ht
  refine ⟨g, hlist, ?_⟩
  rw [step_callback, turn, hg, hcom]
  show (commitBatch c s.db (a.committing t)).bind _ = _
  cases commitBatch c s.db (a.committing t) <;> rfl

/-- The `i`-th activation of `key` awaits the save of `batch`, the front of its list. -/
def Awaits (s : Silo) (key : String) (i : ℕ) (batch : List LockAccessHistoryEntity) : Prop :=
  ∃ a count later, (s.grains key).activations[i]? = some a ∧ a.save = .saving count batch ∧
    a.grain.lockAccesses = batch ++ later

variable {batch : List LockAccessHistoryEntity}

theorem awaits_tick (hne : (s.grains key).buffer ≠ []) (h : s.step c (.timer key .tick) = some s') :
    s'.Awaits key (s.grains key).ended.length (s.grains key).buffer := by
  obtain ⟨g, db, hg, -, rfl⟩ := turn_eq_some h
  obtain ⟨a, b, ha, hb, rfl⟩ := GrainSlot.timer_eq_some hg
  have hbuffer : (s.grains key).buffer = a.grain.lockAccesses := by
    rw [GrainSlot.buffer, ha]
    rfl
  rw [hbuffer] at hne ⊢
  obtain ⟨-, -, ⟨hnil, -⟩ | ⟨-, rfl⟩⟩ := Activation.tick_eq_some hb
  · exact absurd hnil hne
  · refine ⟨{ a with save := .saving a.grain.lockAccesses.length a.grain.lockAccesses }, _, [], ?_,
      rfl, (List.append_nil _).symm⟩
    show (Function.update s.grains key _ key).activations[_]? = _
    rw [Function.update_self]
    exact GrainSlot.activations_length

/-- Until the callback takes a turn, the list only grows behind the batch. -/
theorem Awaits.step (hs : s.Awaits key i batch) {e : SiloEvent}
    (he : ∀ t, e ≠ s.callback key i t) (h : s.step c e = some s') : s'.Awaits key i batch := by
  obtain ⟨a, count, later, ha, hsave, hlist⟩ := hs
  obtain ⟨-, hstay⟩ | ⟨e', hev, hmove⟩ := grain_cases h key
  · exact ⟨a, count, later, by rw [hstay]; exact ha, hsave, hlist⟩
  · obtain ⟨b, hb, rfl | ⟨utcNow, req, rfl⟩ | ⟨t, rfl, -⟩⟩ := GrainSlot.activation_step hmove ha
    · exact ⟨b, count, later, hb, hsave, hlist⟩
    · refine ⟨_, count, later ++ (a.grain.record utcNow req).toList, hb, hsave, ?_⟩
      rw [Activation.request_lockAccesses, hlist, List.append_assoc]
    · exact absurd (eq_callback hev) (he t)

theorem Awaits.saveEnds (hs : s.Awaits key i batch) :
    ∃ later, (s.grains key).listOf i = some (batch ++ later) ∧
    ((∀ r ∈ batch, s.db.satisfiesConstraints c r = true) → ∃ t, s.saveEnds c key i = some t ∧
      t.db.lockAccesses = s.db.lockAccesses ++ batch) ∧
    ((∃ r ∈ batch, s.db.satisfiesConstraints c r = false) → ∃ t, s.saveEnds c key i = some t ∧
      t.db = s.db ∧ (t.grains key).listOf i = some (batch ++ later)) := by
  obtain ⟨a, count, later, ha, hsave, hlist⟩ := hs
  have hcommit : a.timerStep .commit =
      some { a with save := .saved count, committed := a.committed ++ [batch] } := by
    rw [Activation.timerStep, hsave]
  have hthrow : a.timerStep .throw = some { a with save := .idle } := by
    rw [Activation.timerStep, hsave]
  have hcom : a.committing .commit = some batch := by
    rw [Activation.committing, hsave]
  obtain ⟨g, -, hcommits⟩ := callback_step (c := c) ha hcommit (by decide)
  obtain ⟨g', hg', hthrows⟩ := callback_step (c := c) ha hthrow (by decide)
  rw [hcom] at hcommits
  unfold Silo.saveEnds
  rw [hcommits, hthrows]
  refine ⟨later, ?_, fun hall => ?_, ?_⟩
  · rw [GrainSlot.listOf, ha, Option.map_some, hlist]
  · rw [commitBatch, SmartLockDb.saveChangesAsync_eq_some.mpr ⟨hall, rfl⟩]
    exact ⟨_, rfl, rfl⟩
  · rintro ⟨r, hr, hbad⟩
    have hrefused : s.db.saveChangesAsync c batch = none := by
      rw [Option.eq_none_iff_forall_not_mem]
      intro db' hdb'
      have hall := (SmartLockDb.saveChangesAsync_eq_some.mp hdb').1 r hr
      rw [hbad] at hall
      cases hall
    rw [commitBatch, hrefused]
    refine ⟨_, rfl, rfl, ?_⟩
    show (Function.update s.grains key g' key).listOf i = _
    rw [Function.update_self, GrainSlot.listOf, hg', Option.map_some]
    exact congrArg some hlist

end Silo

namespace Cluster

variable {handler : JwtSecurityTokenHandler} {c : Collation} {s t u : Cluster}

/-- **All or nothing.** Let a flush of `key` start, in any state, with records in the list; let
anything happen but another turn of its callback, and let the database then be reachable. If all
records that the list held at the start satisfy the constraints, the flush stores them all, in
order; if one does not, it stores nothing and the list stays as it is, those records in front. -/
theorem flush_all_or_nothing {mid : List ClusterEvent} {key : String}
    (htick : (cluster handler c).step s (.silo (.timer key .tick)) = some t)
    (hne : (s.silo.grains key).buffer ≠ [])
    (hmid : (cluster handler c).run t mid = some u)
    (hawaits : (cluster handler c).Along (fun m e => ∀ turn,
      e ≠ .silo (m.silo.callback key (s.silo.grains key).ended.length turn)) t mid) :
    let i := (s.silo.grains key).ended.length
    let batch := (s.silo.grains key).buffer
    ∃ later, (u.silo.grains key).listOf i = some (batch ++ later) ∧
    ((∀ r ∈ batch, u.silo.db.satisfiesConstraints c r = true) →
      ∃ v, u.silo.saveEnds c key i = some v ∧
        v.db.lockAccesses = u.silo.db.lockAccesses ++ batch) ∧
    ((∃ r ∈ batch, u.silo.db.satisfiesConstraints c r = false) →
      ∃ v, u.silo.saveEnds c key i = some v ∧ v.db = u.silo.db ∧
        (v.grains key).listOf i = some (batch ++ later)) := by
  intro i batch
  have hstart : t.silo.Awaits key i batch :=
    Silo.awaits_tick hne (projects_silo s (.silo (.timer key .tick)) t trivial htick)
  have hend : u.silo.Awaits key i batch := by
    refine Machine.run_induction (I := fun m : Cluster => m.silo.Awaits key i batch) ?_ hstart
      hawaits hmid
    intro m e m' hm he hstep
    have hproj := projects_silo m e m' trivial hstep
    cases e with
    | silo e' => exact hm.step (fun turn h => he turn (congrArg _ h)) hproj
    | connect | publish | post | inject | sendFault =>
      rw [show m'.silo = m.silo from hproj]
      exact hm
  exact hend.saveEnds

/-! ## At the entrance -/

/-- The record that the decision on the employee's post leaves. -/
def employeeRecord : LockAccessHistoryEntity := .create DefaultData.entranceLockId
  (some DefaultData.employeeId) .granted (some DefaultData.employeeId) 2

/-- Two records of the employee are flushed, and a third comes while the database is awaited. -/
theorem flush_all_or_nothing_employee :
    let key := DefaultData.entranceLockId
    let post := employeePost key
    let grant (utcNow : DateTime) : ClusterEvent := .silo (.handle utcNow (employeeCall key))
    let record (utcNow : DateTime) : LockAccessHistoryEntity :=
      { employeeRecord with accessDate := utcNow }
    ∃ u, (cluster unsignedHandler .sqlServerDefault).run (init DefaultData.seededDb)
        [post, post, .silo (.activate key), grant 1, grant 2, .silo (.timer key .tick), post,
          grant 3] = some u ∧
      (u.silo.grains key).listOf 0 = some [record 1, record 2, record 3] ∧
      ∃ v, u.silo.saveEnds .sqlServerDefault key 0 = some v ∧
        v.db.lockAccesses = u.silo.db.lockAccesses ++ [record 1, record 2] := by
  intro key post grant record
  let pre : List ClusterEvent := [post, post, .silo (.activate key), grant 1, grant 2]
  let tick : ClusterEvent := .silo (.timer key .tick)
  obtain ⟨u, hu, hlist, hvalid⟩ : ∃ u, (cluster unsignedHandler .sqlServerDefault).run
      (init DefaultData.seededDb) (pre ++ tick :: [post, grant 3]) = some u ∧
      (u.silo.grains key).listOf 0 = some [record 1, record 2, record 3] ∧
      ∀ r ∈ [record 1, record 2], u.silo.db.satisfiesConstraints .sqlServerDefault r = true :=
    Machine.exists_run_of_any (by decide +kernel)
  obtain ⟨s, hs, hended, hbuffer⟩ : ∃ s, (cluster unsignedHandler .sqlServerDefault).run
      (init DefaultData.seededDb) pre = some s ∧ (s.silo.grains key).ended.length = 0 ∧
      (s.silo.grains key).buffer = [record 1, record 2] :=
    Machine.exists_run_of_any (by decide +kernel)
  obtain ⟨m, hm, hrest⟩ := (cluster unsignedHandler .sqlServerDefault).run_append_eq_some.mp hu
  obtain rfl : s = m := Option.some.inj (hs.symm.trans hm)
  obtain ⟨t, htick, hmid⟩ := (cluster unsignedHandler .sqlServerDefault).run_cons_eq_some.mp hrest
  have hawaits : (cluster unsignedHandler .sqlServerDefault).Along (fun m e => ∀ turn,
      e ≠ .silo (m.silo.callback key (s.silo.grains key).ended.length turn)) t [post, grant 3] := by
    refine Machine.along_of_forall fun e he m turn => ?_
    simp only [List.mem_cons, List.not_mem_nil, or_false] at he
    rcases he with rfl | rfl
    · exact ClusterEvent.noConfusion
    · unfold Silo.callback
      split_ifs <;> simp [grant]
  obtain ⟨-, -, hstored, -⟩ :=
    flush_all_or_nothing htick (by rw [hbuffer]; exact List.cons_ne_nil _ _) hmid hawaits
  rw [hended, hbuffer] at hstored
  exact ⟨u, hu, hlist, hstored hvalid⟩

/-- A publish with a token that has no user data claim leaves a record without a requester in the
batch of the employee's record, which the flush then does not store. -/
theorem bad_record_blocks :
    let key := DefaultData.entranceLockId
    let session : Session := ⟨some key, key⟩
    ∃ s, (cluster unsignedHandler .sqlServerDefault).run (init DefaultData.seededDb)
        [.connect session, .publish session "requests" unsignedPublish.payload,
          employeePost key, .silo (.activate key),
          .silo (.handle 1 ⟨key, none, [DefaultData.managerRoleName], none⟩),
          .silo (.handle 2 (employeeCall key)), .silo (.timer key .tick)] = some s ∧
      employeeRecord ∈ (s.silo.grains key).buffer ∧
      s.silo.db.satisfiesConstraints .sqlServerDefault employeeRecord = true ∧
      (s.silo.saveEnds .sqlServerDefault key 0).any (fun t => employeeRecord ∉ t.db.lockAccesses) =
        true :=
  Machine.exists_run_of_any (by decide +kernel)

end Cluster

end SmartLock
