import SmartLock.Cluster.History

/-!
# Records over the life cycle of the grains

A record that a grain created waits in its list until a save commits it. The list dies with the
activation, so no record is lost exactly as long as deactivations find nothing unsaved
(`no_record_lost`). `request_then_deactivate` is the shortest run that loses one.
-/

namespace SmartLock

namespace Silo

variable {c : Collation} {s s' : Silo}

/-- The step is no deactivation, or finds everything saved. -/
def DeactivatesSaved (s : Silo) : SiloEvent → Prop
  | .deactivate key => (s.grains key).unsaved = []
  | _ => True

instance (s : Silo) (e : SiloEvent) : Decidable (DeactivatesSaved s e) :=
  match e with
  | .deactivate key => inferInstanceAs (Decidable ((s.grains key).unsaved = []))
  | .activate _ | .handle _ _ | .timer _ _ | .late _ _ _ | .change _ =>
    inferInstanceAs (Decidable True)

theorem accounted_step {e : SiloEvent} (hs : ∀ key, (s.grains key).Accounted)
    (he : DeactivatesSaved s e) (h : s.step c e = some s') (key : String) :
    (s'.grains key).Accounted := by
  refine forall_grains_step ?_ hs h key
  rintro k g e' g' hev hacc rfl hstep
  refine hacc.step ?_ hstep
  rintro rfl
  cases e with
  | deactivate k' =>
    simp only [grainEvent, Option.ite_none_right_eq_some] at hev
    obtain ⟨rfl, -⟩ := hev
    exact he
  | activate | handle | timer | late | change => simp [grainEvent] at hev

/-- **No record is lost.** In a run whose deactivations find everything saved, the records created
under every key are the batches saved under it followed by the unsaved records of its live
activation, and all batches are in the table. So every record is in the table or in the list of a
live activation. -/
theorem no_record_lost {db : SmartLockDb} {es : List SiloEvent} (hes : NoChange es)
    (hd : (silo c).Along DeactivatesSaved (init db) es) (h : (silo c).run (init db) es = some s) :
    s.db.lockAccesses = db.lockAccesses ++ (s.batches.map Prod.snd).flatten ∧
      ∀ key, recordsOf s.decisions key =
          (batchesOf s.batches key).flatten ++ (s.grains key).unsaved ∧
        ∀ r ∈ recordsOf s.decisions key, r ∈ s.db.lockAccesses ∨ r ∈ (s.grains key).buffer := by
  have htable : Appended db s := run_appended hes h
  have hacc : ∀ key, (s.grains key).Accounted :=
    Machine.run_induction (I := fun s => ∀ key, (s.grains key).Accounted)
      (fun _ _ _ hs he hstep => accounted_step hs he hstep) (fun _ => GrainSlot.accounted_empty)
      hd h
  have hrec := run_recorded h
  refine ⟨htable, fun key => ?_⟩
  have hledger : recordsOf s.decisions key =
      (batchesOf s.batches key).flatten ++ (s.grains key).unsaved := by
    rw [← hrec.created, ← hrec.stored, (hacc key).ledger]
  refine ⟨hledger, ?_⟩
  intro r hr
  rw [hledger, List.mem_append] at hr
  rcases hr with hr | hr
  · left
    obtain ⟨b, hb, hrb⟩ := List.mem_flatten.mp hr
    rw [htable, List.mem_append]
    exact Or.inr (List.mem_flatten.mpr
      ⟨b, List.mem_map.mpr ⟨_, mem_batchesOf.mp hb, rfl⟩, hrb⟩)
  · exact Or.inr ((s.grains key).unsaved_subset_buffer hr)

/-- A request, a flush that commits it and a deactivation, on the seeded tables. -/
theorem no_record_lost_after_flush :
    let c := Collation.sqlServerDefault
    let call : GrainCall := ⟨DefaultData.entranceLockId, some DefaultData.managerId,
      [DefaultData.managerRoleName], none⟩
    ∃ s, (silo c).run (init DefaultData.seededDb) [.activate call.key, .handle 1 call,
        .timer call.key .tick, .timer call.key .commit, .timer call.key .resume,
        .deactivate call.key] = some s ∧
      ∀ r ∈ recordsOf s.decisions call.key, r ∈ s.db.lockAccesses ∨
        r ∈ (s.grains call.key).buffer := by
  intro c call
  obtain ⟨s, hs, -⟩ : ∃ s, (silo c).run (init DefaultData.seededDb) [.activate call.key,
      .handle 1 call, .timer call.key .tick, .timer call.key .commit, .timer call.key .resume,
      .deactivate call.key] = some s ∧ s.batches.length = 1 :=
    Machine.exists_run_of_any (by decide +kernel)
  refine ⟨s, hs, ?_⟩
  exact ((no_record_lost (by decide) (by decide +kernel) hs).2 call.key).2

/-- A request and a deactivation before the next flush: the record is nowhere. -/
theorem request_then_deactivate :
    let call : GrainCall := ⟨DefaultData.entranceLockId, some DefaultData.managerId,
      [DefaultData.managerRoleName], none⟩
    ∃ s r, (silo .sqlServerDefault).run (init DefaultData.seededDb) [.activate call.key,
        .handle 1 call, .deactivate call.key] = some s ∧
      r ∈ recordsOf s.decisions call.key ∧ r ∉ s.db.lockAccesses ∧
        ∀ key, r ∉ (s.grains key).buffer := by
  intro call
  obtain ⟨s, hs, hlen, hkeys, hdb, hbuffer⟩ : ∃ s, (silo .sqlServerDefault).run
      (init DefaultData.seededDb) [.activate call.key, .handle 1 call, .deactivate call.key] =
        some s ∧ (recordsOf s.decisions call.key).length = 1 ∧
      s.decisions.map Decision.key = [call.key] ∧ s.db.lockAccesses = [] ∧
      (s.grains call.key).buffer = [] :=
    Machine.exists_run_of_any (by decide +kernel)
  obtain ⟨r, hr⟩ := List.length_eq_one_iff.mp hlen
  refine ⟨s, r, hs, by rw [hr]; exact List.mem_singleton_self r, by rw [hdb]; simp, ?_⟩
  intro key hmem
  obtain ⟨d, hd, rfl, -⟩ := (run_recorded hs).of_mem_buffer hmem
  have hkey : d.key ∈ s.decisions.map Decision.key := List.mem_map_of_mem hd
  rw [hkeys, List.mem_singleton] at hkey
  rw [hkey, hbuffer] at hmem
  cases hmem

end Silo

end SmartLock
