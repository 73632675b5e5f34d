import SmartLock.Cluster.Silo

/-!
# The histories of the silo

What the history variables of a silo say about its grains, in every state of every run
(`run_recorded`): the records that a grain created are those of the decisions under its key, the
batches it stored are those logged under its key, and every lock that an activation or a decision
uses was loaded under its key.
-/

namespace SmartLock

/-- The records of the decisions under one key. -/
def recordsOf (ds : List Decision) (key : String) : List LockAccessHistoryEntity :=
  (ds.filter fun d => d.key = key).filterMap Decision.record

/-- The batches saved under one key. -/
def batchesOf (bs : List (String × List LockAccessHistoryEntity)) (key : String) :
    List (List LockAccessHistoryEntity) :=
  (bs.filter fun b => b.1 = key).map Prod.snd

theorem recordsOf_append (ds es : List Decision) (key : String) :
    recordsOf (ds ++ es) key = recordsOf ds key ++ recordsOf es key := by
  unfold recordsOf
  rw [List.filter_append, List.filterMap_append]

theorem batchesOf_append (bs ds : List (String × List LockAccessHistoryEntity)) (key : String) :
    batchesOf (bs ++ ds) key = batchesOf bs key ++ batchesOf ds key := by
  unfold batchesOf
  rw [List.filter_append, List.map_append]

theorem mem_recordsOf {ds : List Decision} {key : String} {r : LockAccessHistoryEntity} :
    r ∈ recordsOf ds key ↔ ∃ d ∈ ds, d.key = key ∧ d.record = some r := by
  unfold recordsOf
  simp only [List.mem_filterMap, List.mem_filter, decide_eq_true_eq, and_assoc]

theorem mem_batchesOf {bs : List (String × List LockAccessHistoryEntity)} {key : String}
    {b : List LockAccessHistoryEntity} : b ∈ batchesOf bs key ↔ (key, b) ∈ bs := by
  unfold batchesOf
  simp only [List.mem_map, List.mem_filter, decide_eq_true_eq]
  constructor
  · rintro ⟨⟨k, b'⟩, ⟨hmem, rfl⟩, rfl⟩
    exact hmem
  · intro h
    exact ⟨_, ⟨h, rfl⟩, rfl⟩

theorem GrainSlot.mem_activations_step {g g' : GrainSlot} {e : GrainEvent}
    (h : g.step e = some g') {a : Activation} (ha : a ∈ g'.activations) :
    e = .activate a.grain.lock ∨ ∃ b ∈ g.activations, a.grain.lock = b.grain.lock := by
  unfold activations at ha ⊢
  cases e with
  | activate row =>
    obtain ⟨-, rfl⟩ := activate_eq_some h
    rcases List.mem_append.mp ha with ha | ha
    · exact Or.inr ⟨a, List.mem_append_left _ ha, rfl⟩
    · rw [List.mem_singleton.mp ha]
      exact Or.inl rfl
  | request utcNow req =>
    obtain ⟨b, hb, rfl⟩ := request_eq_some h
    rcases List.mem_append.mp ha with ha | ha
    · exact Or.inr ⟨a, List.mem_append_left _ ha, rfl⟩
    · rw [List.mem_singleton.mp ha]
      exact Or.inr ⟨b, List.mem_append_right _ (by simp [hb]), Activation.request_lock _ _⟩
  | timer t =>
    obtain ⟨b, b', hb, hstep, rfl⟩ := timer_eq_some h
    rcases List.mem_append.mp ha with ha | ha
    · exact Or.inr ⟨a, List.mem_append_left _ ha, rfl⟩
    · rw [List.mem_singleton.mp ha]
      exact Or.inr ⟨b, List.mem_append_right _ (by simp [hb]), Activation.timerStep_lock hstep⟩
  | late i t =>
    obtain ⟨b, b', hb, -, hstep, rfl⟩ := late_eq_some h
    rcases List.mem_append.mp ha with ha | ha
    · rcases List.mem_or_eq_of_mem_set ha with ha | rfl
      · exact Or.inr ⟨a, List.mem_append_left _ ha, rfl⟩
      · exact Or.inr ⟨b, List.mem_append_left _ (List.mem_of_getElem? hb),
          Activation.timerStep_lock hstep⟩
    · exact Or.inr ⟨a, List.mem_append_right _ ha, rfl⟩
  | deactivate =>
    obtain ⟨b, hb, rfl⟩ := deactivate_eq_some h
    refine Or.inr ⟨a, ?_, rfl⟩
    rw [hb]
    simpa using ha

namespace Silo

variable {c : Collation} {s s' : Silo}

/-- The histories and the grains agree. -/
structure Recorded (c : Collation) (s : Silo) : Prop where
  sound : ∀ key, (s.grains key).Sound
  created : ∀ key, (s.grains key).created = recordsOf s.decisions key
  stored : ∀ key, (s.grains key).stored = batchesOf s.batches key
  committed : ∀ key, (s.grains key).stored.flatten ⊆ (s.grains key).created
  loaded : ∀ key, ∀ a ∈ (s.grains key).activations, (key, a.grain.lock) ∈ s.activations
  decided : ∀ d ∈ s.decisions, (d.key, d.before.lock) ∈ s.activations
  spelled : ∀ key l, (key, some l) ∈ s.activations → c.spelling l.id = c.spelling key

theorem recorded_init (db : SmartLockDb) : (init db).Recorded c where
  sound _ := GrainSlot.sound_empty
  created _ := rfl
  stored _ := rfl
  committed _ := List.Subset.refl _
  loaded _ _ h := by cases h
  decided _ h := by cases h
  spelled _ _ h := by cases h

theorem recordsOf_decided (e : SiloEvent) (key : String) : recordsOf (s.decided e).toList key =
    ((grainEvent c s key e).bind (s.grains key).creating).toList := by
  cases e with
  | handle utcNow call =>
    simp only [decided, grainEvent]
    by_cases hk : call.key = key
    · subst hk
      simp only [if_true, Option.bind_some, GrainSlot.creating]
      cases (s.grains call.key).live with
      | none => rfl
      | some a =>
        simp only [recordsOf, Option.map_some, Option.toList_some, Option.bind_some]
        cases hr : a.grain.record utcNow call.request <;> simp [Decision.record, hr]
    · rw [if_neg hk]
      cases (s.grains call.key).live with
      | none => rfl
      | some a => simp [recordsOf, hk]
  | activate k | timer k t | late k i t | deactivate k =>
    simp only [decided, grainEvent]
    by_cases hk : k = key <;> simp [hk, recordsOf, GrainSlot.creating]
  | change ch => rfl

theorem batchesOf_saved (e : SiloEvent) (key : String) : batchesOf (s.saved e).toList key =
    ((grainEvent c s key e).bind (s.grains key).committing).toList := by
  cases e with
  | timer k t | late k i t =>
    simp only [saved, grainEvent]
    by_cases hk : k = key
    · subst hk
      simp only [if_true, Option.bind_some]
      cases (s.grains k).committing _ <;> simp [batchesOf]
    · rw [if_neg hk]
      cases (s.grains k).committing _ <;> simp [batchesOf, hk]
  | activate k | deactivate k =>
    simp only [saved, grainEvent]
    by_cases hk : k = key <;> simp [hk, batchesOf, GrainSlot.committing]
  | handle utcNow call =>
    simp only [saved, grainEvent]
    by_cases hk : call.key = key <;> simp [hk, batchesOf, GrainSlot.committing]
  | change ch => rfl

theorem step_created {e : SiloEvent} (h : s.step c e = some s') (key : String) :
    (s'.grains key).created = (s.grains key).created ++ recordsOf (s.decided e).toList key := by
  rw [recordsOf_decided (c := c)]
  exact step_log GrainSlot.created GrainSlot.creating (fun _ _ _ => GrainSlot.created_eq) h key

theorem step_stored {e : SiloEvent} (h : s.step c e = some s') (key : String) :
    (s'.grains key).stored = (s.grains key).stored ++ batchesOf (s.saved e).toList key := by
  rw [batchesOf_saved (c := c)]
  exact step_log GrainSlot.stored GrainSlot.committing (fun _ _ _ => GrainSlot.stored_eq) h key

theorem mem_activations_step {e : SiloEvent} (h : s.step c e = some s') {key : String}
    {a : Activation} (ha : a ∈ (s'.grains key).activations) :
    (key, a.grain.lock) ∈ (s.loaded c e).toList ∨
      ∃ b ∈ (s.grains key).activations, a.grain.lock = b.grain.lock := by
  obtain ⟨-, hstay⟩ | ⟨e', he, hmove⟩ := grain_cases h key
  · rw [hstay] at ha
    exact Or.inr ⟨a, ha, rfl⟩
  · rcases GrainSlot.mem_activations_step hmove ha with rfl | hold
    · obtain ⟨rfl, hrow⟩ := grainEvent_eq_activate he
      rw [← hrow]
      exact Or.inl (List.mem_singleton_self _)
    · exact Or.inr hold

theorem Recorded.step (hs : s.Recorded c) {e : SiloEvent} (h : s.step c e = some s') :
    s'.Recorded c := by
  have hact := step_activations h
  refine ⟨?_, ?_, ?_, ?_, ?_, ?_, ?_⟩
  · exact forall_grains_step (fun _ _ _ _ _ hI _ hstep => hI.step hstep) hs.sound h
  · intro key
    rw [step_created h, hs.created, step_decisions h, recordsOf_append]
  · intro key
    rw [step_stored h, hs.stored, step_batches h, batchesOf_append]
  · refine forall_grains_step (I := fun g => g.stored.flatten ⊆ g.created) ?_ hs.committed h
    rintro key g e' g' - hI rfl hstep r hr
    rw [GrainSlot.created_eq hstep]
    rw [GrainSlot.stored_eq hstep, List.flatten_append, List.mem_append] at hr
    refine List.mem_append_left _ ?_
    rcases hr with hr | hr
    · exact hI hr
    · cases hb : (s.grains key).committing e' with
      | none =>
        rw [hb] at hr
        cases hr
      | some batch =>
        rw [hb, Option.toList_some, List.flatten_singleton] at hr
        exact (hs.sound key).mem_created hstep hb hr
  · intro key a ha
    rw [hact, List.mem_append]
    rcases mem_activations_step h ha with hnew | ⟨b, hb, hlock⟩
    · exact Or.inr hnew
    · rw [hlock]
      exact Or.inl (hs.loaded key b hb)
  · intro d hd
    rw [step_decisions h, List.mem_append] at hd
    rw [hact, List.mem_append]
    left
    rcases hd with hd | hd
    · exact hs.decided d hd
    · cases e with
      | handle utcNow call =>
        simp only [Silo.decided, Option.mem_toList, Option.map_eq_some_iff] at hd
        obtain ⟨a, ha, rfl⟩ := hd
        exact hs.loaded _ a (List.mem_append_right _ (by simp [ha]))
      | activate | timer | late | deactivate | change => cases hd
  · intro key l hl
    rw [hact, List.mem_append] at hl
    rcases hl with hl | hl
    · exact hs.spelled key l hl
    · cases e with
      | activate k =>
        have hrow := List.mem_singleton.mp hl
        injection hrow with hkey hfind
        rw [hkey]
        exact SmartLockDb.spelling_of_findLock hfind.symm
      | handle | timer | late | deactivate | change => cases hl

theorem run_recorded {db : SmartLockDb} {es : List SiloEvent}
    (h : (silo c).run (init db) es = some s) : s.Recorded c :=
  Machine.run_invariant (I := Recorded c) (fun _ _ _ hs hstep => hs.step hstep)
    (recorded_init db) h

/-- What waits in the list of a grain was left there by a decision under its key. -/
theorem Recorded.of_mem_buffer (hs : s.Recorded c) {key : String} {r : LockAccessHistoryEntity}
    (hr : r ∈ (s.grains key).buffer) : ∃ d ∈ s.decisions, d.key = key ∧ d.record = some r := by
  unfold GrainSlot.buffer at hr
  cases hl : (s.grains key).live with
  | none =>
    rw [hl] at hr
    cases hr
  | some a =>
    rw [hl] at hr
    have hmem : r ∈ (s.grains key).created := by
      unfold GrainSlot.created GrainSlot.activations
      rw [List.mem_flatMap]
      exact ⟨a, List.mem_append_right _ (by simp [hl]), ((hs.sound key).live hl).mem_created hr⟩
    rw [hs.created] at hmem
    exact mem_recordsOf.mp hmem

theorem Recorded.of_mem_batch (hs : s.Recorded c) {key : String}
    {b : List LockAccessHistoryEntity} (hb : (key, b) ∈ s.batches) {r : LockAccessHistoryEntity}
    (hr : r ∈ b) : ∃ d ∈ s.decisions, d.key = key ∧ d.record = some r := by
  rw [← mem_recordsOf, ← hs.created]
  apply hs.committed key
  rw [hs.stored]
  exact List.mem_flatten.mpr ⟨b, mem_batchesOf.mpr hb, hr⟩

/-! ## The table -/

/-- No event of the run commits a change other than a save. -/
def NoChange (es : List SiloEvent) : Prop := ∀ e ∈ es, e.isChange = false

instance (es : List SiloEvent) : Decidable (NoChange es) :=
  inferInstanceAs (Decidable (∀ e ∈ es, e.isChange = false))

/-- The table is what it was, with the saved batches behind. -/
def Appended (db : SmartLockDb) (s : Silo) : Prop :=
  s.db.lockAccesses = db.lockAccesses ++ (s.batches.map Prod.snd).flatten

theorem appended_init (db : SmartLockDb) : Appended db (init db) :=
  (List.append_nil db.lockAccesses).symm

theorem Appended.step {db : SmartLockDb} (hs : Appended db s) {e : SiloEvent}
    (he : e.isChange = false) (h : s.step c e = some s') : Appended db s' := by
  unfold Appended at hs ⊢
  rw [step_db h he, step_batches h, hs, List.map_append, List.flatten_append, List.append_assoc]
  cases s.saved e <;> rfl

theorem run_appended {db : SmartLockDb} {es : List SiloEvent} (hes : NoChange es)
    (h : (silo c).run (init db) es = some s) : Appended db s :=
  Machine.run_induction_of_forall (I := Appended db) (P := fun e : SiloEvent => e.isChange = false)
    (fun _ _ _ hs he hstep => hs.step he hstep) (appended_init db) hes h

end Silo

end SmartLock
