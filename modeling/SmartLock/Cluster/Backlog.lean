import Mathlib.Data.List.Dedup
import SmartLock.Cluster.AuditTrail
import SmartLock.Data.Constraints

/-!
# The backlog of a grain

What waits in the list of an activation. A record that no database accepts stops the list at its
place: neither it nor a later record of the activation is ever stored (`blocked_for_ever`). Without
such records the lists can be emptied from every state, whatever the timers were doing (`drains_iff`).
-/

namespace SmartLock

/-- A record names its requester, as the column `RequesterId` wants it. -/
def LockAccessHistoryEntity.hasRequester (r : LockAccessHistoryEntity) : Bool :=
  r.requesterId.isSome

/-! ## Committed records -/

namespace GrainSlot

variable {g g' : GrainSlot}

theorem mem_committed_step {e : GrainEvent} (h : g.step e = some g') {a : Activation}
    (ha : a ∈ g'.activations) {r : LockAccessHistoryEntity} (hr : r ∈ a.committed.flatten) :
    (∃ b ∈ g.activations, r ∈ b.committed.flatten) ∨ ∃ batch, g.committing e = some batch ∧
      r ∈ batch := by
  -- an activation that took the turn `t` of its callback
  have hturn : ∀ {b b' : Activation} {t : TimerEvent}, b ∈ g.activations →
      b.timerStep t = some b' → g.committing e = b.committing t → r ∈ b'.committed.flatten →
      (∃ b ∈ g.activations, r ∈ b.committed.flatten) ∨ ∃ batch, g.committing e = some batch ∧
        r ∈ batch := by
    intro b b' t hb hstep hcom hr
    rw [Activation.timerStep_committed hstep, List.flatten_append, List.mem_append] at hr
    rcases hr with hr | hr
    · exact Or.inl ⟨b, hb, hr⟩
    · rw [hcom]
      cases hbatch : b.committing t with
      | none =>
        rw [hbatch] at hr
        cases hr
      | some batch =>
        rw [hbatch, Option.toList_some, List.flatten_singleton] at hr
        exact Or.inr ⟨batch, rfl, hr⟩
  unfold activations at ha hturn ⊢
  cases e with
  | activate row =>
    obtain ⟨-, rfl⟩ := activate_eq_some h
    rcases List.mem_append.mp ha with ha | ha
    · exact Or.inl ⟨a, List.mem_append_left _ ha, hr⟩
    · rw [List.mem_singleton.mp ha] at hr
      cases hr
  | request utcNow req =>
    obtain ⟨b, hb, rfl⟩ := request_eq_some h
    rcases List.mem_append.mp ha with ha | ha
    · exact Or.inl ⟨a, List.mem_append_left _ ha, hr⟩
    · rw [List.mem_singleton.mp ha] at hr
      exact Or.inl ⟨b, List.mem_append_right _ (by simp [hb]), hr⟩
  | timer t =>
    obtain ⟨b, b', hb, hstep, rfl⟩ := timer_eq_some h
    rcases List.mem_append.mp ha with ha | ha
    · exact Or.inl ⟨a, List.mem_append_left _ ha, hr⟩
    · rw [List.mem_singleton.mp ha] at hr
      refine hturn (List.mem_append_right _ (by simp [hb])) hstep ?_ hr
      rw [committing, hb, Option.bind_some]
  | late i t =>
    obtain ⟨b, b', hb, -, hstep, rfl⟩ := late_eq_some h
    rcases List.mem_append.mp ha with ha | ha
    · rcases List.mem_or_eq_of_mem_set ha with ha | rfl
      · exact Or.inl ⟨a, List.mem_append_left _ ha, hr⟩
      · refine hturn (List.mem_append_left _ (List.mem_of_getElem? hb)) hstep ?_ hr
        rw [committing, hb, Option.bind_some]
    · exact Or.inl ⟨a, List.mem_append_right _ ha, hr⟩
  | deactivate =>
    obtain ⟨b, hb, rfl⟩ := deactivate_eq_some h
    refine Or.inl ⟨a, ?_, hr⟩
    rw [hb]
    simpa using ha

end GrainSlot

namespace Silo

variable {c : Collation} {s s' : Silo}

/-- What a grain commits in a step, the database accepts. -/
theorem accepted_of_committing {e : SiloEvent} (h : s.step c e = some s') {key : String}
    {e' : GrainEvent} (he : grainEvent c s key e = some e') {batch : List LockAccessHistoryEntity}
    (hb : (s.grains key).committing e' = some batch) :
    ∀ r ∈ batch, s.db.satisfiesConstraints c r = true := by
  have hturn : ∀ {s' : Silo}, s.turn c key e' = some s' →
      ∀ r ∈ batch, s.db.satisfiesConstraints c r = true := by
    intro s' hstep
    obtain ⟨g, db, -, hdb, -⟩ := turn_eq_some hstep
    rw [hb] at hdb
    exact (SmartLockDb.saveChangesAsync_eq_some.mp hdb).1
  cases e with
  | timer k t | late k i t | deactivate k =>
    simp only [grainEvent, Option.ite_none_right_eq_some, Option.some.injEq] at he
    obtain ⟨rfl, rfl⟩ := he
    exact hturn h
  | activate k | handle utcNow call =>
    simp only [grainEvent, Option.ite_none_right_eq_some, Option.some.injEq] at he
    obtain ⟨-, rfl⟩ := he
    cases hb
  | change ch => cases he

/-- Whatever the grains have committed satisfies `p`. -/
def Committed (p : LockAccessHistoryEntity → Bool) (s : Silo) : Prop :=
  ∀ key, ∀ a ∈ (s.grains key).activations, ∀ r ∈ a.committed.flatten, p r = true

theorem committed_init (p : LockAccessHistoryEntity → Bool) (db : SmartLockDb) :
    (init db).Committed p := fun _ _ ha => by cases ha

theorem Committed.step {p : LockAccessHistoryEntity → Bool} (hs : s.Committed p)
    (hp : ∀ r, s.db.satisfiesConstraints c r = true → p r = true) {e : SiloEvent}
    (h : s.step c e = some s') : s'.Committed p := by
  intro key a ha r hr
  obtain ⟨-, hstay⟩ | ⟨e', he, hmove⟩ := grain_cases h key
  · rw [hstay] at ha
    exact hs key a ha r hr
  · rcases GrainSlot.mem_committed_step hmove ha hr with ⟨b, hb, hr⟩ | ⟨batch, hbatch, hr⟩
    · exact hs key b hb r hr
    · exact hp r (accepted_of_committing h he hbatch r hr)

end Silo

/-! ## The first bad record -/

theorem hasRequester_of_satisfiesConstraints {c : Collation} {db : SmartLockDb}
    {r : LockAccessHistoryEntity} (h : db.satisfiesConstraints c r = true) :
    r.hasRequester = true := by
  obtain ⟨-, ⟨id, hid, -⟩, -⟩ := SmartLockDb.satisfiesConstraints_iff.mp h
  rw [LockAccessHistoryEntity.hasRequester, hid]
  rfl

namespace Activation

theorem unsaved_suffix (a : Activation) : a.unsaved <:+ a.grain.lockAccesses := by
  unfold unsaved
  cases a.save with
  | saved count => exact List.drop_suffix _ _
  | idle => exact List.suffix_rfl
  | saving count batch => exact List.suffix_rfl

/-- What is stored was created before the first record that does not satisfy `p`, and that record is
still in the list with all that were created behind it. -/
structure StopsAt (p : LockAccessHistoryEntity → Bool) (a : Activation) : Prop where
  stored : a.committed.flatten <+: a.created.takeWhile p
  kept : a.created.dropWhile p <:+ a.grain.lockAccesses

theorem Reachable.stopsAt {a : Activation} (h : a.Reachable) {p : LockAccessHistoryEntity → Bool}
    (hp : ∀ r ∈ a.committed.flatten, p r = true) : a.StopsAt p := by
  obtain ⟨row, es, hrun⟩ := h
  obtain ⟨_, l, -, hl⟩ := run_ledger hrun
  rw [← hl.stored] at hp
  refine ⟨?_, ?_⟩
  · rw [← hl.stored, ← hl.log]
    exact l.stored_prefix hp
  · rw [← hl.log]
    exact (l.dropWhile_suffix hp).trans (hl.waiting ▸ a.unsaved_suffix)

end Activation

namespace Silo

variable {c : Collation} {s s' : Silo} {db : SmartLockDb} {es : List SiloEvent}

theorem run_hasRequester (h : (silo c).run (init db) es = some s) :
    s.Committed LockAccessHistoryEntity.hasRequester :=
  Machine.run_invariant (I := Committed LockAccessHistoryEntity.hasRequester)
    (fun _ _ _ hs hstep => hs.step (fun _ => hasRequester_of_satisfiesConstraints) hstep)
    (committed_init _ db) h

theorem step_satisfiesConstraints {e : SiloEvent} (he : e.isChange = false)
    (h : s.step c e = some s') (r : LockAccessHistoryEntity) :
    s'.db.satisfiesConstraints c r = s.db.satisfiesConstraints c r := by
  rw [step_db h he]
  rfl

theorem run_committed (hes : NoChange es) (h : (silo c).run (init db) es = some s) :
    s.Committed (db.satisfiesConstraints c) := by
  have hinv := Machine.run_induction_of_forall (P := fun e : SiloEvent => e.isChange = false)
    (I := fun t : Silo => (∀ r, t.db.satisfiesConstraints c r = db.satisfiesConstraints c r) ∧
      t.Committed (db.satisfiesConstraints c))
    (fun t e t' ⟨hdb, ht⟩ he hstep =>
      ⟨fun r => (step_satisfiesConstraints he hstep r).trans (hdb r),
        ht.step (fun r hr => (hdb r).symm.trans hr) hstep⟩)
    ⟨fun _ => rfl, committed_init _ db⟩ hes h
  exact hinv.2

end Silo

namespace Cluster

variable {handler : JwtSecurityTokenHandler} {c : Collation} {s : Cluster}

/-- **A bad record blocks for ever.** In every state of every run and for every activation, ended or
live: nothing created from the first record without a requester on is ever stored, and all of it is
still in the list. While no other change is committed, the same holds of the first record that
breaks any constraint. -/
theorem blocked_for_ever {db : SmartLockDb} {es : List ClusterEvent}
    (h : (cluster handler c).run (init db) es = some s) {key : String} {a : Activation}
    (ha : a ∈ (s.silo.grains key).activations) :
    a.StopsAt LockAccessHistoryEntity.hasRequester ∧
      (Silo.NoChange (es.filterMap siloEvent) → a.StopsAt (db.satisfiesConstraints c)) := by
  have hsilo := run_silo h
  have hreach := (Silo.run_recorded hsilo).sound key a ha
  exact ⟨hreach.stopsAt (Silo.run_hasRequester hsilo key a ha),
    fun hes => hreach.stopsAt (Silo.run_committed hes hsilo key a ha)⟩

/-- A record without a requester, then the employee's, and two flushes that fail. -/
theorem blocked_for_ever_employee :
    let key := DefaultData.entranceLockId
    let session : Session := ⟨some key, key⟩
    ∃ (s : Cluster) (a : Activation),
      (cluster unsignedHandler .sqlServerDefault).run (init DefaultData.seededDb)
        [.connect session, .publish session "requests" unsignedPublish.payload,
          employeePost key, .silo (.activate key),
          .silo (.handle 1 ⟨key, none, [DefaultData.managerRoleName], none⟩),
          .silo (.handle 2 (employeeCall key)), .silo (.timer key .tick),
          .silo (.timer key .throw), .silo (.timer key .tick)] = some s ∧
      employeeRecord ∈ a.created.dropWhile LockAccessHistoryEntity.hasRequester ∧
      a.StopsAt LockAccessHistoryEntity.hasRequester := by
  intro key session
  obtain ⟨s, hs, hlive⟩ : ∃ s, (cluster unsignedHandler .sqlServerDefault).run
      (init DefaultData.seededDb) [.connect session,
          .publish session "requests" unsignedPublish.payload,
          employeePost key, .silo (.activate key),
          .silo (.handle 1 ⟨key, none, [DefaultData.managerRoleName], none⟩),
          .silo (.handle 2 (employeeCall key)), .silo (.timer key .tick),
          .silo (.timer key .throw), .silo (.timer key .tick)] = some s ∧
      (s.silo.grains key).live.any (fun a =>
        employeeRecord ∈ a.created.dropWhile LockAccessHistoryEntity.hasRequester) = true :=
    Machine.exists_run_of_any (by decide +kernel)
  obtain ⟨a, ha, hmem⟩ := (Option.any_eq_true _ _).mp hlive
  exact ⟨s, a, hs, of_decide_eq_true hmem,
    (blocked_for_ever hs (List.mem_append_right _ (Option.mem_toList.mpr ha))).1⟩

end Cluster

/-! ## Draining -/

/-- A turn of a save. -/
def SiloEvent.isTimer : SiloEvent → Bool
  | .timer _ _ | .late _ _ _ => true
  | _ => false

namespace Silo

variable {c : Collation} {s s' : Silo}

/-- From `s` to `t` only the live activation of `key` and the tables have moved. -/
structure Turned (s t : Silo) (key : String) (b : Activation) (db : SmartLockDb) : Prop where
  live : (t.grains key).live = some b
  ended : (t.grains key).ended = (s.grains key).ended
  db : t.db = db
  decisions : t.decisions = s.decisions
  others : ∀ k ≠ key, t.grains k = s.grains k

theorem turned_refl {key : String} {a : Activation} (ha : (s.grains key).live = some a) :
    Turned s s key a s.db :=
  ⟨ha, rfl, rfl, rfl, fun _ _ => rfl⟩

theorem Turned.trans {m t : Silo} {key : String} {b b' : Activation} {db db' : SmartLockDb}
    (h : Turned s m key b db) (h' : Turned m t key b' db') : Turned s t key b' db' where
  live := h'.live
  ended := h'.ended.trans h.ended
  db := h'.db
  decisions := h'.decisions.trans h.decisions
  others k hk := (h'.others k hk).trans (h.others k hk)

theorem timer_enabled {key : String} {a b : Activation} {t : TimerEvent} {db : SmartLockDb}
    (ha : (s.grains key).live = some a) (hb : a.timerStep t = some b)
    (hdb : commitBatch c s.db (a.committing t) = some db) :
    ∃ s', (silo c).step s (.timer key t) = some s' ∧ Turned s s' key b db := by
  simp only [silo, step, turn, GrainSlot.step, GrainSlot.committing, ha, hb, hdb,
    Option.bind_eq_bind, Option.bind_some, Option.pure_def]
  refine ⟨_, rfl, ?_, ?_, rfl, rfl, ?_⟩
  · simp only [Function.update_self]
  · simp only [Function.update_self]
  · intro k hk
    simp only [Function.update_of_ne hk]

/-- The save of `key` can be brought to its end without a change of the tables: one that awaits the
database throws, one that has committed resumes. -/
theorem exists_settled {key : String} {a : Activation} (ha : (s.grains key).live = some a)
    (hreach : a.Reachable) : ∃ es t b, (∀ e ∈ es, e.isTimer = true) ∧ (silo c).run s es = some t ∧
      Turned s t key b s.db ∧ b.save = .idle ∧ b.timer = a.timer ∧
      b.grain.lockAccesses = a.unsaved := by
  have hone : ∀ {t : TimerEvent} {b : Activation}, a.timerStep t = some b →
      a.committing t = none → b.save = .idle → b.timer = a.timer →
      b.grain.lockAccesses = a.unsaved → ∃ es t b, (∀ e ∈ es, e.isTimer = true) ∧
        (silo c).run s es = some t ∧ Turned s t key b s.db ∧ b.save = .idle ∧
        b.timer = a.timer ∧ b.grain.lockAccesses = a.unsaved := by
    intro t b hb hcom hidle htimer hlist
    have hdb : commitBatch c s.db (a.committing t) = some s.db := by
      rw [hcom]
      rfl
    obtain ⟨s', hs', hturned⟩ := timer_enabled ha hb hdb
    refine ⟨[.timer key t], s', b, ?_, by rw [Machine.run_singleton, hs'], hturned, hidle, htimer,
      hlist⟩
    intro e he
    rw [List.mem_singleton.mp he]
    rfl
  have hfits := hreach.fits
  unfold Activation.Fits at hfits
  unfold Activation.unsaved at hone ⊢
  cases hsave : a.save with
  | idle => exact ⟨[], s, a, fun _ h => (by cases h), rfl, turned_refl ha, hsave, rfl, rfl⟩
  | saving count batch =>
    rw [hsave] at hone
    refine hone (t := .throw) (b := { a with save := .idle }) ?_ rfl rfl rfl rfl
    simp only [Activation.timerStep, hsave]
  | saved count =>
    rw [hsave] at hone hfits
    refine hone (t := .resume) (b := { a with
      grain := { a.grain with lockAccesses := a.grain.lockAccesses.drop count }
      save := .idle }) ?_ rfl rfl rfl rfl
    simp only [Activation.timerStep, hsave, LockGrain.removeSaved, removeRange_zero, hfits.1,
      if_true, Option.map_some]

/-- The activation once its list has been stored. -/
def flushed (a : Activation) : Activation :=
  { a with
    grain := { a.grain with lockAccesses := [] }
    save := .idle
    committed := a.committed ++ [a.grain.lockAccesses] }

theorem exists_flushed {key : String} {a : Activation} (ha : (s.grains key).live = some a)
    (hidle : a.save = .idle) (htimer : a.timer = true) (hne : a.grain.lockAccesses ≠ [])
    (hok : ∀ r ∈ a.grain.lockAccesses, s.db.satisfiesConstraints c r = true) :
    ∃ es t, (∀ e ∈ es, e.isTimer = true) ∧ (silo c).run s es = some t ∧
      Turned s t key (flushed a)
        { s.db with lockAccesses := s.db.lockAccesses ++ a.grain.lockAccesses } := by
  have hlen : ¬ a.grain.lockAccesses.length = 0 := fun h => hne (List.length_eq_zero_iff.mp h)
  have htick : a.timerStep .tick = some { a with
      save := .saving a.grain.lockAccesses.length a.grain.lockAccesses } := by
    simp only [Activation.timerStep, htimer, hidle, and_self, if_true, LockGrain.saveBatch,
      if_neg hlen, List.take_length]
  have hdb : commitBatch c s.db (a.committing .tick) = some s.db := rfl
  obtain ⟨s₁, h₁, hturned₁⟩ := timer_enabled ha htick hdb
  have haccept : s₁.db.saveChangesAsync c a.grain.lockAccesses =
      some { s.db with lockAccesses := s.db.lockAccesses ++ a.grain.lockAccesses } := by
    rw [hturned₁.db]
    exact SmartLockDb.saveChangesAsync_eq_some.mpr ⟨hok, rfl⟩
  obtain ⟨s₂, h₂, hturned₂⟩ := timer_enabled (t := .commit) hturned₁.live rfl haccept
  obtain ⟨s₃, h₃, hturned₃⟩ := timer_enabled (c := c) (t := .resume) (b := flushed a)
    hturned₂.live (by simp only [Activation.timerStep, LockGrain.removeSaved, removeRange_zero,
      Nat.le_refl, if_true, Option.map_some, List.drop_length, flushed]) rfl
  rw [hturned₂.db] at hturned₃
  refine ⟨[.timer key .tick, .timer key .commit, .timer key .resume], s₃,
    by simp [SiloEvent.isTimer], ?_, (hturned₁.trans hturned₂).trans hturned₃⟩
  simp only [Machine.run_cons, h₁, h₂, h₃, Option.bind_some, Machine.run_nil]

/-- One key, whatever its save was doing: its unsaved records are stored and nothing waits. -/
theorem exists_emptied (key : String) (hsound : (s.grains key).Sound)
    (hok : ∀ r ∈ (s.grains key).unsaved, s.db.satisfiesConstraints c r = true) :
    ∃ es t, (∀ e ∈ es, e.isTimer = true) ∧ (silo c).run s es = some t ∧
      (t.grains key).buffer = [] ∧
      t.db = { s.db with lockAccesses := s.db.lockAccesses ++ (s.grains key).unsaved } ∧
      ∀ k ≠ key, t.grains k = s.grains k := by
  have hbuffer : ∀ {t : Silo} {b : Activation}, (t.grains key).live = some b →
      (t.grains key).buffer = b.grain.lockAccesses := fun h => by rw [GrainSlot.buffer, h]; rfl
  cases ha : (s.grains key).live with
  | none =>
    refine ⟨[], s, fun _ h => (by cases h), rfl, ?_, ?_, fun _ _ => rfl⟩
    · rw [GrainSlot.buffer, ha]
      rfl
    · rw [GrainSlot.unsaved, ha]
      exact (congrArg (fun rows => { s.db with lockAccesses := rows }) (List.append_nil _)).symm
  | some a =>
    have hreach := hsound.live ha
    have hunsaved : (s.grains key).unsaved = a.unsaved := by
      rw [GrainSlot.unsaved, ha]
      rfl
    rw [hunsaved] at hok ⊢
    obtain ⟨es, m, b, hes, hm, hturned, hidle, htimer, hlist⟩ :=
      exists_settled (c := c) ha hreach
    rw [← hlist] at hok ⊢
    by_cases hnil : b.grain.lockAccesses = []
    · refine ⟨es, m, hes, hm, (hbuffer hturned.live).trans hnil, ?_, hturned.others⟩
      rw [hnil, List.append_nil, hturned.db]
    · -- an activation without a lock has nothing to save
      have htimer' : b.timer = true := by
        obtain ⟨r, hr⟩ := List.exists_mem_of_ne_nil _ hnil
        obtain ⟨l, hl, -⟩ := hreach.lock_of_mem_created
          (hreach.mem_created (a.unsaved_subset (hlist ▸ hr)))
        rw [htimer, hreach.timer, hl]
        rfl
      rw [← hturned.db] at hok ⊢
      obtain ⟨es', t, hes', ht, hturned'⟩ :=
        exists_flushed (c := c) hturned.live hidle htimer' hnil hok
      refine ⟨es ++ es', t, ?_, (silo c).run_append_eq_some.mpr ⟨m, hm, ht⟩,
        hbuffer hturned'.live, hturned'.db, (hturned.trans hturned').others⟩
      exact fun e he => (List.mem_append.mp he).elim (hes e) (hes' e)

theorem exists_drained_keys (hs : s.Recorded c) {keys : List String} (hkeys : keys.Nodup)
    (hok : ∀ key ∈ keys, ∀ r ∈ (s.grains key).unsaved, s.db.satisfiesConstraints c r = true) :
    ∃ es t, (∀ e ∈ es, e.isTimer = true) ∧ (silo c).run s es = some t ∧
      (∀ key ∈ keys, (t.grains key).buffer = []) ∧
      t.db = { s.db with
        lockAccesses := s.db.lockAccesses ++ keys.flatMap fun key => (s.grains key).unsaved } ∧
      ∀ k ∉ keys, t.grains k = s.grains k := by
  induction keys generalizing s with
  | nil =>
    refine ⟨[], s, fun _ h => (by cases h), rfl, fun _ h => (by cases h), ?_, fun _ _ => rfl⟩
    rw [List.flatMap_nil, List.append_nil]
  | cons key keys ih =>
    obtain ⟨es, m, hes, hm, hempty, hdb, hothers⟩ :=
      exists_emptied key (hs.sound key) (hok key List.mem_cons_self)
    have hrec : m.Recorded c :=
      Machine.run_invariant (I := Recorded c) (fun _ _ _ hs hstep => hs.step hstep) hs hm
    have hsame : ∀ k ∈ keys, m.grains k = s.grains k := fun k hk =>
      hothers k fun h => (List.nodup_cons.mp hkeys).1 (h ▸ hk)
    obtain ⟨es', t, hes', ht, hempty', hdb', hothers'⟩ := ih hrec (List.nodup_cons.mp hkeys).2 (by
      intro k hk r hr
      rw [hsame k hk] at hr
      rw [hdb]
      exact hok k (List.mem_cons_of_mem key hk) r hr)
    refine ⟨es ++ es', t, ?_, (silo c).run_append_eq_some.mpr ⟨m, hm, ht⟩, ?_, ?_, ?_⟩
    · exact fun e he => (List.mem_append.mp he).elim (hes e) (hes' e)
    · rintro k hk
      rcases List.mem_cons.mp hk with rfl | hk
      · rw [hothers' k (List.nodup_cons.mp hkeys).1]
        exact hempty
      · exact hempty' k hk
    · rw [hdb', hdb, List.flatMap_cons, List.append_assoc]
      simp only [List.flatMap_def]
      rw [List.map_congr_left fun k hk => by rw [hsame k hk]]
    · intro k hk
      rw [List.mem_cons, not_or] at hk
      rw [hothers' k hk.2, hothers k hk.1]

/-- What a run of saves does to the live activation of a key: it commits records that the database
accepts, and creates none. -/
structure Saves (c : Collation) (db : SmartLockDb) (a b : Activation) : Prop where
  created : b.created = a.created
  committed : ∃ rows, b.committed.flatten = a.committed.flatten ++ rows ∧
    ∀ r ∈ rows, db.satisfiesConstraints c r = true

theorem saves_refl (db : SmartLockDb) (a : Activation) : Saves c db a a where
  created := rfl
  committed := ⟨[], (List.append_nil _).symm, fun _ h => by cases h⟩

theorem Saves.step {db : SmartLockDb} {a b : Activation} (h : Saves c db a b) {key : String}
    (hdb : ∀ r, s.db.satisfiesConstraints c r = db.satisfiesConstraints c r)
    (hb : (s.grains key).live = some b) {e : SiloEvent} (he : e.isTimer = true)
    (hstep : s.step c e = some s') :
    ∃ b', (s'.grains key).live = some b' ∧ Saves c db a b' := by
  obtain ⟨-, hstay⟩ | ⟨e', hev, hmove⟩ := grain_cases hstep key
  · exact ⟨b, by rw [hstay, hb], h⟩
  · cases e with
    | timer k t =>
      simp only [grainEvent, Option.ite_none_right_eq_some, Option.some.injEq] at hev
      obtain ⟨rfl, rfl⟩ := hev
      obtain ⟨b₀, b', hb₀, hbb', hgrain⟩ := GrainSlot.timer_eq_some hmove
      obtain rfl : b₀ = b := Option.some.inj (hb₀.symm.trans hb)
      refine ⟨b', by rw [hgrain], (Activation.timerStep_created hbb').trans h.created, ?_⟩
      obtain ⟨rows, hrows, hok⟩ := h.committed
      refine ⟨rows ++ (b₀.committing t).toList.flatten, ?_, ?_⟩
      · rw [Activation.timerStep_committed hbb', List.flatten_append, hrows, List.append_assoc]
      · intro r hr
        rcases List.mem_append.mp hr with hr | hr
        · exact hok r hr
        · cases hbatch : b₀.committing t with
          | none =>
            rw [hbatch] at hr
            cases hr
          | some batch =>
            rw [hbatch, Option.toList_some, List.flatten_singleton] at hr
            rw [← hdb]
            have hev : grainEvent c s k (.timer k t) = some (.timer t) := if_pos rfl
            refine accepted_of_committing hstep hev ?_ r hr
            rw [GrainSlot.committing, hb₀, Option.bind_some, hbatch]
    | late k i t =>
      simp only [grainEvent, Option.ite_none_right_eq_some, Option.some.injEq] at hev
      obtain ⟨rfl, rfl⟩ := hev
      obtain ⟨_, _, -, -, -, hgrain⟩ := GrainSlot.late_eq_some hmove
      exact ⟨b, by rw [hgrain]; exact hb, h⟩
    | activate | handle | deactivate | change => cases he

theorem isChange_of_isTimer {e : SiloEvent} (h : e.isTimer = true) : e.isChange = false := by
  cases e with
  | timer | late => rfl
  | activate | handle | deactivate | change => cases h

theorem storable_of_drained {es : List SiloEvent} (hsound : ∀ key, (s.grains key).Sound)
    (hes : ∀ e ∈ es, e.isTimer = true) (h : (silo c).run s es = some s') {key : String}
    (hempty : (s'.grains key).buffer = []) :
    ∀ r ∈ (s.grains key).unsaved, s.db.satisfiesConstraints c r = true := by
  cases ha : (s.grains key).live with
  | none =>
    rw [GrainSlot.unsaved, ha]
    exact fun _ h => by cases h
  | some a =>
    have hinv : (∀ r, s'.db.satisfiesConstraints c r = s.db.satisfiesConstraints c r) ∧
        (∀ key, (s'.grains key).Sound) ∧
        ∃ b, (s'.grains key).live = some b ∧ Saves c s.db a b := by
      refine Machine.run_induction_of_forall (P := fun e : SiloEvent => e.isTimer = true)
        (I := fun t : Silo =>
          (∀ r, t.db.satisfiesConstraints c r = s.db.satisfiesConstraints c r) ∧
          (∀ key, (t.grains key).Sound) ∧
          ∃ b, (t.grains key).live = some b ∧ Saves c s.db a b)
        ?_ ⟨fun _ => rfl, hsound, a, ha, saves_refl s.db a⟩ hes h
      rintro t e t' ⟨hdb, hsound, b, hb, hsaves⟩ he hstep
      exact ⟨fun r => (step_satisfiesConstraints (isChange_of_isTimer he) hstep r).trans (hdb r),
        forall_grains_step (fun _ _ _ _ _ hI _ hmove => hI.step hmove) hsound hstep,
        hsaves.step hdb hb he hstep⟩
    obtain ⟨-, hsound', b, hb, hsaves⟩ := hinv
    obtain ⟨rows, hrows, hok⟩ := hsaves.committed
    have hnil : b.unsaved = [] := by
      rw [GrainSlot.buffer, hb] at hempty
      exact List.eq_nil_of_suffix_nil (hempty ▸ b.unsaved_suffix)
    have hledger := ((hsound' key).live hb).ledger
    rw [hnil, List.append_nil, hsaves.created, ← ((hsound key).live ha).ledger, hrows] at hledger
    have hunsaved : a.unsaved = rows := (List.append_cancel_left hledger).symm
    rw [GrainSlot.unsaved, ha, Option.elim_some, hunsaved]
    exact hok

end Silo

namespace Cluster

variable {handler : JwtSecurityTokenHandler} {c : Collation} {s : Cluster}

theorem ready_of_isTimer {e : SiloEvent} (h : e.isTimer = true) : s.ready e := by
  cases e with
  | timer | late => trivial
  | activate | handle | deactivate | change => cases h

/-- The turns of saves run in the service as in its silo, and touch nothing else. -/
theorem run_timers {es : List SiloEvent} (hes : ∀ e ∈ es, e.isTimer = true) {t : Silo}
    (h : (SmartLock.silo c).run s.silo es = some t) :
    (cluster handler c).run s (es.map .silo) = some { s with silo := t } := by
  induction es generalizing s with
  | nil =>
    cases h
    rfl
  | cons e es ih =>
    obtain ⟨m, hm, hrun⟩ := (SmartLock.silo c).run_cons_eq_some.mp h
    have hstep : (cluster handler c).step s (.silo e) = some { s with silo := m } := by
      cases e with
      | timer | late =>
        rw [silo_enabled (ready_of_isTimer (hes _ List.mem_cons_self)) hm]
        simp only [remaining, started, Silo.decided, Option.bind_none, Option.toList_none,
          List.append_nil]
      | activate | handle | deactivate | change => cases hes _ List.mem_cons_self
    rw [List.map_cons, Machine.run_cons, hstep, Option.bind_some]
    exact ih (s := { s with silo := m }) (fun e' he' => hes e' (List.mem_cons_of_mem e he')) hrun

/-- **The backlog can be drained.** In every state of every run, the turns of saves alone can empty
the lists of all grains exactly when the database accepts every record that waits in one of them
unsaved. Each of these is then stored once, and nothing else changes but the grains. -/
theorem drains_iff {db : SmartLockDb} {es : List ClusterEvent}
    (h : (cluster handler c).run (init db) es = some s) :
    let keys := (s.silo.activations.map Prod.fst).dedup
    let storable := ∀ key, ∀ r ∈ (s.silo.grains key).unsaved,
      s.silo.db.satisfiesConstraints c r = true
    ((∃ fs : List SiloEvent, ∃ t, (∀ e ∈ fs, e.isTimer = true) ∧
      (cluster handler c).run s (fs.map .silo) = some t ∧
      ∀ key, (t.silo.grains key).buffer = []) ↔ storable) ∧
    (storable → ∃ fs : List SiloEvent, ∃ t : Silo, (∀ e ∈ fs, e.isTimer = true) ∧
      (cluster handler c).run s (fs.map .silo) = some { s with silo := t } ∧
      (∀ key, (t.grains key).buffer = []) ∧
      t.db = { s.silo.db with
        lockAccesses := s.silo.db.lockAccesses ++
          keys.flatMap fun key => (s.silo.grains key).unsaved }) := by
  intro keys storable
  have hrec := Silo.run_recorded (run_silo h)
  have hdrain : storable → ∃ fs : List SiloEvent, ∃ t : Silo, (∀ e ∈ fs, e.isTimer = true) ∧
      (cluster handler c).run s (fs.map .silo) = some { s with silo := t } ∧
      (∀ key, (t.grains key).buffer = []) ∧
      t.db = { s.silo.db with
        lockAccesses := s.silo.db.lockAccesses ++
          keys.flatMap fun key => (s.silo.grains key).unsaved } := by
    intro hok
    obtain ⟨fs, t, hfs, ht, hempty, hdb, hothers⟩ :=
      Silo.exists_drained_keys hrec (List.nodup_dedup _) fun key _ => hok key
    refine ⟨fs, t, hfs, run_timers hfs ht, fun key => ?_, hdb⟩
    by_cases hkey : key ∈ keys
    · exact hempty key hkey
    · rw [hothers key hkey, GrainSlot.buffer]
      cases ha : (s.silo.grains key).live with
      | none => rfl
      | some a =>
        have hloaded := hrec.loaded key a (List.mem_append_right _ (Option.mem_toList.mpr ha))
        exact absurd (List.mem_dedup.mpr (List.mem_map_of_mem hloaded)) hkey
  refine ⟨⟨?_, fun hok => ?_⟩, hdrain⟩
  · rintro ⟨fs, t, hfs, ht, hempty⟩ key
    have hsilo := run_silo ht
    rw [List.filterMap_map, show siloEvent ∘ ClusterEvent.silo = some from rfl,
      List.filterMap_some] at hsilo
    exact Silo.storable_of_drained hrec.sound hfs hsilo (hempty key)
  · obtain ⟨fs, t, hfs, ht, hempty, -⟩ := hdrain hok
    exact ⟨fs, _, hfs, ht, hempty⟩

/-- The employee's record waits while a save of it is in flight. -/
theorem drains_employee :
    let key := DefaultData.entranceLockId
    ∃ s, (cluster unsignedHandler .sqlServerDefault).run (init DefaultData.seededDb)
        [employeePost key, .silo (.activate key), .silo (.handle 2 (employeeCall key)),
          .silo (.timer key .tick)] = some s ∧
      ∃ fs : List SiloEvent, ∃ t : Silo, (∀ e ∈ fs, e.isTimer = true) ∧
        (cluster unsignedHandler .sqlServerDefault).run s (fs.map .silo) =
          some { s with silo := t } ∧
        ∀ key, (t.grains key).buffer = [] := by
  intro key
  obtain ⟨s, hs, hkeys, hok⟩ : ∃ s, (cluster unsignedHandler .sqlServerDefault).run
      (init DefaultData.seededDb) [employeePost key, .silo (.activate key),
        .silo (.handle 2 (employeeCall key)), .silo (.timer key .tick)] = some s ∧
      s.silo.decisions.map Decision.key = [key] ∧
      ∀ r ∈ (s.silo.grains key).buffer,
        s.silo.db.satisfiesConstraints .sqlServerDefault r = true :=
    Machine.exists_run_of_any (by decide +kernel)
  have hstorable : ∀ k, ∀ r ∈ (s.silo.grains k).unsaved,
      s.silo.db.satisfiesConstraints .sqlServerDefault r = true := by
    intro k r hr
    have hbuffer := GrainSlot.unsaved_subset_buffer _ hr
    obtain ⟨d, hd, rfl, -⟩ := (Silo.run_recorded (run_silo hs)).of_mem_buffer hbuffer
    have hkey : d.key ∈ s.silo.decisions.map Decision.key := List.mem_map_of_mem hd
    rw [hkeys, List.mem_singleton] at hkey
    rw [hkey] at hbuffer
    exact hok r hbuffer
  obtain ⟨fs, t, hfs, ht, hempty, -⟩ := (drains_iff hs).2 hstorable
  exact ⟨s, hs, fs, t, hfs, ht, hempty⟩

end Cluster

end SmartLock
