import SmartLock.Data.DefaultData
import SmartLock.Grains.Activation

/-!
# The write-behind of one activation

The records of an activation whose lock was found, in the order of its requests, are the committed
batches followed by what is still to be stored (`writeBehind`). One flush is followed from its
`tick` to its end by `flush_pending`: whatever runs before the commit or the throw, the batch is
the list that the tick saw, and that list stays at the front of the buffer.
-/

namespace SmartLock

namespace Activation

variable {a b c : Activation}

theorem step_lock {e : ActivationEvent} (h : a.step e = some b) : b.grain.lock = a.grain.lock := by
  cases e with
  | request utcNow req => cases h; exact request_lock utcNow req
  | timer e => exact timerStep_lock h

theorem run_fits {row : Option LockEntity} {es : List ActivationEvent}
    (h : activation.run (start row) es = some a) : a.Fits :=
  Machine.run_invariant (I := Fits) (fun _ _ _ hs hstep => hs.step hstep) (fits_start row) h

/-- The records that a grain with the lock `row` creates for the requests among `es`. -/
def recordsOf (row : Option LockEntity) (es : List ActivationEvent) :
    List LockAccessHistoryEntity :=
  es.filterMap fun
    | .request utcNow req => (LockGrain.onActivateAsync row).record utcNow req
    | .timer _ => none

theorem step_created {e : ActivationEvent} (h : a.step e = some b) :
    b.created = a.created ++ recordsOf a.grain.lock [e] := by
  cases e with
  | request utcNow req =>
    cases h
    rw [request_created]
    -- the record depends on nothing of the grain but its lock
    show _ ++ ((LockGrain.onActivateAsync a.grain.lock).record utcNow req).toList = _
    unfold recordsOf
    cases hr : (LockGrain.onActivateAsync a.grain.lock).record utcNow req with
    | none => simp only [List.filterMap_cons, List.filterMap_nil, hr, Option.toList_none]
    | some r => simp only [List.filterMap_cons, List.filterMap_nil, hr, Option.toList_some]
  | timer e => exact (timerStep_created h).trans (List.append_nil _).symm

theorem run_created {es : List ActivationEvent} (h : activation.run a es = some b) :
    b.created = a.created ++ recordsOf a.grain.lock es := by
  induction es generalizing a with
  | nil => cases h; exact (List.append_nil _).symm
  | cons e es ih =>
    obtain ⟨m, hm, hrun⟩ := activation.run_cons_eq_some.mp h
    have hcons : recordsOf a.grain.lock (e :: es) =
        recordsOf a.grain.lock [e] ++ recordsOf a.grain.lock es := by
      unfold recordsOf
      rw [← List.filterMap_append, List.singleton_append]
    rw [ih hrun, step_created hm, step_lock hm, hcons, List.append_assoc]

/-! ## One flush -/

/-- A flush that started in `a` is still waiting for the database in `b`. -/
structure Pending (a b : Activation) : Prop where
  save : b.save = .saving a.grain.lockAccesses.length a.grain.lockAccesses
  committed : b.committed = a.committed
  front : a.grain.lockAccesses <+: b.grain.lockAccesses

theorem Pending.of_tick (hne : a.grain.lockAccesses ≠ [])
    (h : activation.step a (.timer .tick) = some b) : Pending a b := by
  obtain ⟨-, -, ⟨hnil, -⟩ | ⟨-, rfl⟩⟩ := tick_eq_some h
  · exact absurd hnil hne
  · exact ⟨rfl, rfl, List.prefix_refl _⟩

theorem Pending.step (h : Pending a b) {e : ActivationEvent} (hc : e ≠ .timer .commit)
    (ht : e ≠ .timer .throw) (hstep : activation.step b e = some c) : Pending a c := by
  cases e with
  | request utcNow req =>
    cases hstep
    refine ⟨h.save, h.committed, ?_⟩
    rw [request_lockAccesses]
    exact h.front.trans (List.prefix_append _ _)
  | timer e =>
    cases e with
    | tick =>
      obtain ⟨-, hs, -⟩ := tick_eq_some hstep
      rw [h.save] at hs
      cases hs
    | commit => exact absurd rfl hc
    | throw => exact absurd rfl ht
    | resume =>
      obtain ⟨_, hs, -⟩ := resume_eq_some hstep
      rw [h.save] at hs
      cases hs

/-- From its tick to its end a flush stays pending, whatever else runs. -/
theorem flush_pending {es : List ActivationEvent} (hne : a.grain.lockAccesses ≠ [])
    (hes : ∀ e ∈ es, e ≠ .timer .commit ∧ e ≠ .timer .throw)
    (h : activation.run a (.timer .tick :: es) = some b) : Pending a b := by
  obtain ⟨m, hm, hrun⟩ := activation.run_cons_eq_some.mp h
  exact Machine.run_induction_of_forall (I := Pending a)
    (P := fun e => e ≠ .timer .commit ∧ e ≠ .timer .throw)
    (fun _ _ _ hs he hstep => hs.step he.1 he.2 hstep) (Pending.of_tick hne hm) hes hrun

theorem Pending.commit (h : Pending a b) (hstep : activation.step b (.timer .commit) = some c) :
    c.committed = a.committed ++ [a.grain.lockAccesses] := by
  obtain ⟨count, batch, hs, rfl⟩ := commit_eq_some hstep
  rw [h.save] at hs
  cases hs
  rw [h.committed]

theorem Pending.throw (h : Pending a b) (hstep : activation.step b (.timer .throw) = some c) :
    c.committed = a.committed ∧ c.grain.lockAccesses = b.grain.lockAccesses ∧
      a.grain.lockAccesses <+: c.grain.lockAccesses := by
  obtain ⟨_, _, -, rfl⟩ := throw_eq_some hstep
  exact ⟨h.committed, rfl, h.front⟩

/-- After a commit the committed batch is the front of the list and `RemoveRange` takes it off. -/
theorem removeRange_of_saved (h : a.Fits) {count : ℕ} (hs : a.save = .saved count) :
    ∃ batch rest, a.committed.getLast? = some batch ∧ a.grain.lockAccesses = batch ++ rest ∧
      removeRange a.grain.lockAccesses 0 count = some rest := by
  unfold Fits at h
  rw [hs] at h
  refine ⟨_, a.grain.lockAccesses.drop count, h.2.2, (List.take_append_drop _ _).symm, ?_⟩
  rw [removeRange_zero, if_pos h.1]

/-- **The write-behind ledger.** In every state of an activation whose lock was found, the batches
committed so far followed by the unsaved part of the list are the records of its requests, in
order. `RemoveRange` is in range and takes off the batch just committed; a flush stores the list
that its tick saw or throws and leaves every record in the list. -/
theorem writeBehind (row : LockEntity) {es : List ActivationEvent}
    (h : activation.run (start (some row)) es = some a) :
    a.committed.flatten ++ a.unsaved = recordsOf (some row) es ∧
    (∀ count, a.save = .saved count →
      ∃ batch rest, a.committed.getLast? = some batch ∧ a.grain.lockAccesses = batch ++ rest ∧
        removeRange a.grain.lockAccesses 0 count = some rest) ∧
    ∀ fs b, a.grain.lockAccesses ≠ [] →
      (∀ e ∈ fs, e ≠ ActivationEvent.timer .commit ∧ e ≠ .timer .throw) →
      activation.run a (.timer .tick :: fs) = some b →
      (∀ c, activation.step b (.timer .commit) = some c →
        c.committed = a.committed ++ [a.grain.lockAccesses]) ∧
      ∀ c, activation.step b (.timer .throw) = some c →
        c.committed = a.committed ∧ c.grain.lockAccesses = b.grain.lockAccesses ∧
          a.grain.lockAccesses <+: c.grain.lockAccesses := by
  refine ⟨?_, fun count hs => removeRange_of_saved (run_fits h) hs, ?_⟩
  · obtain ⟨_, l, -, hl⟩ := run_ledger h
    rw [← hl.stored, ← hl.waiting, l.split, hl.log, run_created h]
    rfl
  · intro fs b hne hfs hrun
    have hp := flush_pending hne hfs hrun
    exact ⟨fun c hc => hp.commit hc, fun c hc => hp.throw hc⟩

/-- A flush that throws, and one that commits with a request on either side of the commit. -/
theorem writeBehind_interleaved :
    let req : AccessRequest := ⟨some DefaultData.managerId, [DefaultData.managerRoleName], none⟩
    let es : List ActivationEvent := [.request 1 req, .timer .tick, .timer .throw, .request 2 req,
      .timer .tick, .request 3 req, .timer .commit, .request 4 req]
    ∃ a, activation.run (start (some DefaultData.entranceLock)) es = some a ∧
      a.save = .saved 2 ∧ a.unsaved.length = 2 ∧
      a.committed.flatten ++ a.unsaved = recordsOf (some DefaultData.entranceLock) es :=
  ⟨_, rfl, rfl, rfl, (writeBehind DefaultData.entranceLock rfl).1⟩

end Activation

end SmartLock
