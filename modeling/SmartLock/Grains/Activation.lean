import SmartLock.Lib.Ledger
import SmartLock.Grains.LockGrain

/-!
# One activation of the lock grain

An activation takes requests, each in one turn, and runs the timer callback `SaveLockAccessAsync`,
whose turns are the `tick` that hands a batch to the context, the end of `SaveChangesAsync`
(`commit` or `throw`) and the `resume` that removes the saved prefix. Requests run between these
turns; the callbacks of one timer do not overlap.

`run_ledger`: an activation is a write-behind ledger of its records. The log is what the requests
created, the stored part is what was committed, and the waiting part is the list without the
prefix that is committed and not yet removed.
-/

namespace SmartLock

/-- Where the timer callback stands. -/
inductive SaveState
  | idle
  /-- `SaveChangesAsync` is awaited. -/
  | saving (count : ℕ) (batch : List LockAccessHistoryEntity)
  /-- It has committed; the callback has not resumed. -/
  | saved (count : ℕ)
  deriving DecidableEq, Repr

/-- An activation. The last two fields are history variables: the records that its requests
created and the batches that its saves committed. No step reads them. -/
structure Activation where
  grain : LockGrain
  timer : Bool
  save : SaveState
  created : List LockAccessHistoryEntity
  committed : List (List LockAccessHistoryEntity)
  deriving DecidableEq, Repr

/-- The turns of the timer callback. -/
inductive TimerEvent
  | tick
  | commit
  | throw
  | resume
  deriving DecidableEq, Repr

/-- The turns of an activation. -/
inductive ActivationEvent
  | request (utcNow : DateTime) (req : AccessRequest)
  | timer (e : TimerEvent)
  deriving DecidableEq, Repr

namespace Activation

/-- The activation after `OnActivateAsync`: a timer is registered only for a lock that was found. -/
def start (row : Option LockEntity) : Activation where
  grain := LockGrain.onActivateAsync row
  timer := (LockGrain.onActivateAsync row).lock.isSome
  save := .idle
  created := []
  committed := []

/-- The turn of a request. -/
def request (a : Activation) (utcNow : DateTime) (req : AccessRequest) : Activation :=
  let grain := (a.grain.requestAccessAsync utcNow req).grain
  { a with
    grain := grain
    created := a.created ++ grain.lockAccesses.drop a.grain.lockAccesses.length }

/-- A turn of the timer callback. -/
def timerStep (a : Activation) : TimerEvent → Option Activation
  | .tick =>
    if a.timer = true ∧ a.save = .idle then
      match a.grain.saveBatch with
      | none => some a
      | some (count, batch) => some { a with save := .saving count batch }
    else none
  | .commit =>
    match a.save with
    | .saving count batch =>
      some { a with save := .saved count, committed := a.committed ++ [batch] }
    | _ => none
  | .throw =>
    match a.save with
    | .saving _ _ => some { a with save := .idle }
    | _ => none
  | .resume =>
    match a.save with
    | .saved count =>
      match a.grain.removeSaved count with
      | some grain => some { a with grain := grain, save := .idle }
      -- the exception of `RemoveRange` ends the callback
      | none => some { a with save := .idle }
    | _ => none

/-- A turn of the activation. -/
def step (a : Activation) : ActivationEvent → Option Activation
  | .request utcNow req => some (a.request utcNow req)
  | .timer e => a.timerStep e

/-- The records of the list that no commit has stored. -/
def unsaved (a : Activation) : List LockAccessHistoryEntity :=
  match a.save with
  | .saved count => a.grain.lockAccesses.drop count
  | _ => a.grain.lockAccesses

end Activation

/-- The activation as a machine. -/
def activation : Machine Activation ActivationEvent := ⟨Activation.step⟩

/-! ## What a turn does -/

namespace Activation

variable {a b : Activation}

@[simp] theorem request_lock (utcNow : DateTime) (req : AccessRequest) :
    (a.request utcNow req).grain.lock = a.grain.lock :=
  a.grain.requestAccessAsync_lock utcNow req

theorem request_lockAccesses (utcNow : DateTime) (req : AccessRequest) :
    (a.request utcNow req).grain.lockAccesses =
      a.grain.lockAccesses ++ (a.grain.record utcNow req).toList :=
  a.grain.requestAccessAsync_lockAccesses utcNow req

theorem request_created (utcNow : DateTime) (req : AccessRequest) :
    (a.request utcNow req).created = a.created ++ (a.grain.record utcNow req).toList := by
  show a.created ++ (a.request utcNow req).grain.lockAccesses.drop a.grain.lockAccesses.length = _
  rw [request_lockAccesses, List.drop_left]

theorem tick_eq_some (h : a.timerStep .tick = some b) : a.timer = true ∧ a.save = .idle ∧
    ((a.grain.lockAccesses = [] ∧ b = a) ∨
      (a.grain.lockAccesses ≠ [] ∧
        b = { a with save := .saving a.grain.lockAccesses.length a.grain.lockAccesses })) := by
  unfold timerStep at h
  split_ifs at h with hidle
  refine ⟨hidle.1, hidle.2, ?_⟩
  unfold LockGrain.saveBatch at h
  by_cases hnil : a.grain.lockAccesses.length = 0
  · rw [if_pos hnil] at h
    exact Or.inl ⟨List.length_eq_zero_iff.mp hnil, (Option.some.inj h).symm⟩
  · rw [if_neg hnil] at h
    simp only [List.take_length, Option.some.injEq] at h
    exact Or.inr ⟨fun e => hnil (by rw [e]; rfl), h.symm⟩

theorem commit_eq_some (h : a.timerStep .commit = some b) : ∃ count batch,
    a.save = .saving count batch ∧
      b = { a with save := .saved count, committed := a.committed ++ [batch] } := by
  unfold timerStep at h
  cases hs : a.save with
  | saving count batch => rw [hs] at h; exact ⟨count, batch, rfl, (Option.some.inj h).symm⟩
  | idle => rw [hs] at h; cases h
  | saved count => rw [hs] at h; cases h

theorem throw_eq_some (h : a.timerStep .throw = some b) : ∃ count batch,
    a.save = .saving count batch ∧ b = { a with save := .idle } := by
  unfold timerStep at h
  cases hs : a.save with
  | saving count batch => rw [hs] at h; exact ⟨count, batch, rfl, (Option.some.inj h).symm⟩
  | idle => rw [hs] at h; cases h
  | saved count => rw [hs] at h; cases h

theorem resume_eq_some (h : a.timerStep .resume = some b) : ∃ count, a.save = .saved count ∧
    ((count ≤ a.grain.lockAccesses.length ∧
        b = { a with
          grain := { a.grain with lockAccesses := a.grain.lockAccesses.drop count }
          save := .idle }) ∨
      (a.grain.lockAccesses.length < count ∧ b = { a with save := .idle })) := by
  unfold timerStep at h
  cases hs : a.save with
  | idle => rw [hs] at h; cases h
  | saving count batch => rw [hs] at h; cases h
  | saved count =>
    rw [hs] at h
    refine ⟨count, rfl, ?_⟩
    simp only [LockGrain.removeSaved, removeRange_zero] at h
    by_cases hc : count ≤ a.grain.lockAccesses.length
    · rw [if_pos hc] at h
      exact Or.inl ⟨hc, (Option.some.inj h).symm⟩
    · rw [if_neg hc] at h
      exact Or.inr ⟨by omega, (Option.some.inj h).symm⟩

theorem timerStep_lock {e : TimerEvent} (h : a.timerStep e = some b) :
    b.grain.lock = a.grain.lock := by
  cases e with
  | tick => obtain ⟨-, -, ⟨-, rfl⟩ | ⟨-, rfl⟩⟩ := tick_eq_some h <;> rfl
  | commit => obtain ⟨_, _, -, rfl⟩ := commit_eq_some h; rfl
  | throw => obtain ⟨_, _, -, rfl⟩ := throw_eq_some h; rfl
  | resume => obtain ⟨_, -, ⟨-, rfl⟩ | ⟨-, rfl⟩⟩ := resume_eq_some h <;> rfl

theorem timerStep_created {e : TimerEvent} (h : a.timerStep e = some b) :
    b.created = a.created := by
  cases e with
  | tick => obtain ⟨-, -, ⟨-, rfl⟩ | ⟨-, rfl⟩⟩ := tick_eq_some h <;> rfl
  | commit => obtain ⟨_, _, -, rfl⟩ := commit_eq_some h; rfl
  | throw => obtain ⟨_, _, -, rfl⟩ := throw_eq_some h; rfl
  | resume => obtain ⟨_, -, ⟨-, rfl⟩ | ⟨-, rfl⟩⟩ := resume_eq_some h <;> rfl

/-! ## The save in flight -/

/-- The batch in flight is the prefix of the list that the callback counted, and it is still there
when the commit has happened. -/
def Fits (a : Activation) : Prop :=
  match a.save with
  | .idle => True
  | .saving count batch => count ≤ a.grain.lockAccesses.length ∧ count ≠ 0 ∧
      batch = a.grain.lockAccesses.take count
  | .saved count => count ≤ a.grain.lockAccesses.length ∧ count ≠ 0 ∧
      a.committed.getLast? = some (a.grain.lockAccesses.take count)

theorem fits_start (row : Option LockEntity) : (start row).Fits := trivial

theorem Fits.request (h : a.Fits) (utcNow : DateTime) (req : AccessRequest) :
    (a.request utcNow req).Fits := by
  have hsave : (a.request utcNow req).save = a.save := rfl
  have hcom : (a.request utcNow req).committed = a.committed := rfl
  unfold Fits at h ⊢
  rw [hsave, hcom, request_lockAccesses]
  cases hs : a.save with
  | idle => trivial
  | saving count batch =>
    rw [hs] at h
    obtain ⟨hle, hne, hbatch⟩ := h
    refine ⟨?_, hne, ?_⟩
    · rw [List.length_append]; omega
    · rw [List.take_append_of_le_length hle, hbatch]
  | saved count =>
    rw [hs] at h
    obtain ⟨hle, hne, hlast⟩ := h
    refine ⟨?_, hne, ?_⟩
    · rw [List.length_append]; omega
    · rw [List.take_append_of_le_length hle, hlast]

theorem Fits.timerStep (h : a.Fits) {e : TimerEvent} (hstep : a.timerStep e = some b) :
    b.Fits := by
  cases e with
  | tick =>
    obtain ⟨-, -, ⟨-, rfl⟩ | ⟨hne, rfl⟩⟩ := tick_eq_some hstep
    · exact h
    · exact ⟨Nat.le_refl _, fun e => hne (List.length_eq_zero_iff.mp e), List.take_length.symm⟩
  | commit =>
    obtain ⟨count, batch, hs, rfl⟩ := commit_eq_some hstep
    unfold Fits at h
    rw [hs] at h
    exact ⟨h.1, h.2.1, by rw [List.getLast?_concat, h.2.2]⟩
  | throw => obtain ⟨_, _, -, rfl⟩ := throw_eq_some hstep; trivial
  | resume => obtain ⟨_, -, ⟨-, rfl⟩ | ⟨-, rfl⟩⟩ := resume_eq_some hstep <;> trivial

theorem Fits.step (h : a.Fits) {e : ActivationEvent} (hstep : a.step e = some b) : b.Fits := by
  cases e with
  | request utcNow req => cases hstep; exact h.request utcNow req
  | timer e => exact h.timerStep hstep

theorem unsaved_subset : a.unsaved ⊆ a.grain.lockAccesses := by
  unfold unsaved
  cases a.save with
  | saved count => exact List.drop_subset _ _
  | idle => exact List.Subset.refl _
  | saving count batch => exact List.Subset.refl _

/-! ## An activation is a ledger -/

/-- The ledger of an activation. -/
structure Keeps (a : Activation) (l : Ledger LockAccessHistoryEntity) : Prop where
  fits : a.Fits
  log : l.log = a.created
  stored : l.stored = a.committed.flatten
  waiting : l.waiting = a.unsaved

theorem keeps_start (row : Option LockEntity) : (start row).Keeps Ledger.empty where
  fits := fits_start row
  log := rfl
  stored := rfl
  waiting := rfl

theorem Keeps.request {l : Ledger LockAccessHistoryEntity} (h : a.Keeps l) (utcNow : DateTime)
    (req : AccessRequest) : ∃ ops m, Ledger.machine.run l ops = some m ∧
      (a.request utcNow req).Keeps m := by
  have hsave : (a.request utcNow req).save = a.save := rfl
  have hcom : (a.request utcNow req).committed = a.committed := rfl
  have hunsaved : (a.request utcNow req).unsaved =
      a.unsaved ++ (a.grain.record utcNow req).toList := by
    have hfits := h.fits
    unfold Fits at hfits
    unfold unsaved
    rw [hsave, request_lockAccesses]
    cases hs : a.save with
    | idle => rfl
    | saving count batch => rfl
    | saved count =>
      rw [hs] at hfits
      exact List.drop_append_of_le_length hfits.1
  cases hr : a.grain.record utcNow req with
  | none =>
    rw [hr, Option.toList_none, List.append_nil] at hunsaved
    refine ⟨[], l, rfl, h.fits.request utcNow req, ?_, ?_, ?_⟩
    · rw [h.log, request_created, hr, Option.toList_none, List.append_nil]
    · rw [h.stored, hcom]
    · rw [h.waiting, hunsaved]
  | some r =>
    rw [hr, Option.toList_some] at hunsaved
    refine ⟨[.append r], l.append r, rfl, h.fits.request utcNow req, ?_, ?_, ?_⟩
    · show l.log ++ [r] = _
      rw [h.log, request_created, hr, Option.toList_some]
    · show l.stored = _
      rw [h.stored, hcom]
    · show l.waiting ++ [r] = _
      rw [h.waiting, hunsaved]

/-- A commit stores the batch; the other turns of the callback leave the ledger alone. -/
theorem Keeps.timerStep {l : Ledger LockAccessHistoryEntity} (h : a.Keeps l) {e : TimerEvent}
    (hstep : a.timerStep e = some b) :
    ∃ ops m, Ledger.machine.run l ops = some m ∧ b.Keeps m := by
  have hfits := h.fits.timerStep hstep
  have hlog : l.log = b.created := by rw [h.log, timerStep_created hstep]
  cases e with
  | tick =>
    obtain ⟨-, hs, ⟨-, rfl⟩ | ⟨-, rfl⟩⟩ := tick_eq_some hstep
    · exact ⟨[], l, rfl, h⟩
    · refine ⟨[], l, rfl, hfits, hlog, h.stored, ?_⟩
      rw [h.waiting]
      unfold unsaved
      rw [hs]
  | commit =>
    obtain ⟨count, batch, hs, rfl⟩ := commit_eq_some hstep
    have hold := h.fits
    have hw := h.waiting
    unfold Fits at hold
    unfold unsaved at hw
    rw [hs] at hold hw
    refine ⟨[.store count], l.store count, rfl, hfits, hlog, ?_, ?_⟩
    · show l.stored ++ l.waiting.take count = (a.committed ++ [batch]).flatten
      rw [h.stored, hw, hold.2.2, List.flatten_append, List.flatten_singleton]
    · show l.waiting.drop count = a.grain.lockAccesses.drop count
      rw [hw]
  | throw =>
    obtain ⟨_, _, hs, rfl⟩ := throw_eq_some hstep
    refine ⟨[], l, rfl, hfits, hlog, h.stored, ?_⟩
    rw [h.waiting]
    unfold unsaved
    rw [hs]
  | resume =>
    obtain ⟨count, hs, hcase⟩ := resume_eq_some hstep
    have hold := h.fits
    have hw := h.waiting
    unfold Fits at hold
    unfold unsaved at hw
    rw [hs] at hold hw
    -- the saved prefix is still in the list, so `RemoveRange` is in range
    obtain ⟨-, rfl⟩ | ⟨hlt, -⟩ := hcase
    · exact ⟨[], l, rfl, hfits, hlog, h.stored, hw⟩
    · exact absurd hold.1 (by omega)

theorem Keeps.step {l : Ledger LockAccessHistoryEntity} (h : a.Keeps l) {e : ActivationEvent}
    (hstep : a.step e = some b) : ∃ ops m, Ledger.machine.run l ops = some m ∧ b.Keeps m := by
  cases e with
  | request utcNow req => cases hstep; exact h.request utcNow req
  | timer e => exact h.timerStep hstep

/-- **An activation is a write-behind ledger.** -/
theorem run_ledger {row : Option LockEntity} {es : List ActivationEvent}
    (h : activation.run (start row) es = some a) :
    ∃ ops l, Ledger.machine.run Ledger.empty ops = some l ∧ a.Keeps l :=
  Machine.run_simulation (fun _ _ _ _ hR hstep => hR.step hstep) (keeps_start row) h

end Activation

end SmartLock
