import SmartLock.Grains.Lifetimes

/-!
# Up to access times

The clock only dates the records. Without the dates a grain moves in the same way
(`GrainSlot.step_undate`), so two grains that take the same events at different times differ in
nothing but the dates.
-/

namespace SmartLock

/-- The records without their access times. -/
def undatedAll (rs : List LockAccessHistoryEntity) : List LockAccessHistoryEntity :=
  rs.map LockAccessHistoryEntity.undated

@[simp] theorem length_undatedAll (rs : List LockAccessHistoryEntity) :
    (undatedAll rs).length = rs.length := List.length_map _

theorem undatedAll_append (rs ts : List LockAccessHistoryEntity) :
    undatedAll (rs ++ ts) = undatedAll rs ++ undatedAll ts := List.map_append

theorem undatedAll_drop (rs : List LockAccessHistoryEntity) (n : ℕ) :
    (undatedAll rs).drop n = undatedAll (rs.drop n) := (List.map_drop).symm

theorem undatedAll_flatten (rss : List (List LockAccessHistoryEntity)) :
    (rss.map undatedAll).flatten = undatedAll rss.flatten := by
  unfold undatedAll
  rw [List.map_flatten]

namespace LockGrain

def undate (g : LockGrain) : LockGrain := ⟨g.lock, undatedAll g.lockAccesses⟩

theorem requestAccessAsync_undate (g : LockGrain) (utcNow : DateTime) (req : AccessRequest) :
    (g.undate.requestAccessAsync 0 req).grain = (g.requestAccessAsync utcNow req).grain.undate := by
  obtain ⟨lock, rs⟩ := g
  cases lock with
  | none => rfl
  | some l =>
    show LockGrain.mk (some l) (undatedAll rs ++ [_]) = LockGrain.mk (some l) (undatedAll (rs ++ [_]))
    rw [undatedAll_append]
    rfl

end LockGrain

def SaveState.undate : SaveState → SaveState
  | .saving count batch => .saving count (undatedAll batch)
  | s => s

namespace Activation

variable {a b : Activation}

def undate (a : Activation) : Activation where
  grain := a.grain.undate
  timer := a.timer
  save := a.save.undate
  created := undatedAll a.created
  committed := a.committed.map undatedAll

theorem start_undate (row : Option LockEntity) : (start row).undate = start row := rfl

theorem request_undate (utcNow : DateTime) (req : AccessRequest) :
    a.undate.request 0 req = (a.request utcNow req).undate := by
  have hgrain := a.grain.requestAccessAsync_undate utcNow req
  unfold request undate
  dsimp only
  rw [hgrain]
  simp only [LockGrain.undate, undatedAll_append, undatedAll_drop, length_undatedAll]

theorem toList_committing_undate (t : TimerEvent) :
    (a.undate.committing t).toList = (a.committing t).toList.map undatedAll := by
  cases t with
  | commit => unfold committing undate; cases a.save <;> rfl
  | tick | throw | resume => rfl

theorem timerStep_undate {t : TimerEvent} (h : a.timerStep t = some b) :
    a.undate.timerStep t = some b.undate := by
  cases t with
  | tick =>
    obtain ⟨htimer, hs, ⟨hnil, rfl⟩ | ⟨hne, rfl⟩⟩ := tick_eq_some h
    · simp [timerStep, undate, SaveState.undate, LockGrain.undate, LockGrain.saveBatch,
        undatedAll, htimer, hs, hnil]
    · simp [timerStep, undate, SaveState.undate, LockGrain.undate, LockGrain.saveBatch,
        undatedAll, htimer, hs, hne, List.take_of_length_le]
  | commit =>
    obtain ⟨count, batch, hs, rfl⟩ := commit_eq_some h
    simp [timerStep, undate, SaveState.undate, hs]
  | throw =>
    obtain ⟨count, batch, hs, rfl⟩ := throw_eq_some h
    simp [timerStep, undate, SaveState.undate, hs]
  | resume =>
    obtain ⟨count, hs, ⟨hle, rfl⟩ | ⟨hlt, rfl⟩⟩ := resume_eq_some h
    · simp [timerStep, undate, SaveState.undate, LockGrain.undate, LockGrain.removeSaved,
        removeRange_zero, undatedAll_drop, hs, hle]
    · have hnot : ¬ count ≤ a.grain.lockAccesses.length := by omega
      simp [timerStep, undate, SaveState.undate, LockGrain.undate, LockGrain.removeSaved,
        removeRange_zero, hs, hnot]

end Activation

/-- The event without its access time. -/
def GrainEvent.undate : GrainEvent → GrainEvent
  | .request _ req => .request 0 req
  | e => e

namespace GrainSlot

variable {g g' : GrainSlot}

def undate (g : GrainSlot) : GrainSlot where
  live := g.live.map Activation.undate
  ended := g.ended.map Activation.undate
  stored := g.stored.map undatedAll

theorem buffer_undate (g : GrainSlot) : g.undate.buffer = undatedAll g.buffer := by
  unfold buffer undate
  cases g.live <;> rfl

/-- **The clock only dates the records.** -/
theorem step_undate {e : GrainEvent} (h : g.step e = some g') :
    g.undate.step e.undate = some g'.undate := by
  cases e with
  | activate row =>
    obtain ⟨hl, rfl⟩ := activate_eq_some h
    simp [step, undate, GrainEvent.undate, hl, Activation.start_undate]
  | request utcNow req =>
    obtain ⟨a, ha, rfl⟩ := request_eq_some h
    simp [step, undate, GrainEvent.undate, ha, Activation.request_undate utcNow req]
  | timer t =>
    obtain ⟨a, b, ha, hb, rfl⟩ := timer_eq_some h
    simp [step, undate, GrainEvent.undate, committing, ha, Activation.timerStep_undate hb,
      Activation.toList_committing_undate]
  | late i t =>
    obtain ⟨a, b, ha, ht, hb, rfl⟩ := late_eq_some h
    simp [step, undate, GrainEvent.undate, committing, ha, ht, Activation.timerStep_undate hb,
      Activation.toList_committing_undate]
  | deactivate =>
    obtain ⟨a, ha, rfl⟩ := deactivate_eq_some h
    simp [step, undate, GrainEvent.undate, ha]

end GrainSlot

end SmartLock
