import Mathlib.Logic.Function.Basic
import SmartLock.Data.Database
import SmartLock.Grains.Lifetimes
import SmartLock.WebApi.LocksController

/-!
# The silo

The grains of all keys over one database. A grain is activated from the rows that its query finds
at that moment, handles calls one at a time, and its saves go to the one `LockAccesses` table.
Other changes of the tables are committed in between.

`step_grains` is what the rest of the development uses of a step: the grain of every key takes its
own event of `grainEvent`, or stays as it is.
-/

namespace SmartLock

/-- One execution of `RequestAccessAsync`: the key of the grain, the clock, the arguments and the
grain that it ran on. -/
structure Decision where
  key : String
  utcNow : DateTime
  request : AccessRequest
  before : LockGrain
  deriving DecidableEq, Repr

namespace Decision

/-- What the execution left behind. -/
def outcome (d : Decision) : RequestOutcome := d.before.requestAccessAsync d.utcNow d.request

/-- The call that it answered. -/
def call (d : Decision) : GrainCall := ⟨d.key, d.request⟩

/-- The record that it left in the list. -/
def record (d : Decision) : Option LockAccessHistoryEntity := d.before.record d.utcNow d.request

variable {d : Decision}

theorem outcome_of_none (h : d.before.lock = none) :
    d.outcome = ⟨d.before, ⟨.denied⟩, none⟩ ∧ d.record = none := by
  refine ⟨d.before.requestAccessAsync_of_none d.utcNow d.request h, ?_⟩
  unfold record LockGrain.record
  rw [h]
  rfl

theorem sent_of_lock {l : LockEntity} (h : d.before.lock = some l) :
    d.outcome.sent = some ⟨l.id, d.outcome.result⟩ := by
  obtain ⟨_, -, -, -, hsent⟩ := d.before.requestAccessAsync_of_some d.utcNow d.request h
  exact hsent

theorem lock_of_sent {m : LockMessage} (h : d.outcome.sent = some m) :
    ∃ l, d.before.lock = some l ∧ m = ⟨l.id, d.outcome.result⟩ := by
  cases hl : d.before.lock with
  | none =>
    rw [(outcome_of_none hl).1] at h
    cases h
  | some l => exact ⟨l, rfl, Option.some.inj (h.symm.trans (sent_of_lock hl))⟩

end Decision

/-- The database and the grains. The last three fields are history variables: the decisions, the
batches with the keys that saved them, and the rows with the keys that loaded them. -/
structure Silo where
  db : SmartLockDb
  grains : String → GrainSlot
  decisions : List Decision
  batches : List (String × List LockAccessHistoryEntity)
  activations : List (String × Option LockEntity)

inductive SiloEvent
  | activate (key : String)
  | handle (utcNow : DateTime) (call : GrainCall)
  | timer (key : String) (t : TimerEvent)
  | late (key : String) (i : ℕ) (t : TimerEvent)
  | deactivate (key : String)
  | change (ch : DbChange)
  deriving DecidableEq, Repr

/-- The event commits a change other than a save. -/
def SiloEvent.isChange : SiloEvent → Bool
  | .change _ => true
  | _ => false

namespace Silo

/-- No grain is active. -/
def init (db : SmartLockDb) : Silo := ⟨db, fun _ => GrainSlot.empty, [], [], []⟩

/-- The database after the commit of a batch, if there is one. -/
def commitBatch (c : Collation) (db : SmartLockDb) :
    Option (List LockAccessHistoryEntity) → Option SmartLockDb
  | none => some db
  | some batch => db.saveChangesAsync c batch

/-- An event of one grain that is neither an activation nor a call. -/
def turn (c : Collation) (s : Silo) (key : String) (e : GrainEvent) : Option Silo := do
  let g ← (s.grains key).step e
  let batch := (s.grains key).committing e
  let db ← commitBatch c s.db batch
  return { s with
    db := db
    grains := Function.update s.grains key g
    batches := s.batches ++ (batch.map fun b => (key, b)).toList }

def step (c : Collation) (s : Silo) : SiloEvent → Option Silo
  | .activate key => do
    let row := s.db.findLock c key
    let g ← (s.grains key).step (.activate row)
    return { s with
      grains := Function.update s.grains key g
      activations := s.activations ++ [(key, row)] }
  | .handle utcNow call => do
    let a ← (s.grains call.key).live
    let g ← (s.grains call.key).step (.request utcNow call.request)
    return { s with
      grains := Function.update s.grains call.key g
      decisions := s.decisions ++ [⟨call.key, utcNow, call.request, a.grain⟩] }
  | .timer key t => s.turn c key (.timer t)
  | .late key i t => s.turn c key (.late i t)
  | .deactivate key => s.turn c key .deactivate
  | .change ch => do
    let db ← ch.apply c s.db
    return { s with db := db }

end Silo

/-- The silo as a machine. -/
def silo (c : Collation) : Machine Silo SiloEvent := ⟨Silo.step c⟩

/-! ## What a step does -/

namespace Silo

variable {c : Collation} {s s' : Silo}

theorem activate_eq_some {key : String} (h : s.step c (.activate key) = some s') :
    ∃ g, (s.grains key).step (.activate (s.db.findLock c key)) = some g ∧
      s' = { s with
        grains := Function.update s.grains key g
        activations := s.activations ++ [(key, s.db.findLock c key)] } := by
  simp only [step, Option.bind_eq_bind, Option.pure_def, Option.bind_eq_some_iff] at h
  obtain ⟨g, hg, hs⟩ := h
  exact ⟨g, hg, (Option.some.inj hs).symm⟩

theorem handle_eq_some {utcNow : DateTime} {call : GrainCall}
    (h : s.step c (.handle utcNow call) = some s') :
    ∃ a g, (s.grains call.key).live = some a ∧
      (s.grains call.key).step (.request utcNow call.request) = some g ∧
      s' = { s with
        grains := Function.update s.grains call.key g
        decisions := s.decisions ++ [⟨call.key, utcNow, call.request, a.grain⟩] } := by
  simp only [step, Option.bind_eq_bind, Option.pure_def, Option.bind_eq_some_iff] at h
  obtain ⟨a, ha, g, hg, hs⟩ := h
  exact ⟨a, g, ha, hg, (Option.some.inj hs).symm⟩

theorem turn_eq_some {key : String} {e : GrainEvent} (h : s.turn c key e = some s') :
    ∃ g db, (s.grains key).step e = some g ∧
      commitBatch c s.db ((s.grains key).committing e) = some db ∧
      s' = { s with
        db := db
        grains := Function.update s.grains key g
        batches := s.batches ++
          (((s.grains key).committing e).map fun b => (key, b)).toList } := by
  simp only [turn, Option.bind_eq_bind, Option.pure_def, Option.bind_eq_some_iff] at h
  obtain ⟨g, hg, db, hdb, hs⟩ := h
  exact ⟨g, db, hg, hdb, (Option.some.inj hs).symm⟩

theorem change_eq_some {ch : DbChange} (h : s.step c (.change ch) = some s') :
    ∃ db, ch.apply c s.db = some db ∧ s' = { s with db := db } := by
  simp only [step, Option.bind_eq_bind, Option.pure_def, Option.bind_eq_some_iff] at h
  obtain ⟨db, hdb, hs⟩ := h
  exact ⟨db, hdb, (Option.some.inj hs).symm⟩

theorem commitBatch_eq_some {db db' : SmartLockDb} {batch : Option (List LockAccessHistoryEntity)}
    (h : commitBatch c db batch = some db') :
    db' = { db with lockAccesses := db.lockAccesses ++ batch.toList.flatten } := by
  cases batch with
  | none =>
    rw [← Option.some.inj h]
    simp
  | some b =>
    obtain ⟨-, rfl⟩ := SmartLockDb.saveChangesAsync_eq_some.mp h
    simp

/-- The event of the grain `key` in an event of the silo. -/
def grainEvent (c : Collation) (s : Silo) (key : String) : SiloEvent → Option GrainEvent
  | .activate k => if k = key then some (.activate (s.db.findLock c k)) else none
  | .handle utcNow call => if call.key = key then some (.request utcNow call.request) else none
  | .timer k t => if k = key then some (.timer t) else none
  | .late k i t => if k = key then some (.late i t) else none
  | .deactivate k => if k = key then some .deactivate else none
  | .change _ => none

/-- How the grain of one key moves in a step. -/
def Moves (s s' : Silo) (key : String) : Option GrainEvent → Prop
  | some e => (s.grains key).step e = some (s'.grains key)
  | none => s'.grains key = s.grains key

theorem moves_update {grains : String → GrainSlot} {k key : String} {e : GrainEvent}
    {g : GrainSlot} (hs : grains = s.grains) (hs' : s'.grains = Function.update grains k g)
    (hg : (s.grains k).step e = some g) :
    Moves s s' key (if k = key then some e else none) := by
  subst hs
  by_cases hk : k = key
  · subst hk
    rw [if_pos rfl, Moves, hs', Function.update_self]
    exact hg
  · rw [if_neg hk, Moves, hs', Function.update_of_ne (Ne.symm hk)]

/-- **A step moves one grain.** The grain of every key takes its event of the step, or stays. -/
theorem step_grains {e : SiloEvent} (h : s.step c e = some s') (key : String) :
    Moves s s' key (grainEvent c s key e) := by
  cases e with
  | activate k =>
    obtain ⟨g, hg, rfl⟩ := activate_eq_some h
    exact moves_update rfl rfl hg
  | handle utcNow call =>
    obtain ⟨a, g, -, hg, rfl⟩ := handle_eq_some h
    exact moves_update rfl rfl hg
  | timer k t =>
    obtain ⟨g, db, hg, -, rfl⟩ := turn_eq_some h
    exact moves_update rfl rfl hg
  | late k i t =>
    obtain ⟨g, db, hg, -, rfl⟩ := turn_eq_some h
    exact moves_update rfl rfl hg
  | deactivate k =>
    obtain ⟨g, db, hg, -, rfl⟩ := turn_eq_some h
    exact moves_update rfl rfl hg
  | change ch =>
    obtain ⟨db, -, rfl⟩ := change_eq_some h
    rfl

theorem grain_cases {e : SiloEvent} (h : s.step c e = some s') (key : String) :
    (grainEvent c s key e = none ∧ s'.grains key = s.grains key) ∨
      ∃ e', grainEvent c s key e = some e' ∧ (s.grains key).step e' = some (s'.grains key) := by
  have hmoves := step_grains h key
  cases he : grainEvent c s key e with
  | none =>
    rw [he] at hmoves
    exact Or.inl ⟨rfl, hmoves⟩
  | some e' =>
    rw [he] at hmoves
    exact Or.inr ⟨e', rfl, hmoves⟩

theorem grainEvent_eq_activate {e : SiloEvent} {key : String} {row : Option LockEntity}
    (h : grainEvent c s key e = some (.activate row)) :
    e = .activate key ∧ s.db.findLock c key = row := by
  cases e with
  | activate k =>
    simp only [grainEvent, Option.ite_none_right_eq_some] at h
    obtain ⟨rfl, h⟩ := h
    injection h with h
    injection h with h
    exact ⟨rfl, h⟩
  | handle | timer | late | deactivate | change => simp [grainEvent] at h

/-- What holds of every grain before a step and is kept by the events of a grain holds of every
grain after it. -/
theorem forall_grains_step {I : GrainSlot → Prop} {e : SiloEvent}
    (hI : ∀ key g e' g', grainEvent c s key e = some e' → I g → g = s.grains key →
      g.step e' = some g' → I g')
    (hs : ∀ key, I (s.grains key)) (h : s.step c e = some s') (key : String) :
    I (s'.grains key) := by
  obtain ⟨-, hstay⟩ | ⟨e', he, hmove⟩ := grain_cases h key
  · rw [hstay]
    exact hs key
  · exact hI key _ e' _ he (hs key) rfl hmove

/-- A log of a grain that its events extend grows in a step by what the event of its key adds. -/
theorem step_log {α : Type} (log : GrainSlot → List α)
    (gain : GrainSlot → GrainEvent → Option α)
    (hlog : ∀ g e' g', g.step e' = some g' → log g' = log g ++ (gain g e').toList)
    {e : SiloEvent} (h : s.step c e = some s') (key : String) :
    log (s'.grains key) =
      log (s.grains key) ++ ((grainEvent c s key e).bind (gain (s.grains key))).toList := by
  obtain ⟨he, hstay⟩ | ⟨e', he, hmove⟩ := grain_cases h key
  · rw [he, hstay]
    exact (List.append_nil _).symm
  · rw [he]
    exact hlog _ e' _ hmove

/-- The decision that an event takes. -/
def decided (s : Silo) : SiloEvent → Option Decision
  | .handle utcNow call =>
    (s.grains call.key).live.map fun a => ⟨call.key, utcNow, call.request, a.grain⟩
  | _ => none

/-- The row that an event loads. -/
def loaded (c : Collation) (s : Silo) : SiloEvent → Option (String × Option LockEntity)
  | .activate key => some (key, s.db.findLock c key)
  | _ => none

/-- The batch that an event commits, with its key. -/
def saved (s : Silo) : SiloEvent → Option (String × List LockAccessHistoryEntity)
  | .timer key t => ((s.grains key).committing (.timer t)).map fun b => (key, b)
  | .late key i t => ((s.grains key).committing (.late i t)).map fun b => (key, b)
  | _ => none

/-- A step only appends to the three histories. -/
theorem step_histories {e : SiloEvent} (h : s.step c e = some s') :
    s'.decisions = s.decisions ++ (s.decided e).toList ∧
      s'.activations = s.activations ++ (s.loaded c e).toList ∧
      s'.batches = s.batches ++ (s.saved e).toList := by
  cases e with
  | activate k =>
    obtain ⟨g, -, rfl⟩ := activate_eq_some h
    simp [decided, loaded, saved]
  | handle utcNow call =>
    obtain ⟨a, g, ha, -, rfl⟩ := handle_eq_some h
    simp [decided, loaded, saved, ha]
  | timer k t =>
    obtain ⟨g, db, -, -, rfl⟩ := turn_eq_some h
    simp [decided, loaded, saved]
  | late k i t =>
    obtain ⟨g, db, -, -, rfl⟩ := turn_eq_some h
    simp [decided, loaded, saved]
  | deactivate k =>
    obtain ⟨g, db, -, -, rfl⟩ := turn_eq_some h
    simp [decided, loaded, saved, GrainSlot.committing]
  | change ch =>
    obtain ⟨db, -, rfl⟩ := change_eq_some h
    simp [decided, loaded, saved]

theorem step_decisions {e : SiloEvent} (h : s.step c e = some s') :
    s'.decisions = s.decisions ++ (s.decided e).toList :=
  (step_histories h).1

theorem step_activations {e : SiloEvent} (h : s.step c e = some s') :
    s'.activations = s.activations ++ (s.loaded c e).toList :=
  (step_histories h).2.1

theorem step_batches {e : SiloEvent} (h : s.step c e = some s') :
    s'.batches = s.batches ++ (s.saved e).toList :=
  (step_histories h).2.2

/-- Unless another change is committed, a step changes only `LockAccesses`, where it appends the
batch that it saves. -/
theorem step_db {e : SiloEvent} (h : s.step c e = some s') (he : e.isChange = false) :
    s'.db = { s.db with
      lockAccesses := s.db.lockAccesses ++ ((s.saved e).map Prod.snd).toList.flatten } := by
  cases e with
  | activate k =>
    obtain ⟨g, -, rfl⟩ := activate_eq_some h
    simp [saved]
  | handle utcNow call =>
    obtain ⟨a, g, -, -, rfl⟩ := handle_eq_some h
    simp [saved]
  | timer k t =>
    obtain ⟨g, db, -, hdb, rfl⟩ := turn_eq_some h
    rw [saved, Option.map_map]
    exact (commitBatch_eq_some hdb).trans (by simp [Function.comp_def])
  | late k i t =>
    obtain ⟨g, db, -, hdb, rfl⟩ := turn_eq_some h
    rw [saved, Option.map_map]
    exact (commitBatch_eq_some hdb).trans (by simp [Function.comp_def])
  | deactivate k =>
    obtain ⟨g, db, -, hdb, rfl⟩ := turn_eq_some h
    exact commitBatch_eq_some hdb
  | change ch => cases he

/-- The tables after a step are those after another change, or after the save of a batch. -/
theorem db_cases {e : SiloEvent} (h : s.step c e = some s') :
    (∃ ch, e = .change ch ∧ ch.apply c s.db = some s'.db) ∨
      s'.db = { s.db with
        lockAccesses := s.db.lockAccesses ++ ((s.saved e).map Prod.snd).toList.flatten } := by
  cases e with
  | change ch =>
    obtain ⟨db, hdb, rfl⟩ := change_eq_some h
    exact Or.inl ⟨ch, rfl, hdb⟩
  | activate | handle | timer | late | deactivate => exact Or.inr (step_db h rfl)

theorem step_findLock {e : SiloEvent} (h : s.step c e = some s') (he : e.isChange = false)
    (key : String) : s'.db.findLock c key = s.db.findLock c key := by
  rw [step_db h he]
  rfl

end Silo

end SmartLock
