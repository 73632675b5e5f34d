import SmartLock.Cluster.Backlog

/-!
# The service without awaits

What the silo is for, with every operation in one step. A desk has the lock that it loaded and the
records that it has not stored; a store moves the oldest of these to the table at once.

`run_atomic`: every run of the service is one of this machine, with the same answers, messages and
tables, wherever the timers stand. `run_of_whole`: every run of this machine that stores whole
lists is a run of the silo.
-/

namespace SmartLock

/-! ## The machine -/

/-- The lock that a desk has loaded, and its records that are not stored. -/
structure Desk where
  lock : Option LockEntity
  pending : List LockAccessHistoryEntity
  deriving DecidableEq, Repr

/-- The open desk of a key, and what its closed desks have not stored. -/
structure DeskSlot where
  desk : Option Desk
  left : List (List LockAccessHistoryEntity)
  deriving DecidableEq, Repr

/-- What a caller and the door were told. -/
structure Answer where
  utcNow : DateTime
  call : GrainCall
  result : LockAccessResult
  told : Option LockMessage
  deriving DecidableEq, Repr

structure AtomicSilo where
  db : SmartLockDb
  slots : String → DeskSlot
  answers : List Answer

inductive AtomicEvent
  | load (key : String)
  | answer (utcNow : DateTime) (call : GrainCall)
  | store (key : String) (count : ℕ)
  | storeLeft (key : String) (i count : ℕ)
  | close (key : String)
  | change (ch : DbChange)
  deriving DecidableEq, Repr

namespace Desk

/-- Access is for the roles of the lock, and nobody's where there is no lock. -/
def result (d : Desk) (roles : List String) : LockAccessResult :=
  d.lock.elim .denied fun l => l.hasAccess roles

/-- The answer goes to the caller and, where there is a lock, to its door. -/
def answer (d : Desk) (utcNow : DateTime) (call : GrainCall) : Answer where
  utcNow := utcNow
  call := call
  result := d.result call.request.requesterRoles
  told := d.lock.map fun l => ⟨l.id, ⟨d.result call.request.requesterRoles⟩⟩

/-- It is recorded behind the others. -/
def ask (d : Desk) (utcNow : DateTime) (req : AccessRequest) : Desk :=
  { d with
    pending := d.pending ++ (d.lock.map fun l => LockAccessHistoryEntity.create l.id
      req.requesterId (d.result req.requesterRoles) req.requestForEmployeeId utcNow).toList }

end Desk

namespace AtomicSilo

/-- Every desk is closed. -/
def init (db : SmartLockDb) : AtomicSilo := ⟨db, fun _ => ⟨none, []⟩, []⟩

def step (c : Collation) (s : AtomicSilo) : AtomicEvent → Option AtomicSilo
  | .load key =>
    match (s.slots key).desk with
    | none => some { s with
        slots := Function.update s.slots key
          { s.slots key with desk := some ⟨s.db.findLock c key, []⟩ } }
    | some _ => none
  | .answer utcNow call => do
    let d ← (s.slots call.key).desk
    return { s with
      slots := Function.update s.slots call.key
        { s.slots call.key with desk := some (d.ask utcNow call.request) }
      answers := s.answers ++ [d.answer utcNow call] }
  | .store key count => do
    let d ← (s.slots key).desk
    let db ← s.db.saveChangesAsync c (d.pending.take count)
    return { s with
      db := db
      slots := Function.update s.slots key
        { s.slots key with desk := some { d with pending := d.pending.drop count } } }
  | .storeLeft key i count => do
    let rows ← (s.slots key).left[i]?
    let db ← s.db.saveChangesAsync c (rows.take count)
    return { s with
      db := db
      slots := Function.update s.slots key
        { s.slots key with left := (s.slots key).left.set i (rows.drop count) } }
  | .close key => do
    let d ← (s.slots key).desk
    return { s with
      slots := Function.update s.slots key ⟨none, (s.slots key).left ++ [d.pending]⟩ }
  | .change ch => do
    let db ← ch.apply c s.db
    return { s with db := db }

end AtomicSilo

/-- The service without awaits as a machine. -/
def atomicSilo (c : Collation) : Machine AtomicSilo AtomicEvent := ⟨AtomicSilo.step c⟩

/-! ## What the silo looks like -/

/-- The desk of an activation. -/
def Activation.desk (a : Activation) : Desk := ⟨a.grain.lock, a.unsaved⟩

/-- The desks of a grain. -/
def GrainSlot.desks (g : GrainSlot) : DeskSlot :=
  ⟨g.live.map Activation.desk, g.ended.map Activation.unsaved⟩

/-- What a decision told. -/
def Decision.answer (d : Decision) : Answer :=
  ⟨d.utcNow, d.call, d.outcome.result.accessResult, d.outcome.sent⟩

/-- The silo without its timers. -/
def Silo.atomic (s : Silo) : AtomicSilo :=
  ⟨s.db, GrainSlot.desks ∘ s.grains, s.decisions.map Decision.answer⟩

namespace Activation

variable {a b : Activation}

theorem desk_answer (a : Activation) (key : String) (utcNow : DateTime) (req : AccessRequest) :
    a.desk.answer utcNow ⟨key, req⟩ = Decision.answer ⟨key, utcNow, req, a.grain⟩ := by
  unfold desk Desk.answer Desk.result Decision.answer Decision.outcome LockGrain.requestAccessAsync
  cases a.grain.lock <;> rfl

theorem Reachable.desk_request (h : a.Reachable) (utcNow : DateTime) (req : AccessRequest) :
    (a.request utcNow req).desk = a.desk.ask utcNow req := by
  unfold desk Desk.ask Desk.result
  rw [h.unsaved_request, request_lock]
  unfold LockGrain.record
  cases a.grain.lock <;> rfl

/-- A turn that commits stores as many records of the desk as are in its batch; the others leave
the desk as it is. -/
theorem Reachable.desk_timerStep (h : a.Reachable) {t : TimerEvent}
    (hstep : a.timerStep t = some b) :
    match a.committing t with
    | none => b.desk = a.desk
    | some batch => a.desk.pending.take batch.length = batch ∧
        b.desk = { a.desk with pending := a.desk.pending.drop batch.length } := by
  have hunsaved := h.unsaved_timerStep hstep
  have hlock := timerStep_lock hstep
  unfold desk
  cases hc : a.committing t with
  | none =>
    rw [hc] at hunsaved
    rw [hlock, hunsaved]
    rfl
  | some batch =>
    rw [hc, Option.toList_some, List.flatten_singleton] at hunsaved
    rw [hlock, hunsaved]
    exact ⟨List.take_left, by rw [List.drop_left]⟩

end Activation

namespace Silo

variable {c : Collation} {s s' : Silo}

theorem desks_update (grains : String → GrainSlot) (key : String) (g : GrainSlot) :
    GrainSlot.desks ∘ Function.update grains key g =
      Function.update (GrainSlot.desks ∘ grains) key g.desks :=
  Function.comp_update _ _ _ _

/-- The event of the service without awaits in an event of the silo: a turn of a callback is one
only where it commits. -/
def atomicEvent (s : Silo) : SiloEvent → Option AtomicEvent
  | .activate key => some (.load key)
  | .handle utcNow call => some (.answer utcNow call)
  | .timer key t =>
    ((s.grains key).committing (.timer t)).map fun batch => .store key batch.length
  | .late key i t =>
    ((s.grains key).committing (.late i t)).map fun batch => .storeLeft key i batch.length
  | .deactivate key => some (.close key)
  | .change ch => some (.change ch)

theorem atomic_turn {key : String} {e : GrainEvent} (h : s.turn c key e = some s') :
    ∃ db, commitBatch c s.db ((s.grains key).committing e) = some db ∧
      (s.grains key).step e = some (s'.grains key) ∧ s'.atomic = { s.atomic with
        db := db
        slots := Function.update s.atomic.slots key (s'.grains key).desks } := by
  obtain ⟨g, db, hg, hdb, rfl⟩ := turn_eq_some h
  have hself : Function.update s.grains key g key = g := Function.update_self key g s.grains
  refine ⟨db, hdb, hg.trans (congrArg some hself.symm), ?_⟩
  simp only [atomic, desks_update, hself]

/-- A silent turn, which commits nothing and leaves the desks, is no step. -/
theorem atomic_of_silent {key : String} {e : GrainEvent} (h : s.turn c key e = some s')
    (hcom : (s.grains key).committing e = none)
    (hdesks : (s'.grains key).desks = (s.grains key).desks) : s'.atomic = s.atomic := by
  obtain ⟨db, hdb, -, hatomic⟩ := atomic_turn h
  rw [hcom] at hdb
  cases hdb
  rw [hatomic, hdesks]
  exact congrArg (fun slots => { s.atomic with slots := slots })
    (Function.update_eq_self key s.atomic.slots)

theorem atomic_of_committing {key : String} {e : GrainEvent} (h : s.turn c key e = some s')
    {batch : List LockAccessHistoryEntity} (hcom : (s.grains key).committing e = some batch) :
    ∃ db, s.db.saveChangesAsync c batch = some db ∧ s'.atomic = { s.atomic with
      db := db
      slots := Function.update s.atomic.slots key (s'.grains key).desks } := by
  obtain ⟨db, hdb, -, hatomic⟩ := atomic_turn h
  rw [hcom] at hdb
  exact ⟨db, hdb, hatomic⟩

theorem atomic_timer {key : String} {t : TimerEvent} (hs : (s.grains key).Sound)
    (h : s.turn c key (.timer t) = some s') :
    (atomicSilo c).run s.atomic (s.atomicEvent (.timer key t)).toList = some s'.atomic := by
  obtain ⟨-, -, hstep, -⟩ := atomic_turn h
  obtain ⟨a, b, ha, hb, hslot⟩ := GrainSlot.timer_eq_some hstep
  have hdesk : (s.atomic.slots key).desk = some a.desk := congrArg (Option.map Activation.desk) ha
  have hdesks : (s'.grains key).desks = { s.atomic.slots key with desk := some b.desk } := by
    rw [hslot]
    rfl
  have hturn := (hs.live ha).desk_timerStep hb
  have hcom : (s.grains key).committing (.timer t) = a.committing t := by
    rw [GrainSlot.committing, ha, Option.bind_some]
  rw [atomicEvent, hcom]
  cases hc : a.committing t with
  | none =>
    rw [hc] at hturn hcom
    rw [atomic_of_silent h hcom (by rw [hdesks, hturn, ← hdesk]; rfl)]
    rfl
  | some batch =>
    rw [hc] at hturn hcom
    obtain ⟨db, hdb, hatomic⟩ := atomic_of_committing h hcom
    have hstore : s.atomic.db.saveChangesAsync c (a.desk.pending.take batch.length) = some db := by
      rw [hturn.1]
      exact hdb
    rw [hatomic, hdesks, hturn.2]
    simp only [Option.map_some, Option.toList_some, Machine.run_singleton, atomicSilo,
      AtomicSilo.step, hdesk, hstore, Option.bind_eq_bind, Option.bind_some, Option.pure_def]

theorem atomic_late {key : String} {i : ℕ} {t : TimerEvent} (hs : (s.grains key).Sound)
    (h : s.turn c key (.late i t) = some s') :
    (atomicSilo c).run s.atomic (s.atomicEvent (.late key i t)).toList = some s'.atomic := by
  obtain ⟨-, -, hstep, -⟩ := atomic_turn h
  obtain ⟨a, b, ha, -, hb, hslot⟩ := GrainSlot.late_eq_some hstep
  have hleft : (s.atomic.slots key).left[i]? = some a.unsaved := by
    show ((s.grains key).ended.map Activation.unsaved)[i]? = _
    rw [List.getElem?_map, ha, Option.map_some]
  have hdesks : (s'.grains key).desks =
      { s.atomic.slots key with left := (s.atomic.slots key).left.set i b.unsaved } := by
    rw [hslot]
    exact congrArg (DeskSlot.mk _) List.map_set
  have hturn := (hs.ended (List.mem_of_getElem? ha)).desk_timerStep hb
  have hcom : (s.grains key).committing (.late i t) = a.committing t := by
    rw [GrainSlot.committing, ha, Option.bind_some]
  rw [atomicEvent, hcom]
  cases hc : a.committing t with
  | none =>
    rw [hc] at hturn hcom
    have hunsaved : b.unsaved = a.unsaved := congrArg Desk.pending hturn
    obtain ⟨hi, hget⟩ := List.getElem?_eq_some_iff.mp hleft
    have hset : (s.atomic.slots key).left.set i b.unsaved = (s.atomic.slots key).left := by
      rw [hunsaved, ← hget]
      exact List.set_getElem_self hi
    rw [atomic_of_silent h hcom (by rw [hdesks, hset]; rfl)]
    rfl
  | some batch =>
    rw [hc] at hturn hcom
    obtain ⟨db, hdb, hatomic⟩ := atomic_of_committing h hcom
    have hstore : s.atomic.db.saveChangesAsync c (a.unsaved.take batch.length) = some db := by
      rw [show a.unsaved.take batch.length = batch from hturn.1]
      exact hdb
    have hunsaved : b.unsaved = a.unsaved.drop batch.length := congrArg Desk.pending hturn.2
    rw [hatomic, hdesks, hunsaved]
    simp only [Option.map_some, Option.toList_some, Machine.run_singleton, atomicSilo,
      AtomicSilo.step, hleft, hstore, Option.bind_eq_bind, Option.bind_some, Option.pure_def]

/-- **A turn is one step or none.** -/
theorem atomic_step (hs : ∀ key, (s.grains key).Sound) {e : SiloEvent}
    (h : s.step c e = some s') :
    (atomicSilo c).run s.atomic (s.atomicEvent e).toList = some s'.atomic := by
  cases e with
  | activate key =>
    obtain ⟨g, hg, rfl⟩ := activate_eq_some h
    obtain ⟨hnone, rfl⟩ := GrainSlot.activate_eq_some hg
    have hdesk : (s.atomic.slots key).desk = none := congrArg (Option.map Activation.desk) hnone
    simp only [atomicEvent, Option.toList_some, Machine.run_singleton, atomicSilo,
      AtomicSilo.step, hdesk]
    simp only [atomic, desks_update]
    rfl
  | handle utcNow call =>
    obtain ⟨a, g, ha, hg, rfl⟩ := handle_eq_some h
    obtain ⟨a', ha', rfl⟩ := GrainSlot.request_eq_some hg
    obtain rfl : a = a' := Option.some.inj (ha.symm.trans ha')
    have hdesk : (s.atomic.slots call.key).desk = some a.desk :=
      congrArg (Option.map Activation.desk) ha
    simp only [atomicEvent, Option.toList_some, Machine.run_singleton, atomicSilo,
      AtomicSilo.step, hdesk]
    simp only [atomic, desks_update, GrainSlot.desks, Option.map_some, List.map_append,
      ((hs call.key).live ha).desk_request]
    rw [List.map_singleton, ← Activation.desk_answer]
    rfl
  | timer key t => exact atomic_timer (hs key) h
  | late key i t => exact atomic_late (hs key) h
  | deactivate key =>
    obtain ⟨g, db, hg, hdb, rfl⟩ := turn_eq_some h
    obtain ⟨a, ha, rfl⟩ := GrainSlot.deactivate_eq_some hg
    cases hdb
    have hdesk : (s.atomic.slots key).desk = some a.desk := congrArg (Option.map Activation.desk) ha
    simp only [atomicEvent, Option.toList_some, Machine.run_singleton, atomicSilo,
      AtomicSilo.step, hdesk]
    simp only [atomic, desks_update, GrainSlot.desks, List.map_append]
    rfl
  | change ch =>
    obtain ⟨db, hdb, rfl⟩ := change_eq_some h
    simp only [atomicEvent, Option.toList_some, Machine.run_singleton, atomicSilo,
      AtomicSilo.step]
    rw [show s.atomic.db = s.db from rfl, hdb]
    rfl

/-- **A run is a run without awaits.** -/
theorem run_atomic (hs : ∀ key, (s.grains key).Sound) {es : List SiloEvent}
    (h : (silo c).run s es = some s') :
    ∃ ds, (atomicSilo c).run s.atomic ds = some s'.atomic := by
  obtain ⟨ds, a, hds, rfl, -⟩ := Machine.run_simulation (N := atomicSilo c)
    (R := fun (t : Silo) a => a = t.atomic ∧ ∀ key, (t.grains key).Sound)
    (fun t e t' a ⟨ha, ht⟩ hstep => by
      subst ha
      exact ⟨_, _, atomic_step ht hstep, rfl,
        forall_grains_step (fun _ _ _ _ _ hI _ hmove => hI.step hmove) ht hstep⟩)
    ⟨rfl, hs⟩ h
  exact ⟨ds, hds⟩

/-! ## Back to the silo -/

/-- No callback is in the middle of a save. -/
def Settled (s : Silo) : Prop := ∀ key, ∀ a ∈ (s.grains key).live, a.save = .idle

/-- A step that is the whole of an event of the service without awaits. -/
theorem realized {e : SiloEvent} {d : AtomicEvent} {a : AtomicSilo}
    (hs : ∀ key, (s.grains key).Sound) (hd : s.atomicEvent e = some d)
    (hstep : (atomicSilo c).step s.atomic d = some a) (h : s.step c e = some s') :
    s'.atomic = a := by
  have hatomic := atomic_step hs h
  rw [hd, Option.toList_some, Machine.run_singleton, hstep] at hatomic
  exact (Option.some.inj hatomic).symm

end Silo

/-- A store takes the whole list of an open desk, and there is one. -/
def AtomicSilo.Whole (s : AtomicSilo) : AtomicEvent → Prop
  | .store key count =>
    (s.slots key).desk.all (fun d => d.pending ≠ [] ∧ count = d.pending.length) = true
  | .storeLeft _ _ _ => False
  | _ => True

instance (s : AtomicSilo) (e : AtomicEvent) : Decidable (s.Whole e) :=
  match e with
  | .store _ _ => inferInstanceAs (Decidable (_ = true))
  | .storeLeft _ _ _ => inferInstanceAs (Decidable False)
  | .load _ => inferInstanceAs (Decidable True)
  | .answer _ _ => inferInstanceAs (Decidable True)
  | .close _ => inferInstanceAs (Decidable True)
  | .change _ => inferInstanceAs (Decidable True)

namespace Silo

variable {c : Collation} {s s' : Silo}

theorem settled_update {key : String} {g : GrainSlot} (hs : s.Settled)
    (hg : ∀ a ∈ g.live, a.save = .idle) (hgrains : s'.grains = Function.update s.grains key g) :
    s'.Settled := by
  intro k
  rw [hgrains]
  by_cases hk : k = key
  · rw [hk, Function.update_self]
    exact hg
  · rw [Function.update_of_ne hk]
    exact hs k

theorem exists_live {key : String} {d : Desk} (h : (s.atomic.slots key).desk = some d) :
    ∃ a, (s.grains key).live = some a ∧ a.desk = d :=
  Option.map_eq_some_iff.mp h

theorem exists_stored {key : String} {count : ℕ} {a' : AtomicSilo}
    (hs : ∀ key, (s.grains key).Sound) (hsettled : s.Settled)
    (hwhole : s.atomic.Whole (.store key count))
    (hstep : (atomicSilo c).step s.atomic (.store key count) = some a') :
    ∃ es t, (silo c).run s es = some t ∧ t.atomic = a' ∧ t.Settled := by
  simp only [atomicSilo, AtomicSilo.step, Option.bind_eq_bind, Option.pure_def,
    Option.bind_eq_some_iff] at hstep
  obtain ⟨d, hd, db, hdb, hstep⟩ := hstep
  obtain ⟨a, ha, rfl⟩ := exists_live hd
  simp only [AtomicSilo.Whole, hd, Option.all_some, decide_eq_true_eq] at hwhole
  obtain ⟨hne, rfl⟩ := hwhole
  have hidle := hsettled key a ha
  have hlist : a.desk.pending = a.grain.lockAccesses := by
    unfold Activation.desk Activation.unsaved
    rw [hidle]
  rw [hlist] at hne
  rw [hlist, List.take_length, SmartLockDb.saveChangesAsync_eq_some] at hdb
  have htimer : a.timer = true := by
    have hreach := (hs key).live ha
    obtain ⟨r, hr⟩ := List.exists_mem_of_ne_nil _ hne
    obtain ⟨l, hl, -⟩ := hreach.lock_of_mem_created (hreach.mem_created hr)
    rw [hreach.timer, hl]
    rfl
  obtain ⟨es, t, -, ht, hturned⟩ := exists_flushed (c := c) ha hidle htimer hne hdb.1
  refine ⟨es, t, ht, ?_, ?_⟩
  · rw [← Option.some.inj hstep, hlist, List.drop_length, hdb.2]
    unfold atomic
    rw [hturned.db, hturned.decisions]
    refine congrArg (fun slots => AtomicSilo.mk _ slots _) (funext fun k => ?_)
    by_cases hk : k = key
    · subst hk
      rw [Function.update_self, Function.comp_apply, GrainSlot.desks, hturned.live, hturned.ended]
      rfl
    · rw [Function.update_of_ne hk, Function.comp_apply, hturned.others k hk]
      rfl
  · intro k b hb
    by_cases hk : k = key
    · subst hk
      rw [hturned.live] at hb
      cases hb
      rfl
    · rw [hturned.others k hk] at hb
      exact hsettled k b hb

/-- **A step is a few turns.** -/
theorem exists_turns {a' : AtomicSilo} {d : AtomicEvent} (hs : ∀ key, (s.grains key).Sound)
    (hsettled : s.Settled) (hwhole : s.atomic.Whole d)
    (hstep : (atomicSilo c).step s.atomic d = some a') :
    ∃ es t, (silo c).run s es = some t ∧ t.atomic = a' ∧ t.Settled := by
  -- a step that is one event of the silo
  have hone : ∀ {e : SiloEvent}, s.atomicEvent e = some d → (∃ t, s.step c e = some t) →
      (∀ t, s.step c e = some t → t.Settled) →
      ∃ es t, (silo c).run s es = some t ∧ t.atomic = a' ∧ t.Settled := by
    rintro e hd ⟨t, ht⟩ hidle
    exact ⟨[e], t, by rw [Machine.run_singleton]; exact ht, realized hs hd hstep ht, hidle t ht⟩
  cases d with
  | load key =>
    refine hone (e := .activate key) rfl ?_ fun t ht => ?_
    · cases hlive : (s.grains key).live with
      | none => simp [step, GrainSlot.step, hlive]
      | some a =>
        have hdesk : (s.atomic.slots key).desk = some a.desk :=
          congrArg (Option.map Activation.desk) hlive
        simp only [atomicSilo, AtomicSilo.step, hdesk] at hstep
        cases hstep
    · obtain ⟨g, hg, rfl⟩ := activate_eq_some ht
      obtain ⟨-, rfl⟩ := GrainSlot.activate_eq_some hg
      exact settled_update hsettled (fun _ h => by cases h; rfl) rfl
  | answer utcNow call =>
    simp only [atomicSilo, AtomicSilo.step, Option.bind_eq_bind, Option.bind_eq_some_iff] at hstep
    obtain ⟨d, hd, -⟩ := hstep
    obtain ⟨a, ha, -⟩ := exists_live hd
    refine hone (e := .handle utcNow call) rfl (by simp [step, GrainSlot.step, ha]) fun t ht => ?_
    obtain ⟨_, g, -, hg, rfl⟩ := handle_eq_some ht
    obtain ⟨b, hb, rfl⟩ := GrainSlot.request_eq_some hg
    exact settled_update hsettled (fun _ h => by cases h; exact hsettled _ b hb) rfl
  | store key count => exact exists_stored hs hsettled hwhole hstep
  | storeLeft key i count => exact absurd hwhole id
  | close key =>
    simp only [atomicSilo, AtomicSilo.step, Option.bind_eq_bind, Option.bind_eq_some_iff] at hstep
    obtain ⟨d, hd, -⟩ := hstep
    obtain ⟨a, ha, -⟩ := exists_live hd
    refine hone (e := .deactivate key) rfl
      (by simp [step, turn, GrainSlot.step, GrainSlot.committing, commitBatch, ha]) fun t ht => ?_
    obtain ⟨g, _, hg, -, rfl⟩ := turn_eq_some ht
    obtain ⟨_, -, rfl⟩ := GrainSlot.deactivate_eq_some hg
    exact settled_update hsettled (fun _ h => by cases h) rfl
  | change ch =>
    simp only [atomicSilo, AtomicSilo.step, Option.bind_eq_bind, Option.bind_eq_some_iff] at hstep
    obtain ⟨db, hdb, -⟩ := hstep
    refine hone (e := .change ch) rfl ⟨_, by
      rw [step, show ch.apply c s.db = some db from hdb]; rfl⟩ fun t ht => ?_
    obtain ⟨_, -, rfl⟩ := change_eq_some ht
    exact hsettled

/-- **Whole stores are flushes.** Every run of the service without awaits that stores whole lists
only, and nothing of closed desks, is a run of the silo: there are events that lead to the same
tables, desks and answers. -/
theorem run_of_whole {db : SmartLockDb} {ds : List AtomicEvent} {a : AtomicSilo}
    (hwhole : (atomicSilo c).Along AtomicSilo.Whole (AtomicSilo.init db) ds)
    (h : (atomicSilo c).run (AtomicSilo.init db) ds = some a) :
    ∃ es s, (silo c).run (init db) es = some s ∧ s.atomic = a := by
  obtain ⟨es, s, hrun, hs, -⟩ := Machine.run_simulation_along (N := silo c)
    (R := fun a (t : Silo) => t.atomic = a ∧ (∀ key, (t.grains key).Sound) ∧ t.Settled)
    (fun a d a' t ⟨ha, hsound, hsettled⟩ hd hstep => by
      subst ha
      obtain ⟨es, t', hrun, ht', hsettled'⟩ := exists_turns hsound hsettled hd hstep
      refine ⟨es, t', hrun, ht', ?_, hsettled'⟩
      exact Machine.run_invariant (I := fun t : Silo => ∀ key, (t.grains key).Sound)
        (fun _ _ _ ht hstep =>
          forall_grains_step (fun _ _ _ _ _ hI _ hmove => hI.step hmove) ht hstep) hsound hrun)
    (show (init db).atomic = AtomicSilo.init db ∧ _ from
      ⟨rfl, fun _ => GrainSlot.sound_empty, fun _ _ h => by cases h⟩) hwhole h
  exact ⟨es, s, hrun, hs⟩

/-- Two answers, of which one is stored before the desk is closed. -/
theorem run_of_whole_employee :
    let key := DefaultData.entranceLockId
    ∃ a, (atomicSilo .sqlServerDefault).run (AtomicSilo.init DefaultData.seededDb)
        [.load key, .answer 2 (Cluster.employeeCall key), .store key 1,
          .answer 3 (Cluster.employeeCall key), .close key] = some a ∧
      a.db.lockAccesses = [Cluster.employeeRecord] ∧
      ∃ es s, (silo .sqlServerDefault).run (init DefaultData.seededDb) es = some s ∧
        s.atomic = a := by
  intro key
  obtain ⟨a, ha, hrows⟩ : ∃ a, (atomicSilo .sqlServerDefault).run
      (AtomicSilo.init DefaultData.seededDb) [.load key, .answer 2 (Cluster.employeeCall key),
        .store key 1, .answer 3 (Cluster.employeeCall key), .close key] = some a ∧
      a.db.lockAccesses = [Cluster.employeeRecord] :=
    Machine.exists_run_of_any (by decide +kernel)
  exact ⟨a, ha, hrows, run_of_whole (by decide +kernel) ha⟩

end Silo

namespace Cluster

variable {handler : JwtSecurityTokenHandler} {c : Collation} {s : Cluster}

/-- **Nobody notices the awaits.** What every run of the service leaves in its tables and in its
lists, what it has answered, in which order, and what it has told the doors, a run of the service
without awaits leaves, answers and tells as well. -/
theorem run_without_awaits {db : SmartLockDb} {es : List ClusterEvent}
    (h : (cluster handler c).run (init db) es = some s) :
    ∃ ds, (atomicSilo c).run (AtomicSilo.init db) ds = some s.silo.atomic :=
  Silo.run_atomic (fun _ => GrainSlot.sound_empty) (run_silo h)

/-- A call between the tick and the commit, which comes after the deactivation. -/
theorem run_without_awaits_employee :
    let key := DefaultData.entranceLockId
    ∃ s, (cluster unsignedHandler .sqlServerDefault).run (init DefaultData.seededDb)
        [employeePost key, employeePost key, .silo (.activate key),
          .silo (.handle 2 (employeeCall key)), .silo (.timer key .tick),
          .silo (.handle 3 (employeeCall key)), .silo (.deactivate key),
          .silo (.late key 0 .commit)] = some s ∧
      s.silo.db.lockAccesses = [employeeRecord] ∧ s.silo.decisions.length = 2 ∧
      ∃ ds, (atomicSilo .sqlServerDefault).run (AtomicSilo.init DefaultData.seededDb) ds =
        some s.silo.atomic := by
  intro key
  obtain ⟨s, hs, hrows, hlen⟩ : ∃ s, (cluster unsignedHandler .sqlServerDefault).run
      (init DefaultData.seededDb) [employeePost key, employeePost key, .silo (.activate key),
        .silo (.handle 2 (employeeCall key)), .silo (.timer key .tick),
        .silo (.handle 3 (employeeCall key)), .silo (.deactivate key),
        .silo (.late key 0 .commit)] = some s ∧
      s.silo.db.lockAccesses = [employeeRecord] ∧ s.silo.decisions.length = 2 :=
    Machine.exists_run_of_any (by decide +kernel)
  exact ⟨s, hs, hrows, hlen, run_without_awaits hs⟩

end Cluster

end SmartLock
