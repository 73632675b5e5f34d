import SmartLock.Cluster.FrontEnd
import SmartLock.Cluster.History
import SmartLock.Grains.Undated
import SmartLock.WebApi.Authentication

/-!
# Isolation between locks

The grain of one key is a component of the service. Its answers and messages are those of a `Door`
that takes only its activations, requests and deactivations (`projects_door`), so they are the same
in any two runs that agree on these. Its lists and batches, up to access times, are those of the
grain alone (`projects_key`), so they are the same in any two runs that agree on its saves too.
-/

namespace SmartLock

/-- What a decision gives to the caller and to the door. -/
def Decision.reply (d : Decision) : AccessRequest × LockAccessResultDto × Option LockMessage :=
  (d.request, d.outcome.result, d.outcome.sent)

/-- The replies of the grain `key`, in order. -/
def repliesOf (ds : List Decision) (key : String) :
    List (AccessRequest × LockAccessResultDto × Option LockMessage) :=
  (ds.filter fun d => d.key = key).map Decision.reply

/-- A lock whose row is `row`, without any buffer: whether it is active, and its replies. -/
structure Door where
  active : Bool
  replies : List (AccessRequest × LockAccessResultDto × Option LockMessage)
  deriving DecidableEq

/-- The reply that the row gives. -/
def Door.reply (row : Option LockEntity) (req : AccessRequest) :
    AccessRequest × LockAccessResultDto × Option LockMessage :=
  let out := (LockGrain.onActivateAsync row).requestAccessAsync 0 req
  (req, out.result, out.sent)

/-- A door takes activations, requests and deactivations. -/
def door (row : Option LockEntity) : Machine Door GrainEvent where
  step d
    | .activate _ => if d.active then none else some { d with active := true }
    | .request _ req =>
      if d.active then some { d with replies := d.replies ++ [Door.reply row req] } else none
    | .deactivate => if d.active then some { d with active := false } else none
    | _ => none

/-- The events that a door takes. -/
def GrainEvent.isDoor : GrainEvent → Bool
  | .activate _ | .request _ _ | .deactivate => true
  | .timer _ | .late _ _ => false

theorem GrainSlot.isSome_live_step {g g' : GrainSlot} {e : GrainEvent} (he : e.isDoor = false)
    (h : g.step e = some g') : g'.live.isSome = g.live.isSome := by
  cases e with
  | activate | request | deactivate => cases he
  | timer t =>
    obtain ⟨a, b, ha, -, rfl⟩ := timer_eq_some h
    rw [ha]
    rfl
  | late i t =>
    obtain ⟨_, _, -, -, -, rfl⟩ := late_eq_some h
    rfl

namespace Silo

/-- The undated event of the grain `key` in an event of the silo, where `row` is what its lock
query returns. -/
def keyEvent (key : String) (row : Option LockEntity) : SiloEvent → Option GrainEvent
  | .activate k => if k = key then some (.activate row) else none
  | .handle _ call => if call.key = key then some (.request 0 call.request) else none
  | .timer k t => if k = key then some (.timer t) else none
  | .late k i t => if k = key then some (.late i t) else none
  | .deactivate k => if k = key then some .deactivate else none
  | .change _ => none

variable {c : Collation} {s s' : Silo} {key : String} {row : Option LockEntity}

/-- The lock query of `key` returns `row`, and so it did at every activation. -/
structure Fixed (c : Collation) (key : String) (row : Option LockEntity) (s : Silo) : Prop where
  recorded : s.Recorded c
  query : s.db.findLock c key = row
  history : ∀ x, (key, x) ∈ s.activations → x = row

theorem fixed_init (db : SmartLockDb) : Fixed c key (db.findLock c key) (init db) where
  recorded := recorded_init db
  query := rfl
  history _ h := by cases h

theorem Fixed.loaded (hs : Fixed c key row s) {a : Activation}
    (ha : (s.grains key).live = some a) : a.grain.lock = row := by
  refine hs.history _ (hs.recorded.loaded key a (List.mem_append_right _ ?_))
  rw [ha]
  exact List.mem_singleton_self a

theorem Fixed.decided {d : Decision} (hs : Fixed c d.key row s) (hd : d ∈ s.decisions) :
    d.before.lock = row := hs.history _ (hs.recorded.decided d hd)

theorem Fixed.step (hs : Fixed c key row s) {e : SiloEvent} (he : e.isChange = false)
    (h : s.step c e = some s') : Fixed c key row s' := by
  refine ⟨hs.recorded.step h, ?_, ?_⟩
  · rw [step_findLock h he, hs.query]
  · intro x hx
    rw [step_activations h, List.mem_append] at hx
    rcases hx with hx | hx
    · exact hs.history x hx
    · cases e with
      | activate k =>
        have hload := List.mem_singleton.mp hx
        injection hload with hkey hfind
        rw [hfind, ← hkey, hs.query]
      | handle | timer | late | deactivate | change => cases hx

theorem run_fixed {db : SmartLockDb} {es : List SiloEvent} (hes : NoChange es)
    (h : (silo c).run (init db) es = some s) : Fixed c key (db.findLock c key) s :=
  Machine.run_induction_of_forall (I := Fixed c key (db.findLock c key))
    (P := fun e : SiloEvent => e.isChange = false) (fun _ _ _ hs he hstep => hs.step he hstep)
    (fixed_init db) hes h

theorem along_fixed {db : SmartLockDb} {es : List SiloEvent} (hes : NoChange es) :
    (silo c).Along (fun s _ => Fixed c key (db.findLock c key) s) (init db) es :=
  Machine.along_of_invariant (I := Fixed c key (db.findLock c key))
    (P := fun _ e => e.isChange = false) (fun _ _ _ hs he hstep => hs.step he hstep)
    (fun _ _ hs => hs) (fixed_init db) (Machine.along_of_forall fun e he _ => hes e he)

/-! ## The grain of one key, up to access times -/

theorem keyEvent_eq (hs : Fixed c key row s) (e : SiloEvent) :
    keyEvent key row e = (grainEvent c s key e).map GrainEvent.undate := by
  cases e with
  | activate k =>
    simp only [keyEvent, grainEvent]
    by_cases hk : k = key
    · rw [if_pos hk, if_pos hk, hk, hs.query]
      rfl
    · rw [if_neg hk, if_neg hk]
      rfl
  | handle utcNow call =>
    simp only [keyEvent, grainEvent]
    by_cases hk : call.key = key <;> simp [hk, GrainEvent.undate]
  | timer k t | late k i t | deactivate k =>
    simp only [keyEvent, grainEvent]
    by_cases hk : k = key <;> simp [hk, GrainEvent.undate]
  | change ch => rfl

/-- Without the access times the grain of a key moves with its own events alone. -/
theorem projects_key : Machine.Projects (silo c) grainSlot (fun s _ => Fixed c key row s)
    (fun s => (s.grains key).undate) (keyEvent key row) := by
  rintro s e s' hs (h : s.step c e = some s')
  rw [keyEvent_eq hs]
  obtain ⟨he, hstay⟩ | ⟨e', he, hmove⟩ := grain_cases h key
  · rw [he]
    exact congrArg GrainSlot.undate hstay
  · rw [he]
    exact GrainSlot.step_undate hmove

/-! ## The door of one key -/

/-- The events that the door of a key takes. -/
def doorEvent (key : String) (row : Option LockEntity) (e : SiloEvent) : Option GrainEvent :=
  (keyEvent key row e).filter GrainEvent.isDoor

/-- The door of a key. -/
def doorOf (key : String) (s : Silo) : Door :=
  ⟨(s.grains key).live.isSome, repliesOf s.decisions key⟩

theorem doorOf_update {k : String} {g : GrainSlot} (hk : k ≠ key)
    (hgrains : s'.grains = Function.update s.grains k g)
    (hdec : repliesOf s'.decisions key = repliesOf s.decisions key) :
    doorOf key s' = doorOf key s := by
  unfold doorOf
  rw [hgrains, hdec, Function.update_of_ne (Ne.symm hk)]

theorem doorOf_turn {k : String} {e : GrainEvent} (he : e.isDoor = false)
    (h : s.turn c k e = some s') : doorOf key s' = doorOf key s := by
  obtain ⟨g, db, hg, -, rfl⟩ := turn_eq_some h
  by_cases hk : k = key
  · subst hk
    simp only [doorOf, Function.update_self, GrainSlot.isSome_live_step he hg]
  · exact doorOf_update hk rfl rfl

/-- **The door of a key moves with its own events alone**, whatever its flushes and the other keys
do. -/
theorem projects_door : Machine.Projects (silo c) (door row) (fun s _ => Fixed c key row s)
    (doorOf key) (doorEvent key row) := by
  rintro s e s' hs (h : s.step c e = some s')
  cases e with
  | activate k =>
    obtain ⟨g, hg, rfl⟩ := activate_eq_some h
    by_cases hk : k = key
    · subst hk
      obtain ⟨hl, rfl⟩ := GrainSlot.activate_eq_some hg
      have hlabel : doorEvent k row (.activate k) = some (.activate row) := by
        simp [doorEvent, keyEvent, GrainEvent.isDoor]
      rw [hlabel]
      simp [doorOf, door, hl]
    · simp only [doorEvent, keyEvent, if_neg hk]
      exact doorOf_update hk rfl rfl
  | handle utcNow call =>
    obtain ⟨a, g, ha, hg, rfl⟩ := handle_eq_some h
    by_cases hk : call.key = key
    · subst hk
      obtain ⟨b, hb, rfl⟩ := GrainSlot.request_eq_some hg
      have hlock : a.grain.lock = row := hs.loaded ha
      -- the reply depends on nothing but the row
      have hreply : Decision.reply ⟨call.key, utcNow, call.request, a.grain⟩ =
          Door.reply row call.request := by
        have hsame : a.grain.lock = (LockGrain.onActivateAsync row).lock := hlock
        obtain ⟨hres, hsent⟩ := LockGrain.requestAccessAsync_congr hsame utcNow 0 call.request
        unfold Decision.reply Decision.outcome Door.reply
        rw [hres, hsent]
      have hlabel : doorEvent call.key row (.handle utcNow call) =
          some (.request 0 call.request) := by
        simp [doorEvent, keyEvent, GrainEvent.isDoor]
      rw [hlabel]
      simp [doorOf, door, ha, repliesOf, hreply]
    · simp only [doorEvent, keyEvent, if_neg hk]
      refine doorOf_update hk rfl ?_
      simp [repliesOf, hk]
  | timer k t | late k i t =>
    have hlabel : ∀ e : GrainEvent, e.isDoor = false →
        (if k = key then some e else none).filter GrainEvent.isDoor = none := by
      intro e he
      split <;> simp [he]
    rw [doorEvent, keyEvent, hlabel _ rfl]
    exact doorOf_turn rfl h
  | deactivate k =>
    obtain ⟨g, db, hg, -, rfl⟩ := turn_eq_some h
    by_cases hk : k = key
    · subst hk
      obtain ⟨a, ha, rfl⟩ := GrainSlot.deactivate_eq_some hg
      have hlabel : doorEvent k row (.deactivate k) = some .deactivate := by
        simp [doorEvent, keyEvent, GrainEvent.isDoor]
      rw [hlabel]
      simp [doorOf, door, ha]
    · simp only [doorEvent, keyEvent, if_neg hk]
      exact doorOf_update hk rfl rfl
  | change ch =>
    obtain ⟨db, -, rfl⟩ := change_eq_some h
    rfl

/-! ## The rows of one lock -/

/-- The committed rows that carry the id `lockId`. -/
def rowsOf (bs : List (String × List LockAccessHistoryEntity)) (lockId : String) :
    List LockAccessHistoryEntity :=
  ((bs.map Prod.snd).flatten).filter fun r => r.lockId = lockId

theorem lock_of_record {d : Decision} {r : LockAccessHistoryEntity} (h : d.record = some r) :
    ∃ l, d.before.lock = some l ∧ r.lockId = l.id := by
  obtain ⟨l, hl, rfl⟩ := Option.map_eq_some_iff.mp h
  exact ⟨l, hl, rfl⟩

/-- If only `key` loads the lock, the rows with its id are the batches of `key`. -/
theorem rowsOf_eq_batchesOf {lockId : String} (hs : s.Recorded c)
    (hkey : ∀ l, (key, some l) ∈ s.activations → l.id = lockId)
    (honly : ∀ k l, (k, some l) ∈ s.activations → l.id = lockId → k = key) :
    rowsOf s.batches lockId = (batchesOf s.batches key).flatten := by
  have hrows : ∀ k b, (k, b) ∈ s.batches → ∀ r ∈ b, (r.lockId = lockId ↔ k = key) := by
    intro k b hb r hr
    obtain ⟨d, hd, rfl, hrec⟩ := hs.of_mem_batch hb hr
    obtain ⟨l, hl, hid⟩ := lock_of_record hrec
    have hload := hs.decided d hd
    rw [hl] at hload
    rw [hid]
    constructor
    · exact honly _ l hload
    · intro hk
      rw [hk] at hload
      exact hkey l hload
  unfold rowsOf batchesOf
  generalize s.batches = bs at hrows
  induction bs with
  | nil => rfl
  | cons x bs ih =>
    obtain ⟨k, b⟩ := x
    rw [List.map_cons, List.flatten_cons, List.filter_append,
      ih fun k b hb => hrows k b (List.mem_cons_of_mem _ hb)]
    have hb := hrows k b List.mem_cons_self
    by_cases hk : k = key
    · rw [List.filter_cons_of_pos (by simpa using hk), List.map_cons, List.flatten_cons,
        List.filter_eq_self.mpr]
      intro r hr
      exact decide_eq_true ((hb r hr).mpr hk)
    · rw [List.filter_cons_of_neg (by simpa using hk), List.filter_eq_nil_iff.mpr, List.nil_append]
      intro r hr hid
      exact hk ((hb r hr).mp (of_decide_eq_true hid))

/-- A record that waits or was saved was left by a decision under its key, of a grain that had
loaded the lock whose id it carries. -/
theorem Recorded.source (hs : s.Recorded c) {r : LockAccessHistoryEntity}
    (hr : r ∈ (s.grains key).buffer ∨ ∃ b, (key, b) ∈ s.batches ∧ r ∈ b) :
    ∃ d ∈ s.decisions, d.key = key ∧ d.record = some r ∧
      ∃ l, d.before.lock = some l ∧ l.id = r.lockId ∧ (key, some l) ∈ s.activations := by
  have hdec : ∃ d ∈ s.decisions, d.key = key ∧ d.record = some r := by
    rcases hr with hr | ⟨b, hb, hr⟩
    · exact hs.of_mem_buffer hr
    · exact hs.of_mem_batch hb hr
  obtain ⟨d, hd, hkey, hrec⟩ := hdec
  obtain ⟨l, hl, hid⟩ := lock_of_record hrec
  have hload := hs.decided d hd
  rw [hl, hkey] at hload
  exact ⟨d, hd, hkey, hrec, l, hl, hid.symm, hload⟩

theorem Recorded.timer_of_buffer (hs : s.Recorded c) {a : Activation}
    (ha : (s.grains key).live = some a) (hne : a.grain.lockAccesses ≠ []) : a.timer = true := by
  have hreach := (hs.sound key).live ha
  obtain ⟨r, hr⟩ := List.exists_mem_of_ne_nil _ hne
  obtain ⟨l, hl, -⟩ := hreach.lock_of_mem_created (hreach.mem_created hr)
  rw [hreach.timer, hl]
  rfl

end Silo

namespace Cluster

open Silo

variable {handler : JwtSecurityTokenHandler} {c : Collation}

/-- **Isolation.** Take two runs of the service from tables in which the lock query of `key` returns
the same row, with no other changes of the tables, that agree on the activations, requests and
deactivations of the grain `key`. Then its answers and messages are the same. If they also agree
on its saves, its list and its batches are the same up to access times, and so are all the rows
with the id of its lock if no other key loads that lock. In every state a record that waits or was
saved was left by a grain that had loaded the lock it names, and only a grain with a timer has
records waiting. -/
theorem isolation {key : String} {db₁ db₂ : SmartLockDb} {es₁ es₂ : List ClusterEvent}
    {s₁ s₂ : Cluster} (hrow : db₁.findLock c key = db₂.findLock c key)
    (hes₁ : NoChange (es₁.filterMap siloEvent)) (hes₂ : NoChange (es₂.filterMap siloEvent))
    (h₁ : (cluster handler c).run (init db₁) es₁ = some s₁)
    (h₂ : (cluster handler c).run (init db₂) es₂ = some s₂)
    (hdoor : (es₁.filterMap siloEvent).filterMap (doorEvent key (db₁.findLock c key)) =
      (es₂.filterMap siloEvent).filterMap (doorEvent key (db₁.findLock c key))) :
    repliesOf s₁.silo.decisions key = repliesOf s₂.silo.decisions key ∧
    ((es₁.filterMap siloEvent).filterMap (keyEvent key (db₁.findLock c key)) =
        (es₂.filterMap siloEvent).filterMap (keyEvent key (db₁.findLock c key)) →
      undatedAll (s₁.silo.grains key).buffer = undatedAll (s₂.silo.grains key).buffer ∧
      (batchesOf s₁.silo.batches key).map undatedAll =
        (batchesOf s₂.silo.batches key).map undatedAll ∧
      ∀ l, db₁.findLock c key = some l →
        (∀ s ∈ [s₁, s₂], ∀ k l', (k, some l') ∈ s.silo.activations → l'.id = l.id → k = key) →
        undatedAll (rowsOf s₁.silo.batches l.id) = undatedAll (rowsOf s₂.silo.batches l.id)) ∧
    (∀ k r, (r ∈ (s₁.silo.grains k).buffer ∨ ∃ b, (k, b) ∈ s₁.silo.batches ∧ r ∈ b) →
      ∃ d ∈ s₁.silo.decisions, d.key = k ∧ d.record = some r ∧
        ∃ l, d.before.lock = some l ∧ l.id = r.lockId ∧ (k, some l) ∈ s₁.silo.activations) ∧
    s₁.silo.db.lockAccesses =
      db₁.lockAccesses ++ (s₁.silo.batches.map Prod.snd).flatten ∧
    ∀ k a, (s₁.silo.grains k).live = some a → a.grain.lockAccesses ≠ [] → a.timer = true := by
  have hrun₁ := run_silo h₁
  have hrun₂ := run_silo h₂
  have hend₁ : Fixed c key (db₁.findLock c key) s₁.silo := run_fixed hes₁ hrun₁
  have hend₂ : Fixed c key (db₂.findLock c key) s₂.silo := run_fixed hes₂ hrun₂
  have hrec₁ := hend₁.recorded
  have hrec₂ := hend₂.recorded
  have hfix₁ : (SmartLock.silo c).Along (fun s _ => Fixed c key (db₁.findLock c key) s) _ _ :=
    along_fixed hes₁
  have hfix₂ : (SmartLock.silo c).Along (fun s _ => Fixed c key (db₂.findLock c key) s) _ _ :=
    along_fixed hes₂
  rw [← hrow] at hfix₂ hend₂
  refine ⟨?_, ?_, fun k r hr => hrec₁.source hr, run_appended hes₁ hrun₁,
    fun k a ha hne => hrec₁.timer_of_buffer ha hne⟩
  · have hview := Machine.view_eq_of_labels_eq projects_door (show doorOf key (Silo.init db₁) =
      doorOf key (Silo.init db₂) from rfl) hfix₁ hfix₂ hdoor hrun₁ hrun₂
    exact congrArg Door.replies hview
  · intro hkey
    have hview := Machine.view_eq_of_labels_eq projects_key
      (show ((Silo.init db₁).grains key).undate = ((Silo.init db₂).grains key).undate from rfl)
      hfix₁ hfix₂ hkey hrun₁ hrun₂
    have hstored : (batchesOf s₁.silo.batches key).map undatedAll =
        (batchesOf s₂.silo.batches key).map undatedAll := by
      rw [← hrec₁.stored, ← hrec₂.stored]
      exact congrArg GrainSlot.stored hview
    refine ⟨?_, hstored, ?_⟩
    · rw [← GrainSlot.buffer_undate, ← GrainSlot.buffer_undate]
      exact congrArg GrainSlot.buffer hview
    · intro l hl honly
      have hrows : ∀ s ∈ [s₁, s₂], Fixed c key (some l) s.silo →
          rowsOf s.silo.batches l.id = (batchesOf s.silo.batches key).flatten := by
        intro s hs hfix
        refine rowsOf_eq_batchesOf hfix.recorded ?_ (honly s hs)
        intro l' hl'
        rw [Option.some.inj (hfix.history _ hl')]
      rw [hl] at hend₁ hend₂
      rw [hrows s₁ (by simp) hend₁, hrows s₂ (by simp) hend₂, ← undatedAll_flatten, hstored,
        undatedAll_flatten]

/-- The employee at the entrance alone, and at another time beside a request at the storage room,
whose grain flushes, and a flush of the entrance that fails. -/
theorem isolation_entrance :
    let key := DefaultData.entranceLockId
    let other := DefaultData.storageLockId
    ∃ s₁ s₂, (cluster unsignedHandler .sqlServerDefault).run (init DefaultData.seededDb)
        [employeePost key, .silo (.activate key), .silo (.handle 1 (employeeCall key))] = some s₁ ∧
      (cluster unsignedHandler .sqlServerDefault).run (init DefaultData.seededDb)
        [employeePost other, employeePost key, .silo (.activate other), .silo (.activate key),
          .silo (.handle 5 (employeeCall other)), .silo (.timer other .tick),
          .silo (.handle 6 (employeeCall key)), .silo (.timer other .commit),
          .silo (.timer key .tick), .silo (.timer key .throw)] = some s₂ ∧
      (repliesOf s₁.silo.decisions key).length = 1 ∧
      repliesOf s₁.silo.decisions key = repliesOf s₂.silo.decisions key := by
  intro key other
  obtain ⟨s₁, h₁, hone⟩ : ∃ s₁, (cluster unsignedHandler .sqlServerDefault).run
      (init DefaultData.seededDb)
      [employeePost key, .silo (.activate key), .silo (.handle 1 (employeeCall key))] = some s₁ ∧
      (repliesOf s₁.silo.decisions key).length = 1 :=
    Machine.exists_run_of_any (by decide +kernel)
  obtain ⟨s₂, h₂, -⟩ : ∃ s₂, (cluster unsignedHandler .sqlServerDefault).run
      (init DefaultData.seededDb)
      [employeePost other, employeePost key, .silo (.activate other), .silo (.activate key),
        .silo (.handle 5 (employeeCall other)), .silo (.timer other .tick),
        .silo (.handle 6 (employeeCall key)), .silo (.timer other .commit),
        .silo (.timer key .tick), .silo (.timer key .throw)] = some s₂ ∧
      s₂.silo.batches.length = 1 :=
    Machine.exists_run_of_any (by decide +kernel)
  exact ⟨s₁, s₂, h₁, h₂, hone,
    (isolation rfl (by decide) (by decide) h₁ h₂ (by decide +kernel)).1⟩

end Cluster

end SmartLock
