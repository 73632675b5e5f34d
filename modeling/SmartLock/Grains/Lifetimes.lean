import Mathlib.Data.List.Perm.Basic
import SmartLock.Grains.WriteBehind

/-!
# The lifetimes of a grain

The activations of one grain key follow each other: at most one is live, and the next starts with
an empty list. `LockGrain` does not override `OnDeactivateAsync`, so `deactivate` takes the live
activation away as it is, list included. A save that it was awaiting may still end (`late`); its
timer does not fire again.

`Accounted`: as long as every deactivation finds all records saved, the batches stored over all
lifetimes, followed by what the live activation has not saved, are the records ever created.
`Booked` needs no such condition: each record is stored, or some activation has not saved it.
-/

namespace SmartLock

/-- The activations of one key. `stored` is a history variable: the batches committed by all of
them, in the order of the commits. -/
structure GrainSlot where
  live : Option Activation
  ended : List Activation
  stored : List (List LockAccessHistoryEntity)
  deriving DecidableEq, Repr

/-- What can happen to the grain of one key. -/
inductive GrainEvent
  | activate (row : Option LockEntity)
  | request (utcNow : DateTime) (req : AccessRequest)
  | timer (e : TimerEvent)
  | late (i : ℕ) (e : TimerEvent)
  | deactivate
  deriving DecidableEq, Repr

/-- The batch that a turn of the callback commits. -/
def Activation.committing (a : Activation) : TimerEvent → Option (List LockAccessHistoryEntity)
  | .commit =>
    match a.save with
    | .saving _ batch => some batch
    | _ => none
  | _ => none

namespace GrainSlot

/-- No activation yet. -/
def empty : GrainSlot := ⟨none, [], []⟩

/-- The batch that an event commits. -/
def committing (g : GrainSlot) : GrainEvent → Option (List LockAccessHistoryEntity)
  | .timer e => g.live.bind fun a => a.committing e
  | .late i e => g.ended[i]?.bind fun a => a.committing e
  | _ => none

def step (g : GrainSlot) (e : GrainEvent) : Option GrainSlot :=
  match e with
  | .activate row =>
    match g.live with
    | none => some { g with live := some (Activation.start row) }
    | some _ => none
  | .request utcNow req => g.live.map fun a => { g with live := some (a.request utcNow req) }
  | .timer t => do
    let a ← g.live
    let b ← a.timerStep t
    return { g with live := some b, stored := g.stored ++ (g.committing e).toList }
  | .late i t =>
    if t = .tick then none
    else do
      let a ← g.ended[i]?
      let b ← a.timerStep t
      return { g with ended := g.ended.set i b, stored := g.stored ++ (g.committing e).toList }
  | .deactivate => g.live.map fun a => { g with live := none, ended := g.ended ++ [a] }

/-- The activations so far, the live one last. -/
def activations (g : GrainSlot) : List Activation := g.ended ++ g.live.toList

/-- The records created over all lifetimes. -/
def created (g : GrainSlot) : List LockAccessHistoryEntity :=
  g.activations.flatMap Activation.created

/-- The list of the live activation. -/
def buffer (g : GrainSlot) : List LockAccessHistoryEntity :=
  g.live.elim [] fun a => a.grain.lockAccesses

/-- What the live activation has not saved. -/
def unsaved (g : GrainSlot) : List LockAccessHistoryEntity := g.live.elim [] Activation.unsaved

theorem unsaved_subset_buffer (g : GrainSlot) : g.unsaved ⊆ g.buffer := by
  unfold unsaved buffer
  cases g.live with
  | none => exact List.Subset.refl _
  | some a => exact a.unsaved_subset

end GrainSlot

/-- The grain of one key as a machine. -/
def grainSlot : Machine GrainSlot GrainEvent := ⟨GrainSlot.step⟩

/-! ## What an event does -/

namespace GrainSlot

variable {g g' : GrainSlot}

theorem activate_eq_some {row : Option LockEntity} (h : g.step (.activate row) = some g') :
    g.live = none ∧ g' = { g with live := some (Activation.start row) } := by
  unfold step at h
  cases hl : g.live with
  | none => rw [hl] at h; exact ⟨rfl, (Option.some.inj h).symm⟩
  | some a => rw [hl] at h; cases h

theorem request_eq_some {utcNow : DateTime} {req : AccessRequest}
    (h : g.step (.request utcNow req) = some g') :
    ∃ a, g.live = some a ∧ g' = { g with live := some (a.request utcNow req) } := by
  unfold step at h
  obtain ⟨a, ha, rfl⟩ := Option.map_eq_some_iff.mp h
  exact ⟨a, ha, rfl⟩

theorem timer_eq_some {t : TimerEvent} (h : g.step (.timer t) = some g') :
    ∃ a b, g.live = some a ∧ a.timerStep t = some b ∧
      g' = { g with live := some b, stored := g.stored ++ (a.committing t).toList } := by
  unfold step at h
  simp only [Option.bind_eq_bind, Option.pure_def, Option.bind_eq_some_iff] at h
  obtain ⟨a, ha, b, hb, hg⟩ := h
  refine ⟨a, b, ha, hb, ?_⟩
  rw [← Option.some.inj hg, committing, ha, Option.bind_some]

theorem late_eq_some {i : ℕ} {t : TimerEvent} (h : g.step (.late i t) = some g') :
    ∃ a b, g.ended[i]? = some a ∧ t ≠ .tick ∧ a.timerStep t = some b ∧
      g' = { g with ended := g.ended.set i b, stored := g.stored ++ (a.committing t).toList } := by
  unfold step at h
  rw [Option.ite_none_left_eq_some] at h
  obtain ⟨ht, h⟩ := h
  simp only [Option.bind_eq_bind, Option.pure_def, Option.bind_eq_some_iff] at h
  obtain ⟨a, ha, b, hb, hg⟩ := h
  refine ⟨a, b, ha, ht, hb, ?_⟩
  rw [← Option.some.inj hg, committing, ha, Option.bind_some]

theorem deactivate_eq_some (h : g.step .deactivate = some g') :
    ∃ a, g.live = some a ∧ g' = { g with live := none, ended := g.ended ++ [a] } := by
  unfold step at h
  obtain ⟨a, ha, rfl⟩ := Option.map_eq_some_iff.mp h
  exact ⟨a, ha, rfl⟩

theorem stored_eq {e : GrainEvent} (h : g.step e = some g') :
    g'.stored = g.stored ++ (g.committing e).toList := by
  cases e with
  | activate row =>
    obtain ⟨-, rfl⟩ := activate_eq_some h
    exact (List.append_nil _).symm
  | request utcNow req =>
    obtain ⟨a, -, rfl⟩ := request_eq_some h
    exact (List.append_nil _).symm
  | timer t =>
    obtain ⟨a, b, ha, -, rfl⟩ := timer_eq_some h
    rw [committing, ha, Option.bind_some]
  | late i t =>
    obtain ⟨a, b, ha, -, -, rfl⟩ := late_eq_some h
    rw [committing, ha, Option.bind_some]
  | deactivate =>
    obtain ⟨a, -, rfl⟩ := deactivate_eq_some h
    exact (List.append_nil _).symm

/-! ## One of the activations -/

/-- The event by which the callback of the `i`-th activation takes a turn. -/
def callback (g : GrainSlot) (i : ℕ) (t : TimerEvent) : GrainEvent :=
  if i = g.ended.length then .timer t else .late i t

theorem activations_of_lt {i : ℕ} (hi : i < g.ended.length) : g.activations[i]? = g.ended[i]? :=
  List.getElem?_append_left hi

theorem activations_length : g.activations[g.ended.length]? = g.live := by
  unfold activations
  rw [List.getElem?_append_right (Nat.le_refl _), Nat.sub_self]
  cases g.live <;> rfl

theorem activations_eq_some {i : ℕ} {a : Activation} (ha : g.activations[i]? = some a) :
    (i < g.ended.length ∧ g.ended[i]? = some a) ∨ (i = g.ended.length ∧ g.live = some a) := by
  rcases Nat.lt_trichotomy i g.ended.length with hi | rfl | hi
  · rw [activations_of_lt hi] at ha
    exact Or.inl ⟨hi, ha⟩
  · rw [activations_length] at ha
    exact Or.inr ⟨rfl, ha⟩
  · have hlen := (List.getElem?_eq_some_iff.mp ha).1
    have hlive : g.live.toList.length ≤ 1 := Option.length_toList_le
    rw [activations, List.length_append] at hlen
    omega

/-- An activation keeps its place, and goes on as it is, with a request or with a turn of its
callback. -/
theorem activation_step {e : GrainEvent} (h : g.step e = some g') {i : ℕ} {a : Activation}
    (ha : g.activations[i]? = some a) : ∃ b, g'.activations[i]? = some b ∧
      (b = a ∨ (∃ utcNow req, b = a.request utcNow req) ∨
        ∃ t, e = g.callback i t ∧ a.timerStep t = some b ∧ g.committing e = a.committing t) := by
  obtain ⟨hi, hend⟩ | ⟨rfl, hlive⟩ := activations_eq_some ha
  · have hkept : ∀ live stored, (⟨live, g.ended, stored⟩ : GrainSlot).activations[i]? = some a :=
      fun _ _ => (List.getElem?_append_left hi).trans hend
    cases e with
    | activate row =>
      obtain ⟨-, rfl⟩ := activate_eq_some h
      exact ⟨a, hkept _ _, Or.inl rfl⟩
    | request utcNow req =>
      obtain ⟨b, -, rfl⟩ := request_eq_some h
      exact ⟨a, hkept _ _, Or.inl rfl⟩
    | timer t =>
      obtain ⟨b, b', -, -, rfl⟩ := timer_eq_some h
      exact ⟨a, hkept _ _, Or.inl rfl⟩
    | late j t =>
      obtain ⟨b, b', hb, -, hstep, rfl⟩ := late_eq_some h
      rw [activations_of_lt (by rw [List.length_set]; exact hi)]
      by_cases hij : j = i
      · subst hij
        obtain rfl : b = a := Option.some.inj (hb.symm.trans hend)
        refine ⟨b', List.getElem?_set_self hi, Or.inr (Or.inr ⟨t, ?_, hstep, ?_⟩)⟩
        · rw [callback, if_neg (Nat.ne_of_lt hi)]
        · rw [committing, hb, Option.bind_some]
      · exact ⟨a, (List.getElem?_set_ne hij).trans hend, Or.inl rfl⟩
    | deactivate =>
      obtain ⟨b, hb, rfl⟩ := deactivate_eq_some h
      refine ⟨a, ?_, Or.inl rfl⟩
      rw [activations_of_lt (by rw [List.length_append]; omega), List.getElem?_append_left hi, hend]
  · cases e with
    | activate row =>
      obtain ⟨hnone, -⟩ := activate_eq_some h
      rw [hlive] at hnone
      cases hnone
    | request utcNow req =>
      obtain ⟨b, hb, rfl⟩ := request_eq_some h
      obtain rfl : a = b := Option.some.inj (hlive.symm.trans hb)
      exact ⟨_, activations_length, Or.inr (Or.inl ⟨utcNow, req, rfl⟩)⟩
    | timer t =>
      obtain ⟨b, b', hb, hstep, rfl⟩ := timer_eq_some h
      obtain rfl : a = b := Option.some.inj (hlive.symm.trans hb)
      refine ⟨b', activations_length, Or.inr (Or.inr ⟨t, ?_, hstep, ?_⟩)⟩
      · rw [callback, if_pos rfl]
      · rw [committing, hlive, Option.bind_some]
    | late j t =>
      obtain ⟨b, b', -, -, -, rfl⟩ := late_eq_some h
      refine ⟨a, ?_, Or.inl rfl⟩
      rw [← List.length_set, activations_length]
      exact hlive
    | deactivate =>
      obtain ⟨b, hb, rfl⟩ := deactivate_eq_some h
      obtain rfl : a = b := Option.some.inj (hlive.symm.trans hb)
      refine ⟨a, ?_, Or.inl rfl⟩
      rw [activations_of_lt (by rw [List.length_append, List.length_singleton]; omega),
        List.getElem?_concat_length]

theorem callback_step {i : ℕ} {a b : Activation} {t : TimerEvent}
    (ha : g.activations[i]? = some a) (hb : a.timerStep t = some b) (ht : t ≠ .tick) :
    ∃ g', g.step (g.callback i t) = some g' ∧ g'.activations[i]? = some b ∧
      g.committing (g.callback i t) = a.committing t := by
  obtain ⟨hi, hend⟩ | ⟨rfl, hlive⟩ := activations_eq_some ha
  · rw [callback, if_neg (Nat.ne_of_lt hi)]
    refine ⟨{ g with
      ended := g.ended.set i b
      stored := g.stored ++ (g.committing (.late i t)).toList }, ?_, ?_, ?_⟩
    · simp only [step, if_neg ht, hend, hb, Option.bind_eq_bind, Option.bind_some, Option.pure_def]
    · rw [activations_of_lt (by rw [List.length_set]; exact hi), List.getElem?_set_self hi]
    · rw [committing, hend, Option.bind_some]
  · rw [callback, if_pos rfl]
    refine ⟨{ g with
      live := some b
      stored := g.stored ++ (g.committing (.timer t)).toList }, ?_, activations_length, ?_⟩
    · simp only [step, hlive, hb, Option.bind_eq_bind, Option.bind_some, Option.pure_def]
    · rw [committing, hlive, Option.bind_some]

end GrainSlot

/-! ## Every activation is a run of its own -/

namespace Activation

variable {a b : Activation}

/-- `a` is reached from the activation of some row. -/
def Reachable (a : Activation) : Prop := ∃ row es, activation.run (start row) es = some a

theorem reachable_start (row : Option LockEntity) : (start row).Reachable := ⟨row, [], rfl⟩

theorem Reachable.step (h : a.Reachable) {e : ActivationEvent} (hstep : a.step e = some b) :
    b.Reachable := by
  obtain ⟨row, es, hrun⟩ := h
  refine ⟨row, es ++ [e], ?_⟩
  rw [activation.run_append_eq_some]
  exact ⟨a, hrun, by rw [activation.run_singleton]; exact hstep⟩

theorem Reachable.request (h : a.Reachable) (utcNow : DateTime) (req : AccessRequest) :
    (a.request utcNow req).Reachable :=
  h.step (e := .request utcNow req) rfl

theorem Reachable.timerStep (h : a.Reachable) {t : TimerEvent} (hstep : a.timerStep t = some b) :
    b.Reachable :=
  h.step (e := .timer t) hstep

theorem Reachable.fits (h : a.Reachable) : a.Fits := by
  obtain ⟨row, es, hrun⟩ := h
  exact run_fits hrun

/-- The ledger, for every row: what is committed followed by what is unsaved was created. -/
theorem Reachable.ledger (h : a.Reachable) : a.committed.flatten ++ a.unsaved = a.created := by
  obtain ⟨row, es, hrun⟩ := h
  obtain ⟨_, l, -, hl⟩ := run_ledger hrun
  rw [← hl.stored, ← hl.waiting, l.split, hl.log]

theorem timerStep_committed {t : TimerEvent} (h : a.timerStep t = some b) :
    b.committed = a.committed ++ (a.committing t).toList := by
  cases t with
  | tick =>
    obtain ⟨-, -, ⟨-, rfl⟩ | ⟨-, rfl⟩⟩ := tick_eq_some h <;> exact (List.append_nil _).symm
  | commit =>
    obtain ⟨count, batch, hs, rfl⟩ := commit_eq_some h
    unfold committing
    rw [hs]
    rfl
  | throw =>
    obtain ⟨_, _, -, rfl⟩ := throw_eq_some h
    exact (List.append_nil _).symm
  | resume =>
    obtain ⟨_, -, ⟨-, rfl⟩ | ⟨-, rfl⟩⟩ := resume_eq_some h <;> exact (List.append_nil _).symm

theorem Reachable.unsaved_request (h : a.Reachable) (utcNow : DateTime) (req : AccessRequest) :
    (a.request utcNow req).unsaved = a.unsaved ++ (a.grain.record utcNow req).toList := by
  have hledger := (h.request utcNow req).ledger
  have hcom : (a.request utcNow req).committed = a.committed := rfl
  rw [hcom, request_created, ← h.ledger, List.append_assoc] at hledger
  exact List.append_cancel_left hledger

theorem Reachable.unsaved_timerStep (h : a.Reachable) {t : TimerEvent}
    (hstep : a.timerStep t = some b) :
    a.unsaved = (a.committing t).toList.flatten ++ b.unsaved := by
  have hledger := (h.timerStep hstep).ledger
  rw [timerStep_committed hstep, timerStep_created hstep, ← h.ledger, List.flatten_append,
    List.append_assoc] at hledger
  exact (List.append_cancel_left hledger).symm

theorem Reachable.mem_created (h : a.Reachable) {r : LockAccessHistoryEntity}
    (hr : r ∈ a.grain.lockAccesses) : r ∈ a.created := by
  have hfits := h.fits
  rw [← h.ledger, List.mem_append]
  unfold Fits at hfits
  unfold unsaved
  cases hs : a.save with
  | idle => exact Or.inr hr
  | saving count batch => exact Or.inr hr
  | saved count =>
    rw [hs] at hfits
    rw [← List.take_append_drop count a.grain.lockAccesses, List.mem_append] at hr
    rcases hr with hr | hr
    · exact Or.inl (List.mem_flatten.mpr ⟨_, List.mem_of_getLast? hfits.2.2, hr⟩)
    · exact Or.inr hr

theorem Reachable.timer (h : a.Reachable) : a.timer = a.grain.lock.isSome := by
  obtain ⟨row, es, hrun⟩ := h
  refine Machine.run_invariant (I := fun a : Activation => a.timer = a.grain.lock.isSome) ?_ rfl
    hrun
  rintro s (⟨utcNow, req⟩ | t) s' hs hstep
  · cases hstep
    rw [request_lock]
    exact hs
  · rw [timerStep_lock hstep, ← hs]
    cases t with
    | tick => obtain ⟨-, -, ⟨-, rfl⟩ | ⟨-, rfl⟩⟩ := tick_eq_some hstep <;> rfl
    | commit => obtain ⟨_, _, -, rfl⟩ := commit_eq_some hstep; rfl
    | throw => obtain ⟨_, _, -, rfl⟩ := throw_eq_some hstep; rfl
    | resume => obtain ⟨_, -, ⟨-, rfl⟩ | ⟨-, rfl⟩⟩ := resume_eq_some hstep <;> rfl

/-- A record carries the id of the lock that its activation loaded. -/
theorem Reachable.lock_of_mem_created (h : a.Reachable) {r : LockAccessHistoryEntity}
    (hr : r ∈ a.created) : ∃ l, a.grain.lock = some l ∧ r.lockId = l.id := by
  obtain ⟨row, es, hrun⟩ := h
  refine Machine.run_invariant (I := fun a : Activation => ∀ r ∈ a.created, ∃ l,
    a.grain.lock = some l ∧ r.lockId = l.id) ?_ (fun r hr => by cases hr) hrun r hr
  rintro s (⟨utcNow, req⟩ | t) s' hs hstep r hr
  · cases hstep
    rw [request_created, List.mem_append] at hr
    rw [request_lock]
    rcases hr with hr | hr
    · exact hs r hr
    · cases hl : s.grain.lock with
      | none =>
        unfold LockGrain.record at hr
        rw [hl] at hr
        cases hr
      | some l =>
        rw [s.grain.record_of_some _ _ hl, Option.toList_some, List.mem_singleton] at hr
        exact ⟨l, rfl, by rw [hr]; rfl⟩
  · rw [timerStep_created hstep] at hr
    rw [timerStep_lock hstep]
    exact hs r hr

end Activation

/-! ## Over the lifetimes -/

namespace GrainSlot

variable {g g' : GrainSlot}

/-- Every activation of the key, live or ended, is reached from its own start. -/
def Sound (g : GrainSlot) : Prop := ∀ a ∈ g.activations, a.Reachable

theorem sound_empty : empty.Sound := fun _ h => by cases h

theorem Sound.live (h : g.Sound) {a : Activation} (ha : g.live = some a) : a.Reachable :=
  h a (List.mem_append_right _ (by rw [ha]; exact List.mem_singleton_self a))

theorem Sound.ended (h : g.Sound) {a : Activation} (ha : a ∈ g.ended) : a.Reachable :=
  h a (List.mem_append_left _ ha)

theorem sound_of (hlive : ∀ a, g.live = some a → a.Reachable)
    (hended : ∀ a ∈ g.ended, a.Reachable) : g.Sound := by
  intro a ha
  rcases List.mem_append.mp ha with ha | ha
  · exact hended a ha
  · exact hlive a (Option.mem_toList.mp ha)

theorem Sound.step (h : g.Sound) {e : GrainEvent} (hstep : g.step e = some g') : g'.Sound := by
  cases e with
  | activate row =>
    obtain ⟨-, rfl⟩ := activate_eq_some hstep
    refine sound_of ?_ fun a ha => h.ended ha
    rintro a ⟨⟩
    exact Activation.reachable_start row
  | request utcNow req =>
    obtain ⟨a, ha, rfl⟩ := request_eq_some hstep
    refine sound_of ?_ fun a ha => h.ended ha
    rintro b ⟨⟩
    exact (h.live ha).request utcNow req
  | timer t =>
    obtain ⟨a, b, ha, hb, rfl⟩ := timer_eq_some hstep
    refine sound_of ?_ fun a ha => h.ended ha
    rintro b' ⟨⟩
    exact (h.live ha).timerStep hb
  | late i t =>
    obtain ⟨a, b, ha, -, hb, rfl⟩ := late_eq_some hstep
    refine sound_of (fun a ha => h.live ha) ?_
    intro a' ha'
    rcases List.mem_or_eq_of_mem_set ha' with ha' | rfl
    · exact h.ended ha'
    · exact (h.ended (List.mem_of_getElem? ha)).timerStep hb
  | deactivate =>
    obtain ⟨a, ha, rfl⟩ := deactivate_eq_some hstep
    refine sound_of (fun b hb => by cases hb) ?_
    intro b hb
    rcases List.mem_append.mp hb with hb | hb
    · exact h.ended hb
    · rw [List.mem_singleton.mp hb]
      exact h.live ha

/-- The record that an event creates. -/
def creating (g : GrainSlot) : GrainEvent → Option LockAccessHistoryEntity
  | .request utcNow req => g.live.bind fun a => a.grain.record utcNow req
  | _ => none

theorem created_set {as : List Activation} {i : ℕ} {a b : Activation} (ha : as[i]? = some a)
    (hb : b.created = a.created) :
    (as.set i b).flatMap Activation.created = as.flatMap Activation.created := by
  obtain ⟨hi, rfl⟩ := List.getElem?_eq_some_iff.mp ha
  rw [List.flatMap_def, List.flatMap_def, List.map_set, hb]
  have hi' : i < (as.map Activation.created).length := by rw [List.length_map]; exact hi
  have hself := List.set_getElem_self hi'
  rw [List.getElem_map] at hself
  rw [hself]

/-- Only a request creates a record, and it goes behind all the others. -/
theorem created_eq {e : GrainEvent} (h : g.step e = some g') :
    g'.created = g.created ++ (g.creating e).toList := by
  unfold created activations
  cases e with
  | activate row =>
    obtain ⟨hl, rfl⟩ := activate_eq_some h
    rw [hl, List.flatMap_append, List.flatMap_append]
    exact (List.append_nil _).symm
  | request utcNow req =>
    obtain ⟨a, ha, rfl⟩ := request_eq_some h
    simp only [creating, ha, Option.bind_some, Option.toList_some, List.flatMap_append,
      List.flatMap_singleton, Activation.request_created, List.append_assoc]
  | timer t =>
    obtain ⟨a, b, ha, hb, rfl⟩ := timer_eq_some h
    simp only [creating, ha, Option.toList_some, Option.toList_none, List.append_nil,
      List.flatMap_append, List.flatMap_singleton, Activation.timerStep_created hb]
  | late i t =>
    obtain ⟨a, b, ha, -, hb, rfl⟩ := late_eq_some h
    rw [List.flatMap_append, List.flatMap_append,
      created_set ha (Activation.timerStep_created hb)]
    exact (List.append_nil _).symm
  | deactivate =>
    obtain ⟨a, ha, rfl⟩ := deactivate_eq_some h
    simp only [creating, ha, Option.toList_some, Option.toList_none, List.append_nil]

theorem Sound.mem_created (h : g.Sound) {e : GrainEvent} (hstep : g.step e = some g')
    {batch : List LockAccessHistoryEntity} (hb : g.committing e = some batch)
    {r : LockAccessHistoryEntity} (hr : r ∈ batch) : r ∈ g.created := by
  have hmem : ∀ {a b : Activation} {t : TimerEvent}, a ∈ g.activations →
      a.timerStep t = some b → a.committing t = some batch → r ∈ g.created := by
    intro a b t ha hab hcom
    have hsplit := (h a ha).unsaved_timerStep hab
    rw [hcom, Option.toList_some, List.flatten_singleton] at hsplit
    have hunsaved : r ∈ a.unsaved := by
      rw [hsplit]
      exact List.mem_append_left _ hr
    exact List.mem_flatMap.mpr ⟨a, ha, (h a ha).mem_created (a.unsaved_subset hunsaved)⟩
  cases e with
  | timer t =>
    obtain ⟨a, b, ha, hab, -⟩ := timer_eq_some hstep
    rw [committing, ha, Option.bind_some] at hb
    exact hmem (List.mem_append_right _ (by simp [ha])) hab hb
  | late i t =>
    obtain ⟨a, b, ha, -, hab, -⟩ := late_eq_some hstep
    rw [committing, ha, Option.bind_some] at hb
    exact hmem (List.mem_append_left _ (List.mem_of_getElem? ha)) hab hb
  | activate | request | deactivate => cases hb

/-- Nothing is lost so far: ended activations have saved all they created, and the stored batches
followed by the unsaved records of the live activation are the records ever created. -/
structure Accounted (g : GrainSlot) : Prop where
  sound : g.Sound
  ended : ∀ a ∈ g.ended, a.unsaved = []
  ledger : g.stored.flatten ++ g.unsaved = g.created

theorem accounted_empty : empty.Accounted where
  sound := sound_empty
  ended := fun _ h => by cases h
  ledger := rfl

/-- Every event keeps the account, if a deactivation finds everything saved. -/
theorem Accounted.step (h : g.Accounted) {e : GrainEvent} (hd : e = .deactivate → g.unsaved = [])
    (hstep : g.step e = some g') : g'.Accounted := by
  have hsound := h.sound.step hstep
  have hcreated := created_eq hstep
  have hstored := stored_eq hstep
  cases e with
  | activate row =>
    obtain ⟨hl, rfl⟩ := activate_eq_some hstep
    refine ⟨hsound, h.ended, ?_⟩
    have hledger := h.ledger
    rw [unsaved, hl] at hledger
    rw [hcreated, ← hledger]
    exact (List.append_nil _).symm
  | request utcNow req =>
    obtain ⟨a, ha, rfl⟩ := request_eq_some hstep
    refine ⟨hsound, h.ended, ?_⟩
    have hledger := h.ledger
    rw [unsaved, ha] at hledger
    rw [hcreated, ← hledger, creating, ha]
    show g.stored.flatten ++ (a.request utcNow req).unsaved = _
    rw [(h.sound.live ha).unsaved_request, List.append_assoc]
    rfl
  | timer t =>
    obtain ⟨a, b, ha, hb, rfl⟩ := timer_eq_some hstep
    refine ⟨hsound, h.ended, ?_⟩
    have hledger := h.ledger
    rw [unsaved, ha] at hledger
    rw [hcreated, ← hledger]
    show (g.stored ++ (a.committing t).toList).flatten ++ b.unsaved =
      g.stored.flatten ++ a.unsaved ++ []
    rw [(h.sound.live ha).unsaved_timerStep hb, List.flatten_append, List.append_nil,
      List.append_assoc]
  | late i t =>
    obtain ⟨a, b, ha, -, hb, rfl⟩ := late_eq_some hstep
    have hmem := List.mem_of_getElem? ha
    -- an ended activation has nothing left to commit
    have hsplit := (h.sound.ended hmem).unsaved_timerStep hb
    rw [h.ended a hmem] at hsplit
    obtain ⟨hnone, hunsaved⟩ := List.append_eq_nil_iff.mp hsplit.symm
    refine ⟨hsound, ?_, ?_⟩
    · intro a' ha'
      rcases List.mem_or_eq_of_mem_set ha' with ha' | rfl
      · exact h.ended a' ha'
      · exact hunsaved
    · rw [hcreated, ← h.ledger]
      show (g.stored ++ (a.committing t).toList).flatten ++ g.unsaved = _
      rw [List.flatten_append, hnone, List.append_nil]
      exact (List.append_nil _).symm
  | deactivate =>
    obtain ⟨a, ha, rfl⟩ := deactivate_eq_some hstep
    have hnil := hd rfl
    have hledger := h.ledger
    rw [hnil, List.append_nil] at hledger
    rw [unsaved, ha] at hnil
    refine ⟨hsound, ?_, ?_⟩
    · intro b hb
      rcases List.mem_append.mp hb with hb | hb
      · exact h.ended b hb
      · rw [List.mem_singleton.mp hb]
        exact hnil
    · rw [hcreated, ← hledger]
      rfl

/-! ## The books over all lifetimes -/

/-- What the activations have not saved, each at its end if it has ended. -/
def outstanding (g : GrainSlot) : List LockAccessHistoryEntity :=
  g.activations.flatMap Activation.unsaved

/-- The stored batches are those that the activations committed. -/
def Booked (g : GrainSlot) : Prop := g.stored.Perm (g.activations.flatMap Activation.committed)

theorem booked_empty : empty.Booked := List.Perm.refl _

theorem committed_set {as : List Activation} {i : ℕ} {a b : Activation} (ha : as[i]? = some a)
    {batch : List (List LockAccessHistoryEntity)} (hb : b.committed = a.committed ++ batch) :
    ((as.set i b).flatMap Activation.committed).Perm
      (as.flatMap Activation.committed ++ batch) := by
  induction as generalizing i with
  | nil => cases ha
  | cons a' as ih =>
    cases i with
    | zero =>
      obtain rfl : a' = a := Option.some.inj ha
      rw [List.set_cons_zero, List.flatMap_cons, List.flatMap_cons, hb, List.append_assoc,
        List.append_assoc]
      exact List.perm_append_comm.append_left _
    | succ i =>
      rw [List.set_cons_succ, List.flatMap_cons, List.flatMap_cons, List.append_assoc]
      exact (ih ha).append_left _

theorem Booked.step (h : g.Booked) {e : GrainEvent} (hstep : g.step e = some g') : g'.Booked := by
  unfold Booked activations at h ⊢
  cases e with
  | activate row =>
    obtain ⟨hl, rfl⟩ := activate_eq_some hstep
    rw [hl, List.flatMap_append] at h
    rw [List.flatMap_append]
    exact h
  | request utcNow req =>
    obtain ⟨a, ha, rfl⟩ := request_eq_some hstep
    rw [ha, List.flatMap_append] at h
    rw [List.flatMap_append]
    exact h
  | timer t =>
    obtain ⟨a, b, ha, hb, rfl⟩ := timer_eq_some hstep
    rw [ha, List.flatMap_append, Option.toList_some, List.flatMap_singleton] at h
    rw [List.flatMap_append, Option.toList_some, List.flatMap_singleton,
      Activation.timerStep_committed hb, ← List.append_assoc]
    exact h.append_right _
  | late i t =>
    obtain ⟨a, b, ha, -, hb, rfl⟩ := late_eq_some hstep
    rw [List.flatMap_append] at h ⊢
    have hset := committed_set ha (Activation.timerStep_committed hb)
    refine (h.append_right _).trans ?_
    rw [List.append_assoc]
    refine (List.perm_append_comm.append_left _).trans ?_
    rw [← List.append_assoc]
    exact hset.symm.append_right _
  | deactivate =>
    obtain ⟨a, ha, rfl⟩ := deactivate_eq_some hstep
    rw [ha] at h
    rw [Option.toList_none, List.append_nil]
    exact h

/-- **The books.** Every record created is in a stored batch or was left unsaved by the activation
that created it, and each only once. -/
theorem Booked.created (h : g.Booked) (hs : g.Sound) :
    g.created.Perm (g.stored.flatten ++ g.outstanding) := by
  have hledger : g.created = g.activations.flatMap fun a => a.committed.flatten ++ a.unsaved := by
    unfold GrainSlot.created
    rw [List.flatMap_def, List.flatMap_def]
    exact congrArg List.flatten (List.map_congr_left fun a ha => (hs a ha).ledger.symm)
  have hcommitted : (g.activations.flatMap fun a => a.committed.flatten) =
      (g.activations.flatMap Activation.committed).flatten := by
    simp only [List.flatten_eq_flatMap, List.flatMap_assoc]
  rw [hledger]
  refine (List.flatMap_append_perm _ _ _).symm.trans ?_
  rw [hcommitted]
  exact h.symm.flatten.append_right _

end GrainSlot

end SmartLock
