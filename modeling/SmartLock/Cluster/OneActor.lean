import SmartLock.Cluster.FrontEnd
import SmartLock.Cluster.History
import SmartLock.WebApi.Authentication

/-!
# One grain for one lock

Orleans tells keys apart by their characters, the lock query only up to the collation. The MQTT
path prints the Guid again, so it gives one lock one key; the HTTP path takes the id as it is
spelled in the route. One lock has one grain as long as the posts spell ids as the collation's own
spelling does (`one_grain_per_lock`); `two_spellings` gives one lock two grains.
-/

namespace SmartLock

namespace Cluster

variable {handler : JwtSecurityTokenHandler} {c : Collation} {s s' : Cluster}

/-- A valid post spells the id of the lock in lower case and without trailing blanks: in the
spelling that the collation gives to all its equals. -/
def SpellsCanonically (c : Collation) : ClusterEvent → Prop
  | .post id _ request => modelStateIsValid id request = true → c.spelling id = id
  | _ => True

theorem spelling_of_made {e : ClusterEvent} (he : SpellsCanonically c e) {call : GrainCall}
    (h : made handler e = some call) : c.spelling call.key = call.key := by
  cases e with
  | publish session topic payload =>
    obtain ⟨lockId, -, hkey⟩ := made_publish_eq_some h
    rw [hkey]
    exact c.spelling_toString lockId
  | post id user request =>
    obtain ⟨hvalid, hkey⟩ := made_post_eq_some h
    rw [hkey]
    exact he hvalid
  | connect | inject | sendFault | silo => cases h

/-- Every key that waits for its grain or has activated one is its own spelling. -/
structure Canonical (c : Collation) (s : Cluster) : Prop where
  calls : ∀ call ∈ s.calls, c.spelling call.key = call.key
  activations : ∀ x ∈ s.silo.activations, c.spelling x.1 = x.1

theorem canonical_init (db : SmartLockDb) : Canonical c (init db) where
  calls _ h := by cases h
  activations _ h := by cases h

theorem Canonical.step (hs : Canonical c s) {e : ClusterEvent} (he : SpellsCanonically c e)
    (h : s.step handler c e = some s') : Canonical c s' := by
  constructor
  · intro call hcall
    rw [step_calls h, List.mem_append] at hcall
    rcases hcall with hcall | hcall
    · exact hs.calls call (waiting_subset e hcall)
    · exact spelling_of_made he (Option.mem_toList.mp hcall)
  · intro x hx
    cases hsilo : siloEvent e with
    | none =>
      have hsame := projects_silo s e s' trivial h
      rw [hsilo] at hsame
      rw [show s'.silo = s.silo from hsame] at hx
      exact hs.activations x hx
    | some e' =>
      cases e with
      | silo e =>
        obtain ⟨hready, silo, hstep, rfl⟩ := silo_eq_some h
        rw [show _ = silo.activations from rfl, Silo.step_activations hstep,
          List.mem_append] at hx
        rcases hx with hx | hx
        · exact hs.activations x hx
        · cases e with
          | activate key =>
            -- the grain is activated for a call that waits for it
            obtain ⟨call, hcall, rfl⟩ := hready
            rw [List.mem_singleton.mp hx]
            exact hs.calls call hcall
          | handle | timer | late | deactivate | change => cases hx
      | connect | publish | post | inject | sendFault => cases hsilo

/-- **One grain for one lock.** In a run whose valid posts spell ids canonically, two keys that
load the same row are one key, and so are the keys of any two decisions about one lock. -/
theorem one_grain_per_lock {db : SmartLockDb} {es : List ClusterEvent}
    (hes : ∀ e ∈ es, SpellsCanonically c e) (h : (cluster handler c).run (init db) es = some s) :
    (∀ k₁ k₂ l₁ l₂, (k₁, some l₁) ∈ s.silo.activations → (k₂, some l₂) ∈ s.silo.activations →
      l₁.id = l₂.id → k₁ = k₂) ∧
    ∀ d₁ ∈ s.silo.decisions, ∀ d₂ ∈ s.silo.decisions, ∀ l₁ l₂, d₁.before.lock = some l₁ →
      d₂.before.lock = some l₂ → l₁.id = l₂.id → d₁.key = d₂.key := by
  have hcan : Canonical c s :=
    Machine.run_induction_of_forall (I := Canonical c) (P := SpellsCanonically c)
      (fun _ _ _ hs he hstep => hs.step he hstep) (canonical_init db) hes h
  have hrec : s.silo.Recorded c := Silo.run_recorded (run_silo h)
  have hkeys : ∀ k₁ k₂ l₁ l₂, (k₁, some l₁) ∈ s.silo.activations →
      (k₂, some l₂) ∈ s.silo.activations → l₁.id = l₂.id → k₁ = k₂ := by
    intro k₁ k₂ l₁ l₂ h₁ h₂ hid
    calc k₁ = c.spelling k₁ := (hcan.activations _ h₁).symm
      _ = c.spelling l₁.id := (hrec.spelled k₁ l₁ h₁).symm
      _ = c.spelling l₂.id := by rw [hid]
      _ = c.spelling k₂ := hrec.spelled k₂ l₂ h₂
      _ = k₂ := hcan.activations _ h₂
  refine ⟨hkeys, ?_⟩
  intro d₁ hd₁ d₂ hd₂ l₁ l₂ hl₁ hl₂ hid
  have h₁ := hrec.decided d₁ hd₁
  have h₂ := hrec.decided d₂ hd₂
  rw [hl₁] at h₁
  rw [hl₂] at h₂
  exact hkeys _ _ l₁ l₂ h₁ h₂ hid

theorem one_grain_per_lock_entrance :
    let session : Session := ⟨some DefaultData.entranceLockId, DefaultData.entranceLockId⟩
    ∃ s, (cluster unsignedHandler .sqlServerDefault).run (init DefaultData.seededDb)
        [.connect session, .publish session "requests" unsignedPublish.payload,
          .silo (.activate DefaultData.entranceLockId),
          employeePost DefaultData.entranceLockId] = some s ∧
      s.calls.length = 2 ∧
      ∀ k₁ k₂ l₁ l₂, (k₁, some l₁) ∈ s.silo.activations → (k₂, some l₂) ∈ s.silo.activations →
        l₁.id = l₂.id → k₁ = k₂ := by
  intro session
  obtain ⟨s, hs, hcalls⟩ : ∃ s, (cluster unsignedHandler .sqlServerDefault).run
      (init DefaultData.seededDb)
      [.connect session, .publish session "requests" unsignedPublish.payload,
        .silo (.activate DefaultData.entranceLockId),
        employeePost DefaultData.entranceLockId] = some s ∧
      s.calls.length = 2 :=
    Machine.exists_run_of_any (by decide +kernel)
  refine ⟨s, hs, hcalls, (one_grain_per_lock ?_ hs).1⟩
  simp only [List.mem_cons, List.not_mem_nil, or_false, forall_eq_or_imp, forall_eq,
    SpellsCanonically, employeePost, true_and]
  intro _
  decide +kernel

/-- The id of the entrance lock in upper case, as a post may spell it. -/
def entranceLockIdUpper : String := "1D0579FA-5DC4-4E6A-AEA0-503B417B33CA"

/-- A publish by the entrance lock and a post with its id in upper case load one row under two
keys, and two grains are live for it at once. -/
theorem two_spellings :
    let session : Session := ⟨some DefaultData.entranceLockId, DefaultData.entranceLockId⟩
    ∃ s, (cluster unsignedHandler .sqlServerDefault).run (init DefaultData.seededDb)
        [.connect session, .publish session "requests" unsignedPublish.payload,
          employeePost entranceLockIdUpper,
          .silo (.activate DefaultData.entranceLockId),
          .silo (.activate entranceLockIdUpper)] = some s ∧
      s.silo.activations = [(DefaultData.entranceLockId, some DefaultData.entranceLock),
        (entranceLockIdUpper, some DefaultData.entranceLock)] ∧
      DefaultData.entranceLockId ≠ entranceLockIdUpper ∧
      (s.silo.grains DefaultData.entranceLockId).live.isSome ∧
      (s.silo.grains entranceLockIdUpper).live.isSome :=
  Machine.exists_run_of_any (by decide +kernel)

end Cluster

end SmartLock
