import SmartLock.Cluster.Conservation

/-!
# The lock that a session acts for

The connection check looks at the user name of a session, the publish handler at its client id. A
publish acts for the lock that its session was admitted as exactly when the two spell one Guid
(`acts_for_its_lock`); `acts_for_other_lock` is a session where they do not.
-/

namespace SmartLock

/-- The Guid that the connection check reads in a session's user name. -/
def Session.admittedAs (session : Session) : Option Guid := session.userName.bind Guid.tryParse

namespace Cluster

variable {handler : JwtSecurityTokenHandler} {c : Collation} {s : Cluster}

/-- **The lock of a session.** In a run every call made by a publish comes from a session that had
connected before and was admitted under the Guid of the grain's key, if and only if every session
that publishes a readable token under a Guid spells the same Guid in its user name. -/
theorem acts_for_its_lock {db : SmartLockDb} {es : List ClusterEvent}
    (h : (cluster handler c).run (init db) es = some s) :
    (∀ pre session topic payload post call, es = pre ++ .publish session topic payload :: post →
      made handler (.publish session topic payload) = some call →
      .connect session ∈ pre ∧ handleValidatingConnectionAsync session.userName = .success ∧
        ∃ lockId, session.admittedAs = some lockId ∧ call.key = lockId.toString) ↔
    ∀ session topic payload, .publish session topic payload ∈ es →
      goodPublish handler (.publish session topic payload) = true →
      session.admittedAs = Guid.tryParse session.clientId := by
  constructor
  · intro hacts session topic payload hmem hgood
    obtain ⟨pre, post, hes⟩ := List.append_of_mem hmem
    rw [← made_publish_isSome] at hgood
    obtain ⟨call, hcall⟩ := Option.isSome_iff_exists.mp hgood
    obtain ⟨lockId, hid, hkey⟩ := made_publish_eq_some hcall
    obtain ⟨-, -, lockId', hadm, hkey'⟩ := hacts pre session topic payload post call hes hcall
    have hsame : lockId' = lockId := Guid.toString_injective (hkey'.symm.trans hkey)
    rw [hadm, hid, hsame]
  · rintro hsame pre session topic payload post call rfl hcall
    obtain ⟨hconnect, hsuccess⟩ := connect_mem_of_publish h
    obtain ⟨lockId, hid, hkey⟩ := made_publish_eq_some hcall
    have hgood : goodPublish handler (.publish session topic payload) = true := by
      rw [← made_publish_isSome, hcall, Option.isSome_some]
    have hadm := hsame session topic payload (by simp) hgood
    exact ⟨hconnect, hsuccess, lockId, hadm.trans hid, hkey⟩

theorem acts_for_its_lock_entrance :
    let session : Session :=
      ⟨some "{1D0579FA-5DC4-4E6A-AEA0-503B417B33CA}", DefaultData.entranceLockId⟩
    ∃ s, (cluster unsignedHandler .sqlServerDefault).run (init DefaultData.seededDb)
        [.connect session, .publish session "requests" unsignedPublish.payload] = some s ∧
      s.calls.length = 1 ∧
      ∃ lockId, session.admittedAs = some lockId ∧
        ∀ call ∈ made unsignedHandler (.publish session "requests" unsignedPublish.payload),
          call.key = lockId.toString := by
  intro session
  obtain ⟨s, hs, hcalls⟩ : ∃ s, (cluster unsignedHandler .sqlServerDefault).run
      (init DefaultData.seededDb)
      [.connect session, .publish session "requests" unsignedPublish.payload] = some s ∧
      s.calls.length = 1 :=
    Machine.exists_run_of_any (by decide +kernel)
  have hsame : session.admittedAs = Guid.tryParse session.clientId := by decide +kernel
  have hacts := (acts_for_its_lock hs).mpr (by
    intro session' topic payload hmem _
    simp only [List.mem_cons, List.not_mem_nil, or_false, reduceCtorEq, false_or,
      ClusterEvent.publish.injEq] at hmem
    rw [hmem.1]
    exact hsame)
  obtain ⟨call, hcall⟩ : ∃ call, made unsignedHandler
      (.publish session "requests" unsignedPublish.payload) = some call :=
    ⟨⟨DefaultData.entranceLockId, none, [DefaultData.managerRoleName], none⟩, by decide +kernel⟩
  obtain ⟨-, -, lockId, hadm, hkey⟩ :=
    hacts [.connect session] session "requests" unsignedPublish.payload [] call rfl hcall
  refine ⟨s, hs, hcalls, lockId, hadm, ?_⟩
  intro call' hcall'
  rw [← Option.some.inj (hcall.symm.trans hcall')]
  exact hkey

/-- A session that is admitted under the storage room's id and publishes for the entrance. -/
theorem acts_for_other_lock :
    let session : Session := ⟨some DefaultData.storageLockId, DefaultData.entranceLockId⟩
    ∃ s, (cluster unsignedHandler .sqlServerDefault).run (init DefaultData.seededDb)
        [.connect session, .publish session "requests" unsignedPublish.payload,
          .silo (.activate DefaultData.entranceLockId),
          .silo (.handle 1 ⟨DefaultData.entranceLockId, none, [DefaultData.managerRoleName],
            none⟩)] = some s ∧
      s.sessions = [session] ∧
      (session.admittedAs.map fun g => g.toString) = some DefaultData.storageLockId ∧
      (s.silo.decisions.map fun d => (d.key, d.outcome.result)) =
        [(DefaultData.entranceLockId, ⟨.granted⟩)] :=
  Machine.exists_run_of_any (by decide +kernel)

end Cluster

end SmartLock
