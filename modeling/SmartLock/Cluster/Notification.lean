import SmartLock.Cluster.AuditTrail
import SmartLock.Cluster.Outbox

/-!
# What a grant promises

`RequestAccessAsync` starts `SendMessageAsync` and does not await it, so its answer and its record
are there before anything is known about the send. A granted answer and a granted record stand for
one send that was started, and no answer, record or table depends on how a send ends
(`granted_starts_one_send`). `fault_unseen` is a grant that no door has been told.
-/

namespace SmartLock

namespace Cluster

variable {handler : JwtSecurityTokenHandler} {c : Collation} {s : Cluster}

/-- The event is not the end of a send. -/
def notSendEnd (e : ClusterEvent) : Bool := (sendEnd e).isNone

theorem siloEvent_of_sendEnd {e : ClusterEvent} (h : notSendEnd e = false) : siloEvent e = none := by
  cases e with
  | inject | sendFault => rfl
  | connect | publish | post | silo => cases h

theorem filterMap_siloEvent_filter (es : List ClusterEvent) :
    (es.filter notSendEnd).filterMap siloEvent = es.filterMap siloEvent := by
  induction es with
  | nil => rfl
  | cons e es ih =>
    cases he : notSendEnd e with
    | true => rw [List.filter_cons_of_pos he, List.filterMap_cons, List.filterMap_cons, ih]
    | false =>
      rw [List.filter_cons_of_neg (by simp [he]), List.filterMap_cons_none (siloEvent_of_sendEnd he),
        ih]

theorem sent_of_granted {n : ℕ} {d : Decision} (hd : s.silo.decisions[n]? = some d)
    (hgranted : d.outcome.result = ⟨.granted⟩) :
    ∃ l, d.before.lock = some l ∧ s.sent n = some ⟨l.id, ⟨.granted⟩⟩ := by
  cases hl : d.before.lock with
  | none =>
    rw [(Decision.outcome_of_none hl).1] at hgranted
    cases hgranted
  | some l =>
    refine ⟨l, rfl, ?_⟩
    rw [sent, hd, Option.bind_some, Decision.sent_of_lock hl, hgranted]

theorem result_of_record {d : Decision} {r : LockAccessHistoryEntity} (h : d.record = some r) :
    d.outcome.result = ⟨r.accessResult⟩ := by
  cases hl : d.before.lock with
  | none =>
    rw [(Decision.outcome_of_none hl).2] at h
    cases h
  | some l =>
    obtain ⟨r', hr', -, hres, -⟩ := d.before.requestAccessAsync_of_some d.utcNow d.request hl
    obtain rfl : r' = r := Option.some.inj (hr'.symm.trans h)
    rw [hres]
    rfl

/-- **What a grant promises.** In every state of every run a granted answer stands for exactly one
send of the grant on the topic of the lock, which is still on its way or has ended, and a granted
record in a list or a saved batch stands for a granted answer. A run with the same events but other
ends of its sends leaves the same silo: the same answers, records and tables. -/
theorem granted_starts_one_send {db : SmartLockDb} {es : List ClusterEvent}
    (h : (cluster handler c).run (init db) es = some s) :
    (∀ (n : ℕ) (d : Decision), s.silo.decisions[n]? = some d → d.outcome.result = ⟨.granted⟩ →
      ∃ l, d.before.lock = some l ∧ s.sent n = some ⟨l.id, ⟨.granted⟩⟩ ∧
        (s.outbox.map Prod.fst ++ es.filterMap sendEnd).count n = 1) ∧
    (∀ key r, (r ∈ (s.silo.grains key).buffer ∨ ∃ b, (key, b) ∈ s.silo.batches ∧ r ∈ b) →
      r.accessResult = .granted →
      ∃ (n : ℕ) (d : Decision), s.silo.decisions[n]? = some d ∧ d.key = key ∧ d.record = some r ∧
        d.outcome.result = ⟨.granted⟩) ∧
    ∀ es' s', (cluster handler c).run (init db) es' = some s' →
      es'.filter notSendEnd = es.filter notSendEnd → s'.silo = s.silo := by
  have hrec : s.silo.Recorded c := Silo.run_recorded (run_silo h)
  refine ⟨?_, ?_, ?_⟩
  · intro n d hd hgranted
    obtain ⟨l, hl, hsent⟩ := sent_of_granted hd hgranted
    refine ⟨l, hl, hsent, ?_⟩
    rw [(run_sentOnce h).count, hsent]
    rfl
  · intro key r hr hgranted
    obtain ⟨d, hd, hkey, hrecord⟩ : ∃ d ∈ s.silo.decisions, d.key = key ∧ d.record = some r := by
      rcases hr with hr | ⟨b, hb, hr⟩
      · exact hrec.of_mem_buffer hr
      · exact hrec.of_mem_batch hb hr
    obtain ⟨n, hn⟩ := List.mem_iff_getElem?.mp hd
    refine ⟨n, d, hn, hkey, hrecord, ?_⟩
    rw [result_of_record hrecord, hgranted]
  · intro es' s' h' hsame
    have hevents : es'.filterMap siloEvent = es.filterMap siloEvent := by
      rw [← filterMap_siloEvent_filter es', hsame, filterMap_siloEvent_filter]
    have hrun := run_silo h'
    rw [hevents, run_silo h] at hrun
    exact (Option.some.inj hrun).symm

theorem granted_starts_one_send_employee :
    let key := DefaultData.entranceLockId
    let es : List ClusterEvent := [employeePost key, .silo (.activate key),
      .silo (.handle 2 (employeeCall key)), .inject 0]
    ∃ s, (cluster unsignedHandler .sqlServerDefault).run (init DefaultData.seededDb) es = some s ∧
      s.delivered.length = 1 ∧ (s.outbox.map Prod.fst ++ es.filterMap sendEnd).count 0 = 1 := by
  intro key es
  obtain ⟨s, hs, hdelivered, d, hd, hgranted⟩ : ∃ s,
      (cluster unsignedHandler .sqlServerDefault).run (init DefaultData.seededDb) es = some s ∧
      s.delivered.length = 1 ∧
      ∃ d ∈ s.silo.decisions[0]?, d.outcome.result = ⟨.granted⟩ :=
    Machine.exists_run_of_any (by decide +kernel)
  obtain ⟨-, -, -, hcount⟩ := (granted_starts_one_send hs).1 0 d hd hgranted
  exact ⟨s, hs, hdelivered, hcount⟩

/-- The send of the employee's grant faults: the answer is a grant, the record of the grant is
stored, and no message was delivered or is on its way. -/
theorem fault_unseen :
    let key := DefaultData.entranceLockId
    ∃ s, (cluster unsignedHandler .sqlServerDefault).run (init DefaultData.seededDb)
        [employeePost key, .silo (.activate key), .silo (.handle 2 (employeeCall key)),
          .sendFault 0, .silo (.timer key .tick), .silo (.timer key .commit)] = some s ∧
      (s.silo.decisions.map fun d => d.outcome.result) = [⟨.granted⟩] ∧
      s.silo.db.lockAccesses = [employeeRecord] ∧ employeeRecord.accessResult = .granted ∧
      s.delivered = [] ∧ s.outbox = [] :=
  Machine.exists_run_of_any (by decide +kernel)

end Cluster

end SmartLock
