import SmartLock.Cluster.History
import SmartLock.Cluster.Outbox
import SmartLock.WebApi.Authentication

/-!
# Who can say that a door is open

Clients and server share the topics, and neither the connection check nor the interceptor looks at
a topic. So a granted message on the topic of a lock is a decision about that lock, told once
(`granted_messages`), or what some admitted client has published; `forged_grant` is the latter.
-/

namespace SmartLock

namespace Cluster

variable {handler : JwtSecurityTokenHandler} {c : Collation} {s s' : Cluster}

/-- The numbers of the decisions whose messages were delivered. -/
def served (s : Cluster) : List ℕ := s.delivered.filterMap fun x => x.origin.decision?

theorem sent_step {e : ClusterEvent} (h : s.step handler c e = some s') {n : ℕ} {m : LockMessage}
    (hn : s.sent n = some m) : s'.sent n = some m := by
  have hsilo := projects_silo s e s' trivial h
  cases he : siloEvent e with
  | none =>
    rw [he] at hsilo
    rw [sent_of_silo_eq hsilo, hn]
  | some e' =>
    rw [he] at hsilo
    rw [sent_silo hsilo, if_neg, hn]
    rintro rfl
    rw [sent_length] at hn
    cases hn

theorem run_sent {es : List ClusterEvent} (h : (cluster handler c).run s es = some s') {n : ℕ}
    {m : LockMessage} (hn : s.sent n = some m) : s'.sent n = some m :=
  Machine.run_invariant (I := fun s : Cluster => s.sent n = some m)
    (fun _ _ _ hs hstep => sent_step hstep hs) hn h

theorem run_served {db : SmartLockDb} {es : List ClusterEvent}
    (h : (cluster handler c).run (init db) es = some s) : s.served.Sublist (es.filterMap sendEnd) := by
  refine Machine.run_trace (I := fun s ended => s.served.Sublist ended) ?_ (List.Sublist.refl _) h
  rintro s e s' ended hs (hstep : s.step handler c e = some s')
  unfold served at hs ⊢
  rw [step_delivered hstep, List.filterMap_append]
  refine hs.append ?_
  cases e with
  | inject n =>
    simp only [routed, sendEnd, Option.toList_some]
    cases s.pending n with
    | none => exact List.nil_sublist _
    | some m => exact List.Sublist.refl _
  | publish session topic payload => exact List.nil_sublist _
  | connect | post | sendFault | silo => exact List.nil_sublist _

theorem run_delivered {db : SmartLockDb} {es : List ClusterEvent}
    (h : (cluster handler c).run (init db) es = some s) {x : Delivery} (hx : x ∈ s.delivered) :
    (∃ session, x.origin = .client session ∧ .publish session x.topic x.payload ∈ es ∧
      handleValidatingConnectionAsync session.userName = .success) ∨
    ∃ n m, x.origin = .server n ∧ s.sent n = some m ∧ x.topic = m.topic ∧
      x.payload = Utf8.getBytes (serialize m.message) := by
  have hrouted : ∀ s e s', (cluster handler c).step s e = some s' →
      s'.delivered = s.delivered ++ (s.routed e).toList := fun _ _ _ hstep => step_delivered hstep
  obtain hnil | ⟨pre, e, post, m, rfl, hpre, hgain⟩ := Machine.mem_history hrouted h hx
  · cases hnil
  · obtain ⟨m', hm', hrest⟩ := (cluster handler c).run_append_eq_some.mp h
    obtain rfl : m = m' := Option.some.inj (hpre.symm.trans hm')
    cases e with
    | publish session topic payload =>
      injection hgain with hgain
      subst hgain
      exact Or.inl ⟨session, rfl, by simp, (connect_mem_of_publish h).2⟩
    | inject n =>
      obtain ⟨msg, hmsg, rfl⟩ := Option.map_eq_some_iff.mp hgain
      have hsent := (run_sentOnce hpre).outbox _ (mem_outbox_of_pending hmsg)
      exact Or.inr ⟨n, msg, rfl, run_sent hrest hsent, rfl, rfl⟩
    | connect | post | sendFault | silo => cases hgain

/-- **Granted messages.** In every run a delivered message that reads as a grant was published by
an admitted client as it stands, or it stands on the topic of a lock for a granted decision of a
grain that had loaded that lock; distinct messages of the server stand for distinct decisions. -/
theorem granted_messages (decode : List UInt8 → Option LockAccessResultDto)
    (hdecode : ∀ message, decode (Utf8.getBytes (serialize message)) = some message)
    {db : SmartLockDb} {es : List ClusterEvent}
    (h : (cluster handler c).run (init db) es = some s) :
    (∀ x ∈ s.delivered, decode x.payload = some ⟨.granted⟩ →
      (∃ session, x.origin = .client session ∧ .publish session x.topic x.payload ∈ es ∧
        handleValidatingConnectionAsync session.userName = .success) ∨
      ∃ n d l, x.origin = .server n ∧ s.silo.decisions[n]? = some d ∧
        d.outcome.result = ⟨.granted⟩ ∧ d.before.lock = some l ∧ x.topic = l.id ∧
        (d.key, some l) ∈ s.silo.activations) ∧
    s.served.Nodup := by
  refine ⟨?_, ?_⟩
  · intro x hx hgranted
    rcases run_delivered h hx with hclient | ⟨n, m, horigin, hsent, htopic, hpayload⟩
    · exact Or.inl hclient
    · right
      obtain ⟨d, hd, hm⟩ := Option.bind_eq_some_iff.mp hsent
      rw [hpayload, hdecode] at hgranted
      obtain ⟨l, hl, rfl⟩ := Decision.lock_of_sent hm
      refine ⟨n, d, l, horigin, hd, Option.some.inj hgranted, hl, htopic, ?_⟩
      rw [← hl]
      exact (Silo.run_recorded (run_silo h)).decided d (List.mem_of_getElem? hd)
  · exact (run_served h).nodup (List.nodup_append.mp (run_sentOnce h).nodup).2.1

/-! ## Two runs at the entrance -/

/-- A door that understands the two texts of the server. -/
def doorReads (payload : List UInt8) : Option LockAccessResultDto :=
  if payload = Utf8.getBytes (serialize ⟨.granted⟩) then some ⟨.granted⟩
  else if payload = Utf8.getBytes (serialize ⟨.denied⟩) then some ⟨.denied⟩
  else none

theorem doorReads_serialize (message : LockAccessResultDto) :
    doorReads (Utf8.getBytes (serialize message)) = some message := by
  have hother : Utf8.getBytes (serialize ⟨.denied⟩) ≠ Utf8.getBytes (serialize ⟨.granted⟩) :=
    fun h => by cases serialize_inj (Utf8.getBytes_inj h)
  obtain ⟨_ | _⟩ := message
  · exact if_pos rfl
  · rw [doorReads, if_neg hother, if_pos rfl]

theorem granted_messages_entrance :
    let session : Session := ⟨some DefaultData.entranceLockId, DefaultData.entranceLockId⟩
    let key := DefaultData.entranceLockId
    ∃ s, (cluster unsignedHandler .sqlServerDefault).run (init DefaultData.seededDb)
        [.connect session, .publish session "requests" unsignedPublish.payload,
          .silo (.activate key),
          .silo (.handle 1 ⟨key, none, [DefaultData.managerRoleName], none⟩), .inject 0] =
            some s ∧
      (s.delivered.map fun x => doorReads x.payload) = [none, some ⟨.granted⟩] ∧
      s.served.Nodup := by
  intro session key
  obtain ⟨s, hs, hreads⟩ : ∃ s, (cluster unsignedHandler .sqlServerDefault).run
      (init DefaultData.seededDb) [.connect session,
        .publish session "requests" unsignedPublish.payload, .silo (.activate key),
        .silo (.handle 1 ⟨key, none, [DefaultData.managerRoleName], none⟩), .inject 0] = some s ∧
      (s.delivered.map fun x => doorReads x.payload) = [none, some ⟨.granted⟩] :=
    Machine.exists_run_of_any (by decide +kernel)
  exact ⟨s, hs, hreads, (granted_messages doorReads doorReads_serialize hs).2⟩

/-- A client that is admitted under any Guid publishes a grant on the topic of the entrance lock:
it is delivered, and no grain has decided anything. -/
theorem forged_grant :
    let session : Session := ⟨some DefaultData.employeeId, "tag"⟩
    ∃ s, (cluster unsignedHandler .sqlServerDefault).run (init DefaultData.seededDb)
        [.connect session, .publish session DefaultData.entranceLockId
          (Utf8.getBytes (serialize ⟨.granted⟩))] = some s ∧
      (s.delivered.map fun x => (x.topic, doorReads x.payload)) =
        [(DefaultData.entranceLockId, some ⟨.granted⟩)] ∧
      s.silo.decisions = [] :=
  Machine.exists_run_of_any (by decide +kernel)

end Cluster

end SmartLock
