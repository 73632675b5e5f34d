import SmartLock.Cluster.History
import SmartLock.Cluster.Outbox
import SmartLock.WebApi.Authentication

/-!
# Conservation of requests, answers, records and notifications

Every call comes from one valid post or one good publish, and is handled once (`run_asked`); no
message of the server makes a call. A decision with a lock leaves one record, starts one send and
gives one answer, all with the same result; a decision without a lock denies and leaves nothing.
-/

namespace SmartLock

namespace Cluster

variable {handler : JwtSecurityTokenHandler} {c : Collation} {s s' : Cluster}

/-- The calls ever made: those handled and those that wait. -/
def asked (s : Cluster) : List GrainCall := s.silo.decisions.map Decision.call ++ s.calls

theorem step_asked {e : ClusterEvent} (h : s.step handler c e = some s') :
    s'.asked.Perm (s.asked ++ (made handler e).toList) := by
  unfold asked
  have hcalls := step_calls h
  have hsame : s'.silo = s.silo → s.waiting e = s.calls →
      (s'.silo.decisions.map Decision.call ++ s'.calls).Perm
        (s.silo.decisions.map Decision.call ++ s.calls ++ (made handler e).toList) := by
    intro hsilo hwaiting
    rw [hcalls, hsilo, hwaiting, List.append_assoc]
  cases e with
  | connect session =>
    obtain ⟨-, rfl⟩ | rfl := connect_eq_some h <;> exact hsame rfl rfl
  | publish session topic payload =>
    obtain ⟨-, rfl⟩ := publish_eq_some h
    exact hsame rfl rfl
  | post id user request =>
    obtain rfl := post_eq_some h
    exact hsame rfl rfl
  | inject n =>
    obtain ⟨m, -, rfl⟩ := inject_eq_some h
    exact hsame rfl rfl
  | sendFault n =>
    obtain ⟨m, -, rfl⟩ := sendFault_eq_some h
    exact hsame rfl rfl
  | silo e =>
    obtain ⟨hready, silo, hsilo, rfl⟩ := silo_eq_some h
    rw [hcalls, show made handler (.silo e) = none from rfl, Option.toList_none, List.append_nil,
      List.append_nil, Silo.step_decisions hsilo, List.map_append]
    cases e with
    | handle utcNow call =>
      obtain ⟨a, g, ha, -, -⟩ := Silo.handle_eq_some hsilo
      have hone : (s.silo.decided (.handle utcNow call)).toList.map Decision.call = [call] := by
        simp [Silo.decided, ha, Decision.call]
      rw [hone, List.append_assoc]
      exact (List.perm_cons_erase hready).symm.append_left _
    | activate | timer | late | deactivate | change =>
      rw [show (Silo.decided _ _).toList = [] from rfl, List.map_nil, List.append_nil]
      exact List.Perm.refl _

/-- **No call is lost, doubled or invented.** -/
theorem run_asked {db : SmartLockDb} {es : List ClusterEvent}
    (h : (cluster handler c).run (init db) es = some s) :
    s.asked.Perm (es.filterMap (made handler)) :=
  Machine.run_trace (I := fun s calls => s.asked.Perm calls)
    (fun _ _ _ _ hs hstep => (step_asked hstep).trans (hs.append_right _)) (List.Perm.refl _) h

/-! ## The events that make a call -/

/-- A post that passes the model validation. -/
def validPost : ClusterEvent → Bool
  | .post id _ request => modelStateIsValid id request
  | _ => false

/-- A publish by a client whose id is a Guid, with a readable token. -/
def goodPublish (handler : JwtSecurityTokenHandler) : ClusterEvent → Bool
  | .publish session _ payload =>
    (Guid.tryParse session.clientId).isSome && (payloadToken handler payload).isSome
  | _ => false

theorem handler_call_isSome (arg : InterceptingPublishEventArgs) :
    (handleInterceptingPublishAsync handler arg).call.isSome =
      ((Guid.tryParse arg.clientId).isSome && (payloadToken handler arg.payload).isSome) := by
  rw [handleInterceptingPublishAsync_call]
  cases Guid.tryParse arg.clientId with
  | none => rfl
  | some lockId => rw [Option.bind_some, Option.isSome_map, Option.isSome_some, Bool.true_and]

theorem made_publish_isSome (session : Session) (topic : String) (payload : List UInt8) :
    (made handler (.publish session topic payload)).isSome =
      goodPublish handler (.publish session topic payload) :=
  handler_call_isSome _

theorem made_isSome (handler : JwtSecurityTokenHandler) (e : ClusterEvent) :
    (made handler e).isSome = (validPost e || goodPublish handler e) := by
  cases e with
  | publish session topic payload => exact made_publish_isSome session topic payload
  | post id user request =>
    simp only [made, postAccessAsync, validPost, goodPublish, Bool.or_false]
    cases modelStateIsValid id request <;> rfl
  | connect | inject | sendFault | silo => rfl

theorem length_filterMap_made (es : List ClusterEvent) : (es.filterMap (made handler)).length =
    es.countP validPost + es.countP (goodPublish handler) := by
  induction es with
  | nil => rfl
  | cons e es ih =>
    have hsome := made_isSome handler e
    have hone : ¬ (validPost e = true ∧ goodPublish handler e = true) := by
      cases e <;> simp [validPost, goodPublish]
    rw [List.countP_cons, List.countP_cons]
    cases hm : made handler e with
    | none =>
      rw [List.filterMap_cons_none hm, ih]
      rw [hm, Option.isSome_none, eq_comm, Bool.or_eq_false_iff] at hsome
      rw [hsome.1, hsome.2]
      simp
    | some call =>
      rw [List.filterMap_cons_some hm, List.length_cons, ih]
      rw [hm, Option.isSome_some, eq_comm, Bool.or_eq_true] at hsome
      by_cases hp : validPost e = true
      · have hg : goodPublish handler e = false := by
          rw [Bool.eq_false_iff]
          exact fun hg => hone ⟨hp, hg⟩
        rw [hp, hg]
        simp
        omega
      · have hg : goodPublish handler e = true := by tauto
        rw [Bool.not_eq_true] at hp
        rw [hp, hg]
        simp
        omega

/-! ## Every call can be handled -/

section Progress

variable (handler c)

theorem handle_enabled {call : GrainCall} (hcall : call ∈ s.calls)
    (hlive : (s.silo.grains call.key).live.isSome) :
    ∃ t, (cluster handler c).step s (.silo (.handle 0 call)) = some t ∧
      t.calls = s.calls.erase call := by
  obtain ⟨a, ha⟩ := Option.isSome_iff_exists.mp hlive
  obtain ⟨silo, hsilo⟩ : ∃ silo, s.silo.step c (.handle 0 call) = some silo := by
    simp [Silo.step, GrainSlot.step, ha]
  exact ⟨_, silo_enabled (e := .handle 0 call) hcall hsilo, rfl⟩

theorem activate_enabled {call : GrainCall} (hcall : call ∈ s.calls)
    (hlive : (s.silo.grains call.key).live = none) :
    ∃ t, (cluster handler c).step s (.silo (.activate call.key)) = some t ∧ t.calls = s.calls ∧
      (t.silo.grains call.key).live.isSome := by
  obtain ⟨silo, hsilo⟩ : ∃ silo, s.silo.step c (.activate call.key) = some silo := by
    simp [Silo.step, GrainSlot.step, hlive]
  refine ⟨_, silo_enabled (e := .activate call.key) ⟨call, hcall, rfl⟩ hsilo, rfl, ?_⟩
  obtain ⟨g, hg, rfl⟩ := Silo.activate_eq_some hsilo
  obtain ⟨-, rfl⟩ := GrainSlot.activate_eq_some hg
  simp

theorem exists_handle {call : GrainCall} (hcall : call ∈ s.calls) :
    ∃ fs t, (cluster handler c).run s fs = some t ∧ fs.filterMap (made handler) = [] ∧
      t.calls = s.calls.erase call := by
  cases hlive : (s.silo.grains call.key).live with
  | some a =>
    obtain ⟨t, ht, hcalls⟩ := handle_enabled handler c hcall (by simp [hlive])
    exact ⟨[.silo (.handle 0 call)], t, by rw [Machine.run_singleton, ht], rfl, hcalls⟩
  | none =>
    obtain ⟨m, hm, hsame, hlive'⟩ := activate_enabled handler c hcall hlive
    obtain ⟨t, ht, hcalls⟩ := handle_enabled handler c (by rw [hsame]; exact hcall)
      hlive'
    refine ⟨[.silo (.activate call.key), .silo (.handle 0 call)], t, ?_, rfl, ?_⟩
    · exact (cluster handler c).run_cons_eq_some.mpr ⟨m, hm, by rw [Machine.run_singleton, ht]⟩
    · rw [hcalls, hsame]

/-- From every state the waiting calls can all be handled. -/
theorem exists_quiescent (s : Cluster) : ∃ fs t, (cluster handler c).run s fs = some t ∧
    fs.filterMap (made handler) = [] ∧ t.calls = [] := by
  induction hn : s.calls.length generalizing s with
  | zero => exact ⟨[], s, rfl, rfl, List.length_eq_zero_iff.mp hn⟩
  | succ n ih =>
    obtain ⟨call, hcall⟩ := List.exists_mem_of_length_eq_add_one hn
    obtain ⟨fs, m, hm, hfs, hcalls⟩ := exists_handle handler c hcall
    obtain ⟨fs', t, ht, hfs', hnone⟩ := ih m (by rw [hcalls, List.length_erase_of_mem hcall, hn]; rfl)
    refine ⟨fs ++ fs', t, (cluster handler c).run_append_eq_some.mpr ⟨m, hm, ht⟩, ?_, hnone⟩
    rw [List.filterMap_append, hfs, hfs', List.append_nil]

end Progress

/-! ## The outputs of a decision -/

/-- A decision of a grain with a lock appends one record and starts one send on the lock's topic;
the answer, the record and the message have one result. -/
def OneOfEach (d : Decision) (l : LockEntity) : Prop :=
  ∃ r, d.outcome.grain.lockAccesses = d.before.lockAccesses ++ [r] ∧ d.record = some r ∧
    r.lockId = l.id ∧ r.accessResult = d.outcome.result.accessResult ∧
    d.outcome.sent = some ⟨l.id, d.outcome.result⟩

theorem oneOfEach_of_lock {d : Decision} {l : LockEntity} (h : d.before.lock = some l) :
    OneOfEach d l := by
  obtain ⟨r, hr, hid, hres, hsent⟩ :=
    d.before.requestAccessAsync_of_some d.utcNow d.request h
  refine ⟨r, ?_, hr, hid, hres, hsent⟩
  unfold Decision.outcome
  rw [LockGrain.requestAccessAsync_lockAccesses, hr, Option.toList_some]

/-- **Conservation.** In every state of every run: the decisions and the waiting calls are the
calls of the valid posts and the good publishes, and every waiting call can still be handled; no
other publish, and no message of the server, makes a call. A decision with a lock has one record,
one message, whose payload tells the result, and one answer of the same result; a decision without a
lock denies and leaves nothing. The grains have created exactly the records of the decisions, and
every message sent is in flight or ended once. -/
theorem conservation {db : SmartLockDb} {es : List ClusterEvent}
    (h : (cluster handler c).run (init db) es = some s) :
    s.asked.Perm (es.filterMap (made handler)) ∧
    s.silo.decisions.length + s.calls.length =
      es.countP validPost + es.countP (goodPublish handler) ∧
    (∃ fs t, (cluster handler c).run s fs = some t ∧ fs.filterMap (made handler) = [] ∧
      t.silo.decisions.length = es.countP validPost + es.countP (goodPublish handler)) ∧
    (∀ arg, (handleInterceptingPublishAsync handler arg).call.isSome =
      ((Guid.tryParse arg.clientId).isSome && (payloadToken handler arg.payload).isSome)) ∧
    (∀ m, (handleInterceptingPublishAsync handler (injected m)).call = none) ∧
    (∀ m m', (injected m).payload = (injected m').payload → m.message = m'.message) ∧
    (∀ d ∈ s.silo.decisions, ∀ l, d.before.lock = some l → OneOfEach d l) ∧
    (∀ d ∈ s.silo.decisions, d.before.lock = none → d.outcome.result = ⟨.denied⟩ ∧
      d.outcome.grain = d.before ∧ d.record = none ∧ d.outcome.sent = none) ∧
    (∀ key, (s.silo.grains key).created = recordsOf s.silo.decisions key) ∧
    ∀ n, (s.outbox.map Prod.fst ++ es.filterMap sendEnd).count n =
      (s.silo.decisions[n]?.bind fun d => d.outcome.sent).toList.length := by
  have hcount : ∀ {s : Cluster} {es : List ClusterEvent},
      (cluster handler c).run (init db) es = some s → s.silo.decisions.length + s.calls.length =
        es.countP validPost + es.countP (goodPublish handler) := by
    intro s es h
    rw [← length_filterMap_made, ← (run_asked h).length_eq]
    simp [asked]
  refine ⟨run_asked h, hcount h, ?_, handler_call_isSome, injected_call handler,
    fun _ _ => message_of_injected_payload, fun d _ l hl => oneOfEach_of_lock hl, ?_, (Silo.run_recorded (run_silo h)).created,
    (run_sentOnce h).count⟩
  · obtain ⟨fs, t, ht, hfs, hnone⟩ := exists_quiescent handler c s
    refine ⟨fs, t, ht, hfs, ?_⟩
    have hall := hcount ((cluster handler c).run_append_eq_some.mpr ⟨s, h, ht⟩)
    rw [hnone, List.length_nil, Nat.add_zero, ← length_filterMap_made, List.filterMap_append, hfs,
      List.append_nil, length_filterMap_made] at hall
    exact hall
  · intro d _ hnone
    obtain ⟨hout, hrecord⟩ := Decision.outcome_of_none hnone
    rw [hout]
    exact ⟨rfl, rfl, hrecord, rfl⟩

/-- A good publish, a valid post and a post that is not valid, all handled; the message of the
first decision is injected. -/
theorem conservation_entrance :
    let session : Session := ⟨some DefaultData.entranceLockId, DefaultData.entranceLockId⟩
    let key := DefaultData.entranceLockId
    let es : List ClusterEvent := [.connect session,
      .publish session "requests" unsignedPublish.payload, .post key employeeUser ⟨none⟩,
      employeePost key, .silo (.activate key),
      .silo (.handle 1 ⟨key, none, [DefaultData.managerRoleName], none⟩), .inject 0,
      .silo (.handle 2 (employeeCall key))]
    ∃ s, (cluster unsignedHandler .sqlServerDefault).run (init DefaultData.seededDb) es = some s ∧
      s.silo.decisions.map (fun d => d.outcome.result) = [⟨.granted⟩, ⟨.granted⟩] ∧
      s.silo.decisions.length + s.calls.length =
        es.countP validPost + es.countP (goodPublish unsignedHandler) := by
  intro session key es
  obtain ⟨s, hs, hres⟩ : ∃ s, (cluster unsignedHandler .sqlServerDefault).run
      (init DefaultData.seededDb) es = some s ∧
      s.silo.decisions.map (fun d => d.outcome.result) = [⟨.granted⟩, ⟨.granted⟩] :=
    Machine.exists_run_of_any (by decide +kernel)
  exact ⟨s, hs, hres, (conservation hs).2.1⟩

end Cluster

end SmartLock
