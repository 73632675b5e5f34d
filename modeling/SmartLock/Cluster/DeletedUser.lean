import SmartLock.Cluster.Backlog
import SmartLock.Cluster.Conservation
import SmartLock.Data.Constraints
import SmartLock.WebApi.TokenLifetime

/-!
# Requests of a deleted user

A token outlives its user, and no grain asks whether the requester exists. A request in the name of
a user who is gone is answered by the roles of the token, and as long as no user is created under
that id again its record cannot be stored; it stops the list of its activation, with all that is
created behind it (`deleted_user_opens`).
-/

namespace SmartLock

/-! ## The user stays away -/

/-- The event inserts a user under the id. -/
def SiloEvent.createsUser (c : Collation) (userId : String) : SiloEvent → Bool
  | .change (.createUser row) => c.same row.id userId
  | _ => false

theorem DbChange.gone_apply {c : Collation} {db db' : SmartLockDb} {ch : DbChange} {userId : String}
    (hch : (SiloEvent.change ch).createsUser c userId = false)
    (hgone : db.hasUser c userId = false) (h : ch.apply c db = some db') :
    db'.hasUser c userId = false := by
  cases ch with
  | createUser row =>
    unfold apply at h
    rw [Option.ite_none_left_eq_some] at h
    rw [← Option.some.inj h.2]
    unfold SmartLockDb.hasUser at hgone ⊢
    rw [List.any_append, hgone, Bool.false_or, List.any_cons, List.any_nil, Bool.or_false]
    exact hch
  | deleteUser gone =>
    unfold apply at h
    rw [Option.ite_none_left_eq_some] at h
    rw [← Option.some.inj h.2]
    unfold SmartLockDb.hasUser at hgone ⊢
    rw [List.any_eq_false] at hgone ⊢
    exact fun u hu => hgone u (List.mem_of_mem_filter hu)
  | renameUser => exact (SmartLockDb.hasUser_of_renameUser h userId).trans hgone
  | linkRole =>
    unfold apply at h
    rw [Option.ite_none_right_eq_some] at h
    rw [← Option.some.inj h.2]
    exact hgone
  | unlinkRole | deleteRole | deleteLock =>
    rw [← Option.some.inj h]
    exact hgone
  | createRole | renameRole | createLock =>
    unfold apply at h
    rw [Option.ite_none_left_eq_some] at h
    rw [← Option.some.inj h.2]
    exact hgone

theorem Silo.gone_step {c : Collation} {s s' : Silo} {userId : String}
    (hgone : s.db.hasUser c userId = false) {e : SiloEvent} (he : e.createsUser c userId = false)
    (h : s.step c e = some s') : s'.db.hasUser c userId = false := by
  obtain ⟨ch, rfl, hch⟩ | hdb := db_cases h
  · exact DbChange.gone_apply he hgone hch
  · rw [hdb]
    exact hgone

/-! ## Records that are stuck -/

namespace Activation

variable {a b : Activation} {r : LockAccessHistoryEntity}

/-- The record is in the list of the activation, and neither it nor one created behind it is
stored. -/
def HoldsBack (a : Activation) (r : LockAccessHistoryEntity) : Prop :=
  ∃ front back, a.created = front ++ r :: back ∧ a.committed.flatten <+: front ∧
    r :: back <:+ a.grain.lockAccesses

/-- The record is the `n`-th that was created, and at most the `n` before it are stored. -/
def Waits (a : Activation) (n : ℕ) (r : LockAccessHistoryEntity) : Prop :=
  a.created[n]? = some r ∧ a.committed.flatten.length ≤ n

theorem Waits.holdsBack {n : ℕ} (h : a.Waits n r) (hreach : a.Reachable) : a.HoldsBack r := by
  obtain ⟨hr, hn⟩ := h
  obtain ⟨hlt, hget⟩ := List.getElem?_eq_some_iff.mp hr
  have hdrop : r :: a.created.drop (n + 1) = a.created.drop n := by
    rw [← hget, ← List.drop_eq_getElem_cons hlt]
  have hledger := hreach.ledger
  refine ⟨a.created.take n, a.created.drop (n + 1), ?_, ?_, ?_⟩
  · rw [hdrop, List.take_append_drop]
  · rw [List.prefix_take_iff]
    exact ⟨hledger ▸ List.prefix_append _ _, hn⟩
  · rw [hdrop, ← hledger, List.drop_append, List.drop_eq_nil_of_le hn, List.nil_append]
    exact (List.drop_suffix _ _).trans a.unsaved_suffix

theorem Waits.request {n : ℕ} (h : a.Waits n r) (utcNow : DateTime) (req : AccessRequest) :
    (a.request utcNow req).Waits n r := by
  obtain ⟨hr, hn⟩ := h
  refine ⟨?_, hn⟩
  rw [request_created, List.getElem?_append_left (List.getElem?_eq_some_iff.mp hr).1, hr]

theorem Waits.timerStep {n : ℕ} (h : a.Waits n r) (hreach : a.Reachable) {t : TimerEvent}
    (hstep : a.timerStep t = some b) (hr : ∀ batch, a.committing t = some batch → r ∉ batch) :
    b.Waits n r := by
  obtain ⟨hcreated, hn⟩ := h
  refine ⟨by rw [timerStep_created hstep, hcreated], ?_⟩
  rw [timerStep_committed hstep, List.flatten_append, List.length_append]
  cases hc : a.committing t with
  | none => simpa using hn
  | some batch =>
    have hledger := hreach.ledger
    rw [hreach.unsaved_timerStep hstep, hc, Option.toList_some, List.flatten_singleton] at hledger
    rw [Option.toList_some, List.flatten_singleton]
    by_contra hlt
    rw [← hledger, List.getElem?_append_right hn, List.getElem?_append_left (by omega)] at hcreated
    exact hr batch hc (List.mem_of_getElem? hcreated)

theorem Reachable.waits_request (h : a.Reachable) {utcNow : DateTime} {req : AccessRequest}
    (hr : a.grain.record utcNow req = some r) :
    (a.request utcNow req).Waits a.created.length r := by
  refine ⟨?_, ?_⟩
  · rw [request_created, hr, Option.toList_some, List.getElem?_concat_length]
  · show a.committed.flatten.length ≤ _
    rw [← h.ledger, List.length_append]
    exact Nat.le_add_right _ _

end Activation

namespace Silo

variable {c : Collation} {s s' : Silo} {r : LockAccessHistoryEntity}

/-- A record under `key` that waits in one of its activations. -/
def Holds (s : Silo) (key : String) (r : LockAccessHistoryEntity) : Prop :=
  ∃ a ∈ (s.grains key).activations, ∃ n, a.Waits n r

/-- A record that the database refuses stays. -/
theorem Holds.step {key : String} (hs : s.Holds key r) (hsound : ∀ key, (s.grains key).Sound)
    (hbad : s.db.satisfiesConstraints c r = false) {e : SiloEvent} (h : s.step c e = some s') :
    s'.Holds key r := by
  obtain ⟨a, ha, n, hwaits⟩ := hs
  obtain ⟨-, hstay⟩ | ⟨e', he, hmove⟩ := grain_cases h key
  · exact ⟨a, by rw [hstay]; exact ha, n, hwaits⟩
  · obtain ⟨i, hi⟩ := List.getElem?_of_mem ha
    obtain ⟨b, hb, rfl | ⟨utcNow, req, rfl⟩ | ⟨t, -, hstep, hcom⟩⟩ :=
      GrainSlot.activation_step hmove hi
    · exact ⟨b, List.mem_of_getElem? hb, n, hwaits⟩
    · exact ⟨_, List.mem_of_getElem? hb, n, hwaits.request utcNow req⟩
    · refine ⟨b, List.mem_of_getElem? hb, n, hwaits.timerStep (hsound key a ha) hstep ?_⟩
      intro batch hbatch hr
      have hok := accepted_of_committing h he (hcom.trans hbatch) r hr
      rw [hbad] at hok
      cases hok

theorem holds_decided (hsound : ∀ key, (s.grains key).Sound) {e : SiloEvent}
    (h : s.step c e = some s') {d : Decision} (hd : s.decided e = some d)
    (hr : d.record = some r) : s'.Holds d.key r := by
  cases e with
  | handle utcNow call =>
    obtain ⟨a, g, ha, hg, rfl⟩ := handle_eq_some h
    obtain ⟨b, hb, rfl⟩ := GrainSlot.request_eq_some hg
    obtain rfl : a = b := Option.some.inj (ha.symm.trans hb)
    simp only [decided, ha, Option.map_some, Option.some.injEq] at hd
    subst hd
    refine ⟨a.request utcNow call.request, ?_, _, ((hsound call.key).live ha).waits_request hr⟩
    simp only [Function.update_self, GrainSlot.activations, Option.toList_some]
    exact List.mem_append_right _ (List.mem_singleton_self _)
  | activate | timer | late | deactivate | change => cases hd

theorem refused_of_gone {db : SmartLockDb} {userId : String} (hgone : db.hasUser c userId = false)
    (hr : r.requesterId = some userId) : db.satisfiesConstraints c r = false := by
  unfold SmartLockDb.satisfiesConstraints
  rw [hr]
  dsimp only
  rw [hgone, Bool.and_false, Bool.false_and]

/-- **The records of a user who is gone stay.** Every record that is created in the user's name
from then on waits in an activation of its key. -/
theorem run_holds {userId : String} (hsound : ∀ key, (s.grains key).Sound)
    (hgone : s.db.hasUser c userId = false) {es : List SiloEvent}
    (hes : ∀ e ∈ es, e.createsUser c userId = false) (h : (silo c).run s es = some s') :
    (∀ key, (s'.grains key).Sound) ∧
      ∃ ds, s'.decisions = s.decisions ++ ds ∧ ∀ d ∈ ds, ∀ r, d.record = some r →
        r.requesterId = some userId → s'.Holds d.key r := by
  have hinv := Machine.run_induction_of_forall
    (P := fun e : SiloEvent => e.createsUser c userId = false)
    (I := fun t : Silo => (∀ key, (t.grains key).Sound) ∧
      t.db.hasUser c userId = false ∧ ∃ ds, t.decisions = s.decisions ++ ds ∧
        ∀ d ∈ ds, ∀ r, d.record = some r → r.requesterId = some userId → t.Holds d.key r)
    (fun t e t' ⟨hsound, hgone, ds, hds, hholds⟩ he hstep => by
      refine ⟨forall_grains_step (fun _ _ _ _ _ hI _ hmove => hI.step hmove) hsound hstep,
        gone_step hgone he hstep, ds ++ (t.decided e).toList, ?_, ?_⟩
      · rw [step_decisions hstep, hds, List.append_assoc]
      · intro d hd r hr huser
        rcases List.mem_append.mp hd with hd | hd
        · exact (hholds d hd r hr huser).step hsound (refused_of_gone hgone huser) hstep
        · exact holds_decided hsound hstep (Option.mem_toList.mp hd) hr)
    ⟨hsound, hgone, [], (List.append_nil _).symm, fun _ hd => by cases hd⟩ hes h
  exact ⟨hinv.1, hinv.2.2⟩

end Silo

namespace Cluster

variable {handler : JwtSecurityTokenHandler} {c : Collation} {s s' : Cluster}

/-- **A deleted user still opens doors.** Let a token have been issued to a user who is no longer in
the tables. As long as no user is created under that id again: each decision for a publish of the
token by a lock is a grant exactly if a role of the day of issue is one of the lock's, and is told
to the door; its record stays in the list of its activation, and nothing that the activation creates
behind it is stored. -/
theorem deleted_user_opens {options : JwtOptions} {jti : Guid} {now : DateTime}
    {userName userId : String} {roles : List String} {t : String}
    (hR : handler.ReadsBack (issuedToken options jti now userName userId roles))
    (hw : handler.writeToken (issuedToken options jti now userName userId roles) = some t)
    {db : SmartLockDb} {es fs : List ClusterEvent}
    (h : (cluster handler c).run (init db) es = some s)
    (hgone : s.silo.db.hasUser c userId = false)
    (hfs : ∀ e ∈ fs.filterMap siloEvent, e.createsUser c userId = false)
    (h' : (cluster handler c).run s fs = some s') {session : Session} {topic : String}
    {payload : List UInt8} (hmsg : payloadMessage payload = .ok ⟨some t⟩) {d : Decision}
    (hd : d ∈ s'.silo.decisions.drop s.silo.decisions.length)
    (hcall : made handler (.publish session topic payload) = some d.call) {l : LockEntity}
    (hl : d.before.lock = some l) :
    (d.outcome.result.accessResult = .granted ↔
      ∃ r ∈ l.rolesAccesses, ∃ name ∈ roles, r.name = some name) ∧
    d.outcome.sent = some ⟨l.id, d.outcome.result⟩ ∧
    ∃ r, d.record = some r ∧ r.requesterId = some userId ∧
      ∃ a ∈ (s'.silo.grains d.key).activations, a.HoldsBack r := by
  obtain ⟨lockId, hid, -⟩ := made_publish_eq_some hcall
  have hrequest : d.request = ⟨some userId, roles, none⟩ := by
    have hmade : made handler (.publish session topic payload) = _ :=
      publish_call_of_issued hR hw hid hmsg
    have hsame : d.call = _ := Option.some.inj (hcall.symm.trans hmade)
    injection hsame
  refine ⟨?_, Decision.sent_of_lock hl, ?_⟩
  · rw [Decision.outcome, LockGrain.requestAccessAsync_result, hl, hrequest]
    exact LockEntity.hasAccess_eq_granted
  · have hrecord := d.before.record_of_some d.utcNow d.request hl
    refine ⟨_, hrecord, by rw [hrequest]; rfl, ?_⟩
    obtain ⟨hsound, ds, hds, hholds⟩ :=
      Silo.run_holds (Silo.run_recorded (run_silo h)).sound hgone hfs (run_silo h')
    rw [hds, List.drop_left] at hd
    obtain ⟨a, ha, n, hwaits⟩ := hholds d hd _ hrecord (by rw [hrequest]; rfl)
    exact ⟨a, ha, hwaits.holdsBack (hsound d.key a ha)⟩

/-- The manager's account is deleted, and the manager's token opens the entrance. -/
theorem deleted_user_opens_manager :
    let key := DefaultData.entranceLockId
    let session : Session := ⟨some key, key⟩
    let call : GrainCall := ⟨key, some DefaultData.managerId,
      [DefaultData.managerRoleName, DefaultData.employeeRoleName], none⟩
    let grant : LockAccessHistoryEntity :=
      .create key (some DefaultData.managerId) .granted none 5
    ∃ s' : Cluster, ∃ d : Decision,
      (cluster managerHandler .sqlServerDefault).run (init DefaultData.seededDb)
        [.silo (.change (.deleteUser DefaultData.managerId)), .connect session,
          .publish session key (tokenPayload managerToken), .silo (.activate key),
          .silo (.handle 5 call), .silo (.timer key .tick), .silo (.timer key .throw)] = some s' ∧
      s'.silo.decisions = [d] ∧ d.outcome.result = ⟨.granted⟩ ∧ d.record = some grant ∧
      ∃ a ∈ (s'.silo.grains key).activations, a.HoldsBack grant := by
  intro key session call grant
  have hwrite : managerHandler.writeToken managerDescriptor = some managerToken :=
    managerHandler_writeToken.mpr ⟨rfl, rfl⟩
  have hmsg := payloadMessage_tokenPayload managerToken
  have hmade : made managerHandler (.publish session key (tokenPayload managerToken)) =
      some call := by
    obtain ⟨g, hname⟩ : ∃ g : Guid, key = g.toString :=
      Guid.exists_eq_toString_iff.mpr (by decide +kernel)
    have hid : Guid.tryParse session.clientId = some g := by
      rw [show session.clientId = g.toString from hname, Guid.tryParse_toString]
    have hcall : (handleInterceptingPublishAsync managerHandler
        (publishArgs session key (tokenPayload managerToken))).call = _ :=
      publish_call_of_issued (managerHandler_readsBack managerDescriptor) hwrite hid hmsg
    rw [made, hcall, ← hname]
  obtain ⟨s, hs, hgone, hnone⟩ : ∃ s, (cluster managerHandler .sqlServerDefault).run
      (init DefaultData.seededDb) [.silo (.change (.deleteUser DefaultData.managerId))] = some s ∧
      s.silo.db.hasUser .sqlServerDefault DefaultData.managerId = false ∧ s.silo.decisions = [] :=
    Machine.exists_run_of_any (by decide +kernel)
  let d : Decision := ⟨key, 5, call.request, ⟨some DefaultData.entranceLock, []⟩⟩
  let gone : List ClusterEvent := [.silo (.change (.deleteUser DefaultData.managerId))]
  let rest : List ClusterEvent := [.silo (.activate key), .silo (.handle 5 call),
    .silo (.timer key .tick), .silo (.timer key .throw)]
  obtain ⟨s', hs', hdec⟩ : ∃ s', (cluster managerHandler .sqlServerDefault).run
      (init DefaultData.seededDb)
      ((gone ++ [.connect session]) ++ .publish session key (tokenPayload managerToken) :: rest) =
        some s' ∧ s'.silo.decisions = [d] := by
    refine Machine.exists_run_of_any ?_
    -- the call of the publish is known, so its payload need not be evaluated
    rw [Machine.run_append, funext fun m => run_publish hmade rest]
    decide +kernel
  obtain ⟨m, hm, hrun⟩ := (cluster managerHandler .sqlServerDefault).run_append_eq_some.mp
    (List.append_assoc gone _ _ ▸ hs')
  obtain rfl : s = m := Option.some.inj (hs.symm.trans hm)
  have hd : d ∈ s'.silo.decisions.drop s.silo.decisions.length := by
    rw [hnone, hdec]
    exact List.mem_singleton_self d
  obtain ⟨-, -, r, hr, -, hholds⟩ := deleted_user_opens (managerHandler_readsBack managerDescriptor)
    hwrite hs hgone (by decide +kernel) hrun hmsg hd hmade rfl
  have hgrant : d.record = some grant := by decide +kernel
  obtain rfl : r = grant := Option.some.inj (hr.symm.trans hgrant)
  exact ⟨s', d, hs', hdec, by decide +kernel, hgrant, hholds⟩

end Cluster

end SmartLock
