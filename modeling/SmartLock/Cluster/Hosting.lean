import SmartLock.Cluster.Conservation

/-!
# The service around its start and stop

`StartAsync` attaches the handlers of `MqttHostedService.cs` to the broker and `StopAsync` detaches
them, while the broker has a life of its own: without them it admits every client and routes every
message, and asks nobody. `hosted_requests` says what remains true when starts and stops take turns,
with any traffic in between. While the handlers are attached the service is `cluster`
(`run_attached`).
-/

namespace SmartLock

/-- The service and whether the handlers are attached. The second instance of the class, which is
registered as `ILockConnector`, is never started. -/
structure Hosted where
  cluster : Cluster
  attached : Bool

inductive HostEvent
  | startAsync
  | stopAsync
  | traffic (e : ClusterEvent)
  deriving DecidableEq, Repr

namespace Cluster

/-- An event of the service while no handler is attached. -/
def stepUnattended (handler : JwtSecurityTokenHandler) (c : Collation) (s : Cluster) :
    ClusterEvent → Option Cluster
  | .connect session => some { s with sessions := s.sessions ++ [session] }
  | .publish session topic payload =>
    if session ∈ s.sessions then
      some { s with delivered := s.delivered ++ [⟨topic, payload, .client session⟩] }
    else none
  | .inject n => do
    let m ← s.pending n
    return { s with
      outbox := s.sendEnded n
      delivered := s.delivered ++ [⟨(injected m).topic, (injected m).payload, .server n⟩] }
  | e => s.step handler c e

end Cluster

namespace Hosted

def init (db : SmartLockDb) : Hosted := ⟨Cluster.init db, false⟩

/-- The host starts a service that is not started, and stops one that is. It starts none twice,
which would attach the handlers a second time. -/
def step (handler : JwtSecurityTokenHandler) (c : Collation) (s : Hosted) :
    HostEvent → Option Hosted
  | .startAsync => if s.attached then none else some { s with attached := true }
  | .stopAsync => if s.attached then some { s with attached := false } else none
  | .traffic e =>
    (if s.attached then s.cluster.step handler c e
      else s.cluster.stepUnattended handler c e).map fun cluster => { s with cluster := cluster }

end Hosted

/-- The hosted service as a machine. -/
def hosted (handler : JwtSecurityTokenHandler) (c : Collation) : Machine Hosted HostEvent :=
  ⟨Hosted.step handler c⟩

namespace Hosted

open Cluster (made asked)

variable {handler : JwtSecurityTokenHandler} {c : Collation} {s s' : Hosted}

/-- With the handlers attached the hosted service takes the steps of the service. -/
theorem run_attached (cluster : Cluster) (es : List ClusterEvent) :
    (hosted handler c).run ⟨cluster, true⟩ (es.map .traffic) =
      ((SmartLock.cluster handler c).run cluster es).map fun t => ⟨t, true⟩ := by
  induction es generalizing cluster with
  | nil => rfl
  | cons e es ih =>
    rw [List.map_cons, Machine.run_cons, Machine.run_cons]
    show ((cluster.step handler c e).map _).bind _ = ((cluster.step handler c e).bind _).map _
    cases cluster.step handler c e with
    | none => rfl
    | some t => exact ih t

/-! ## What a step does -/

/-- The injected messages make no call, so they are sent the same way with and without handlers. -/
theorem stepUnattended_inject (s : Cluster) (n : ℕ) :
    s.stepUnattended handler c (.inject n) = s.step handler c (.inject n) := by
  dsimp only [Cluster.stepUnattended, Cluster.step]
  cases s.pending n with
  | none => rfl
  | some m =>
    show some _ = some (Cluster.present handler _ _ _)
    unfold Cluster.present
    dsimp only
    rw [injected_call, handleInterceptingPublishAsync_processPublish]
    simp [injected]

theorem stepUnattended_eq_some {s s' : Cluster} {e : ClusterEvent}
    (h : s.stepUnattended handler c e = some s') :
    (∃ session, e = .connect session ∧ s' = { s with sessions := s.sessions ++ [session] }) ∨
    (∃ session topic payload, e = .publish session topic payload ∧ session ∈ s.sessions ∧
      s' = { s with delivered := s.delivered ++ [⟨topic, payload, .client session⟩] }) ∨
    (∀ session, e ≠ .connect session) ∧ (∀ session topic payload, e ≠ .publish session topic payload) ∧
      s.step handler c e = some s' := by
  cases e with
  | connect session => exact Or.inl ⟨session, rfl, (Option.some.inj h).symm⟩
  | publish session topic payload =>
    unfold Cluster.stepUnattended at h
    dsimp only at h
    rw [Option.ite_none_right_eq_some] at h
    exact Or.inr (Or.inl ⟨session, topic, payload, rfl, h.1, (Option.some.inj h.2).symm⟩)
  | inject n =>
    rw [stepUnattended_inject] at h
    exact Or.inr (Or.inr ⟨nofun, nofun, h⟩)
  | post id user request => exact Or.inr (Or.inr ⟨nofun, nofun, h⟩)
  | sendFault n => exact Or.inr (Or.inr ⟨nofun, nofun, h⟩)
  | silo e => exact Or.inr (Or.inr ⟨nofun, nofun, h⟩)

/-- The event as far as the handlers and the grains hear of it. -/
def reaches (attached : Bool) : HostEvent → Option ClusterEvent
  | .startAsync | .stopAsync => none
  | .traffic (.publish session topic payload) =>
    if attached then some (.publish session topic payload) else none
  | .traffic e => some e

/-- Whether the handlers are attached after an event. -/
def turn (attached : Bool) : HostEvent → Bool
  | .startAsync => true
  | .stopAsync => false
  | .traffic _ => attached

/-- What an event does to the service inside; a start and a stop touch nothing of it. -/
def Passes (handler : JwtSecurityTokenHandler) (c : Collation) (attached : Bool)
    (cluster cluster' : Cluster) : HostEvent → Prop
  | .startAsync | .stopAsync => cluster' = cluster
  | .traffic e => attached = true ∧ cluster.step handler c e = some cluster' ∨
      attached = false ∧ cluster.stepUnattended handler c e = some cluster'

theorem step_eq_some {e : HostEvent} (h : s.step handler c e = some s') :
    s'.attached = turn s.attached e ∧
      Passes handler c s.attached s.cluster s'.cluster e := by
  cases e with
  | startAsync =>
    unfold step at h
    dsimp only at h
    rw [Option.ite_none_left_eq_some] at h
    rw [← Option.some.inj h.2]
    exact ⟨rfl, rfl⟩
  | stopAsync =>
    unfold step at h
    dsimp only at h
    rw [Option.ite_none_right_eq_some] at h
    rw [← Option.some.inj h.2]
    exact ⟨rfl, rfl⟩
  | traffic e =>
    obtain ⟨cluster, attached⟩ := s
    obtain ⟨cluster', hcluster, rfl⟩ := Option.map_eq_some_iff.mp h
    cases attached with
    | true => exact ⟨rfl, Or.inl ⟨rfl, hcluster⟩⟩
    | false => exact ⟨rfl, Or.inr ⟨rfl, hcluster⟩⟩

/-- The events of a run that the handlers and the grains hear of. -/
def heard : Bool → List HostEvent → List ClusterEvent
  | _, [] => []
  | attached, e :: es => (reaches attached e).toList ++ heard (turn attached e) es

theorem step_asked {e : HostEvent} (h : s.step handler c e = some s') :
    s'.cluster.asked.Perm
      (s.cluster.asked ++ (reaches s.attached e).toList.filterMap (made handler)) := by
  have hsame : s'.cluster.asked = s.cluster.asked →
      s'.cluster.asked.Perm (s.cluster.asked ++ []) := by
    intro hsame
    rw [hsame, List.append_nil]
  have hheard : ∀ e', s.cluster.step handler c e' = some s'.cluster →
      s'.cluster.asked.Perm (s.cluster.asked ++ (some e').toList.filterMap (made handler)) := by
    intro e' hstep
    have hasked := Cluster.step_asked hstep
    rw [Option.toList_some, List.filterMap_cons]
    cases hmade : made handler e' <;> rw [hmade] at hasked <;> exact hasked
  obtain ⟨-, hcluster⟩ := step_eq_some h
  cases e with
  | startAsync | stopAsync => exact hsame (congrArg asked hcluster)
  | traffic e =>
    obtain ⟨hattached, hstep⟩ | ⟨hattached, hstep⟩ := hcluster
    · rw [hattached, show reaches true (.traffic e) = some e by cases e <;> rfl]
      exact hheard e hstep
    · rw [hattached]
      obtain ⟨session, rfl, hs⟩ | ⟨session, topic, payload, rfl, -, hs⟩ | ⟨-, hpublish, hstep⟩ :=
        stepUnattended_eq_some hstep
      · refine hsame ?_
        rw [hs]
        rfl
      · refine hsame ?_
        rw [hs]
        rfl
      · cases e with
        | publish session topic payload => exact absurd rfl (hpublish session topic payload)
        | connect | post | inject | sendFault | silo => exact hheard _ hstep

theorem run_asked {es : List HostEvent} (h : (hosted handler c).run s es = some s') :
    s'.cluster.asked.Perm (s.cluster.asked ++ (heard s.attached es).filterMap (made handler)) := by
  induction es generalizing s with
  | nil =>
    cases h
    simp [heard]
  | cons e es ih =>
    obtain ⟨m, hm, hrun⟩ := (hosted handler c).run_cons_eq_some.mp h
    have hstep : s.step handler c e = some m := hm
    have hrest := ih hrun
    rw [(step_eq_some hstep).1] at hrest
    rw [heard, List.filterMap_append, ← List.append_assoc]
    exact hrest.trans ((step_asked hstep).append_right _)

/-! ## Sessions and deliveries -/

/-- The session that an event admits: a validated one, or any while no handler is attached. -/
def joined (s : Hosted) : HostEvent → Option Session
  | .traffic (.connect session) =>
    if s.attached then Cluster.admitted (.connect session) else some session
  | _ => none

theorem step_sessions {e : HostEvent} (h : s.step handler c e = some s') :
    s'.cluster.sessions = s.cluster.sessions ++ (s.joined e).toList := by
  obtain ⟨-, hcluster⟩ := step_eq_some h
  cases e with
  | startAsync | stopAsync => rw [hcluster]; exact (List.append_nil _).symm
  | traffic e =>
    obtain ⟨hattached, hstep⟩ | ⟨hattached, hstep⟩ := hcluster
    · rw [Cluster.step_sessions hstep]
      cases e with
      | connect session => rw [joined, if_pos hattached]
      | publish | post | inject | sendFault | silo => rfl
    · obtain ⟨session, rfl, hs⟩ | ⟨session, topic, payload, rfl, -, hs⟩ | ⟨hconnect, -, hstep⟩ :=
        stepUnattended_eq_some hstep
      · rw [hs, joined, if_neg (by simp [hattached])]
        rfl
      · rw [hs]
        exact (List.append_nil _).symm
      · rw [Cluster.step_sessions hstep]
        cases e with
        | connect session => exact absurd rfl (hconnect session)
        | publish | post | inject | sendFault | silo => rfl

theorem step_delivered {e : HostEvent} (h : s.step handler c e = some s') :
    s'.cluster.delivered = s.cluster.delivered ++ (match e with
      | .traffic e => (s.cluster.routed e).toList
      | .startAsync | .stopAsync => []) := by
  obtain ⟨-, hcluster⟩ := step_eq_some h
  cases e with
  | startAsync | stopAsync => rw [hcluster]; exact (List.append_nil _).symm
  | traffic e =>
    obtain ⟨-, hstep⟩ | ⟨-, hstep⟩ := hcluster
    · exact Cluster.step_delivered hstep
    · obtain ⟨session, rfl, hs⟩ | ⟨session, topic, payload, rfl, -, hs⟩ | ⟨-, -, hstep⟩ :=
        stepUnattended_eq_some hstep
      · rw [hs]
        exact (List.append_nil _).symm
      · rw [hs]
        rfl
      · exact Cluster.step_delivered hstep

/-- The message that a client publishes. -/
def published : HostEvent → Option Delivery
  | .traffic (.publish session topic payload) => some ⟨topic, payload, .client session⟩
  | _ => none

/-- The messages of the clients among those delivered. -/
def clientDelivered (s : Hosted) : List Delivery :=
  s.cluster.delivered.filter fun x => x.origin.decision? = none

theorem run_clientDelivered {db : SmartLockDb} {es : List HostEvent}
    (h : (hosted handler c).run (init db) es = some s) :
    s.clientDelivered = es.filterMap published := by
  refine Machine.run_trace (I := fun s sent => s.clientDelivered = sent) ?_ rfl h
  rintro s e s' sent rfl (hstep : s.step handler c e = some s')
  unfold clientDelivered
  rw [step_delivered hstep, List.filter_append]
  congr 1
  cases e with
  | startAsync | stopAsync => rfl
  | traffic e =>
    cases e with
    | publish session topic payload => rfl
    | inject n =>
      simp only [Cluster.routed, published, Option.toList_none]
      cases s.cluster.pending n <;> rfl
    | connect | post | sendFault | silo => rfl

/-- **Starts and stops.** With starts and stops that take turns and any traffic between them: the
calls are exactly those of the posts and of the publishes that found the handlers attached, none
lost and none made twice; every publish is delivered all the same, in order; and a session was
validated, or connected while no handler was attached. -/
theorem hosted_requests {db : SmartLockDb} {es : List HostEvent}
    (h : (hosted handler c).run (init db) es = some s) :
    s.cluster.asked.Perm ((heard false es).filterMap (made handler)) ∧
    s.clientDelivered = es.filterMap published ∧
    ∀ session ∈ s.cluster.sessions,
      handleValidatingConnectionAsync session.userName = .success ∨
      ∃ pre post m, es = pre ++ .traffic (.connect session) :: post ∧
        (hosted handler c).run (init db) pre = some m ∧ m.attached = false := by
  refine ⟨run_asked h, run_clientDelivered h, ?_⟩
  intro session hsession
  have hlog : ∀ s e s', (hosted handler c).step s e = some s' →
      s'.cluster.sessions = s.cluster.sessions ++ (s.joined e).toList :=
    fun _ _ _ hstep => step_sessions hstep
  obtain hnil | ⟨pre, e, post, m, rfl, hpre, hgain⟩ := Machine.mem_history hlog h hsession
  · cases hnil
  · cases e with
    | startAsync | stopAsync => cases hgain
    | traffic e =>
      cases e with
      | publish | post | inject | sendFault | silo => cases hgain
      | connect session' =>
        rw [joined] at hgain
        cases hattached : m.attached with
        | true =>
          rw [if_pos hattached] at hgain
          simp only [Cluster.admitted] at hgain
          cases hv : handleValidatingConnectionAsync session'.userName with
          | success =>
            rw [hv] at hgain
            obtain rfl : session' = session := Option.some.inj hgain
            exact Or.inl hv
          | badUserNameOrPassword =>
            rw [hv] at hgain
            cases hgain
        | false =>
          rw [if_neg (by simp [hattached])] at hgain
          obtain rfl : session' = session := Option.some.inj hgain
          exact Or.inr ⟨pre, post, m, rfl, hpre, hattached⟩

/-- A client without a user name connects before the start. Its first and its third publish are
only delivered, its second one opens the entrance. -/
theorem hosted_requests_early :
    let session : Session := ⟨none, DefaultData.entranceLockId⟩
    let key := DefaultData.entranceLockId
    let call : GrainCall := ⟨key, none, [DefaultData.managerRoleName], none⟩
    let publish : HostEvent := .traffic (.publish session "requests" unsignedPublish.payload)
    let es : List HostEvent := [.traffic (.connect session), publish, .startAsync, publish,
      .traffic (.silo (.activate key)), .traffic (.silo (.handle 1 call)), .stopAsync, publish]
    ∃ s : Hosted, (hosted unsignedHandler .sqlServerDefault).run (init DefaultData.seededDb) es =
        some s ∧
      s.cluster.asked.Perm [call] ∧ s.clientDelivered.length = 3 ∧
      (s.cluster.silo.decisions.map fun d => d.outcome.result) = [⟨.granted⟩] := by
  intro session key call publish es
  obtain ⟨s, hs, hresults⟩ : ∃ s, (hosted unsignedHandler .sqlServerDefault).run
      (init DefaultData.seededDb) es = some s ∧
      (s.cluster.silo.decisions.map fun d => d.outcome.result) = [⟨.granted⟩] :=
    Machine.exists_run_of_any (by decide +kernel)
  obtain ⟨hasked, hdelivered, -⟩ := hosted_requests hs
  have hmade : (heard false es).filterMap (made unsignedHandler) = [call] := by decide +kernel
  rw [hmade] at hasked
  exact ⟨s, hs, hasked, by rw [hdelivered]; rfl, hresults⟩

end Hosted

end SmartLock
