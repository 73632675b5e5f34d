import SmartLock.Cluster.Silo
import SmartLock.WebApi.MqttHostedService

/-!
# The whole service

The silo behind its two entry points. Posts and publishes leave calls on their way to the grains;
Orleans activates a grain when a call waits for it and hands each call over once. A decision with
a lock starts a send, which ends when the message is injected or when it faults. The broker
presents every publish, also the injected ones, to the intercepting handler, and delivers it unless
the handler clears `ProcessPublish`.
-/

namespace SmartLock

/-- An MQTT session with the two names that its client chose. -/
structure Session where
  userName : Option String
  clientId : String
  deriving DecidableEq, Repr

/-- Who published a delivered message: a session, or the server for its `n`-th decision. -/
inductive Origin
  | client (session : Session)
  | server (n : ℕ)
  deriving DecidableEq, Repr

/-- A message that the broker has routed to the subscribers of its topic. -/
structure Delivery where
  topic : String
  payload : List UInt8
  origin : Origin
  deriving DecidableEq, Repr

/-- The service. `sessions` are the sessions admitted so far, `calls` the calls that no grain has
handled, `outbox` the sends that have not ended, each with the number of its decision. -/
structure Cluster where
  silo : Silo
  sessions : List Session
  calls : List GrainCall
  outbox : List (ℕ × LockMessage)
  delivered : List Delivery

inductive ClusterEvent
  | connect (session : Session)
  | publish (session : Session) (topic : String) (payload : List UInt8)
  | post (id : String) (user : List Claim) (request : LockAccessRequest)
  | inject (n : ℕ)
  | sendFault (n : ℕ)
  | silo (e : SiloEvent)
  deriving DecidableEq, Repr

namespace Cluster

/-- A start on the tables `db`: nobody is connected and nothing is on its way. -/
def init (db : SmartLockDb) : Cluster := ⟨Silo.init db, [], [], [], []⟩

/-- The broker presents a publish to the handler. -/
def present (handler : JwtSecurityTokenHandler) (s : Cluster) (origin : Origin)
    (arg : InterceptingPublishEventArgs) : Cluster :=
  let out := handleInterceptingPublishAsync handler arg
  { s with
    calls := s.calls ++ out.call.toList
    delivered :=
      if out.processPublish then s.delivered ++ [⟨arg.topic, arg.payload, origin⟩]
      else s.delivered }

/-- What a session's publish is presented as. -/
def publishArgs (session : Session) (topic : String) (payload : List UInt8) :
    InterceptingPublishEventArgs :=
  ⟨session.clientId, topic, payload, true⟩

/-- The send numbered `n`, if it has not ended. -/
def pending (s : Cluster) (n : ℕ) : Option LockMessage :=
  (s.outbox.find? fun x => x.1 = n).map Prod.snd

/-- The outbox once the send numbered `n` has ended. -/
def sendEnded (s : Cluster) (n : ℕ) : List (ℕ × LockMessage) := s.outbox.filter fun x => x.1 ≠ n

/-- A grain is activated for a waiting call, and handles waiting calls. -/
def ready (s : Cluster) : SiloEvent → Prop
  | .activate key => ∃ call ∈ s.calls, call.key = key
  | .handle _ call => call ∈ s.calls
  | _ => True

instance (s : Cluster) (e : SiloEvent) : Decidable (s.ready e) :=
  match e with
  | .activate _ => inferInstanceAs (Decidable (∃ call ∈ s.calls, _))
  | .handle _ _ => inferInstanceAs (Decidable (_ ∈ s.calls))
  | .timer _ _ => inferInstanceAs (Decidable True)
  | .late _ _ _ => inferInstanceAs (Decidable True)
  | .deactivate _ => inferInstanceAs (Decidable True)
  | .change _ => inferInstanceAs (Decidable True)

/-- The calls that still wait after an event of the silo. -/
def remaining (s : Cluster) : SiloEvent → List GrainCall
  | .handle _ call => s.calls.erase call
  | _ => s.calls

/-- The send that an event of the silo starts. -/
def started (s : Cluster) (e : SiloEvent) : Option (ℕ × LockMessage) :=
  (s.silo.decided e).bind fun d => d.outcome.sent.map fun m => (s.silo.decisions.length, m)

def step (handler : JwtSecurityTokenHandler) (c : Collation) (s : Cluster) :
    ClusterEvent → Option Cluster
  | .connect session =>
    match handleValidatingConnectionAsync session.userName with
    | .success => some { s with sessions := s.sessions ++ [session] }
    | .badUserNameOrPassword => some s
  | .publish session topic payload =>
    if session ∈ s.sessions then
      some (s.present handler (.client session) (publishArgs session topic payload))
    else none
  | .post id user request =>
    some { s with calls := s.calls ++ (postAccessAsync id user request).toList }
  | .inject n => do
    let m ← s.pending n
    return { s with outbox := s.sendEnded n }.present handler (.server n) (injected m)
  | .sendFault n => do
    let _ ← s.pending n
    return { s with outbox := s.sendEnded n }
  | .silo e =>
    if s.ready e then do
      let silo ← s.silo.step c e
      return { s with
        silo := silo
        calls := s.remaining e
        outbox := s.outbox ++ (s.started e).toList }
    else none

end Cluster

/-- The service as a machine. -/
def cluster (handler : JwtSecurityTokenHandler) (c : Collation) : Machine Cluster ClusterEvent :=
  ⟨Cluster.step handler c⟩

/-! ## What a step does -/

namespace Cluster

variable {handler : JwtSecurityTokenHandler} {c : Collation} {s s' : Cluster}

theorem connect_eq_some {session : Session} (h : s.step handler c (.connect session) = some s') :
    (handleValidatingConnectionAsync session.userName = .success ∧
        s' = { s with sessions := s.sessions ++ [session] }) ∨ s' = s := by
  unfold step at h
  dsimp only at h
  cases hv : handleValidatingConnectionAsync session.userName with
  | success => rw [hv] at h; exact Or.inl ⟨rfl, (Option.some.inj h).symm⟩
  | badUserNameOrPassword => rw [hv] at h; exact Or.inr (Option.some.inj h).symm

theorem publish_eq_some {session : Session} {topic : String} {payload : List UInt8}
    (h : s.step handler c (.publish session topic payload) = some s') : session ∈ s.sessions ∧
      s' = s.present handler (.client session) (publishArgs session topic payload) := by
  unfold step at h
  dsimp only at h
  rw [Option.ite_none_right_eq_some] at h
  exact ⟨h.1, (Option.some.inj h.2).symm⟩

theorem post_eq_some {id : String} {user : List Claim} {request : LockAccessRequest}
    (h : s.step handler c (.post id user request) = some s') :
    s' = { s with calls := s.calls ++ (postAccessAsync id user request).toList } :=
  (Option.some.inj h).symm

theorem mem_outbox_of_pending {n : ℕ} {m : LockMessage} (h : s.pending n = some m) :
    (n, m) ∈ s.outbox := by
  unfold pending at h
  obtain ⟨⟨n', m'⟩, hfind, rfl⟩ := Option.map_eq_some_iff.mp h
  have hn := List.find?_some hfind
  obtain rfl : n' = n := of_decide_eq_true hn
  exact List.mem_of_find?_eq_some hfind

theorem inject_eq_some {n : ℕ} (h : s.step handler c (.inject n) = some s') :
    ∃ m, s.pending n = some m ∧
      s' = { s with outbox := s.sendEnded n }.present handler (.server n) (injected m) := by
  simp only [step, Option.bind_eq_bind, Option.pure_def, Option.bind_eq_some_iff] at h
  obtain ⟨m, hm, hs⟩ := h
  exact ⟨m, hm, (Option.some.inj hs).symm⟩

theorem sendFault_eq_some {n : ℕ} (h : s.step handler c (.sendFault n) = some s') :
    ∃ m, s.pending n = some m ∧ s' = { s with outbox := s.sendEnded n } := by
  simp only [step, Option.bind_eq_bind, Option.pure_def, Option.bind_eq_some_iff] at h
  obtain ⟨m, hm, hs⟩ := h
  exact ⟨m, hm, (Option.some.inj hs).symm⟩

theorem silo_eq_some {e : SiloEvent} (h : s.step handler c (.silo e) = some s') :
    s.ready e ∧ ∃ silo, s.silo.step c e = some silo ∧
      s' = { s with
        silo := silo
        calls := s.remaining e
        outbox := s.outbox ++ (s.started e).toList } := by
  unfold step at h
  dsimp only at h
  rw [Option.ite_none_right_eq_some] at h
  obtain ⟨hready, h⟩ := h
  simp only [Option.bind_eq_bind, Option.pure_def, Option.bind_eq_some_iff] at h
  obtain ⟨silo, hsilo, hs⟩ := h
  exact ⟨hready, silo, hsilo, (Option.some.inj hs).symm⟩

theorem silo_enabled {e : SiloEvent} (hready : s.ready e) {silo : Silo}
    (h : s.silo.step c e = some silo) : (cluster handler c).step s (.silo e) = some { s with
      silo := silo
      calls := s.remaining e
      outbox := s.outbox ++ (s.started e).toList } := by
  simp only [cluster, step, if_pos hready, h]
  rfl

theorem present_calls (origin : Origin) (arg : InterceptingPublishEventArgs) :
    (s.present handler origin arg).calls =
      s.calls ++ (handleInterceptingPublishAsync handler arg).call.toList := rfl

/-- The handler clears `ProcessPublish` for nobody, so every publish is delivered. -/
theorem present_delivered {origin : Origin} {arg : InterceptingPublishEventArgs}
    (h : arg.processPublish = true) : (s.present handler origin arg).delivered =
      s.delivered ++ [⟨arg.topic, arg.payload, origin⟩] := by
  unfold present
  dsimp only
  rw [handleInterceptingPublishAsync_processPublish, h, if_pos rfl]

/-! ## The calls -/

/-- The call that an event makes. -/
def made (handler : JwtSecurityTokenHandler) : ClusterEvent → Option GrainCall
  | .publish session topic payload =>
    (handleInterceptingPublishAsync handler (publishArgs session topic payload)).call
  | .post id user request => postAccessAsync id user request
  | _ => none

theorem made_publish_eq_some {session : Session} {topic : String} {payload : List UInt8}
    {call : GrainCall} (h : made handler (.publish session topic payload) = some call) :
    ∃ lockId, Guid.tryParse session.clientId = some lockId ∧ call.key = lockId.toString := by
  rw [made, handleInterceptingPublishAsync_call] at h
  obtain ⟨lockId, hid, hcall⟩ := Option.bind_eq_some_iff.mp h
  obtain ⟨token, -, rfl⟩ := Option.map_eq_some_iff.mp hcall
  exact ⟨lockId, hid, rfl⟩

theorem made_post_eq_some {id : String} {user : List Claim} {request : LockAccessRequest}
    {call : GrainCall} (h : made handler (.post id user request) = some call) :
    modelStateIsValid id request = true ∧ call.key = id := by
  simp only [made, postAccessAsync, Option.ite_none_right_eq_some, Option.some.injEq] at h
  obtain ⟨hvalid, rfl⟩ := h
  exact ⟨hvalid, rfl⟩

/-- The calls that an event leaves waiting. -/
def waiting (s : Cluster) : ClusterEvent → List GrainCall
  | .silo e => s.remaining e
  | _ => s.calls

theorem remaining_subset (e : SiloEvent) : s.remaining e ⊆ s.calls := by
  cases e with
  | handle utcNow call => exact List.erase_subset
  | activate | timer | late | deactivate | change => exact List.Subset.refl _

theorem waiting_subset (e : ClusterEvent) : s.waiting e ⊆ s.calls := by
  cases e with
  | silo e => exact remaining_subset e
  | connect | publish | post | inject | sendFault => exact List.Subset.refl _

/-- Only posts and publishes make calls; an injected message makes none. -/
theorem step_calls {e : ClusterEvent} (h : s.step handler c e = some s') :
    s'.calls = s.waiting e ++ (made handler e).toList := by
  cases e with
  | connect session =>
    obtain ⟨-, rfl⟩ | rfl := connect_eq_some h <;> exact (List.append_nil _).symm
  | publish session topic payload =>
    obtain ⟨-, rfl⟩ := publish_eq_some h
    rfl
  | post id user request =>
    obtain rfl := post_eq_some h
    rfl
  | inject n =>
    obtain ⟨m, -, rfl⟩ := inject_eq_some h
    rw [present_calls, injected_call]
    rfl
  | sendFault n =>
    obtain ⟨m, -, rfl⟩ := sendFault_eq_some h
    exact (List.append_nil _).symm
  | silo e =>
    obtain ⟨-, silo, -, rfl⟩ := silo_eq_some h
    exact (List.append_nil _).symm

/-! ## The sessions -/

/-- The session that an event admits. -/
def admitted : ClusterEvent → Option Session
  | .connect session =>
    match handleValidatingConnectionAsync session.userName with
    | .success => some session
    | .badUserNameOrPassword => none
  | _ => none

theorem step_sessions {e : ClusterEvent} (h : s.step handler c e = some s') :
    s'.sessions = s.sessions ++ (admitted e).toList := by
  cases e with
  | connect session =>
    simp only [step, admitted] at h ⊢
    cases hv : handleValidatingConnectionAsync session.userName with
    | success =>
      rw [hv] at h
      rw [← Option.some.inj h]
      rfl
    | badUserNameOrPassword =>
      rw [hv] at h
      rw [← Option.some.inj h]
      exact (List.append_nil _).symm
  | publish session topic payload =>
    obtain ⟨-, rfl⟩ := publish_eq_some h
    exact (List.append_nil _).symm
  | post id user request =>
    obtain rfl := post_eq_some h
    exact (List.append_nil _).symm
  | inject n =>
    obtain ⟨m, -, rfl⟩ := inject_eq_some h
    exact (List.append_nil _).symm
  | sendFault n =>
    obtain ⟨m, -, rfl⟩ := sendFault_eq_some h
    exact (List.append_nil _).symm
  | silo e =>
    obtain ⟨-, silo, -, rfl⟩ := silo_eq_some h
    exact (List.append_nil _).symm

theorem run_sessions {db : SmartLockDb} {es : List ClusterEvent}
    (h : (cluster handler c).run (init db) es = some s) {session : Session}
    (hs : session ∈ s.sessions) : .connect session ∈ es ∧
      handleValidatingConnectionAsync session.userName = .success := by
  have hlog : ∀ s e s', (cluster handler c).step s e = some s' →
      s'.sessions = s.sessions ++ (admitted e).toList := fun _ _ _ hstep => step_sessions hstep
  obtain hnil | ⟨_, e, _, _, rfl, _, hgain⟩ := Machine.mem_history hlog h hs
  · cases hnil
  · cases e with
    | connect session' =>
      simp only [admitted] at hgain
      cases hv : handleValidatingConnectionAsync session'.userName with
      | success =>
        rw [hv] at hgain
        obtain rfl : session' = session := Option.some.inj hgain
        exact ⟨by simp, hv⟩
      | badUserNameOrPassword =>
        rw [hv] at hgain
        cases hgain
    | publish | post | inject | sendFault | silo => cases hgain

/-- A run that goes on with a publish of a session, when the call of the publish is known. -/
theorem run_publish {session : Session} {topic : String} {payload : List UInt8} {call : GrainCall}
    (hcall : made handler (.publish session topic payload) = some call) (es : List ClusterEvent) :
    (cluster handler c).run s (.publish session topic payload :: es) =
      if session ∈ s.sessions then
        (cluster handler c).run { s with
          calls := s.calls ++ [call]
          delivered := s.delivered ++ [⟨topic, payload, .client session⟩] } es
      else none := by
  have hpresent : s.present handler (.client session) (publishArgs session topic payload) =
      { s with
        calls := s.calls ++ [call]
        delivered := s.delivered ++ [⟨topic, payload, .client session⟩] } := by
    have hdelivered : (s.present handler (.client session)
        (publishArgs session topic payload)).delivered = _ := present_delivered rfl
    rw [made] at hcall
    unfold present at hdelivered ⊢
    dsimp only at hdelivered ⊢
    rw [hdelivered, hcall]
    rfl
  rw [Machine.run_cons, ← hpresent]
  show (if session ∈ s.sessions then _ else none).bind _ = _
  split_ifs <;> rfl

theorem connect_mem_of_publish {db : SmartLockDb} {pre post : List ClusterEvent}
    {session : Session} {topic : String} {payload : List UInt8}
    (h : (cluster handler c).run (init db) (pre ++ .publish session topic payload :: post) =
      some s) : .connect session ∈ pre ∧
      handleValidatingConnectionAsync session.userName = .success := by
  obtain ⟨m, hpre, hrest⟩ := (cluster handler c).run_append_eq_some.mp h
  obtain ⟨t, ht, -⟩ := (cluster handler c).run_cons_eq_some.mp hrest
  have hstep : m.step handler c (.publish session topic payload) = some t := ht
  exact run_sessions hpre (publish_eq_some hstep).1

/-! ## The silo inside -/

/-- The event of the silo in an event of the service. -/
def siloEvent : ClusterEvent → Option SiloEvent
  | .silo e => some e
  | _ => none

theorem projects_silo : Machine.Projects (cluster handler c) (SmartLock.silo c)
    (fun _ _ => True) Cluster.silo siloEvent := by
  rintro s e s' - (h : s.step handler c e = some s')
  cases e with
  | connect session =>
    obtain ⟨-, rfl⟩ | rfl := connect_eq_some h <;> rfl
  | publish session topic payload =>
    obtain ⟨-, rfl⟩ := publish_eq_some h
    rfl
  | post id user request =>
    obtain rfl := post_eq_some h
    rfl
  | inject n =>
    obtain ⟨m, -, rfl⟩ := inject_eq_some h
    rfl
  | sendFault n =>
    obtain ⟨m, -, rfl⟩ := sendFault_eq_some h
    rfl
  | silo e =>
    obtain ⟨-, silo, hsilo, rfl⟩ := silo_eq_some h
    exact hsilo

/-- The silo of a run of the service is in a run of its own. -/
theorem run_silo {es : List ClusterEvent} (h : (cluster handler c).run s es = some s') :
    (SmartLock.silo c).run s.silo (es.filterMap siloEvent) = some s'.silo :=
  Machine.run_project projects_silo (Machine.along_of_forall fun _ _ _ => trivial) h

/-! ## The employee at the entrance -/

/-- The employee's principal over HTTP. -/
def employeeUser : List Claim :=
  [⟨ClaimTypes.userData, DefaultData.employeeId⟩, ⟨ClaimTypes.role, DefaultData.employeeRoleName⟩]

/-- The employee's post to the lock `id`, for the employee. -/
def employeePost (id : String) : ClusterEvent := .post id employeeUser ⟨some DefaultData.employeeId⟩

/-- The call that it makes. -/
def employeeCall (id : String) : GrainCall :=
  ⟨id, some DefaultData.employeeId, [DefaultData.employeeRoleName], some DefaultData.employeeId⟩

example : postAccessAsync DefaultData.entranceLockId employeeUser ⟨some DefaultData.employeeId⟩ =
    some (employeeCall DefaultData.entranceLockId) := by decide +kernel

end Cluster

end SmartLock
