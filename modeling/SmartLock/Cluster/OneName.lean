import SmartLock.Cluster.Isolation

/-!
# One lock under its many names

A Guid has many accepted spellings. The publish handler prints the Guid again and addresses the
grain by that text, the controller addresses it by the route value as it stands, and the answer
goes to the topic of the row's id. The three agree exactly on the printed form
(`one_name_iff`): a lock that connects as `s` gets the answer of a publish and of a post on its
topic `s` only if `s` is what `Guid.ToString` prints, or there is no lock to answer for.
-/

namespace SmartLock

/-- Who asks, as the grain is told: the id and the roles. -/
def Decision.requester (d : Decision) : Option String × List String :=
  (d.request.requesterId, d.request.requesterRoles)

/-! ## Decisions on one lock -/

theorem Decision.result_congr {d₁ d₂ : Decision} (hlock : d₁.before.lock = d₂.before.lock)
    (hrequester : d₁.requester = d₂.requester) : d₁.outcome.result = d₂.outcome.result := by
  have hroles : d₁.request.requesterRoles = d₂.request.requesterRoles :=
    congrArg Prod.snd hrequester
  unfold outcome LockGrain.requestAccessAsync
  rw [hlock, hroles]
  cases d₂.before.lock <;> rfl

/-! ## The lock query on a spelling of a Guid -/

namespace SmartLockDb

variable {c : Collation} {db : SmartLockDb} {key : String} {g : Guid}

/-- Every lock has a printed Guid as its id. -/
def GuidLocks (db : SmartLockDb) : Prop := ∀ l ∈ db.locks, ∃ g : Guid, l.id = g.toString

instance (db : SmartLockDb) : Decidable db.GuidLocks :=
  decidable_of_iff (∀ l ∈ db.locks, (Guid.tryParse l.id).map Guid.toString = some l.id)
    (forall₂_congr fun _ _ => Guid.exists_eq_toString_iff.symm)

theorem id_of_findLock (hc : c.GuidsApart) (hids : db.GuidLocks) (hg : Guid.tryParse key = some g)
    {l : LockEntity} (h : db.findLock c key = some l) :
    l.id = g.toString ∧ ∃ row ∈ db.locks, row.id = g.toString := by
  have hspell := spelling_of_findLock h
  obtain ⟨row, hrow, rfl⟩ := Option.map_eq_some_iff.mp h
  have hmem := List.mem_of_find?_eq_some hrow
  obtain ⟨g', hg'⟩ := hids row hmem
  rw [hg', c.spelling_toString] at hspell
  rw [hc key g g' hg hspell.symm]
  exact ⟨hg', row, hmem, hg'⟩

theorem exists_findLock {row : LockRow} (hrow : row ∈ db.locks) (hid : row.id = g.toString) :
    ∃ l, db.findLock c g.toString = some l := by
  have hfind : (db.locks.find? fun l => c.same l.id g.toString).isSome = true := by
    rw [List.find?_isSome]
    refine ⟨row, hrow, ?_⟩
    rw [hid]
    exact Collation.same_iff.mpr rfl
  obtain ⟨r, hr⟩ := Option.isSome_iff_exists.mp hfind
  exact ⟨_, Option.map_eq_some_iff.mpr ⟨r, hr, rfl⟩⟩

theorem sent_of_findLock (hc : c.GuidsApart) (hids : db.GuidLocks) {row : LockRow}
    (hrow : row ∈ db.locks) (hid : row.id = g.toString) {d : Decision}
    (hlock : d.before.lock = db.findLock c g.toString) :
    d.outcome.sent = some ⟨g.toString, d.outcome.result⟩ := by
  obtain ⟨l, hl⟩ := exists_findLock (c := c) hrow hid
  have hsent := Decision.sent_of_lock (hlock.trans hl)
  rw [(id_of_findLock hc hids (Guid.tryParse_toString g) hl).1] at hsent
  exact hsent

theorem findLock_eq_none (hc : c.GuidsApart) (hids : db.GuidLocks)
    (hnone : ∀ l ∈ db.locks, l.id ≠ g.toString) (hg : Guid.tryParse key = some g) :
    db.findLock c key = none := by
  by_contra hfind
  obtain ⟨l, hl⟩ := Option.ne_none_iff_exists'.mp hfind
  obtain ⟨-, row, hrow, hid⟩ := id_of_findLock hc hids hg hl
  exact hnone row hrow hid

end SmartLockDb

namespace Cluster

open Silo SmartLockDb

variable {handler : JwtSecurityTokenHandler} {c : Collation} {s : Cluster}

/-- **One name.** Let a client whose id `s` is some text of a Guid publish a request, let a request
with the same identity be posted for `s`, and let both be handled in one run on fixed tables whose
lock ids are printed Guids. The decisions agree, and are sent on the topic `s` if the lock exists,
if and only if `s` is the printed form of its Guid or no lock has that Guid. -/
theorem one_name_iff (hc : c.GuidsApart) {db : SmartLockDb} (hids : db.GuidLocks)
    {es : List ClusterEvent} (hes : NoChange (es.filterMap siloEvent))
    (h : (cluster handler c).run (init db) es = some s) {session : Session} {topic : String}
    {payload : List UInt8} {user : List Claim} {request : LockAccessRequest} {g : Guid}
    (hg : Guid.tryParse session.clientId = some g) {d₁ d₂ : Decision}
    (hd₁ : d₁ ∈ s.silo.decisions)
    (hpublish : made handler (.publish session topic payload) = some d₁.call)
    (hd₂ : d₂ ∈ s.silo.decisions)
    (hpost : made handler (.post session.clientId user request) = some d₂.call)
    (hrequester : d₁.requester = d₂.requester) :
    (d₁.outcome.result = d₂.outcome.result ∧ ∀ l ∈ db.locks, l.id = g.toString →
        ∀ d ∈ [d₁, d₂], d.outcome.sent = some ⟨session.clientId, d.outcome.result⟩) ↔
      (session.clientId = g.toString ∨ ∀ l ∈ db.locks, l.id ≠ g.toString) := by
  have hkey₁ : d₁.key = g.toString := by
    obtain ⟨lockId, hid, hkey⟩ := made_publish_eq_some hpublish
    rw [Option.some.inj (hg.symm.trans hid)]
    exact hkey
  have hkey₂ : d₂.key = session.clientId := (made_post_eq_some hpost).2
  have hlock₁ : d₁.before.lock = db.findLock c g.toString := by
    rw [← hkey₁]
    exact (run_fixed hes (run_silo h)).decided hd₁
  have hlock₂ : d₂.before.lock = db.findLock c session.clientId := by
    rw [← hkey₂]
    exact (run_fixed hes (run_silo h)).decided hd₂
  constructor
  · rintro ⟨-, hsent⟩
    by_cases hlock : ∃ l ∈ db.locks, l.id = g.toString
    · obtain ⟨row, hrow, hid⟩ := hlock
      -- the publish is answered on the topic of the row's id
      have htopic := (hsent row hrow hid d₁ (by simp)).symm.trans
        (sent_of_findLock hc hids hrow hid hlock₁)
      injection htopic with hmessage
      injection hmessage with hname
      exact Or.inl hname
    · exact Or.inr fun l hl hid => hlock ⟨l, hl, hid⟩
  · rintro (hname | hnone)
    · rw [hname] at hlock₂ ⊢
      refine ⟨Decision.result_congr (hlock₁.trans hlock₂.symm) hrequester, ?_⟩
      intro row hrow hid d hd
      rcases List.mem_pair.mp hd with rfl | rfl
      · exact sent_of_findLock hc hids hrow hid hlock₁
      · exact sent_of_findLock hc hids hrow hid hlock₂
    · have hnone₁ := findLock_eq_none hc hids hnone (Guid.tryParse_toString g)
      have hnone₂ := findLock_eq_none hc hids hnone hg
      have hlock : d₁.before.lock = d₂.before.lock := by
        rw [hlock₁, hlock₂, hnone₁, hnone₂]
      exact ⟨Decision.result_congr hlock hrequester,
        fun row hrow hid => absurd hid (hnone row hrow)⟩

/-- The principal of a token that names the manager's role and nobody. -/
def managerUser : List Claim := [⟨ClaimTypes.role, DefaultData.managerRoleName⟩]

/-- A client connects as `id` and publishes that token, and the same principal posts for `id`. -/
def askTwice (id : String) : List ClusterEvent :=
  let session : Session := ⟨some DefaultData.entranceLockId, id⟩
  [.connect session, .publish session "requests" unsignedPublish.payload,
    .post id managerUser ⟨some DefaultData.employeeId⟩]

/-- The decision for the publish. -/
def publishDecision : Decision :=
  ⟨DefaultData.entranceLockId, 1, ⟨none, [DefaultData.managerRoleName], none⟩,
    ⟨some DefaultData.entranceLock, []⟩⟩

/-- The decision for the post to the grain `id`, given what the grain is. -/
def postDecision (id : String) (before : LockGrain) : Decision :=
  ⟨id, 2, ⟨none, [DefaultData.managerRoleName], some DefaultData.employeeId⟩, before⟩

theorem one_name_entrance :
    let id := DefaultData.entranceLockId
    let d₂ := postDecision id publishDecision.outcome.grain
    ∃ s, (cluster unsignedHandler .sqlServerDefault).run (init DefaultData.seededDb)
        (askTwice id ++ [.silo (.activate id), .silo (.handle 1 publishDecision.call),
          .silo (.handle 2 d₂.call)]) = some s ∧
      s.silo.decisions = [publishDecision, d₂] ∧
      publishDecision.outcome.result = d₂.outcome.result ∧
      ∀ d ∈ [publishDecision, d₂], d.outcome.sent = some ⟨id, d.outcome.result⟩ := by
  intro id d₂
  let session : Session := ⟨some DefaultData.entranceLockId, id⟩
  obtain ⟨s, h, hdec⟩ : ∃ s, (cluster unsignedHandler .sqlServerDefault).run
      (init DefaultData.seededDb)
      (askTwice id ++ [.silo (.activate id), .silo (.handle 1 publishDecision.call),
        .silo (.handle 2 d₂.call)]) = some s ∧ s.silo.decisions = [publishDecision, d₂] :=
    Machine.exists_run_of_any (by decide +kernel)
  obtain ⟨g, hname⟩ : ∃ g : Guid, id = g.toString :=
    Guid.exists_eq_toString_iff.mpr (by decide +kernel)
  have hg : Guid.tryParse session.clientId = some g := by
    rw [show session.clientId = g.toString from hname, Guid.tryParse_toString]
  have hd₁ : publishDecision ∈ s.silo.decisions := by rw [hdec]; simp
  have hd₂ : d₂ ∈ s.silo.decisions := by rw [hdec]; simp
  have hpublish : made unsignedHandler (.publish session "requests" unsignedPublish.payload) =
      some publishDecision.call := by decide +kernel
  have hpost : made unsignedHandler (.post session.clientId managerUser
      ⟨some DefaultData.employeeId⟩) = some d₂.call := by decide +kernel
  obtain ⟨hsame, hsent⟩ := (one_name_iff Collation.sqlServerDefault_guidsApart (by decide +kernel)
    (by decide +kernel) h hg hd₁ hpublish hd₂ hpost rfl).mpr (Or.inl hname)
  exact ⟨s, h, hdec, hsame, hsent ⟨id, "Entrance Lock"⟩ (by decide) hname⟩

/-- The entrance lock under its name in braces: the publish is granted and answered on the topic of
the printed name, where nobody who connects as `id` listens, and the post is denied. -/
theorem braces_are_another_name :
    let id := "{1d0579fa-5dc4-4e6a-aea0-503b417b33ca}"
    let session : Session := ⟨some DefaultData.entranceLockId, id⟩
    let d₂ := postDecision id ⟨none, []⟩
    ∃ s, (cluster unsignedHandler .sqlServerDefault).run (init DefaultData.seededDb)
        (askTwice id ++ [.silo (.activate DefaultData.entranceLockId), .silo (.activate id),
          .silo (.handle 1 publishDecision.call), .silo (.handle 2 d₂.call)]) = some s ∧
      s.silo.decisions = [publishDecision, d₂] ∧
      made unsignedHandler (.publish session "requests" unsignedPublish.payload) =
        some publishDecision.call ∧
      made unsignedHandler (.post id managerUser ⟨some DefaultData.employeeId⟩) = some d₂.call ∧
      publishDecision.requester = d₂.requester ∧
      (Guid.tryParse id).map Guid.toString = some DefaultData.entranceLockId ∧
      publishDecision.outcome.sent = some ⟨DefaultData.entranceLockId, ⟨.granted⟩⟩ ∧
      d₂.outcome.result = ⟨.denied⟩ ∧ d₂.outcome.sent = none :=
  Machine.exists_run_of_any (by decide +kernel)

end Cluster

end SmartLock
