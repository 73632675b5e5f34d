import SmartLock.Cluster.Backlog
import SmartLock.Cluster.Conservation
import SmartLock.Cluster.Deletions
import SmartLock.WebApi.HistoryPages

/-!
# The history that is served

`GetHistoryAsync` on the tables of a running service. Every entry it returns was there at the start
or tells of one decision, and that decision of one post or publish (`served_history`). A reader who
goes through the pages while the grains save gets the history as it stands at the last page
(`pages_while_saving`). From consistent tables no row is hidden by a missing user
(`history_complete`).
-/

namespace SmartLock

/-! ## Where the rows come from -/

theorem DbChange.lockAccesses_subset {c : Collation} {db db' : SmartLockDb} {ch : DbChange}
    (h : ch.apply c db = some db') : db'.lockAccesses ⊆ db.lockAccesses := by
  cases ch with
  | deleteUser userId =>
    unfold apply at h
    rw [Option.ite_none_left_eq_some] at h
    rw [← Option.some.inj h.2]
    exact List.filter_sublist.subset
  | deleteLock lockId =>
    rw [← Option.some.inj h]
    exact List.filter_sublist.subset
  | unlinkRole | deleteRole =>
    rw [← Option.some.inj h]
    exact List.Subset.refl _
  | linkRole lockId roleId =>
    unfold apply at h
    rw [Option.ite_none_right_eq_some] at h
    rw [← Option.some.inj h.2]
    exact List.Subset.refl _
  | createRole | renameRole | createLock | createUser | renameUser =>
    unfold apply at h
    rw [Option.ite_none_left_eq_some] at h
    rw [← Option.some.inj h.2]
    exact List.Subset.refl _

namespace Silo

variable {c : Collation} {db : SmartLockDb} {s s' : Silo}

/-- Every row was there at the start or was saved. -/
def RowsSaved (db : SmartLockDb) (s : Silo) : Prop :=
  ∀ r ∈ s.db.lockAccesses, r ∈ db.lockAccesses ∨ ∃ key batch, (key, batch) ∈ s.batches ∧ r ∈ batch

theorem RowsSaved.step (hs : RowsSaved db s) {e : SiloEvent} (h : s.step c e = some s') :
    RowsSaved db s' := by
  have hold : ∀ r ∈ s.db.lockAccesses, r ∈ db.lockAccesses ∨
      ∃ key batch, (key, batch) ∈ s'.batches ∧ r ∈ batch := by
    intro r hr
    rcases hs r hr with hr | ⟨key, batch, hbatch, hr⟩
    · exact Or.inl hr
    · rw [step_batches h]
      exact Or.inr ⟨key, batch, List.mem_append_left _ hbatch, hr⟩
  intro r hr
  obtain ⟨ch, -, hch⟩ | hdb := db_cases h
  · exact hold r (DbChange.lockAccesses_subset hch hr)
  · rw [hdb] at hr
    rcases List.mem_append.mp hr with hr | hr
    · exact hold r hr
    · cases hsaved : s.saved e with
      | none =>
        rw [hsaved] at hr
        cases hr
      | some x =>
        obtain ⟨key, batch⟩ := x
        rw [hsaved, Option.map_some, Option.toList_some, List.flatten_singleton] at hr
        refine Or.inr ⟨key, batch, ?_, hr⟩
        rw [step_batches h, hsaved]
        exact List.mem_append_right _ (List.mem_singleton_self _)

theorem run_rowsSaved {es : List SiloEvent} (h : (silo c).run (init db) es = some s) :
    RowsSaved db s :=
  Machine.run_invariant (I := RowsSaved db) (fun _ _ _ hs hstep => hs.step hstep)
    (fun _ hr => Or.inl hr) h

end Silo

/-! ## What an entry tells -/

/-- An entry of the history tells of a decision, with the names that the users of `db` have. -/
structure Decision.ToldBy (c : Collation) (db : SmartLockDb) (d : Decision)
    (x : LockAccessHistoryDto) : Prop where
  date : x.accessDate = d.utcNow
  result : x.accessResult = d.outcome.result.accessResult
  requester : ∃ id u, d.request.requesterId = some id ∧ db.findUser c id = some u ∧
    x.requesterName = u.fullName
  employee : x.requestForEmployeeName =
    (d.request.requestForEmployeeId.bind (db.findUser c)).map UserEntity.fullName

theorem Decision.toldBy_of_record {c : Collation} {db : SmartLockDb} {d : Decision}
    {r : LockAccessHistoryEntity} {x : LockAccessHistoryDto} (hr : d.record = some r)
    (hx : db.historyDto c r = some x) : d.ToldBy c db x := by
  unfold Decision.record LockGrain.record at hr
  obtain ⟨l, hl, rfl⟩ := Option.map_eq_some_iff.mp hr
  unfold SmartLockDb.historyDto at hx
  obtain ⟨u, hu, rfl⟩ := Option.map_eq_some_iff.mp hx
  obtain ⟨id, hid, hu⟩ := Option.bind_eq_some_iff.mp hu
  refine ⟨rfl, ?_, ⟨id, u, hid, hu, rfl⟩, rfl⟩
  show l.hasAccess d.request.requesterRoles = (d.before.requestAccessAsync _ _).result.accessResult
  rw [LockGrain.requestAccessAsync_result, hl]

/-- An entry of a page is made of a row of its lock. -/
theorem exists_row_of_mem_history {c : Collation} {db : SmartLockDb} {scan : Enumeration}
    {id : String} {page size : Int32} {entries : List LockAccessHistoryDto}
    (h : getHistoryAsync c db scan id page size = some entries) {x : LockAccessHistoryDto}
    (hx : x ∈ entries) : ∃ r ∈ db.lockAccesses, c.spelling r.lockId = c.spelling id ∧
      db.historyDto c r = some x := by
  unfold getHistoryAsync getLockAccessesAsync offsetFetch at h
  obtain ⟨rows, hrows, rfl⟩ := Option.map_eq_some_iff.mp h
  rw [Option.ite_none_left_eq_some] at hrows
  obtain ⟨r, hr, hx⟩ := List.mem_filterMap.mp hx
  rw [← Option.some.inj hrows.2] at hr
  have hscan := (scan.perm _).subset (List.mem_of_mem_drop (List.mem_of_mem_take hr))
  obtain ⟨hmem, hsame⟩ := List.mem_filter.mp hscan
  exact ⟨r, hmem, Collation.same_iff.mp hsame, hx⟩

namespace Cluster

variable {handler : JwtSecurityTokenHandler} {c : Collation} {s : Cluster}

theorem made_of_decision {db : SmartLockDb} {es : List ClusterEvent}
    (h : (cluster handler c).run (init db) es = some s) {d : Decision}
    (hd : d ∈ s.silo.decisions) : ∃ e ∈ es, made handler e = some d.call := by
  rw [← List.mem_filterMap, ← (run_asked h).mem_iff]
  exact List.mem_append_left _ (List.mem_map_of_mem hd)

/-- **Every entry served is true.** In every state of every run, whatever order the query reads in:
an entry of the history of a lock was made of a row that was there at the start, or it tells of a
decision of a grain with that lock, which answered a post or a publish of the run. -/
theorem served_history {db : SmartLockDb} {es : List ClusterEvent}
    (h : (cluster handler c).run (init db) es = some s) {scan : Enumeration} {id : String}
    {page size : Int32} {entries : List LockAccessHistoryDto}
    (hget : getHistoryAsync c s.silo.db scan id page size = some entries) :
    ∀ x ∈ entries,
      (∃ r ∈ db.lockAccesses, c.spelling r.lockId = c.spelling id ∧
        s.silo.db.historyDto c r = some x) ∨
      ∃ d ∈ s.silo.decisions, d.ToldBy c s.silo.db x ∧
        (∃ l, d.before.lock = some l ∧ c.spelling l.id = c.spelling id) ∧
        c.spelling d.key = c.spelling id ∧ ∃ e ∈ es, made handler e = some d.call := by
  intro x hx
  have hsilo := run_silo h
  have hrec := Silo.run_recorded hsilo
  obtain ⟨r, hr, hid, hdto⟩ := exists_row_of_mem_history hget hx
  rcases Silo.run_rowsSaved hsilo r hr with hr | ⟨key, batch, hbatch, hr⟩
  · exact Or.inl ⟨r, hr, hid, hdto⟩
  · right
    obtain ⟨d, hd, rfl, hrecord⟩ := hrec.of_mem_batch hbatch hr
    obtain ⟨l, hl, rfl⟩ := Option.map_eq_some_iff.mp hrecord
    have hkey : c.spelling l.id = c.spelling d.key := by
      refine hrec.spelled _ _ ?_
      rw [← hl]
      exact hrec.decided d hd
    exact ⟨d, hd, Decision.toldBy_of_record hrecord hdto, ⟨l, hl, hid⟩, hkey.symm.trans hid,
      made_of_decision h hd⟩

theorem served_history_employee :
    let key := DefaultData.entranceLockId
    let es : List ClusterEvent := [employeePost key, .silo (.activate key),
      .silo (.handle 2 (employeeCall key)), .silo (.timer key .tick), .silo (.timer key .commit)]
    ∃ s : Cluster, ∃ d ∈ s.silo.decisions,
      (cluster unsignedHandler .sqlServerDefault).run (init DefaultData.seededDb) es = some s ∧
      d.ToldBy .sqlServerDefault s.silo.db ⟨2, .granted, "Jill Doe", some "Jill Doe"⟩ ∧
      ∃ e ∈ es, made unsignedHandler e = some d.call := by
  intro key es
  obtain ⟨s, hs, hget⟩ : ∃ s, (cluster unsignedHandler .sqlServerDefault).run
      (init DefaultData.seededDb) es = some s ∧
      getHistoryAsync .sqlServerDefault s.silo.db .asStored key 1 10 =
        some [⟨2, .granted, "Jill Doe", some "Jill Doe"⟩] :=
    Machine.exists_run_of_any (by decide +kernel)
  obtain ⟨r, hr, -⟩ | ⟨d, hd, htold, -, -, hmade⟩ :=
    served_history hs hget _ (List.mem_singleton_self _)
  · cases hr
  · exact ⟨s, d, hd, hs, htold, hmade⟩

end Cluster

/-! ## No row is hidden -/

/-- The entry of a row: what the row says, with the names of the users that it refers to. -/
structure Shows (c : Collation) (db : SmartLockDb) (r : LockAccessHistoryEntity)
    (x : LockAccessHistoryDto) : Prop where
  date : x.accessDate = r.accessDate
  result : x.accessResult = r.accessResult
  requester : ∃ id u, r.requesterId = some id ∧ db.findUser c id = some u ∧
    x.requesterName = u.fullName
  employee : match r.requestForEmployeeId with
    | none => x.requestForEmployeeName = none
    | some id => ∃ u, db.findUser c id = some u ∧ x.requestForEmployeeName = some u.fullName

namespace SmartLockDb

variable {c : Collation} {db : SmartLockDb}

theorem exists_findUser {id : String} (h : db.hasUser c id = true) :
    ∃ u, db.findUser c id = some u := by
  obtain ⟨u, hu, hsame⟩ := List.any_eq_true.mp h
  exact Option.isSome_iff_exists.mp (List.find?_isSome.mpr ⟨u, hu, hsame⟩)

theorem exists_shows {r : LockAccessHistoryEntity} (h : db.satisfiesConstraints c r = true) :
    ∃ x, db.historyDto c r = some x ∧ Shows c db r x := by
  obtain ⟨-, ⟨id, hid, huser⟩, hemployee⟩ := satisfiesConstraints_iff.mp h
  obtain ⟨u, hu⟩ := exists_findUser huser
  refine ⟨_, by rw [historyDto, hid, Option.bind_some, hu, Option.map_some], rfl, rfl,
    ⟨id, u, hid, hu, rfl⟩, ?_⟩
  cases he : r.requestForEmployeeId with
  | none => rfl
  | some employeeId =>
    obtain ⟨v, hv⟩ := exists_findUser (hemployee employeeId he)
    refine ⟨v, hv, ?_⟩
    simp only [Option.bind_some, hv, Option.map_some]

end SmartLockDb

namespace Cluster

variable {handler : JwtSecurityTokenHandler} {c : Collation} {s : Cluster}

/-- **No row is hidden.** From tables that keep the declared constraints, whatever is decided and
saved and whatever changes of `DbChange` are committed: the tables keep them, and a page of a history
whose offset fits 31 bits, in whatever order it is read, has one entry for each of its rows, with the
names of the requester and of the employee. -/
theorem history_complete {db : SmartLockDb} (hdb : db.Consistent c) {es : List ClusterEvent}
    (h : (cluster handler c).run (init db) es = some s) (scan : Enumeration) (id : String)
    {page size : Int32} (hfits : ((normalPage page).toInt - 1) * (normalSize size).toInt < 2 ^ 31) :
    s.silo.db.Consistent c ∧ ∃ entries,
      getHistoryAsync c s.silo.db scan id page size = some entries ∧
      List.Forall₂ (Shows c s.silo.db)
        (Pages.page (scan.order (s.silo.db.accessesOf c id)) (normalSize size).toInt.toNat
          ((normalPage page).toInt.toNat - 1)) entries := by
  have hcons : s.silo.db.Consistent c := Silo.run_consistent hdb (run_silo h)
  refine ⟨hcons, _, getHistoryAsync_of_fits hfits, Pages.forall₂_filterMap fun r hr => ?_⟩
  have hmem := (scan.perm _).subset (Pages.page_subset _ _ _ hr)
  exact SmartLockDb.exists_shows (hcons.lockAccesses r (List.mem_of_mem_filter hmem))

theorem history_complete_manager :
    let key := DefaultData.entranceLockId
    let grant : LockAccessHistoryEntity :=
      .create key (some DefaultData.managerId) .granted none 1
    let db : SmartLockDb := { DefaultData.seededDb with lockAccesses := [grant] }
    ∃ s entries, (cluster unsignedHandler .sqlServerDefault).run (init db)
        [employeePost key, .silo (.activate key), .silo (.handle 2 (employeeCall key)),
          .silo (.timer key .tick), .silo (.timer key .commit)] = some s ∧
      getHistoryAsync .sqlServerDefault s.silo.db .asStored key 1 10 = some entries ∧
      List.Forall₂ (Shows .sqlServerDefault s.silo.db) [grant, employeeRecord] entries := by
  intro key grant db
  have hdb : db.Consistent .sqlServerDefault := by
    refine { DefaultData.seededDb_consistent with lockAccesses := ?_ }
    intro r hr
    rw [List.mem_singleton.mp hr]
    decide +kernel
  obtain ⟨s, hs, hrows⟩ : ∃ s, (cluster unsignedHandler .sqlServerDefault).run (init db)
      [employeePost key, .silo (.activate key), .silo (.handle 2 (employeeCall key)),
        .silo (.timer key .tick), .silo (.timer key .commit)] = some s ∧
      s.silo.db.accessesOf .sqlServerDefault key = [grant, employeeRecord] :=
    Machine.exists_run_of_any (by decide +kernel)
  have hfits : ((normalPage 1).toInt - 1) * (normalSize 10).toInt < 2 ^ 31 := by decide
  obtain ⟨-, entries, hget, hshows⟩ := history_complete hdb hs .asStored key hfits
  refine ⟨s, entries, hs, hget, ?_⟩
  rw [hrows] at hshows
  exact hshows

end Cluster

/-! ## Reading while the grains save -/

namespace Silo

variable {c : Collation} {s s' : Silo}

theorem run_grows {es : List SiloEvent} (hes : NoChange es) (h : (silo c).run s es = some s') :
    s.db.lockAccesses <+: s'.db.lockAccesses ∧ s'.db.users = s.db.users :=
  Machine.run_induction_of_forall (P := fun e : SiloEvent => e.isChange = false)
    (I := fun t : Silo => s.db.lockAccesses <+: t.db.lockAccesses ∧ t.db.users = s.db.users)
    (fun t e t' ⟨hrows, husers⟩ he hstep => by
      rw [step_db hstep he]
      exact ⟨hrows.trans (List.prefix_append _ _), husers⟩)
    ⟨List.prefix_rfl, rfl⟩ hes h

end Silo

theorem SmartLockDb.historyDto_of_users {c : Collation} {db db' : SmartLockDb}
    (h : db'.users = db.users) : db'.historyDto c = db.historyDto c := by
  funext r
  unfold historyDto findUser
  rw [h]

/-- The page after `k` pages, when the rows in front of it can be counted in 31 bits. -/
theorem getHistoryAsync_ofNat {c : Collation} {db : SmartLockDb} {id : String} {size : Int32}
    (h10 : 10 ≤ size.toInt) (h100 : size.toInt ≤ 100) {k : ℕ} (hk : k * size.toInt.toNat < 2 ^ 31)
    (scan : Enumeration) : getHistoryAsync c db scan id (Int32.ofNat (k + 1)) size =
      some ((Pages.page (scan.order (db.accessesOf c id)) size.toInt.toNat k).filterMap
        (db.historyDto c)) := by
  have hmul := Nat.mul_le_mul_left k (show 10 ≤ size.toInt.toNat by omega)
  have hpage : (Int32.ofNat (k + 1)).toInt = (k + 1 : ℕ) := Int32.toInt_ofNat_of_lt (by omega)
  have hfits : ((Int32.ofNat (k + 1)).toInt - 1) * size.toInt < 2 ^ 31 := by
    calc ((Int32.ofNat (k + 1)).toInt - 1) * size.toInt
      _ = (k : ℤ) * (size.toInt.toNat : ℤ) := by
        rw [hpage, Int.toNat_of_nonneg (by omega), Nat.cast_succ, Int.add_sub_cancel]
      _ < 2 ^ 31 := by exact_mod_cast hk
  rw [getHistoryAsync_page h10 h100 (by omega) hfits, hpage, Int.toNat_natCast, Nat.add_sub_cancel]

namespace Cluster

variable {handler : JwtSecurityTokenHandler} {c : Collation}

/-- **Reading page by page while the grains save.** Between the pages anything may happen but a
change of the other tables. If the rows are read as they are stored and every page but the last is
full, the pages are the front of the history as it stands at the last one, each entry once; if the
last is not full, they are all of it. -/
theorem pages_while_saving {states : ℕ → Cluster} {events : ℕ → List ClusterEvent} {m : ℕ}
    (hruns : ∀ k < m, (cluster handler c).run (states k) (events k) = some (states (k + 1)))
    (hsaves : ∀ k < m, Silo.NoChange ((events k).filterMap siloEvent))
    {id : String} {size : Int32} (h10 : 10 ≤ size.toInt) (h100 : size.toInt ≤ 100)
    (hfits : m * size.toInt.toNat < 2 ^ 31) {results : ℕ → List LockAccessHistoryDto}
    (hresults : ∀ k ≤ m, getHistoryAsync c (states k).silo.db .asStored id
      (Int32.ofNat (k + 1)) size = some (results k))
    (hfull : ∀ k < m, (results k).length = size.toInt.toNat) :
    let db := (states m).silo.db
    ((List.range (m + 1)).map results).flatten =
        ((db.accessesOf c id).take ((m + 1) * size.toInt.toNat)).filterMap (db.historyDto c) ∧
      (db.Consistent c → (results m).length < size.toInt.toNat →
        ((List.range (m + 1)).map results).flatten =
          (db.accessesOf c id).filterMap (db.historyDto c)) := by
  intro db
  let rows : ℕ → List LockAccessHistoryEntity := fun k => (states k).silo.db.accessesOf c id
  have hgrow : ∀ k < m, rows k <+: rows (k + 1) ∧
      (states (k + 1)).silo.db.users = (states k).silo.db.users := by
    intro k hk
    obtain ⟨hrows, husers⟩ := Silo.run_grows (hsaves k hk) (run_silo (hruns k hk))
    exact ⟨hrows.filter _, husers⟩
  have husers : ∀ k ≤ m, (states k).silo.db.users = (states 0).silo.db.users := by
    intro k hk
    induction k with
    | zero => rfl
    | succ k ih => rw [(hgrow k hk).2, ih (Nat.le_of_succ_le hk)]
  -- every page is made with the names of the last one
  have hpage : ∀ k ≤ m, results k =
      (Pages.page (rows k) size.toInt.toNat k).filterMap (db.historyDto c) := by
    intro k hk
    have hk' : k * size.toInt.toNat < 2 ^ 31 := (Nat.mul_le_mul_right _ hk).trans_lt hfits
    have hget := (getHistoryAsync_ofNat h10 h100 hk' .asStored).symm.trans (hresults k hk)
    rw [← Option.some.inj hget, SmartLockDb.historyDto_of_users
      ((husers k hk).trans (husers m (Nat.le_refl m)).symm)]
    rfl
  have hlong : ∀ k < m, (Pages.page (rows k) size.toInt.toNat k).length = size.toInt.toNat := by
    intro k hk
    have hlen := hfull k hk
    rw [hpage k (Nat.le_of_lt hk)] at hlen
    have hle := List.length_filterMap_le (db.historyDto c) (Pages.page (rows k) size.toInt.toNat k)
    have hmin := Pages.length_page (rows k) size.toInt.toNat k
    omega
  have hfront : ((List.range (m + 1)).map results).flatten =
      ((rows m).take ((m + 1) * size.toInt.toNat)).filterMap (db.historyDto c) := by
    rw [← Pages.flatten_pages_of_growing (fun k hk => (hgrow k hk).1) hlong,
      List.filterMap_flatten, List.map_map]
    refine congrArg List.flatten (List.map_congr_left fun k hk => ?_)
    exact hpage k (Nat.le_of_lt_succ (List.mem_range.mp hk))
  refine ⟨hfront, fun hdb hlast => ?_⟩
  rw [hfront, List.take_of_length_le]
  have hsome : ∀ r ∈ Pages.page (rows m) size.toInt.toNat m, (db.historyDto c r).isSome := by
    intro r hr
    have hmem : r ∈ db.accessesOf c id := Pages.page_subset _ _ _ hr
    exact historyDto_isSome hdb hmem
  have hlen := congrArg List.length (Pages.map_some_filterMap hsome)
  rw [List.length_map, List.length_map, ← hpage m (Nat.le_refl m), Pages.length_page] at hlen
  rw [Nat.succ_mul]
  omega

/-- Eleven records, and a twelfth that is saved between the two pages of ten. -/
theorem pages_while_saving_eleven :
    let key := DefaultData.entranceLockId
    let history (s : Cluster) (page : Int32) :=
      getHistoryAsync .sqlServerDefault s.silo.db .asStored key page 10
    ∃ (s : Cluster) (first last : List LockAccessHistoryDto),
      (cluster unsignedHandler .sqlServerDefault).run (init elevenDb)
        [employeePost key, .silo (.activate key), .silo (.handle 2 (employeeCall key)),
          .silo (.timer key .tick), .silo (.timer key .commit)] = some s ∧
      history (init elevenDb) 1 = some first ∧ history s 2 = some last ∧
      (s.silo.db.accessesOf .sqlServerDefault key).length = 12 ∧
      first ++ last = (s.silo.db.accessesOf .sqlServerDefault key).filterMap
        (s.silo.db.historyDto .sqlServerDefault) := by
  intro key history
  obtain ⟨s, hs, hlast, hlen⟩ : ∃ s, (cluster unsignedHandler .sqlServerDefault).run
      (init elevenDb) [employeePost key, .silo (.activate key),
        .silo (.handle 2 (employeeCall key)), .silo (.timer key .tick),
        .silo (.timer key .commit)] = some s ∧
      (history s 2).map List.length = some 2 ∧
      (s.silo.db.accessesOf .sqlServerDefault key).length = 12 :=
    Machine.exists_run_of_any (by decide +kernel)
  have hfirst : (history (init elevenDb) 1).map List.length = some 10 := by decide +kernel
  obtain ⟨first, h₁, hlen₁⟩ := Option.map_eq_some_iff.mp hfirst
  obtain ⟨last, h₂, hlen₂⟩ := Option.map_eq_some_iff.mp hlast
  let states : ℕ → Cluster := fun k => if k = 0 then init elevenDb else s
  let events : ℕ → List ClusterEvent := fun _ => [employeePost key, .silo (.activate key),
    .silo (.handle 2 (employeeCall key)), .silo (.timer key .tick), .silo (.timer key .commit)]
  let results : ℕ → List LockAccessHistoryDto := fun k => if k = 0 then first else last
  have hruns : ∀ k < 1, (cluster unsignedHandler .sqlServerDefault).run (states k) (events k) =
      some (states (k + 1)) := by
    intro k hk
    rw [Nat.lt_one_iff.mp hk]
    exact hs
  have hresults : ∀ k ≤ 1, getHistoryAsync .sqlServerDefault (states k).silo.db .asStored key
      (Int32.ofNat (k + 1)) 10 = some (results k) := by
    intro k hk
    rcases Nat.le_one_iff_eq_zero_or_eq_one.mp hk with rfl | rfl
    · exact h₁
    · exact h₂
  have hfull : ∀ k < 1, (results k).length = (10 : Int32).toInt.toNat := by
    intro k hk
    rw [Nat.lt_one_iff.mp hk]
    exact hlen₁
  have hall := (pages_while_saving hruns (fun _ _ => by decide +kernel) (by decide) (by decide)
    (by decide) hresults hfull).2 (Silo.run_consistent elevenDb_consistent (run_silo hs))
    (show last.length < (10 : Int32).toInt.toNat by rw [hlen₂]; decide)
  refine ⟨s, first, last, hs, h₁, h₂, hlen, ?_⟩
  rw [← List.flatten_singleton (l := last), ← List.flatten_cons]
  exact hall

end Cluster

end SmartLock
