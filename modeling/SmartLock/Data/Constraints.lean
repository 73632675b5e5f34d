import SmartLock.Data.Database

/-!
# The declared constraints

`Consistent` collects what the migration declares: the primary keys, the two unique indexes on
normalized names, and the references. A transaction commits when the tables it leaves are
consistent. The saves of the grains and the other changes keep them so (`Consistent.save`,
`Consistent.change`).
-/

namespace SmartLock

namespace Collation

/-- Two nullable strings that are both there and equal for the server. -/
def sameSome (c : Collation) (a b : Option String) : Bool := a.any fun x => b.any (c.same x)

variable {c : Collation} {a b d : String}

theorem same_comm : c.same a b = c.same b a := by
  unfold same
  exact decide_eq_decide.mpr eq_comm

theorem same_trans (hab : c.same a b = true) (hbd : c.same b d = true) : c.same a d = true := by
  rw [same_iff] at *
  exact hab.trans hbd

theorem not_same_of_same (hab : c.same a b = true) (hbd : c.same b d = false) :
    c.same a d = false := by
  rw [Bool.eq_false_iff] at *
  rw [same_comm] at hab
  exact fun had => hbd (same_trans hab had)

theorem sameSome_comm (a b : Option String) : c.sameSome a b = c.sameSome b a := by
  cases a <;> cases b <;> simp [sameSome, same_comm]

end Collation

namespace SmartLockDb

/-- The constraints of the migration on the modelled columns. -/
structure Consistent (c : Collation) (db : SmartLockDb) : Prop where
  userKeys : db.users.Pairwise fun u v => c.same u.id v.id = false
  userNames : db.users.Pairwise fun u v =>
    c.sameSome u.normalizedUserName v.normalizedUserName = false
  roleKeys : db.roles.Pairwise fun r s => c.same r.id s.id = false
  roleNames : db.roles.Pairwise fun r s => c.sameSome r.normalizedName s.normalizedName = false
  lockKeys : db.locks.Pairwise fun l m => c.same l.id m.id = false
  userRoleKeys : db.userRoles.Pairwise fun x y =>
    (c.same x.userId y.userId && c.same x.roleId y.roleId) = false
  lockRoleKeys : db.lockRoles.Pairwise fun x y =>
    (c.same x.locksId y.locksId && c.same x.rolesAccessesId y.rolesAccessesId) = false
  userRoles : ∀ x ∈ db.userRoles, db.hasUser c x.userId = true ∧ db.hasRole c x.roleId = true
  lockRoles : ∀ x ∈ db.lockRoles,
    db.hasLock c x.locksId = true ∧ db.hasRole c x.rolesAccessesId = true
  lockAccesses : ∀ r ∈ db.lockAccesses, db.satisfiesConstraints c r = true

theorem consistent_iff {c : Collation} {db : SmartLockDb} : db.Consistent c ↔
    ((db.users.Pairwise fun u v => c.same u.id v.id = false) ∧
      (db.users.Pairwise fun u v =>
        c.sameSome u.normalizedUserName v.normalizedUserName = false)) ∧
    ((db.roles.Pairwise fun r s => c.same r.id s.id = false) ∧
      db.roles.Pairwise fun r s => c.sameSome r.normalizedName s.normalizedName = false) ∧
    (db.locks.Pairwise fun l m => c.same l.id m.id = false) ∧
    ((db.userRoles.Pairwise fun x y =>
        (c.same x.userId y.userId && c.same x.roleId y.roleId) = false) ∧
      ∀ x ∈ db.userRoles, db.hasUser c x.userId = true ∧ db.hasRole c x.roleId = true) ∧
    ((db.lockRoles.Pairwise fun x y =>
        (c.same x.locksId y.locksId && c.same x.rolesAccessesId y.rolesAccessesId) = false) ∧
      ∀ x ∈ db.lockRoles,
        db.hasLock c x.locksId = true ∧ db.hasRole c x.rolesAccessesId = true) ∧
    ∀ r ∈ db.lockAccesses, db.satisfiesConstraints c r = true := by
  constructor
  · rintro ⟨h₁, h₂, h₃, h₄, h₅, h₆, h₇, h₈, h₉, h₁₀⟩
    exact ⟨⟨h₁, h₂⟩, ⟨h₃, h₄⟩, h₅, ⟨h₆, h₈⟩, ⟨h₇, h₉⟩, h₁₀⟩
  · rintro ⟨⟨h₁, h₂⟩, ⟨h₃, h₄⟩, h₅, ⟨h₆, h₈⟩, ⟨h₇, h₉⟩, h₁₀⟩
    exact ⟨h₁, h₂, h₃, h₄, h₅, h₆, h₇, h₈, h₉, h₁₀⟩

instance (c : Collation) (db : SmartLockDb) : Decidable (db.Consistent c) :=
  decidable_of_iff' _ consistent_iff

variable {c : Collation} {db db' : SmartLockDb}

/-! ## References -/

theorem any_filter_of_imp {α : Type} {xs : List α} {p q : α → Bool}
    (h : ∀ x, q x = true → p x = true) : (xs.filter p).any q = xs.any q := by
  rw [List.any_filter]
  congr 1
  funext x
  cases hq : q x with
  | false => exact Bool.and_false _
  | true => rw [h x hq, Bool.true_and]

theorem any_same_filter {α : Type} {xs : List α} {key : α → String} {id gone : String}
    (h : c.same id gone = false) :
    ((xs.filter fun x => !c.same (key x) gone).any fun x => c.same (key x) id) =
      xs.any fun x => c.same (key x) id := by
  refine any_filter_of_imp fun x hx => ?_
  rw [Collation.not_same_of_same hx h, Bool.not_false]

theorem satisfiesConstraints_iff {r : LockAccessHistoryEntity} :
    db.satisfiesConstraints c r = true ↔ db.hasLock c r.lockId = true ∧
      (∃ id, r.requesterId = some id ∧ db.hasUser c id = true) ∧
      ∀ id, r.requestForEmployeeId = some id → db.hasUser c id = true := by
  unfold satisfiesConstraints
  rw [Bool.and_eq_true, Bool.and_eq_true, and_assoc]
  refine and_congr_right fun _ => and_congr ?_ ?_
  · cases r.requesterId <;> simp
  · cases r.requestForEmployeeId <;> simp

/-- A history record stays valid while the rows that it names stay. -/
theorem satisfiesConstraints_of {r : LockAccessHistoryEntity}
    (h : db.satisfiesConstraints c r = true)
    (hlock : db.hasLock c r.lockId = true → db'.hasLock c r.lockId = true)
    (huser : ∀ id, r.requesterId = some id ∨ r.requestForEmployeeId = some id →
      db.hasUser c id = true → db'.hasUser c id = true) :
    db'.satisfiesConstraints c r = true := by
  rw [satisfiesConstraints_iff] at h ⊢
  obtain ⟨hl, ⟨id, hid, hreq⟩, hemp⟩ := h
  exact ⟨hlock hl, ⟨id, hid, huser id (Or.inl hid) hreq⟩,
    fun id hid => huser id (Or.inr hid) (hemp id hid)⟩

/-! ## Tables with a key and a name -/

section Keyed

variable {α : Type} {xs : List α} {key : α → String} {name : α → Option String} {id : String}

theorem not_same_of_not_any {x : α} (h : ¬ (xs.any fun y => c.same (key y) id) = true)
    (hx : x ∈ xs) : c.same (key x) id = false := by
  rw [List.any_eq_true] at h
  rw [Bool.eq_false_iff]
  exact fun hsame => h ⟨x, hx, hsame⟩

theorem keys_concat (hkeys : xs.Pairwise fun x y => c.same (key x) (key y) = false) {x : α}
    (hfree : ¬ (xs.any fun y => c.same (key y) (key x)) = true) :
    (xs ++ [x]).Pairwise fun x y => c.same (key x) (key y) = false := by
  rw [List.pairwise_append]
  refine ⟨hkeys, List.pairwise_singleton _ _, fun y hy z hz => ?_⟩
  rw [List.mem_singleton.mp hz]
  exact not_same_of_not_any hfree hy

theorem not_sameSome_of_free {n : Option String} {p : α → Bool}
    (hfree : ¬ (n.any fun n => xs.any fun y => p y && (name y).any (c.same n)) = true) {x : α}
    (hx : x ∈ xs) (hp : p x = true) : c.sameSome n (name x) = false := by
  cases n with
  | none => rfl
  | some n =>
    simp only [Option.any_some, List.any_eq_true, Bool.and_eq_true, not_exists, not_and,
      Bool.not_eq_true] at hfree
    exact hfree x hx hp

theorem names_concat (hnames : xs.Pairwise fun x y => c.sameSome (name x) (name y) = false) {x : α}
    (hfree : ¬ ((name x).any fun n => xs.any fun y => (name y).any (c.same n)) = true) :
    (xs ++ [x]).Pairwise fun x y => c.sameSome (name x) (name y) = false := by
  rw [List.pairwise_append]
  refine ⟨hnames, List.pairwise_singleton _ _, fun y hy z hz => ?_⟩
  rw [List.mem_singleton.mp hz, Collation.sameSome_comm]
  refine not_sameSome_of_free (p := fun _ => true) ?_ hy rfl
  simpa only [Bool.true_and] using hfree

section Renamed

variable {f : α → α} (hf : ∀ x, key (f x) = key x)

include hf

theorem key_renamed (x : α) : key (if c.same (key x) id then f x else x) = key x := by
  split_ifs
  · exact hf x
  · rfl

theorem any_renamed (k : String) :
    ((xs.map fun x => if c.same (key x) id then f x else x).any fun x => c.same (key x) k) =
      xs.any fun x => c.same (key x) k := by
  rw [List.any_map]
  congr 1
  funext x
  exact congrArg (c.same · k) (key_renamed hf x)

theorem keys_renamed (hkeys : xs.Pairwise fun x y => c.same (key x) (key y) = false) :
    (xs.map fun x => if c.same (key x) id then f x else x).Pairwise
      fun x y => c.same (key x) (key y) = false := by
  rw [List.pairwise_map]
  refine hkeys.imp fun {x y} hxy => ?_
  rw [key_renamed hf, key_renamed hf]
  exact hxy

end Renamed

theorem names_renamed {f : α → α} {n : Option String}
    (hkeys : xs.Pairwise fun x y => c.same (key x) (key y) = false)
    (hnames : xs.Pairwise fun x y => c.sameSome (name x) (name y) = false)
    (hname : ∀ x, name (f x) = n)
    (hfree : ∀ x ∈ xs, c.same (key x) id = false → c.sameSome n (name x) = false) :
    (xs.map fun x => if c.same (key x) id then f x else x).Pairwise
      fun x y => c.sameSome (name x) (name y) = false := by
  rw [List.pairwise_map]
  refine (hkeys.and hnames).imp_of_mem ?_
  intro x y hx hy ⟨hkey, hxy⟩
  by_cases h₁ : c.same (key x) id = true
  · have h₂ : c.same (key y) id = false := by
      rw [Bool.eq_false_iff] at hkey ⊢
      rw [Collation.same_comm] at h₁
      exact fun h₂ => hkey (by rw [Collation.same_comm]; exact Collation.same_trans h₂ h₁)
    rw [if_pos h₁, if_neg (by simp [h₂]), hname]
    exact hfree y hy h₂
  · rw [if_neg h₁]
    rw [Bool.not_eq_true] at h₁
    split_ifs with h₂
    · rw [hname, Collation.sameSome_comm]
      exact hfree x hx h₁
    · exact hxy

end Keyed

/-! ## The saves of the grains -/

theorem Consistent.save (h : db.Consistent c) {batch : List LockAccessHistoryEntity}
    (hsave : db.saveChangesAsync c batch = some db') : db'.Consistent c := by
  obtain ⟨hbatch, rfl⟩ := saveChangesAsync_eq_some.mp hsave
  refine { h with lockAccesses := ?_ }
  intro r hr
  rcases List.mem_append.mp hr with hr | hr
  · exact h.lockAccesses r hr
  · exact hbatch r hr

/-! ## The other changes -/

section Changes

variable {lockId roleId userId : String}

theorem Consistent.linkRole (h : db.Consistent c)
    (hch : (DbChange.linkRole lockId roleId).apply c db = some db') : db'.Consistent c := by
  simp only [DbChange.apply, Option.ite_none_right_eq_some, Option.some.injEq] at hch
  obtain ⟨⟨hlock, hrole, hnew⟩, rfl⟩ := hch
  refine { h with lockRoleKeys := ?_, lockRoles := ?_ }
  · rw [List.pairwise_append]
    refine ⟨h.lockRoleKeys, List.pairwise_singleton _ _, ?_⟩
    intro x hx y hy
    rw [List.mem_singleton.mp hy]
    rw [List.any_eq_true] at hnew
    rw [Bool.eq_false_iff]
    exact fun hsame => hnew ⟨x, hx, hsame⟩
  · intro x hx
    rcases List.mem_append.mp hx with hx | hx
    · exact h.lockRoles x hx
    · rw [List.mem_singleton.mp hx]
      exact ⟨hlock, hrole⟩

theorem Consistent.unlinkRole (h : db.Consistent c)
    (hch : (DbChange.unlinkRole lockId roleId).apply c db = some db') : db'.Consistent c := by
  cases hch
  exact { h with
    lockRoleKeys := h.lockRoleKeys.filter _
    lockRoles := fun x hx => h.lockRoles x (List.mem_of_mem_filter hx) }

theorem Consistent.deleteRole (h : db.Consistent c)
    (hch : (DbChange.deleteRole roleId).apply c db = some db') : db'.Consistent c := by
  cases hch
  refine { h with
    roleKeys := h.roleKeys.filter _
    roleNames := h.roleNames.filter _
    userRoleKeys := h.userRoleKeys.filter _
    lockRoleKeys := h.lockRoleKeys.filter _
    userRoles := ?_
    lockRoles := ?_ }
  · intro x hx
    obtain ⟨hx, hkeep⟩ := List.mem_filter.mp hx
    refine ⟨(h.userRoles x hx).1, ?_⟩
    rw [hasRole, any_same_filter (by simpa using hkeep)]
    exact (h.userRoles x hx).2
  · intro x hx
    obtain ⟨hx, hkeep⟩ := List.mem_filter.mp hx
    refine ⟨(h.lockRoles x hx).1, ?_⟩
    rw [hasRole, any_same_filter (by simpa using hkeep)]
    exact (h.lockRoles x hx).2

theorem hasRole_of_renameRole {name normalizedName : Option String}
    (hch : (DbChange.renameRole roleId name normalizedName).apply c db = some db') (id : String) :
    db'.hasRole c id = db.hasRole c id := by
  simp only [DbChange.apply, Option.ite_none_left_eq_some, Option.some.injEq] at hch
  obtain ⟨-, rfl⟩ := hch
  exact any_renamed (f := fun r : RoleEntity =>
    { r with name := name, normalizedName := normalizedName }) (fun _ => rfl) id

theorem Consistent.renameRole (h : db.Consistent c) {name normalizedName : Option String}
    (hch : (DbChange.renameRole roleId name normalizedName).apply c db = some db') :
    db'.Consistent c := by
  have hkeep := hasRole_of_renameRole hch
  simp only [DbChange.apply, Option.ite_none_left_eq_some, Option.some.injEq] at hch
  obtain ⟨hfree, rfl⟩ := hch
  exact { h with
    roleKeys := keys_renamed (fun _ => rfl) h.roleKeys
    roleNames := names_renamed h.roleKeys h.roleNames (fun _ => rfl) fun r hr hne =>
      not_sameSome_of_free hfree hr (by rw [hne, Bool.not_false])
    userRoles := fun x hx => ⟨(h.userRoles x hx).1, (hkeep _).trans (h.userRoles x hx).2⟩
    lockRoles := fun x hx => ⟨(h.lockRoles x hx).1, (hkeep _).trans (h.lockRoles x hx).2⟩ }

theorem hasUser_of_renameUser {userName normalizedUserName : Option String}
    {firstName lastName : String}
    (hch : (DbChange.renameUser userId userName normalizedUserName firstName lastName).apply c db =
      some db') (id : String) : db'.hasUser c id = db.hasUser c id := by
  simp only [DbChange.apply, Option.ite_none_left_eq_some, Option.some.injEq] at hch
  obtain ⟨-, rfl⟩ := hch
  exact any_renamed (f := fun u : UserEntity =>
    { u with
      userName := userName
      normalizedUserName := normalizedUserName
      firstName := firstName
      lastName := lastName }) (fun _ => rfl) id

theorem Consistent.renameUser (h : db.Consistent c) {userName normalizedUserName : Option String}
    {firstName lastName : String}
    (hch : (DbChange.renameUser userId userName normalizedUserName firstName lastName).apply c db =
      some db') : db'.Consistent c := by
  have hkeep := hasUser_of_renameUser hch
  simp only [DbChange.apply, Option.ite_none_left_eq_some, Option.some.injEq] at hch
  obtain ⟨hfree, rfl⟩ := hch
  exact { h with
    userKeys := keys_renamed (fun _ => rfl) h.userKeys
    userNames := names_renamed h.userKeys h.userNames (fun _ => rfl) fun u hu hne =>
      not_sameSome_of_free hfree hu (by rw [hne, Bool.not_false])
    userRoles := fun x hx => ⟨(hkeep _).trans (h.userRoles x hx).1, (h.userRoles x hx).2⟩
    lockAccesses := fun r hr => satisfiesConstraints_of (h.lockAccesses r hr) id
      fun id _ huser => (hkeep id).trans huser }

theorem any_append_of_any {α : Type} {xs ys : List α} {p : α → Bool} (h : xs.any p = true) :
    (xs ++ ys).any p = true := by
  rw [List.any_append, h, Bool.true_or]

theorem Consistent.createRole (h : db.Consistent c) {row : RoleEntity}
    (hch : (DbChange.createRole row).apply c db = some db') : db'.Consistent c := by
  simp only [DbChange.apply, Option.ite_none_left_eq_some, Option.some.injEq, not_or] at hch
  obtain ⟨⟨hkey, hname⟩, rfl⟩ := hch
  exact { h with
    roleKeys := keys_concat h.roleKeys hkey
    roleNames := names_concat h.roleNames hname
    userRoles := fun x hx => ⟨(h.userRoles x hx).1, any_append_of_any (h.userRoles x hx).2⟩
    lockRoles := fun x hx => ⟨(h.lockRoles x hx).1, any_append_of_any (h.lockRoles x hx).2⟩ }

theorem Consistent.createUser (h : db.Consistent c) {row : UserEntity}
    (hch : (DbChange.createUser row).apply c db = some db') : db'.Consistent c := by
  simp only [DbChange.apply, Option.ite_none_left_eq_some, Option.some.injEq, not_or] at hch
  obtain ⟨⟨hkey, hname⟩, rfl⟩ := hch
  exact { h with
    userKeys := keys_concat h.userKeys hkey
    userNames := names_concat h.userNames hname
    userRoles := fun x hx => ⟨any_append_of_any (h.userRoles x hx).1, (h.userRoles x hx).2⟩
    lockAccesses := fun r hr => satisfiesConstraints_of (h.lockAccesses r hr) id
      fun _ _ huser => any_append_of_any huser }

theorem Consistent.createLock (h : db.Consistent c) {row : LockRow}
    (hch : (DbChange.createLock row).apply c db = some db') : db'.Consistent c := by
  simp only [DbChange.apply, Option.ite_none_left_eq_some, Option.some.injEq] at hch
  obtain ⟨hfree, rfl⟩ := hch
  exact { h with
    lockKeys := keys_concat h.lockKeys hfree
    lockRoles := fun x hx => ⟨any_append_of_any (h.lockRoles x hx).1, (h.lockRoles x hx).2⟩
    lockAccesses := fun r hr => satisfiesConstraints_of (h.lockAccesses r hr) any_append_of_any
      fun _ _ huser => huser }

theorem Consistent.deleteLock (h : db.Consistent c)
    (hch : (DbChange.deleteLock lockId).apply c db = some db') : db'.Consistent c := by
  cases hch
  refine { h with
    lockKeys := h.lockKeys.filter _
    lockRoleKeys := h.lockRoleKeys.filter _
    lockRoles := ?_
    lockAccesses := ?_ }
  · intro x hx
    obtain ⟨hx, hkeep⟩ := List.mem_filter.mp hx
    refine ⟨?_, (h.lockRoles x hx).2⟩
    rw [hasLock, any_same_filter (by simpa using hkeep)]
    exact (h.lockRoles x hx).1
  · intro r hr
    obtain ⟨hr, hkeep⟩ := List.mem_filter.mp hr
    refine satisfiesConstraints_of (h.lockAccesses r hr) ?_ fun _ _ huser => huser
    intro hlock
    rw [hasLock, any_same_filter (by simpa using hkeep)]
    exact hlock

theorem Consistent.deleteUser (h : db.Consistent c)
    (hch : (DbChange.deleteUser userId).apply c db = some db') : db'.Consistent c := by
  simp only [DbChange.apply, Option.ite_none_left_eq_some, Option.some.injEq] at hch
  obtain ⟨hnamed, rfl⟩ := hch
  refine { h with
    userKeys := h.userKeys.filter _
    userNames := h.userNames.filter _
    userRoleKeys := h.userRoleKeys.filter _
    userRoles := ?_
    lockAccesses := ?_ }
  · intro x hx
    obtain ⟨hx, hkeep⟩ := List.mem_filter.mp hx
    refine ⟨?_, (h.userRoles x hx).2⟩
    rw [hasUser, any_same_filter (by simpa using hkeep)]
    exact (h.userRoles x hx).1
  · intro r hr
    rw [List.any_eq_true] at hnamed
    have hemployee : r.requestForEmployeeId.any (c.same userId) = false := by
      rw [Bool.eq_false_iff]
      exact fun hn => hnamed ⟨r, hr, hn⟩
    obtain ⟨hr, hkeep⟩ := List.mem_filter.mp hr
    rw [Bool.not_eq_eq_eq_not, Bool.not_true] at hkeep
    refine satisfiesConstraints_of (h.lockAccesses r hr) id ?_
    rintro id (hid | hid) huser
    · rw [hid, Option.any_some, Collation.same_comm] at hkeep
      rw [hasUser, any_same_filter hkeep]
      exact huser
    · rw [hid, Option.any_some, Collation.same_comm] at hemployee
      rw [hasUser, any_same_filter hemployee]
      exact huser

/-- Every change that is committed leaves consistent tables. -/
theorem Consistent.change (h : db.Consistent c) {ch : DbChange}
    (hch : ch.apply c db = some db') : db'.Consistent c := by
  cases ch with
  | linkRole => exact h.linkRole hch
  | unlinkRole => exact h.unlinkRole hch
  | createRole => exact h.createRole hch
  | deleteRole => exact h.deleteRole hch
  | renameRole => exact h.renameRole hch
  | createLock => exact h.createLock hch
  | deleteLock => exact h.deleteLock hch
  | createUser => exact h.createUser hch
  | deleteUser => exact h.deleteUser hch
  | renameUser => exact h.renameUser hch

end Changes

/-! ## New rows in every table -/

/-- The tables with the rows of `rows` inserted. -/
def append (db rows : SmartLockDb) : SmartLockDb where
  users := db.users ++ rows.users
  roles := db.roles ++ rows.roles
  userRoles := db.userRoles ++ rows.userRoles
  locks := db.locks ++ rows.locks
  lockRoles := db.lockRoles ++ rows.lockRoles
  lockAccesses := db.lockAccesses ++ rows.lockAccesses

/-- No user, role or lock of `rows` has the key or the normalized name of one in `db`. -/
structure Apart (c : Collation) (db rows : SmartLockDb) : Prop where
  users : ∀ u ∈ db.users, ∀ v ∈ rows.users, c.same u.id v.id = false ∧
    c.sameSome u.normalizedUserName v.normalizedUserName = false
  roles : ∀ r ∈ db.roles, ∀ s ∈ rows.roles, c.same r.id s.id = false ∧
    c.sameSome r.normalizedName s.normalizedName = false
  locks : ∀ l ∈ db.locks, ∀ m ∈ rows.locks, c.same l.id m.id = false

section Append

variable {rows : SmartLockDb} {id : String}

theorem hasUser_append :
    (db.append rows).hasUser c id = true ↔ db.hasUser c id = true ∨ rows.hasUser c id = true := by
  unfold hasUser append
  rw [List.any_append, Bool.or_eq_true]

theorem hasRole_append :
    (db.append rows).hasRole c id = true ↔ db.hasRole c id = true ∨ rows.hasRole c id = true := by
  unfold hasRole append
  rw [List.any_append, Bool.or_eq_true]

theorem hasLock_append :
    (db.append rows).hasLock c id = true ↔ db.hasLock c id = true ∨ rows.hasLock c id = true := by
  unfold hasLock append
  rw [List.any_append, Bool.or_eq_true]

theorem not_same_of_apart {α : Type} {xs ys : List α} {key : α → String} {a b : String}
    (h : ∀ x ∈ xs, ∀ y ∈ ys, c.same (key x) (key y) = false)
    (ha : (xs.any fun x => c.same (key x) a) = true)
    (hb : (ys.any fun y => c.same (key y) b) = true) : c.same a b = false := by
  obtain ⟨x, hx, hxa⟩ := List.any_eq_true.mp ha
  obtain ⟨y, hy, hyb⟩ := List.any_eq_true.mp hb
  rw [Bool.eq_false_iff]
  intro hab
  rw [Collation.same_comm] at hyb
  have hxy := Collation.same_trans (Collation.same_trans hxa hab) hyb
  rw [h x hx y hy] at hxy
  cases hxy

/-- **Inserting rows.** Consistent rows can be inserted into consistent tables exactly when they
are apart from them. -/
theorem consistent_append_iff (h : db.Consistent c) (hrows : rows.Consistent c) :
    (db.append rows).Consistent c ↔ db.Apart c rows := by
  constructor
  · intro hall
    refine ⟨fun u hu v hv => ⟨?_, ?_⟩, fun r hr s hs => ⟨?_, ?_⟩, ?_⟩
    · exact (List.pairwise_append.mp hall.userKeys).2.2 u hu v hv
    · exact (List.pairwise_append.mp hall.userNames).2.2 u hu v hv
    · exact (List.pairwise_append.mp hall.roleKeys).2.2 r hr s hs
    · exact (List.pairwise_append.mp hall.roleNames).2.2 r hr s hs
    · exact (List.pairwise_append.mp hall.lockKeys).2.2
  · intro hapart
    have husers : ∀ u ∈ db.users, ∀ v ∈ rows.users, c.same u.id v.id = false :=
      fun u hu v hv => (hapart.users u hu v hv).1
    have hroles : ∀ r ∈ db.roles, ∀ s ∈ rows.roles, c.same r.id s.id = false :=
      fun r hr s hs => (hapart.roles r hr s hs).1
    refine {
      userKeys := List.pairwise_append.mpr ⟨h.userKeys, hrows.userKeys, husers⟩
      userNames := List.pairwise_append.mpr ⟨h.userNames, hrows.userNames,
        fun u hu v hv => (hapart.users u hu v hv).2⟩
      roleKeys := List.pairwise_append.mpr ⟨h.roleKeys, hrows.roleKeys, hroles⟩
      roleNames := List.pairwise_append.mpr ⟨h.roleNames, hrows.roleNames,
        fun r hr s hs => (hapart.roles r hr s hs).2⟩
      lockKeys := List.pairwise_append.mpr ⟨h.lockKeys, hrows.lockKeys, hapart.locks⟩
      userRoleKeys := List.pairwise_append.mpr ⟨h.userRoleKeys, hrows.userRoleKeys, ?_⟩
      lockRoleKeys := List.pairwise_append.mpr ⟨h.lockRoleKeys, hrows.lockRoleKeys, ?_⟩
      userRoles := ?_
      lockRoles := ?_
      lockAccesses := ?_ }
    -- the links name rows of their own side, so their keys are apart too
    · intro x hx y hy
      rw [not_same_of_apart husers (h.userRoles x hx).1 (hrows.userRoles y hy).1, Bool.false_and]
    · intro x hx y hy
      rw [not_same_of_apart hroles (h.lockRoles x hx).2 (hrows.lockRoles y hy).2, Bool.and_false]
    · intro x hx
      rw [hasUser_append, hasRole_append]
      rcases List.mem_append.mp hx with hx | hx
      · exact ⟨Or.inl (h.userRoles x hx).1, Or.inl (h.userRoles x hx).2⟩
      · exact ⟨Or.inr (hrows.userRoles x hx).1, Or.inr (hrows.userRoles x hx).2⟩
    · intro x hx
      rw [hasLock_append, hasRole_append]
      rcases List.mem_append.mp hx with hx | hx
      · exact ⟨Or.inl (h.lockRoles x hx).1, Or.inl (h.lockRoles x hx).2⟩
      · exact ⟨Or.inr (hrows.lockRoles x hx).1, Or.inr (hrows.lockRoles x hx).2⟩
    · intro r hr
      rcases List.mem_append.mp hr with hr | hr
      · exact satisfiesConstraints_of (h.lockAccesses r hr)
          (fun hlock => hasLock_append.mpr (Or.inl hlock))
          fun _ _ huser => hasUser_append.mpr (Or.inl huser)
      · exact satisfiesConstraints_of (hrows.lockAccesses r hr)
          (fun hlock => hasLock_append.mpr (Or.inr hlock))
          fun _ _ huser => hasUser_append.mpr (Or.inr huser)

end Append

end SmartLockDb

theorem DefaultData.seededDb_consistent : seededDb.Consistent .sqlServerDefault := by
  decide +kernel

end SmartLock
