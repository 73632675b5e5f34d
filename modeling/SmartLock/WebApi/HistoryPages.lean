import SmartLock.Data.Constraints
import SmartLock.Lib.Pages
import SmartLock.WebApi.LocksController

/-!
# The pages of the history

`page_arithmetic_iff`: a page is the rows at its positions exactly when the product that `Skip` is
given fits the 32 bits of an `int`. `pages_cover_iff`: with an order of its own for every query, the
pages of a lock list its records once each exactly when there is one page or nothing to confuse.
-/

namespace SmartLock

variable {c : Collation} {db : SmartLockDb} {scan : Enumeration} {id : String} {page size : Int32}

/-! ## The arithmetic -/

theorem normalPage_pos (page : Int32) : 1 ≤ (normalPage page).toInt := by
  unfold normalPage
  split_ifs with h
  · decide
  · rw [Int32.lt_iff_toInt_lt, Int32.toInt_one] at h
    omega

theorem normalSize_bounds (size : Int32) :
    10 ≤ (normalSize size).toInt ∧ (normalSize size).toInt ≤ 100 := by
  unfold normalSize
  split_ifs with h
  · decide
  · rw [Int32.lt_iff_toInt_lt, Int32.lt_iff_toInt_lt] at h
    have h10 : (10 : Int32).toInt = 10 := by decide
    have h100 : (100 : Int32).toInt = 100 := by decide
    omega

theorem toInt_skipCount {page count : Int32} (hpage : 1 ≤ page.toInt) :
    (skipCount page count).toInt = ((page.toInt - 1) * count.toInt).bmod (2 ^ 32) := by
  have hlt := page.toInt_lt
  unfold skipCount
  rw [Int32.toInt_mul, Int32.toInt_sub, Int32.toInt_one,
    Int.bmod_eq_of_le (n := page.toInt - 1) (by omega) (by omega)]

/-- The rows of a page whose offset fits, and the names joined to them. -/
theorem getHistoryAsync_of_fits
    (h : ((normalPage page).toInt - 1) * (normalSize size).toInt < 2 ^ 31) :
    getHistoryAsync c db scan id page size =
      some ((Pages.page (scan.order (db.accessesOf c id)) (normalSize size).toInt.toNat
        ((normalPage page).toInt.toNat - 1)).filterMap (db.historyDto c)) := by
  have hpage := normalPage_pos page
  obtain ⟨hsize, -⟩ := normalSize_bounds size
  have hnonneg : 0 ≤ ((normalPage page).toInt - 1) * (normalSize size).toInt :=
    Int.mul_nonneg (by omega) (by omega)
  have hskip : (skipCount (normalPage page) (normalSize size)).toInt = _ := toInt_skipCount hpage
  rw [Int.bmod_eq_of_le (by omega) (by omega)] at hskip
  have hok : ¬ (skipCount (normalPage page) (normalSize size) < 0 ∨ normalSize size < 1) := by
    rw [Int32.lt_iff_toInt_lt, Int32.lt_iff_toInt_lt, hskip, Int32.toInt_zero, Int32.toInt_one]
    omega
  unfold getHistoryAsync getLockAccessesAsync offsetFetch
  have hprev : ((normalPage page).toInt - 1).toNat = (normalPage page).toInt.toNat - 1 := by omega
  rw [if_neg hok, hskip, Option.map_some, Int.toNat_mul (by omega) (by omega), hprev]
  rfl

/-- **The arithmetic of a page.** The offset is the exact product, and the call returns the rows at
the positions of the page, if and only if the product fits the 32 bits of an `int`. -/
theorem page_arithmetic_iff (c : Collation) (db : SmartLockDb) (scan : Enumeration) (id : String)
    (page size : Int32) :
    let p := (normalPage page).toInt
    let s := (normalSize size).toInt
    let skip := (skipCount (normalPage page) (normalSize size)).toInt
    (skip = (p - 1) * s ∧ 0 ≤ skip ∧ getHistoryAsync c db scan id page size =
      some (((scan.order (db.accessesOf c id)).extract ((p - 1) * s).toNat (p * s).toNat).filterMap
        (db.historyDto c))) ↔ (p - 1) * s < 2 ^ 31 := by
  intro p s skip
  have hpage : 1 ≤ p := normalPage_pos page
  obtain ⟨hsize, -⟩ : 10 ≤ s ∧ s ≤ 100 := normalSize_bounds size
  have hskip : skip = ((p - 1) * s).bmod (2 ^ 32) := toInt_skipCount hpage
  constructor
  · rintro ⟨hexact, -, -⟩
    rw [← hexact]
    exact Int32.toInt_lt _
  · intro hfits
    have hnonneg : 0 ≤ (p - 1) * s := Int.mul_nonneg (by omega) (by omega)
    rw [Int.bmod_eq_of_le (by omega) (by omega)] at hskip
    refine ⟨hskip, by rw [hskip]; exact hnonneg, ?_⟩
    have hprev : (p - 1).toNat = p.toNat - 1 := by omega
    rw [getHistoryAsync_of_fits hfits, Pages.page_eq_extract, Nat.sub_add_cancel (by omega),
      Int.toNat_mul (by omega) (by omega), Int.toNat_mul (by omega) (by omega), hprev]

/-- A grant of the employee at the entrance. -/
def employeeGrant : LockAccessHistoryEntity := .create DefaultData.entranceLockId
  (some DefaultData.employeeId) .granted (some DefaultData.employeeId) 2

/-- On a history of one row: page 1073741825 of 20 has the offset 0 and repeats the first page, and
page 2147483647 of 10 has a negative offset and fails. -/
theorem pages_wrap :
    let db : SmartLockDb := { DefaultData.seededDb with lockAccesses := [employeeGrant] }
    let history := getHistoryAsync .sqlServerDefault db .asStored DefaultData.entranceLockId
    skipCount 1073741825 20 = 0 ∧ history 1073741825 20 = history 1 20 ∧
      (history 1 20).map List.length = some 1 ∧
      (skipCount 2147483647 10).toInt = -20 ∧ history 2147483647 10 = none := by
  decide +kernel

/-! ## All pages together -/

/-- The pages of one lock, each read by a query with its own order: every page whose offset fits
has a result, pages 1 to `⌈n / size⌉` together list each record of the lock once, all of them but
the last are full, and later pages are empty. -/
def PagesCover (c : Collation) (db : SmartLockDb) (id : String) (size : Int32)
    (scans : ℕ → Enumeration) : Prop :=
  let pages := Pages.count (db.accessesOf c id).length size.toInt.toNat
  ∃ results : ℕ → List LockAccessHistoryDto,
    (∀ page : Int32, 1 ≤ page.toInt → (page.toInt - 1) * size.toInt < 2 ^ 31 →
      getHistoryAsync c db (scans page.toInt.toNat) id page size =
        some (results page.toInt.toNat)) ∧
    ((List.range pages).map fun k => results (k + 1)).flatten.Perm
      ((db.accessesOf c id).filterMap (db.historyDto c)) ∧
    (∀ k, k + 1 < pages → (results (k + 1)).length = size.toInt.toNat) ∧
    ∀ page : Int32, pages < page.toInt.toNat → (page.toInt - 1) * size.toInt < 2 ^ 31 →
      results page.toInt.toNat = []

theorem historyDto_isSome (hdb : db.Consistent c) {r : LockAccessHistoryEntity}
    (hr : r ∈ db.accessesOf c id) : (db.historyDto c r).isSome := by
  have hvalid := hdb.lockAccesses r (List.mem_of_mem_filter hr)
  obtain ⟨-, ⟨id, hid, huser⟩, -⟩ := SmartLockDb.satisfiesConstraints_iff.mp hvalid
  obtain ⟨u, hu, hsame⟩ := List.any_eq_true.mp huser
  unfold SmartLockDb.historyDto SmartLockDb.findUser
  rw [Option.isSome_map, hid, Option.bind_some, List.find?_isSome]
  exact ⟨u, hu, hsame⟩

section Covering

variable (h10 : 10 ≤ size.toInt) (h100 : size.toInt ≤ 100)

include h10 h100

theorem getHistoryAsync_page (hpage : 1 ≤ page.toInt)
    (hfits : (page.toInt - 1) * size.toInt < 2 ^ 31) : getHistoryAsync c db scan id page size =
      some ((Pages.page (scan.order (db.accessesOf c id)) size.toInt.toNat
        (page.toInt.toNat - 1)).filterMap (db.historyDto c)) := by
  have hpage' : normalPage page = page := by
    unfold normalPage
    rw [if_neg]
    rw [Int32.lt_iff_toInt_lt, Int32.toInt_one]
    omega
  have hsize' : normalSize size = size := by
    unfold normalSize
    rw [if_neg]
    have e10 : (10 : Int32).toInt = 10 := by decide
    have e100 : (100 : Int32).toInt = 100 := by decide
    rw [Int32.lt_iff_toInt_lt, Int32.lt_iff_toInt_lt]
    omega
  rw [← hpage', ← hsize'] at hfits
  rw [getHistoryAsync_of_fits hfits, hpage', hsize']

theorem pagesCover_iff_perm (hdb : db.Consistent c)
    (hn : (Pages.count (db.accessesOf c id).length size.toInt.toNat - 1) * size.toInt.toNat <
      2 ^ 31) (scans : ℕ → Enumeration) :
    PagesCover c db id size scans ↔
      ((List.range (Pages.count (db.accessesOf c id).length size.toInt.toNat)).map fun k =>
        (Pages.page ((scans (k + 1)).order (db.accessesOf c id)) size.toInt.toNat k).map
          (db.historyDto c)).flatten.Perm ((db.accessesOf c id).map (db.historyDto c)) := by
  obtain ⟨hlast, hfull⟩ := Pages.count_bounds (n := (db.accessesOf c id).length)
    (show 0 < size.toInt.toNat by omega)
  have hsome : ∀ i k, ∀ r ∈ Pages.page ((scans i).order (db.accessesOf c id)) size.toInt.toNat k,
      (db.historyDto c r).isSome := fun i k r hr =>
    historyDto_isSome hdb (((scans i).perm _).subset (Pages.page_subset _ _ _ hr))
  let entries : ℕ → List LockAccessHistoryDto := fun i =>
    (Pages.page ((scans i).order (db.accessesOf c id)) size.toInt.toNat (i - 1)).filterMap
      (db.historyDto c)
  have hperm : ((List.range (Pages.count (db.accessesOf c id).length size.toInt.toNat)).map
      fun k => entries (k + 1)).flatten.Perm
        ((db.accessesOf c id).filterMap (db.historyDto c)) ↔ _ :=
    (List.map_perm_map_iff (Option.some_injective _)).symm
  rw [List.map_flatten, List.map_map,
    Pages.map_some_filterMap fun r hr => historyDto_isSome hdb hr] at hperm
  rw [← List.map_congr_left fun k _ => Pages.map_some_filterMap (hsome (k + 1) k)]
  refine Iff.trans ?_ hperm
  constructor
  · rintro ⟨results, hresults, hcover, -, -⟩
    rw [List.map_congr_left fun k hk => ?_]
    · exact hcover
    · have hk' : k * size.toInt.toNat < 2 ^ 31 :=
        (Nat.mul_le_mul_right _ (Nat.le_pred_of_lt (List.mem_range.mp hk))).trans_lt hn
      have hmul := Nat.mul_le_mul_left k (show 10 ≤ size.toInt.toNat by omega)
      have hpage : (Int32.ofNat (k + 1)).toInt = (k + 1 : ℕ) :=
        Int32.toInt_ofNat_of_lt (by omega)
      have hfits : ((Int32.ofNat (k + 1)).toInt - 1) * size.toInt < 2 ^ 31 := by
        calc ((Int32.ofNat (k + 1)).toInt - 1) * size.toInt
          _ = (k : ℤ) * (size.toInt.toNat : ℤ) := by
            rw [hpage, Int.toNat_of_nonneg (by omega), Nat.cast_succ, Int.add_sub_cancel]
          _ < 2 ^ 31 := by exact_mod_cast hk'
      have hresult := hresults (Int32.ofNat (k + 1)) (by omega) hfits
      rw [getHistoryAsync_page h10 h100 (by omega) hfits, hpage, Int.toNat_natCast] at hresult
      exact Option.some.inj hresult
  · intro hcover
    refine ⟨entries, fun page hpage hfits => getHistoryAsync_page h10 h100 hpage hfits, hcover,
      ?_, ?_⟩
    · intro k hk
      have hk' := hfull (k + 1) hk
      have hlen := congrArg List.length (Pages.map_some_filterMap (hsome (k + 1) k))
      rw [List.length_map, List.length_map, Pages.length_page, ((scans (k + 1)).perm _).length_eq]
        at hlen
      rw [Nat.succ_mul] at hk'
      exact hlen.trans (Nat.min_eq_left (by omega))
    · intro page hpage _
      have hmul := Nat.mul_le_mul_right size.toInt.toNat
        (show Pages.count (db.accessesOf c id).length size.toInt.toNat ≤ page.toInt.toNat - 1 by
          omega)
      show List.filterMap _ _ = []
      rw [Pages.page_eq_nil, List.filterMap_nil]
      rw [((scans _).perm _).length_eq]
      omega

/-- **The pages together.** On consistent tables, whatever the orders of the queries, the pages of
a lock cover its history if and only if the history fits one page or all its entries are equal. The
offset of the last page has to fit 32 bits. -/
theorem pages_cover_iff (hdb : db.Consistent c)
    (hn : (Pages.count (db.accessesOf c id).length size.toInt.toNat - 1) * size.toInt.toNat <
      2 ^ 31) :
    (∀ scans, PagesCover c db id size scans) ↔
      (db.accessesOf c id).length ≤ size.toInt.toNat ∨
        ∀ r ∈ db.accessesOf c id, ∀ r' ∈ db.accessesOf c id,
          db.historyDto c r = db.historyDto c r' := by
  obtain ⟨hlast, -⟩ := Pages.count_bounds (n := (db.accessesOf c id).length)
    (show 0 < size.toInt.toNat by omega)
  rw [← Pages.perm_pages_iff (by omega) hlast]
  simp only [pagesCover_iff_perm h10 h100 hdb hn]
  constructor
  · intro h orders horders
    have hread := h fun i =>
      Enumeration.reading (db.accessesOf c id) (orders (i - 1)) (horders (i - 1))
    simpa only [Enumeration.reading_order, Nat.add_sub_cancel] using hread
  · intro h scans
    exact h (fun k => (scans (k + 1)).order (db.accessesOf c id)) fun k => (scans (k + 1)).perm _

end Covering

/-! ## Eleven records -/

/-- A grant of the manager, and then ten of the employee. -/
def elevenDb : SmartLockDb := { DefaultData.seededDb with
  lockAccesses := .create DefaultData.entranceLockId (some DefaultData.managerId) .granted
    (some DefaultData.managerId) 1 :: List.replicate 10 employeeGrant }

theorem elevenDb_consistent : elevenDb.Consistent .sqlServerDefault := by
  refine { DefaultData.seededDb_consistent with lockAccesses := ?_ }
  intro r hr
  rcases List.mem_cons.mp hr with rfl | hr
  · decide +kernel
  · rw [List.eq_of_mem_replicate hr]
    decide +kernel

theorem pages_cover_eleven :
    (elevenDb.accessesOf .sqlServerDefault DefaultData.entranceLockId).length = 11 ∧
      ∀ scans, PagesCover .sqlServerDefault elevenDb DefaultData.entranceLockId 20 scans :=
  ⟨by decide +kernel,
    (pages_cover_iff (by decide) (by decide) elevenDb_consistent (by decide +kernel)).mpr
      (Or.inl (by decide +kernel))⟩

/-- Two pages of 10, the first read forwards and the second backwards: both start with the grant of
the manager, so it is listed twice, and one grant of the employee is missing. -/
theorem pages_repeat :
    let backwards : Enumeration := ⟨List.reverse, List.reverse_perm⟩
    let history (scan : Enumeration) (page : Int32) :=
      (getHistoryAsync .sqlServerDefault elevenDb scan DefaultData.entranceLockId page 10).map
        fun entries => entries.map LockAccessHistoryDto.requesterName
    history .asStored 1 = some ("John Doe" :: List.replicate 9 "Jill Doe") ∧
      history backwards 2 = some ["John Doe"] ∧
      ¬ PagesCover .sqlServerDefault elevenDb DefaultData.entranceLockId 10
        fun page => if page = 2 then backwards else .asStored := by
  intro backwards history
  refine ⟨by decide +kernel, by decide +kernel, ?_⟩
  rw [pagesCover_iff_perm (by decide) (by decide) elevenDb_consistent (by decide +kernel)]
  decide +kernel

end SmartLock
