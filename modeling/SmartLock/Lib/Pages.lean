import Mathlib.Data.List.Basic
import Mathlib.Data.List.Forall2
import Mathlib.Data.List.Perm.Basic

/-!
# Pages of a list

A list is read in pages of `size` entries. The pages of one list are the list again
(`flatten_pages`). Where every page is read from a permutation of its own, they are a permutation
of the list whatever the permutations are only in two cases: there is one page, or all entries
look alike (`perm_pages_iff`). The last section is about pages that show an entry for each row.
-/

universe u v

namespace Pages

variable {α : Type u} {β : Type v}

/-- The `k`-th page, counted from 0. -/
def page (xs : List α) (size k : ℕ) : List α := (xs.drop (k * size)).take size

theorem length_page (xs : List α) (size k : ℕ) :
    (page xs size k).length = min size (xs.length - k * size) := by
  unfold page
  rw [List.length_take, List.length_drop]

theorem page_eq_nil {xs : List α} {size k : ℕ} (h : xs.length ≤ k * size) :
    page xs size k = [] := by
  unfold page
  rw [List.drop_eq_nil_of_le h, List.take_nil]

theorem page_subset (xs : List α) (size k : ℕ) : page xs size k ⊆ xs :=
  fun _ h => List.mem_of_mem_drop (List.mem_of_mem_take h)

theorem page_eq_extract (xs : List α) (size k : ℕ) :
    page xs size k = xs.extract (k * size) ((k + 1) * size) := by
  unfold page
  rw [List.extract_eq_take_drop, Nat.succ_mul, Nat.add_sub_cancel_left]

theorem flatten_pages (xs : List α) (size m : ℕ) :
    ((List.range m).map fun k => page xs size k).flatten = xs.take (m * size) := by
  induction m with
  | zero => simp
  | succ m ih =>
    rw [List.range_succ, List.map_append, List.flatten_append, ih, List.map_singleton,
      List.flatten_singleton, Nat.succ_mul, List.take_add]
    rfl

/-- Pages read from a list that grows behind its end, each full but for the last: they are the front
of the list as it is when the last one is read. -/
theorem flatten_pages_of_growing {rows : ℕ → List α} {size m : ℕ}
    (hgrow : ∀ k < m, rows k <+: rows (k + 1))
    (hfull : ∀ k < m, (page (rows k) size k).length = size) :
    ((List.range (m + 1)).map fun k => page (rows k) size k).flatten =
      (rows m).take ((m + 1) * size) := by
  induction m with
  | zero => simp [page]
  | succ m ih =>
    have hlen := hfull m (Nat.lt_succ_self m)
    rw [length_page] at hlen
    -- the last full page reaches as far as the pages read so far
    have hreach : size = 0 ∨ (m + 1) * size ≤ (rows m).length := by
      rw [Nat.succ_mul]
      omega
    have hfront : (rows m).take ((m + 1) * size) = (rows (m + 1)).take ((m + 1) * size) := by
      rcases hreach with rfl | hreach
      · simp
      · obtain ⟨new, hnew⟩ := hgrow m (Nat.lt_succ_self m)
        rw [← hnew, List.take_append_of_le_length hreach]
    rw [List.range_succ, List.map_append, List.flatten_append,
      ih (fun k hk => hgrow k (Nat.lt_succ_of_lt hk)) (fun k hk => hfull k (Nat.lt_succ_of_lt hk)),
      hfront, List.map_singleton, List.flatten_singleton, Nat.succ_mul (m + 1), List.take_add]
    rfl

/-- How many pages `n` entries fill. -/
def count (n size : ℕ) : ℕ := (n + size - 1) / size

theorem count_bounds {n size : ℕ} (hsize : 0 < size) :
    n ≤ count n size * size ∧ ∀ k, k < count n size → k * size < n := by
  unfold count
  have hdiv := Nat.div_add_mod (n + size - 1) size
  have hmod := Nat.mod_lt (n + size - 1) hsize
  rw [Nat.mul_comm] at hdiv
  refine ⟨by omega, ?_⟩
  intro k hk
  have hmul := Nat.mul_le_mul_right size hk
  rw [Nat.succ_mul] at hmul
  omega

theorem flatten_pages_of_alike {orders : ℕ → List β} (zs : List β) {f : β → α} {size m : ℕ}
    (h : ∀ k, (page (orders k) size k).map f = (page zs size k).map f)
    (hm : zs.length ≤ m * size) :
    ((List.range m).map fun k => (page (orders k) size k).map f).flatten = zs.map f := by
  have hmap : ((List.range m).map fun k => (page (orders k) size k).map f) =
      ((List.range m).map fun k => page zs size k).map (List.map f) := by
    rw [List.map_map]
    exact List.map_congr_left fun k _ => h k
  rw [hmap, ← List.map_flatten, flatten_pages, List.take_of_length_le hm]

/-- Two entries of a list can stand anywhere in a permutation of it. -/
theorem perm_pair {xs : List β} {x y : β} (hx : x ∈ xs) (hy : y ∈ xs) (hne : x ≠ y) :
    ∃ rest, xs.Perm (x :: y :: rest) := by
  obtain ⟨s, t, rfl⟩ := List.append_of_mem hx
  have hy' : y ∈ s ++ t := by
    rcases List.mem_append.mp hy with hy | hy
    · exact List.mem_append_left _ hy
    · rcases List.mem_cons.mp hy with hy | hy
      · exact absurd hy.symm hne
      · exact List.mem_append_right _ hy
  obtain ⟨s', t', hst⟩ := List.append_of_mem hy'
  refine ⟨s' ++ t', List.perm_middle.trans (List.Perm.cons x ?_)⟩
  rw [hst]
  exact List.perm_middle

/-- Two entries that look different, more than a page long a list: one permutation for the second
page and one for the others put the first of them on both. -/
theorem alike_of_perm_pages {xs : List β} {f : β → α} {size m : ℕ} (hsize : 0 < size)
    (hlen : size < xs.length) (hm : xs.length ≤ m * size)
    (h : ∀ orders : ℕ → List β, (∀ k, (orders k).Perm xs) →
      ((List.range m).map fun k => (page (orders k) size k).map f).flatten.Perm (xs.map f))
    {x y : β} (hx : x ∈ xs) (hy : y ∈ xs) : f x = f y := by
  by_contra hf
  have hne : x ≠ y := fun e => hf (by rw [e])
  obtain ⟨rest, hrest⟩ := perm_pair hx hy hne
  obtain ⟨size, rfl⟩ : ∃ n, size = n + 1 := ⟨size - 1, by omega⟩
  have hcount : size ≤ rest.length := by
    have hl := hrest.length_eq
    simp only [List.length_cons] at hl
    omega
  obtain ⟨m, rfl⟩ : ∃ m', m = m' + 2 := by
    refine ⟨m - 2, ?_⟩
    by_contra hm2
    have hm1 : m ≤ 1 := by omega
    have := Nat.mul_le_mul_right (size + 1) hm1
    omega
  -- `x` first and `y` first on the second page, and the other way round
  let A := rest.take size
  let B := rest.drop size
  have hA : A.length = size := by rw [List.length_take]; omega
  have hAB : A ++ B = rest := List.take_append_drop size rest
  have hσ : (x :: A ++ y :: B).Perm xs := by
    refine (List.Perm.cons x List.perm_middle).trans ?_
    rw [hAB]
    exact hrest.symm
  have hτ : (y :: A ++ x :: B).Perm xs := by
    refine (List.Perm.cons y List.perm_middle).trans ?_
    rw [hAB]
    exact (List.Perm.swap x y rest).trans hrest.symm
  have hone := h (fun _ => x :: A ++ y :: B) fun _ => hσ
  have htwo := h (fun k => if k = 1 then y :: A ++ x :: B else x :: A ++ y :: B) fun k => by
    split_ifs
    · exact hτ
    · exact hσ
  have hsecond : ∀ a b : β, page (a :: A ++ b :: B) (size + 1) 1 = b :: B.take size := by
    intro a b
    unfold page
    rw [Nat.one_mul, List.drop_left' (by rw [List.length_cons, hA]), List.take_succ_cons]
  have hrange : List.range (m + 2) = 0 :: 1 :: (List.range m).map fun k => k + 2 := by
    rw [List.range_succ_eq_map, List.range_succ_eq_map]
    simp
  rw [hrange] at hone htwo
  simp only [List.map_cons, List.map_map, List.flatten_cons, if_true, hsecond] at hone htwo
  have hrest' : ((List.range m).map ((fun k => (page (if k = 1 then y :: A ++ x :: B
      else x :: A ++ y :: B) (size + 1) k).map f) ∘ fun k => k + 2)) =
      (List.range m).map ((fun k => (page (x :: A ++ y :: B) (size + 1) k).map f) ∘
        fun k => k + 2) := by
    refine List.map_congr_left fun k _ => ?_
    show (page (if k + 2 = 1 then _ else _) _ _).map f = _
    rw [if_neg (by omega)]
    rfl
  rw [hrest', if_neg (by decide)] at htwo
  have hperm := hone.trans htwo.symm
  rw [List.perm_append_left_iff, List.perm_append_right_iff] at hperm
  have hheads : ([f y] ++ (B.take size).map f).Perm ([f x] ++ (B.take size).map f) := hperm
  rw [List.perm_append_right_iff, List.singleton_perm_singleton] at hheads
  exact hf hheads.symm

/-- **Pages from many permutations.** Pages that are read from permutations of a list are a
permutation of it, whatever the permutations, if and only if one page holds the whole list or all
entries look alike. -/
theorem perm_pages_iff {xs : List β} {f : β → α} {size m : ℕ} (hsize : 0 < size)
    (hm : xs.length ≤ m * size) :
    (∀ orders : ℕ → List β, (∀ k, (orders k).Perm xs) →
      ((List.range m).map fun k => (page (orders k) size k).map f).flatten.Perm (xs.map f)) ↔
    xs.length ≤ size ∨ ∀ x ∈ xs, ∀ y ∈ xs, f x = f y := by
  constructor
  · intro h
    by_cases hlen : xs.length ≤ size
    · exact Or.inl hlen
    · exact Or.inr fun x hx y hy => alike_of_perm_pages hsize (by omega) hm h hx hy
  · rintro (hlen | halike) orders horders
    · -- every page but the first is empty
      rw [flatten_pages_of_alike (orders 0) ?_ (by rw [(horders 0).length_eq]; exact hm)]
      · exact (horders 0).map f
      · intro k
        cases k with
        | zero => rfl
        | succ k =>
          have hempty : ∀ i, page (orders i) size (k + 1) = [] := by
            intro i
            refine page_eq_nil ?_
            rw [(horders i).length_eq, Nat.succ_mul]
            omega
          rw [hempty, hempty]
    · rw [flatten_pages_of_alike xs ?_ hm]
      intro k
      refine List.ext_getElem ?_ ?_
      · rw [List.length_map, List.length_map, length_page, length_page, (horders k).length_eq]
      · intro i h₁ h₂
        rw [List.getElem_map, List.getElem_map]
        refine halike _ ?_ _ (page_subset _ _ _ (List.getElem_mem _))
        exact (horders k).subset (page_subset _ _ _ (List.getElem_mem _))

/-! ## Entries made of rows -/

theorem map_some_filterMap {f : α → Option β} {xs : List α} (h : ∀ x ∈ xs, (f x).isSome) :
    (xs.filterMap f).map some = xs.map f := by
  induction xs with
  | nil => rfl
  | cons x xs ih =>
    obtain ⟨y, hy⟩ := Option.isSome_iff_exists.mp (h x List.mem_cons_self)
    rw [List.filterMap_cons_some hy, List.map_cons, List.map_cons, hy,
      ih fun x' hx' => h x' (List.mem_cons_of_mem x hx')]

theorem forall₂_filterMap {R : α → β → Prop} {f : α → Option β} {xs : List α}
    (h : ∀ x ∈ xs, ∃ y, f x = some y ∧ R x y) : List.Forall₂ R xs (xs.filterMap f) := by
  induction xs with
  | nil => exact List.Forall₂.nil
  | cons x xs ih =>
    obtain ⟨y, hy, hR⟩ := h x List.mem_cons_self
    rw [List.filterMap_cons_some hy]
    exact List.Forall₂.cons hR (ih fun x' hx' => h x' (List.mem_cons_of_mem x hx'))

end Pages
