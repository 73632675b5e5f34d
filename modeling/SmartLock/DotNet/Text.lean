import Mathlib.Data.List.TakeWhile

/-!
# Characters and strings of .NET

The few members of `Char` and `String` that the modelled code uses.
-/

namespace SmartLock

/-- `Char.IsWhiteSpace`. -/
def isWhiteSpace (c : Char) : Bool :=
  (0x09 ≤ c.toNat && c.toNat ≤ 0x0D) || (0x2000 ≤ c.toNat && c.toNat ≤ 0x200A) ||
    [0x20, 0x85, 0xA0, 0x1680, 0x2028, 0x2029, 0x202F, 0x205F, 0x3000].contains c.toNat

/-- `Trim`. -/
def trim (s : List Char) : List Char :=
  ((s.dropWhile isWhiteSpace).reverse.dropWhile isWhiteSpace).reverse

theorem dropWhile_isWhiteSpace {s : List Char} (h : ∀ c ∈ s, isWhiteSpace c = false) :
    s.dropWhile isWhiteSpace = s := by
  cases s with
  | nil => rfl
  | cons c s => rw [List.dropWhile_cons, h c List.mem_cons_self]; rfl

/-- Trailing blanks go, and what has no blank stays. -/
theorem trim_append {s blanks : List Char} (h : ∀ c ∈ s, isWhiteSpace c = false)
    (hb : ∀ c ∈ blanks, isWhiteSpace c = true) : trim (s ++ blanks) = s := by
  have hrev : (s ++ blanks).reverse.dropWhile isWhiteSpace = s.reverse := by
    rw [List.reverse_append,
      List.dropWhile_append_of_pos fun c hc => hb c (List.mem_reverse.mp hc)]
    exact dropWhile_isWhiteSpace fun c hc => h c (List.mem_reverse.mp hc)
  unfold trim
  cases s with
  | nil =>
    rw [List.nil_append, List.dropWhile_eq_nil_iff.mpr hb]
    rfl
  | cons c s =>
    have hc : isWhiteSpace c = false := h c List.mem_cons_self
    rw [List.cons_append, List.dropWhile_cons, hc, if_neg Bool.false_ne_true, ← List.cons_append,
      hrev, List.reverse_reverse]

/-- `String.IsNullOrWhiteSpace`. -/
def isNullOrWhiteSpace : Option String → Bool
  | none => true
  | some s => s.toList.all isWhiteSpace

/-- `Length`, in UTF-16 code units: a character beyond the basic plane takes two. -/
def utf16Length (s : String) : ℕ :=
  s.toList.length + s.toList.countP fun c => 0x10000 ≤ c.toNat

end SmartLock
