import SmartLock.DotNet.Text
import SmartLock.Lib.Hex

/-!
# `System.Guid`

`Guid.TryParse` with the formats it accepts, and `Guid.ToString()`. A value is the number whose 32
hexadecimal digits are printed; the five groups of the "D" format are its digits from the left.

`tryParse_toString`: the printed form is accepted and gives the value back. `canonical_toString`:
it is made of lower-case digits and hyphens only.
-/

namespace SmartLock

/-- A 128-bit value. -/
structure Guid where
  val : ℕ
  isLt : val < 2 ^ 128
  deriving DecidableEq, Repr

namespace Guid

/-- The value with the low 128 bits of `n`. -/
def ofNat (n : ℕ) : Guid := ⟨n % 2 ^ 128, Nat.mod_lt _ (by decide)⟩

@[simp] theorem ofNat_val (g : Guid) : ofNat g.val = g := by
  obtain ⟨n, h⟩ := g
  unfold ofNat
  congr 1
  exact Nat.mod_eq_of_lt h

/-! ## Printing -/

/-- The five groups of 32 digits, with a hyphen between them. -/
def hyphenate (ds : List Char) : List Char :=
  ds.take 8 ++ '-' :: ((ds.drop 8).take 4 ++ '-' :: ((ds.drop 12).take 4 ++
    '-' :: ((ds.drop 16).take 4 ++ '-' :: ds.drop 20)))

/-- `ToString()`, the "D" format. -/
def toString (g : Guid) : String := String.ofList (hyphenate (Hex.digits 32 g.val))

/-! ## Parsing -/

/-- `0x` or `0X` taken off the front. -/
def dropHexPrefix : List Char → Option (List Char)
  | '0' :: 'x' :: cs => some cs
  | '0' :: 'X' :: cs => some cs
  | _ => none

/-- `TryParseHex`: an optional `+`, an optional `0x`, leading zeros, then at most 8 digits. -/
def tryParseHex (s : List Char) : Option ℕ :=
  let s := match s with
    | '+' :: cs => cs
    | _ => s
  let digits := ((dropHexPrefix s).getD s).dropWhile (· = '0')
  match Hex.parse digits with
  | some n => if digits.length ≤ 8 then some n else none
  | none => none

/-- `TryParseExactN`: 32 digits. -/
def tryParseExactN (s : List Char) : Option Guid :=
  if s.length = 32 then (Hex.parse s).map ofNat else none

/-- `TryCompatParsing`, the components of the "D" format with prefixes inside their width. -/
def tryCompatParsing (s : List Char) : Option Guid := do
  let a ← tryParseHex (s.take 8)
  let b ← tryParseHex ((s.drop 9).take 4)
  let c ← tryParseHex ((s.drop 14).take 4)
  let d ← tryParseHex ((s.drop 19).take 4)
  let e ← tryParseHex ((s.drop 24).take 4)
  let f ← Hex.parse (s.drop 28)
  return ofNat ((((((a * 2 ^ 16 + b) * 2 ^ 16 + c) * 2 ^ 16 + d) * 2 ^ 16 + e) * 2 ^ 32) + f)

/-- The digits of the "D" format without its hyphens. -/
def unhyphenate (s : List Char) : List Char :=
  s.take 8 ++ ((s.drop 9).take 4 ++ ((s.drop 14).take 4 ++ ((s.drop 19).take 4 ++ s.drop 24)))

/-- `TryParseExactD`: groups of 8, 4, 4, 4 and 12 digits. -/
def tryParseExactD (s : List Char) : Option Guid :=
  if s.length = 36 ∧ s[8]? = some '-' ∧ s[13]? = some '-' ∧ s[18]? = some '-' ∧
      s[23]? = some '-' then
    match Hex.parse (unhyphenate s) with
    | some n => some (ofNat n)
    | none =>
      if s.any fun c => c = 'X' || c = 'x' || c = '+' then tryCompatParsing s else none
  else none

/-- `TryParseExactB` and `TryParseExactP`: the "D" format between brackets. -/
def tryParseExactBracketed (left right : Char) (s : List Char) : Option Guid :=
  if s.length = 38 ∧ s[0]? = some left ∧ s[37]? = some right then
    tryParseExactD ((s.drop 1).take 36)
  else none

/-- One number of the "X" format with the character that ends it. -/
def hexField (stop : Char) (s : List Char) : Option (ℕ × List Char) := do
  let s ← dropHexPrefix s
  let digits := s.takeWhile (· ≠ stop)
  if digits = [] then none
  else
    match s.drop digits.length with
    | [] => none
    | _ :: rest => return (← tryParseHex digits, rest)

/-- `n` byte fields ended by commas, accumulated behind `acc`. -/
def byteFields : ℕ → ℕ → List Char → Option (ℕ × List Char)
  | 0, acc, s => some (acc, s)
  | n + 1, acc, s => do
    let (v, rest) ← hexField ',' s
    if v ≤ 255 then byteFields n (acc * 256 + v) rest else none

/-- `TryParseExactX`: hexadecimal numbers in nested braces, with blanks anywhere. The two short
components keep their low 16 bits. -/
def tryParseExactX (s : List Char) : Option Guid :=
  match s.filter fun c => !isWhiteSpace c with
  | '{' :: s => do
    let (a, s) ← hexField ',' s
    let (b, s) ← hexField ',' s
    let (c, s) ← hexField ',' s
    match s with
    | '{' :: s =>
      let (bytes, s) ← byteFields 7 (((a * 2 ^ 16 + b % 2 ^ 16) * 2 ^ 16) + c % 2 ^ 16) s
      let (last, s) ← hexField '}' s
      if last ≤ 255 ∧ s = ['}'] then return ofNat (bytes * 256 + last) else none
    | _ => none
  | _ => none

/-- The parser of a trimmed string, chosen by its first character and the presence of hyphens. -/
def tryParseTrimmed (s : List Char) : Option Guid :=
  match s with
  | [] => none
  | '(' :: _ => tryParseExactBracketed '(' ')' s
  | '{' :: _ => if s.contains '-' then tryParseExactBracketed '{' '}' s else tryParseExactX s
  | _ => if s.contains '-' then tryParseExactD s else tryParseExactN s

/-- `Guid.TryParse`. -/
def tryParse (input : String) : Option Guid := tryParseTrimmed (trim input.toList)

/-! ## The printed form -/

theorem length_hyphenate {ds : List Char} (h : ds.length = 32) : (hyphenate ds).length = 36 := by
  unfold hyphenate
  simp only [List.length_append, List.length_cons, List.length_take, List.length_drop, h]
  omega

section Groups

variable {xs ys : List Char} {n : ℕ}

theorem take_group (h : xs.length = n) : (xs ++ '-' :: ys).take n = xs := List.take_left' h

theorem drop_group (h : xs.length = n) : (xs ++ '-' :: ys).drop (n + 1) = ys := by
  rw [← List.drop_drop, List.drop_left' h, List.drop_one, List.tail_cons]

theorem hyphen_after_group (h : xs.length = n) : (xs ++ '-' :: ys)[n]? = some '-' := by
  rw [← h, List.getElem?_append_right (Nat.le_refl _), Nat.sub_self]
  rfl

end Groups

theorem unhyphenate_hyphenate {ds : List Char} (h : ds.length = 32) :
    unhyphenate (hyphenate ds) = ds ∧ (hyphenate ds)[8]? = some '-' ∧
      (hyphenate ds)[13]? = some '-' ∧ (hyphenate ds)[18]? = some '-' ∧
      (hyphenate ds)[23]? = some '-' := by
  have l₁ : (ds.take 8).length = 8 := by rw [List.length_take]; omega
  have l₂ : ((ds.drop 8).take 4).length = 4 := by rw [List.length_take, List.length_drop]; omega
  have l₃ : ((ds.drop 12).take 4).length = 4 := by rw [List.length_take, List.length_drop]; omega
  have l₄ : ((ds.drop 16).take 4).length = 4 := by rw [List.length_take, List.length_drop]; omega
  -- what is left of the string after each hyphen
  have d₁ : (ds.take 8 ++ '-' :: ((ds.drop 8).take 4 ++ '-' :: ((ds.drop 12).take 4 ++
      '-' :: ((ds.drop 16).take 4 ++ '-' :: ds.drop 20)))).drop 9 = (ds.drop 8).take 4 ++
        '-' :: ((ds.drop 12).take 4 ++ '-' :: ((ds.drop 16).take 4 ++ '-' :: ds.drop 20)) :=
    drop_group l₁
  have d₂ : (hyphenate ds).drop 14 = (ds.drop 12).take 4 ++
      '-' :: ((ds.drop 16).take 4 ++ '-' :: ds.drop 20) := by
    rw [show 14 = 9 + 5 from rfl, ← List.drop_drop, hyphenate, d₁]
    exact drop_group l₂
  have d₃ : (hyphenate ds).drop 19 = (ds.drop 16).take 4 ++ '-' :: ds.drop 20 := by
    rw [show 19 = 14 + 5 from rfl, ← List.drop_drop, d₂]
    exact drop_group l₃
  have d₄ : (hyphenate ds).drop 24 = ds.drop 20 := by
    rw [show 24 = 19 + 5 from rfl, ← List.drop_drop, d₃]
    exact drop_group l₄
  refine ⟨?_, ?_, ?_, ?_, ?_⟩
  · unfold unhyphenate
    rw [d₂, d₃, d₄, hyphenate, d₁, take_group l₁, take_group l₂, take_group l₃, take_group l₄]
    have e₁ : (ds.drop 16).take 4 ++ ds.drop 20 = ds.drop 16 := by
      rw [← List.drop_drop (i := 4) (j := 16)]; exact List.take_append_drop 4 _
    have e₂ : (ds.drop 12).take 4 ++ ds.drop 16 = ds.drop 12 := by
      rw [← List.drop_drop (i := 4) (j := 12)]; exact List.take_append_drop 4 _
    have e₃ : (ds.drop 8).take 4 ++ ds.drop 12 = ds.drop 8 := by
      rw [← List.drop_drop (i := 4) (j := 8)]; exact List.take_append_drop 4 _
    rw [e₁, e₂, e₃, List.take_append_drop]
  · exact hyphen_after_group l₁
  · rw [show 13 = 9 + 4 from rfl, ← List.getElem?_drop, hyphenate, d₁]
    exact hyphen_after_group l₂
  · rw [show 18 = 14 + 4 from rfl, ← List.getElem?_drop, d₂]
    exact hyphen_after_group l₃
  · rw [show 23 = 19 + 4 from rfl, ← List.getElem?_drop, d₃]
    exact hyphen_after_group l₄

theorem mem_hyphenate {ds : List Char} {c : Char} (h : c ∈ hyphenate ds) : c = '-' ∨ c ∈ ds := by
  unfold hyphenate at h
  simp only [List.mem_append, List.mem_cons] at h
  rcases h with h | h | h | h | h | h | h | h | h
  · exact Or.inr (List.mem_of_mem_take h)
  · exact Or.inl h
  · exact Or.inr (List.mem_of_mem_drop (List.mem_of_mem_take h))
  · exact Or.inl h
  · exact Or.inr (List.mem_of_mem_drop (List.mem_of_mem_take h))
  · exact Or.inl h
  · exact Or.inr (List.mem_of_mem_drop (List.mem_of_mem_take h))
  · exact Or.inl h
  · exact Or.inr (List.mem_of_mem_drop h)

/-- A lower-case hexadecimal digit or a hyphen. -/
def isCanonical (c : Char) : Bool := ('0' ≤ c && c ≤ '9') || ('a' ≤ c && c ≤ 'f') || c = '-'

theorem isCanonical_digit {d : ℕ} (h : d < 16) : isCanonical (Hex.digit d) = true := by
  interval_cases d <;> decide

@[simp] theorem toList_toString (g : Guid) :
    g.toString.toList = hyphenate (Hex.digits 32 g.val) := by
  unfold toString
  rw [String.toList_ofList]

theorem canonical_toString (g : Guid) : ∀ c ∈ g.toString.toList, isCanonical c = true := by
  intro c hc
  rw [toList_toString] at hc
  rcases mem_hyphenate hc with rfl | hc
  · decide
  · obtain ⟨d, hd, rfl⟩ := Hex.mem_digits hc
    exact isCanonical_digit hd

theorem canonical_range {c : Char} (h : isCanonical c = true) :
    (48 ≤ c.toNat ∧ c.toNat ≤ 57) ∨ (97 ≤ c.toNat ∧ c.toNat ≤ 102) ∨ c.toNat = 45 := by
  unfold isCanonical at h
  simp only [Bool.or_eq_true, Bool.and_eq_true, decide_eq_true_eq] at h
  rcases h with (⟨h₁, h₂⟩ | ⟨h₁, h₂⟩) | rfl
  · exact Or.inl ⟨h₁, h₂⟩
  · exact Or.inr (Or.inl ⟨h₁, h₂⟩)
  · exact Or.inr (Or.inr rfl)

theorem toLower_of_canonical {c : Char} (h : isCanonical c = true) : c.toLower = c := by
  have hr := canonical_range h
  unfold Char.toLower
  rw [dif_neg]
  rintro ⟨hlo, hhi⟩
  have hlo' : 65 ≤ c.toNat := hlo
  have hhi' : c.toNat ≤ 90 := hhi
  omega

theorem map_toLower_toString (g : Guid) :
    g.toString.toList.map Char.toLower = g.toString.toList := by
  rw [List.map_congr_left fun c hc => toLower_of_canonical (canonical_toString g c hc),
    List.map_id']

/-! ## Other spellings of the printed form -/

theorem isCanonical_or_capital {c : Char} (h : isCanonical c.toLower = true) :
    isCanonical c = true ∨ 65 ≤ c.toNat ∧ c.toNat ≤ 70 := by
  revert h
  refine Hex.toLower_cases (p := fun c l => isCanonical l = true →
    isCanonical c = true ∨ 65 ≤ c.toNat ∧ c.toNat ≤ 70) ?_ (fun _ h => Or.inl h) c
  intro n hlo hhi
  interval_cases n <;> decide

theorem toLower_range {c : Char} (h : isCanonical c.toLower = true) :
    45 ≤ c.toNat ∧ c.toNat ≤ 102 := by
  rcases isCanonical_or_capital h with h | h
  · have := canonical_range h
    omega
  · omega

theorem not_isWhiteSpace_of_toLower {c : Char} (h : isCanonical c.toLower = true) :
    isWhiteSpace c = false := by
  have hr := toLower_range h
  unfold isWhiteSpace
  simp only [Bool.or_eq_false_iff, Bool.and_eq_false_iff, decide_eq_false_iff_not,
    List.contains_eq_mem, List.mem_cons, List.not_mem_nil, or_false]
  omega

section Lower

variable {t : List Char} {g : Guid}

theorem getElem?_of_toLower (h : t.map Char.toLower = g.toString.toList) {n : ℕ}
    (hn : g.toString.toList[n]? = some '-') : t[n]? = some '-' := by
  rw [← h, List.getElem?_map] at hn
  obtain ⟨c, hc, hlow⟩ := Option.map_eq_some_iff.mp hn
  rw [hc, Hex.eq_of_toLower (by decide) hlow]

theorem unhyphenate_map (f : Char → Char) (s : List Char) :
    unhyphenate (s.map f) = (unhyphenate s).map f := by
  unfold unhyphenate
  simp only [List.map_append, List.map_take, List.map_drop]

theorem tryParseExactD_of_toLower (h : t.map Char.toLower = g.toString.toList) :
    tryParseExactD t = some g := by
  have hlen := Hex.length_digits 32 g.val
  obtain ⟨hun, h8, h13, h18, h23⟩ := unhyphenate_hyphenate hlen
  rw [← toList_toString] at h8 h13 h18 h23
  have hlength : t.length = 36 := by
    rw [← List.length_map (f := Char.toLower), h, toList_toString, length_hyphenate hlen]
  have hparse : Hex.parse (unhyphenate t) = some g.val := by
    rw [← Hex.parse_map_toLower, ← unhyphenate_map, h, toList_toString, hun, Hex.parse_digits,
      Nat.mod_eq_of_lt (by have := g.isLt; omega)]
  unfold tryParseExactD
  rw [if_pos ⟨hlength, getElem?_of_toLower h h8, getElem?_of_toLower h h13,
    getElem?_of_toLower h h18, getElem?_of_toLower h h23⟩, hparse]
  exact congrArg some g.ofNat_val

theorem tryParseTrimmed_of_toLower (h : t.map Char.toLower = g.toString.toList) :
    tryParseTrimmed t = tryParseExactD t := by
  have hcan : ∀ c ∈ t, isCanonical c.toLower = true := by
    intro c hc
    refine canonical_toString g _ ?_
    rw [← h]
    exact List.mem_map_of_mem hc
  have hhyphen : t.contains '-' = true := by
    refine List.contains_iff_mem.mpr (List.mem_of_getElem? (getElem?_of_toLower (n := 8) h ?_))
    rw [toList_toString]
    exact (unhyphenate_hyphenate (Hex.length_digits 32 g.val)).2.1
  cases t with
  | nil => cases hhyphen
  | cons c cs =>
    have hc := toLower_range (hcan c List.mem_cons_self)
    have h₁ : c ≠ '(' := by rintro rfl; revert hc; decide
    have h₂ : c ≠ '{' := by rintro rfl; revert hc; decide
    unfold tryParseTrimmed
    split
    · next e => cases e
    · next e => exact absurd (List.cons.inj e).1 h₁
    · next e => exact absurd (List.cons.inj e).1 h₂
    · rw [if_pos hhyphen]

end Lower

/-- `Guid.TryParse` accepts the printed form in any letter case and before any blanks. -/
theorem tryParse_of_toLower {s : String} {g : Guid} {t blanks : List Char}
    (hs : s.toList = t ++ blanks) (h : t.map Char.toLower = g.toString.toList)
    (hb : ∀ c ∈ blanks, isWhiteSpace c = true) : tryParse s = some g := by
  have htrim : trim (t ++ blanks) = t := by
    refine trim_append (fun c hc => not_isWhiteSpace_of_toLower ?_) hb
    refine canonical_toString g _ ?_
    rw [← h]
    exact List.mem_map_of_mem hc
  unfold tryParse
  rw [hs, htrim, tryParseTrimmed_of_toLower h, tryParseExactD_of_toLower h]

/-- **Round trip.** `Guid.TryParse` accepts what `ToString` prints and gives the value back. -/
theorem tryParse_toString (g : Guid) : tryParse g.toString = some g :=
  tryParse_of_toLower (List.append_nil _).symm (map_toLower_toString g) (fun _ h => by cases h)

theorem toString_injective : Function.Injective toString := by
  intro g g' h
  have hback := tryParse_toString g
  rw [h, tryParse_toString] at hback
  exact (Option.some.inj hback).symm

/-- A string is a printed Guid exactly when parsing and printing leave it as it is. -/
theorem exists_eq_toString_iff {s : String} :
    (∃ g : Guid, s = g.toString) ↔ (tryParse s).map toString = some s := by
  constructor
  · rintro ⟨g, rfl⟩
    rw [tryParse_toString]
    rfl
  · intro h
    obtain ⟨g, -, hg⟩ := Option.map_eq_some_iff.mp h
    exact ⟨g, hg.symm⟩

end Guid

end SmartLock
