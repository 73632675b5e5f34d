import Mathlib.Data.Nat.Notation
import Mathlib.Tactic.SplitIfs

/-!
# `Encoding.UTF8`

`GetString` decodes byte by byte and writes U+FFFD for every maximal ill-formed sequence, also for
one cut off at the end. `GetBytes` encodes.
-/

namespace SmartLock.Utf8

/-- The decoder between two bytes: how many more it needs, the range of the next one, and the bits
read so far. -/
structure Decoder where
  needed : ℕ
  lower : ℕ
  upper : ℕ
  codePoint : ℕ
  deriving DecidableEq, Repr

/-- Between two characters. -/
def start : Decoder := ⟨0, 0x80, 0xBF, 0⟩

def replacement : Char := Char.ofNat 0xFFFD

/-- The first byte of a character. -/
def first (b : ℕ) : List Char × Decoder :=
  if b ≤ 0x7F then ([Char.ofNat b], start)
  else if 0xC2 ≤ b ∧ b ≤ 0xDF then ([], ⟨1, 0x80, 0xBF, b - 0xC0⟩)
  else if b = 0xE0 then ([], ⟨2, 0xA0, 0xBF, 0⟩)
  else if b = 0xED then ([], ⟨2, 0x80, 0x9F, 0xD⟩)
  else if 0xE1 ≤ b ∧ b ≤ 0xEF then ([], ⟨2, 0x80, 0xBF, b - 0xE0⟩)
  else if b = 0xF0 then ([], ⟨3, 0x90, 0xBF, 0⟩)
  else if b = 0xF4 then ([], ⟨3, 0x80, 0x8F, 4⟩)
  else if 0xF1 ≤ b ∧ b ≤ 0xF3 then ([], ⟨3, 0x80, 0xBF, b - 0xF0⟩)
  else ([replacement], start)

/-- One byte: the characters written and the decoder after it. A byte that cannot continue a
character ends it and is read again as a first byte. -/
def step (d : Decoder) (b : ℕ) : List Char × Decoder :=
  if d.needed = 0 then first b
  else if d.lower ≤ b ∧ b ≤ d.upper then
    let codePoint := d.codePoint * 64 + (b - 0x80)
    if d.needed = 1 then ([Char.ofNat codePoint], start)
    else ([], ⟨d.needed - 1, 0x80, 0xBF, codePoint⟩)
  else (replacement :: (first b).1, (first b).2)

/-- The characters of the rest of a byte sequence. -/
def decode : Decoder → List UInt8 → List Char
  | d, [] => if d.needed = 0 then [] else [replacement]
  | d, b :: bs => (step d b.toNat).1 ++ decode (step d b.toNat).2 bs

/-- `Encoding.UTF8.GetString`. -/
def getString (bytes : List UInt8) : List Char := decode start bytes

/-- `Encoding.UTF8.GetBytes`. -/
def getBytes (s : String) : List UInt8 := s.toUTF8.data.toList


/-! ## Reading back what was written -/

theorem decode_start (b : ℕ) (hb : b < 256) (bs : List UInt8) :
    decode start (UInt8.ofNat b :: bs) = (first b).1 ++ decode (first b).2 bs := by
  have hnat : (UInt8.ofNat b).toNat = b := UInt8.toNat_ofNat_of_lt hb
  rw [decode, hnat]
  rfl

theorem step_tail {n lower upper codePoint t : ℕ} (ht : t < 64) (hlo : lower ≤ t + 0x80)
    (hup : t + 0x80 ≤ upper) :
    step ⟨n + 1, lower, upper, codePoint⟩ (UInt8.ofNat (t + 0x80)).toNat =
      if n = 0 then ([Char.ofNat (codePoint * 64 + t)], start)
      else ([], ⟨n, 0x80, 0xBF, codePoint * 64 + t⟩) := by
  have hlt : t + 0x80 < 256 := by omega
  have hnat : (UInt8.ofNat (t + 0x80)).toNat = t + 0x80 := UInt8.toNat_ofNat_of_lt hlt
  rw [hnat]
  simp only [step, Nat.add_eq_zero_iff, Nat.one_ne_zero, and_false, if_false, hlo, hup, and_self,
    if_true, Nat.add_sub_cancel, Nat.add_eq_right]

theorem decode_more {n lower upper codePoint t : ℕ} (ht : t < 64) (hlo : lower ≤ t + 0x80)
    (hup : t + 0x80 ≤ upper) (bs : List UInt8) :
    decode ⟨n + 2, lower, upper, codePoint⟩ (UInt8.ofNat (t + 0x80) :: bs) =
      decode ⟨n + 1, 0x80, 0xBF, codePoint * 64 + t⟩ bs := by
  rw [decode, step_tail ht hlo hup, if_neg (Nat.succ_ne_zero n), List.nil_append]

theorem decode_last {lower upper codePoint t : ℕ} (ht : t < 64) (hlo : lower ≤ t + 0x80)
    (hup : t + 0x80 ≤ upper) (bs : List UInt8) :
    decode ⟨1, lower, upper, codePoint⟩ (UInt8.ofNat (t + 0x80) :: bs) =
      Char.ofNat (codePoint * 64 + t) :: decode start bs := by
  rw [decode, step_tail ht hlo hup, if_pos rfl, List.singleton_append]

theorem first_two : ∀ e < 32, 2 ≤ e → first (e + 0xC0) = ([], ⟨1, 0x80, 0xBF, e⟩) := by decide

theorem first_three : ∀ e < 16, first (e + 0xE0) =
    ([], ⟨2, if e = 0 then 0xA0 else 0x80, if e = 13 then 0x9F else 0xBF, e⟩) := by decide

theorem first_four : ∀ e < 5, first (e + 0xF0) =
    ([], ⟨3, if e = 0 then 0x90 else 0x80, if e = 4 then 0x8F else 0xBF, e⟩) := by decide

/-- The bytes of one character are read as that character. The cases are its lengths; that no
character is a surrogate or beyond U+10FFFF keeps its second byte in the narrowed ranges. -/
theorem decode_encodeChar (c : Char) (bs : List UInt8) :
    decode start (String.utf8EncodeChar c ++ bs) = c :: decode start bs := by
  obtain ⟨v, hv⟩ : ∃ v, v = c.val.toNat := ⟨_, rfl⟩
  have hc : Char.ofNat v = c := hv ▸ Char.ofNat_toNat c
  have hvalid : v < 0xD800 ∨ 0xDFFF < v ∧ v < 0x110000 := hv ▸ c.valid
  unfold String.utf8EncodeChar
  rw [← hv]
  dsimp only
  by_cases h1 : v ≤ 0x7F
  · rw [if_pos h1, List.singleton_append, decode_start v (by omega), first, if_pos h1,
      List.singleton_append, hc]
  rw [if_neg h1]
  by_cases h2 : v ≤ 0x7FF
  · have hlead : v / 64 % 0x20 = v / 64 := Nat.mod_eq_of_lt (by omega)
    have hcode : v / 64 * 64 + v % 64 = v := Nat.div_add_mod' v 64
    rw [if_pos h2, hlead, List.cons_append, List.cons_append, List.nil_append,
      decode_start _ (by omega), first_two _ (by omega) (by omega), List.nil_append,
      decode_last (by omega) (by omega) (by omega), hcode, hc]
  rw [if_neg h2]
  by_cases h3 : v ≤ 0xFFFF
  · have hlead : v / 4096 % 0x10 = v / 4096 := Nat.mod_eq_of_lt (by omega)
    have hcode : (v / 4096 * 64 + v / 64 % 64) * 64 + v % 64 = v := by omega
    rw [if_pos h3, hlead]
    simp only [List.cons_append, List.nil_append]
    rw [decode_start _ (by omega), first_three _ (by omega), List.nil_append,
      decode_more (by omega) (by split_ifs <;> omega) (by split_ifs <;> omega),
      decode_last (by omega) (by omega) (by omega), hcode, hc]
  · have hlead : v / 262144 % 0x08 = v / 262144 := Nat.mod_eq_of_lt (by omega)
    have hcode : ((v / 262144 * 64 + v / 4096 % 64) * 64 + v / 64 % 64) * 64 + v % 64 = v := by
      omega
    rw [if_neg h3, hlead]
    simp only [List.cons_append, List.nil_append]
    rw [decode_start _ (by omega), first_four _ (by omega), List.nil_append,
      decode_more (by omega) (by split_ifs <;> omega) (by split_ifs <;> omega),
      decode_more (by omega) (by omega) (by omega),
      decode_last (by omega) (by omega) (by omega), hcode, hc]

theorem getBytes_eq (s : String) : getBytes s = s.toList.flatMap String.utf8EncodeChar := by
  conv => lhs; rw [← String.ofList_toList (s := s)]
  rw [getBytes, String.toUTF8_eq_toByteArray, String.toByteArray_ofList, List.utf8Encode,
    List.data_toByteArray]

theorem getString_getBytes (s : String) : getString (getBytes s) = s.toList := by
  rw [getBytes_eq, getString]
  induction s.toList with
  | nil => rfl
  | cons c cs ih => rw [List.flatMap_cons, decode_encodeChar, ih]

theorem getBytes_inj {s s' : String} (h : getBytes s = getBytes s') : s = s' := by
  have hlist := congrArg getString h
  rw [getString_getBytes, getString_getBytes] at hlist
  exact String.toList_inj.mp hlist

end SmartLock.Utf8
