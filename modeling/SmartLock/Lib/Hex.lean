import Mathlib.Tactic.IntervalCases
import Mathlib.Tactic.NormNum

/-!
# Hexadecimal digits

Reading a list of hexadecimal digits as a number, in either letter case, and writing a number with
a fixed count of lower-case digits.
-/

namespace Hex

/-- The value of a hexadecimal digit. -/
def value? (c : Char) : Option ℕ :=
  if '0' ≤ c ∧ c ≤ '9' then some (c.toNat - 48)
  else if 'a' ≤ c ∧ c ≤ 'f' then some (c.toNat - 87)
  else if 'A' ≤ c ∧ c ≤ 'F' then some (c.toNat - 55)
  else none

/-- The lower-case digit of a value below 16. -/
def digit (d : ℕ) : Char := if d < 10 then Char.ofNat (48 + d) else Char.ofNat (87 + d)

theorem value?_digit {d : ℕ} (h : d < 16) : value? (digit d) = some d := by
  interval_cases d <;> decide

/-- What holds of the capitals and their lower case, and of each character and itself, holds of
each character and its lower case. -/
theorem toLower_cases {p : Char → Char → Prop}
    (hup : ∀ n, 65 ≤ n → n ≤ 90 → p (Char.ofNat n) (Char.ofNat n).toLower) (hid : ∀ c, p c c)
    (c : Char) : p c c.toLower := by
  by_cases h : 65 ≤ c.toNat ∧ c.toNat ≤ 90
  · rw [← Char.ofNat_toNat c]
    exact hup c.toNat h.1 h.2
  · have hsame : c.toLower = c := by
      unfold Char.toLower
      exact dif_neg h
    rw [hsame]
    exact hid c

theorem eq_of_toLower {c d : Char} (hd : ¬ (97 ≤ d.toNat ∧ d.toNat ≤ 122)) (h : c.toLower = d) :
    c = d := by
  subst h
  revert hd
  refine toLower_cases (p := fun c l => ¬ (97 ≤ l.toNat ∧ l.toNat ≤ 122) → c = l) ?_
    (fun _ _ => rfl) c
  intro n hlo hhi
  interval_cases n <;> decide

theorem value?_toLower (c : Char) : value? c.toLower = value? c := by
  refine toLower_cases (p := fun c l => value? l = value? c) ?_ (fun _ => rfl) c
  intro n hlo hhi
  interval_cases n <;> decide

/-- Reads the digits of `cs` behind those that make up `acc`. -/
def parseFrom : ℕ → List Char → Option ℕ
  | acc, [] => some acc
  | acc, c :: cs => (value? c).bind fun d => parseFrom (16 * acc + d) cs

/-- The number that a list of digits denotes. -/
def parse (cs : List Char) : Option ℕ := parseFrom 0 cs

/-- The last `w` digits of `n`. -/
def digits : ℕ → ℕ → List Char
  | 0, _ => []
  | w + 1, n => digits w (n / 16) ++ [digit (n % 16)]

theorem parseFrom_append (acc : ℕ) (cs ds : List Char) :
    parseFrom acc (cs ++ ds) = (parseFrom acc cs).bind fun n => parseFrom n ds := by
  induction cs generalizing acc with
  | nil => rfl
  | cons c cs ih =>
    rw [List.cons_append, parseFrom, parseFrom, Option.bind_assoc]
    exact congrArg _ (funext fun d => ih _)

theorem parseFrom_map_toLower (acc : ℕ) (cs : List Char) :
    parseFrom acc (cs.map Char.toLower) = parseFrom acc cs := by
  induction cs generalizing acc with
  | nil => rfl
  | cons c cs ih =>
    rw [List.map_cons, parseFrom, parseFrom, value?_toLower]
    exact congrArg _ (funext fun d => ih _)

theorem parse_map_toLower (cs : List Char) : parse (cs.map Char.toLower) = parse cs :=
  parseFrom_map_toLower 0 cs

theorem length_digits (w n : ℕ) : (digits w n).length = w := by
  induction w generalizing n with
  | zero => rfl
  | succ w ih => rw [digits, List.length_append, ih, List.length_singleton]

/-- The digits written are read back as the number, up to the digits left out. -/
theorem parse_digits (w n : ℕ) : parse (digits w n) = some (n % 16 ^ w) := by
  induction w generalizing n with
  | zero => rw [Nat.pow_zero, Nat.mod_one]; rfl
  | succ w ih =>
    have hd : n % 16 < 16 := Nat.mod_lt _ (by norm_num)
    have hlow : n % 16 ^ (w + 1) = 16 * (n / 16 % 16 ^ w) + n % 16 := by
      rw [Nat.pow_succ', Nat.mod_mul]; omega
    unfold parse at ih ⊢
    rw [digits, parseFrom_append, ih, Option.bind_some, parseFrom, value?_digit hd,
      Option.bind_some, parseFrom, hlow]

theorem mem_digits {w n : ℕ} {c : Char} (h : c ∈ digits w n) : ∃ d < 16, c = digit d := by
  induction w generalizing n with
  | zero => cases h
  | succ w ih =>
    rcases List.mem_append.mp h with h | h
    · exact ih h
    · exact ⟨n % 16, Nat.mod_lt _ (by norm_num), List.mem_singleton.mp h⟩

end Hex
