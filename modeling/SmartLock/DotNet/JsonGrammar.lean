import Mathlib.Data.List.TakeWhile
import SmartLock.DotNet.Json

/-!
# The grammar of JSON

RFC 8259 apart from the reader. `parse` accepts exactly the texts that the grammar derives with at
most `maxDepth` levels, and gives the value that the derivation spells.
-/

namespace SmartLock.Json

/-! ## The grammar -/

def Blanks (a : List Char) : Prop := ∀ c ∈ a, isBlank c

/-- The inside of a string and the code units that it stands for. -/
inductive Chars : List Char → List ℕ → Prop
  | nil : Chars [] []
  | plain {c cs us} : 0x20 ≤ c.toNat → c ≠ '"' → c ≠ '\\' → Chars cs us →
      Chars (c :: cs) (c.toNat :: us)
  | escape {c e cs us} : escape c = some e → Chars cs us → Chars ('\\' :: c :: cs) (e.toNat :: us)
  | unicode {a b c d unit cs us} : Hex.parse [a, b, c, d] = some unit → Chars cs us →
      Chars ('\\' :: 'u' :: a :: b :: c :: d :: cs) (unit :: us)

def Digits (ds : List Char) : Prop := ds ≠ [] ∧ ∀ c ∈ ds, c.isDigit

/-- No leading zero. -/
def Integer (t : List Char) : Prop := t = ['0'] ∨ Digits t ∧ t.head? ≠ some '0'

def Fraction (t : List Char) : Prop := t = [] ∨ ∃ ds, t = '.' :: ds ∧ Digits ds

def Exponent (t : List Char) : Prop :=
  t = [] ∨ ∃ e sign ds, t = e :: (sign ++ ds) ∧ (e = 'e' ∨ e = 'E') ∧
    (sign = [] ∨ sign = ['+'] ∨ sign = ['-']) ∧ Digits ds

def Number (t : List Char) : Prop :=
  ∃ sign int frac exp, t = sign ++ int ++ frac ++ exp ∧ (sign = [] ∨ sign = ['-']) ∧
    Integer int ∧ Fraction frac ∧ Exponent exp

mutual

/-- A value with at most so many levels, without blanks around it. -/
inductive Value : ℕ → List Char → Json → Prop
  | nullText {n} : Value n ['n', 'u', 'l', 'l'] .null
  | trueText {n} : Value n ['t', 'r', 'u', 'e'] (.bool true)
  | falseText {n} : Value n ['f', 'a', 'l', 's', 'e'] (.bool false)
  | number {n t} : Number t → Value n t (.number t)
  | string {n body us} : Chars body us →
      Value n (['"'] ++ body ++ ['"']) (.string (decodeUnits us))
  | noItems {n a} : Blanks a → Value (n + 1) (['['] ++ a ++ [']']) (.array [])
  | array {n t xs} : Items n t xs → Value (n + 1) (['['] ++ t ++ [']']) (.array xs)
  | noMembers {n a} : Blanks a → Value (n + 1) (['{'] ++ a ++ ['}']) (.object [])
  | object {n t ms} : Members n t ms → Value (n + 1) (['{'] ++ t ++ ['}']) (.object ms)

/-- Items between commas, one at least. -/
inductive Items : ℕ → List Char → List Json → Prop
  | last {n a t b v} : Blanks a → Value n t v → Blanks b → Items n (a ++ t ++ b) [v]
  | cons {n a t b v ts xs} : Blanks a → Value n t v → Blanks b → Items n ts xs →
      Items n (a ++ t ++ b ++ [','] ++ ts) (v :: xs)

/-- Members between commas, one at least. -/
inductive Members : ℕ → List Char → List (Option (List Char) × Json) → Prop
  | last {n a body us b c t d v} : Blanks a → Chars body us → Blanks b →
      Blanks c → Value n t v → Blanks d →
      Members n (a ++ ['"'] ++ body ++ ['"'] ++ b ++ [':'] ++ c ++ t ++ d) [(decodeUnits us, v)]
  | cons {n a body us b c t d v ts ms} : Blanks a → Chars body us → Blanks b →
      Blanks c → Value n t v → Blanks d → Members n ts ms →
      Members n (a ++ ['"'] ++ body ++ ['"'] ++ b ++ [':'] ++ c ++ t ++ d ++ [','] ++ ts)
        ((decodeUnits us, v) :: ms)

end

/-- A whole text and its value. -/
def Text (s : List Char) (v : Json) : Prop :=
  ∃ a t b, s = a ++ t ++ b ∧ Blanks a ∧ Value maxDepth t v ∧ Blanks b

/-! ## Blanks and what may follow a value -/

theorem skipBlanks_append {a : List Char} (ha : Blanks a) (s : List Char) :
    skipBlanks (a ++ s) = skipBlanks s := by
  induction a with
  | nil => rfl
  | cons c a ih =>
    have hc : isBlank c = true := ha c List.mem_cons_self
    rw [skipBlanks, List.cons_append, List.dropWhile_cons, if_pos hc]
    exact ih fun d hd => ha d (List.mem_cons_of_mem c hd)

theorem skipBlanks_cons {c : Char} (hc : isBlank c = false) (s : List Char) :
    skipBlanks (c :: s) = c :: s := by
  rw [skipBlanks, List.dropWhile_cons, if_neg (Bool.not_eq_true _ ▸ hc)]

theorem skipBlanks_to {a : List Char} (ha : Blanks a) {c : Char} (hc : isBlank c = false)
    (s : List Char) : skipBlanks (a ++ c :: s) = c :: s := by
  rw [skipBlanks_append ha, skipBlanks_cons hc]

theorem skipBlanks_eq_nil {s : List Char} : skipBlanks s = [] ↔ Blanks s := List.dropWhile_eq_nil_iff

theorem exists_skipBlanks (s : List Char) : ∃ a, Blanks a ∧ s = a ++ skipBlanks s :=
  ⟨s.takeWhile isBlank, fun _ => List.mem_takeWhile_imp, (List.takeWhile_append_dropWhile).symm⟩

/-- What may stand behind a value: nothing, a blank, a comma or a closing bracket. -/
def Stops (rest : List Char) : Prop :=
  ∀ c ∈ rest.head?, isBlank c ∨ c = ',' ∨ c = ']' ∨ c = '}'

theorem stops_append {b : List Char} (hb : Blanks b) {rest : List Char} (h : Stops rest) :
    Stops (b ++ rest) := by
  cases b with
  | nil => exact h
  | cons c b =>
    intro d hd
    obtain rfl : c = d := Option.some.inj hd
    exact Or.inl (hb c List.mem_cons_self)

/-! ## Strings -/

theorem scanString_plain {c : Char} (hlo : 0x20 ≤ c.toNat) (hq : c ≠ '"') (hb : c ≠ '\\')
    (cs : List Char) :
    scanString (c :: cs) = (scanString cs).map fun p => (c.toNat :: p.1, p.2) := by
  have hok : ¬ (c.toNat < 0x20 ∨ c = '\\') := by
    rintro (h | h)
    · omega
    · exact hb h
  rw [scanString.eq_def]
  split
  · next h => exact absurd (List.cons.inj h).1 hq
  · next h => exact absurd (List.cons.inj h).1 hb
  · next h => exact absurd (List.cons.inj h).1 hb
  · next h =>
    obtain ⟨rfl, rfl⟩ := List.cons.inj h
    rw [if_neg hok]
    cases scanString cs <;> rfl
  · next h => cases h

theorem scanString_escape {c e : Char} (he : escape c = some e) (cs : List Char) :
    scanString ('\\' :: c :: cs) = (scanString cs).map fun p => (e.toNat :: p.1, p.2) := by
  have hu : c ≠ 'u' := by
    rintro rfl
    cases he
  rw [scanString.eq_def]
  split
  · next h => cases h
  · next h => exact absurd (List.cons.inj (List.cons.inj h).2).1 hu
  · next h =>
    obtain ⟨rfl, rfl⟩ := List.cons.inj (List.cons.inj h).2
    rw [he]
    cases scanString cs <;> rfl
  · next hesc h =>
    obtain ⟨rfl, rfl⟩ := List.cons.inj h
    exact absurd rfl (hesc c cs rfl)
  · next h => cases h

/-- The reader of strings reads the grammar's strings up to the closing quote. -/
theorem scanString_append {body : List Char} {us : List ℕ} (h : Chars body us) (rest : List Char) :
    scanString (body ++ '"' :: rest) = some (us, rest) := by
  induction h with
  | nil => rfl
  | plain hlo hq hb _ ih => rw [List.cons_append, scanString_plain hlo hq hb, ih, Option.map_some]
  | escape he _ ih =>
    rw [List.cons_append, List.cons_append, scanString_escape he, ih, Option.map_some]
  | unicode hu _ ih =>
    simp only [List.cons_append, scanString, hu, ih, bind, Option.bind, pure]

theorem parseString_append {body : List Char} {us : List ℕ} (h : Chars body us)
    (rest : List Char) : parseString (body ++ '"' :: rest) = some (decodeUnits us, rest) := by
  rw [parseString, scanString_append h, Option.map_some]

theorem chars_of_scanString {s rest : List Char} {us : List ℕ}
    (h : scanString s = some (us, rest)) : ∃ body, s = body ++ '"' :: rest ∧ Chars body us := by
  induction s using scanString.induct generalizing us rest with
  | case1 cs =>
    obtain ⟨rfl, rfl⟩ := Prod.mk.inj (Option.some.inj h)
    exact ⟨[], rfl, .nil⟩
  | case2 a b c d cs ih =>
    rw [scanString] at h
    simp only [Option.bind_eq_bind, Option.bind_eq_some_iff, Option.pure_def] at h
    obtain ⟨unit, hu, ⟨us, rest⟩, hs, heq⟩ := h
    obtain ⟨rfl, rfl⟩ := Prod.mk.inj (Option.some.inj heq)
    obtain ⟨body, rfl, hbody⟩ := ih hs
    exact ⟨_, rfl, hbody.unicode hu⟩
  | case3 c cs hu ih =>
    rw [scanString.eq_3 _ _ hu] at h
    simp only [Option.bind_eq_bind, Option.bind_eq_some_iff, Option.pure_def] at h
    obtain ⟨e, he, ⟨us, rest⟩, hs, heq⟩ := h
    obtain ⟨rfl, rfl⟩ := Prod.mk.inj (Option.some.inj heq)
    obtain ⟨body, rfl, hbody⟩ := ih hs
    exact ⟨_, rfl, hbody.escape he⟩
  | case4 c cs hq hu hesc hbad =>
    rw [scanString.eq_4 _ _ hq hu hesc, if_pos hbad] at h
    cases h
  | case5 c cs hq hu hesc hok ih =>
    rw [scanString_plain (by omega) hq fun hb => hok (Or.inr hb)] at h
    obtain ⟨⟨us, rest⟩, hs, heq⟩ := Option.map_eq_some_iff.mp h
    obtain ⟨rfl, rfl⟩ := Prod.mk.inj heq
    obtain ⟨body, rfl, hbody⟩ := ih hs
    exact ⟨_, rfl, hbody.plain (by omega) hq fun hb => hok (Or.inr hb)⟩
  | case6 => cases h

/-! ## Numbers -/

theorem parseDigits_append {ds : List Char} (hds : Digits ds) {rest : List Char}
    (hrest : ∀ c ∈ rest.head?, c.isDigit = false) : parseDigits (ds ++ rest) = some (ds, rest) := by
  have htake : (ds ++ rest).takeWhile Char.isDigit = ds := by
    rw [List.takeWhile_append_of_pos hds.2]
    cases rest with
    | nil => exact List.append_nil ds
    | cons c rest =>
      have hc : c.isDigit = false := hrest c rfl
      rw [List.takeWhile_cons, if_neg (Bool.not_eq_true _ ▸ hc), List.append_nil]
  rw [parseDigits, htake, if_neg hds.1, List.drop_left]

theorem digits_of_parseDigits {s ds rest : List Char} (h : parseDigits s = some (ds, rest)) :
    s = ds ++ rest ∧ Digits ds := by
  unfold parseDigits at h
  dsimp only at h
  split_ifs at h with hnil
  obtain ⟨rfl, rfl⟩ := Prod.mk.inj (Option.some.inj h)
  exact ⟨(List.prefix_iff_eq_append.mp (List.takeWhile_prefix _)).symm, hnil,
    fun c => List.mem_takeWhile_imp⟩

theorem parseInteger_append {t : List Char} (ht : Integer t) {rest : List Char}
    (hrest : ∀ c ∈ rest.head?, c.isDigit = false) : parseInteger (t ++ rest) = some (t, rest) := by
  obtain rfl | ⟨hds, hzero⟩ := ht
  · rfl
  · rw [parseInteger.eq_2 _ ?_, parseDigits_append hds hrest]
    cases t with
    | nil => exact absurd rfl hds.1
    | cons c ds =>
      rintro rest' h
      exact hzero (congrArg some (List.cons.inj h).1)

theorem integer_of_parseInteger {s t rest : List Char} (h : parseInteger s = some (t, rest)) :
    s = t ++ rest ∧ Integer t := by
  unfold parseInteger at h
  split at h
  · obtain ⟨rfl, rfl⟩ := Prod.mk.inj (Option.some.inj h)
    exact ⟨rfl, Or.inl rfl⟩
  · next hzero =>
    obtain ⟨rfl, hds⟩ := digits_of_parseDigits h
    refine ⟨rfl, Or.inr ⟨hds, fun hhead => ?_⟩⟩
    obtain ⟨ds, rfl⟩ := List.head?_eq_some_iff.mp hhead
    exact hzero _ rfl

theorem parseFraction_append {t : List Char} (ht : Fraction t) {rest : List Char}
    (hrest : ∀ c ∈ rest.head?, c.isDigit = false ∧ c ≠ '.') :
    parseFraction (t ++ rest) = some (t, rest) := by
  obtain rfl | ⟨ds, rfl, hds⟩ := ht
  · exact parseFraction.eq_2 _ fun r h => (hrest '.' (by rw [← List.nil_append rest, h]; rfl)).2 rfl
  · rw [List.cons_append, parseFraction, parseDigits_append hds fun c hc => (hrest c hc).1,
      Option.map_some]

theorem fraction_of_parseFraction {s t rest : List Char} (h : parseFraction s = some (t, rest)) :
    s = t ++ rest ∧ Fraction t := by
  unfold parseFraction at h
  split at h
  · obtain ⟨⟨ds, rest⟩, hread, heq⟩ := Option.map_eq_some_iff.mp h
    obtain ⟨rfl, rfl⟩ := Prod.mk.inj heq
    obtain ⟨rfl, hds⟩ := digits_of_parseDigits hread
    exact ⟨rfl, Or.inr ⟨ds, rfl, hds⟩⟩
  · obtain ⟨rfl, rfl⟩ := Prod.mk.inj (Option.some.inj h)
    exact ⟨rfl, Or.inl rfl⟩

theorem parseExponent_append {t : List Char} (ht : Exponent t) {rest : List Char}
    (hrest : ∀ c ∈ rest.head?, c.isDigit = false ∧ c ≠ 'e' ∧ c ≠ 'E') :
    parseExponent (t ++ rest) = some (t, rest) := by
  obtain rfl | ⟨e, sign, ds, rfl, he, hsign, hds⟩ := ht
  · cases rest with
    | nil => rfl
    | cons c rest =>
      obtain ⟨-, he, hE⟩ := hrest c rfl
      cases rest with
      | nil => simp [parseExponent, he, hE]
      | cons d rest => simp [parseExponent, he, hE]
  · have hread := parseDigits_append hds fun c hc => (hrest c hc).1
    obtain rfl | hsign := hsign
    · obtain ⟨d, ds, rfl⟩ := List.exists_cons_of_ne_nil hds.1
      have hd : d.isDigit = true := hds.2 d List.mem_cons_self
      have hplus : ¬ (d = '+' ∨ d = '-') := by
        rintro (rfl | rfl) <;> cases hd
      simp only [List.nil_append, List.cons_append] at hread ⊢
      simp only [parseExponent, he, if_true, hplus, if_false, hread, Option.map_some]
    · obtain rfl | rfl := hsign <;>
        simp [parseExponent, he, hread]

theorem exponent_of_parseExponent {s t rest : List Char} (h : parseExponent s = some (t, rest)) :
    s = t ++ rest ∧ Exponent t := by
  unfold parseExponent at h
  split at h
  · next e sign r =>
    split_ifs at h with he hsign
    · obtain ⟨⟨ds, rest⟩, hread, heq⟩ := Option.map_eq_some_iff.mp h
      obtain ⟨rfl, rfl⟩ := Prod.mk.inj heq
      obtain ⟨rfl, hds⟩ := digits_of_parseDigits hread
      refine ⟨rfl, Or.inr ⟨e, [sign], ds, rfl, he, Or.inr ?_, hds⟩⟩
      obtain rfl | rfl := hsign
      · exact Or.inl rfl
      · exact Or.inr rfl
    · obtain ⟨⟨ds, rest⟩, hread, heq⟩ := Option.map_eq_some_iff.mp h
      obtain ⟨rfl, rfl⟩ := Prod.mk.inj heq
      obtain ⟨hr, hds⟩ := digits_of_parseDigits hread
      exact ⟨by rw [hr, List.cons_append], Or.inr ⟨e, [], ds, rfl, he, Or.inl rfl, hds⟩⟩
    · obtain ⟨rfl, rfl⟩ := Prod.mk.inj (Option.some.inj h)
      exact ⟨rfl, Or.inl rfl⟩
  · split_ifs at h
    obtain ⟨rfl, rfl⟩ := Prod.mk.inj (Option.some.inj h)
    exact ⟨rfl, Or.inl rfl⟩

theorem Stops.ne_of_mem {rest : List Char} (h : Stops rest) {c : Char} (hc : c ∈ rest.head?) :
    c.isDigit = false ∧ c ≠ '.' ∧ c ≠ 'e' ∧ c ≠ 'E' := by
  have hcases := h c hc
  simp only [isBlank, Bool.or_eq_true, decide_eq_true_eq] at hcases
  rcases hcases with (((rfl | rfl) | rfl) | rfl) | rfl | rfl | rfl <;> decide

/-- The reader of numbers takes the whole number where a value may stop. -/
theorem parseNumber_append {t : List Char} (ht : Number t) {rest : List Char} (hrest : Stops rest) :
    parseNumber (t ++ rest) = some (t, rest) := by
  obtain ⟨sign, int, frac, exp, rfl, hsign, hint, hfrac, hexp⟩ := ht
  have hexp' : parseExponent (exp ++ rest) = some (exp, rest) :=
    parseExponent_append hexp fun c hc => ⟨(hrest.ne_of_mem hc).1, (hrest.ne_of_mem hc).2.2⟩
  have hbehind : ∀ c ∈ (exp ++ rest).head?, c.isDigit = false ∧ c ≠ '.' := by
    obtain rfl | ⟨e, sign, ds, rfl, he, -⟩ := hexp
    · exact fun c hc => ⟨(hrest.ne_of_mem hc).1, (hrest.ne_of_mem hc).2.1⟩
    · rintro c ⟨⟩
      obtain rfl | rfl := he <;> decide
  have hfrac' : parseFraction (frac ++ (exp ++ rest)) = some (frac, exp ++ rest) :=
    parseFraction_append hfrac hbehind
  have hint' : parseInteger (int ++ (frac ++ (exp ++ rest))) = some (int, frac ++ (exp ++ rest)) := by
    refine parseInteger_append hint ?_
    obtain rfl | ⟨ds, rfl, -⟩ := hfrac
    · exact fun c hc => (hbehind c hc).1
    · rintro c ⟨⟩
      rfl
  obtain rfl | rfl := hsign
  · obtain ⟨c, int, rfl⟩ : ∃ c cs, int = c :: cs := by
      obtain rfl | ⟨hds, -⟩ := hint
      · exact ⟨_, _, rfl⟩
      · exact List.exists_cons_of_ne_nil hds.1
    have hminus : c ≠ '-' := by
      rintro rfl
      obtain h | ⟨hds, -⟩ := hint
      · cases h
      · cases hds.2 '-' List.mem_cons_self
    simp only [List.append_assoc, List.nil_append] at hint' ⊢
    simp only [parseNumber, List.cons_append] at hint' ⊢
    split
    · next h => exact absurd (List.cons.inj h).1 hminus
    · simp only [hint', hfrac', hexp', Option.bind_eq_bind, Option.bind_some, Option.pure_def,
        List.nil_append, List.append_assoc, List.cons_append]
  · simp only [parseNumber, List.append_assoc, List.cons_append, List.nil_append, hint', hfrac',
      hexp', Option.bind_eq_bind, Option.bind_some, Option.pure_def]

theorem number_of_parseNumber {s t rest : List Char} (h : parseNumber s = some (t, rest)) :
    s = t ++ rest ∧ Number t := by
  unfold parseNumber at h
  simp only [Option.bind_eq_bind, Option.bind_eq_some_iff, Option.pure_def] at h
  split at h <;>
  · obtain ⟨⟨int, s₁⟩, hi, ⟨frac, s₂⟩, hf, ⟨exp, s₃⟩, he, heq⟩ := h
    obtain ⟨rfl, rfl⟩ := Prod.mk.inj (Option.some.inj heq)
    obtain ⟨rfl, hint⟩ := integer_of_parseInteger hi
    obtain ⟨rfl, hfrac⟩ := fraction_of_parseFraction hf
    obtain ⟨rfl, hexp⟩ := exponent_of_parseExponent he
    refine ⟨by simp only [List.append_assoc, List.cons_append, List.nil_append],
      _, int, frac, exp, rfl, ?_, hint, hfrac, hexp⟩
    simp only [true_or, or_true]

/-! ## What the reader accepts is in the grammar -/

/-- What the three readers take with so much fuel is in the grammar. -/
structure Sound (fuel : ℕ) : Prop where
  value {n s v rest} : parseValue fuel n s = some (v, rest) →
    ∃ a t, s = a ++ t ++ rest ∧ Blanks a ∧ Value n t v
  members {n s ms rest} : parseMembers fuel n s = some (ms, rest) →
    ∃ t, s = t ++ '}' :: rest ∧ Members n t ms
  items {n s xs rest} : parseItems fuel n s = some (xs, rest) →
    ∃ t, s = t ++ ']' :: rest ∧ Items n t xs

theorem string_of_parseString {s rest : List Char} {name : Option (List Char)}
    (h : parseString s = some (name, rest)) :
    ∃ body us, s = body ++ '"' :: rest ∧ Chars body us ∧ name = decodeUnits us := by
  obtain ⟨⟨us, rest⟩, hscan, heq⟩ := Option.map_eq_some_iff.mp h
  obtain ⟨rfl, rfl⟩ := Prod.mk.inj heq
  obtain ⟨body, rfl, hbody⟩ := chars_of_scanString hscan
  exact ⟨body, us, rfl, hbody, rfl⟩

theorem Blanks.append {a b : List Char} (ha : Blanks a) (hb : Blanks b) : Blanks (a ++ b) :=
  fun c hc => (List.mem_append.mp hc).elim (ha c) (hb c)

theorem Items.blanks {n t xs a} (ha : Blanks a) (h : Items n t xs) : Items n (a ++ t) xs := by
  cases h with
  | last hb hv hc =>
    simp only [← List.append_assoc]
    exact .last (ha.append hb) hv hc
  | cons hb hv hc hxs =>
    simp only [← List.append_assoc]
    exact .cons (ha.append hb) hv hc hxs

theorem Members.blanks {n t ms a} (ha : Blanks a) (h : Members n t ms) : Members n (a ++ t) ms := by
  cases h with
  | last hb hbody hc hd hv he =>
    simp only [← List.append_assoc]
    exact .last (ha.append hb) hbody hc hd hv he
  | cons hb hbody hc hd hv he hms =>
    simp only [← List.append_assoc]
    exact .cons (ha.append hb) hbody hc hd hv he hms

theorem Sound.value_succ {fuel : ℕ} (ih : Sound fuel) {n s v rest}
    (h : parseValue (fuel + 1) n s = some (v, rest)) :
    ∃ a t, s = a ++ t ++ rest ∧ Blanks a ∧ Value n t v := by
  obtain ⟨a, ha, hs⟩ := exists_skipBlanks s
  rw [parseValue] at h
  split at h
  · next r hr =>
    rw [hr] at hs
    cases n with
    | zero => cases h
    | succ n =>
      obtain ⟨b, hb, hsb⟩ := exists_skipBlanks r
      dsimp only at h
      split at h
      · next r' hr' =>
        obtain ⟨rfl, rfl⟩ := Prod.mk.inj (Option.some.inj h)
        exact ⟨a, _, by rw [hs, hsb, hr']; simp, ha, .noMembers hb⟩
      · obtain ⟨⟨ms, rest⟩, hread, heq⟩ := Option.map_eq_some_iff.mp h
        obtain ⟨rfl, rfl⟩ := Prod.mk.inj heq
        obtain ⟨t, ht, hms⟩ := ih.members hread
        exact ⟨a, _, by rw [hs, hsb, ht]; simp, ha, .object (hms.blanks hb)⟩
  · next r hr =>
    rw [hr] at hs
    cases n with
    | zero => cases h
    | succ n =>
      obtain ⟨b, hb, hsb⟩ := exists_skipBlanks r
      dsimp only at h
      split at h
      · next r' hr' =>
        obtain ⟨rfl, rfl⟩ := Prod.mk.inj (Option.some.inj h)
        exact ⟨a, _, by rw [hs, hsb, hr']; simp, ha, .noItems hb⟩
      · obtain ⟨⟨xs, rest⟩, hread, heq⟩ := Option.map_eq_some_iff.mp h
        obtain ⟨rfl, rfl⟩ := Prod.mk.inj heq
        obtain ⟨t, ht, hxs⟩ := ih.items hread
        exact ⟨a, _, by rw [hs, hsb, ht]; simp, ha, .array (hxs.blanks hb)⟩
  · next r hr =>
    rw [hr] at hs
    obtain ⟨⟨name, rest⟩, hread, heq⟩ := Option.map_eq_some_iff.mp h
    obtain ⟨rfl, rfl⟩ := Prod.mk.inj heq
    obtain ⟨body, us, rfl, hbody, rfl⟩ := string_of_parseString hread
    exact ⟨a, _, by rw [hs]; simp, ha, .string hbody⟩
  · next r hr =>
    obtain ⟨rfl, rfl⟩ := Prod.mk.inj (Option.some.inj h)
    exact ⟨a, _, by rw [hs, hr]; simp, ha, .trueText⟩
  · next r hr =>
    obtain ⟨rfl, rfl⟩ := Prod.mk.inj (Option.some.inj h)
    exact ⟨a, _, by rw [hs, hr]; simp, ha, .falseText⟩
  · next r hr =>
    obtain ⟨rfl, rfl⟩ := Prod.mk.inj (Option.some.inj h)
    exact ⟨a, _, by rw [hs, hr]; simp, ha, .nullText⟩
  · obtain ⟨⟨t, rest⟩, hread, heq⟩ := Option.map_eq_some_iff.mp h
    obtain ⟨rfl, rfl⟩ := Prod.mk.inj heq
    obtain ⟨ht, hnum⟩ := number_of_parseNumber hread
    exact ⟨a, t, by rw [hs, ht, List.append_assoc], ha, .number hnum⟩

theorem Sound.members_succ {fuel : ℕ} (ih : Sound fuel) {n s ms rest}
    (h : parseMembers (fuel + 1) n s = some (ms, rest)) :
    ∃ t, s = t ++ '}' :: rest ∧ Members n t ms := by
  obtain ⟨a, ha, hs⟩ := exists_skipBlanks s
  rw [parseMembers] at h
  split at h
  · next r hr =>
    rw [hr] at hs
    simp only [Option.bind_eq_bind, Option.bind_eq_some_iff, Option.pure_def] at h
    obtain ⟨⟨name, r₁⟩, hname, h⟩ := h
    obtain ⟨body, us, rfl, hbody, rfl⟩ := string_of_parseString hname
    obtain ⟨b, hb, hs₁⟩ := exists_skipBlanks r₁
    split at h
    · next r₂ hr₂ =>
      simp only [Option.bind_eq_some_iff] at h
      obtain ⟨⟨v, r₃⟩, hread, h⟩ := h
      obtain ⟨c, t, rfl, hc, hv⟩ := ih.value hread
      obtain ⟨d, hd, hs₃⟩ := exists_skipBlanks r₃
      split at h
      · next r₄ hr₄ =>
        obtain ⟨rfl, rfl⟩ := Prod.mk.inj (Option.some.inj h)
        refine ⟨_, ?_, .last ha hbody hb hc hv hd⟩
        rw [hs, hs₁, hr₂, hs₃, hr₄]
        simp
      · next r₄ hr₄ =>
        simp only [Option.bind_eq_some_iff] at h
        obtain ⟨⟨ms, rest⟩, hmore, heq⟩ := h
        obtain ⟨rfl, rfl⟩ := Prod.mk.inj (Option.some.inj heq)
        obtain ⟨ts, rfl, hms⟩ := ih.members hmore
        refine ⟨_, ?_, .cons ha hbody hb hc hv hd hms⟩
        rw [hs, hs₁, hr₂, hs₃, hr₄]
        simp
      · cases h
    · cases h
  · cases h

theorem Sound.items_succ {fuel : ℕ} (ih : Sound fuel) {n s xs rest}
    (h : parseItems (fuel + 1) n s = some (xs, rest)) :
    ∃ t, s = t ++ ']' :: rest ∧ Items n t xs := by
  rw [parseItems] at h
  simp only [Option.bind_eq_bind, Option.bind_eq_some_iff, Option.pure_def] at h
  obtain ⟨⟨v, r₁⟩, hread, h⟩ := h
  obtain ⟨a, t, rfl, ha, hv⟩ := ih.value hread
  obtain ⟨b, hb, hs₁⟩ := exists_skipBlanks r₁
  split at h
  · next r₂ hr₂ =>
    obtain ⟨rfl, rfl⟩ := Prod.mk.inj (Option.some.inj h)
    refine ⟨_, ?_, .last ha hv hb⟩
    rw [hs₁, hr₂]
    simp
  · next r₂ hr₂ =>
    simp only [Option.bind_eq_some_iff] at h
    obtain ⟨⟨xs, rest⟩, hmore, heq⟩ := h
    obtain ⟨rfl, rfl⟩ := Prod.mk.inj (Option.some.inj heq)
    obtain ⟨ts, rfl, hxs⟩ := ih.items hmore
    refine ⟨_, ?_, .cons ha hv hb hxs⟩
    rw [hs₁, hr₂]
    simp
  · cases h

theorem sound (fuel : ℕ) : Sound fuel := by
  induction fuel with
  | zero =>
    refine ⟨fun h => ?_, fun h => ?_, fun h => ?_⟩
    · rw [parseValue] at h
      cases h
    · rw [parseMembers] at h
      cases h
    · rw [parseItems] at h
      cases h
  | succ fuel ih => exact ⟨ih.value_succ, ih.members_succ, ih.items_succ⟩

/-! ## What is in the grammar the reader accepts -/

theorem Number.head {t : List Char} (h : Number t) :
    ∃ c cs, t = c :: cs ∧ (c.isDigit = true ∨ c = '-') := by
  obtain ⟨sign, int, frac, exp, rfl, rfl | rfl, hint, -⟩ := h
  · obtain rfl | ⟨⟨hne, hds⟩, -⟩ := hint
    · exact ⟨_, _, rfl, Or.inl rfl⟩
    · obtain ⟨d, ds, rfl⟩ := List.exists_cons_of_ne_nil hne
      exact ⟨d, _, rfl, Or.inl (hds d List.mem_cons_self)⟩
  · exact ⟨_, _, rfl, Or.inr rfl⟩

/-- The first character of a number is none that the reader looks for before it. -/
theorem ne_of_isDigit {c : Char} (h : c.isDigit = true ∨ c = '-') :
    isBlank c = false ∧ c ≠ ']' ∧ c ≠ '{' ∧ c ≠ '[' ∧ c ≠ '"' ∧ c ≠ 't' ∧ c ≠ 'f' ∧ c ≠ 'n' := by
  obtain h | rfl := h
  · have hne : ∀ d : Char, d.isDigit = false → c ≠ d := by
      rintro d hd rfl
      exact Bool.false_ne_true (hd.symm.trans h)
    refine ⟨?_, hne _ rfl, hne _ rfl, hne _ rfl, hne _ rfl, hne _ rfl, hne _ rfl, hne _ rfl⟩
    simp [isBlank, hne ' ' rfl, hne '\t' rfl, hne '\n' rfl, hne '\r' rfl]
  · decide

theorem Value.head {n t v} (h : Value n t v) :
    ∃ c cs, t = c :: cs ∧ isBlank c = false ∧ c ≠ ']' := by
  cases h with
  | number h =>
    obtain ⟨c, cs, rfl, hc⟩ := h.head
    exact ⟨c, cs, rfl, (ne_of_isDigit hc).1, (ne_of_isDigit hc).2.1⟩
  | _ => exact ⟨_, _, rfl, by decide, by decide⟩

theorem Value.length_pos {n t v} (h : Value n t v) : 0 < t.length := by
  obtain ⟨c, cs, rfl, -⟩ := h.head
  exact Nat.succ_pos _

theorem Value.skip {n t v a} (h : Value n t v) (ha : Blanks a) (rest : List Char) :
    skipBlanks (a ++ t ++ rest) = t ++ rest := by
  obtain ⟨c, cs, rfl, hc, -⟩ := h.head
  rw [List.append_assoc, skipBlanks_append ha, List.cons_append, skipBlanks_cons hc]

theorem skipBlanks_skipBlanks (s : List Char) : skipBlanks (skipBlanks s) = skipBlanks s := by
  obtain ⟨a, ha, hs⟩ := exists_skipBlanks s
  conv => rhs; rw [hs, skipBlanks_append ha]

theorem parseValue_skipBlanks (fuel n : ℕ) (s : List Char) :
    parseValue fuel n (skipBlanks s) = parseValue fuel n s := by
  cases fuel with
  | zero => simp only [parseValue]
  | succ fuel => rw [parseValue, parseValue, skipBlanks_skipBlanks]

theorem parseMembers_skipBlanks (fuel n : ℕ) (s : List Char) :
    parseMembers fuel n (skipBlanks s) = parseMembers fuel n s := by
  cases fuel with
  | zero => simp only [parseMembers]
  | succ fuel => rw [parseMembers, parseMembers, skipBlanks_skipBlanks]

theorem parseItems_skipBlanks (fuel n : ℕ) (s : List Char) :
    parseItems fuel n (skipBlanks s) = parseItems fuel n s := by
  cases fuel with
  | zero => simp only [parseItems]
  | succ fuel => rw [parseItems, parseItems, parseValue_skipBlanks]

theorem parseValue_number {c : Char} (hc : c.isDigit = true ∨ c = '-') (fuel n : ℕ)
    {s cs : List Char} (hs : skipBlanks s = c :: cs) :
    parseValue (fuel + 1) n s = (parseNumber (c :: cs)).map fun (t, rest) => (.number t, rest) := by
  obtain ⟨-, -, h1, h2, h3, h4, h5, h6⟩ := ne_of_isDigit hc
  rw [parseValue, hs]
  split
  · next h => exact absurd (List.cons.inj h).1 h1
  · next h => exact absurd (List.cons.inj h).1 h2
  · next h => exact absurd (List.cons.inj h).1 h3
  · next h => exact absurd (List.cons.inj h).1 h4
  · next h => exact absurd (List.cons.inj h).1 h5
  · next h => exact absurd (List.cons.inj h).1 h6
  · rfl

/-- With fuel for its length, each of the three readers takes what is in the grammar. -/
structure Complete (fuel : ℕ) : Prop where
  value {n t v a rest} : Value n t v → 2 * t.length ≤ fuel + 1 → Blanks a → Stops rest →
    parseValue fuel n (a ++ t ++ rest) = some (v, rest)
  members {n t ms rest} : Members n t ms → 2 * t.length ≤ fuel →
    parseMembers fuel n (t ++ '}' :: rest) = some (ms, rest)
  items {n t xs rest} : Items n t xs → 2 * t.length ≤ fuel →
    parseItems fuel n (t ++ ']' :: rest) = some (xs, rest)

theorem Items.skip {n t xs} (h : Items n t xs) (rest : List Char) :
    ∃ c cs, skipBlanks (t ++ rest) = c :: cs ∧ c ≠ ']' := by
  cases h with
  | @last _ a t b v ha hv hb =>
    obtain ⟨c, cs, rfl, -, hne⟩ := hv.head
    exact ⟨c, cs ++ (b ++ rest), by simpa using hv.skip ha (b ++ rest), hne⟩
  | @cons _ a t b v ts xs ha hv hb hxs =>
    obtain ⟨c, cs, rfl, -, hne⟩ := hv.head
    exact ⟨c, cs ++ (b ++ ',' :: (ts ++ rest)),
      by simpa using hv.skip ha (b ++ ',' :: (ts ++ rest)), hne⟩

theorem Members.skip {n t ms} (h : Members n t ms) (rest : List Char) :
    ∃ cs, skipBlanks (t ++ rest) = '"' :: cs := by
  cases h with
  | last ha hbody hb hc hv hd =>
    simp only [List.append_assoc, List.cons_append, List.nil_append]
    exact ⟨_, by rw [skipBlanks_append ha, skipBlanks_cons rfl]⟩
  | cons ha hbody hb hc hv hd hms =>
    simp only [List.append_assoc, List.cons_append, List.nil_append]
    exact ⟨_, by rw [skipBlanks_append ha, skipBlanks_cons rfl]⟩

theorem Complete.value_succ {fuel : ℕ} (ih : Complete fuel) {n t v a rest} (h : Value n t v)
    (hfuel : 2 * t.length ≤ fuel + 2) (ha : Blanks a) (hrest : Stops rest) :
    parseValue (fuel + 1) n (a ++ t ++ rest) = some (v, rest) := by
  have hskip := h.skip ha rest
  cases h with
  | nullText => rw [parseValue, hskip]; rfl
  | trueText => rw [parseValue, hskip]; rfl
  | falseText => rw [parseValue, hskip]; rfl
  | number hnum =>
    obtain ⟨c, cs, rfl, hc⟩ := hnum.head
    have hread := parseNumber_append hnum hrest
    rw [List.cons_append] at hskip hread
    rw [parseValue_number hc fuel n hskip, hread, Option.map_some]
  | @string _ body us hbody =>
    simp only [List.append_assoc, List.cons_append, List.nil_append] at hskip ⊢
    rw [parseValue, hskip]
    simp only [parseString_append hbody, Option.map_some]
  | @noItems n b hb =>
    have hclose := skipBlanks_to hb (c := ']') rfl rest
    simp only [List.append_assoc, List.cons_append, List.nil_append] at hskip ⊢
    rw [parseValue, hskip]
    simp only [hclose]
  | @noMembers n b hb =>
    have hclose := skipBlanks_to hb (c := '}') rfl rest
    simp only [List.append_assoc, List.cons_append, List.nil_append] at hskip ⊢
    rw [parseValue, hskip]
    simp only [hclose]
  | @array n t xs hxs =>
    simp only [List.length_append, List.length_singleton] at hfuel
    obtain ⟨c, cs, hhead, hne⟩ := hxs.skip (']' :: rest)
    have hread : parseItems fuel n (c :: cs) = some (xs, rest) := by
      rw [← hhead, parseItems_skipBlanks, ih.items hxs (by omega)]
    simp only [List.append_assoc, List.cons_append, List.nil_append] at hskip ⊢
    rw [parseValue, hskip]
    simp only [hhead]
    split
    · next h => exact absurd (List.cons.inj h).1 hne
    · rw [hread, Option.map_some]
  | @object n t ms hms =>
    simp only [List.length_append, List.length_singleton] at hfuel
    obtain ⟨cs, hhead⟩ := hms.skip ('}' :: rest)
    have hread : parseMembers fuel n ('"' :: cs) = some (ms, rest) := by
      rw [← hhead, parseMembers_skipBlanks, ih.members hms (by omega)]
    simp only [List.append_assoc, List.cons_append, List.nil_append] at hskip ⊢
    rw [parseValue, hskip]
    simp only [hhead]
    show (parseMembers fuel n ('"' :: cs)).map _ = _
    rw [hread, Option.map_some]

theorem stops_cons {c : Char} (hc : c = ',' ∨ c = ']' ∨ c = '}') (rest : List Char) :
    Stops (c :: rest) := by
  rintro d ⟨⟩
  exact Or.inr hc

theorem Complete.items_succ {fuel : ℕ} (ih : Complete fuel) {n t xs rest} (h : Items n t xs)
    (hfuel : 2 * t.length ≤ fuel + 1) :
    parseItems (fuel + 1) n (t ++ ']' :: rest) = some (xs, rest) := by
  cases h with
  | @last _ a t b v ha hv hb =>
    simp only [List.length_append] at hfuel
    have hread := ih.value hv (by omega) ha (stops_append hb (stops_cons (by simp) (c := ']') rest))
    have hclose := skipBlanks_to hb (c := ']') rfl rest
    simp only [List.append_assoc] at hread ⊢
    simp only [parseItems, hread, hclose, Option.bind_eq_bind, Option.bind_some, Option.pure_def]
  | @cons _ a t b v ts xs ha hv hb hxs =>
    simp only [List.length_append, List.length_singleton] at hfuel
    have hread := ih.value hv (by omega) ha
      (stops_append hb (stops_cons (by simp) (c := ',') (ts ++ ']' :: rest)))
    have hcomma := skipBlanks_to hb (c := ',') rfl (ts ++ ']' :: rest)
    have hmore : parseItems fuel n (ts ++ ']' :: rest) = some (xs, rest) :=
      ih.items hxs (by omega)
    simp only [List.append_assoc, List.cons_append, List.nil_append] at hread ⊢
    simp only [parseItems, hread, hcomma, hmore, Option.bind_eq_bind, Option.bind_some,
      Option.pure_def]

theorem Complete.members_succ {fuel : ℕ} (ih : Complete fuel) {n t ms rest} (h : Members n t ms)
    (hfuel : 2 * t.length ≤ fuel + 1) :
    parseMembers (fuel + 1) n (t ++ '}' :: rest) = some (ms, rest) := by
  cases h with
  | @last _ a body us b c t d v ha hbody hb hc hv hd =>
    simp only [List.length_append, List.length_singleton] at hfuel
    have hopen := skipBlanks_to ha (c := '"') rfl
    have hcolon := skipBlanks_to hb (c := ':') rfl
    have hread := ih.value hv (by omega) hc (stops_append hd (stops_cons (by simp) (c := '}') rest))
    have hclose := skipBlanks_to hd (c := '}') rfl rest
    simp only [List.append_assoc, List.cons_append, List.nil_append] at hread ⊢
    simp only [parseMembers, hopen, parseString_append hbody, hcolon, hread, hclose,
      Option.bind_eq_bind, Option.bind_some, Option.pure_def]
  | @cons _ a body us b c t d v ts ms ha hbody hb hc hv hd hms =>
    simp only [List.length_append, List.length_singleton] at hfuel
    have hopen := skipBlanks_to ha (c := '"') rfl
    have hcolon := skipBlanks_to hb (c := ':') rfl
    have hread := ih.value hv (by omega) hc
      (stops_append hd (stops_cons (by simp) (c := ',') (ts ++ '}' :: rest)))
    have hcomma := skipBlanks_to hd (c := ',') rfl (ts ++ '}' :: rest)
    have hmore : parseMembers fuel n (ts ++ '}' :: rest) = some (ms, rest) :=
      ih.members hms (by omega)
    simp only [List.append_assoc, List.cons_append, List.nil_append] at hread ⊢
    simp only [parseMembers, hopen, parseString_append hbody, hcolon, hread, hcomma, hmore,
      Option.bind_eq_bind, Option.bind_some, Option.pure_def]

theorem Items.length_pos {n t xs} (h : Items n t xs) : 0 < t.length := by
  cases h with
  | last ha hv hb =>
    have hpos := hv.length_pos
    simp only [List.length_append]
    omega
  | cons ha hv hb hxs =>
    simp only [List.length_append, List.length_singleton]
    omega

theorem Members.length_pos {n t ms} (h : Members n t ms) : 0 < t.length := by
  cases h <;>
  · simp only [List.length_append, List.length_singleton]
    omega

theorem complete (fuel : ℕ) : Complete fuel := by
  induction fuel with
  | zero =>
    refine ⟨fun h hfuel => ?_, fun h hfuel => ?_, fun h hfuel => ?_⟩
    · have hpos := h.length_pos
      omega
    · have hpos := h.length_pos
      omega
    · have hpos := h.length_pos
      omega
  | succ fuel ih => exact ⟨ih.value_succ, ih.members_succ, ih.items_succ⟩

/-- **The reader reads the grammar.** -/
theorem parse_iff {s : List Char} {v : Json} : parse s = some v ↔ Text s v := by
  constructor
  · intro h
    unfold parse at h
    split at h
    · next w rest hread =>
      split_ifs at h with hrest
      obtain rfl := Option.some.inj h
      obtain ⟨a, t, hs, ha, hv⟩ := (sound _).value hread
      exact ⟨a, t, rest, hs, ha, hv, skipBlanks_eq_nil.mp hrest⟩
    · cases h
  · rintro ⟨a, t, b, rfl, ha, hv, hb⟩
    have hfuel : 2 * t.length ≤ 2 * (a ++ t ++ b).length + 1 + 1 := by
      simp only [List.length_append]
      omega
    have hstops : Stops b := List.append_nil b ▸ stops_append hb (fun _ h => by cases h)
    rw [parse, (complete _).value hv hfuel ha hstops]
    exact if_pos (skipBlanks_eq_nil.mpr hb)

/-! ## Writing -/

def quoteChar (c : Char) : List Char :=
  if c = '"' ∨ c = '\\' then ['\\', c]
  else if c.toNat < 0x20 then '\\' :: 'u' :: Hex.digits 4 c.toNat
  else [c]

def quote (s : List Char) : List Char := ['"'] ++ s.flatMap quoteChar ++ ['"']

/-- The members of an object of strings. -/
def writeMembers : List (String × String) → List Char
  | [] => []
  | [m] => quote m.1.toList ++ [':'] ++ quote m.2.toList
  | m :: ms => quote m.1.toList ++ [':'] ++ quote m.2.toList ++ [','] ++ writeMembers ms

/-- An object of strings. -/
def write (members : List (String × String)) : List Char := ['{'] ++ writeMembers members ++ ['}']

theorem chars_quoteChar (c : Char) {cs : List Char} {us : List ℕ} (h : Chars cs us) :
    Chars (quoteChar c ++ cs) (c.toNat :: us) := by
  unfold quoteChar
  split_ifs with hquote hcontrol
  · rcases hquote with rfl | rfl
    · exact h.escape rfl
    · exact h.escape rfl
  · refine h.unicode ((Hex.parse_digits 4 c.toNat).trans ?_)
    rw [Nat.mod_eq_of_lt (by omega)]
  · rw [not_or] at hquote
    exact h.plain (by omega) hquote.1 hquote.2

theorem chars_quote (s : List Char) : Chars (s.flatMap quoteChar) (s.map Char.toNat) := by
  induction s with
  | nil => exact .nil
  | cons c s ih =>
    rw [List.flatMap_cons, List.map_cons]
    exact chars_quoteChar c ih

theorem not_surrogate (c : Char) : ¬ (0xD800 ≤ c.toNat ∧ c.toNat ≤ 0xDFFF) := by
  have hvalid : c.toNat < 0xD800 ∨ 0xDFFF < c.toNat ∧ c.toNat < 0x110000 := c.valid
  omega

/-- No character is a surrogate, so its unit stands for itself. -/
theorem decodeUnits_cons (c : Char) (us : List ℕ) :
    decodeUnits (c.toNat :: us) = (decodeUnits us).map (c :: ·) := by
  have hno := not_surrogate c
  cases us with
  | nil =>
    have hlast : decodeUnits [c.toNat] = some [Char.ofNat c.toNat] := if_neg hno
    rw [hlast, Char.ofNat_toNat]
    rfl
  | cons v us =>
    rw [decodeUnits, if_neg (by omega), if_neg (by omega), Char.ofNat_toNat]

theorem decodeUnits_map_toNat (s : List Char) : decodeUnits (s.map Char.toNat) = some s := by
  induction s with
  | nil => rfl
  | cons c s ih => rw [List.map_cons, decodeUnits_cons, ih, Option.map_some]

theorem blanks_nil : Blanks [] := fun _ h => by cases h

theorem value_quote (n : ℕ) (s : List Char) : Value n (quote s) (.string (some s)) := by
  have h : Value n (quote s) (.string (decodeUnits (s.map Char.toNat))) := .string (chars_quote s)
  rwa [decodeUnits_map_toNat] at h

theorem members_write (n : ℕ) {ms : List (String × String)} (h : ms ≠ []) :
    Members n (writeMembers ms)
      (ms.map fun m => (some m.1.toList, .string (some m.2.toList))) := by
  induction ms using writeMembers.induct with
  | case1 => exact absurd rfl h
  | case2 m =>
    have hmember := Members.last blanks_nil (chars_quote m.1.toList) blanks_nil blanks_nil
      (value_quote n m.2.toList) blanks_nil
    rw [decodeUnits_map_toNat] at hmember
    simpa [writeMembers, quote] using hmember
  | case3 m ms hne ih =>
    have hmembers := Members.cons blanks_nil (chars_quote m.1.toList) blanks_nil blanks_nil
      (value_quote n m.2.toList) blanks_nil (ih hne)
    rw [decodeUnits_map_toNat] at hmembers
    simpa [writeMembers, quote] using hmembers

theorem text_write (ms : List (String × String)) :
    Text (write ms) (.object (ms.map fun m => (some m.1.toList, .string (some m.2.toList)))) := by
  refine ⟨[], write ms, [], by simp, blanks_nil, ?_, blanks_nil⟩
  cases ms with
  | nil => exact .noMembers blanks_nil
  | cons m ms => exact .object (members_write 63 (List.cons_ne_nil m ms))

end SmartLock.Json
