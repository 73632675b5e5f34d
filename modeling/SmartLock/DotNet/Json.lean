import SmartLock.Lib.Hex

/-!
# `System.Text.Json`

The reader of `JsonSerializer.Deserialize` with its default options: RFC 8259 without comments and
trailing commas, at most 64 levels deep. A string keeps whether its escapes pair up as UTF-16,
since the reader checks that only where the string is asked for.
-/

namespace SmartLock

/-- A JSON value. A number keeps its text; an ill-formed string is `none`. -/
inductive Json
  | null
  | bool (b : Bool)
  | number (text : List Char)
  | string (s : Option (List Char))
  | array (items : List Json)
  | object (members : List (Option (List Char) × Json))

namespace Json

/-- The blanks of JSON. -/
def isBlank (c : Char) : Bool := c = ' ' || c = '\t' || c = '\n' || c = '\r'

def skipBlanks (s : List Char) : List Char := s.dropWhile isBlank

/-! ## Strings -/

/-- The character of a one-letter escape. -/
def escape : Char → Option Char
  | '"' => some '"'
  | '\\' => some '\\'
  | '/' => some '/'
  | 'b' => some (Char.ofNat 8)
  | 'f' => some (Char.ofNat 12)
  | 'n' => some '\n'
  | 'r' => some '\r'
  | 't' => some '\t'
  | _ => none

/-- The code units behind an opening quote, up to the closing one. A character outside the basic
plane counts as one unit. -/
def scanString : List Char → Option (List ℕ × List Char)
  | '"' :: cs => some ([], cs)
  | '\\' :: 'u' :: a :: b :: c :: d :: cs => do
    let unit ← Hex.parse [a, b, c, d]
    let (units, rest) ← scanString cs
    return (unit :: units, rest)
  | '\\' :: c :: cs => do
    let char ← escape c
    let (units, rest) ← scanString cs
    return (char.toNat :: units, rest)
  | c :: cs => do
    if c.toNat < 0x20 ∨ c = '\\' then none
    else
      let (units, rest) ← scanString cs
      return (c.toNat :: units, rest)
  | [] => none

/-- The characters of a sequence of code units; `none` where a surrogate stands alone. -/
def decodeUnits : List ℕ → Option (List Char)
  | [] => some []
  | [u] => if 0xD800 ≤ u ∧ u ≤ 0xDFFF then none else some [Char.ofNat u]
  | u :: v :: us =>
    if 0xD800 ≤ u ∧ u ≤ 0xDBFF then
      if 0xDC00 ≤ v ∧ v ≤ 0xDFFF then
        (decodeUnits us).map (Char.ofNat (0x10000 + (u - 0xD800) * 1024 + (v - 0xDC00)) :: ·)
      else none
    else if 0xDC00 ≤ u ∧ u ≤ 0xDFFF then none
    else (decodeUnits (v :: us)).map (Char.ofNat u :: ·)

/-- The rest of a string token. -/
def parseString (s : List Char) : Option (Option (List Char) × List Char) :=
  (scanString s).map fun (units, rest) => (decodeUnits units, rest)

/-! ## Numbers -/

/-- One digit or more. -/
def parseDigits (s : List Char) : Option (List Char × List Char) :=
  let digits := s.takeWhile Char.isDigit
  if digits = [] then none else some (digits, s.drop digits.length)

/-- The part before the point: no leading zero. -/
def parseInteger (s : List Char) : Option (List Char × List Char) :=
  match s with
  | '0' :: rest => some (['0'], rest)
  | _ => parseDigits s

/-- A sequence of digits behind `mark`, if it is there. -/
def parseFraction (s : List Char) : Option (List Char × List Char) :=
  match s with
  | '.' :: rest => (parseDigits rest).map fun (ds, rest) => ('.' :: ds, rest)
  | _ => some ([], s)

def parseExponent (s : List Char) : Option (List Char × List Char) :=
  match s with
  | e :: sign :: rest =>
    if e = 'e' ∨ e = 'E' then
      if sign = '+' ∨ sign = '-' then
        (parseDigits rest).map fun (ds, rest) => (e :: sign :: ds, rest)
      else (parseDigits (sign :: rest)).map fun (ds, rest) => (e :: ds, rest)
    else some ([], s)
  | _ => if s = ['e'] ∨ s = ['E'] then none else some ([], s)

def parseNumber (s : List Char) : Option (List Char × List Char) := do
  let (sign, s) := match s with
    | '-' :: rest => (['-'], rest)
    | _ => ([], s)
  let (int, s) ← parseInteger s
  let (frac, s) ← parseFraction s
  let (exp, s) ← parseExponent s
  return (sign ++ int ++ frac ++ exp, s)

/-! ## Values -/

/-- The default of `JsonSerializerOptions.MaxDepth`. -/
def maxDepth : ℕ := 64

mutual

/-- One value. `depth` levels may still be opened; every call takes one unit of `fuel`. -/
def parseValue : ℕ → ℕ → List Char → Option (Json × List Char)
  | 0, _, _ => none
  | fuel + 1, depth, s =>
    match skipBlanks s with
    | '{' :: rest =>
      match depth with
      | 0 => none
      | depth + 1 =>
        match skipBlanks rest with
        | '}' :: rest => some (.object [], rest)
        | rest => (parseMembers fuel depth rest).map fun (ms, rest) => (.object ms, rest)
    | '[' :: rest =>
      match depth with
      | 0 => none
      | depth + 1 =>
        match skipBlanks rest with
        | ']' :: rest => some (.array [], rest)
        | rest => (parseItems fuel depth rest).map fun (xs, rest) => (.array xs, rest)
    | '"' :: rest => (parseString rest).map fun (s, rest) => (.string s, rest)
    | 't' :: 'r' :: 'u' :: 'e' :: rest => some (.bool true, rest)
    | 'f' :: 'a' :: 'l' :: 's' :: 'e' :: rest => some (.bool false, rest)
    | 'n' :: 'u' :: 'l' :: 'l' :: rest => some (.null, rest)
    | s => (parseNumber s).map fun (text, rest) => (.number text, rest)

/-- The members of an object, one at least. -/
def parseMembers : ℕ → ℕ → List Char → Option (List (Option (List Char) × Json) × List Char)
  | 0, _, _ => none
  | fuel + 1, depth, s =>
    match skipBlanks s with
    | '"' :: rest => do
      let (name, rest) ← parseString rest
      match skipBlanks rest with
      | ':' :: rest => do
        let (v, rest) ← parseValue fuel depth rest
        match skipBlanks rest with
        | '}' :: rest => return ([(name, v)], rest)
        | ',' :: rest => do
          let (ms, rest) ← parseMembers fuel depth rest
          return ((name, v) :: ms, rest)
        | _ => none
      | _ => none
    | _ => none

/-- The items of an array, one at least. -/
def parseItems : ℕ → ℕ → List Char → Option (List Json × List Char)
  | 0, _, _ => none
  | fuel + 1, depth, s => do
    let (v, rest) ← parseValue fuel depth s
    match skipBlanks rest with
    | ']' :: rest => return ([v], rest)
    | ',' :: rest => do
      let (xs, rest) ← parseItems fuel depth rest
      return (v :: xs, rest)
    | _ => none

end

/-- A whole text: one value between blanks. Every call of the parsers reads a character, but for
the value of a member or an item, so twice the length is fuel enough. -/
def parse (s : List Char) : Option Json :=
  match parseValue (2 * s.length + 1) maxDepth s with
  | some (v, rest) => if skipBlanks rest = [] then some v else none
  | none => none

/-- Property names match without regard to letter case. -/
def sameName (name property : List Char) : Bool :=
  name.map Char.toLower = property.map Char.toLower

end Json

end SmartLock
