import Mathlib.Tactic

/-!
# JSON text

Compact JSON text and its reader, with the choices of a reader that knows integers of 64 bits: an
integer that fits no such word is read as a float, and so is a negative zero. Keys may repeat and
stand in the order of the text. Arrays and objects nest at most as deep as the reader allows.
-/

namespace JsonText

inductive Tree where
  | null
  | bool (b : Bool)
  | int (z : ℤ)
  /-- a float, by its text -/
  | float (text : List Char)
  | str (s : String)
  | arr (items : List Tree)
  | obj (fields : List (String × Tree))

/-! ### Writing -/

def hexDigit (n : ℕ) : Char := Nat.digitChar n

/-- A character between quotes. -/
def escape (c : Char) : List Char :=
  if c = '"' then ['\\', '"']
  else if c = '\\' then ['\\', '\\']
  else if c = '\x08' then ['\\', 'b']
  else if c = '\t' then ['\\', 't']
  else if c = '\n' then ['\\', 'n']
  else if c = '\x0c' then ['\\', 'f']
  else if c = '\r' then ['\\', 'r']
  else if c.toNat < 0x20 then
    ['\\', 'u', '0', '0', hexDigit (c.toNat / 16), hexDigit (c.toNat % 16)]
  else [c]

def renderStr (s : String) : List Char := '"' :: (s.toList.flatMap escape ++ ['"'])

def renderInt (z : ℤ) : List Char :=
  if z < 0 then '-' :: Nat.toDigits 10 z.natAbs else Nat.toDigits 10 z.natAbs

mutual

def render : Tree → List Char
  | .null                     => ['n', 'u', 'l', 'l']
  | .bool true                => ['t', 'r', 'u', 'e']
  | .bool false               => ['f', 'a', 'l', 's', 'e']
  | .int z                    => renderInt z
  | .float text               => text
  | .str s                    => renderStr s
  | .arr []                   => ['[', ']']
  | .arr (t :: items)         => '[' :: (render t ++ renderItems items ++ [']'])
  | .obj []                   => ['{', '}']
  | .obj ((key, t) :: fields) =>
    '{' :: (renderStr key ++ ':' :: render t ++ renderFields fields ++ ['}'])

/-- The items after the first one. -/
def renderItems : List Tree → List Char
  | []         => []
  | t :: items => ',' :: (render t ++ renderItems items)

/-- The fields after the first one. -/
def renderFields : List (String × Tree) → List Char
  | []                 => []
  | (key, t) :: fields => ',' :: (renderStr key ++ ':' :: render t ++ renderFields fields)

end

/-! ### Reading -/

def isWs (c : Char) : Bool := c = ' ' || c = '\n' || c = '\t' || c = '\r'

def skipWs (s : List Char) : List Char := s.dropWhile isWs

def hexValue (c : Char) : Option ℕ :=
  if '0' ≤ c ∧ c ≤ '9' then some (c.toNat - '0'.toNat)
  else if 'a' ≤ c ∧ c ≤ 'f' then some (c.toNat - 'a'.toNat + 10)
  else if 'A' ≤ c ∧ c ≤ 'F' then some (c.toNat - 'A'.toNat + 10)
  else none

def parseHex4 : List Char → Option (ℕ × List Char)
  | a :: b :: c :: d :: rest => do
    let a ← hexValue a
    let b ← hexValue b
    let c ← hexValue c
    let d ← hexValue d
    return (((a * 16 + b) * 16 + c) * 16 + d, rest)
  | _ => none

/-- A `\u` escape: a code point of its own, or a pair of surrogates. -/
def parseUnicode (s : List Char) : Option (Char × List Char) := do
  let (n, rest) ← parseHex4 s
  if 0xD800 ≤ n ∧ n ≤ 0xDBFF then
    match rest with
    | '\\' :: 'u' :: rest => do
      let (m, rest) ← parseHex4 rest
      if 0xDC00 ≤ m ∧ m ≤ 0xDFFF then
        return (Char.ofNat (0x10000 + (n - 0xD800) * 0x400 + (m - 0xDC00)), rest)
      else none
    | _ => none
  else if 0xDC00 ≤ n ∧ n ≤ 0xDFFF then none
  else return (Char.ofNat n, rest)

/-- What follows a backslash. -/
def parseEscape : List Char → Option (Char × List Char)
  | '"' :: rest  => some ('"', rest)
  | '\\' :: rest => some ('\\', rest)
  | '/' :: rest  => some ('/', rest)
  | 'b' :: rest  => some ('\x08', rest)
  | 'f' :: rest  => some ('\x0c', rest)
  | 'n' :: rest  => some ('\n', rest)
  | 'r' :: rest  => some ('\r', rest)
  | 't' :: rest  => some ('\t', rest)
  | 'u' :: rest  => parseUnicode rest
  | _            => none

/-- The characters up to the closing quote. -/
def parseChars : ℕ → List Char → Option (List Char × List Char)
  | 0, _                 => none
  | _ + 1, []            => none
  | fuel + 1, c :: rest  =>
    if c = '"' then some ([], rest)
    else if c = '\\' then do
      let (c, rest) ← parseEscape rest
      let (cs, rest) ← parseChars fuel rest
      return (c :: cs, rest)
    else if c.toNat < 0x20 then none
    else do
      let (cs, rest) ← parseChars fuel rest
      return (c :: cs, rest)

/-- A string, after its opening quote. -/
def parseStr (s : List Char) : Option (String × List Char) :=
  (parseChars (s.length + 1) s).map fun (cs, rest) => (String.ofList cs, rest)

/-- The number of a list of digits. -/
def digits (ds : List Char) : ℕ := Nat.ofDigitChars 10 ds 0

/-- `.` and some digits, if there is a `.` -/
def parseFraction : List Char → Option (List Char × List Char)
  | '.' :: rest =>
    let (ds, rest) := rest.span Char.isDigit
    if ds = [] then none else some (ds, rest)
  | s           => some ([], s)

def parseSign : List Char → Bool × List Char
  | '-' :: rest => (true, rest)
  | s           => (false, s)

def parseExponentSign : List Char → Bool × List Char
  | '+' :: rest => (false, rest)
  | s           => parseSign s

/-- `e` and an exponent, if there is an `e` -/
def parseExponent : List Char → Option (Option ℤ × List Char)
  | c :: rest =>
    if c = 'e' ∨ c = 'E' then
      let (negative, rest) := parseExponentSign rest
      let (ds, rest) := rest.span Char.isDigit
      if ds = [] then none
      else some (some (if negative = true then -(digits ds : ℤ) else digits ds), rest)
    else some (none, c :: rest)
  | []        => some (none, [])

/-- The number is not below the midpoint between the largest double and the next power. -/
def overflows (mantissa : ℕ) (exponent : ℤ) : Bool :=
  (2 ^ 1024 - 2 ^ 970 : ℚ) ≤ mantissa * 10 ^ exponent

/-- An integer that fits a word. -/
def Fits (z : ℤ) : Prop := -2 ^ 63 ≤ z ∧ z < 2 ^ 64

instance decidableFits (z : ℤ) : Decidable (Fits z) := inferInstanceAs (Decidable (_ ∧ _))

def parseNumber (s : List Char) : Option (Tree × List Char) := do
  let (negative, afterSign) := parseSign s
  let (ds, afterInt) := afterSign.span Char.isDigit
  if ds = [] ∨ 1 < ds.length ∧ ds.head? = some '0' then none
  else
    let (fraction, afterFraction) ← parseFraction afterInt
    let (exponent, rest) ← parseExponent afterFraction
    let z : ℤ := if negative = true then -(digits ds : ℤ) else digits ds
    if fraction = [] ∧ exponent = none ∧ Fits z ∧ ¬ (negative = true ∧ z = 0) then
      return (.int z, rest)
    else if overflows (digits (ds ++ fraction)) (exponent.getD 0 - fraction.length) = true then none
    else return (.float (s.take (s.length - rest.length)), rest)

/-- Anything but an array or an object. -/
def parseScalar : List Char → Option (Tree × List Char)
  | 'n' :: 'u' :: 'l' :: 'l' :: rest        => some (.null, rest)
  | 't' :: 'r' :: 'u' :: 'e' :: rest        => some (.bool true, rest)
  | 'f' :: 'a' :: 'l' :: 's' :: 'e' :: rest => some (.bool false, rest)
  | '"' :: rest => (parseStr rest).map fun (s, rest) => (.str s, rest)
  | s           => parseNumber s

section Containers

variable (value : List Char → Option (Tree × List Char))

/-- The items after the first one, and the closing bracket. -/
def parseItems : ℕ → List Char → Option (List Tree × List Char)
  | 0, _        => none
  | fuel + 1, s =>
    match skipWs s with
    | ']' :: rest => some ([], rest)
    | ',' :: rest => do
      let (t, rest) ← value rest
      let (items, rest) ← parseItems fuel rest
      return (t :: items, rest)
    | _ => none

/-- An array, after its opening bracket. -/
def parseArr (s : List Char) : Option (Tree × List Char) :=
  match skipWs s with
  | ']' :: rest => some (.arr [], rest)
  | s           => do
    let (t, rest) ← value s
    let (items, rest) ← parseItems value (rest.length + 1) rest
    return (.arr (t :: items), rest)

def parseField (s : List Char) : Option ((String × Tree) × List Char) :=
  match skipWs s with
  | '"' :: rest => do
    let (key, rest) ← parseStr rest
    match skipWs rest with
    | ':' :: rest => do
      let (t, rest) ← value rest
      return ((key, t), rest)
    | _ => none
  | _ => none

/-- The fields after the first one, and the closing brace. -/
def parseFields : ℕ → List Char → Option (List (String × Tree) × List Char)
  | 0, _        => none
  | fuel + 1, s =>
    match skipWs s with
    | '}' :: rest => some ([], rest)
    | ',' :: rest => do
      let (field, rest) ← parseField value rest
      let (fields, rest) ← parseFields fuel rest
      return (field :: fields, rest)
    | _ => none

/-- An object, after its opening brace. -/
def parseObj (s : List Char) : Option (Tree × List Char) :=
  match skipWs s with
  | '}' :: rest => some (.obj [], rest)
  | s           => do
    let (field, rest) ← parseField value s
    let (fields, rest) ← parseFields value (rest.length + 1) rest
    return (.obj (field :: fields), rest)

end Containers

/-- A value with at most `depth` arrays and objects around each other. -/
def parseValue : ℕ → List Char → Option (Tree × List Char)
  | 0, s         => parseScalar (skipWs s)
  | depth + 1, s =>
    match skipWs s with
    | '[' :: rest => parseArr (parseValue depth) rest
    | '{' :: rest => parseObj (parseValue depth) rest
    | s           => parseScalar s

/-- One value, and nothing after it. -/
def parse (depth : ℕ) (s : List Char) : Option Tree :=
  match parseValue depth s with
  | some (t, rest) => if skipWs rest = [] then some t else none
  | none           => none

end JsonText
