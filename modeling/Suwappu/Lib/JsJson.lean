import Suwappu.Lib.Canonical
import Suwappu.Lib.Doubles
import Suwappu.Lib.JsonText

/-!
# JSON in JavaScript

Values, their text as `JSON.stringify` writes it, and its reader `JSON.parse`. A string is a list of
UTF-16 code units, of which a surrogate may stand alone; a text has none, as such a surrogate is
written as an escape. The one zero stands for both.
-/

namespace JsJson

open Doubles JsonText

/-- A string: its code units. -/
abbrev JsString := List UInt16

/-- What a variable may hold. The fields of an object have different keys. -/
inductive Value where
  | null
  | bool (b : Bool)
  | num (x : Double)
  /-- `NaN` or an infinity -/
  | nonFinite
  | bigint (z : ℤ)
  | undefined
  /-- a value of type `function` -/
  | callable
  | symbol
  | str (s : JsString)
  | arr (items : List Value)
  | obj (fields : List (JsString × Value))

/-- A JSON value. -/
inductive Json where
  | null
  | bool (b : Bool)
  | num (x : Double)
  | str (s : JsString)
  | arr (items : List Json)
  | obj (fields : List (JsString × Json))

/-- A list of fields, as a JavaScript object has them. -/
def Distinct {α : Type} (fields : List (JsString × α)) : Prop := (fields.map Prod.fst).Nodup

inductive DistinctKeys : Json → Prop
  | null : DistinctKeys .null
  | bool (b : Bool) : DistinctKeys (.bool b)
  | num (x : Double) : DistinctKeys (.num x)
  | str (s : JsString) : DistinctKeys (.str s)
  | arr {items : List Json} (h : ∀ x ∈ items, DistinctKeys x) : DistinctKeys (.arr items)
  | obj {fields : List (JsString × Json)} (hkeys : Distinct fields)
    (h : ∀ field ∈ fields, DistinctKeys field.2) : DistinctKeys (.obj fields)

/-- Equal as JSON values, whatever the order of the fields. -/
inductive Same : Json → Json → Prop
  | null : Same .null .null
  | bool (b : Bool) : Same (.bool b) (.bool b)
  | num (x : Double) : Same (.num x) (.num x)
  | str (s : JsString) : Same (.str s) (.str s)
  | arr {items items' : List Json} (hlength : items.length = items'.length)
    (h : ∀ pair ∈ items.zip items', Same pair.1 pair.2) : Same (.arr items) (.arr items')
  | obj {fields fields' : List (JsString × Json)}
    (hkeys : ∀ key, key ∈ fields.map Prod.fst ↔ key ∈ fields'.map Prod.fst)
    (h : ∀ key x x', (key, x) ∈ fields → (key, x') ∈ fields' → Same x x') :
    Same (.obj fields) (.obj fields')

mutual

/-- The value that a variable holds. -/
def Json.toValue : Json → Value
  | .null       => .null
  | .bool b     => .bool b
  | .num x      => .num x
  | .str s      => .str s
  | .arr items  => .arr (toValues items)
  | .obj fields => .obj (toFields fields)

def toValues : List Json → List Value
  | []         => []
  | x :: items => x.toValue :: toValues items

def toFields : List (JsString × Json) → List (JsString × Value)
  | []                 => []
  | (key, x) :: fields => (key, x.toValue) :: toFields fields

end

/-! ### Code points -/

def isHigh (u : UInt16) : Bool := 0xD800 ≤ u.toNat && u.toNat < 0xDC00

def isLow (u : UInt16) : Bool := 0xDC00 ≤ u.toNat && u.toNat < 0xE000

def isSurrogate (n : ℕ) : Bool := 0xD800 ≤ n && n < 0xE000

/-- `StringToCodePoints`: a surrogate without its pair is a code point of its own. -/
def codePoints : JsString → List ℕ
  | []             => []
  | [u]            => [u.toNat]
  | u :: v :: rest =>
    if isHigh u = true ∧ isLow v = true then
      (0x10000 + (u.toNat - 0xD800) * 0x400 + (v.toNat - 0xDC00)) :: codePoints rest
    else u.toNat :: codePoints (v :: rest)

/-- `UTF16EncodeCodePoint` -/
def units (n : ℕ) : JsString :=
  if n < 0x10000 then [UInt16.ofNat n]
  else
    [UInt16.ofNat (0xD800 + (n - 0x10000) / 0x400), UInt16.ofNat (0xDC00 + (n - 0x10000) % 0x400)]

/-- The characters of a string, with U+FFFD for a surrogate without its pair. -/
def toWellFormed (s : JsString) : List Char :=
  (codePoints s).map fun n => if isSurrogate n = true then '\uFFFD' else Char.ofNat n

/-! ### Writing -/

/-- `UnicodeEscape` -/
def unicodeEscape (n : ℕ) : List Char :=
  ['\\', 'u', hexDigit (n / 0x1000), hexDigit (n / 0x100 % 0x10), hexDigit (n / 0x10 % 0x10),
    hexDigit (n % 0x10)]

/-- A code point between quotes. -/
def quotePoint (n : ℕ) : List Char :=
  if isSurrogate n = true then unicodeEscape n else escape (Char.ofNat n)

/-- `QuoteJSONString` -/
def quote (s : JsString) : List Char := '"' :: ((codePoints s).flatMap quotePoint ++ ['"'])

def commas : List (List Char) → List Char
  | []            => []
  | [text]        => text
  | text :: texts => text ++ ',' :: commas texts

def field (key : JsString) (text : List Char) : List Char := quote key ++ ':' :: text

mutual

def stringify : Json → List Char
  | .null       => ['n', 'u', 'l', 'l']
  | .bool true  => ['t', 'r', 'u', 'e']
  | .bool false => ['f', 'a', 'l', 's', 'e']
  | .num x      => numberToString x.value
  | .str s      => quote s
  | .arr items  => '[' :: (commas (stringifyItems items) ++ [']'])
  | .obj fields => '{' :: (commas (stringifyFields fields) ++ ['}'])

def stringifyItems : List Json → List (List Char)
  | []         => []
  | x :: items => stringify x :: stringifyItems items

def stringifyFields : List (JsString × Json) → List (List Char)
  | []                 => []
  | (key, x) :: fields => field key (stringify x) :: stringifyFields fields

end

/-! ### Reading -/

/-- The code units of what follows a backslash. -/
def parseEscapeUnits : List Char → Option (JsString × List Char)
  | 'u' :: rest => (parseHex4 rest).map fun (n, rest) => ([UInt16.ofNat n], rest)
  | s           => (parseEscape s).map fun (c, rest) => (units c.toNat, rest)

/-- The code units up to the closing quote. -/
def parseUnits : ℕ → List Char → Option (JsString × List Char)
  | 0, _                => none
  | _ + 1, []           => none
  | fuel + 1, c :: rest =>
    if c = '"' then some ([], rest)
    else if c = '\\' then do
      let (read, rest) ← parseEscapeUnits rest
      let (more, rest) ← parseUnits fuel rest
      return (read ++ more, rest)
    else if c.toNat < 0x20 then none
    else do
      let (more, rest) ← parseUnits fuel rest
      return (units c.toNat ++ more, rest)

/-- A string, after its opening quote. -/
def parseString (s : List Char) : Option (JsString × List Char) := parseUnits (s.length + 1) s

/-- The number value of a decimal one. -/
def number (q : ℚ) : Value :=
  match Double.round q with
  | some x => .num x
  | none   => .nonFinite

def parseNum (s : List Char) : Option (Value × List Char) := do
  let (negative, afterSign) := parseSign s
  let (ds, afterInt) := afterSign.span Char.isDigit
  if ds = [] ∨ 1 < ds.length ∧ ds.head? = some '0' then none
  else
    let (fraction, afterFraction) ← parseFraction afterInt
    let (exponent, rest) ← parseExponent afterFraction
    let q : ℚ := digits (ds ++ fraction) * 10 ^ (exponent.getD 0 - fraction.length)
    return (number (if negative = true then -q else q), rest)

/-- Anything but an array or an object. -/
def parsePrimitive : List Char → Option (Value × List Char)
  | 'n' :: 'u' :: 'l' :: 'l' :: rest        => some (.null, rest)
  | 't' :: 'r' :: 'u' :: 'e' :: rest        => some (.bool true, rest)
  | 'f' :: 'a' :: 'l' :: 's' :: 'e' :: rest => some (.bool false, rest)
  | '"' :: rest => (parseString rest).map fun (s, rest) => (.str s, rest)
  | s           => parseNum s

/-- The last one of the fields with the same key stays. -/
def lastWins : List (JsString × Value) → List (JsString × Value)
  | []                 => []
  | (key, x) :: fields =>
    if key ∈ fields.map Prod.fst then lastWins fields else (key, x) :: lastWins fields

mutual

def parseValue : ℕ → List Char → Option (Value × List Char)
  | 0, _        => none
  | fuel + 1, s =>
    match skipWs s with
    | '[' :: rest =>
      match skipWs rest with
      | ']' :: rest => some (.arr [], rest)
      | _           => (parseItems fuel rest).map fun (items, rest) => (.arr items, rest)
    | '{' :: rest =>
      match skipWs rest with
      | '}' :: rest => some (.obj [], rest)
      | _           => (parseFields fuel rest).map fun (fields, rest) =>
        (.obj (lastWins fields), rest)
    | s           => parsePrimitive s

/-- Items with a comma between them, and the closing bracket. -/
def parseItems : ℕ → List Char → Option (List Value × List Char)
  | 0, _        => none
  | fuel + 1, s => do
    let (x, rest) ← parseValue fuel s
    match skipWs rest with
    | ']' :: rest => return ([x], rest)
    | ',' :: rest =>
      let (items, rest) ← parseItems fuel rest
      return (x :: items, rest)
    | _           => none

/-- Fields with a comma between them, and the closing brace. -/
def parseFields : ℕ → List Char → Option (List (JsString × Value) × List Char)
  | 0, _        => none
  | fuel + 1, s =>
    match skipWs s with
    | '"' :: rest => do
      let (key, rest) ← parseString rest
      match skipWs rest with
      | ':' :: rest =>
        let (x, rest) ← parseValue fuel rest
        match skipWs rest with
        | '}' :: rest => return ([(key, x)], rest)
        | ',' :: rest =>
          let (fields, rest) ← parseFields fuel rest
          return ((key, x) :: fields, rest)
        | _           => none
      | _           => none
    | _           => none

end

/-- `JSON.parse`: one value, and nothing after it. -/
def parse (s : List Char) : Option Value :=
  match parseValue (2 * s.length + 1) s with
  | some (x, rest) => if skipWs rest = [] then some x else none
  | none           => none

/-! ### Key order -/

/-- By their keys, code unit by code unit. -/
def byKey {α : Type} : JsString × α → JsString × α → Ordering := compareOn Prod.fst

instance transCmp_byKey {α : Type} : Std.TransCmp (byKey (α := α)) :=
  inferInstanceAs (Std.TransCmp (compareOn Prod.fst))

mutual

/-- The fields of each object in the order of their keys. -/
def normalize : Json → Json
  | .null       => .null
  | .bool b     => .bool b
  | .num x      => .num x
  | .str s      => .str s
  | .arr items  => .arr (normalizeItems items)
  | .obj fields => .obj (Canonical.sorted byKey (normalizeFields fields))

def normalizeItems : List Json → List Json
  | []         => []
  | x :: items => normalize x :: normalizeItems items

def normalizeFields : List (JsString × Json) → List (JsString × Json)
  | []                 => []
  | (key, x) :: fields => (key, normalize x) :: normalizeFields fields

end

end JsJson
