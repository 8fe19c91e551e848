import Suwappu.Near.Json

/-!
# The terms of `http_json_v1`

The validator that the enclave and the escrow contract share.
-/

namespace Suwappu.Near.Terms

def RUBRIC : String := "http_json_v1"
def MAX_URL : ℕ := 300
def MAX_POST_BODY : ℕ := 512
def MAX_CHECKS : ℕ := 4
def MAX_PATH : ℕ := 128
def MAX_STR : ℕ := 128
def MAX_CONTAINS : ℕ := 64

def INVALID : String := "invalid_terms"

def ALLOWED_KEYS : List String :=
  ["context", "escrow_id", "url", "method", "body", "checks", "expect_sha256", "deadline_unix"]

def isAsciiDigit (c : Char) : Bool := '0' ≤ c && c ≤ '9'

def isAsciiAlphabetic (c : Char) : Bool := ('a' ≤ c && c ≤ 'z') || ('A' ≤ c && c ≤ 'Z')

def isAsciiAlphanumeric (c : Char) : Bool := isAsciiAlphabetic c || isAsciiDigit c

/-- `str::to_ascii_lowercase`, character by character. -/
def toAsciiLowercase (s : List Char) : List Char := s.map Char.toLower

def LOCAL_SUFFIXES : List String :=
  [".localhost", ".local", ".internal", ".lan", ".home.arpa", ".localdomain"]

def validLabel (l : List Char) : Bool :=
  !l.isEmpty && l.length ≤ 63 && l.head? ≠ some '-' && l.getLast? ≠ some '-' &&
    l.all fun c => isAsciiAlphanumeric c || c = '-'

/-- `valid_host`. Its lengths count bytes; the labels it accepts are ASCII. -/
def validHost (h : List Char) : Bool :=
  if h.isEmpty || (String.ofList h).utf8ByteSize > 253 then false
  else
    let h := toAsciiLowercase h
    if h = "localhost".toList || LOCAL_SUFFIXES.any fun s => s.toList.isSuffixOf h then false
    else
      let labels := h.splitOn '.'
      if labels.length < 2 then false
      else if !labels.all validLabel then false
      else
        let tld := labels.getLastD []
        2 ≤ tld.length && tld.all isAsciiAlphabetic

/-- `valid_url`. Every character is checked to be printable ASCII before anything is counted. -/
def validUrl (url : String) : Bool :=
  let u := url.toList
  if url.utf8ByteSize > MAX_URL || !u.all fun c => 0x21 ≤ c.toNat && c.toNat ≤ 0x7e then false
  else if !"https://".toList.isPrefixOf u then false
  else
    let rest := u.drop 8
    let authority := rest.takeWhile fun c => !(c = '/' || c = '?' || c = '#')
    if authority.isEmpty || authority.contains '@' || authority.contains '[' ||
        authority.contains '\\' then false
    else if authority.contains ':' then
      let host := authority.takeWhile (· ≠ ':')
      let port := authority.drop (host.length + 1)
      if port ≠ "443".toList then false else validHost host
    else validHost authority

/-- The escapes of a JSON pointer: every tilde is followed by 0 or 1. -/
def validEscapes : List Char → Bool
  | []                 => true
  | '~' :: '0' :: rest => validEscapes rest
  | '~' :: '1' :: rest => validEscapes rest
  | '~' :: _           => false
  | _ :: rest          => validEscapes rest

def validPath (p : String) : Bool :=
  if p.utf8ByteSize > MAX_PATH then false
  else if p.isEmpty then true
  else if p.toList.head? ≠ some '/' then false
  else validEscapes p.toList

/-- The number of a list of decimal digits. -/
def digits (d : List Char) : ℕ := d.foldl (fun n c => 10 * n + (c.toNat - '0'.toNat)) 0

def parseDec (s : String) : Option ℤ :=
  let neg := s.toList.head? = some '-'
  let d := if neg then s.toList.drop 1 else s.toList
  if d.isEmpty || d.length > 38 || !d.all isAsciiDigit then none
  else if d.length > 1 && d.head? = some '0' then none
  else some (if neg then -(digits d : ℤ) else digits d)

def numInt : Number → Option ℤ
  | .posInt n => some n.val
  | .negInt n => some (-(n.val : ℤ) - 1)
  | .float _  => none

def parseInt : Json → Option ℤ
  | .str s => parseDec s
  | .num n => numInt n
  | _      => none

/-- The operand that a check with operator `op` needs. -/
def validOperand (op : String) (value : Option Json) : Bool :=
  if op = "exists" then value.isNone
  else if op = "eq" then
    match value with
    | some (.str s)  => s.utf8ByteSize ≤ MAX_STR
    | some (.bool _) => true
    | some (.num n)  => (numInt n).isSome
    | _              => false
  else if op = "gte_int" || op = "lte_int" then (value.bind parseInt).isSome
  else if op = "contains" then
    match value with
    | some (.str s) => !s.isEmpty && s.utf8ByteSize ≤ MAX_CONTAINS
    | _             => false
  else false

def validCheck (c : Json) : Bool :=
  match c.asObject with
  | none   => false
  | some o =>
    if o.any fun kv => kv.1 ≠ "path" && kv.1 ≠ "op" && kv.1 ≠ "value" then false
    else
      match (o.lookup "path").bind Json.asStr with
      | none      => false
      | some path =>
        if !validPath path then false
        else
          match (o.lookup "op").bind Json.asStr with
          | none    => false
          | some op => validOperand op (o.lookup "value")

/-- A string field that may be missing, and then is `default`. -/
def optionalStr (o : List (String × Json)) (key default : String) : Except String String :=
  match o.lookup key with
  | none          => .ok default
  | some (.str s) => .ok s
  | some _        => .error INVALID

def optionalArr (o : List (String × Json)) (key : String) : Except String (List Json) :=
  match o.lookup key with
  | none          => .ok []
  | some (.arr a) => .ok a
  | some _        => .error INVALID

def isSha256 (hash : String) : Bool :=
  hash.utf8ByteSize = 64 && hash.toList.all fun c => isAsciiDigit c || ('a' ≤ c && c ≤ 'f')

open Checked in
/-- `validate_value`; the error is the reason the enclave emits. -/
def validateValue (serde : Serde) (v : Json) : Except String Unit := do
  let o ← match v.asObject with
    | some o => .ok o
    | none   => .error INVALID
  guard (¬ o.any fun kv => !ALLOWED_KEYS.contains kv.1) INVALID
  guard ((o.lookup "context").bind Json.asStr = some RUBRIC) "unknown_context"
  let url ← match (o.lookup "url").bind Json.asStr with
    | some url => .ok url
    | none     => .error INVALID
  guard (validUrl url) INVALID
  let method ← optionalStr o "method" "GET"
  let body ← optionalStr o "body" ""
  if method = "GET" then guard (body.isEmpty) INVALID
  else if method = "POST" then
    guard (¬ (body.isEmpty || body.utf8ByteSize > MAX_POST_BODY || (serde.fromStr body).isNone))
      INVALID
  else .error INVALID
  let checks ← optionalArr o "checks"
  guard (checks.length ≤ MAX_CHECKS ∧ checks.all validCheck) INVALID
  let hash ← optionalStr o "expect_sha256" ""
  guard (hash.isEmpty || isSha256 hash) INVALID
  guard (¬ (checks.isEmpty ∧ hash.isEmpty)) INVALID

end Suwappu.Near.Terms
