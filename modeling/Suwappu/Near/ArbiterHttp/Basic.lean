import Suwappu.Near.Terms

/-!
# The enclave program for `http_json_v1`

`near/arbiter-http`: it reads its input, validates it with the code it shares with the contract,
fetches the endpoint, and evaluates the checks on the response. Objects are read by their fields;
the positional form that `serde` accepts as well is left out.
-/

namespace Suwappu.Near.ArbiterHttp

open Terms

def MAX_BODY : ℕ := 2 * 1024 * 1024

/-! ### Input -/

structure Check where
  path : String
  op : String
  value : Option Json

structure Input where
  context : String
  escrowId : Fin (2 ^ 64)
  url : String
  method : String
  body : String
  checks : List Check
  expectSha256 : String

def defaultMethod : String := "GET"

section Fields

variable {α : Type} (v : Json) (key : String) (read : Json → Option α)

def required : Option α := (v.get? key).bind read

/-- A field with `#[serde(default)]` -/
def defaulted (default : α) : Option α :=
  match v.get? key with
  | none   => some default
  | some v => read v

end Fields

def readU64 : Json → Option (Fin (2 ^ 64))
  | .num (.posInt n) => some n
  | _                => none

/-- `Option<Value>`, for which `null` is `None` -/
def readOption : Json → Option (Option Json)
  | .null => some none
  | v     => some (some v)

def readVec {α : Type} (read : Json → Option α) : Json → Option (List α)
  | .arr items => items.mapM read
  | _          => none

/-- `serde_json::from_value::<Check>` -/
def Check.fromValue (v : Json) : Option Check := do
  let _ ← v.asObject
  let path ← required v "path" Json.asStr
  let op ← required v "op" Json.asStr
  let value ← defaulted v "value" readOption none
  return { path, op, value }

/-- `serde_json::from_value::<Input>` -/
def Input.fromValue (v : Json) : Option Input := do
  let _ ← v.asObject
  let context ← required v "context" Json.asStr
  let escrowId ← required v "escrow_id" readU64
  let url ← required v "url" Json.asStr
  let method ← defaulted v "method" Json.asStr defaultMethod
  let body ← defaulted v "body" Json.asStr ""
  let checks ← defaulted v "checks" (readVec Check.fromValue) []
  let expectSha256 ← defaulted v "expect_sha256" Json.asStr ""
  return { context, escrowId, url, method, body, checks, expectSha256 }

/-! ### JSON pointers -/

/-- `str::replace` of a tilde and `digit` by `c`. -/
def replaceTilde (digit c : Char) : List Char → List Char
  | '~' :: d :: rest =>
    if d = digit then c :: replaceTilde digit c rest else '~' :: replaceTilde digit c (d :: rest)
  | d :: rest        => d :: replaceTilde digit c rest
  | []               => []

def parseIndex (token : List Char) : Option ℕ :=
  if token.isEmpty || !token.all isAsciiDigit || (token.head? = some '0' && token.length ≠ 1) then
    none
  else some (digits token)

/-- One step of a pointer. -/
def child (v : Json) (token : List Char) : Option Json :=
  match v with
  | .obj _     => v.get? (String.ofList token)
  | .arr items => (parseIndex token).bind fun i => items[i]?
  | _          => none

/-- `Value::pointer` -/
def pointer (v : Json) (path : String) : Option Json :=
  match path.toList with
  | []          => some v
  | '/' :: rest => ((rest.splitOn '/').map fun token =>
      replaceTilde '0' '~' (replaceTilde '1' '/' token)).foldlM child v
  | _           => none

/-! ### Evaluation -/

def isNull : Json → Bool
  | .null => true
  | _     => false

def checkPasses (c : Check) (doc : Json) : Bool :=
  let target := pointer doc c.path
  match c.op with
  | "exists" =>
    match target with
    | some v => !isNull v
    | none   => false
  | "eq" =>
    match target, c.value with
    | some (.str a), some (.str b)   => a = b
    | some (.bool a), some (.bool b) => a = b
    | some (.num a), some (.num b)   => (numInt a).isSome && numInt a = numInt b
    | _, _                           => false
  | "gte_int" =>
    match target.bind parseInt, c.value.bind parseInt with
    | some a, some b => b ≤ a
    | _, _           => false
  | "lte_int" =>
    match target.bind parseInt, c.value.bind parseInt with
    | some a, some b => a ≤ b
    | _, _           => false
  | "contains" =>
    match target, c.value with
    | some (.str a), some (.str b) => decide (b.toList <:+: a.toList)
    | _, _                         => false
  | _ => false

/-- What the program uses of its world: the JSON parser, SHA-256 and the HTTP client. A fetch that
fails is `none`. -/
structure Enclave where
  serde : Serde
  sha256 : List UInt8 → List UInt8
  fetch : Input → Option (Fin (2 ^ 16) × List UInt8)

def hex (bytes : List UInt8) : String :=
  String.ofList (bytes.flatMap fun b =>
    [Nat.digitChar (b.toNat / 16), Nat.digitChar (b.toNat % 16)])

structure Output where
  verdict : String
  reason : String
  evidenceHash : String
  escrowId : ℕ
  rubric : String
  urlHash : String
deriving DecidableEq

section Run

variable (enclave : Enclave)

/-- The first check that does not pass. -/
def firstFailure (checks : List Check) (doc : Json) : Option ℕ :=
  checks.findIdx? fun c => !checkPasses c doc

def evaluate (i : Input) (status : Fin (2 ^ 16)) (body : List UInt8) : String × String :=
  if status.val ≠ 200 then ("fail", "http_status_" ++ toString status.val)
  else if body.length > MAX_BODY then ("fail", "body_too_large")
  else if ¬ i.expectSha256.isEmpty ∧ hex (enclave.sha256 body) ≠ i.expectSha256 then
    ("fail", "hash_mismatch")
  else if i.checks.isEmpty then ("pass", "checks_satisfied")
  else
    match enclave.serde.fromSlice body with
    | none     => ("fail", "bad_json")
    | some doc =>
      match firstFailure i.checks doc with
      | some idx => ("fail", "check_failed_" ++ toString idx)
      | none     => ("pass", "checks_satisfied")

def urlHash (i : Input) : String :=
  hex (enclave.sha256 (i.method ++ " " ++ i.url ++ "\n" ++ i.body).toUTF8.toList)

def emit (i : Input) (verdict reason : String) (evidence : List UInt8) : Output :=
  { verdict := verdict
    reason := reason
    evidenceHash := if evidence.isEmpty then "" else hex (enclave.sha256 evidence)
    escrowId := i.escrowId
    rubric := RUBRIC
    urlHash := urlHash enclave i }

/-- What the program answers to an input it cannot read. -/
def badInput : Output :=
  { verdict := "fail"
    reason := "bad_input_json"
    evidenceHash := ""
    escrowId := 0
    rubric := RUBRIC
    urlHash := "" }

/-- `main`, on what it reads from its standard input -/
def run (raw : String) : Output :=
  let rawValue := (enclave.serde.fromStr raw).getD .null
  match Input.fromValue rawValue with
  | none       => badInput
  | some input =>
    match validateValue enclave.serde rawValue with
    | .error reason => emit enclave input "fail" reason []
    | .ok _         =>
      match enclave.fetch input with
      | none                => emit enclave input "fail" "fetch_failed" []
      | some (status, body) =>
        let (verdict, reason) := evaluate enclave input status body
        emit enclave input verdict reason body

end Run

end Suwappu.Near.ArbiterHttp
