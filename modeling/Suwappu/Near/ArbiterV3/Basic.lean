import Suwappu.Lib.Machine
import Suwappu.Near.Book

/-!
# The arbiter escrow, version 3

`near/arbiter-contract-v3`: the escrow contract with its table of pinned rubrics, and the account
it runs in. The callbacks of a resolution and of a payout arrive as late as they like; a callback
that fails is gone and changes nothing. Counters are natural numbers: 2⁶⁴ calls are out of reach.
-/

namespace Suwappu.Near.ArbiterV3

open Checked InFlight

/-! ### Rubrics -/

structure Rubric where
  name : String
  wasmHash : String
  wasmUrl : String

def ARBITER_BUILD_TARGET : String := "wasm32-wasip2"
def RUBRIC_HTTP_JSON : String := Terms.RUBRIC
def MAX_TERMS_LEN_GITHUB : ℕ := 1024
def MAX_TERMS_LEN_HTTP : ℕ := 2048

def RUBRICS : List Rubric := [
  { name := RUBRIC_GITHUB_PR
    wasmHash := "f1818167768f6b2b84b2031071760395d3e4a88cf319de3539d0d2068ad6412b"
    wasmUrl := "https://raw.githubusercontent.com/0xSoftBoi/suwappubot/" ++
      "936382f249223fbc2cd0dad3ad99f32a66646e93/near/arbiter-github/artifacts/" ++
      "arbiter-github.wasm" },
  { name := RUBRIC_HTTP_JSON
    wasmHash := "2acc016a94a45d01ef31734a0e1dcca8592048f06013eb74a99a82461b8260a7"
    wasmUrl := "https://raw.githubusercontent.com/0xSoftBoi/suwappubot/" ++
      "1f85a7eeeef5b8a207f89130019adb17a47dd4cf/near/arbiter-http/artifacts/arbiter-http.wasm" }]

def rubricDef (name : String) : Option Rubric := RUBRICS.find? fun r => r.name = name

lemma rubricDef_name {name : String} {r : Rubric} (h : rubricDef name = some r) :
    r.name = name := by
  simpa using List.find?_some h

/-! ### The contract -/

structure Escrow where
  id : ℕ
  buyer : String
  worker : String
  amount : ℕ
  storageDeposit : ℕ
  resolvingSinceBlock : ℕ
  resolveNonce : ℕ
  terms : String
  rubric : String
  arbiterWasmHash : String
  status : EscrowStatus
  lastVerdict : Option String
  lastReason : Option String
  evidenceHash : Option String
  createdAtBlock : ℕ
  deadlineUnix : ℕ

structure ArbiterEscrow where
  nextId : ℕ
  escrows : ℕ → Option Escrow
  prIndex : String → Option ℕ

/-- The contract as it is deployed. -/
def ArbiterEscrow.default : ArbiterEscrow := ⟨0, fun _ => none, fun _ => none⟩

/-- `self.escrows.insert(&id, &e)` -/
def ArbiterEscrow.insert (c : ArbiterEscrow) (id : ℕ) (e : Escrow) : ArbiterEscrow :=
  { c with escrows := Function.update c.escrows id (some e) }

/-- The key under which a new escrow is registered, and its place in the registry. -/
def newIndexKey (host : Host) (c : ArbiterEscrow) (buyer terms : String) (t : Json)
    (rubric : Rubric) (deadlineUnix : ℕ) : Except Panic (Option String) := do
  if rubric.name = RUBRIC_GITHUB_PR then
    guard (terms.utf8ByteSize ≤ MAX_TERMS_LEN_GITHUB) ⟨"terms too long"⟩
    let (repo, pr) ← githubTerms t
    guard (validNotBefore t deadlineUnix) ⟨"invalid not_before_unix"⟩
    guard (c.prIndex (prKey buyer repo pr)).isNone ⟨"you already have an escrow for this PR"⟩
    return some (prKey buyer repo pr)
  else
    guard (t.get? "escrow_id").isNone ⟨"escrow_id is set by the contract"⟩
    match Terms.validateValue host.serde t with
    | .ok _         => return none
    | .error reason => .error ⟨reason⟩

/-- `create_escrow`. The two storage readings are before and after the record is written. -/
def createEscrow (host : Host) (c : ArbiterEscrow) (env : Env) (usageBefore usageAfter : ℕ)
    (worker terms : String) : Except Panic (ArbiterEscrow × ℕ) := do
  let deposit := env.attachedDeposit
  guard (deposit ≥ MIN_ESCROW) ⟨"attach at least 0.01 NEAR"⟩
  guard (terms.utf8ByteSize ≤ MAX_TERMS_LEN_HTTP) ⟨"terms too long"⟩
  let t ← expect (host.serde.fromStr terms) "terms must be JSON"
  let rubric := (t.get "context").asStr.getD ""
  let r ← expect (rubricDef rubric) "unknown rubric context"
  let deadlineUnix ← expect (t.get "deadline_unix").asU64 "terms.deadline_unix required"
  guard (deadlineUnix > env.now) ⟨"deadline must be in the future"⟩
  guard (deadlineUnix ≤ env.now + MAX_DEADLINE_SECS) ⟨"deadline too far"⟩
  let indexKey ← newIndexKey host c env.predecessor terms t r deadlineUnix
  let id := c.nextId
  let storageCost := storageCost host.storageByteCost (usageAfter - usageBefore + 384)
  guard (deposit ≥ minDeposit storageCost) ⟨"deposit too small to cover storage + 0.01 NEAR"⟩
  let escrow : Escrow :=
    { id := id
      buyer := env.predecessor
      worker := worker
      amount := deposit - storageCost
      storageDeposit := storageCost
      resolvingSinceBlock := 0
      resolveNonce := 0
      terms := terms
      rubric := rubric
      arbiterWasmHash := r.wasmHash
      status := .Created
      lastVerdict := none
      lastReason := none
      evidenceHash := none
      createdAtBlock := env.blockHeight
      deadlineUnix := deadlineUnix }
  return ({ nextId := id + 1
            escrows := Function.update c.escrows id (some escrow)
            prIndex := match indexKey with
              | some key => Function.update c.prIndex key (some id)
              | none     => c.prIndex }, id)

/-- What the enclave is handed. -/
def inputData (rubric : Rubric) (t : Json) (id : ℕ) : Except Panic Json :=
  if rubric.name = RUBRIC_GITHUB_PR then .ok (githubInput t id)
  else do
    let m ← expect t.asObject "stored terms must be an object"
    return .obj (("escrow_id", jsonU64 id) ::
      m.filter fun kv => kv.1 ≠ "deadline_unix" ∧ kv.1 ≠ "escrow_id")

/-- `resolve`, with the promise it returns. -/
def resolve (host : Host) (c : ArbiterEscrow) (env : Env) (id : ℕ) :
    Except Panic (ArbiterEscrow × Message) := do
  let deposit := env.attachedDeposit
  guard (deposit ≥ MIN_RESOLVE_FEE ∧ deposit ≤ MAX_RESOLVE_FEE)
    ⟨"attach 0.005-0.02 NEAR for OutLayer"⟩
  guard (env.prepaidGas ≥ MIN_RESOLVE_PREPAID) ⟨"attach at least 290 Tgas"⟩
  let escrow ← expect (c.escrows id) "escrow not found"
  guard (escrow.status = .Created) ⟨"not resolvable"⟩
  let r ← expect (rubricDef escrow.rubric) "escrow rubric not in table"
  guard (r.name = RUBRIC_HTTP_JSON → env.now ≤ escrow.deadlineUnix)
    ⟨"deadline passed; only refund remains"⟩
  let nonce := escrow.resolveNonce + 1
  let t ← expect (host.serde.fromStr escrow.terms) "stored terms must be JSON"
  let input ← inputData r t id
  return (c.insert id { escrow with
      status := .Resolving
      resolvingSinceBlock := env.blockHeight
      resolveNonce := nonce },
    .execution id nonce
      { url := r.wasmUrl
        hash := r.wasmHash
        buildTarget := ARBITER_BUILD_TARGET
        inputData := input
        payerAccountId := env.predecessor
        deposit := deposit })

/-- `on_arbiter_result`, with the worker and the amount of the payout it starts. -/
def onArbiterResult (serde : Serde) (c : ArbiterEscrow) (id nonce : ℕ)
    (result : Option (List UInt8)) : ArbiterEscrow × Option (String × ℕ) :=
  match c.escrows id with
  | none => (c, none)
  | some escrow =>
    if escrow.status ≠ .Resolving ∨ escrow.resolveNonce ≠ nonce then (c, none)
    else
      let (verdict, reason, evidenceHash) := readVerdict serde id escrow.rubric result
      let escrow := { escrow with
        lastVerdict := some verdict, lastReason := some reason, evidenceHash := some evidenceHash }
      if verdict = "pass" then
        (c.insert id { escrow with status := .Paid }, some (escrow.worker, escrow.amount))
      else (c.insert id { escrow with status := .Created }, none)

/-- `on_payout`; `ok` tells whether the transfer went through. -/
def onPayout (c : ArbiterEscrow) (id : ℕ) (ok : Bool) : ArbiterEscrow :=
  if ok then c
  else
    match (c.escrows id).filter fun e => e.status = .Paid with
    | some e => c.insert id { e with status := .PayoutFailed }
    | none   => c

/-- The repository and the pull request that the terms name. -/
def Escrow.pullRequest (serde : Serde) (e : Escrow) : Option (String × ℕ) :=
  match serde.fromStr e.terms with
  | some t =>
    match (t.get "repo").asStr, (t.get "pr_number").asU64 with
    | some repo, some pr => some (repo, pr)
    | _, _               => none
  | none => none

def dropIndex (serde : Serde) (c : ArbiterEscrow) (e : Escrow) : ArbiterEscrow :=
  if e.rubric ≠ RUBRIC_GITHUB_PR then c
  else
    match e.pullRequest serde with
    | some (repo, pr) =>
      { c with prIndex := Function.update c.prIndex (prKey e.buyer repo pr) none }
    | none => c

/-- `cancel_expired`, with the buyer and the amount of the refund it starts. -/
def cancelExpired (serde : Serde) (c : ArbiterEscrow) (env : Env) (id : ℕ) :
    Except Panic (ArbiterEscrow × String × ℕ) := do
  let escrow ← expect (c.escrows id) "escrow not found"
  guard (env.predecessor = escrow.buyer) ⟨"buyer only"⟩
  guard (escrow.status ≠ .Paid) ⟨"already paid"⟩
  guard (escrow.status ≠ .Resolving) ⟨"resolution in flight"⟩
  guard (escrow.status = .PayoutFailed ∨ env.now ≥ escrow.deadlineUnix + REFUND_GRACE_SECS)
    ⟨"deadline + grace not passed"⟩
  return (dropIndex serde { c with escrows := Function.update c.escrows id none } escrow,
    escrow.buyer, escrow.amount + escrow.storageDeposit)

def resetStuck (c : ArbiterEscrow) (env : Env) (id : ℕ) : Except Panic ArbiterEscrow := do
  let e ← expect (c.escrows id) "escrow not found"
  guard (e.status = .Resolving) ⟨"not resolving"⟩
  guard (env.blockHeight ≥ e.resolvingSinceBlock + RESOLVING_TIMEOUT_BLOCKS)
    ⟨"resolution still in flight"⟩
  return c.insert id { e with status := .Created }

/-! ### The account -/

/-- `opened` records every escrow as it was created. -/
structure World where
  contract : ArbiterEscrow
  net : Net
  opened : ℕ → Option Escrow

def World.init (balance : ℕ) : World := ⟨.default, .init balance, fun _ => none⟩

/-- The payout of a verdict; a callback that cannot pay fails. -/
def startPayout (w : World) (c : ArbiterEscrow) (net : Net) (id : ℕ) :
    Option (String × ℕ) → World
  | none => { w with contract := c, net := net }
  | some (worker, amount) =>
    match net.transfer (.payout id worker amount) amount with
    | .ok net' => { w with contract := c, net := net' }
    | .error _ => { w with net := net }

def step (host : Host) (w : World) : Event → Except Panic World
  | .createEscrow env usageBefore usageAfter worker terms => do
    let (c, id) ← createEscrow host w.contract env usageBefore usageAfter worker terms
    return { contract := c
             net := w.net.receive env.attachedDeposit
             opened := Function.update w.opened id (c.escrows id) }
  | .resolve env id => do
    -- the attached fee comes in with the call and leaves with the promise
    let (c, m) ← resolve host w.contract env id
    return { w with contract := c, net := w.net.send m }
  | .onArbiterResult i result =>
    match take w.net.pending i with
    | some (.execution id nonce _, rest) =>
      let (c, payout) := onArbiterResult host.serde w.contract id nonce result
      .ok (startPayout w c { w.net with pending := rest } id payout)
    | _ => .error ⟨"no such callback"⟩
  | .settle i ok => do
    let net ← w.net.settle i ok
    return { w with net := net }
  | .onPayout i =>
    match take w.net.pending i with
    | some (.payoutResult id ok, rest) => .ok { w with
        contract := onPayout w.contract id ok
        net := { w.net with pending := rest } }
    | _ => .error ⟨"no such callback"⟩
  | .lose i => do
    let net ← w.net.lose i
    return { w with net := net }
  | .cancelExpired env id => do
    let (c, buyer, amount) ← cancelExpired host.serde w.contract env id
    let net ← w.net.transfer (.refund id buyer amount) amount
    return { w with contract := c, net := net }
  | .resetStuck env id => do
    let c ← resetStuck w.contract env id
    return { w with contract := c }
  | .receive amount => .ok { w with net := w.net.receive amount }

/-- The contract and its account as a machine. -/
def machine (host : Host) : Machine World Event Panic := ⟨step host⟩

end Suwappu.Near.ArbiterV3
