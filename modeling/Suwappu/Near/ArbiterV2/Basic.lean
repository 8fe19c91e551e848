import Suwappu.Lib.Machine
import Suwappu.Near.Book

/-!
# The arbiter escrow, version 2

`near/arbiter-contract`: the escrow contract with one pinned rubric, and the account it runs in.
Its callback is told the escrow but not the round of the resolution. The world numbers the rounds
all the same, so that one can say which callback is late; the contract never reads that number.
-/

namespace Suwappu.Near.ArbiterV2

open Checked InFlight

def ARBITER_WASM_HASH : String :=
  "f1818167768f6b2b84b2031071760395d3e4a88cf319de3539d0d2068ad6412b"

def ARBITER_WASM_URL : String :=
  "https://raw.githubusercontent.com/0xSoftBoi/suwappubot/" ++
    "936382f249223fbc2cd0dad3ad99f32a66646e93/near/arbiter-github/artifacts/arbiter-github.wasm"

def ARBITER_BUILD_TARGET : String := "wasm32-wasip2"
def RUBRIC : String := RUBRIC_GITHUB_PR
def MAX_TERMS_LEN : ℕ := 1024

/-! ### The contract -/

structure Escrow where
  id : ℕ
  buyer : String
  worker : String
  amount : ℕ
  storageDeposit : ℕ
  resolvingSinceBlock : ℕ
  terms : String
  arbiterWasmHash : String
  status : EscrowStatus
  lastVerdict : Option String
  lastReason : Option String
  evidenceHash : Option String
  createdAtBlock : ℕ
  deadlineUnix : ℕ
deriving DecidableEq

structure ArbiterEscrow where
  nextId : ℕ
  escrows : ℕ → Option Escrow
  prIndex : String → Option ℕ

/-- The contract as it is deployed. -/
def ArbiterEscrow.default : ArbiterEscrow := ⟨0, fun _ => none, fun _ => none⟩

/-- `self.escrows.insert(&id, &e)` -/
def ArbiterEscrow.insert (c : ArbiterEscrow) (id : ℕ) (e : Escrow) : ArbiterEscrow :=
  { c with escrows := Function.update c.escrows id (some e) }

/-- `create_escrow`. The two storage readings are before and after the record is written. -/
def createEscrow (host : Host) (c : ArbiterEscrow) (env : Env) (usageBefore usageAfter : ℕ)
    (worker terms : String) : Except Panic (ArbiterEscrow × ℕ) := do
  let deposit := env.attachedDeposit
  guard (deposit ≥ MIN_ESCROW) ⟨"attach at least 0.01 NEAR"⟩
  guard (terms.utf8ByteSize ≤ MAX_TERMS_LEN) ⟨"terms too long"⟩
  let t ← expect (host.serde.fromStr terms) "terms must be JSON"
  guard ((t.get "context").asStr = some RUBRIC) ⟨"context must be github_pr_v1"⟩
  let (repo, pr) ← githubTerms t
  let deadlineUnix ← expect (t.get "deadline_unix").asU64 "terms.deadline_unix required"
  guard (deadlineUnix > env.now) ⟨"deadline must be in the future"⟩
  guard (deadlineUnix ≤ env.now + MAX_DEADLINE_SECS) ⟨"deadline too far"⟩
  guard (validNotBefore t deadlineUnix) ⟨"invalid not_before_unix"⟩
  let key := prKey env.predecessor repo pr
  guard (c.prIndex key).isNone ⟨"you already have an escrow for this PR"⟩
  let id := c.nextId
  let storageCost := storageCost host.storageByteCost (usageAfter - usageBefore + 64)
  guard (deposit ≥ minDeposit storageCost) ⟨"deposit too small to cover storage + 0.01 NEAR"⟩
  let escrow : Escrow :=
    { id := id
      buyer := env.predecessor
      worker := worker
      amount := deposit - storageCost
      storageDeposit := storageCost
      resolvingSinceBlock := 0
      terms := terms
      arbiterWasmHash := ARBITER_WASM_HASH
      status := .Created
      lastVerdict := none
      lastReason := none
      evidenceHash := none
      createdAtBlock := env.blockHeight
      deadlineUnix := deadlineUnix }
  return ({ nextId := id + 1
            escrows := Function.update c.escrows id (some escrow)
            prIndex := Function.update c.prIndex key (some id) }, id)

/-- `resolve`, with the request it sends. -/
def resolve (host : Host) (c : ArbiterEscrow) (env : Env) (id : ℕ) :
    Except Panic (ArbiterEscrow × Request) := do
  let deposit := env.attachedDeposit
  guard (deposit ≥ MIN_RESOLVE_FEE ∧ deposit ≤ MAX_RESOLVE_FEE)
    ⟨"attach 0.005-0.02 NEAR for OutLayer"⟩
  guard (env.prepaidGas ≥ MIN_RESOLVE_PREPAID) ⟨"attach at least 290 Tgas"⟩
  let escrow ← expect (c.escrows id) "escrow not found"
  guard (escrow.status = .Created) ⟨"not resolvable"⟩
  let t ← expect (host.serde.fromStr escrow.terms) "stored terms must be JSON"
  return (c.insert id { escrow with
      status := .Resolving
      resolvingSinceBlock := env.blockHeight },
    { url := ARBITER_WASM_URL
      hash := ARBITER_WASM_HASH
      buildTarget := ARBITER_BUILD_TARGET
      inputData := githubInput t id
      payerAccountId := env.predecessor
      deposit := deposit })

/-- `on_arbiter_result`, with the worker and the amount of the payout it starts. It does not look
at the status of the escrow. -/
def onArbiterResult (serde : Serde) (c : ArbiterEscrow) (id : ℕ) (result : Option (List UInt8)) :
    Except Panic (ArbiterEscrow × Option (String × ℕ)) := do
  let escrow ← expect (c.escrows id) "escrow not found"
  let (verdict, reason, evidenceHash) := readVerdict serde id RUBRIC result
  let escrow := { escrow with
    lastVerdict := some verdict, lastReason := some reason, evidenceHash := some evidenceHash }
  if verdict = "pass" then
    return (c.insert id { escrow with status := .Paid }, some (escrow.worker, escrow.amount))
  else return (c.insert id { escrow with status := .Created }, none)

/-- `on_payout`; `ok` tells whether the transfer went through. -/
def onPayout (c : ArbiterEscrow) (id : ℕ) (ok : Bool) : ArbiterEscrow :=
  if ok then c
  else
    match c.escrows id with
    | some e => c.insert id { e with status := .PayoutFailed }
    | none   => c

def dropIndex (serde : Serde) (c : ArbiterEscrow) (e : Escrow) : ArbiterEscrow :=
  match serde.fromStr e.terms with
  | some t =>
    match (t.get "repo").asStr, (t.get "pr_number").asU64 with
    | some repo, some pr =>
      { c with prIndex := Function.update c.prIndex (prKey e.buyer repo pr) none }
    | _, _ => c
  | none => c

/-- `cancel_expired`, with the buyer and the amount of the refund it starts. -/
def cancelExpired (serde : Serde) (c : ArbiterEscrow) (env : Env) (id : ℕ) :
    Except Panic (ArbiterEscrow × String × ℕ) := do
  let escrow ← expect (c.escrows id) "escrow not found"
  guard (env.predecessor = escrow.buyer) ⟨"buyer only"⟩
  guard (escrow.status ≠ .Paid) ⟨"already paid"⟩
  guard (escrow.status ≠ .Resolving) ⟨"resolution in flight"⟩
  guard (escrow.status = .PayoutFailed ∨ env.now ≥ escrow.deadlineUnix + REFUND_GRACE_SECS)
    ⟨"deadline + grace not passed"⟩
  return (dropIndex serde { c with escrows := Function.update c.escrows id none } escrow,
    escrow.buyer, escrow.amount + escrow.storageDeposit)

def resetStuck (c : ArbiterEscrow) (env : Env) (id : ℕ) : Except Panic ArbiterEscrow := do
  let e ← expect (c.escrows id) "escrow not found"
  guard (e.status = .Resolving) ⟨"not resolving"⟩
  guard (env.blockHeight ≥ e.resolvingSinceBlock + RESOLVING_TIMEOUT_BLOCKS)
    ⟨"resolution still in flight"⟩
  return c.insert id { e with status := .Created }

/-! ### The account -/

/-- The last three fields are a record of what happened: the escrows as they were created, how
often each was resolved, and the escrows that a late callback changed. -/
structure World where
  contract : ArbiterEscrow
  net : Net
  opened : ℕ → Option Escrow
  rounds : ℕ → ℕ
  overwritten : List ℕ

def World.init (balance : ℕ) : World := ⟨.default, .init balance, fun _ => none, fun _ => 0, []⟩

/-- A callback of round `round` is late when escrow `id` was resolved again since, was paid, or had
its payout fail. -/
def World.late (w : World) (id round : ℕ) : Bool :=
  match w.contract.escrows id with
  | some e => round < w.rounds id || e.status = .Paid || e.status = .PayoutFailed
  | none   => false

/-- What a callback leaves behind; one that panics or cannot pay is gone. -/
def answer (w : World) (net : Net) (id : ℕ) :
    Except Panic (ArbiterEscrow × Option (String × ℕ)) → World
  | .error _                      => { w with net := net }
  | .ok (c, none)                 => { w with contract := c, net := net }
  | .ok (c, some (worker, amount)) =>
    match net.transfer (.payout id worker amount) amount with
    | .ok net' => { w with contract := c, net := net' }
    | .error _ => { w with net := net }

/-- Note down whether a late callback changed escrow `id`. -/
def World.noting (w w' : World) (id round : ℕ) : World :=
  if w.late id round ∧ w'.contract.escrows id ≠ w.contract.escrows id then
    { w' with overwritten := id :: w'.overwritten }
  else w'

def step (host : Host) (w : World) : Event → Except Panic World
  | .createEscrow env usageBefore usageAfter worker terms => do
    let (c, id) ← createEscrow host w.contract env usageBefore usageAfter worker terms
    return { w with
      contract := c
      net := w.net.receive env.attachedDeposit
      opened := Function.update w.opened id (c.escrows id) }
  | .resolve env id => do
    -- the attached fee comes in with the call and leaves with the promise
    let (c, request) ← resolve host w.contract env id
    let round := w.rounds id + 1
    return { w with
      contract := c
      net := w.net.send (.execution id round request)
      rounds := Function.update w.rounds id round }
  | .onArbiterResult i result =>
    match take w.net.pending i with
    | some (.execution id round _, rest) =>
      let outcome := onArbiterResult host.serde w.contract id result
      .ok (w.noting (answer w { w.net with pending := rest } id outcome) id round)
    | _ => .error ⟨"no such callback"⟩
  | .settle i ok => do
    let net ← w.net.settle i ok
    return { w with net := net }
  | .onPayout i =>
    match take w.net.pending i with
    | some (.payoutResult id ok, rest) => .ok { w with
        contract := onPayout w.contract id ok
        net := { w.net with pending := rest } }
    | _ => .error ⟨"no such callback"⟩
  | .lose i => do
    let net ← w.net.lose i
    return { w with net := net }
  | .cancelExpired env id => do
    let (c, buyer, amount) ← cancelExpired host.serde w.contract env id
    let net ← w.net.transfer (.refund id buyer amount) amount
    return { w with contract := c, net := net }
  | .resetStuck env id => do
    let c ← resetStuck w.contract env id
    return { w with contract := c }
  | .receive amount => .ok { w with net := w.net.receive amount }

/-- The contract and its account as a machine. -/
def machine (host : Host) : Machine World Event Panic := ⟨step host⟩

end Suwappu.Near.ArbiterV2
