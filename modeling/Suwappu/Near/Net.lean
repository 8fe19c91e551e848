import Suwappu.Lib.Checked
import Suwappu.Lib.InFlight
import Suwappu.Near.Terms

/-!
# An escrow account on NEAR

What the two escrow contracts share: the environment of a call, the status of an escrow, and the
account around the contract with its balance and the promises in flight. A promise is answered at
any later time, in any order; a failed transfer returns its money before its callback runs.
-/

namespace Suwappu.Near

open Checked InFlight

/-- A panic and its message. -/
structure Panic where
  message : String
deriving DecidableEq, Repr

/-- What a call sees of the chain and its caller. -/
structure Env where
  predecessor : String
  attachedDeposit : ℕ
  prepaidGas : ℕ
  /-- nanoseconds -/
  blockTimestamp : ℕ
  blockHeight : ℕ

/-- `env::block_timestamp() / 1_000_000_000` -/
def Env.now (env : Env) : ℕ := env.blockTimestamp / 1000000000

/-- What a contract uses of its host: the JSON parser and the price of a stored byte. -/
structure Host where
  serde : Serde
  storageByteCost : ℕ

def expect {α : Type} (o : Option α) (message : String) : Except Panic α :=
  match o with
  | some a => .ok a
  | none   => .error ⟨message⟩

lemma expect_ok_iff {α : Type} {o : Option α} {message : String} {a : α} :
    expect o message = .ok a ↔ o = some a := by
  cases o <;> simp [expect]

inductive EscrowStatus where
  | Created | Resolving | Paid
  /-- the payout transfer to the worker failed; the buyer may recover the funds immediately -/
  | PayoutFailed
deriving DecidableEq, Repr

/-! ### Constants -/

/-- `NearToken::from_millinear` -/
def millinear (n : ℕ) : ℕ := n * 10 ^ 21

def MIN_ESCROW : ℕ := millinear 10
def MIN_RESOLVE_FEE : ℕ := millinear 5
def MAX_RESOLVE_FEE : ℕ := millinear 20
def MIN_RESOLVE_PREPAID : ℕ := 290 * 10 ^ 12
def RESOLVING_TIMEOUT_BLOCKS : ℕ := 300
def MAX_DEADLINE_SECS : ℕ := 365 * 24 * 3600
def REFUND_GRACE_SECS : ℕ := 3600
def RUBRIC_GITHUB_PR : String := "github_pr_v1"

/-! ### Slugs -/

/-- `valid_slug`; the characters it accepts are ASCII. -/
def validSlug (s : List Char) : Bool :=
  !s.isEmpty && s.length ≤ 100 &&
    s.all fun c => Terms.isAsciiAlphanumeric c || c = '-' || c = '_' || c = '.'

def validRepo (r : String) : Bool :=
  match r.toList.splitOn '/' with
  | [o, n] => validSlug o && validSlug n
  | _      => false

/-- `"<buyer>|<repo lowercase>#<pr>"` -/
def prKey (buyer repo : String) (pr : ℕ) : String :=
  buyer ++ "|" ++ String.ofList (Terms.toAsciiLowercase repo.toList) ++ "#" ++ toString pr

/-! ### Storage -/

/-- What storing `used` more bytes costs, saturating like `NearToken`. -/
def storageCost (byteCost used : ℕ) : ℕ := min (byteCost * used) (2 ^ 128 - 1)

/-- `storage_cost.saturating_add(MIN_ESCROW)` -/
def minDeposit (cost : ℕ) : ℕ := min (cost + MIN_ESCROW) (2 ^ 128 - 1)

lemma le_minDeposit (byteCost used : ℕ) :
    storageCost byteCost used ≤ minDeposit (storageCost byteCost used) := by
  unfold minDeposit storageCost
  omega

/-! ### Promises in flight -/

/-- What the resolver is asked to run, on what input, and for whose money. -/
structure Request where
  url : String
  hash : String
  buildTarget : String
  inputData : Json
  payerAccountId : String
  deposit : ℕ

inductive Message where
  /-- the resolver runs the arbiter for round `round` of escrow `id` -/
  | execution (id round : ℕ) (request : Request)
  /-- a transfer to the worker of escrow `id` -/
  | payout (id : ℕ) (worker : String) (amount : ℕ)
  /-- the callback of that transfer -/
  | payoutResult (id : ℕ) (ok : Bool)
  /-- a transfer to the buyer of escrow `id` -/
  | refund (id : ℕ) (buyer : String) (amount : ℕ)

/-- Money that reached somebody else's account. -/
inductive Outflow where
  | payout (id : ℕ) (worker : String) (amount : ℕ)
  | refund (id : ℕ) (buyer : String) (amount : ℕ)
deriving DecidableEq

/-- The escrow that the money was for. -/
def Outflow.id : Outflow → ℕ
  | .payout id _ _ => id
  | .refund id _ _ => id

/-- The account of the contract. The last two fields are a record of what happened. -/
structure Net where
  balance : ℕ
  pending : List Message
  outflows : List Outflow
  failedPayouts : List ℕ

/-- The account before the first escrow. -/
def Net.init (balance : ℕ) : Net := ⟨balance, [], [], []⟩

/-- Money that arrives from outside. -/
def Net.receive (net : Net) (amount : ℕ) : Net := { net with balance := net.balance + amount }

def Net.send (net : Net) (m : Message) : Net := { net with pending := m :: net.pending }

/-- Start the transfer `m` of `amount`. -/
def Net.transfer (net : Net) (m : Message) (amount : ℕ) : Except Panic Net :=
  if amount ≤ net.balance then
    .ok { net with balance := net.balance - amount, pending := m :: net.pending }
  else .error ⟨"not enough balance"⟩

lemma transfer_ok {net net' : Net} {m : Message} {amount : ℕ}
    (h : net.transfer m amount = .ok net') : amount ≤ net.balance ∧
      net' = { net with balance := net.balance - amount, pending := m :: net.pending } := by
  unfold Net.transfer at h
  split at h
  · cases h
    exact ⟨‹_›, rfl⟩
  · cases h

/-- The parser's answer for a promise result of at most `max` bytes; `none` when the promise
failed. -/
def promiseResult (result : Option (List UInt8)) (max : ℕ) : Option (List UInt8) :=
  result.filter fun data => data.length ≤ max

/-- A transfer reaches its receiver, or bounces. -/
def Net.settle (net : Net) (i : ℕ) (ok : Bool) : Except Panic Net :=
  match take net.pending i, ok with
  | some (.payout id worker amount, rest), true => .ok { net with
      pending := .payoutResult id true :: rest
      outflows := .payout id worker amount :: net.outflows }
  | some (.payout id _ amount, rest), false     => .ok { net with
      balance := net.balance + amount
      pending := .payoutResult id false :: rest
      failedPayouts := id :: net.failedPayouts }
  | some (.refund id buyer amount, rest), true  => .ok { net with
      pending := rest
      outflows := .refund id buyer amount :: net.outflows }
  | some (.refund _ _ amount, rest), false      => .ok { net with
      balance := net.balance + amount
      pending := rest }
  | _, _                                        => .error ⟨"no such transfer"⟩

/-- A callback that is never run, for want of gas. -/
def Net.lose (net : Net) (i : ℕ) : Except Panic Net :=
  match take net.pending i with
  | some (.execution _ _ _, rest)    => .ok { net with pending := rest }
  | some (.payoutResult _ _, rest)   => .ok { net with pending := rest }
  | _                                => .error ⟨"no such callback"⟩

/-- A call of the contract, a delivery, or money from elsewhere. -/
inductive Event where
  | createEscrow (env : Env) (usageBefore usageAfter : ℕ) (worker terms : String)
  | resolve (env : Env) (id : ℕ)
  /-- message `i` is an execution, and it ends with `result` -/
  | onArbiterResult (i : ℕ) (result : Option (List UInt8))
  /-- message `i` is a transfer, and it goes through or bounces -/
  | settle (i : ℕ) (ok : Bool)
  | onPayout (i : ℕ)
  | lose (i : ℕ)
  | cancelExpired (env : Env) (id : ℕ)
  | resetStuck (env : Env) (id : ℕ)
  | receive (amount : ℕ)

/-- The verdict that a callback reads off the arbiter's output, with reason and evidence hash. -/
def readVerdict (serde : Serde) (id : ℕ) (rubric : String) (result : Option (List UInt8)) :
    String × String × String :=
  match (promiseResult result (16 * 1024)).bind serde.fromSlice with
  | some v =>
    if (v.get "escrow_id").asU64 = some id ∧ (v.get "rubric").asStr = some rubric then
      (((v.get "verdict").asStr).getD "fail",
        String.ofList ((((v.get "reason").asStr).getD "").toList.take 64),
        String.ofList ((((v.get "evidence_hash").asStr).getD "").toList.take 64))
    else ("error", "arbiter_output_invalid_or_failed", "")
  | none   => ("error", "arbiter_output_invalid_or_failed", "")

/-- `json!(n)` of a `u64` -/
def jsonU64 (n : ℕ) : Json := .num (.posInt (Fin.ofNat _ n))

/-- The input of the arbiter for a pull request. -/
def githubInput (t : Json) (id : ℕ) : Json :=
  .obj [("context", .str RUBRIC_GITHUB_PR), ("escrow_id", jsonU64 id), ("repo", t.get "repo"),
    ("pr_number", t.get "pr_number"), ("author", t.get "author"),
    ("deadline_unix", t.get "deadline_unix"),
    ("not_before_unix", (t.get? "not_before_unix").getD (jsonU64 0))]

/-- The optional `not_before_unix` is a number and not after the deadline. -/
def validNotBefore (t : Json) (deadlineUnix : ℕ) : Bool :=
  match t.get? "not_before_unix" with
  | some nb => (nb.asU64.map fun n => decide (n ≤ deadlineUnix)).getD false
  | none    => true

/-- The repository and the number of a pull request. -/
def githubTerms (t : Json) : Except Panic (String × ℕ) := do
  let repo ← expect (t.get "repo").asStr "terms.repo required"
  guard (validRepo repo) ⟨"invalid repo"⟩
  let author ← expect (t.get "author").asStr "terms.author required"
  guard (validSlug author.toList) ⟨"invalid author"⟩
  let pr ← expect (t.get "pr_number").asU64 "terms.pr_number required"
  guard (pr > 0) ⟨"invalid pr_number"⟩
  return (repo, pr)

end Suwappu.Near
