import Suwappu.Lib.Processes
import Suwappu.Lib.Window

/-!
# The policy engine and its decision log

Any number of calls of `evaluate` and `reserveApprovalAllowance`, the latter with the release of
the row it has made. A transaction starts, takes its advisory lock, reads the sums, and inserts its
row and commits: each is a step of its own, as is every query outside of a transaction, and time
passes in between. A row is dated by the start of its transaction.

Amounts are exact. The policies are the same throughout, in the order of their priority. Reasons
and the snapshot of the intent are left out of the log. Chains, tokens and addresses are compared in
lower case, and `toLowerCase` is JavaScript's.
-/

namespace Suwappu.PolicyService

abbrev OrganizationId := ℕ

abbrev AgentId := ℕ

abbrev PolicyId := ℕ

abbrev ApprovalId := ℕ

abbrev DecisionId := ℕ

/-- Milliseconds. -/
abbrev Time := ℕ

def hour : Time := 60 * 60 * 1000

inductive PolicyVerdict where
  | allow | block | require_approval
deriving DecidableEq, Repr

inductive ApprovalMode where
  | always_ask | above_limit | autonomous
deriving DecidableEq, Repr

structure Policy where
  id : PolicyId
  organizationId : Option OrganizationId
  agentId : Option AgentId
  approvalMode : ApprovalMode
  expiresAt : Option Time
  allowedContracts : List String
  enabled : Bool
  maxTxUsd : Option ℚ
  maxSlippageBps : Option ℚ
  maxGasUsd : Option ℚ
  dailyCapUsd : Option ℚ≥0
  sessionCapUsd : Option ℚ≥0
  maxTxPerHour : Option ℕ
  allowedChains : List String
  blockedChains : List String
  allowedTokens : List String
  blockedTokens : List String
  destinationAllowlist : List String
  requireApprovalAboveUsd : Option ℚ
deriving DecidableEq

structure PolicyIntent where
  organizationId : Option OrganizationId
  agentId : Option AgentId
  chain : String
  fromToken : Option String
  toToken : Option String
  destinationAddress : Option String
  /-- absent where the chain has no router, and null where it is not resolved -/
  contractAddress : Option (Option String)
  valueUsd : ℚ≥0
  slippageBps : Option ℚ
  gasUsd : Option ℚ
deriving DecidableEq

/-- A row of `policy_decisions`. -/
structure PolicyDecision where
  id : DecisionId
  organizationId : Option OrganizationId
  agentId : Option AgentId
  decision : PolicyVerdict
  matchedPolicyId : Option PolicyId
  valueUsd : ℚ≥0
  approvalId : Option ApprovalId
  createdAt : Time
deriving DecidableEq

/-- What an advisory lock is taken on. -/
inductive LockKey where
  | organization (organizationId : OrganizationId)
  | agent (agentId : AgentId)
deriving DecidableEq

structure State where
  now : Time
  policyDecisions : List PolicyDecision
  nextId : DecisionId
  locked : List LockKey
deriving DecidableEq

/-! ### The rules without a history -/

inductive Stateless where
  | pass | block | approval
deriving DecidableEq, Repr

/-- A value that is given and above a limit that is set. -/
def exceeds (limit value : Option ℚ) : Prop := ∃ l ∈ limit, ∃ v ∈ value, l < v

instance decidableExceeds (limit value : Option ℚ) : Decidable (exceeds limit value) := by
  unfold exceeds
  infer_instance

variable (toLowerCase : String → String)

/-- An allowlist that is set and does not hold `s`. -/
def outside (allowed : List String) (s : String) : Prop :=
  allowed ≠ [] ∧ s ∉ allowed.map toLowerCase

instance decidableOutside (allowed : List String) (s : String) :
    Decidable (outside toLowerCase allowed s) := by
  unfold outside
  infer_instance

def evalStateless (p : Policy) (intent : PolicyIntent) : Stateless :=
  let chain := toLowerCase intent.chain
  let tokens := [intent.fromToken, intent.toToken].filterMap (·.map toLowerCase)
  if exceeds p.maxTxUsd (some intent.valueUsd) then .block
  else if exceeds p.maxSlippageBps intent.slippageBps then .block
  else if exceeds p.maxGasUsd intent.gasUsd then .block
  else if chain ≠ "" ∧ chain ∈ p.blockedChains.map toLowerCase then .block
  else if chain ≠ "" ∧ outside toLowerCase p.allowedChains chain then .block
  -- an empty token is found and then passed over
  else if ∃ hit ∈ tokens.find? (· ∈ p.blockedTokens.map toLowerCase), hit ≠ "" then .block
  else if ∃ bad ∈ tokens.find? (outside toLowerCase p.allowedTokens ·), bad ≠ "" then .block
  else if ∃ dest ∈ intent.destinationAddress.map toLowerCase,
      dest ≠ "" ∧ outside toLowerCase p.destinationAllowlist dest then .block
  -- an address that is not resolved cannot be verified
  else if ∃ contract ∈ intent.contractAddress,
      p.allowedContracts ≠ [] ∧ (contract.map toLowerCase).getD "" ∉
        (p.allowedContracts.map toLowerCase).filter (· ≠ "") then .block
  else match p.approvalMode with
    | .autonomous  => .pass
    | .always_ask  => .approval
    | .above_limit =>
      if exceeds p.requireApprovalAboveUsd (some intent.valueUsd) then .approval else .pass

/-! ### The caps -/

structure Sums where
  daySum : ℚ≥0
  hourSum : ℚ≥0
  hourCount : ℕ
deriving DecidableEq

/-- The sums over some rows at a time. -/
def sums (rows : List PolicyDecision) (now : Time) : Sums where
  daySum := Window.sumSince PolicyDecision.createdAt PolicyDecision.valueUsd rows (now - 24 * hour)
  hourSum := Window.sumSince PolicyDecision.createdAt PolicyDecision.valueUsd rows (now - hour)
  hourCount := Window.sumSince PolicyDecision.createdAt (fun _ => 1) rows (now - hour)

/-- One more transaction would exceed a cap. -/
def Policy.exceeded (p : Policy) (s : Sums) (valueUsd : ℚ≥0) : Prop :=
  (∃ cap ∈ p.dailyCapUsd, cap < s.daySum + valueUsd) ∨
  (∃ cap ∈ p.sessionCapUsd, cap < s.hourSum + valueUsd) ∨
  (∃ limit ∈ p.maxTxPerHour, limit < s.hourCount + 1)

instance decidableExceeded (p : Policy) (s : Sums) (valueUsd : ℚ≥0) :
    Decidable (p.exceeded s valueUsd) := by
  unfold Policy.exceeded
  infer_instance

/-- The allowed decisions whose sums an intent is checked against: of its agent, if it has one. -/
def agentFilter (intent : PolicyIntent) (d : PolicyDecision) : Prop :=
  d.decision = .allow ∧
    if intent.agentId.isSome then d.agentId = intent.agentId
    else d.organizationId = intent.organizationId

instance decidableAgentFilter (intent : PolicyIntent) (d : PolicyDecision) :
    Decidable (agentFilter intent d) := by
  unfold agentFilter
  infer_instance

/-- The policies that are queried for an intent. -/
def Policy.appliesTo (p : Policy) (intent : PolicyIntent) : Prop :=
  p.enabled = true ∧ p.organizationId = intent.organizationId ∧
    if intent.organizationId.isSome ∧ p.agentId = none then True
    else intent.agentId.isSome ∧ p.agentId = intent.agentId

instance decidableAppliesTo (p : Policy) (intent : PolicyIntent) :
    Decidable (p.appliesTo intent) := by
  unfold Policy.appliesTo
  infer_instance

def Policy.active (p : Policy) (now : Time) : Prop := ∀ t ∈ p.expiresAt, now < t

instance decidableActive (p : Policy) (now : Time) : Decidable (p.active now) := by
  unfold Policy.active
  infer_instance

/-! ### The calls -/

/-- A verdict and the policy behind it. -/
structure Ruling where
  decision : PolicyVerdict
  matchedPolicyId : Option PolicyId
deriving DecidableEq

inductive Proc where
  | evaluate (intent : PolicyIntent)
  | loadPolicies (intent : PolicyIntent)
  | log (intent : PolicyIntent) (ruling : Ruling)
  | begin (intent : PolicyIntent) (rows : List Policy) (pending : Ruling) (now : Time)
  | lock (intent : PolicyIntent) (rows : List Policy) (pending : Ruling) (now startedAt : Time)
  | sum (intent : PolicyIntent) (rows : List Policy) (pending : Ruling) (now startedAt : Time)
  | insert (intent : PolicyIntent) (ruling : Ruling) (startedAt : Time)
  | reserve (intent : PolicyIntent) (approvalId : ApprovalId)
  | reserveLock (intent : PolicyIntent) (approvalId : ApprovalId) (startedAt : Time)
  | reserveLoad (intent : PolicyIntent) (approvalId : ApprovalId) (startedAt : Time)
  | reserveSum (intent : PolicyIntent) (approvalId : ApprovalId) (rows : List Policy)
    (now startedAt : Time)
  | reserveInsert (intent : PolicyIntent) (approvalId : ApprovalId) (startedAt : Time)
  /-- the caller holds the row it has made -/
  | reserved (id : DecisionId)
  | returned (decision : PolicyVerdict)
  | failed
deriving DecidableEq

inductive Answer where
  | none
  /-- a kill switch is on -/
  | killed
  /-- the database fails, and the transaction is rolled back -/
  | fails
deriving DecidableEq

inductive Error where
  /-- the step waits for another answer or for the lock, or the call is over -/
  | NotNext
deriving DecidableEq, Repr

/-- What a call locks: its organisation, or its agent where it has none. -/
def lockKey (intent : PolicyIntent) : LockKey :=
  match intent.organizationId with
  | some organizationId => .organization organizationId
  | none                => .agent (intent.agentId.getD 0)

/-- A row of the log for an intent. -/
def State.insertDecision (s : State) (intent : PolicyIntent) (ruling : Ruling)
    (approvalId : Option ApprovalId) (createdAt : Time) : State :=
  { s with
    policyDecisions := s.policyDecisions ++ [⟨s.nextId, intent.organizationId, intent.agentId,
      ruling.decision, ruling.matchedPolicyId, intent.valueUsd, approvalId, createdAt⟩]
    nextId := s.nextId + 1 }

def State.acquire (s : State) (key : LockKey) : State := { s with locked := key :: s.locked }

def State.release (s : State) (key : LockKey) : State := { s with locked := s.locked.erase key }

def State.deleteDecision (s : State) (id : DecisionId) : State :=
  { s with policyDecisions := s.policyDecisions.filter fun d => d.id ≠ id }

/-- The first block, or else the first approval that is asked for. -/
def statelessRuling (rows : List Policy) (intent : PolicyIntent) : Ruling :=
  match rows.find? fun p => evalStateless toLowerCase p intent = .block with
  | some p => ⟨.block, some p.id⟩
  | none   =>
    match rows.find? fun p => evalStateless toLowerCase p intent = .approval with
    | some p => ⟨.require_approval, some p.id⟩
    | none   => ⟨.allow, none⟩

/-- The first policy whose cap would be exceeded blocks. -/
def capRuling (rows : List Policy) (intent : PolicyIntent) (s : Sums) (pending : Ruling) : Ruling :=
  match rows.find? fun p => p.exceeded s intent.valueUsd with
  | some p => ⟨.block, some p.id⟩
  | none   => pending

variable (policies : List Policy)

/-- The policies an intent is checked under at a time. -/
def activeRows (intent : PolicyIntent) (now : Time) : List Policy :=
  (policies.filter fun p => p.appliesTo intent).filter fun p => p.active now

/-- The next step of a call. -/
def step (s : State) : Proc → Answer → Except Error (State × Proc)
  | .evaluate intent, answer =>
    if intent.organizationId = none ∧ intent.agentId = none then .ok (s, .returned .allow)
    else match answer with
      | .none   => .ok (s, .loadPolicies intent)
      | .killed => .ok (s, .log intent ⟨.block, none⟩)
      | .fails  => .ok (s, .failed)
  | .loadPolicies intent, .none =>
    let rows := activeRows policies intent s.now
    if rows = [] then .ok (s, .log intent ⟨.allow, none⟩)
    else
      let ruling := statelessRuling toLowerCase rows intent
      if ruling.decision = .block then .ok (s, .log intent ruling)
      else .ok (s, .begin intent rows ruling s.now)
  | .loadPolicies _, .fails => .ok (s, .failed)
  | .log intent ruling, .none =>
    .ok (s.insertDecision intent ruling none s.now, .returned ruling.decision)
  | .log _ ruling, .fails => .ok (s, .returned ruling.decision)
  | .begin intent rows pending now, .none => .ok (s, .lock intent rows pending now s.now)
  | .begin _ _ _ _, .fails                => .ok (s, .failed)
  | .lock intent rows pending now startedAt, .none =>
    if lockKey intent ∈ s.locked then .error .NotNext
    else .ok (s.acquire (lockKey intent), .sum intent rows pending now startedAt)
  | .lock _ _ _ _ _, .fails => .ok (s, .failed)
  | .sum intent rows pending now startedAt, .none =>
    let used := sums (s.policyDecisions.filter fun d => agentFilter intent d) now
    .ok (s, .insert intent (capRuling rows intent used pending) startedAt)
  | .sum intent _ _ _ _, .fails => .ok (s.release (lockKey intent), .failed)
  | .insert intent ruling startedAt, .none =>
    .ok ((s.insertDecision intent ruling none startedAt).release (lockKey intent),
      .returned ruling.decision)
  -- the verdict stands though its row is lost
  | .insert intent ruling _, .fails =>
    .ok (s.release (lockKey intent), .returned ruling.decision)
  | .reserve intent approvalId, .none =>
    match intent.organizationId with
    | .none   => .ok (s, .failed)
    | .some _ => .ok (s, .reserveLock intent approvalId s.now)
  | .reserve _ _, .fails => .ok (s, .failed)
  | .reserveLock intent approvalId startedAt, .none =>
    if lockKey intent ∈ s.locked then .error .NotNext
    else .ok (s.acquire (lockKey intent), .reserveLoad intent approvalId startedAt)
  | .reserveLock _ _ _, .fails => .ok (s, .failed)
  | .reserveLoad intent approvalId startedAt, .none =>
    .ok (s, .reserveSum intent approvalId (activeRows policies intent s.now) s.now startedAt)
  | .reserveLoad intent _ _, .fails => .ok (s.release (lockKey intent), .failed)
  | .reserveSum intent approvalId rows now startedAt, .none =>
    let used := sums (s.policyDecisions.filter fun d => agentFilter intent d) now
    if ∃ p ∈ rows, p.exceeded used intent.valueUsd then
      .ok (s.release (lockKey intent), .returned .block)
    else .ok (s, .reserveInsert intent approvalId startedAt)
  | .reserveSum intent _ _ _ _, .fails => .ok (s.release (lockKey intent), .failed)
  | .reserveInsert intent approvalId startedAt, .none =>
    -- the unique index: an earlier reservation stands for this one
    if ∃ d ∈ s.policyDecisions, d.approvalId = some approvalId then
      .ok (s.release (lockKey intent), .returned .allow)
    else
      .ok ((s.insertDecision intent ⟨.allow, none⟩ (some approvalId) startedAt).release
        (lockKey intent), .reserved s.nextId)
  | .reserveInsert intent _ _, .fails => .ok (s.release (lockKey intent), .failed)
  -- `releaseApprovalAllowance`, by the caller that has made the row
  | .reserved id, .none => .ok (s.deleteDecision id, .returned .allow)
  | _, _ => .error .NotNext

/-- Time passes. -/
def elapse (s : State) (duration : Time) : Except Error State :=
  .ok { s with now := s.now + duration }

def program : Program State Proc Answer Time Error := ⟨step toLowerCase policies, elapse⟩

inductive Call where
  | evaluate (intent : PolicyIntent)
  | reserveApprovalAllowance (intent : PolicyIntent) (approvalId : ApprovalId)

def Call.start : Call → Proc
  | .evaluate intent                            => .evaluate intent
  | .reserveApprovalAllowance intent approvalId => .reserve intent approvalId

abbrev Config (n : ℕ) := Program.Config State Proc n

abbrev Action (n : ℕ) := Program.Action n Answer Time

def initial {n : ℕ} (now : Time) (calls : Fin n → Call) : Config n :=
  ⟨⟨now, [], 0, []⟩, fun i => (calls i).start⟩

end Suwappu.PolicyService
