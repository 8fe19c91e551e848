import Suwappu.Lib.Processes

/-!
# Approvals and step-up challenges

Any number of calls of `create`, `decide`, `decideApproveWithStepUp`, `issueStepUpChallenge` and
`finalizeConsume`. Every query is a step of its own, as are the statements of the transaction that
approves with a challenge, and its commit; time passes in between. Queries see what is committed.
An UPDATE waits while another transaction has written its row, and `now()` is the start of the
transaction it stands in.

The state also remembers the decisions and the consumptions that were committed, in order. Of an
approval only the fields that decide about it are kept.
-/

namespace Suwappu.ApprovalService

abbrev UserId := ℕ

abbrev AgentId := ℕ

abbrev OrganizationId := ℕ

abbrev ApprovalId := ℕ

abbrev ChallengeId := ℕ

/-- The value of a challenge. -/
abbrev Nonce := ℕ

/-- Milliseconds. -/
abbrev Time := ℕ

def APPROVAL_TTL_MS : Time := 15 * 60 * 1000

def CHALLENGE_TTL_MS : Time := 2 * 60 * 1000

inductive Status where
  | pending | approved | denied | consumed
deriving DecidableEq, Repr

inductive Outcome where
  | approved | denied
deriving DecidableEq, Repr

def Outcome.status : Outcome → Status
  | .approved => .approved
  | .denied   => .denied

structure ApprovalRequest where
  agentId : AgentId
  organizationId : Option OrganizationId
  userId : Option UserId
  status : Status
  expiresAt : Time
  decidedBy : Option UserId
  decidedAt : Option Time
  consumedAt : Option Time
deriving DecidableEq

structure StepUpChallenge where
  userId : UserId
  approvalId : ApprovalId
  challenge : Nonce
  expiresAt : Time
  usedAt : Option Time
deriving DecidableEq

/-- A decision that was committed, with its challenge and the time of its use, if it had one. The
row tells when its UPDATE was built, `decidedAt`; when it was committed is remembered here. -/
structure Decision where
  approvalId : ApprovalId
  userId : UserId
  outcome : Outcome
  decidedAt : Time
  committedAt : Time
  challenge : Option (ChallengeId × Time)
deriving DecidableEq

structure State where
  now : Time
  /-- by id, as the challenges -/
  approvals : List ApprovalRequest
  challenges : List StepUpChallenge
  /-- the rows that open transactions have written -/
  approvalLocks : List ApprovalId
  challengeLocks : List ChallengeId
  decisions : List Decision
  consumptions : List ApprovalId
deriving DecidableEq

structure CreateApprovalInput where
  agentId : AgentId
  organizationId : Option OrganizationId
  userId : Option UserId
deriving DecidableEq

inductive Proc where
  | create (input : CreateApprovalInput)
  | createLookup (input : CreateApprovalInput) (expiresAt : Time)
  | createInsert (input : CreateApprovalInput) (userId : Option UserId) (expiresAt : Time)
  | decide (id : ApprovalId) (userId : UserId) (outcome : Outcome)
  | decideUpdate (id : ApprovalId) (userId : UserId) (outcome : Outcome)
  | decideWrite (id : ApprovalId) (userId : UserId) (outcome : Outcome) (startedAt : Time)
  | stepUp (id : ApprovalId) (userId : UserId) (stepUpChallenge : Nonce)
  | stepUpBegin (id : ApprovalId) (userId : UserId) (stepUpChallenge : Nonce)
  | stepUpSelect (id : ApprovalId) (userId : UserId) (stepUpChallenge : Nonce) (startedAt : Time)
  | stepUpUse (id : ApprovalId) (userId : UserId) (challengeId : ChallengeId)
    (startedAt usedAt : Time)
  | stepUpApprove (id : ApprovalId) (userId : UserId) (challengeId : ChallengeId)
    (startedAt usedAt decidedAt : Time)
  | stepUpCommit (id : ApprovalId) (userId : UserId) (challengeId : ChallengeId)
    (usedAt decidedAt : Time)
  | issue (id : ApprovalId) (userId : UserId)
  | issueInsert (id : ApprovalId) (userId : UserId) (expiresAt : Time)
  | consume (id : ApprovalId)
  | returned
  | failed
deriving DecidableEq

inductive Answer where
  | none
  /-- the human an agent is linked to -/
  | agentOwner (ownerUserId : Option UserId)
  /-- fresh random bytes -/
  | random (challenge : Nonce)
  /-- the database fails, and the transaction is rolled back -/
  | fails
deriving DecidableEq

inductive Error where
  /-- the step waits for another answer or for a row, or the call is over -/
  | NotNext
deriving DecidableEq, Repr

/-- Who owns an organisation. -/
abbrev Owners := OrganizationId → Option UserId

variable (owners : Owners)

/-- `approvalOwnershipCondition` -/
def approvalOwnershipCondition (userId : UserId) (row : ApprovalRequest) : Prop :=
  (∃ organizationId ∈ row.organizationId, owners organizationId = some userId) ∨
    row.userId = some userId

instance decidableOwnership (userId : UserId) (row : ApprovalRequest) :
    Decidable (approvalOwnershipCondition owners userId row) := by
  unfold approvalOwnershipCondition
  infer_instance

/-- The check before a decision and before a challenge: owned, pending and not expired. -/
def State.actionable (s : State) (id : ApprovalId) (userId : UserId) : Prop :=
  ∃ row ∈ s.approvals[id]?, approvalOwnershipCondition owners userId row ∧
    row.status = .pending ∧ s.now ≤ row.expiresAt

instance State.decidableActionable (s : State) (id : ApprovalId) (userId : UserId) :
    Decidable (s.actionable owners id userId) := by
  unfold State.actionable
  infer_instance

/-- The condition of the UPDATE that decides, in a transaction started at `startedAt`. -/
def State.decidable (s : State) (id : ApprovalId) (startedAt : Time) : Prop :=
  ∃ row ∈ s.approvals[id]?, row.status = .pending ∧ startedAt < row.expiresAt

instance State.decidableDecidable (s : State) (id : ApprovalId) (startedAt : Time) :
    Decidable (s.decidable id startedAt) := by
  unfold State.decidable
  infer_instance

/-- `validateStepUpChallenge` -/
def validateStepUpChallenge (row : StepUpChallenge) (userId : UserId) (approvalId : ApprovalId)
    (now : Time) : Prop :=
  row.userId = userId ∧ row.approvalId = approvalId ∧ row.usedAt = none ∧ now < row.expiresAt

instance decidableValidate (row : StepUpChallenge) (userId : UserId) (approvalId : ApprovalId)
    (now : Time) : Decidable (validateStepUpChallenge row userId approvalId now) := by
  unfold validateStepUpChallenge
  infer_instance

/-- The row of a challenge, if it is valid. -/
def State.validChallenge (s : State) (stepUpChallenge : Nonce) (userId : UserId) (id : ApprovalId) :
    Option ChallengeId :=
  (s.challenges.findIdx? fun row => row.challenge = stepUpChallenge).filter fun i =>
    ∃ row ∈ s.challenges[i]?, validateStepUpChallenge row userId id s.now

/-! ### Writes -/

def State.updateApproval (s : State) (id : ApprovalId) (f : ApprovalRequest → ApprovalRequest) :
    State :=
  { s with approvals := s.approvals.modify id f }

/-- A decision is committed. -/
def State.decide (s : State) (d : Decision) : State :=
  { s.updateApproval d.approvalId fun row =>
      { row with
        status := d.outcome.status
        decidedBy := some d.userId
        decidedAt := some d.decidedAt } with
    decisions := s.decisions ++ [d] }

def State.useChallenge (s : State) (challengeId : ChallengeId) (usedAt : Time) : State :=
  { s with challenges := s.challenges.modify challengeId fun row =>
      { row with usedAt := some usedAt } }

def State.consume (s : State) (id : ApprovalId) : State :=
  { s.updateApproval id fun row =>
      { row with status := .consumed, consumedAt := some s.now } with
    consumptions := s.consumptions ++ [id] }

def State.lockApproval (s : State) (id : ApprovalId) : State :=
  { s with approvalLocks := id :: s.approvalLocks }

def State.unlockApproval (s : State) (id : ApprovalId) : State :=
  { s with approvalLocks := s.approvalLocks.erase id }

def State.lockChallenge (s : State) (challengeId : ChallengeId) : State :=
  { s with challengeLocks := challengeId :: s.challengeLocks }

def State.unlockChallenge (s : State) (challengeId : ChallengeId) : State :=
  { s with challengeLocks := s.challengeLocks.erase challengeId }

/-! ### The calls -/

/-- The next step of a call. -/
def step (s : State) : Proc → Answer → Except Error (State × Proc)
  | .create input, .none =>
    let expiresAt := s.now + APPROVAL_TTL_MS
    if input.userId = none ∧ input.organizationId = none then .ok (s, .createLookup input expiresAt)
    else .ok (s, .createInsert input input.userId expiresAt)
  | .createLookup input expiresAt, .agentOwner ownerUserId =>
    .ok (s, .createInsert input ownerUserId expiresAt)
  | .createLookup input expiresAt, .fails => .ok (s, .createInsert input none expiresAt)
  | .createInsert input userId expiresAt, .none =>
    .ok ({ s with approvals := s.approvals ++ [⟨input.agentId, input.organizationId, userId,
      .pending, expiresAt, none, none, none⟩] }, .returned)
  | .createInsert _ _ _, .fails => .ok (s, .failed)
  | .decide id userId outcome, .none =>
    .ok (s, if s.actionable owners id userId then .decideUpdate id userId outcome else .failed)
  | .decide _ _ _, .fails => .ok (s, .failed)
  | .decideUpdate id userId outcome, .none => .ok (s, .decideWrite id userId outcome s.now)
  | .decideWrite id userId outcome startedAt, .none =>
    if id ∈ s.approvalLocks then .error .NotNext
    else if s.decidable id startedAt then
      .ok (s.decide ⟨id, userId, outcome, startedAt, s.now, none⟩, .returned)
    else .ok (s, .failed)
  | .decideWrite _ _ _ _, .fails => .ok (s, .failed)
  | .stepUp id userId stepUpChallenge, .none =>
    .ok (s, if s.actionable owners id userId then .stepUpBegin id userId stepUpChallenge
      else .failed)
  | .stepUp _ _ _, .fails => .ok (s, .failed)
  | .stepUpBegin id userId stepUpChallenge, .none =>
    .ok (s, .stepUpSelect id userId stepUpChallenge s.now)
  | .stepUpSelect id userId stepUpChallenge startedAt, .none =>
    match s.validChallenge stepUpChallenge userId id with
    | some challengeId => .ok (s, .stepUpUse id userId challengeId startedAt s.now)
    | none             => .ok (s, .failed)
  | .stepUpSelect _ _ _ _, .fails => .ok (s, .failed)
  -- the challenge is marked whether or not it is still unused
  | .stepUpUse id userId challengeId startedAt usedAt, .none =>
    if challengeId ∈ s.challengeLocks then .error .NotNext
    else .ok (s.lockChallenge challengeId,
      .stepUpApprove id userId challengeId startedAt usedAt s.now)
  | .stepUpUse _ _ _ _ _, .fails => .ok (s, .failed)
  | .stepUpApprove id userId challengeId startedAt usedAt decidedAt, .none =>
    if id ∈ s.approvalLocks then .error .NotNext
    else if s.decidable id startedAt then
      .ok (s.lockApproval id, .stepUpCommit id userId challengeId usedAt decidedAt)
    else .ok (s.unlockChallenge challengeId, .failed)
  | .stepUpApprove _ _ challengeId _ _ _, .fails => .ok (s.unlockChallenge challengeId, .failed)
  | .stepUpCommit id userId challengeId usedAt decidedAt, .none =>
    .ok ((((s.useChallenge challengeId usedAt).decide
      ⟨id, userId, .approved, decidedAt, s.now, some (challengeId, usedAt)⟩).unlockApproval
        id).unlockChallenge challengeId, .returned)
  | .stepUpCommit id _ challengeId _ _, .fails =>
    .ok ((s.unlockApproval id).unlockChallenge challengeId, .failed)
  | .issue id userId, .none =>
    .ok (s, if s.actionable owners id userId then .issueInsert id userId (s.now + CHALLENGE_TTL_MS)
      else .failed)
  | .issue _ _, .fails => .ok (s, .failed)
  | .issueInsert id userId expiresAt, .random challenge =>
    -- the unique index on the value
    if ∃ row ∈ s.challenges, row.challenge = challenge then .ok (s, .failed)
    else .ok ({ s with challenges := s.challenges ++ [⟨userId, id, challenge, expiresAt, none⟩] },
      .returned)
  | .issueInsert _ _ _, .fails => .ok (s, .failed)
  | .consume id, .none =>
    if ∃ row ∈ s.approvals[id]?, row.status = .approved then .ok (s.consume id, .returned)
    else .ok (s, .failed)
  | .consume _, .fails => .ok (s, .failed)
  | _, _ => .error .NotNext

/-- Time passes. -/
def elapse (s : State) (duration : Time) : Except Error State :=
  .ok { s with now := s.now + duration }

def program : Program State Proc Answer Time Error := ⟨step owners, elapse⟩

inductive Call where
  | create (input : CreateApprovalInput)
  | decide (id : ApprovalId) (userId : UserId) (outcome : Outcome)
  | decideApproveWithStepUp (id : ApprovalId) (userId : UserId) (stepUpChallenge : Nonce)
  | issueStepUpChallenge (id : ApprovalId) (userId : UserId)
  | finalizeConsume (id : ApprovalId)

def Call.start : Call → Proc
  | .create input                                      => .create input
  | .decide id userId outcome                          => .decide id userId outcome
  | .decideApproveWithStepUp id userId stepUpChallenge => .stepUp id userId stepUpChallenge
  | .issueStepUpChallenge id userId                    => .issue id userId
  | .finalizeConsume id                                => .consume id

abbrev Config (n : ℕ) := Program.Config State Proc n

abbrev Action (n : ℕ) := Program.Action n Answer Time

def initial {n : ℕ} (now : Time) (calls : Fin n → Call) : Config n :=
  ⟨⟨now, [], [], [], [], [], []⟩, fun i => (calls i).start⟩

end Suwappu.ApprovalService
