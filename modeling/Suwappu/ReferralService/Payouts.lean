import Suwappu.Lib.Doubles
import Suwappu.Lib.Processes

/-!
# Referral payouts

Any number of callers claim referral rewards, and approve and reject the claims that are held for
review. Every transaction and every credit of the custodial ledger is a step, and a call may crash
between any two of them; a credit that raises is not applied. New rewards are recorded meanwhile,
and referrals made and deactivated.

Rows are known by their position. Dates, messages and the amount in units of the token are left out.
Sums of decimals are exact.
-/

namespace Suwappu.ReferralService

abbrev UserId := ℕ

abbrev ReferralId := ℕ

abbrev RewardId := ℕ

abbrev PayoutId := ℕ

def MIN_CLAIM_USD : ℚ := 1

def CLAIM_REVIEW_THRESHOLD_USD : ℚ := 500

structure Referral where
  referrerId : UserId
  isActive : Bool
deriving DecidableEq

structure Reward where
  referralId : ReferralId
  rewardAmountUsd : ℚ
  isPaid : Bool
  payoutId : Option PayoutId
deriving DecidableEq

inductive PayoutStatus where
  | processing | pendingReview | approving | completed | failed | rejected
deriving DecidableEq, Repr

structure Payout where
  userId : UserId
  amountUsd : ℚ
  status : PayoutStatus
deriving DecidableEq

/-- A credit of the custodial ledger for a payout; with it the rewards that bear the id of the
payout at that time. -/
structure Credit where
  payoutId : PayoutId
  userId : UserId
  amount : ℚ
  rewards : List (Reward × RewardId)

structure State where
  referrals : List Referral
  rewards : List Reward
  payouts : List Payout
  credits : List Credit

inductive Proc where
  | idle
  -- `claim_rewards`
  | credit (payoutId : PayoutId) (userId : UserId) (claimedUsd : ℚ)
  | restore (payoutId : PayoutId)
  | complete (payoutId : PayoutId)
  -- `approve_referral_claim`
  | approveCredit (payoutId : PayoutId) (userId : UserId) (amountUsd : ℚ)
  | resetReview (payoutId : PayoutId)
  | completeApproval (payoutId : PayoutId)

inductive Answer where
  | claimRewards (userId : UserId)
  | approveReferralClaim (payoutId : PayoutId)
  | rejectReferralClaim (payoutId : PayoutId)
  | ok
  /-- the credit raises -/
  | raises
  | crash

inductive Event where
  | makeReferral (referrerId : UserId)
  | deactivate (referralId : ReferralId)
  | recordReward (referralId : ReferralId) (rewardAmountUsd : ℚ)

inductive Error where
  /-- the step waits for another answer -/
  | NotNext
deriving DecidableEq, Repr

/-! ### Transactions -/

/-- Unpaid, and of an active referral of the user. -/
def State.claimable (s : State) (userId : UserId) (r : Reward) : Bool :=
  r.isPaid = false ∧
    ∃ referral ∈ s.referrals[r.referralId]?, referral.referrerId = userId ∧ referral.isActive

/-- The rewards that bear the id of a payout. -/
def State.stamped (s : State) (payoutId : PayoutId) : List (Reward × RewardId) :=
  s.rewards.zipIdx.filter fun row => row.1.payoutId = some payoutId

def Reward.pay (payoutId : PayoutId) (r : Reward) : Reward :=
  { r with isPaid := true, payoutId := some payoutId }

def Reward.release (r : Reward) : Reward :=
  { r with isPaid := false, payoutId := none }

def State.status (s : State) (payoutId : PayoutId) : Option PayoutStatus :=
  s.payouts[payoutId]?.map Payout.status

def State.setStatus (s : State) (payoutId : PayoutId) (status : PayoutStatus) : State :=
  { s with payouts := s.payouts.modify payoutId fun payout => { payout with status := status } }

/-- `UPDATE referral_payouts SET status = ... WHERE id = ... AND status = ...` -/
def State.transition (s : State) (payoutId : PayoutId) (status new : PayoutStatus) : State :=
  if s.status payoutId = some status then s.setStatus payoutId new else s

/-- The rewards of a payout are claimable again, or those of them that are paid. -/
def State.release (s : State) (payoutId : PayoutId) (paid : Bool) : State :=
  { s with rewards := s.rewards.map fun r =>
      if r.payoutId = some payoutId ∧ (paid → r.isPaid) then r.release else r }

/-- The nearest double. A number that is too large for one stays as it is. -/
def float (x : ℚ) : ℚ := (Doubles.roundDouble x).getD x

def claimedUsd (rewards : List Reward) : ℚ := float (rewards.map Reward.rewardAmountUsd).sum

/-- A payout with all the rewards that its user may claim. -/
def State.insertPayout (s : State) (payout : Payout) : State :=
  { s with
      payouts := s.payouts ++ [payout]
      rewards := s.rewards.map fun r =>
        if s.claimable payout.userId r then r.pay s.payouts.length else r }

/-- The first transaction of `claim_rewards`. -/
def State.claimRewards (s : State) (userId : UserId) : State × Proc :=
  let unpaid := s.rewards.filter (s.claimable userId)
  let claimedUsd := claimedUsd unpaid
  if unpaid = [] ∨ claimedUsd < MIN_CLAIM_USD then (s, .idle)
  else
    let payoutId := s.payouts.length
    let held : Bool := CLAIM_REVIEW_THRESHOLD_USD < claimedUsd
    (s.insertPayout ⟨userId, claimedUsd, if held then .pendingReview else .processing⟩,
      if held then .idle else .credit payoutId userId claimedUsd)

/-- `update_custodial_balance` -/
def State.credit (s : State) (payoutId : PayoutId) (userId : UserId) (amount : ℚ) : State :=
  { s with credits := s.credits ++ [⟨payoutId, userId, amount, s.stamped payoutId⟩] }

/-! ### Steps -/

def step (s : State) : Proc → Answer → Except Error (State × Proc)
  | _, .crash => .ok (s, .idle)
  | .idle, .claimRewards userId => .ok (s.claimRewards userId)
  | .credit payoutId userId claimedUsd, .ok =>
    .ok (s.credit payoutId userId claimedUsd, .complete payoutId)
  | .credit payoutId _ _, .raises => .ok (s, .restore payoutId)
  | .restore payoutId, .ok => .ok ((s.release payoutId false).setStatus payoutId .failed, .idle)
  | .complete payoutId, .ok => .ok (s.setStatus payoutId .completed, .idle)
  | .idle, .approveReferralClaim payoutId =>
    .ok (match s.payouts[payoutId]? with
      | some payout =>
        if payout.status = .pendingReview then
          (s.setStatus payoutId .approving, .approveCredit payoutId payout.userId payout.amountUsd)
        else (s, .idle)
      | none => (s, .idle))
  | .approveCredit payoutId userId amountUsd, .ok =>
    .ok (s.credit payoutId userId amountUsd, .completeApproval payoutId)
  | .approveCredit payoutId _ _, .raises => .ok (s, .resetReview payoutId)
  | .resetReview payoutId, .ok => .ok (s.transition payoutId .approving .pendingReview, .idle)
  | .completeApproval payoutId, .ok => .ok (s.transition payoutId .approving .completed, .idle)
  | .idle, .rejectReferralClaim payoutId =>
    .ok (if s.status payoutId = some .pendingReview
      then ((s.release payoutId true).setStatus payoutId .rejected, .idle) else (s, .idle))
  | _, _ => .error .NotNext

def environment (s : State) : Event → Except Error State
  | .makeReferral referrerId => .ok { s with referrals := s.referrals ++ [⟨referrerId, true⟩] }
  | .deactivate referralId =>
    .ok { s with referrals := s.referrals.modify referralId fun r => { r with isActive := false } }
  | .recordReward referralId rewardAmountUsd =>
    .ok { s with rewards := s.rewards ++ [⟨referralId, rewardAmountUsd, false, none⟩] }

def program : Program State Proc Answer Event Error := ⟨step, environment⟩

def initial (n : ℕ) : Program.Config State Proc n :=
  ⟨⟨[], [], [], []⟩, fun _ => .idle⟩

end Suwappu.ReferralService
