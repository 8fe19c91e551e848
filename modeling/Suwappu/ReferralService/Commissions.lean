import Suwappu.Lib.Processes

/-!
# Referral commissions

Any number of calls of the referral service credit one referrer who has a code: with rewards for the
swaps of the referees, with commissions for their perp orders and with bonuses for milestones. Every
read and every write of the database is a step; a write that changes a row waits until the row is
free, and so does a read for update, and an insert until the key is no longer in doubt. What a
transaction writes is kept by its process until it is committed. The writes of a session come as it
is flushed.

Floating-point numbers are taken as exact; the fees are those that were charged, and not negative. A
referee is known by the row of its referral. Rates, metadata and points are left out.
-/

namespace Suwappu.ReferralService.Commissions

abbrev RefereeId := ℕ

abbrev SwapId := ℕ

abbrev PerpOrderId := ℕ

/-- Microseconds. -/
abbrev Time := ℕ

def thirtyDays : Time := 30 * 86400 * 1000000

def MIN_VOLUME_BEFORE_PAYOUT_USD : ℚ≥0 := 10

def MAX_REWARD_PER_REFEREE_PER_30D_USD : ℚ≥0 := 500

inductive Tier where
  | standard | power | elite
deriving DecidableEq, Repr

def percent (n : ℕ) : ℚ≥0 := .divNat n 100

def l1RateForTier : Tier → ℚ≥0
  | .elite            => percent 40
  | .standard | .power => percent 30

def PERPS_TIERS : List (ℚ≥0 × ℚ≥0) :=
  [(1000000, percent 80), (250000, percent 55), (50000, percent 40), (10000, percent 30),
    (0, percent 20)]

def getPerpsTierRate (volume14dUsd : ℚ≥0) : ℚ≥0 :=
  ((PERPS_TIERS.find? fun tier => tier.1 ≤ volume14dUsd).map Prod.snd).getD (percent 20)

def MILESTONE_BONUSES : List (ℕ × ℕ) := [(5, 5), (10, 15), (20, 40), (50, 125), (100, 300)]

structure Referral where
  isActive : Bool
  verifiedAt : Option Time
  perpsVolume14dUsd : ℚ≥0
deriving DecidableEq

/-- A row of `referral_codes`. -/
structure Code where
  totalRewardsEarned : ℚ≥0
  referrerTier : Tier
deriving DecidableEq

/-- A row of `referral_rewards`. -/
structure Reward where
  referral : RefereeId
  swapId : SwapId
  rewardAmountUsd : ℚ≥0
  createdAt : Time
deriving DecidableEq

inductive Stream where
  | swap (id : SwapId)
  | perps (id : PerpOrderId)
  | milestone (count : ℕ)
deriving DecidableEq, Repr

/-- A row of `referral_earnings`. -/
structure Earning where
  referredId : Option RefereeId
  stream : Stream
  amountUsd : ℚ≥0
deriving DecidableEq

/-- Rows of the three tables; of `referral_milestones` the count. -/
structure Ledger where
  rewards : List Reward
  earnings : List Earning
  milestones : List ℕ
deriving DecidableEq

/-- The keys of the unique indexes. The one on the earnings leaves milestones out. -/
inductive Key where
  | reward (id : SwapId)
  | swap (id : SwapId)
  | perps (id : PerpOrderId)
  | milestone (count : ℕ)
deriving DecidableEq, Repr

structure State where
  now : Time
  referrals : List Referral
  code : Code
  /-- of the user row of the referrer -/
  totalReferralRewards : ℚ≥0
  ledger : Ledger
  lockedReferrals : List RefereeId
  codeLocked : Bool
  userLocked : Bool
  /-- keys of rows that are not committed -/
  uncommitted : List Key

/-! ### Ledgers -/

def Ledger.empty : Ledger := ⟨[], [], []⟩

def Ledger.append (l l' : Ledger) : Ledger :=
  ⟨l.rewards ++ l'.rewards, l.earnings ++ l'.earnings, l.milestones ++ l'.milestones⟩

/-- How many rows have the key. -/
def Ledger.count (l : Ledger) : Key → ℕ
  | .reward id       => (l.rewards.map Reward.swapId).count id
  | .swap id         => (l.earnings.map Earning.stream).count (.swap id)
  | .perps id        => (l.earnings.map Earning.stream).count (.perps id)
  | .milestone count => l.milestones.count count

/-- The rewards of a referee from a time on. -/
def Ledger.rewardsSince (l : Ledger) (referee : RefereeId) (start : Time) : ℚ≥0 :=
  ((l.rewards.filter fun r => r.referral = referee ∧ start ≤ r.createdAt).map
    Reward.rewardAmountUsd).sum

/-! ### Transactions -/

/-- The commission that a session records, what the session has read, and what it has written. -/
structure Transaction where
  /-- its referral is locked -/
  referee : Option RefereeId
  stream : Stream
  amount : ℚ≥0
  tradeNotionalUsd : ℚ≥0
  code : Code
  referrerTier : Option Tier
  totalReferralRewards : ℚ≥0
  -- the writes
  newTotal : Option ℚ≥0
  newEarned : Option ℚ≥0
  codeLocked : Bool
  volume : Option ℚ≥0
  ledger : Ledger
deriving DecidableEq

inductive Statement where
  | selectUser | selectCode | updateUser | updateCode | updateReferral | insertReward
  | insertEarning | insertMilestone
deriving DecidableEq, Repr

/-- What a call goes on with. -/
inductive Task where
  | verifyReferral (referee : RefereeId)
  | checkMilestones
  | award (count : ℕ) (bonusUsd : ℚ≥0)
deriving DecidableEq

inductive Proc where
  | idle
  -- `record_reward`
  | recordReward (referee : RefereeId) (swapId : SwapId) (feeAmountUsd : ℚ≥0)
  | existingReward (referee : RefereeId) (swapId : SwapId) (feeAmountUsd : ℚ≥0)
  | refereeVolume (referee : RefereeId) (swapId : SwapId) (feeAmountUsd : ℚ≥0)
  | selectTier (referee : RefereeId) (swapId : SwapId) (feeAmountUsd : ℚ≥0)
  | existing30dReward (referee : RefereeId) (swapId : SwapId) (feeAmountUsd : ℚ≥0) (code : Code)
  | totalReferredVolume (tx : Transaction)
  -- `credit_perps_commission`
  | creditPerps (referee : RefereeId) (perpOrderId : PerpOrderId)
      (builderFeeUsd tradeNotionalUsd : ℚ≥0)
  | existingPerps (referee : RefereeId) (perpOrderId : PerpOrderId)
      (builderFeeUsd tradeNotionalUsd : ℚ≥0)
  /-- the rest of a session, and what comes after it -/
  | session (tx : Transaction) (statements : List Statement) (rest : List Task)
  -- `verify_referral`
  | verifyReferral (referee : RefereeId) (rest : List Task)
  | stampVerified (referee : RefereeId) (rest : List Task)
  | commitVerified (referee : RefereeId) (verifiedAt : Time) (rest : List Task)
  -- `_check_and_award_milestones`
  | verifiedCount (rest : List Task)
  | existingMilestone (count : ℕ) (bonusUsd : ℚ≥0) (rest : List Task)
deriving DecidableEq

inductive Answer where
  | recordReward (referee : RefereeId) (swapId : SwapId) (feeAmountUsd : ℚ≥0)
  | creditPerpsCommission (referee : RefereeId) (perpOrderId : PerpOrderId)
      (builderFeeUsd tradeNotionalUsd : ℚ≥0)
  | verifyReferral (referee : RefereeId)
  | checkMilestones
  | ok
  /-- a sum over the swaps -/
  | volume (usd : ℚ≥0)
  /-- the statement fails -/
  | raises

inductive Event where
  | elapse (duration : Time)
  | makeReferral
  | deactivate (referee : RefereeId)

inductive Error where
  /-- the step waits for another answer -/
  | NotNext
  /-- another transaction has the row, or has inserted the key -/
  | Locked
deriving DecidableEq, Repr

/-! ### Statements -/

/-- What an insert does: it waits, it violates an index, or it adds the row. -/
inductive Inserted where
  | waits
  | violates
  | inserts
deriving DecidableEq, Repr

def State.insert (s : State) (tx : Transaction) (key : Key) : Inserted :=
  if 0 < s.ledger.count key ∨ 0 < tx.ledger.count key then .violates
  else if key ∈ s.uncommitted then .waits
  else .inserts

def Stream.key : Stream → Option Key
  | .swap id     => some (.swap id)
  | .perps id    => some (.perps id)
  | .milestone _ => none

def Transaction.earning (tx : Transaction) : Earning := ⟨tx.referee, tx.stream, tx.amount⟩

def Transaction.keys (tx : Transaction) : List Key :=
  tx.ledger.rewards.map (fun r => .reward r.swapId) ++
    tx.ledger.earnings.filterMap (fun e => e.stream.key) ++ tx.ledger.milestones.map .milestone

/-- The rows and keys of a transaction are free. -/
def State.release (s : State) (tx : Transaction) : State :=
  { s with
      lockedReferrals := s.lockedReferrals.diff tx.referee.toList
      codeLocked := s.codeLocked && !tx.codeLocked
      userLocked := s.userLocked && tx.newTotal.isNone
      uncommitted := s.uncommitted.diff tx.keys }

def State.commit (s : State) (tx : Transaction) : State :=
  { s.release tx with
      referrals := tx.volume.elim s.referrals fun volume =>
        tx.referee.elim s.referrals fun referee =>
          s.referrals.modify referee fun r => { r with perpsVolume14dUsd := volume }
      code := ⟨tx.newEarned.getD s.code.totalRewardsEarned,
        if tx.codeLocked then tx.referrerTier.getD s.code.referrerTier else s.code.referrerTier⟩
      totalReferralRewards := tx.newTotal.getD s.totalReferralRewards
      ledger := s.ledger.append tx.ledger }

/-- An insert of the row of a transaction with a key. -/
def State.insertRow (s : State) (tx : Transaction) (key : Option Key) (row : Ledger) :
    Except Error (State × Option Transaction) :=
  let inserted := { tx with ledger := tx.ledger.append row }
  match key with
  | none => .ok (s, some inserted)
  | some key =>
    match s.insert tx key with
    | .waits    => .error .Locked
    | .violates => .ok (s, none)
    | .inserts  => .ok ({ s with uncommitted := key :: s.uncommitted }, some inserted)

/-- A statement of a session; none, where it violates an index. A column that does not change is not
written. -/
def State.execute (s : State) (tx : Transaction) :
    Statement → Except Error (State × Option Transaction)
  | .selectUser => .ok (s, some { tx with totalReferralRewards := s.totalReferralRewards })
  | .selectCode => .ok (s, some { tx with code := s.code })
  | .updateUser =>
    if tx.amount = 0 then .ok (s, some tx)
    else if s.userLocked then .error .Locked
    else .ok ({ s with userLocked := true },
      some { tx with newTotal := some (tx.totalReferralRewards + tx.amount) })
  | .updateCode =>
    if tx.amount = 0 ∧ tx.referrerTier = none then .ok (s, some tx)
    else if s.codeLocked then .error .Locked
    else .ok ({ s with codeLocked := true }, some { tx with
      codeLocked := true
      newEarned := if tx.amount = 0 then none else some (tx.code.totalRewardsEarned + tx.amount) })
  | .updateReferral =>
    .ok (s, some { tx with volume :=
      if tx.tradeNotionalUsd = 0 then none
      else (tx.referee.bind fun referee => s.referrals[referee]?).map fun r =>
        r.perpsVolume14dUsd + tx.tradeNotionalUsd })
  | .insertReward =>
    match tx.referee, tx.stream with
    | some referee, .swap id =>
      s.insertRow tx (some (.reward id)) ⟨[⟨referee, id, tx.amount, s.now⟩], [], []⟩
    | _, _ => .ok (s, some tx)
  | .insertEarning => s.insertRow tx tx.stream.key ⟨[], [tx.earning], []⟩
  | .insertMilestone =>
    match tx.stream with
    | .milestone count => s.insertRow tx (some (.milestone count)) ⟨[], [], [count]⟩
    | _ => .ok (s, some tx)

/-! ### Steps -/

def Proc.start : List Task → Proc
  | []                             => .idle
  | .verifyReferral referee :: rest => .verifyReferral referee rest
  | .checkMilestones :: rest       => .verifiedCount rest
  | .award count bonusUsd :: rest  => .existingMilestone count bonusUsd rest

/-- Where a session that fails leaves the call: a milestone is skipped, and others give up. -/
def Proc.afterFailure (tx : Transaction) (rest : List Task) : Proc :=
  match tx.stream with
  | .milestone _ => .start rest
  | _            => .idle

def Task.isAward : Task → Bool
  | .award _ _ => true
  | _          => false

/-- The row of the referral of a referee, if it is active. -/
def State.activeReferral (s : State) (referee : RefereeId) : Option Referral :=
  s.referrals[referee]?.filter Referral.isActive

/-- `SELECT ... FOR UPDATE` of the referral. -/
def State.lockReferral (s : State) (referee : RefereeId) (next : Proc) :
    Except Error (State × Proc) :=
  if s.activeReferral referee = none then .ok (s, .idle)
  else if referee ∈ s.lockedReferrals then .error .Locked
  else .ok ({ s with lockedReferrals := referee :: s.lockedReferrals }, next)

def State.unlockReferral (s : State) (referee : RefereeId) : State :=
  { s with lockedReferrals := s.lockedReferrals.erase referee }

def Transaction.begin (referee : Option RefereeId) (stream : Stream) (amount : ℚ≥0) (code : Code) :
    Transaction :=
  ⟨referee, stream, amount, 0, code, none, 0, none, none, false, none, .empty⟩

/-- The tier that the referred volume promotes to. -/
def promotion (tier : Tier) (totalReferredVolume : ℚ≥0) : Option Tier :=
  if 50000 ≤ totalReferredVolume ∧ tier ≠ .elite then some .elite
  else if 25000 ≤ totalReferredVolume ∧ tier = .standard then some .power
  else none

def State.verifiedCount (s : State) : ℕ :=
  s.referrals.countP fun r => r.isActive ∧ r.verifiedAt.isSome

def swapStatements : List Statement :=
  [.selectUser, .updateUser, .updateCode, .insertReward, .insertEarning]

def perpsStatements : List Statement :=
  [.selectUser, .selectCode, .updateUser, .updateCode, .updateReferral, .insertEarning]

def milestoneStatements : List Statement :=
  [.insertEarning, .selectUser, .selectCode, .updateUser, .updateCode, .insertMilestone]

def step (s : State) : Proc → Answer → Except Error (State × Proc)
  | .idle, .recordReward referee swapId feeAmountUsd =>
    .ok (s, .recordReward referee swapId feeAmountUsd)
  | .idle, .creditPerpsCommission referee perpOrderId builderFeeUsd tradeNotionalUsd =>
    .ok (s, if builderFeeUsd = 0 then .idle
      else .creditPerps referee perpOrderId builderFeeUsd tradeNotionalUsd)
  | .idle, .verifyReferral referee => .ok (s, .verifyReferral referee [])
  | .idle, .checkMilestones => .ok (s, .verifiedCount [])
  -- `record_reward`
  | .recordReward referee swapId feeAmountUsd, .ok =>
    s.lockReferral referee (.existingReward referee swapId feeAmountUsd)
  | .existingReward referee swapId feeAmountUsd, .ok =>
    .ok (if 0 < s.ledger.count (.reward swapId) then (s.unlockReferral referee, .idle)
      else (s, .refereeVolume referee swapId feeAmountUsd))
  | .refereeVolume referee swapId feeAmountUsd, .volume usd =>
    .ok (if usd < MIN_VOLUME_BEFORE_PAYOUT_USD then (s.unlockReferral referee, .idle)
      else (s, .selectTier referee swapId feeAmountUsd))
  | .selectTier referee swapId feeAmountUsd, .ok =>
    .ok (s, .existing30dReward referee swapId feeAmountUsd s.code)
  | .existing30dReward referee swapId feeAmountUsd code, .ok =>
    let existing := s.ledger.rewardsSince referee (s.now - thirtyDays)
    .ok (if MAX_REWARD_PER_REFEREE_PER_30D_USD ≤ existing then (s.unlockReferral referee, .idle)
      else (s, .totalReferredVolume (.begin referee (.swap swapId)
        (min (feeAmountUsd * l1RateForTier code.referrerTier)
          (MAX_REWARD_PER_REFEREE_PER_30D_USD - existing)) code)))
  | .totalReferredVolume tx, .volume usd =>
    .ok (s, .session { tx with referrerTier := promotion tx.code.referrerTier usd } swapStatements
      (tx.referee.toList.map .verifyReferral))
  -- `credit_perps_commission`
  | .creditPerps referee perpOrderId builderFeeUsd tradeNotionalUsd, .ok =>
    s.lockReferral referee (.existingPerps referee perpOrderId builderFeeUsd tradeNotionalUsd)
  | .existingPerps referee perpOrderId builderFeeUsd tradeNotionalUsd, .ok =>
    .ok (if 0 < s.ledger.count (.perps perpOrderId) then (s.unlockReferral referee, .idle)
      else (s, .session
        { Transaction.begin referee (.perps perpOrderId) (builderFeeUsd * getPerpsTierRate
            ((s.referrals[referee]?.map Referral.perpsVolume14dUsd).getD 0)) s.code with
          tradeNotionalUsd := tradeNotionalUsd }
        perpsStatements [.verifyReferral referee, .checkMilestones]))
  -- the sessions
  | .session tx (statement :: statements) rest, .ok =>
    (s.execute tx statement).map fun r => match r.2 with
      | some tx => (r.1, .session tx statements rest)
      | none    => (s.release tx, .afterFailure tx rest)
  | .session tx [] rest, .ok => .ok (s.commit tx, .start rest)
  | .session tx _ rest, .raises => .ok (s.release tx, .afterFailure tx rest)
  -- `verify_referral`
  | .verifyReferral referee rest, .ok =>
    .ok (s, if (s.activeReferral referee).any fun r => r.verifiedAt.isNone
      then .stampVerified referee rest else .start rest)
  | .stampVerified referee rest, .ok =>
    if referee ∈ s.lockedReferrals then .error .Locked
    else .ok ({ s with lockedReferrals := referee :: s.lockedReferrals },
      .commitVerified referee s.now rest)
  | .commitVerified referee verifiedAt rest, .ok =>
    .ok ({ s.unlockReferral referee with
      referrals := s.referrals.modify referee fun r => { r with verifiedAt := some verifiedAt } },
      .start (.checkMilestones :: rest))
  -- `_check_and_award_milestones`
  | .verifiedCount rest, .ok =>
    .ok (s, .start ((MILESTONE_BONUSES.filter fun m => m.1 ≤ s.verifiedCount).map
      (fun m => .award m.1 m.2) ++ rest))
  | .existingMilestone count bonusUsd rest, .ok =>
    .ok (s, if 0 < s.ledger.count (.milestone count) then .start rest
      else .session (.begin none (.milestone count) bonusUsd s.code) milestoneStatements rest)
  -- what fails
  | .existingReward referee _ _, .raises => .ok (s.unlockReferral referee, .idle)
  | .refereeVolume referee _ _, .raises => .ok (s.unlockReferral referee, .idle)
  | .selectTier referee _ _, .raises => .ok (s.unlockReferral referee, .idle)
  | .existing30dReward referee _ _ _, .raises => .ok (s.unlockReferral referee, .idle)
  | .totalReferredVolume tx, .raises => .ok (s.release tx, .idle)
  | .existingPerps referee _ _ _, .raises => .ok (s.unlockReferral referee, .idle)
  | .recordReward _ _ _, .raises => .ok (s, .idle)
  | .creditPerps _ _ _ _, .raises => .ok (s, .idle)
  | .verifyReferral _ rest, .raises => .ok (s, .start rest)
  | .stampVerified _ rest, .raises => .ok (s, .start rest)
  | .commitVerified referee _ rest, .raises => .ok (s.unlockReferral referee, .start rest)
  | .verifiedCount rest, .raises => .ok (s, .start rest)
  | .existingMilestone _ _ rest, .raises => .ok (s, .start (rest.dropWhile Task.isAward))
  | _, _ => .error .NotNext

def environment (s : State) : Event → Except Error State
  | .elapse duration => .ok { s with now := s.now + duration }
  | .makeReferral => .ok { s with referrals := s.referrals ++ [⟨true, none, 0⟩] }
  | .deactivate referee =>
    if referee ∈ s.lockedReferrals then .error .Locked
    else
      .ok { s with referrals := s.referrals.modify referee fun r => { r with isActive := false } }

def program : Program State Proc Answer Event Error := ⟨step, environment⟩

def initial (n : ℕ) (now : Time) : Program.Config State Proc n :=
  ⟨⟨now, [], ⟨0, .standard⟩, 0, .empty, [], false, false, []⟩, fun _ => .idle⟩

end Suwappu.ReferralService.Commissions
