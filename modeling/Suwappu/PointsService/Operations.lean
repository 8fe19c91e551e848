import Suwappu.Lib.Processes

/-!
# Points

Any number of operations of the two points services on the account of one user: those of the bot
read the account with `SELECT ... FOR UPDATE` and write it back, those of the API change it by
relative, conditional updates. Every statement is a step. What a transaction writes is kept by its
process until it is committed; its first write to the account, or the read that locks it, waits
until the row is free. Seasons, redemptions, subscriptions and the stock of rewards are left out;
that a reward is out of stock ends the transaction.
-/

namespace Suwappu.PointsService

abbrev SwapId := ℕ

abbrev MilestoneId := ℕ

/-- Seconds. -/
abbrev Time := ℕ

/-- The UTC day. -/
def day (t : Time) : ℕ := t / 86400

inductive Level where
  | bronze | silver | gold | platinum | diamond
deriving DecidableEq, Repr

def levelFromXp (xp : ℤ) : Level :=
  if 100000 ≤ xp then .diamond
  else if 25000 ≤ xp then .platinum
  else if 5000 ≤ xp then .gold
  else if 1000 ≤ xp then .silver
  else .bronze

/-- A row of `user_points`. -/
structure Account where
  currentPoints : ℤ
  totalPointsEarned : ℤ
  pointsSpent : ℤ
  xp : ℤ
  level : Level
  dailyStreak : ℕ
  longestStreak : ℕ
  lastCheckin : Option Time
  lastSwapDate : Option Time
  totalSwaps : ℕ
  totalVolumeUsd : ℚ
deriving DecidableEq

def Account.new : Account := ⟨0, 0, 0, 0, .bronze, 0, 0, none, none, 0, 0⟩

/-- What a transaction is for; of a check-in and a milestone, which. -/
inductive Action where
  | award | swap | firstSwapDaily | streakBonus | levelUp | redemption | redemptionRefund
  | checkin (day : ℕ)
  | milestone (id : MilestoneId)
deriving DecidableEq, Repr

/-- `swap:{swapId}` and `level_up:{level}` -/
inductive Reference where
  | swap (id : SwapId)
  | levelUp (level : Level)
deriving DecidableEq, Repr

/-- A row of `point_transactions`. -/
structure Entry where
  action : Action
  amount : ℤ
  reference : Option Reference
deriving DecidableEq

inductive RequirementType where
  | swaps | volume | streak | referrals
deriving DecidableEq, Repr

structure Milestone where
  id : MilestoneId
  requirementType : RequirementType
  requirementValue : ℚ
  pointsReward : ℕ
deriving DecidableEq

/-- What a transaction has written; the account, once it has the row. -/
structure Transaction where
  account : Option Account
  entries : List Entry
  milestones : List MilestoneId

structure State where
  now : Time
  row : Option Account
  /-- a transaction has the row of the account, or has inserted it -/
  locked : Bool
  ledger : List Entry
  milestones : List MilestoneId
  /-- references of entries that are not committed -/
  uncommitted : List Reference

/-! ### The operations of the bot -/

inductive Operation where
  | awardPoints (points : ℕ)
  /-- the first session of `award_swap_points` -/
  | countSwap (swapAmountUsd : ℚ) (tickerBoostBps : ℤ)
  | dailyCheckin
  /-- `spend_points` and `redeem_subscription_reward` -/
  | spendPoints (amount : ℕ)
  | redeemMarketplaceReward (rewardCost : ℕ)
  | checkMilestones
deriving DecidableEq

/-- The operation makes an account where there is none. -/
def Operation.create : Operation → Bool
  | .awardPoints _ | .countSwap _ _ | .dailyCheckin => true
  | .spendPoints _ | .redeemMarketplaceReward _ | .checkMilestones => false

def Account.credit (a : Account) (points : ℤ) : Account :=
  { a with
      currentPoints := a.currentPoints + points
      totalPointsEarned := a.totalPointsEarned + points
      xp := a.xp + points }

def Account.debit (a : Account) (cost : ℤ) : Account :=
  { a with
      currentPoints := a.currentPoints - cost
      pointsSpent := a.pointsSpent + cost }

/-- `check_level_up`, and `levelFromXpSql` -/
def Account.relevel (a : Account) : Account :=
  { a with level := levelFromXp a.xp }

def basePoints (swapAmountUsd : ℚ) (tickerBoostBps : ℤ) : ℕ :=
  let base := max 1 ⌊swapAmountUsd / 10⌋.toNat
  base + base * (max 0 (min tickerBoostBps 3500)).toNat / 10000

/-- The day of `today` comes after that of the date, or there is none. -/
def isBefore (date : Option Time) (today : Time) : Bool :=
  ∀ t ∈ date, day t < day today

def Account.countSwap (a : Account) (now : Time) (swapAmountUsd : ℚ) : Account :=
  { a with
      lastSwapDate := some now
      totalSwaps := a.totalSwaps + 1
      totalVolumeUsd := a.totalVolumeUsd + swapAmountUsd }

def Account.checkin (a : Account) (now : Time) (streak : ℕ) : Account :=
  { a with
      dailyStreak := streak
      longestStreak := max a.longestStreak streak
      lastCheckin := some now }

/-- The streak that a check-in continues or begins. -/
def Account.newStreak (a : Account) (now : Time) : ℕ :=
  if ∃ t ∈ a.lastCheckin, day t + 1 = day now then a.dailyStreak + 1 else 1

/-- What an operation writes to the account it has locked, and what comes after it. -/
def perform (now : Time) (a : Account) : Operation → Transaction × List Operation
  | .awardPoints points =>
    (⟨some (a.credit points).relevel, [⟨.award, points, none⟩], []⟩, [])
  | .countSwap swapAmountUsd tickerBoostBps =>
    let bonus := if isBefore a.lastSwapDate now then 50 else 0
    (⟨some (a.countSwap now swapAmountUsd), [], []⟩,
      [.awardPoints (basePoints swapAmountUsd tickerBoostBps + bonus), .checkMilestones])
  | .dailyCheckin =>
    if ∃ t ∈ a.lastCheckin, day t = day now then (⟨some a, [], []⟩, [])
    else
      let streak := a.newStreak now
      let points := 10 + streak * 5
      (⟨some ((a.checkin now streak).credit points).relevel, [⟨.checkin (day now), points, none⟩],
        []⟩, [.checkMilestones])
  | .spendPoints cost | .redeemMarketplaceReward cost =>
    if a.currentPoints < cost then (⟨some a, [], []⟩, [])
    else (⟨some (a.debit cost), [⟨.redemption, -cost, none⟩], []⟩, [])
  | .checkMilestones => (⟨some a, [], []⟩, [])

def Milestone.achieved (m : Milestone) (a : Account) (referralCount : ℕ) : Bool :=
  match m.requirementType with
  | .swaps     => m.requirementValue ≤ a.totalSwaps
  | .volume    => m.requirementValue ≤ a.totalVolumeUsd
  | .streak    => m.requirementValue ≤ a.longestStreak
  | .referrals => m.requirementValue ≤ referralCount

def Milestone.entry (m : Milestone) : Entry := ⟨.milestone m.id, m.pointsReward, none⟩

/-- The milestones that `_check_milestones` awards. -/
def awardMilestones (a : Account) (new : List Milestone) : Transaction :=
  ⟨some (a.credit (new.map fun m => (m.pointsReward : ℤ)).sum), new.map Milestone.entry,
    new.map Milestone.id⟩

/-- The refund of a reward that its provider does not fulfil. -/
def Transaction.refund (tx : Transaction) (cost : ℕ) : Transaction :=
  { tx with
      account := tx.account.map fun a => a.debit (-cost)
      entries := tx.entries ++ [⟨.redemptionRefund, cost, none⟩] }

/-! ### The operations of the API -/

inductive Request where
  | awardPoints (pointAmount : ℕ)
  | awardSwapPoints (swapAmountUsd : ℚ) (swapId : Option SwapId)
  | dailyCheckin
  | redeemReward (cost : ℕ)
  | checkMilestones
deriving DecidableEq

/-- What comes after a commit. -/
inductive Next where
  | operations (rest : List Operation)
  | milestones (check : Bool)

inductive Proc where
  | idle
  -- the bot
  | lockAccount (op : Operation) (rest : List Operation)
  | insertAccount (op : Operation) (rest : List Operation)
  | perform (op : Operation) (account : Account) (rest : List Operation)
  | readAchieved (account : Account) (active : List Milestone) (referralCount : ℕ)
      (rest : List Operation)
  | fulfill (cost : ℕ) (tx : Transaction) (rest : List Operation)
  -- the API, with the time of the call
  | getOrCreate (request : Request) (now : Time)
  | createAccount (request : Request) (now : Time)
  | award (points : ℕ) (snapshot : Account)
  | checkin (now : Time) (snapshot : Account)
  | firstSwap (now : Time) (swapAmountUsd : ℚ) (swapId : Option SwapId) (snapshot : Account)
  /-- the entries that are still to be inserted come last -/
  | insertVolume (swapAmountUsd : ℚ) (swapId : Option SwapId) (snapshot : Account)
      (tx : Transaction) (pending : List Entry)
  | creditVolume (swapAmountUsd : ℚ) (snapshot : Account) (tx : Transaction) (pending : List Entry)
  | debit (cost : ℕ)
  | insertEntries (tx : Transaction) (pending : List Entry) (snapshot : Option Account)
      (milestones : Bool)
  | levelUp (snapshot : Account) (tx : Transaction) (milestones : Bool)
  | creditLevel (tx : Transaction) (milestones : Bool)
  | commit (tx : Transaction) (next : Next)
  | getMilestones (snapshot : Account)
  | getAchieved (snapshot : Account) (active : List Milestone)
  | insertMilestone (todo : List Milestone)
  | creditMilestone (m : Milestone) (todo : List Milestone)
  | recordMilestone (m : Milestone) (todo : List Milestone)

inductive Answer where
  | ok
  | operation (op : Operation)
  | request (request : Request)
  | milestones (active : List Milestone) (referralCount : ℕ)
  | fulfilled (success : Bool)
  | outOfStock
  /-- a statement of the transaction fails -/
  | raises

inductive Event where
  | elapse (duration : Time)

inductive Error where
  /-- the step waits for another answer -/
  | NotNext
  /-- another transaction has the row, or an entry with the reference -/
  | Locked
deriving DecidableEq, Repr

/-! ### Statements -/

def Transaction.empty : Transaction := ⟨none, [], []⟩

def references (entries : List Entry) : List Reference := entries.filterMap Entry.reference

/-- An update of the account. It waits for the row, and changes nothing where there is none. -/
def State.update (s : State) (tx : Transaction) (f : Account → Account) :
    Except Error (State × Transaction) :=
  match tx.account with
  | some a => .ok (s, { tx with account := some (f a) })
  | none =>
    if s.locked then .error .Locked
    else match s.row with
      | some a => .ok ({ s with locked := true }, { tx with account := some (f a) })
      | none   => .ok (s, tx)

/-- `INSERT ... ON CONFLICT DO NOTHING`; it waits for those who insert the same reference. -/
def State.insert (s : State) (tx : Transaction) (e : Entry) :
    Except Error (State × Transaction × Bool) :=
  match e.reference with
  | none => .ok (s, { tx with entries := tx.entries ++ [e] }, true)
  | some r =>
    if r ∈ references s.ledger ∨ r ∈ references tx.entries then .ok (s, tx, false)
    else if r ∈ s.uncommitted then .error .Locked
    else .ok ({ s with uncommitted := r :: s.uncommitted },
      { tx with entries := tx.entries ++ [e] }, true)

def State.finish (s : State) (tx : Transaction) : State :=
  { s with
      locked := s.locked && tx.account.isNone
      uncommitted := s.uncommitted.diff (references tx.entries) }

def State.commit (s : State) (tx : Transaction) : State :=
  { s.finish tx with
      row := tx.account.or s.row
      ledger := s.ledger ++ tx.entries
      milestones := s.milestones ++ tx.milestones }

/-! ### Steps -/

def Proc.start : Next → Proc
  | .operations []           => .idle
  | .operations (op :: rest) => .lockAccount op rest
  | .milestones true         => .getOrCreate .checkMilestones 0
  | .milestones false        => .idle

/-- What a request does with the account it has read. -/
def Proc.begin (snapshot : Account) (now : Time) : Request → Proc
  | .awardPoints pointAmount              => .award pointAmount snapshot
  | .awardSwapPoints swapAmountUsd swapId => .firstSwap now swapAmountUsd swapId snapshot
  | .dailyCheckin                         => .checkin now snapshot
  | .redeemReward cost                    =>
    if snapshot.currentPoints < cost then .idle else .debit cost
  | .checkMilestones                      => .getMilestones snapshot

/-- The streak of the API pays for 30 days at most. -/
def streakBonus (streak : ℕ) : ℕ := min streak 30 * 5

def volumePoints (swapAmountUsd : ℚ) : ℤ := ⌊swapAmountUsd / 10⌋

def step (s : State) : Proc → Answer → Except Error (State × Proc)
  | .idle, .operation op =>
    .ok (s, match op with
      | .awardPoints 0 => .idle
      | op             => .lockAccount op [])
  | .idle, .request request => .ok (s, .getOrCreate request s.now)
  -- the bot
  | .lockAccount op rest, .ok =>
    match s.row with
    | some a =>
      if s.locked then .error .Locked else .ok ({ s with locked := true }, .perform op a rest)
    | none => .ok (s, if op.create then .insertAccount op rest else .idle)
  | .insertAccount op rest, .ok =>
    if s.locked then .error .Locked
    else .ok (match s.row with
      | some _ => (s, .idle)
      | none   => ({ s with locked := true }, .perform op .new rest))
  | .perform .checkMilestones a rest, .milestones active referralCount =>
    .ok (s, .readAchieved a active referralCount rest)
  | .readAchieved a active referralCount rest, .ok =>
    .ok (s, .commit (awardMilestones a (active.filter fun m =>
      m.id ∉ s.milestones ∧ m.achieved a referralCount)) (.operations rest))
  | .perform (.redeemMarketplaceReward cost) a rest, .ok =>
    .ok (s, if a.currentPoints < cost then .commit ⟨some a, [], []⟩ (.operations rest)
      else .fulfill cost (perform s.now a (.redeemMarketplaceReward cost)).1 rest)
  | .fulfill cost tx rest, .fulfilled success =>
    .ok (s, .commit (if success then tx else tx.refund cost) (.operations rest))
  | .perform op a rest, .ok =>
    let done := perform s.now a op
    .ok (s, .commit done.1 (.operations (done.2 ++ rest)))
  -- the API
  | .getOrCreate request now, .ok =>
    .ok (s, match s.row with
      | some a => .begin a now request
      | none   => .createAccount request now)
  | .createAccount request now, .ok =>
    if s.locked then .error .Locked
    else .ok (match s.row with
      | some _ => (s, .idle)
      | none   => ({ s with row := some .new }, .begin .new now request))
  | .award points snapshot, .ok =>
    (s.update .empty fun a => (a.credit points).relevel).map fun r =>
      (r.1, .insertEntries r.2 [⟨.award, points, none⟩] (some snapshot) false)
  | .checkin now snapshot, .ok =>
    if ∃ a ∈ s.row, isBefore a.lastCheckin now then
      let streak := snapshot.newStreak now
      let bonus := streakBonus streak
      (s.update .empty fun a =>
        ((a.checkin now streak).credit (10 + bonus)).relevel).map fun r =>
          (r.1, .insertEntries r.2 ([⟨.checkin (day now), 10, none⟩] ++
            if 0 < bonus then [⟨.streakBonus, bonus, none⟩] else []) (some snapshot) true)
    else .ok (s, .idle)
  | .firstSwap now swapAmountUsd swapId snapshot, .ok =>
    if ∃ a ∈ s.row, isBefore a.lastSwapDate now then
      (s.update .empty fun a => { (a.credit 50).relevel with lastSwapDate := some now }).map
        fun r =>
          (r.1, .insertVolume swapAmountUsd swapId snapshot r.2 [⟨.firstSwapDaily, 50, none⟩])
    else .ok (s, .insertVolume swapAmountUsd swapId snapshot .empty [])
  | .insertVolume swapAmountUsd swapId snapshot tx pending, .ok =>
    if volumePoints swapAmountUsd ≤ 0 then .ok (s, .insertEntries tx pending (some snapshot) true)
    else (s.insert tx ⟨.swap, volumePoints swapAmountUsd, swapId.map .swap⟩).map fun r =>
      (r.1, if r.2.2 then .creditVolume swapAmountUsd snapshot r.2.1 pending
        else .insertEntries r.2.1 pending (some snapshot) true)
  | .creditVolume swapAmountUsd snapshot tx pending, .ok =>
    (s.update tx fun a => { (a.credit (volumePoints swapAmountUsd)).relevel with
      totalSwaps := a.totalSwaps + 1
      totalVolumeUsd := a.totalVolumeUsd + swapAmountUsd }).map fun r =>
        (r.1, .insertEntries r.2 pending (some snapshot) true)
  | .debit cost, .ok =>
    if ∃ a ∈ s.row, cost ≤ a.currentPoints then
      (s.update .empty fun a => a.debit cost).map fun r =>
        (r.1, .insertEntries r.2 [⟨.redemption, -cost, none⟩] none false)
    else .ok (s, .idle)
  | .insertEntries tx (e :: pending) snapshot milestones, .ok =>
    .ok (s, .insertEntries { tx with entries := tx.entries ++ [e] } pending snapshot milestones)
  | .insertEntries tx _ none _, .outOfStock => .ok (s.finish tx, .idle)
  | .insertEntries tx [] snapshot milestones, .ok =>
    .ok (s, match snapshot with
      | some a => .levelUp a tx milestones
      | none   => .commit tx (.milestones milestones))
  | .levelUp snapshot tx milestones, .ok =>
    let candidate := levelFromXp (snapshot.xp + (tx.entries.map Entry.amount).sum)
    if candidate = snapshot.level then .ok (s, .commit tx (.milestones milestones))
    else (s.insert tx ⟨.levelUp, 100, some (.levelUp candidate)⟩).map fun r =>
      (r.1, if r.2.2 then .creditLevel r.2.1 milestones else .commit r.2.1 (.milestones milestones))
  | .creditLevel tx milestones, .ok =>
    (s.update tx fun a => (a.credit 100).relevel).map fun r =>
      (r.1, .commit r.2 (.milestones milestones))
  | .commit tx next, .ok =>
    -- the unique index of the milestones of a user
    .ok (if (s.milestones ++ tx.milestones).Nodup then (s.commit tx, .start next)
      else (s.finish tx, .idle))
  | .commit tx _, .raises => .ok (s.finish tx, .idle)
  | .getMilestones snapshot, .milestones active _ => .ok (s, .getAchieved snapshot active)
  | .getAchieved snapshot active, .ok =>
    .ok (s, .insertMilestone (active.filter fun m =>
      m.id ∉ s.milestones ∧ m.requirementType ≠ .referrals ∧ m.achieved snapshot 0))
  | .insertMilestone (m :: todo), .ok =>
    .ok (if m.id ∈ s.milestones then (s, .idle)
      else ({ s with milestones := s.milestones ++ [m.id] }, .creditMilestone m todo))
  | .insertMilestone [], .ok => .ok (s, .idle)
  | .creditMilestone m todo, .ok =>
    if s.locked then .error .Locked
    else .ok ({ s with row := s.row.map fun a => a.credit m.pointsReward }, .recordMilestone m todo)
  | .recordMilestone m todo, .ok =>
    .ok ({ s with ledger := s.ledger ++ [m.entry] }, .insertMilestone todo)
  | _, _ => .error .NotNext

def environment (s : State) : Event → Except Error State
  | .elapse duration => .ok { s with now := s.now + duration }

def program : Program State Proc Answer Event Error := ⟨step, environment⟩

def initial (n : ℕ) (now : Time) : Program.Config State Proc n :=
  ⟨⟨now, none, false, [], [], []⟩, fun _ => .idle⟩

end Suwappu.PointsService
