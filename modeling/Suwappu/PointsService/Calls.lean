import Suwappu.Lib.Machine
import Suwappu.PointsService.Operations

/-!
# Calls one after another

The calls of the API's points service on one user, statement by statement. Any statement may fail,
also the one that commits; the failure ends the call, and what its open transaction has written is
rolled back. Where a stage has nothing to do, a failure is that of the next statement. Awards are of
any amount.

The seasons, whose failures are swallowed, are left out.
-/

namespace Suwappu.PointsService.Calls

/-- The rows of the user. -/
structure Db where
  account : Option Account
  ledger : List Entry
  /-- rows of `user_milestones`, with the points awarded -/
  milestones : List (MilestoneId × ℤ)
deriving DecidableEq

inductive Call where
  /-- the amount, or that of the action -/
  | awardPoints (pointAmount : ℤ)
  | awardSwapPoints (swapAmountUsd : ℚ) (swapId : Option SwapId)
  | dailyCheckin
  | checkMilestones
deriving DecidableEq

/-- The statement that comes next; `current` is the account that a call has read. -/
inductive Stage where
  | idle
  | getOrCreate (call : Call) (now : Time)
  | createAccount (call : Call) (now : Time)
  -- transactions
  | award (pointAmount : ℤ) (current : Account)
  | firstSwap (swapAmountUsd : ℚ) (swapId : Option SwapId) (now : Time) (current : Account)
  | insertVolume (swapAmountUsd : ℚ) (swapId : Option SwapId) (dailyBonus : List Entry)
      (current : Account)
  | creditVolume (swapAmountUsd : ℚ) (dailyBonus : List Entry) (current : Account)
  | checkin (now : Time) (current : Account)
  | insertEntries (pending : List Entry) (newXp : ℤ) (current : Account) (milestones : Bool)
  | levelUp (newXp : ℤ) (current : Account) (milestones : Bool)
  | creditLevel (milestones : Bool)
  | commit (milestones : Bool)
  -- `checkAndAwardMilestones`
  | getMilestones (current : Account)
  | getAchieved (current : Account) (active : List Milestone)
  | insertMilestone (todo : List Milestone)
  | creditMilestone (m : Milestone) (todo : List Milestone)
  | recordMilestone (m : Milestone) (todo : List Milestone)
deriving DecidableEq

structure State where
  now : Time
  db : Db
  /-- the rows as the open transaction has them -/
  tx : Option Db
  stage : Stage
deriving DecidableEq

inductive Step where
  | call (call : Call)
  /-- the statement goes through -/
  | ok
  /-- the active milestones -/
  | milestones (active : List Milestone)
  | fails
  | elapse (duration : Time)
deriving DecidableEq

inductive Error where
  /-- the step waits for another answer -/
  | NotNext
deriving DecidableEq, Repr

/-! ### Statements -/

/-- `UPDATE user_points` -/
def Db.update (db : Db) (f : Account → Account) : Db := { db with account := db.account.map f }

/-- `INSERT INTO point_transactions` -/
def Db.insert (db : Db) (e : Entry) : Db := { db with ledger := db.ledger ++ [e] }

/-- An entry with the reference is there. -/
def Db.conflicts (db : Db) (reference : Option Reference) : Bool :=
  ∃ r ∈ reference, r ∈ references db.ledger

/-- The `switch` of `checkAndAwardMilestones` -/
def qualifies (m : Milestone) (current : Account) : Bool :=
  match m.requirementType with
  | .swaps     => m.requirementValue ≤ current.totalSwaps
  | .volume    => m.requirementValue ≤ current.totalVolumeUsd
  | .streak    => m.requirementValue ≤ current.longestStreak
  | .referrals => false

/-- What a call does with the account it has read. -/
def begin (current : Account) (now : Time) : Call → Stage
  | .awardPoints pointAmount              => .award pointAmount current
  | .awardSwapPoints swapAmountUsd swapId => .firstSwap swapAmountUsd swapId now current
  | .dailyCheckin                         => .checkin now current
  | .checkMilestones                      => .getMilestones current

/-! ### Steps -/

/-- Where the rows of a transaction are and what comes next. -/
abbrev InTransaction := Db × Stage

/-- A statement of a transaction that has these rows. -/
def transact (db : Db) : Stage → Option InTransaction
  | .award pointAmount current =>
    some (db.update fun a => (a.credit pointAmount).relevel,
      .insertEntries [⟨.award, pointAmount, none⟩] (current.xp + pointAmount) current false)
  | .firstSwap swapAmountUsd swapId now current =>
    if ∃ a ∈ db.account, isBefore a.lastSwapDate now then
      some (db.update fun a => { (a.credit 50).relevel with lastSwapDate := some now },
        .insertVolume swapAmountUsd swapId [⟨.firstSwapDaily, 50, none⟩] current)
    else some (db, .insertVolume swapAmountUsd swapId [] current)
  | .insertVolume swapAmountUsd swapId dailyBonus current =>
    let newXp := current.xp + (dailyBonus.map Entry.amount).sum
    let reference := swapId.map Reference.swap
    if volumePoints swapAmountUsd ≤ 0 ∨ db.conflicts reference then
      some (db, .insertEntries dailyBonus newXp current true)
    else some (db.insert ⟨.swap, volumePoints swapAmountUsd, reference⟩,
      .creditVolume swapAmountUsd dailyBonus current)
  | .creditVolume swapAmountUsd dailyBonus current =>
    some (db.update fun a => { (a.credit (volumePoints swapAmountUsd)).relevel with
        totalSwaps := a.totalSwaps + 1
        totalVolumeUsd := a.totalVolumeUsd + swapAmountUsd },
      .insertEntries dailyBonus
        (current.xp + (volumePoints swapAmountUsd + (dailyBonus.map Entry.amount).sum))
        current true)
  | .checkin now current =>
    -- who has checked in today is rejected
    if ∃ a ∈ db.account, isBefore a.lastCheckin now then
      let streak := current.newStreak now
      let bonus : ℤ := streakBonus streak
      some (db.update fun a => ((a.checkin now streak).credit (10 + bonus)).relevel,
        .insertEntries (⟨.checkin (day now), 10, none⟩ ::
          if 0 < bonus then [⟨.streakBonus, bonus, none⟩] else [])
          (current.xp + (10 + bonus)) current true)
    else none
  | .insertEntries (e :: pending) newXp current milestones =>
    some (db.insert e, .insertEntries pending newXp current milestones)
  | .insertEntries [] newXp current milestones => some (db, .levelUp newXp current milestones)
  | .levelUp newXp current milestones =>
    let candidate := levelFromXp newXp
    if candidate = current.level ∨ db.conflicts (some (.levelUp candidate)) then
      some (db, .commit milestones)
    else some (db.insert ⟨.levelUp, 100, some (.levelUp candidate)⟩, .creditLevel milestones)
  | .creditLevel milestones =>
    some (db.update fun a => (a.credit 100).relevel, .commit milestones)
  | _ => none

/-- A statement that goes through. -/
def advance (s : State) : Stage → Option State
  | .idle => none
  | .getOrCreate call now =>
    some { s with stage := match s.db.account with
      | some a => begin a now call
      | none   => .createAccount call now }
  | .createAccount call now =>
    some { s with db.account := some .new, stage := begin .new now call }
  | .commit milestones =>
    some { s with
      db := s.tx.getD s.db
      tx := none
      stage := if milestones then .getOrCreate .checkMilestones s.now else .idle }
  | .getMilestones _ => none
  | .getAchieved current active =>
    some { s with stage := .insertMilestone (active.filter fun m =>
      m.id ∉ s.db.milestones.map Prod.fst ∧ qualifies m current) }
  | .insertMilestone [] => some { s with stage := .idle }
  | .insertMilestone (m :: todo) =>
    -- the unique index of the milestones of a user
    if m.id ∈ s.db.milestones.map Prod.fst then some { s with stage := .idle }
    else some { s with
      db.milestones := s.db.milestones ++ [(m.id, (m.pointsReward : ℤ))]
      stage := .creditMilestone m todo }
  | .creditMilestone m todo =>
    some { s with
      db := s.db.update fun a => a.credit m.pointsReward
      stage := .recordMilestone m todo }
  | .recordMilestone m todo =>
    some { s with db := s.db.insert m.entry, stage := .insertMilestone todo }
  | stage =>
    some (match transact (s.tx.getD s.db) stage with
      | some (db, stage) => { s with tx := some db, stage := stage }
      | none             => { s with tx := none, stage := .idle })

def step (s : State) : Step → Except Error State
  | .call call =>
    match s.stage with
    | .idle => .ok { s with stage := .getOrCreate call s.now }
    | _     => .error .NotNext
  | .ok =>
    match advance s s.stage with
    | some s' => .ok s'
    | none    => .error .NotNext
  | .milestones active =>
    match s.stage with
    | .getMilestones current => .ok { s with stage := .getAchieved current active }
    | _                      => .error .NotNext
  | .fails =>
    match s.stage with
    | .idle => .error .NotNext
    | _     => .ok { s with tx := none, stage := .idle }
  | .elapse duration => .ok { s with now := s.now + duration }

def machine : Machine State Step Error := ⟨step⟩

def initial (now : Time) : State := ⟨now, ⟨none, [], []⟩, none, .idle⟩

/-! ### What is kept -/

/-- The points that the user has earned. -/
def Db.earned (db : Db) : ℤ := (db.account.map Account.totalPointsEarned).getD 0

/-- The milestone of an entry, with its points. -/
def milestoneOf (e : Entry) : Option (MilestoneId × ℤ) :=
  match e.action with
  | .milestone id => some (id, e.amount)
  | _             => none

/-- The milestones that the ledger has. -/
def Db.credited (db : Db) : List (MilestoneId × ℤ) := db.ledger.filterMap milestoneOf

structure Sound (db : Db) : Prop where
  level : ∀ a ∈ db.account, a.level = levelFromXp a.xp
  xp : ∀ a ∈ db.account, a.xp = a.totalPointsEarned
  /-- every point has its entry, and every entry its points -/
  earned : db.earned = (db.ledger.map Entry.amount).sum
  /-- every milestone has its points -/
  milestones : db.milestones = db.credited
  /-- one bonus a level, and one entry a swap -/
  references : (references db.ledger).Nodup

/-- Between the row of a milestone and its entry nothing fails, and its points reach no level. -/
def Careful (s : State) (action : Step) : Prop :=
  match s.stage with
  | .creditMilestone m _ => action ≠ .fails ∧
    ∀ a ∈ s.db.account, levelFromXp (a.xp + m.pointsReward) = levelFromXp a.xp
  | .recordMilestone _ _ => action ≠ .fails
  | _                    => True

instance : DecidableRel Careful := fun s action => by
  unfold Careful
  split <;> infer_instance

end Suwappu.PointsService.Calls
