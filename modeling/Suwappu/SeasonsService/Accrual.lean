import Suwappu.Lib.Processes

/-!
# Season points

Any number of calls of the two accrual funnels on the row of one user in one season. The bot writes
the row in a transaction, with the values it has computed from the row it has read; the API writes
it by one statement. Every read and every write of the database is a step; a write waits until the
row is free. A season becomes active and ceases to be so at any time, and so do the user's level and
streak change. Each service has its own lists, caps and multipliers.

Arithmetic is exact. The totals of base points, volume and fees are left out.
-/

namespace Suwappu.SeasonsService

/-- Seconds. -/
abbrev Time := ℕ

/-- A UTC date. -/
abbrev Day := ℕ

def day (t : Time) : Day := t / 86400

inductive Action where
  | swap | firstSwapDaily | checkin | streakBonus | referralSignup | referralFirstSwap | copyTrade
  | milestone | perpsTrade | predictTrade | predictWin | p2pTrade
  /-- actions that are on no list -/
  | other
deriving DecidableEq, Repr

inductive Level where
  | bronze | silver | gold | platinum | diamond
deriving DecidableEq, Repr

/-- The arguments of a call. -/
structure Award where
  action : Action
  baseAmount : ℚ
  swapAmountUsd : Option ℚ
  feeUsd : Option ℚ
deriving DecidableEq

/-- A row of `season_points`. -/
structure SeasonPoints where
  points : ℚ
  referralPoints : ℚ
  dailyPointsAwarded : ℚ
  dailyWindowDate : Day
deriving DecidableEq

/-- What a call accrues, and on which day it does so. -/
structure Accrual where
  referral : Bool
  base : ℚ
  today : Day
deriving DecidableEq

/-- What a call has credited, and when it was written. -/
structure Credit where
  day : Day
  amount : ℚ
  referral : Bool
deriving DecidableEq

structure State where
  now : Time
  active : Bool
  row : Option SeasonPoints
  /-- a transaction has inserted the row or written to it -/
  locked : Bool
  credits : List Credit

inductive Proc where
  | idle
  -- the bot; of the row it knows whether it has inserted it itself
  | botSeason (c : Accrual)
  | botRow (c : Accrual)
  | botInsert (c : Accrual)
  | botLevel (c : Accrual) (row : SeasonPoints) (inserted : Bool)
  | botUpdate (c : Accrual) (row : SeasonPoints) (credit : ℚ) (inserted : Bool)
  | botCommit (c : Accrual) (row : SeasonPoints) (credit : ℚ) (inserted : Bool) (written : Day)
  -- the API
  | apiSeason (award : Award)
  | apiInsert (c : Accrual)
  | apiRow (c : Accrual)
  | apiLevel (c : Accrual) (row : SeasonPoints)
  | apiUpdate (c : Accrual) (row : SeasonPoints) (credit : ℚ)
deriving DecidableEq

inductive Answer where
  | accrueSeasonPoints (award : Award)
  | accrueSeasonPointsRaw (award : Award)
  | ok
  /-- the level and the streak of the user -/
  | level (level : Option Level) (dailyStreak : ℤ)
  /-- the statement fails -/
  | raises

inductive Event where
  | elapse (duration : Time)
  | setActive (active : Bool)

inductive Error where
  /-- the step waits for another answer -/
  | NotNext
  /-- a transaction has the row -/
  | Locked
deriving DecidableEq, Repr

/-- The row as both services insert it. -/
def SeasonPoints.new (today : Day) : SeasonPoints := ⟨0, 0, 0, today⟩

/-! ### The funnel of the bot -/

namespace Bot

def MIN_SWAP_USD_FOR_SEASON_POINTS : ℚ := 5

def DAILY_SEASON_POINT_CAP : ℚ := 5000

def REFERRAL_SEASON_POINT_CAP : ℚ := 10000

def SEASON_POINT_ACTION_ALLOWLIST : List Action :=
  [.swap, .firstSwapDaily, .checkin, .streakBonus, .referralSignup, .referralFirstSwap, .copyTrade,
    .milestone, .perpsTrade, .predictTrade, .predictWin, .p2pTrade]

def FEE_DENOMINATED_SEASON_ACTIONS : List Action := [.swap, .perpsTrade, .predictTrade, .p2pTrade]

def REFERRAL_SEASON_ACTIONS : List Action := [.referralSignup, .referralFirstSwap]

def LEVEL_MULTIPLIER : Level → ℚ
  | .bronze   => 1
  | .silver   => 21 / 20
  | .gold     => 11 / 10
  | .platinum => 6 / 5
  | .diamond  => 27 / 20

def COMBINED_MULTIPLIER_CAP : ℚ := 7 / 4

/-- A level that is missing or unknown counts as bronze. -/
def combinedMultiplier (level : Option Level) (dailyStreak : ℤ) : ℚ :=
  let levelMult := LEVEL_MULTIPLIER (level.getD .bronze)
  let streak := max 0 dailyStreak
  let streakMult : ℚ := 1 + min streak 30 * (1 / 100)
  min (levelMult * streakMult) COMBINED_MULTIPLIER_CAP

def SEASON_POINTS_PER_FEE_USD : ℚ := 100

/-- The fee that counts. -/
def feeAmount (award : Award) : Option ℚ :=
  if award.action ∈ FEE_DENOMINATED_SEASON_ACTIONS then award.feeUsd.map (max 0) else none

/-- The base, where the call is not gated out. -/
def baseAmount (award : Award) : Option ℚ :=
  let baseAmount := match feeAmount award with
    | some feeAmount => SEASON_POINTS_PER_FEE_USD * feeAmount
    | none           => award.baseAmount
  if award.action ∉ SEASON_POINT_ACTION_ALLOWLIST then none
  else if award.action = .swap ∧ award.swapAmountUsd.getD 0 < MIN_SWAP_USD_FOR_SEASON_POINTS then
    none
  else if baseAmount ≤ 0 then none
  else some baseAmount

/-- The daily counter begins anew on another date. -/
def rollover (row : SeasonPoints) (today : Day) : SeasonPoints :=
  if row.dailyWindowDate ≠ today then { row with dailyPointsAwarded := 0, dailyWindowDate := today }
  else row

/-- The credit after the clamps, on a row whose counter is of the day. -/
def credit (row : SeasonPoints) (c : Accrual) (multiplier : ℚ) : ℚ :=
  let dailyRemaining := max 0 (DAILY_SEASON_POINT_CAP - row.dailyPointsAwarded)
  let credit := min (c.base * multiplier) dailyRemaining
  if c.referral then
    let refRemaining := max 0 (REFERRAL_SEASON_POINT_CAP - row.referralPoints)
    min credit refRemaining
  else credit

end Bot

/-! ### The funnel of the API -/

namespace Api

def MIN_SWAP_USD_FOR_SEASON_POINTS : ℚ := 5

def DAILY_SEASON_POINT_CAP : ℚ := 5000

def REFERRAL_SEASON_POINT_CAP : ℚ := 10000

def SEASON_POINT_ACTION_ALLOWLIST : List Action :=
  [.swap, .firstSwapDaily, .checkin, .streakBonus, .referralSignup, .referralFirstSwap, .copyTrade,
    .milestone]

def REFERRAL_SEASON_ACTIONS : List Action := [.referralSignup, .referralFirstSwap]

def LEVEL_MULTIPLIER : Level → ℚ
  | .bronze   => 1
  | .silver   => 21 / 20
  | .gold     => 11 / 10
  | .platinum => 6 / 5
  | .diamond  => 27 / 20

def COMBINED_MULTIPLIER_CAP : ℚ := 7 / 4

def streakMultiplier (streak : ℤ) : ℚ := 1 + min (max streak 0) 30 * (1 / 100)

/-- A level that is missing or unknown counts as bronze. -/
def combinedMultiplier (level : Option Level) (streak : ℤ) : ℚ :=
  let levelMult := LEVEL_MULTIPLIER (level.getD .bronze)
  min (levelMult * streakMultiplier streak) COMBINED_MULTIPLIER_CAP

def SEASON_POINTS_PER_FEE_USD : ℚ := 100

/-- The base, where the call is not gated out. -/
def effectiveBase (award : Award) : Option ℚ :=
  let effectiveBase := match award.feeUsd with
    | some feeUsd =>
      if award.action = .swap then SEASON_POINTS_PER_FEE_USD * feeUsd else award.baseAmount
    | none => award.baseAmount
  if award.action ∉ SEASON_POINT_ACTION_ALLOWLIST then none
  else if award.action = .swap ∧ award.swapAmountUsd.getD 0 < MIN_SWAP_USD_FOR_SEASON_POINTS then
    none
  else if effectiveBase ≤ 0 then none
  else some effectiveBase

/-- The daily counter, which begins anew on another date. -/
def dailyAwarded (row : SeasonPoints) (today : Day) : ℚ :=
  if row.dailyWindowDate = today then row.dailyPointsAwarded else 0

/-- The credit after the clamps. -/
def credit (row : SeasonPoints) (c : Accrual) (multiplier : ℚ) : ℚ :=
  let credit := c.base * multiplier
  let credit := min credit (max 0 (DAILY_SEASON_POINT_CAP - dailyAwarded row c.today))
  if c.referral then min credit (max 0 (REFERRAL_SEASON_POINT_CAP - row.referralPoints)) else credit

end Api

/-! ### Writing the row -/

/-- The row of the bot with a credit, of which a credit of zero leaves the reset of the counter. -/
def Bot.award (row : SeasonPoints) (c : Accrual) (credit : ℚ) : SeasonPoints :=
  let row := Bot.rollover row c.today
  { row with
    points := row.points + credit
    dailyPointsAwarded := row.dailyPointsAwarded + credit
    referralPoints := row.referralPoints + if c.referral then credit else 0 }

/-- The columns that differ from what was read are written. -/
def SeasonPoints.write (current read new : SeasonPoints) : SeasonPoints where
  points := if new.points = read.points then current.points else new.points
  referralPoints :=
    if new.referralPoints = read.referralPoints then current.referralPoints else new.referralPoints
  dailyPointsAwarded :=
    if new.dailyPointsAwarded = read.dailyPointsAwarded then current.dailyPointsAwarded
    else new.dailyPointsAwarded
  dailyWindowDate :=
    if new.dailyWindowDate = read.dailyWindowDate then current.dailyWindowDate
    else new.dailyWindowDate

/-- The update of the API: points are added to, and the daily counter is set. -/
def Api.increment (current read : SeasonPoints) (c : Accrual) (credit : ℚ) : SeasonPoints where
  points := current.points + credit
  referralPoints := current.referralPoints + if c.referral then credit else 0
  dailyPointsAwarded := Api.dailyAwarded read c.today + credit
  dailyWindowDate := c.today

/-! ### Steps -/

def step (s : State) : Proc → Answer → Except Error (State × Proc)
  | .idle, .accrueSeasonPoints award =>
    .ok (s, (Bot.baseAmount award).elim .idle fun baseAmount =>
      .botSeason ⟨award.action ∈ Bot.REFERRAL_SEASON_ACTIONS, baseAmount, day s.now⟩)
  | .idle, .accrueSeasonPointsRaw award => .ok (s, .apiSeason award)
  -- the bot
  | .botSeason c, .ok => .ok (s, if s.active then .botRow c else .idle)
  | .botRow c, .ok =>
    .ok (s, s.row.elim (.botInsert c) fun row => .botLevel c row false)
  | .botInsert c, .ok =>
    if s.row.isSome then .ok (s, .idle)
    else if s.locked then .error .Locked
    else .ok ({ s with locked := true }, .botLevel c (.new c.today) true)
  | .botLevel c row inserted, .level level dailyStreak =>
    let multiplier := Bot.combinedMultiplier level dailyStreak
    let credit := max 0 (Bot.credit (Bot.rollover row c.today) c multiplier)
    .ok (s, if Bot.award row c credit = row ∧ inserted = false then .idle
      else .botUpdate c row credit inserted)
  | .botUpdate c row credit inserted, .ok =>
    if inserted = false ∧ s.locked then .error .Locked
    else .ok ({ s with locked := true }, .botCommit c row credit inserted (day s.now))
  | .botCommit c row credit inserted written, .ok =>
    .ok ({ s with
      row := if inserted then some (Bot.award row c credit)
        else s.row.map fun current => current.write row (Bot.award row c credit)
      locked := false
      credits := s.credits ++ [⟨written, credit, c.referral⟩] }, .idle)
  | .botLevel _ _ inserted, .raises => .ok ({ s with locked := s.locked && !inserted }, .idle)
  | .botUpdate _ _ _ inserted, .raises => .ok ({ s with locked := s.locked && !inserted }, .idle)
  | .botCommit _ _ _ _ _, .raises => .ok ({ s with locked := false }, .idle)
  -- the API
  | .apiSeason award, .ok =>
    .ok (s, if s.active then (Api.effectiveBase award).elim .idle fun effectiveBase =>
      .apiInsert ⟨award.action ∈ Api.REFERRAL_SEASON_ACTIONS, effectiveBase, day s.now⟩ else .idle)
  | .apiInsert c, .ok =>
    if s.row.isSome then .ok (s, .apiRow c)
    else if s.locked then .error .Locked
    else .ok ({ s with row := some (.new c.today) }, .apiRow c)
  | .apiRow c, .ok => .ok (s, s.row.elim .idle fun row => .apiLevel c row)
  | .apiLevel c row, .level level dailyStreak =>
    let credit := Api.credit row c (Api.combinedMultiplier level dailyStreak)
    .ok (s, if credit ≤ 0 then .idle else .apiUpdate c row credit)
  | .apiUpdate c row credit, .ok =>
    if s.locked then .error .Locked
    else .ok ({ s with
      row := s.row.map fun current => Api.increment current row c credit
      credits := s.credits ++ [⟨day s.now, credit, c.referral⟩] }, .idle)
  | .botSeason _, .raises | .botRow _, .raises | .botInsert _, .raises => .ok (s, .idle)
  | .apiSeason _, .raises | .apiInsert _, .raises | .apiRow _, .raises => .ok (s, .idle)
  | .apiLevel _ _, .raises | .apiUpdate _ _ _, .raises => .ok (s, .idle)
  | _, _ => .error .NotNext

def environment (s : State) : Event → Except Error State
  | .elapse duration  => .ok { s with now := s.now + duration }
  | .setActive active => .ok { s with active := active }

def program : Program State Proc Answer Event Error := ⟨step, environment⟩

def initial (n : ℕ) (now : Time) : Program.Config State Proc n :=
  ⟨⟨now, true, none, false, []⟩, fun _ => .idle⟩

/-! ### What is the same in both services -/

variable {row : SeasonPoints} {c : Accrual} {today : Day} {award : Award}

namespace Bot

lemma rollover_of_eq (h : row.dailyWindowDate = today) : rollover row today = row :=
  if_neg (not_not.mpr h)

lemma rollover_eq : rollover row today =
    { row with dailyPointsAwarded := Api.dailyAwarded row today, dailyWindowDate := today } := by
  rw [Api.dailyAwarded]
  by_cases h : row.dailyWindowDate = today
  · rw [rollover_of_eq h, if_pos h, ← h]
  · rw [rollover, if_pos h, if_neg h]

lemma combinedMultiplier_eq (level : Option Level) (dailyStreak : ℤ) :
    combinedMultiplier level dailyStreak = Api.combinedMultiplier level dailyStreak := by
  have hlevel : LEVEL_MULTIPLIER (level.getD .bronze) =
      Api.LEVEL_MULTIPLIER (level.getD .bronze) := by
    cases level.getD .bronze <;> rfl
  unfold combinedMultiplier Api.combinedMultiplier Api.streakMultiplier
  rw [hlevel, max_comm]
  rfl

/-- With the same caps, on a counter of the day. -/
lemma credit_rollover (multiplier : ℚ) :
    credit (rollover row c.today) c multiplier = Api.credit row c multiplier := by
  rw [rollover_eq]
  rfl

lemma award_eq (credit : ℚ) : Bot.award row c credit = Api.increment row row c credit := by
  unfold Bot.award
  rw [rollover_eq]
  rfl

end Bot

end Suwappu.SeasonsService
