import Suwappu.SeasonsService.Accrual

/-!
# The two funnels

The bot's and the API's accrual, called one after another for one user in one season, each run to
its end and without a statement that fails. The bot resets the daily counter on another date even
where it credits nothing, the API only with a credit. `funnels_agree`: no credit and no total
depends on which of them executes a call.
-/

namespace Suwappu.SeasonsService.Funnels

/-- A row of `season_points`, with all of its totals. -/
structure Row extends SeasonPoints where
  basePoints : ℚ
  swapVolumeUsd : ℚ
  feePaidUsd : ℚ
deriving DecidableEq

/-- A call, and what it finds. -/
structure Call where
  award : Award
  active : Bool
  level : Option Level
  dailyStreak : ℤ
  today : Day

inductive Funnel where
  | bot | api
deriving DecidableEq, Repr

def Row.new (today : Day) : Row := ⟨.new today, 0, 0, 0⟩

/-- The daily counter begins anew on another date. -/
def Row.rollover (row : Row) (today : Day) : Row :=
  { row with toSeasonPoints := Bot.rollover row.toSeasonPoints today }

/-- The credit of the bot on a row, for a base. -/
def Call.botCredit (call : Call) (row : Row) (baseAmount : ℚ) : ℚ :=
  Bot.credit row.toSeasonPoints
    ⟨call.award.action ∈ Bot.REFERRAL_SEASON_ACTIONS, baseAmount, call.today⟩
    (Bot.combinedMultiplier call.level call.dailyStreak)

/-- The credit of the API. -/
def Call.apiCredit (call : Call) (row : Row) (effectiveBase : ℚ) : ℚ :=
  Api.credit row.toSeasonPoints
    ⟨call.award.action ∈ Api.REFERRAL_SEASON_ACTIONS, effectiveBase, call.today⟩
    (Api.combinedMultiplier call.level call.dailyStreak)

/-- `accrue_season_points`: the row that it leaves, and the points credited. -/
def accrueSeasonPoints (row : Option Row) (call : Call) : Option Row × ℚ :=
  let award := call.award
  match Bot.baseAmount award with
  | none            => (row, 0)
  | some baseAmount =>
    if ¬ call.active then (row, 0) else
    let row := (row.getD (.new call.today)).rollover call.today
    let credit := call.botCredit row baseAmount
    if credit ≤ 0 then (some row, 0) else
    let fees := award.action ∈ Bot.FEE_DENOMINATED_SEASON_ACTIONS
    (some { row with
      points := row.points + credit
      basePoints := row.basePoints + baseAmount
      dailyPointsAwarded := row.dailyPointsAwarded + credit
      swapVolumeUsd := row.swapVolumeUsd + if fees then award.swapAmountUsd.getD 0 else 0
      feePaidUsd := row.feePaidUsd + (Bot.feeAmount award).getD 0
      referralPoints := row.referralPoints +
        if award.action ∈ Bot.REFERRAL_SEASON_ACTIONS then credit else 0 }, credit)

def accrueSeasonPointsRaw (row : Option Row) (call : Call) : Option Row × ℚ :=
  let award := call.award
  if ¬ call.active then (row, 0) else
  match Api.effectiveBase award with
  | none               => (row, 0)
  | some effectiveBase =>
    let row := row.getD (.new call.today)
    let credit := call.apiCredit row effectiveBase
    if credit ≤ 0 then (some row, 0) else
    let swap := award.action = .swap
    (some { row with
      points := row.points + credit
      basePoints := row.basePoints + effectiveBase
      swapVolumeUsd := row.swapVolumeUsd + if swap then award.swapAmountUsd.getD 0 else 0
      referralPoints := row.referralPoints +
        if award.action ∈ Api.REFERRAL_SEASON_ACTIONS then credit else 0
      feePaidUsd := row.feePaidUsd + if swap then award.feeUsd.getD 0 else 0
      dailyPointsAwarded := Api.dailyAwarded row.toSeasonPoints call.today + credit
      dailyWindowDate := call.today }, credit)

def accrue : Funnel → Option Row → Call → Option Row × ℚ
  | .bot => accrueSeasonPoints
  | .api => accrueSeasonPointsRaw

/-- Calls one after another: the row in the end, and all credits. -/
def run (row : Option Row) : List (Funnel × Call) → Option Row × List ℚ
  | []                   => (row, [])
  | (funnel, call) :: steps =>
    let (row, credit) := accrue funnel row call
    let (row, credits) := run row steps
    (row, credit :: credits)

/-- The figures that do not begin anew. -/
structure Totals where
  points : ℚ
  basePoints : ℚ
  referralPoints : ℚ
  swapVolumeUsd : ℚ
  feePaidUsd : ℚ

def Row.totals (row : Row) : Totals :=
  ⟨row.points, row.basePoints, row.referralPoints, row.swapVolumeUsd, row.feePaidUsd⟩

variable {row row' : Row} {rows rows' : Option Row} {call : Call} {today today' : Day}
  {award : Award} {base : ℚ}

/-! ### Another date -/

lemma Row.rollover_eq : row.rollover today =
    { row with
      dailyPointsAwarded := Api.dailyAwarded row.toSeasonPoints today
      dailyWindowDate := today } := by
  rw [Row.rollover, Bot.rollover_eq]

@[simp] lemma Row.rollover_dailyWindowDate : (row.rollover today).dailyWindowDate = today := by
  rw [Row.rollover_eq]

lemma Row.rollover_of_eq (h : row.dailyWindowDate = today) : row.rollover today = row := by
  rw [Row.rollover, Bot.rollover_of_eq h]

lemma Row.totals_rollover : (row.rollover today).totals = row.totals := by
  rw [Row.rollover_eq]
  rfl

lemma Row.rollover_rollover (h : row.dailyWindowDate ≤ today) (hle : today ≤ today') :
    (row.rollover today).rollover today' = row.rollover today' := by
  rcases hle.eq_or_lt with rfl | hlt
  · exact Row.rollover_of_eq Row.rollover_dailyWindowDate
  · -- the counter has begun anew in any case
    have hrow : row.dailyWindowDate ≠ today' := (h.trans_lt hlt).ne
    have hstale : (row.rollover today).dailyWindowDate ≠ today' := by
      rw [Row.rollover_dailyWindowDate]
      exact hlt.ne
    rw [@Row.rollover_eq (row.rollover today) today', @Row.rollover_eq row today', Api.dailyAwarded,
      if_neg hstale, Api.dailyAwarded, if_neg hrow, Row.rollover_eq]

/-- The clamps and the multiplier are the same, and a counter of an earlier day counts as zero. -/
lemma Call.botCredit_rollover :
    call.botCredit (row.rollover call.today) base = call.apiCredit row base := by
  unfold Call.botCredit Call.apiCredit
  rw [Bot.combinedMultiplier_eq]
  exact Bot.credit_rollover _

/-! ### The bases -/

lemma mem_fees_iff {action : Action} (h : action ∈ Api.SEASON_POINT_ACTION_ALLOWLIST) :
    action ∈ Bot.FEE_DENOMINATED_SEASON_ACTIONS ↔ action = .swap := by
  revert h
  cases action <;> decide

lemma mem_botAllowlist {action : Action} (h : action ∈ Api.SEASON_POINT_ACTION_ALLOWLIST) :
    action ∈ Bot.SEASON_POINT_ACTION_ALLOWLIST := by
  revert h
  cases action <;> decide

lemma mem_referral_iff {action : Action} :
    action ∈ Bot.REFERRAL_SEASON_ACTIONS ↔ action ∈ Api.REFERRAL_SEASON_ACTIONS := Iff.rfl

lemma rate_pos : 0 < Api.SEASON_POINTS_PER_FEE_USD := by
  norm_num [Api.SEASON_POINTS_PER_FEE_USD]

/-- A fee below zero counts as none, or makes the base negative. -/
lemma baseAmount_eq (h : award.action ∈ Api.SEASON_POINT_ACTION_ALLOWLIST) :
    Bot.baseAmount award = Api.effectiveBase award := by
  have hmin : Bot.MIN_SWAP_USD_FOR_SEASON_POINTS = Api.MIN_SWAP_USD_FOR_SEASON_POINTS := rfl
  have hrate : Bot.SEASON_POINTS_PER_FEE_USD = Api.SEASON_POINTS_PER_FEE_USD := rfl
  unfold Bot.baseAmount Api.effectiveBase Bot.feeAmount
  dsimp only
  rw [if_neg (not_not.mpr (mem_botAllowlist h)), if_neg (not_not.mpr h), hmin, hrate]
  by_cases hdust : award.action = .swap ∧
      award.swapAmountUsd.getD 0 < Api.MIN_SWAP_USD_FOR_SEASON_POINTS
  · rw [if_pos hdust, if_pos hdust]
  rw [if_neg hdust, if_neg hdust]
  cases award.feeUsd with
  | none => simp only [Option.map_none, ite_self]
  | some feeUsd =>
    by_cases hswap : award.action = .swap
    · simp only [if_pos ((mem_fees_iff h).mpr hswap), if_pos hswap, Option.map_some]
      rcases le_total feeUsd 0 with hfee | hfee
      · have hbase : Api.SEASON_POINTS_PER_FEE_USD * feeUsd ≤ 0 :=
          mul_nonpos_of_nonneg_of_nonpos rate_pos.le hfee
        rw [max_eq_left hfee, mul_zero, if_pos le_rfl, if_pos hbase]
      · rw [max_eq_right hfee]
    · simp only [if_neg (mt (mem_fees_iff h).mp hswap), if_neg hswap]

/-- Where a base is credited, the fee of a swap is not below zero. -/
lemma feeAmount_eq (hswap : award.action = .swap) (hbase : Api.effectiveBase award = some base) :
    (Bot.feeAmount award).getD 0 = award.feeUsd.getD 0 := by
  have hfees : award.action ∈ Bot.FEE_DENOMINATED_SEASON_ACTIONS := by
    rw [hswap]
    decide
  rw [Bot.feeAmount, if_pos hfees]
  cases hfee : award.feeUsd with
  | none => rfl
  | some feeUsd =>
    unfold Api.effectiveBase at hbase
    rw [hfee] at hbase
    simp only [hswap, if_true] at hbase
    split_ifs at hbase with hallowed hdust hgate
    have hpos : 0 < Api.SEASON_POINTS_PER_FEE_USD * feeUsd := not_le.mp hgate
    exact max_eq_right ((mul_pos_iff_of_pos_left rate_pos).mp hpos).le

/-! ### One call -/

/-- The row a call leaves, as the day of the call sees it. -/
def rolled (today : Day) (outcome : Option Row × ℚ) : Option Row × ℚ :=
  (outcome.1.map (Row.rollover · today), outcome.2)

lemma getD_rollover : ((rows.map (Row.rollover · today)).getD (.new today)).rollover today =
    (rows.getD (.new today)).rollover today := by
  cases rows with
  | none     => rfl
  | some row => exact Row.rollover_of_eq Row.rollover_dailyWindowDate

/-- The bot goes by the row as the day of the call sees it. -/
lemma rolled_accrueSeasonPoints : rolled call.today (accrueSeasonPoints rows call) =
    accrueSeasonPoints (rows.map (Row.rollover · call.today)) call := by
  unfold accrueSeasonPoints
  dsimp only
  cases Bot.baseAmount call.award with
  | none => rfl
  | some baseAmount =>
    dsimp only
    rw [getD_rollover]
    set row := (rows.getD (Row.new call.today)).rollover call.today with hrow
    have hdate : row.dailyWindowDate = call.today := Row.rollover_dailyWindowDate
    by_cases hactive : call.active
    · rw [if_neg (not_not.mpr hactive), if_neg (not_not.mpr hactive)]
      by_cases hcredit : call.botCredit row baseAmount ≤ 0
      · rw [if_pos hcredit]
        exact Prod.ext (congrArg some (Row.rollover_of_eq hdate)) rfl
      · rw [if_neg hcredit]
        exact Prod.ext (congrArg some (Row.rollover_of_eq hdate)) rfl
    · rw [if_pos hactive, if_pos hactive]
      rfl

/-- The API does what the bot does, but for a reset that is put off. -/
lemma rolled_accrueSeasonPointsRaw (h : call.award.action ∈ Api.SEASON_POINT_ACTION_ALLOWLIST) :
    rolled call.today (accrueSeasonPointsRaw rows call) =
      accrueSeasonPoints (rows.map (Row.rollover · call.today)) call := by
  rw [← rolled_accrueSeasonPoints]
  unfold accrueSeasonPoints accrueSeasonPointsRaw
  dsimp only
  rw [baseAmount_eq h]
  cases hbase : Api.effectiveBase call.award with
  | none =>
    split_ifs
    all_goals rfl
  | some base =>
    dsimp only
    rw [Call.botCredit_rollover]
    set row := rows.getD (Row.new call.today)
    by_cases hactive : call.active
    · rw [if_neg (not_not.mpr hactive), if_neg (not_not.mpr hactive)]
      by_cases hcredit : call.apiCredit row base ≤ 0
      · rw [if_pos hcredit, if_pos hcredit]
        refine Prod.ext (congrArg some ?_) rfl
        exact (Row.rollover_of_eq Row.rollover_dailyWindowDate).symm
      · rw [if_neg hcredit, if_neg hcredit, Row.rollover_eq]
        simp only [mem_fees_iff h, mem_referral_iff]
        by_cases hswap : call.award.action = .swap
        · simp only [if_pos hswap, feeAmount_eq hswap hbase]
        · have hfee : Bot.feeAmount call.award = none := if_neg (mt (mem_fees_iff h).mp hswap)
          simp only [if_neg hswap, hfee, Option.getD_none]
    · rw [if_pos hactive, if_pos hactive]

/-- What a call credits, and the row as its day sees it, depend on no more than that of the row. -/
lemma rolled_accrue (funnel : Funnel) (h : call.award.action ∈ Api.SEASON_POINT_ACTION_ALLOWLIST) :
    rolled call.today (accrue funnel rows call) =
      accrueSeasonPoints (rows.map (Row.rollover · call.today)) call := by
  cases funnel with
  | bot => exact rolled_accrueSeasonPoints
  | api => exact rolled_accrueSeasonPointsRaw h

/-! ### The dates -/

/-- The daily counter is not of a day to come. -/
def Dated (today : Day) (rows : Option Row) : Prop :=
  ∀ row ∈ rows, row.dailyWindowDate ≤ today

lemma dated_accrue (funnel : Funnel) (h : Dated call.today rows) :
    Dated call.today (accrue funnel rows call).1 := by
  have hnew : Dated call.today (some (rows.getD (.new call.today))) := by
    rintro row ⟨⟩
    cases rows with
    | none     => exact le_rfl
    | some row => exact h row rfl
  cases funnel with
  | bot =>
    have hrow : ∀ row : Row, row.dailyWindowDate = call.today → Dated call.today (some row) := by
      rintro row hrow _ ⟨⟩
      exact hrow.le
    change Dated call.today (accrueSeasonPoints rows call).1
    unfold accrueSeasonPoints
    dsimp only
    split
    · exact h
    split
    · exact h
    split
    · exact hrow _ Row.rollover_dailyWindowDate
    · exact hrow _ Row.rollover_dailyWindowDate
  | api =>
    change Dated call.today (accrueSeasonPointsRaw rows call).1
    unfold accrueSeasonPointsRaw
    dsimp only
    split
    · exact h
    split
    · exact h
    split
    · exact hnew
    · rintro row ⟨⟩
      exact le_rfl

/-! ### Two runs -/

/-- From a day on, two rows are seen alike. -/
structure Agree (today : Day) (rows rows' : Option Row) : Prop where
  dated : Dated today rows
  dated' : Dated today rows'
  eq : rows.map (Row.rollover · today) = rows'.map (Row.rollover · today)

lemma map_rollover_rollover (h : Dated today rows) (hle : today ≤ today') :
    (rows.map (Row.rollover · today)).map (Row.rollover · today') =
      rows.map (Row.rollover · today') := by
  cases rows with
  | none     => rfl
  | some row => exact congrArg some (Row.rollover_rollover (h row rfl) hle)

lemma Agree.mono (h : Agree today rows rows') (hle : today ≤ today') : Agree today' rows rows' where
  dated := fun row hrow => (h.dated row hrow).trans hle
  dated' := fun row hrow => (h.dated' row hrow).trans hle
  eq := by
    rw [← map_rollover_rollover h.dated hle, ← map_rollover_rollover h.dated' hle, h.eq]

lemma Agree.totals (h : Agree today rows rows') : rows.map Row.totals = rows'.map Row.totals := by
  have htotals : ∀ rows : Option Row,
      (rows.map (Row.rollover · today)).map Row.totals = rows.map Row.totals := by
    intro rows
    cases rows with
    | none     => rfl
    | some row => exact congrArg some Row.totals_rollover
  rw [← htotals rows, ← htotals rows', h.eq]

/-- Whichever funnels execute a call, the credits are equal, and the rows agree again. -/
lemma Agree.accrue (h : Agree call.today rows rows') (funnel funnel' : Funnel)
    (hallowed : call.award.action ∈ Api.SEASON_POINT_ACTION_ALLOWLIST) :
    (accrue funnel rows call).2 = (accrue funnel' rows' call).2 ∧
      Agree call.today (accrue funnel rows call).1 (accrue funnel' rows' call).1 := by
  have heq : rolled call.today (Funnels.accrue funnel rows call) =
      rolled call.today (Funnels.accrue funnel' rows' call) := by
    rw [rolled_accrue funnel hallowed, rolled_accrue funnel' hallowed, h.eq]
  exact ⟨(Prod.ext_iff.mp heq).2,
    dated_accrue funnel h.dated, dated_accrue funnel' h.dated', (Prod.ext_iff.mp heq).1⟩

/-- Two runs of the same calls, each with its own funnels. -/
lemma Agree.run {steps steps' : List (Funnel × Call)} (h : Agree today rows rows')
    (hcalls : steps.map Prod.snd = steps'.map Prod.snd)
    (hallowed : ∀ call ∈ steps.map Prod.snd, call.award.action ∈ Api.SEASON_POINT_ACTION_ALLOWLIST)
    (hdays : (today :: steps.map (·.2.today)).IsChain (· ≤ ·)) :
    (run rows steps).2 = (run rows' steps').2 ∧
      (run rows steps).1.map Row.totals = (run rows' steps').1.map Row.totals := by
  induction steps generalizing today rows rows' steps' with
  | nil =>
    rw [List.map_nil, eq_comm, List.map_eq_nil_iff] at hcalls
    subst hcalls
    exact ⟨rfl, h.totals⟩
  | cons s steps ih =>
    obtain ⟨funnel, call⟩ := s
    cases steps' with
    | nil => cases hcalls
    | cons s' steps' =>
      obtain ⟨funnel', call'⟩ := s'
      rw [List.map_cons, List.map_cons, List.cons.injEq] at hcalls
      obtain ⟨rfl, hcalls⟩ := hcalls
      obtain ⟨hallowed, hrest⟩ := List.forall_mem_cons.mp hallowed
      rw [List.map_cons, List.isChain_cons_cons] at hdays
      obtain ⟨hcredit, hagree⟩ := (h.mono hdays.1).accrue funnel funnel' hallowed
      obtain ⟨hcredits, htotals⟩ := ih hagree hcalls hrest hdays.2
      exact ⟨congrArg₂ List.cons hcredit hcredits, htotals⟩

/-- From the beginning of a season on, as days pass. -/
theorem funnels_agree (steps steps' : List (Funnel × Call))
    (hcalls : steps.map Prod.snd = steps'.map Prod.snd)
    (hallowed : ∀ call ∈ steps.map Prod.snd,
      call.award.action ∈ Api.SEASON_POINT_ACTION_ALLOWLIST ∧
        call.award.action ∈ Bot.SEASON_POINT_ACTION_ALLOWLIST)
    (hdays : (steps.map (·.2.today)).IsChain (· ≤ ·)) :
    (run none steps).2 = (run none steps').2 ∧
      (run none steps).1.map Row.totals = (run none steps').1.map Row.totals := by
  have hagree : Agree 0 none none := ⟨nofun, nofun, rfl⟩
  refine hagree.run hcalls (fun call hcall => (hallowed call hcall).1) ?_
  cases steps with
  | nil          => exact List.isChain_singleton _
  | cons s steps => exact List.isChain_cons_cons.mpr ⟨Nat.zero_le _, hdays⟩

/-- A swap with a fee. -/
def feeSwap (today : Day) : Call :=
  ⟨⟨.swap, 0, some 100, some 1⟩, true, some .gold, 3, today⟩

theorem funnels_agree_feeSwap :
    (run none [(.bot, feeSwap 0), (.api, feeSwap 1)]).2 =
        (run none [(.api, feeSwap 0), (.bot, feeSwap 1)]).2 ∧
      (run none [(.bot, feeSwap 0), (.api, feeSwap 1)]).1.map Row.totals =
        (run none [(.api, feeSwap 0), (.bot, feeSwap 1)]).1.map Row.totals :=
  funnels_agree _ _ rfl (by decide) (by decide)

end Suwappu.SeasonsService.Funnels
