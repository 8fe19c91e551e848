import Mathlib.Tactic

/-!
# The gates of the autopilot

Every rule runs and leaves its result; a thesis passes if all of them do. Numbers are exact. Of a
result the texts are left out, and of a thesis and a candidate whatever no rule and no later step
reads.
-/

namespace Suwappu.Autopilot

/-- Milliseconds. -/
abbrev Time := ℕ

/-- What the code does to addresses and names before it compares them. -/
structure Strings where
  trim : String → String
  toLowerCase : String → String

def Strings.norm (S : Strings) (addr : String) : String := S.toLowerCase (S.trim addr)

structure TokenSecurity where
  isHoneypot : Option Bool
  buyTaxBps : Option ℚ
  sellTaxBps : Option ℚ
  topHolderPct : Option ℚ
  lpLocked : Option Bool
deriving DecidableEq

structure Candidate where
  chain : String
  tokenAddress : String
  priceUsd : ℚ
  liquidityUsd : ℚ
  ageMinutes : Option ℚ
  security : Option TokenSecurity
deriving DecidableEq

inductive AutopilotAction where
  | buy | sell | hold
deriving DecidableEq, Repr

structure ExitPlan where
  takeProfitPct : Option ℚ
  stopLossPct : Option ℚ
  /-- the invalidation is a text and not blank -/
  invalidation : Bool
deriving DecidableEq

structure Thesis where
  action : AutopilotAction
  chain : String
  tokenAddress : String
  sizeUsd : ℚ
  confidence : ℚ
  exit : ExitPlan
deriving DecidableEq

structure GateResult where
  rule : String
  passed : Bool
deriving DecidableEq, Repr

structure GateVerdict where
  passed : Bool
  results : List GateResult
deriving DecidableEq

structure AutopilotRules where
  maxPositionUsd : ℚ
  maxOpenPositions : ℕ
  maxPortfolioExposurePct : ℚ
  minLiquidityUsd : ℚ
  maxPoolSharePct : ℚ
  minTokenAgeMinutes : ℚ
  maxBuyTaxBps : ℚ
  maxSellTaxBps : ℚ
  maxTopHolderPct : ℚ
  requireLpLocked : Bool
  minConfidence : ℚ
  dailySpendCapUsd : ℚ
  dailyLossHaltUsd : ℚ
  tokenCooldownMinutes : ℚ
  maxSlippageBps : ℚ
  paperFeeBps : ℚ
  allowedChains : List String
  deniedTokens : List String
  requireExitPlan : Bool

def DEFAULT_RULES : AutopilotRules where
  maxPositionUsd := 100
  maxOpenPositions := 5
  maxPortfolioExposurePct := 60
  minLiquidityUsd := 50000
  maxPoolSharePct := 1
  minTokenAgeMinutes := 60
  maxBuyTaxBps := 500
  maxSellTaxBps := 500
  maxTopHolderPct := 40
  requireLpLocked := true
  minConfidence := 3 / 5
  dailySpendCapUsd := 500
  dailyLossHaltUsd := 200
  tokenCooldownMinutes := 240
  maxSlippageBps := 150
  paperFeeBps := 30
  allowedChains := ["base", "arbitrum", "solana"]
  deniedTokens := []
  requireExitPlan := true

structure OpenPositionSummary where
  /-- the row, which no step reads -/
  id : ℕ
  chain : String
  tokenAddress : String
  costBasisUsd : ℚ
  avgEntryPriceUsd : ℚ
  takeProfitPct : Option ℚ
  stopLossPct : Option ℚ
  openedAt : Time
deriving DecidableEq

structure PortfolioState where
  baseToken : Option String
  equityUsd : ℚ
  deployedUsd : ℚ
  openPositions : List OpenPositionSummary
  spentTodayUsd : ℚ
  realizedPnlTodayUsd : ℚ
  lastTradeAtByToken : String → Option Time

def check (rule : String) (passed : Prop) [Decidable passed] : GateResult := ⟨rule, passed⟩

variable (S : Strings)

/-- Rules that apply to any decision. -/
def universalGates (thesis : Thesis) (rules : AutopilotRules) : List GateResult :=
  [check "chain_allowed" (S.toLowerCase thesis.chain ∈ rules.allowedChains.map S.toLowerCase),
    check "token_not_denied" (S.norm thesis.tokenAddress ∉ rules.deniedTokens.map S.norm)]

/-- The token is among the open positions. -/
def PortfolioState.holds (portfolio : PortfolioState) (tokenAddress : String) : Prop :=
  ∃ p ∈ portfolio.openPositions, S.norm p.tokenAddress = S.norm tokenAddress

instance PortfolioState.decidableHolds (portfolio : PortfolioState) (tokenAddress : String) :
    Decidable (portfolio.holds S tokenAddress) := by
  unfold PortfolioState.holds
  infer_instance

/-- The projected exposure, in percent. -/
def projectedExposurePct (thesis : Thesis) (portfolio : PortfolioState) : ℚ :=
  if 0 < portfolio.equityUsd then
    (portfolio.deployedUsd + thesis.sizeUsd) / portfolio.equityUsd * 100
  else 100

def poolSharePct (thesis : Thesis) (candidate : Candidate) : ℚ :=
  if 0 < candidate.liquidityUsd then thesis.sizeUsd / candidate.liquidityUsd * 100 else 100

/-- Sizing and exposure, velocity and circuit breakers, confidence and the exit plan. -/
def bookGates (thesis : Thesis) (portfolio : PortfolioState) (rules : AutopilotRules)
    (nowMs : Time) : List GateResult :=
  [check "max_position_size" (thesis.sizeUsd ≤ rules.maxPositionUsd),
    check "positive_size" (0 < thesis.sizeUsd),
    check "not_base_token" (portfolio.baseToken.map S.norm ≠ some (S.norm thesis.tokenAddress)),
    check "no_duplicate_position" (¬ portfolio.holds S thesis.tokenAddress),
    check "max_open_positions" (portfolio.openPositions.length < rules.maxOpenPositions),
    check "max_portfolio_exposure"
      (projectedExposurePct thesis portfolio ≤ rules.maxPortfolioExposurePct),
    check "sufficient_dry_powder" (thesis.sizeUsd ≤ portfolio.equityUsd - portfolio.deployedUsd),
    check "daily_spend_cap" (portfolio.spentTodayUsd + thesis.sizeUsd ≤ rules.dailySpendCapUsd),
    check "daily_loss_halt" (¬ rules.dailyLossHaltUsd ≤ -portfolio.realizedPnlTodayUsd),
    check "token_cooldown"
      (∀ lastTradeAt ∈ portfolio.lastTradeAtByToken (S.norm thesis.tokenAddress),
        rules.tokenCooldownMinutes * 60000 ≤ (nowMs : ℚ) - lastTradeAt),
    check "min_confidence" (rules.minConfidence ≤ thesis.confidence)] ++
  if rules.requireExitPlan then
    [check "exit_plan_committed"
      ((∃ stopLossPct ∈ thesis.exit.stopLossPct, 0 < stopLossPct) ∧
        thesis.exit.invalidation = true)]
  else []

def securityGates (sec : TokenSecurity) (rules : AutopilotRules) : List GateResult :=
  [check "not_honeypot" (sec.isHoneypot ≠ some true),
    check "max_buy_tax" (sec.buyTaxBps.getD 0 ≤ rules.maxBuyTaxBps),
    check "max_sell_tax" (sec.sellTaxBps.getD 0 ≤ rules.maxSellTaxBps),
    check "holder_concentration"
      (∃ topHolderPct ∈ sec.topHolderPct, topHolderPct ≤ rules.maxTopHolderPct)] ++
  if rules.requireLpLocked then [check "lp_locked" (sec.lpLocked = some true)] else []

/-- Market structure, and the security of the token. -/
def marketGates (thesis : Thesis) (candidate : Candidate) (rules : AutopilotRules) :
    List GateResult :=
  [check "min_liquidity" (rules.minLiquidityUsd ≤ candidate.liquidityUsd),
    check "max_pool_share" (poolSharePct thesis candidate ≤ rules.maxPoolSharePct),
    check "min_token_age" (∃ age ∈ candidate.ageMinutes, rules.minTokenAgeMinutes ≤ age)] ++
  match candidate.security with
  | none     => [check "security_scan_present" False]
  | some sec => securityGates sec rules

def entryGates (thesis : Thesis) (candidate : Option Candidate) (portfolio : PortfolioState)
    (rules : AutopilotRules) (nowMs : Time) : List GateResult :=
  bookGates S thesis portfolio rules nowMs ++
  match candidate with
  | none           => [check "market_data_present" False]
  | some candidate => marketGates thesis candidate rules

/-- An exit is refused only for what is not held. -/
def exitGates (thesis : Thesis) (portfolio : PortfolioState) : List GateResult :=
  [check "position_exists" (portfolio.holds S thesis.tokenAddress)]

def evaluateGates (thesis : Thesis) (candidate : Option Candidate) (portfolio : PortfolioState)
    (rules : AutopilotRules) (nowMs : Time) : GateVerdict :=
  let results := universalGates S thesis rules ++
    match thesis.action with
    | .buy  => entryGates S thesis candidate portfolio rules nowMs
    | .sell => exitGates S thesis portfolio
    | .hold => []
  ⟨results.all GateResult.passed, results⟩

/-- The exit triggers of a position at a price. -/
def shouldExit (position : OpenPositionSummary) (currentPriceUsd : ℚ) : Bool :=
  if ¬ 0 < position.avgEntryPriceUsd ∨ ¬ 0 < currentPriceUsd then false
  else
    let pnlPct := (currentPriceUsd - position.avgEntryPriceUsd) / position.avgEntryPriceUsd * 100
    (∃ stopLossPct ∈ position.stopLossPct, pnlPct ≤ -|stopLossPct|) ∨
      ∃ takeProfitPct ∈ position.takeProfitPct, takeProfitPct ≤ pnlPct

/-! ### What a passed entry has met -/

variable {S} {thesis : Thesis} {candidate : Option Candidate} {portfolio : PortfolioState}
  {rules : AutopilotRules} {nowMs : Time}

/-- A buy that passes has a market snapshot, and every rule of the book agrees. -/
lemma passed_buy (hbuy : thesis.action = .buy)
    (h : (evaluateGates S thesis candidate portfolio rules nowMs).passed = true) :
    candidate ≠ none ∧
      ∀ result ∈ bookGates S thesis portfolio rules nowMs, result.passed = true := by
  rw [evaluateGates, hbuy] at h
  have hall := List.all_eq_true.mp h
  refine ⟨?_, fun result hresult => hall result (List.mem_append_right _ ?_)⟩
  · rintro rfl
    have hdata := hall (check "market_data_present" False) (by simp [entryGates])
    simp [check] at hdata
  · exact List.mem_append_left _ hresult

/-- What the sizes, the slots and the caps of the book say of a buy that passes. -/
structure Affordable (S : Strings) (thesis : Thesis) (portfolio : PortfolioState)
    (rules : AutopilotRules) : Prop where
  positive : 0 < thesis.sizeUsd
  fresh : ¬ portfolio.holds S thesis.tokenAddress
  slots : portfolio.openPositions.length < rules.maxOpenPositions
  dryPowder : thesis.sizeUsd ≤ portfolio.equityUsd - portfolio.deployedUsd
  dailyCap : portfolio.spentTodayUsd + thesis.sizeUsd ≤ rules.dailySpendCapUsd

lemma affordable_of_passed (hbuy : thesis.action = .buy)
    (h : (evaluateGates S thesis candidate portfolio rules nowMs).passed = true) :
    Affordable S thesis portfolio rules := by
  obtain ⟨-, hbook⟩ := passed_buy hbuy h
  simp only [bookGates, List.cons_append, List.forall_mem_cons, check, decide_eq_true_eq] at hbook
  obtain ⟨-, hpositive, -, hfresh, hslots, -, hpowder, hcap, -⟩ := hbook
  exact ⟨hpositive, hfresh, hslots, hpowder, hcap⟩

end Suwappu.Autopilot
