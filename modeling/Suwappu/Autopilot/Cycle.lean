import Suwappu.Autopilot.Gates
import Suwappu.Lib.Machine
import Suwappu.Lib.Window

/-!
# Cycles of the autopilot

Cycles of `runCycleImpl` of one agent, one after another. Every write to the database is a step, as
is every answer of the market, the engine, the anchor and the executor; each may throw, which ends
the cycle, and time passes in between. Rows are known by their position, and only the rows of the
agent are kept.

The state also remembers the buys and the sells that the executor answered with `ok`.
-/

namespace Suwappu.Autopilot

def DAY : Time := 24 * 60 * 60 * 1000

def startOfUtcDay (now : Time) : Time := now / DAY * DAY

inductive DecisionStatus where
  | sealed | rejected | executing | filled | failed | revealed
deriving DecidableEq, Repr

structure AutopilotDecision where
  action : AutopilotAction
  tokenAddress : String
  sizeUsd : ℚ
  gatePassed : Bool
  status : DecisionStatus
  sealedAt : Time
  executedAt : Option Time
deriving DecidableEq

inductive PositionStatus where
  | open_ | closed
deriving DecidableEq, Repr

structure AutopilotPosition where
  chain : String
  tokenAddress : String
  status : PositionStatus
  costBasisUsd : ℚ
  avgEntryPriceUsd : Option ℚ
  lastPriceUsd : Option ℚ
  realizedPnlUsd : ℚ
  takeProfitPct : Option ℚ
  stopLossPct : Option ℚ
  entryDecisionId : ℕ
  exitDecisionId : Option ℕ
  openedAt : Time
  closedAt : Option Time
deriving DecidableEq

inductive Mode where
  | paper | live
deriving DecidableEq, Repr

structure AutopilotAgent where
  mode : Mode
  baseToken : String
  startingEquityUsd : ℚ
  rules : AutopilotRules
  /-- commitments are anchored -/
  anchors : Bool

inductive Side where
  | buy | sell
deriving DecidableEq, Repr

structure ExecutionResult where
  ok : Bool
  fillPriceUsd : Option ℚ
deriving DecidableEq

/-- A decision to sell a position. -/
structure Exit where
  position : OpenPositionSummary
  price : ℚ
  thesis : Thesis
  decisionId : ℕ

/-- A decision to buy. -/
structure Entry where
  candidate : Candidate
  draft : Thesis
  decisionId : ℕ

inductive Stage where
  | idle
  | insertCycle
  | loadForMarks
  | mark (positions : List OpenPositionSummary)
  | loadForExits
  | exits (portfolio : PortfolioState) (positions : List OpenPositionSummary)
  | formExit (portfolio : PortfolioState) (position : OpenPositionSummary) (price : ℚ)
    (positions : List OpenPositionSummary)
  | sealExit (portfolio : PortfolioState) (position : OpenPositionSummary) (price : ℚ)
    (thesis : Thesis) (gate : GateVerdict) (positions : List OpenPositionSummary)
  | anchorExit (portfolio : PortfolioState) (exit : Exit) (positions : List OpenPositionSummary)
  | sell (portfolio : PortfolioState) (exit : Exit) (positions : List OpenPositionSummary)
  | settleSell (portfolio : PortfolioState) (exit : Exit) (result : ExecutionResult)
    (positions : List OpenPositionSummary)
  | closePosition (portfolio : PortfolioState) (exit : Exit) (result : ExecutionResult)
    (positions : List OpenPositionSummary)
  | loadForScreen
  | screen (portfolio : PortfolioState)
  | entries (portfolio : PortfolioState) (candidates : List Candidate)
  | security (portfolio : PortfolioState) (candidate : Candidate) (draft : Thesis)
    (candidates : List Candidate)
  | sealEntry (portfolio : PortfolioState) (candidate : Candidate) (draft : Thesis)
    (gate : GateVerdict) (candidates : List Candidate)
  | anchorEntry (portfolio : PortfolioState) (entry : Entry) (candidates : List Candidate)
  | failEntry (portfolio : PortfolioState) (entry : Entry) (candidates : List Candidate)
  | buy (portfolio : PortfolioState) (entry : Entry) (candidates : List Candidate)
  | settleBuy (portfolio : PortfolioState) (entry : Entry) (result : ExecutionResult)
    (candidates : List Candidate)
  | openPosition (entry : Entry) (result : ExecutionResult) (candidates : List Candidate)
  | loadForEntries (candidates : List Candidate)
  /-- a write that no step reads: of a journal row, a reveal or the row of the cycle -/
  | note (next : Stage)

/-- A buy that the executor answered with `ok`, and the agent's cash then. -/
structure Buy where
  decisionId : ℕ
  tokenAddress : String
  sizeUsd : ℚ
  executedAt : Time
  cashUsd : ℚ
deriving DecidableEq

structure Sell where
  positionId : ℕ
  decisionId : ℕ
deriving DecidableEq

structure State where
  now : Time
  positions : List AutopilotPosition
  decisions : List AutopilotDecision
  stage : Stage
  buys : List Buy
  sells : List Sell

inductive Answer where
  | ok
  | throws
  | price (priceUsd : Option ℚ)
  | thesis (thesis : Option Thesis)
  | candidates (candidates : List Candidate)
  | security (security : Option TokenSecurity)
  | anchored (ok : Bool)
  | executed (result : ExecutionResult)
deriving DecidableEq

inductive Action where
  | runCycle
  | take (answer : Answer)
  | elapse (duration : Time)
deriving DecidableEq

inductive Error where
  /-- the step waits for another answer, or a cycle is running, or none is -/
  | NotNext
deriving DecidableEq, Repr

variable (S : Strings) (agent : AutopilotAgent)

/-! ### The portfolio -/

def AutopilotPosition.marketValueUsd (p : AutopilotPosition) : ℚ :=
  match p.lastPriceUsd, p.avgEntryPriceUsd with
  | some last, some avg =>
    if last ≠ 0 ∧ avg ≠ 0 then p.costBasisUsd * (last / avg) else p.costBasisUsd
  | _, _ => p.costBasisUsd

def AutopilotPosition.summary (p : AutopilotPosition) (id : ℕ) : OpenPositionSummary where
  id := id
  chain := p.chain
  tokenAddress := p.tokenAddress
  costBasisUsd := p.costBasisUsd
  avgEntryPriceUsd := p.avgEntryPriceUsd.getD 0
  takeProfitPct := p.takeProfitPct
  stopLossPct := p.stopLossPct
  openedAt := p.openedAt

def State.openRows (s : State) : List AutopilotPosition :=
  s.positions.filter fun p => p.status = .open_

def State.closedRows (s : State) : List AutopilotPosition :=
  s.positions.filter fun p => p.status = .closed

def State.deployedUsd (s : State) : ℚ := (s.openRows.map (·.costBasisUsd)).sum

def State.marketValueUsd (s : State) : ℚ := (s.openRows.map (·.marketValueUsd)).sum

def State.realizedPnlUsd (s : State) : ℚ := (s.closedRows.map (·.realizedPnlUsd)).sum

/-- `computeEquity`, its cash -/
def State.cashUsd (s : State) : ℚ :=
  agent.startingEquityUsd + s.realizedPnlUsd - s.deployedUsd

/-- The buys that a day's spend counts. -/
def State.todaysBuys (s : State) (now : Time) : List AutopilotDecision :=
  s.decisions.filter fun d => startOfUtcDay now ≤ d.sealedAt ∧ d.action = .buy ∧
    d.status ∈ [.filled, .executing, .revealed] ∧ d.gatePassed = true

def State.spentTodayUsd (s : State) (now : Time) : ℚ := ((s.todaysBuys now).map (·.sizeUsd)).sum

def State.openPositions (s : State) : List OpenPositionSummary :=
  (s.positions.zipIdx.filter fun row => row.1.status = .open_).map fun row => row.1.summary row.2

/-- The last trade of a token among the last 200 decisions. -/
def State.lastTradeAt (s : State) (token : String) : Option Time :=
  (((s.decisions.reverse.take 200).filter fun d =>
    d.gatePassed = true ∧ S.toLowerCase d.tokenAddress = token).map fun d =>
      d.executedAt.getD d.sealedAt).max?

def loadPortfolio (s : State) : PortfolioState where
  baseToken := some agent.baseToken
  equityUsd := s.cashUsd agent + s.marketValueUsd
  deployedUsd := s.deployedUsd
  openPositions := s.openPositions
  spentTodayUsd := s.spentTodayUsd s.now
  realizedPnlTodayUsd := ((s.closedRows.filter fun p =>
    ∃ closedAt ∈ p.closedAt, startOfUtcDay s.now ≤ closedAt).map (·.realizedPnlUsd)).sum
  lastTradeAtByToken := s.lastTradeAt S

/-! ### Writes -/

/-- `markPositionsToMarket`, for one token -/
def State.markPosition (s : State) (tokenAddress : String) (price : ℚ) : State :=
  { s with positions := s.positions.map fun p =>
      if p.tokenAddress = tokenAddress ∧ p.status = .open_ then
        { p with lastPriceUsd := some price }
      else p }

/-- `sealDecision` -/
def State.sealDecision (s : State) (thesis : Thesis) (gate : GateVerdict) : State :=
  { s with decisions := s.decisions ++ [⟨thesis.action, thesis.tokenAddress, thesis.sizeUsd,
    gate.passed, if gate.passed then .sealed else .rejected, s.now, none⟩] }

def State.updateDecision (s : State) (id : ℕ) (f : AutopilotDecision → AutopilotDecision) : State :=
  { s with decisions := s.decisions.modify id f }

/-- The update of `settleDecision` -/
def State.settleDecision (s : State) (id : ℕ) (ok : Bool) : State :=
  s.updateDecision id fun d =>
    { d with status := if ok then .filled else .failed, executedAt := some s.now }

/-- `openPosition` -/
def State.openPosition (s : State) (thesis : Thesis) (result : ExecutionResult) (decisionId : ℕ) :
    State :=
  { s with positions := s.positions ++ [⟨thesis.chain, thesis.tokenAddress, .open_, thesis.sizeUsd,
    result.fillPriceUsd, result.fillPriceUsd, 0, thesis.exit.takeProfitPct,
    thesis.exit.stopLossPct, decisionId, none, s.now, none⟩] }

/-- `closePosition` -/
def State.closePosition (s : State) (position : OpenPositionSummary) (exitPriceUsd : ℚ)
    (decisionId : ℕ) : State :=
  let proceeds :=
    if 0 < position.avgEntryPriceUsd then
      position.costBasisUsd * (exitPriceUsd / position.avgEntryPriceUsd)
    else position.costBasisUsd
  { s with positions := s.positions.map fun p =>
      if p.tokenAddress = position.tokenAddress ∧ p.status = .open_ then
        { p with
          status := .closed
          lastPriceUsd := some exitPriceUsd
          realizedPnlUsd := proceeds - position.costBasisUsd
          exitDecisionId := some decisionId
          closedAt := some s.now }
      else p }

/-! ### Execution -/

/-- `PaperExecutor.execute`, with `Math.round` as the nearest integer, halves up -/
def paperExecute (side : Side) (amountUsd slippageBps feeBps price : ℚ) (liquidityUsd : Option ℚ) :
    ExecutionResult :=
  if price ≤ 0 then ⟨false, none⟩
  else
    let liquidity := liquidityUsd.getD 0
    let impact := if 0 < liquidity then amountUsd / (liquidity + amountUsd) else 1 / 100
    let cost := impact + feeBps / 10000
    if slippageBps < ⌊impact * 10000 + 1 / 2⌋ then ⟨false, none⟩
    else ⟨true, some (match side with
      | .sell => price * (1 - cost)
      | .buy  => price * (1 + cost))⟩

/-- What the executor answers: the paper one computes it. -/
def executed (paper : ExecutionResult) : Answer → Option ExecutionResult
  | .ok              => if agent.mode = .paper then some paper else none
  | .executed result => if agent.mode = .live then some result else none
  | _                => none

/-! ### The cycle -/

/-- The stages that end a cycle: a load and two writes. -/
def finish : Stage := .note (.note (.note .idle))

/-- The next step of a cycle that throws nothing. -/
def advance (s : State) : Stage → Answer → Except Error (State × Stage)
  | .insertCycle, .ok => .ok (s, .loadForMarks)
  | .loadForMarks, .ok => .ok (s, .mark (loadPortfolio S agent s).openPositions)
  | .mark [], .ok => .ok (s, .loadForExits)
  | .mark (_ :: positions), .price none => .ok (s, .mark positions)
  | .mark (position :: positions), .price (some price) =>
    .ok (s.markPosition position.tokenAddress price, .mark positions)
  | .loadForExits, .ok =>
    let portfolio := loadPortfolio S agent s
    .ok (s, .note (.exits portfolio portfolio.openPositions))
  | .exits _ [], .ok => .ok (s, .note .loadForScreen)
  | .exits portfolio (_ :: positions), .price none => .ok (s, .note (.exits portfolio positions))
  | .exits portfolio (position :: positions), .price (some price) =>
    if shouldExit position price = true then .ok (s, .formExit portfolio position price positions)
    else .ok (s, .exits portfolio positions)
  | .formExit portfolio position price positions, .thesis (some thesis) =>
    .ok (s, .sealExit portfolio position price thesis
      (evaluateGates S thesis none portfolio agent.rules s.now) positions)
  | .sealExit portfolio position price thesis gate positions, .ok =>
    .ok (s.sealDecision thesis gate, .note
      (if gate.passed then
        .anchorExit portfolio ⟨position, price, thesis, s.decisions.length⟩ positions
      else .note (.note (.exits portfolio positions))))
  -- nothing may stand between the agent and the door
  | .anchorExit portfolio exit positions, .ok =>
    if agent.anchors then .error .NotNext else .ok (s, .sell portfolio exit positions)
  | .anchorExit portfolio exit positions, .anchored ok =>
    if agent.anchors then
      .ok (s, if ok then .note (.note (.sell portfolio exit positions))
        else .note (.sell portfolio exit positions))
    else .error .NotNext
  | .sell portfolio exit positions, answer =>
    match executed agent (paperExecute .sell exit.thesis.sizeUsd agent.rules.maxSlippageBps
        agent.rules.paperFeeBps exit.price none) answer with
    | none        => .error .NotNext
    | some result =>
      .ok (if result.ok then
          { s with sells := s.sells ++ [⟨exit.position.id, exit.decisionId⟩] } else s,
        .settleSell portfolio exit result positions)
  | .settleSell portfolio exit result positions, .ok =>
    .ok (s.settleDecision exit.decisionId result.ok, .note
      (if result.ok then .closePosition portfolio exit result positions
      else .note (.exits portfolio positions)))
  | .closePosition portfolio exit result positions, .ok =>
    .ok (s.closePosition exit.position (result.fillPriceUsd.getD exit.price) exit.decisionId,
      .note (.exits portfolio positions))
  | .loadForScreen, .ok => .ok (s, .screen (loadPortfolio S agent s))
  | .screen portfolio, .candidates candidates => .ok (s, .note (.entries portfolio candidates))
  | .entries _ [], .ok => .ok (s, finish)
  | .entries portfolio (candidate :: candidates), .thesis draft =>
    if agent.rules.maxOpenPositions ≤ portfolio.openPositions.length then .ok (s, finish)
    else match draft with
      | none       => .ok (s, .entries portfolio candidates)
      | some draft => .ok (s, .security portfolio candidate draft candidates)
  | .security portfolio candidate draft candidates, .security security =>
    let enriched := match security with
      | none     => candidate
      | some sec => { candidate with security := some sec }
    .ok (s, .sealEntry portfolio candidate draft
      (evaluateGates S draft (some enriched) portfolio agent.rules s.now) candidates)
  | .sealEntry portfolio candidate draft gate candidates, .ok =>
    .ok (s.sealDecision draft gate, .note
      (if gate.passed then .anchorEntry portfolio ⟨candidate, draft, s.decisions.length⟩ candidates
      else .note (.note (.entries portfolio candidates))))
  | .anchorEntry portfolio entry candidates, .ok =>
    if agent.anchors then .error .NotNext else .ok (s, .buy portfolio entry candidates)
  | .anchorEntry portfolio entry candidates, .anchored ok =>
    if agent.anchors then
      .ok (s, if ok then .note (.note (.buy portfolio entry candidates))
        else .note (.failEntry portfolio entry candidates))
    else .error .NotNext
  | .failEntry portfolio entry candidates, .ok =>
    .ok (s.updateDecision entry.decisionId fun d => { d with status := .failed },
      .note (.entries portfolio candidates))
  | .buy portfolio entry candidates, answer =>
    match executed agent (paperExecute .buy entry.draft.sizeUsd agent.rules.maxSlippageBps
        agent.rules.paperFeeBps entry.candidate.priceUsd (some entry.candidate.liquidityUsd))
        answer with
    | none        => .error .NotNext
    | some result =>
      .ok (if result.ok then
          { s with buys := s.buys ++ [⟨entry.decisionId, entry.draft.tokenAddress,
            entry.draft.sizeUsd, s.now, s.cashUsd agent⟩] } else s,
        .settleBuy portfolio entry result candidates)
  | .settleBuy portfolio entry result candidates, .ok =>
    .ok (s.settleDecision entry.decisionId result.ok, .note (.note
      (if result.ok then .openPosition entry result candidates
      else .entries portfolio candidates)))
  | .openPosition entry result candidates, .ok =>
    .ok (s.openPosition entry.draft result entry.decisionId, .loadForEntries candidates)
  | .loadForEntries candidates, .ok => .ok (s, .entries (loadPortfolio S agent s) candidates)
  | .note next, .ok => .ok (s, next)
  | _, _ => .error .NotNext

def step (s : State) : Action → Except Error State
  | .runCycle =>
    match s.stage with
    | .idle => .ok { s with stage := .insertCycle }
    | _     => .error .NotNext
  | .take .throws =>
    match s.stage with
    | .idle => .error .NotNext
    | _     => .ok { s with stage := .idle }
  | .take answer => (advance S agent s s.stage answer).map fun r => { r.1 with stage := r.2 }
  | .elapse duration => .ok { s with now := s.now + duration }

def machine : Machine State Action Error := ⟨step S agent⟩

/-- A new agent. -/
def initial (now : Time) : State := ⟨now, [], [], .idle, [], []⟩

end Suwappu.Autopilot
