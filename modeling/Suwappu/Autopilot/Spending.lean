import Suwappu.Autopilot.Records

/-!
# The autopilot does not overspend its book

`solvent_of_thrifty`: in careful runs in which nothing is bought while the open positions are marked
above their cost, every buy is paid out of cash, and the slots, the tokens and the daily cap are
respected at all times.
-/

namespace Suwappu.Autopilot

variable (S : Strings) (agent : AutopilotAgent)

structure Solvent (s : State) : Prop where
  cash : ∀ buy ∈ s.buys, buy.sizeUsd ≤ buy.cashUsd
  slots : s.openPositions.length ≤ agent.rules.maxOpenPositions
  tokens : (s.openPositions.map fun position => S.norm position.tokenAddress).Nodup
  daily : s.boughtSince (startOfUtcDay s.now) ≤ agent.rules.dailySpendCapUsd

/-- The book is worth no more than it has cost. -/
def State.Sober (s : State) : Prop := s.marketValueUsd ≤ s.deployedUsd

/-- The executor is to buy. -/
def Stage.buys : Stage → Bool
  | .buy _ _ _ => true
  | _          => false

/-- A careful step, that buys only with a sober book. -/
def Thrifty (s : State) (action : Action) : Prop :=
  Careful s action ∧ (s.stage.buys = true → s.Sober)

instance decidableThrifty (s : State) (action : Action) : Decidable (Thrifty s action) :=
  inferInstanceAs (Decidable (Careful s action ∧
    (s.stage.buys = true → s.marketValueUsd ≤ s.deployedUsd)))

variable {S agent} {s s' : State} {stage next : Stage} {answer : Answer} {action : Action}

/-- Only the executor's answer is a buy. -/
lemma buys_advance (h : advance S agent s stage answer = .ok (s', next)) :
    s'.buys = s.buys ∨ ∃ portfolio entry candidates, stage = .buy portfolio entry candidates ∧
      s'.buys = s.buys ++ [entry.toBuy agent s] := by
  unfold advance at h
  split at h
  case h_26 =>
    split at h
    · cases h
    · cases h
      split_ifs
      · exact .inr ⟨_, _, _, rfl, rfl⟩
      · exact .inl rfl
  case h_14 =>
    split at h
    · cases h
    · cases h
      split_ifs <;> exact .inl rfl
  case h_20 =>
    split_ifs at h
    · cases h
      exact .inl rfl
    · split at h <;> cases h <;> exact .inl rfl
  case h_9 | h_12 | h_13 | h_23 | h_24 =>
    split_ifs at h <;> cases h <;> exact .inl rfl
  all_goals
    cases h
    try exact .inl rfl

lemma buys_step (h : (machine S agent).step s action = .ok s') (hcareful : Careful s action) :
    s'.buys = s.buys ∨ ∃ portfolio entry candidates, s.stage = .buy portfolio entry candidates ∧
      entry.Timely s ∧ s'.buys = s.buys ++ [entry.toBuy agent s] := by
  change step S agent s action = .ok s' at h
  cases action with
  | runCycle =>
    simp only [step] at h
    split at h <;> cases h
    exact .inl rfl
  | elapse duration =>
    cases h
    exact .inl rfl
  | take answer =>
    by_cases hthrows : answer = .throws
    · subst hthrows
      simp only [step] at h
      split at h <;> cases h
      exact .inl rfl
    · obtain ⟨s'', next, hadvance, rfl⟩ := step_take hthrows h
      rcases buys_advance hadvance with hbuys | ⟨portfolio, entry, candidates, hstage, hbuys⟩
      · exact .inl hbuys
      · exact .inr ⟨portfolio, entry, candidates, hstage, hcareful.timely hthrows hstage, hbuys⟩

/-- The gate leaves out no more than the gains of the open positions. -/
lemma affordable_cash {portfolio : PortfolioState} {thesis : Thesis}
    (hcurrent : s.Current agent portfolio) (hafford : Affordable S thesis portfolio agent.rules)
    (hsober : s.Sober) : thesis.sizeUsd ≤ s.cashUsd agent :=
  calc thesis.sizeUsd
    _ ≤ portfolio.equityUsd - portfolio.deployedUsd := hafford.dryPowder
    _ = s.cashUsd agent + (s.marketValueUsd - s.deployedUsd) := by
      rw [hcurrent.equity, hcurrent.deployed]
      ring
    _ ≤ s.cashUsd agent := add_le_of_nonpos_right (sub_nonpos.mpr hsober)

lemma cash_step (h : Inv S agent s) (hcash : ∀ buy ∈ s.buys, buy.sizeUsd ≤ buy.cashUsd)
    (hthrifty : Thrifty s action) (hstep : (machine S agent).step s action = .ok s') :
    ∀ buy ∈ s'.buys, buy.sizeUsd ≤ buy.cashUsd := by
  obtain ⟨hcareful, hsober⟩ := hthrifty
  rcases buys_step hstep hcareful with
    hbuys | ⟨portfolio, entry, candidates, hstage, htimely, hbuys⟩
  · rwa [hbuys]
  · have hknows := h.knows
    rw [hstage] at hsober hknows
    obtain ⟨hcurrent, -, hafford⟩ := hknows
    rw [hbuys]
    intro buy hbuy
    rcases List.mem_append.mp hbuy with hold | hnew
    · exact hcash buy hold
    · rw [List.mem_singleton.mp hnew]
      exact affordable_cash hcurrent (hafford htimely.1) (hsober rfl)

/-- In runs that are careful and buy only with a sober book. -/
theorem solvent_of_thrifty (hcap : 0 ≤ agent.rules.dailySpendCapUsd) (now : Time)
    (actions : List Action) (h : (machine S agent).Along Thrifty (initial now) actions) :
    Solvent S agent ((machine S agent).run (initial now) actions) := by
  have hrun := Machine.run_induction_along
    (I := fun s => Inv S agent s ∧ ∀ buy ∈ s.buys, buy.sizeUsd ≤ buy.cashUsd)
    (fun s action s' hs hthrifty hstep => ⟨inv_step hs.1 hthrifty.1 hstep,
      cash_step hs.1 hs.2 hthrifty hstep⟩) actions ⟨inv_initial now, nofun⟩ h
  obtain ⟨⟨haccounts, -⟩, hcash⟩ := hrun
  refine ⟨hcash, haccounts.slots, haccounts.tokens, ?_⟩
  by_cases hbuys : ((machine S agent).run (initial now) actions).buys = []
  · rw [State.boughtSince, hbuys]
    exact hcap
  · exact haccounts.capped hbuys

/-! ### A gain is spent -/

/-- Addresses in lower case. -/
def lowerCase : Strings := ⟨id, id⟩

def paperAgent : AutopilotAgent := ⟨.paper, "0xusdc", 100, DEFAULT_RULES, false⟩

def deepPool (token : String) : Candidate := ⟨"base", token, 1, 1000000, some 120, none⟩

def buyThesis (token : String) (sizeUsd : ℚ) : Thesis :=
  ⟨.buy, "base", token, sizeUsd, 1, ⟨none, some 10, true⟩⟩

def cleanToken : TokenSecurity := ⟨some false, none, none, some 5, some true⟩

/-- A cycle without open positions to look at, from its screen to a buy and its records. -/
def buyOne (token : String) (sizeUsd : ℚ) : List Action :=
  [.take .ok, .take (.candidates [deepPool token]), .take .ok,
    .take (.thesis (some (buyThesis token sizeUsd))), .take (.security (some cleanToken)),
    .take .ok, .take .ok, .take .ok, .take .ok, .take .ok, .take .ok, .take .ok, .take .ok,
    .take .ok]

def firstCycle : List Action :=
  [.runCycle, .take .ok, .take .ok, .take .ok, .take .ok, .take .ok, .take .ok, .take .ok] ++
    buyOne "0xaa" 50 ++ [.take .ok, .take .ok, .take .ok, .take .ok]

/-- The price of the one open position is ten times its cost, and there is no target. -/
def secondCycle : List Action :=
  [.runCycle, .take .ok, .take .ok, .take (.price (some 10)), .take .ok, .take .ok, .take .ok,
    .take (.price (some 10)), .take .ok, .take .ok] ++ buyOne "0xbb" 90

theorem first_buy_solvent :
    Solvent lowerCase paperAgent ((machine lowerCase paperAgent).run (initial 0) firstCycle) :=
  solvent_of_thrifty (by decide +kernel) 0 firstCycle (by decide +kernel)

/-- With 50 USD in cash and 50 USD in a position that is marked at 500, 90 USD are spent. -/
theorem gain_is_spent :
    ¬ ∀ (S : Strings) (agent : AutopilotAgent) (now : Time) (actions : List Action),
      agent.mode = .paper → 0 ≤ agent.rules.dailySpendCapUsd → .take .throws ∉ actions →
      Solvent S agent ((machine S agent).run (initial now) actions) := by
  intro h
  have hcash := (h lowerCase paperAgent 0 (firstCycle ++ secondCycle) rfl (by decide +kernel)
    (by decide +kernel)).cash
  revert hcash
  decide +kernel

end Suwappu.Autopilot
