import Mathlib
import Suwappu.Lib.Frontier

/-!
# The execution optimizer

Candidates are checked against the intent, the dominated ones are taken out, and the one of greatest
expected utility is selected from the others. The utility has a term for MEV protection, which is
no metric of the dominance: `optimize_best_iff` says when the best candidate is taken out.
-/

namespace Suwappu.ExecutionSync

structure ExecutionIntent where
  minOutput : ℚ := 0
  maxTotalCostUsd : Option ℚ := none
  maxLatencySeconds : Option ℚ := none
  minSettlementProbability : ℚ := 0
  minSecurityScore : ℚ := 0
  maxPriceImpact : Option ℚ := none
  requireMevProtection : Bool := false
  allowedProviders : Finset String := ∅
  forbiddenProviders : Finset String := ∅

/-- Times are in microseconds. -/
structure ExecutionCandidate where
  provider : String
  expectedOutput : ℚ
  guaranteedMinOutput : ℚ
  totalCostUsd : ℚ
  expectedLatencySeconds : ℚ
  priceImpact : ℚ
  settlementProbability : ℚ
  securityScore : ℚ
  mevProtected : Bool
  quoteTimestamp : ℤ
  expiresInSeconds : ℤ
deriving DecidableEq

def ExecutionCandidate.expiresAt (candidate : ExecutionCandidate) : ℤ :=
  candidate.quoteTimestamp + max 0 candidate.expiresInSeconds * 10 ^ 6

structure ConstraintViolation where
  code : String
  detail : String
deriving DecidableEq

/-- The utility is `none` at minus infinity. -/
structure CandidateEvaluation where
  candidate : ExecutionCandidate
  feasible : Bool
  violations : List ConstraintViolation
  utility : Option ℚ

structure UtilityWeights where
  usdCostPenalty : ℚ := 1 / 1000
  latencyPenaltyPerSecond : ℚ := 1 / 100000
  failurePenalty : ℚ := 1
  securityPenalty : ℚ := 5 / 100
  mevPenalty : ℚ := 1 / 100
  priceImpactPenalty : ℚ := 1 / 1000

structure ShadowDecision where
  selected : Option ExecutionCandidate
  frontier : List ExecutionCandidate
  evaluations : List CandidateEvaluation

/-! ### Constraints -/

def violation (p : Prop) [Decidable p] (code detail : String) : List ConstraintViolation :=
  if p then [⟨code, detail⟩] else []

/-- A limit that may be missing is exceeded. -/
def Exceeds (x : ℚ) (limit : Option ℚ) : Prop := ∃ y ∈ limit, y < x

instance decidableExceeds (x : ℚ) : (limit : Option ℚ) → Decidable (Exceeds x limit)
  | none   => .isFalse fun ⟨_, h, _⟩ => nomatch h
  | some y => decidable_of_iff (y < x) (by simp [Exceeds])

def validateCandidate (candidate : ExecutionCandidate) (intent : ExecutionIntent) (now : ℤ) :
    List ConstraintViolation :=
  violation (candidate.expiresAt < now) "stale_quote" "quote expired before optimization" ++
  violation (candidate.guaranteedMinOutput < intent.minOutput) "min_output"
    "guaranteed output below user minimum" ++
  violation (Exceeds candidate.totalCostUsd intent.maxTotalCostUsd) "max_cost"
    "total execution cost exceeds user maximum" ++
  violation (Exceeds candidate.expectedLatencySeconds intent.maxLatencySeconds) "max_latency"
    "expected latency exceeds user maximum" ++
  violation (candidate.settlementProbability < intent.minSettlementProbability)
    "settlement_probability" "settlement probability below minimum" ++
  violation (candidate.securityScore < intent.minSecurityScore) "security"
    "security score below minimum" ++
  violation (Exceeds candidate.priceImpact intent.maxPriceImpact) "price_impact"
    "price impact exceeds maximum" ++
  violation (intent.requireMevProtection = true ∧ candidate.mevProtected = false) "mev_policy"
    "MEV protection is required" ++
  violation (intent.allowedProviders.Nonempty ∧ candidate.provider ∉ intent.allowedProviders)
    "provider_not_allowed" "provider is outside allow-list" ++
  violation (candidate.provider ∈ intent.forbiddenProviders) "provider_forbidden"
    "provider is forbidden"

/-! ### Utility and dominance -/

def expectedUtility (candidate : ExecutionCandidate) (weights : UtilityWeights) : ℚ :=
  candidate.expectedOutput
    - weights.usdCostPenalty * candidate.totalCostUsd
    - weights.latencyPenaltyPerSecond * candidate.expectedLatencySeconds
    - weights.failurePenalty * (1 - candidate.settlementProbability)
    - weights.securityPenalty * (1 - candidate.securityScore)
    - weights.mevPenalty * (if candidate.mevProtected = true then 0 else 1)
    - weights.priceImpactPenalty * candidate.priceImpact

def metrics (candidate : ExecutionCandidate) : Fin 6 → ℚ :=
  ![candidate.expectedOutput, -candidate.totalCostUsd, -candidate.expectedLatencySeconds,
    candidate.settlementProbability, candidate.securityScore, -candidate.priceImpact]

def Dominates (a b : ExecutionCandidate) : Prop :=
  (∀ i, metrics b i ≤ metrics a i) ∧ ∃ i, metrics b i < metrics a i

instance decidableDominates : DecidableRel Dominates :=
  fun _ _ => inferInstanceAs (Decidable (_ ∧ _))

/-- No candidate dominates itself, so that it does not matter which of them are one object. -/
def paretoFrontier (candidates : List ExecutionCandidate) : List ExecutionCandidate :=
  Frontier.frontier Dominates candidates

/-! ### The choice -/

section Optimize

variable (candidates : List ExecutionCandidate) (intent : ExecutionIntent)
  (weights : UtilityWeights) (now : Option ℤ) (clock : ℕ → ℤ)

/-- The candidate in some place. Its check reads the clock unless a time is given. -/
def evaluate (candidate : ExecutionCandidate) (place : ℕ) : CandidateEvaluation :=
  let violations := validateCandidate candidate intent (now.getD (clock place))
  { candidate
    feasible := violations.isEmpty
    violations
    utility := if violations.isEmpty then some (expectedUtility candidate weights) else none }

def optimize : ShadowDecision :=
  let evaluations := candidates.zipIdx.map fun (candidate, place) =>
    evaluate intent weights now clock candidate place
  let feasible :=
    (evaluations.filter CandidateEvaluation.feasible).map CandidateEvaluation.candidate
  let frontier := paretoFrontier feasible
  { selected := frontier.argmax (expectedUtility · weights), frontier, evaluations }

end Optimize

/-! ### Dominance -/

variable {a b c o : ExecutionCandidate} {weights : UtilityWeights}

lemma dominates_iff_lt : Dominates a b ↔ metrics b < metrics a := Pi.lt_def.symm

instance strictDominates : IsStrictOrder ExecutionCandidate Dominates where
  irrefl _ h := lt_irrefl _ (dominates_iff_lt.mp h)
  trans _ _ _ hab hbc :=
    dominates_iff_lt.mpr ((dominates_iff_lt.mp hbc).trans (dominates_iff_lt.mp hab))

structure UtilityWeights.NonNegative (weights : UtilityWeights) : Prop where
  usdCost : 0 ≤ weights.usdCostPenalty
  latency : 0 ≤ weights.latencyPenaltyPerSecond
  failure : 0 ≤ weights.failurePenalty
  security : 0 ≤ weights.securityPenalty
  mev : 0 ≤ weights.mevPenalty
  priceImpact : 0 ≤ weights.priceImpactPenalty

/-- The utility without the term for MEV protection. -/
def marketUtility (candidate : ExecutionCandidate) (weights : UtilityWeights) : ℚ :=
  expectedUtility candidate weights
    + weights.mevPenalty * (if candidate.mevProtected = true then 0 else 1)

/-- A candidate without MEV protection dominates a protected one by less than the protection is
worth. -/
def Undercuts (weights : UtilityWeights) (o best : ExecutionCandidate) : Prop :=
  Dominates o best ∧ best.mevProtected = true ∧ o.mevProtected = false ∧
    marketUtility o weights < marketUtility best weights + weights.mevPenalty

lemma marketUtility_le (hweights : weights.NonNegative) (h : ∀ i, metrics b i ≤ metrics a i) :
    marketUtility b weights ≤ marketUtility a weights := by
  have houtput : b.expectedOutput ≤ a.expectedOutput := h 0
  have hcost := mul_le_mul_of_nonneg_left (neg_le_neg_iff.mp (h 1)) hweights.usdCost
  have hlatency := mul_le_mul_of_nonneg_left (neg_le_neg_iff.mp (h 2)) hweights.latency
  have hprobability : b.settlementProbability ≤ a.settlementProbability := h 3
  have hfailure := mul_le_mul_of_nonneg_left hprobability hweights.failure
  have hscore : b.securityScore ≤ a.securityScore := h 4
  have hsecurity := mul_le_mul_of_nonneg_left hscore hweights.security
  have himpact := mul_le_mul_of_nonneg_left (neg_le_neg_iff.mp (h 5)) hweights.priceImpact
  unfold marketUtility expectedUtility
  linarith

lemma expectedUtility_eq (c : ExecutionCandidate) : expectedUtility c weights =
    marketUtility c weights - weights.mevPenalty * (if c.mevProtected = true then 0 else 1) := by
  rw [marketUtility, add_sub_cancel_right]

/-- A candidate is worth less than one it dominates only if it undercuts it. -/
lemma utility_lt_iff (hweights : weights.NonNegative) (h : Dominates o c) :
    expectedUtility o weights < expectedUtility c weights ↔ Undercuts weights o c := by
  have hle := marketUtility_le hweights h.1
  have hmev := hweights.mev
  rw [expectedUtility_eq o, expectedUtility_eq c]
  unfold Undercuts
  cases ho : o.mevProtected with
  | true =>
    refine iff_of_false (not_lt.mpr ?_) fun hundercuts => nomatch hundercuts.2.2.1
    rw [if_pos rfl]
    split_ifs <;> linarith
  | false =>
    cases hc : c.mevProtected with
    | true =>
      simp only [h, true_and, Bool.false_eq_true, if_true, if_false]
      constructor <;> intro hlt <;> linarith
    | false =>
      refine iff_of_false (not_lt.mpr ?_) fun hundercuts => nomatch hundercuts.2.1
      linarith

/-! ### The best candidate -/

section Best

variable {candidates : List ExecutionCandidate} {intent : ExecutionIntent} {now : Option ℤ}
  {clock : ℕ → ℤ}

/-- A candidate that violates no constraint when it is checked. -/
def Feasible (candidates : List ExecutionCandidate) (intent : ExecutionIntent) (now : Option ℤ)
    (clock : ℕ → ℤ) (c : ExecutionCandidate) : Prop :=
  ∃ place, candidates[place]? = some c ∧
    validateCandidate c intent (now.getD (clock place)) = []

lemma Feasible.mem {candidates : List ExecutionCandidate} {intent : ExecutionIntent}
    {now : Option ℤ} {clock : ℕ → ℤ} (h : Feasible candidates intent now clock c) :
    c ∈ candidates :=
  h.elim fun _ hplace => List.mem_of_getElem? hplace.1

/-- The feasible candidates, in order. -/
def feasibleList (candidates : List ExecutionCandidate) (intent : ExecutionIntent)
    (weights : UtilityWeights) (now : Option ℤ) (clock : ℕ → ℤ) : List ExecutionCandidate :=
  ((optimize candidates intent weights now clock).evaluations.filter
    CandidateEvaluation.feasible).map CandidateEvaluation.candidate

lemma mem_feasibleList : c ∈ feasibleList candidates intent weights now clock ↔
    Feasible candidates intent now clock c := by
  unfold feasibleList optimize Feasible
  simp only [List.mem_map, List.mem_filter, Prod.exists, List.mem_zipIdx_iff_getElem?]
  constructor
  · rintro ⟨_, ⟨⟨candidate, place, hplace, rfl⟩, hfeasible⟩, rfl⟩
    exact ⟨place, hplace, List.isEmpty_iff.mp hfeasible⟩
  · rintro ⟨place, hplace, hvalid⟩
    exact ⟨_, ⟨⟨c, place, hplace, rfl⟩, List.isEmpty_iff.mpr hvalid⟩, rfl⟩

lemma selected_eq : (optimize candidates intent weights now clock).selected =
    (Frontier.frontier Dominates (feasibleList candidates intent weights now clock)).argmax
      (expectedUtility · weights) :=
  rfl

def IsBest (candidates : List ExecutionCandidate) (intent : ExecutionIntent)
    (weights : UtilityWeights) (now : Option ℤ) (clock : ℕ → ℤ) (c : ExecutionCandidate) : Prop :=
  Feasible candidates intent now clock c ∧
    ∀ o, Feasible candidates intent now clock o →
      expectedUtility o weights ≤ expectedUtility c weights

lemma isBest_iff_isLargest : IsBest candidates intent weights now clock c ↔
    Frontier.IsLargest (expectedUtility · weights)
      (feasibleList candidates intent weights now clock) c := by
  simp only [IsBest, Frontier.IsLargest, mem_feasibleList]

lemma selected_feasible (h : (optimize candidates intent weights now clock).selected = some c) :
    Feasible candidates intent now clock c := by
  rw [selected_eq] at h
  exact mem_feasibleList.mp (Frontier.mem_frontier.mp (List.argmax_mem h)).1

lemma selected_isSome_iff : (optimize candidates intent weights now clock).selected.isSome = true ↔
    ∃ c, Feasible candidates intent now clock c := by
  constructor
  · intro h
    obtain ⟨c, hc⟩ := Option.isSome_iff_exists.mp h
    exact ⟨c, selected_feasible hc⟩
  · rintro ⟨c, hc⟩
    rw [Option.isSome_iff_ne_none, selected_eq, Ne, List.argmax_eq_none]
    exact Frontier.frontier_ne_nil
      (List.ne_nil_of_mem (mem_feasibleList.mpr hc))

/-- The selected candidate is as good as the best one of the frontier. -/
lemma selected_isBest_iff (h : (optimize candidates intent weights now clock).selected = some c) :
    IsBest candidates intent weights now clock c ↔
      ∃ best ∈ Frontier.frontier Dominates (feasibleList candidates intent weights now clock),
        IsBest candidates intent weights now clock best := by
  rw [selected_eq] at h
  refine ⟨fun hbest => ⟨c, List.argmax_mem h, hbest⟩, fun ⟨best, hfrontier, hbest⟩ => ?_⟩
  refine ⟨mem_feasibleList.mp (Frontier.mem_frontier.mp (List.argmax_mem h)).1, fun o ho => ?_⟩
  exact (hbest.2 o ho).trans (List.le_of_mem_argmax hfrontier h)

/-- A feasible candidate is selected if there is one. It is a best one unless each of these is
undercut. -/
theorem optimize_best_iff (candidates : List ExecutionCandidate) (intent : ExecutionIntent)
    (weights : UtilityWeights) (now : Option ℤ) (clock : ℕ → ℤ) (hweights : weights.NonNegative) :
    ((optimize candidates intent weights now clock).selected.isSome = true ↔
      ∃ c, Feasible candidates intent now clock c) ∧
    (∀ c ∈ (optimize candidates intent weights now clock).selected,
      Feasible candidates intent now clock c) ∧
    ((∀ c ∈ (optimize candidates intent weights now clock).selected,
      IsBest candidates intent weights now clock c) ↔
      ((∃ c, Feasible candidates intent now clock c) →
        ∃ best, IsBest candidates intent weights now clock best ∧
          ∀ o, Feasible candidates intent now clock o → ¬ Undercuts weights o best)) := by
  refine ⟨selected_isSome_iff, fun c hc => selected_feasible hc, ?_⟩
  rw [← selected_isSome_iff]
  cases hselected : (optimize candidates intent weights now clock).selected with
  | none => exact iff_of_true (fun c hc => nomatch hc) fun h => nomatch h
  | some c =>
    have hlow : ∀ best, (∀ o, Feasible candidates intent now clock o → ¬ Undercuts weights o best) ↔
        ∀ o ∈ feasibleList candidates intent weights now clock, Dominates o best →
          expectedUtility best weights ≤ expectedUtility o weights := by
      intro best
      refine forall_congr' fun o => ?_
      rw [mem_feasibleList]
      refine forall_congr' fun _ => ⟨fun h hdom => ?_, fun h hundercuts => ?_⟩
      · exact not_lt.mp fun hlt => h ((utility_lt_iff hweights hdom).mp hlt)
      · exact absurd ((utility_lt_iff hweights hundercuts.1).mpr hundercuts)
          (not_lt.mpr (h hundercuts.1))
    simp only [Option.mem_some_iff, forall_eq', Option.isSome_some, forall_const]
    rw [selected_isBest_iff hselected]
    simp only [hlow, isBest_iff_isLargest]
    exact Frontier.exists_isLargest_frontier

end Best

/-! ### Two quotes -/

def quote (output : ℚ) (mevProtected : Bool) : ExecutionCandidate where
  provider := "okx_dex"
  expectedOutput := output
  guaranteedMinOutput := output
  totalCostUsd := 0
  expectedLatencySeconds := 0
  priceImpact := 0
  settlementProbability := 1
  securityScore := 1
  mevProtected := mevProtected
  quoteTimestamp := 0
  expiresInSeconds := 30

lemma nonNegative_default : UtilityWeights.NonNegative {} := by
  constructor <;> decide +kernel

/-- A protected quote of the greatest output is the best one. -/
theorem protected_selected : ∃ c ∈ (optimize [quote 1 true, quote (1 / 2) false] {} {} (some 0)
    fun _ => 0).selected,
      IsBest [quote 1 true, quote (1 / 2) false] {} {} (some 0) (fun _ => 0) c := by
  obtain ⟨hsome, -, hbest⟩ := optimize_best_iff [quote 1 true, quote (1 / 2) false] {} {} (some 0)
    (fun _ => 0) nonNegative_default
  have hfeasible : Feasible [quote 1 true, quote (1 / 2) false] {} (some 0) (fun _ => 0)
      (quote 1 true) :=
    ⟨0, rfl, by decide +kernel⟩
  obtain ⟨c, hc⟩ := Option.isSome_iff_exists.mp (hsome.mpr ⟨_, hfeasible⟩)
  refine ⟨c, hc, hbest.mpr (fun _ => ⟨quote 1 true, ⟨hfeasible, fun o ho => ?_⟩, ?_⟩) c hc⟩
  · rcases List.mem_pair.mp ho.mem with rfl | rfl
    · exact le_rfl
    · decide +kernel
  · -- the other quote has the lower output
    intro o ho hundercuts
    rcases List.mem_pair.mp ho.mem with rfl | rfl
    · exact irrefl_of Dominates _ hundercuts.1
    · exact absurd (hundercuts.1.1 0) (by decide +kernel)

/-- The unprotected quote is 0.005 higher, and the protection is worth 0.01. -/
theorem protected_lost : ¬ ∀ (candidates : List ExecutionCandidate) (intent : ExecutionIntent)
    (weights : UtilityWeights) (now : Option ℤ) (clock : ℕ → ℤ), weights.NonNegative →
    ((optimize candidates intent weights now clock).selected.isSome = true ↔
      ∃ c, Feasible candidates intent now clock c) ∧
    ∀ c ∈ (optimize candidates intent weights now clock).selected,
      Feasible candidates intent now clock c ∧ ∀ o, Feasible candidates intent now clock o →
        expectedUtility o weights ≤ expectedUtility c weights := by
  intro hall
  obtain ⟨-, hbest⟩ := hall [quote 1 true, quote (201 / 200) false] {} {} (some 0) (fun _ => 0)
    nonNegative_default
  have hselected : (optimize [quote 1 true, quote (201 / 200) false] {} {} (some 0)
      fun _ => 0).selected = some (quote (201 / 200) false) := by
    decide +kernel
  have hle := (hbest _ hselected).2 (quote 1 true) ⟨0, rfl, by decide +kernel⟩
  exact absurd hle (by decide +kernel)

end Suwappu.ExecutionSync
