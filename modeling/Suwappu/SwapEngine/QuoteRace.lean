import Suwappu.Lib.Choices
import Suwappu.SwapEngine.MedianPrice

/-!
# The race of quotes

`race_near_best`: among quotes for the same amount the order of arrival does not matter, the winner
has the best score or nearly so, and the improvement that is recorded is not overstated.
-/

namespace Suwappu.SwapEngine.Quotes

open Choices Checked Extended

variable {sort : Sorting ℚ} {parse : ParseFloat} {quotes quotes' : List SwapQuote}
  {q best : SwapQuote} {outPrice : Option (Extended ℚ)} {inputPriceUsd : Option ℚ}
  {fromChain toChain : String}

/-! ### The order of arrival -/

lemma raced_perm (h : quotes.Perm quotes') : (raced quotes).Perm (raced quotes') := by
  have hothers := h.filter fun q => q.provider ≠ "wormhole"
  unfold raced
  dsimp only
  by_cases hnil : (quotes.filter fun q => q.provider ≠ "wormhole") = []
  · have hnil' : (quotes'.filter fun q => q.provider ≠ "wormhole") = [] := by
      rw [hnil] at hothers
      exact List.nil_perm.mp hothers
    rwa [if_pos hnil, if_pos hnil']
  · have hnil' : (quotes'.filter fun q => q.provider ≠ "wormhole") ≠ [] := by
      intro hnil'
      rw [hnil'] at hothers
      exact hnil (List.perm_nil.mp hothers)
    rwa [if_neg hnil, if_neg hnil']

lemma raced_subset : raced quotes ⊆ quotes := by
  unfold raced
  dsimp only
  split_ifs
  · exact List.Subset.refl _
  · exact List.filter_subset_self _

lemma raced_ne_nil (h : quotes ≠ []) : raced quotes ≠ [] := by
  unfold raced
  dsimp only
  split_ifs with hnil
  · exact h
  · exact hnil

/-- The prices are read in the order of the providers. -/
lemma deriveMedianOutputPrice_perm (h : quotes.Perm quotes')
    (hdistinct : Distinct SwapQuote.provider quotes) :
    deriveMedianOutputPrice sort parse quotes = deriveMedianOutputPrice sort parse quotes' := by
  have hcandidates : candidates parse quotes = candidates parse quotes' :=
    congrArg (List.filterMap (exposedPrice parse)) (insertionSort_perm h hdistinct)
  unfold deriveMedianOutputPrice
  rw [hcandidates]

/-- All quotes are for one amount. -/
def SameAmount (quotes : List SwapQuote) : Prop :=
  ∀ q ∈ quotes, ∀ q' ∈ quotes, q.fromAmountHuman = q'.fromAmountHuman

lemma oracleInputUsdValue_perm (h : quotes.Perm quotes') (hamount : SameAmount quotes) :
    oracleInputUsdValue quotes inputPriceUsd = oracleInputUsdValue quotes' inputPriceUsd := by
  cases quotes with
  | nil => rw [List.nil_perm.mp h]
  | cons q rest =>
    cases quotes' with
    | nil => cases List.perm_nil.mp h
    | cons q' rest' =>
      have hsame := hamount q List.mem_cons_self q' (h.mem_iff.mpr List.mem_cons_self)
      unfold oracleInputUsdValue
      rw [List.head?_cons, List.head?_cons]
      simp only [Option.bind_eq_bind, Option.bind_some, hsame]

lemma extractInputUsdValue_of_ne (h : q.provider ≠ "lifi") :
    extractInputUsdValue parse q = .ok none := by
  unfold extractInputUsdValue
  split
  · rw [if_neg h]
    rfl
  · rfl

/-- One provider reports the value of the input. -/
lemma providerInputUsdValue_eq (hdistinct : Distinct SwapQuote.provider quotes) :
    providerInputUsdValue parse quotes =
      match quotes.find? (fun q => q.provider = "lifi") with
      | some q => extractInputUsdValue parse q
      | none   => .ok none := by
  induction quotes with
  | nil => rfl
  | cons q quotes ih =>
    have ih := ih (hdistinct.subset (List.subset_cons_self _ _))
    rw [providerInputUsdValue, ih, List.find?_cons]
    by_cases hlifi : q.provider = "lifi"
    · rw [decide_eq_true hlifi]
      dsimp only
      cases hvalue : extractInputUsdValue parse q with
      | error e => rfl
      | ok value =>
        cases value with
        | some v => rfl
        | none =>
          -- another quote of the provider would be this one again
          cases hfind : quotes.find? fun q => q.provider = "lifi" with
          | none => rfl
          | some q' =>
            have hq' : q'.provider = "lifi" := by simpa using List.find?_some hfind
            have heq := hdistinct q List.mem_cons_self q'
              (List.mem_cons_of_mem _ (List.mem_of_find?_eq_some hfind)) (hlifi.trans hq'.symm)
            rw [← heq]
            exact hvalue
    · rw [decide_eq_false hlifi, extractInputUsdValue_of_ne hlifi]
      rfl

lemma inputUsdSourcesDisagree_perm (h : quotes.Perm quotes') (hamount : SameAmount quotes)
    (hdistinct : Distinct SwapQuote.provider quotes) :
    inputUsdSourcesDisagree parse quotes inputPriceUsd =
      inputUsdSourcesDisagree parse quotes' inputPriceUsd := by
  have hdistinct' : Distinct SwapQuote.provider quotes' := hdistinct.subset h.symm.subset
  unfold inputUsdSourcesDisagree
  rw [oracleInputUsdValue_perm h hamount, providerInputUsdValue_eq hdistinct,
    providerInputUsdValue_eq hdistinct', find?_perm h hdistinct]

lemma rankingPrice_perm (h : quotes.Perm quotes') (hamount : SameAmount quotes)
    (hdistinct : Distinct SwapQuote.provider quotes) :
    rankingPrice sort parse quotes inputPriceUsd =
      rankingPrice sort parse quotes' inputPriceUsd := by
  unfold rankingPrice
  simp only [h.length_eq, h.all_eq, deriveMedianOutputPrice_perm h hdistinct,
    inputUsdSourcesDisagree_perm h hamount hdistinct, oracleInputUsdValue_perm h hamount, h.any_eq]

/-- The quotes that take part, apart by the score the ranking has gone by. -/
def ScoresDistinct (sort : Sorting ℚ) (parse : ParseFloat) (quotes : List SwapQuote)
    (inputPriceUsd : Option ℚ) : Prop :=
  ∀ outPrice, rankingPrice sort parse (raced quotes) inputPriceUsd = .ok outPrice →
    Distinct (quoteNetScore · outPrice) (raced quotes)

lemma rankQuotesWithPrice_perm (h : quotes.Perm quotes') (hamount : SameAmount quotes)
    (hdistinct : Distinct SwapQuote.provider quotes)
    (hscores : ScoresDistinct sort parse quotes inputPriceUsd) :
    rankQuotesWithPrice sort parse quotes inputPriceUsd =
      rankQuotesWithPrice sort parse quotes' inputPriceUsd := by
  have hraced := raced_perm h
  have hamount : SameAmount (raced quotes) :=
    fun q hq q' hq' => hamount q (raced_subset hq) q' (raced_subset hq')
  unfold rankQuotesWithPrice
  dsimp only
  rw [← rankingPrice_perm hraced hamount (hdistinct.subset raced_subset)]
  cases hprice : rankingPrice sort parse (raced quotes) inputPriceUsd with
  | error e => rfl
  | ok outPrice =>
    simp only [ok_bind, largest]
    rw [argmax_perm hraced (hscores outPrice hprice)]

/-! ### The tiebreak -/

variable {check : SwapQuote → Except Error Bool} {passed : List SwapQuote}

def passes (check : SwapQuote → Except Error Bool) (q : SwapQuote) : Bool :=
  (check q).toOption.getD false

/-- The quotes a check lets pass, where it raises for none. -/
lemma filterExcept_ok_iff : filterExcept check quotes = .ok passed ↔
    (∀ q ∈ quotes, ∃ b, check q = .ok b) ∧ quotes.filter (passes check) = passed := by
  induction quotes generalizing passed with
  | nil =>
    rw [filterExcept, Except.ok.injEq]
    exact (and_iff_right fun q hq => absurd hq List.not_mem_nil).symm
  | cons q quotes ih =>
    rw [filterExcept, bind_ok_iff, List.forall_mem_cons, List.filter_cons, passes]
    constructor
    · rintro ⟨b, hb, h⟩
      obtain ⟨rest, hrest, h⟩ := bind_ok_iff.mp h
      obtain ⟨hall, hfilter⟩ := ih.mp hrest
      rw [pure_ok_iff] at h
      rw [hb, hfilter]
      exact ⟨⟨⟨b, rfl⟩, hall⟩, h⟩
    · rintro ⟨⟨⟨b, hb⟩, hall⟩, h⟩
      refine ⟨b, hb, bind_ok_iff.mpr ⟨_, ih.mpr ⟨hall, rfl⟩, ?_⟩⟩
      rw [hb] at h
      exact pure_ok_iff.mpr h

lemma filterExcept_error {e : Error} (h : filterExcept check quotes = .error e) :
    ∃ q ∈ quotes, check q = .error e := by
  induction quotes with
  | nil => cases h
  | cons q quotes ih =>
    rw [filterExcept, bind_error_iff] at h
    rcases h with hq | ⟨b, -, h⟩
    · exact ⟨q, List.mem_cons_self, hq⟩
    · rcases bind_error_iff.mp h with hrest | ⟨rest, -, h⟩
      · obtain ⟨q', hq', herror⟩ := ih hrest
        exact ⟨q', List.mem_cons_of_mem _ hq', herror⟩
      · exact absurd h pure_ne_error

lemma qualifies_error {e : Error} (h : qualifies best outPrice q = .error e) :
    e = .TypeError ∧ best.estimatedTime = none := by
  unfold qualifies at h
  split_ifs at h
  split at h
  · cases h
  · rename_i hnone
    cases h
    exact ⟨rfl, hnone⟩
  · cases h

/-- Among faster quotes the names decide, so the first one does not depend on their order. -/
lemma applySpeedTiebreak_perm (h : quotes.Perm quotes')
    (hdistinct : Distinct SwapQuote.provider quotes) :
    applySpeedTiebreak quotes best outPrice fromChain toChain =
      applySpeedTiebreak quotes' best outPrice fromChain toChain := by
  have hraced := raced_perm h
  unfold applySpeedTiebreak
  dsimp only
  rw [hraced.length_eq]
  split_ifs with hbest
  · rfl
  cases hpassed : filterExcept (qualifies best outPrice) (raced quotes) with
  | ok passed =>
    obtain ⟨hall, hfilter⟩ := filterExcept_ok_iff.mp hpassed
    have hpassed' := filterExcept_ok_iff.mpr
      ⟨fun q hq => hall q (hraced.mem_iff.mpr hq), rfl⟩
    have hperm : passed.Perm ((raced quotes').filter (passes (qualifies best outPrice))) :=
      hfilter ▸ hraced.filter _
    have hspeed : Distinct SwapQuote.speed passed := by
      intro q hq q' hq' heq
      subst hfilter
      refine hdistinct q (raced_subset (List.mem_of_mem_filter hq)) q'
        (raced_subset (List.mem_of_mem_filter hq')) ?_
      exact congrArg Prod.snd (toLex.injective heq)
    rw [hpassed', ok_bind, ok_bind, insertionSort_perm hperm hspeed]
  | error e =>
    obtain ⟨q, hq, herror⟩ := filterExcept_error hpassed
    cases hpassed' : filterExcept (qualifies best outPrice) (raced quotes') with
    | ok passed =>
      obtain ⟨b, hb⟩ := (filterExcept_ok_iff.mp hpassed').1 q (hraced.mem_iff.mp hq)
      rw [herror] at hb
      cases hb
    | error e' =>
      obtain ⟨q', -, herror'⟩ := filterExcept_error hpassed'
      rw [(qualifies_error herror).1, (qualifies_error herror').1]

lemma selectRunnerUp_perm (h : quotes.Perm quotes')
    (hscores : Distinct (quoteNetScore · outPrice) (raced quotes)) :
    selectRunnerUp quotes best outPrice = selectRunnerUp quotes' best outPrice :=
  argmax_perm ((raced_perm h).filter _) (hscores.subset (List.filter_subset_self _))

/-! ### The scores -/

variable {winner : SwapQuote} {tiebreak : Bool} {price : Extended ℚ} {r : Outcome}

lemma rankQuotesWithPrice_ok
    (h : rankQuotesWithPrice sort parse quotes inputPriceUsd = .ok (best, outPrice)) :
    rankingPrice sort parse (raced quotes) inputPriceUsd = .ok outPrice ∧ best ∈ raced quotes ∧
      ∀ q ∈ raced quotes, quoteNetScore q outPrice ≤ quoteNetScore best outPrice := by
  obtain ⟨outPrice', hprice, h⟩ := bind_ok_iff.mp h
  obtain ⟨best', hbest, h⟩ := bind_ok_iff.mp h
  rw [pure_ok_iff, Prod.mk.injEq] at h
  obtain ⟨rfl, rfl⟩ := h
  unfold largest at hbest
  split at hbest
  · rename_i hmax
    cases hbest
    exact ⟨hprice, List.argmax_mem hmax, fun q hq => List.le_of_mem_argmax hq hmax⟩
  · cases hbest

lemma deriveMedianOutputPrice_pos (h : deriveMedianOutputPrice sort parse quotes = some price) :
    finite 0 < price := by
  unfold deriveMedianOutputPrice at h
  dsimp only at h
  split_ifs at h with hfew hraw hnil
  cases h
  obtain ⟨p, hp⟩ := List.exists_mem_of_ne_nil _ hnil
  have hmedian := pos_of_mem_near hraw hp
  have hmajority := Median.majority_of_forall hnil fun p hp =>
    And.imp And.right And.right (of_decide_eq_true (List.mem_filter.mp hp).2)
  have hhalf := finite_mul_pos one_half_pos hmedian
  exact hhalf.trans_le (median_between hmajority hhalf nan_notMem_near).1

lemma rankingPrice_some (h : rankingPrice sort parse quotes inputPriceUsd = .ok (some price)) :
    finite 0 < price := by
  unfold rankingPrice at h
  split_ifs at h
  · cases h
  split at h
  · cases h
  · rename_i outPrice hderived
    obtain ⟨disagree, -, h⟩ := bind_ok_iff.mp h
    dsimp only at h
    split_ifs at h
    all_goals cases h
    exact deriveMedianOutputPrice_pos hderived

lemma qualifies_true (h : passes (qualifies best outPrice) q = true) :
    999 / 1000 * quoteNetScore best outPrice ≤ quoteNetScore q outPrice := by
  unfold passes qualifies at h
  split_ifs at h
  · cases h
  split at h
  · cases h
  · cases h
  · obtain ⟨-, -, hdiff⟩ := of_decide_eq_true h
    linarith

/-- Either the best quote stays, or one that is nearly as good takes its place. -/
lemma applySpeedTiebreak_ok
    (h : applySpeedTiebreak quotes best outPrice fromChain toChain = .ok (winner, tiebreak)) :
    winner = best ∧ tiebreak = false ∨ tiebreak = true ∧ winner ∈ raced quotes ∧
      0 < quoteNetScore best outPrice ∧
      999 / 1000 * quoteNetScore best outPrice ≤ quoteNetScore winner outPrice := by
  unfold applySpeedTiebreak at h
  dsimp only at h
  split_ifs at h with hbest
  · rw [pure_ok_iff, Prod.mk.injEq] at h
    exact .inl ⟨h.1.symm, h.2.symm⟩
  obtain ⟨passed, hpassed, h⟩ := bind_ok_iff.mp h
  rw [pure_ok_iff] at h
  split at h
  · rw [Prod.mk.injEq] at h
    exact .inl ⟨h.1.symm, h.2.symm⟩
  · rename_i fastest rest hsorted
    rw [Prod.mk.injEq] at h
    obtain ⟨rfl, rfl⟩ := h
    have hmem : fastest ∈ passed :=
      (List.perm_insertionSort _ passed).mem_iff.mp (hsorted ▸ List.mem_cons_self)
    rw [← (filterExcept_ok_iff.mp hpassed).2] at hmem
    obtain ⟨hraced, hpasses⟩ := List.mem_filter.mp hmem
    refine .inr ⟨rfl, hraced, ?_, ?_⟩
    · exact not_le.mp fun hle => hbest (.inr (.inr (.inl hle)))
    · exact qualifies_true hpasses

structure NearBest (quotes : List SwapQuote) (r : Outcome) : Prop where
  mem : r.winner ∈ raced quotes
  best : r.tiebreak = false → ∀ q ∈ raced quotes,
    quoteNetScore q r.outPriceUsed ≤ quoteNetScore r.winner r.outPriceUsed
  near : r.tiebreak = true → ∃ m, 0 < m ∧
    IsGreatest {x | ∃ q ∈ raced quotes, quoteNetScore q r.outPriceUsed = x} m ∧
    999 / 1000 * m ≤ quoteNetScore r.winner r.outPriceUsed
  nonneg : ∀ improvement ∈ r.priceImprovementUsd, finite 0 ≤ improvement
  outranked : ∀ improvement ∈ r.priceImprovementUsd, ∃ price ∈ r.outPriceUsed, ∀ q ∈ raced quotes,
    quoteNetScore q r.outPriceUsed < quoteNetScore r.winner r.outPriceUsed → improvement ≤
      (finite (quoteNetScore r.winner r.outPriceUsed - quoteNetScore q r.outPriceUsed)).mul price

theorem race_perm (h : quotes.Perm quotes') (hamount : SameAmount quotes)
    (hdistinct : Distinct SwapQuote.provider quotes)
    (hscores : ScoresDistinct sort parse quotes inputPriceUsd) :
    race sort parse quotes inputPriceUsd fromChain toChain =
      race sort parse quotes' inputPriceUsd fromChain toChain := by
  unfold race
  rw [← rankQuotesWithPrice_perm h hamount hdistinct hscores]
  cases hrank : rankQuotesWithPrice sort parse quotes inputPriceUsd with
  | error e => rfl
  | ok result =>
    obtain ⟨best, outPrice⟩ := result
    have hprice := (rankQuotesWithPrice_ok hrank).1
    simp only [ok_bind]
    rw [← applySpeedTiebreak_perm h hdistinct]
    simp only [selectRunnerUp_perm h (hscores outPrice hprice)]

lemma computePriceImprovementUsd_cases {runnerUp : Option SwapQuote} {improvement : Extended ℚ}
    (h : computePriceImprovementUsd winner runnerUp outPrice = some improvement) :
    ∃ q ∈ runnerUp, ∃ price ∈ outPrice,
      quoteNetScore winner outPrice ≤ quoteNetScore q outPrice ∧ improvement = finite 0 ∨
      quoteNetScore q outPrice < quoteNetScore winner outPrice ∧ improvement =
        (finite (quoteNetScore winner outPrice - quoteNetScore q outPrice)).mul price := by
  unfold computePriceImprovementUsd at h
  obtain ⟨q, hq, h⟩ := Option.bind_eq_some_iff.mp h
  obtain ⟨price, hprice, h⟩ := Option.bind_eq_some_iff.mp h
  refine ⟨q, hq, price, hprice, ?_⟩
  split_ifs at h with hzero
  rw [Option.some.injEq] at h
  rw [← h]
  split_ifs with hdelta
  · exact .inl ⟨sub_nonpos.mp hdelta, rfl⟩
  · exact .inr ⟨sub_pos.mp (not_le.mp hdelta), rfl⟩

/-- The runner-up is at least as good as every other quote that the winner outranks. -/
lemma selectRunnerUp_le {runnerUp : SwapQuote}
    (h : runnerUp ∈ selectRunnerUp quotes winner outPrice)
    (hwinner : winner ∈ raced quotes) (hdistinct : Distinct SwapQuote.provider quotes)
    (hq : q ∈ raced quotes)
    (houtranked : quoteNetScore q outPrice < quoteNetScore winner outPrice) :
    quoteNetScore q outPrice ≤ quoteNetScore runnerUp outPrice := by
  have hother : q.provider ≠ winner.provider := by
    intro heq
    have hsame := hdistinct q (raced_subset hq) winner (raced_subset hwinner) heq
    rw [hsame] at houtranked
    exact lt_irrefl _ houtranked
  exact List.le_of_mem_argmax (List.mem_filter.mpr ⟨hq, decide_eq_true hother⟩) h

lemma nearBest_of_best (hbest : best ∈ raced quotes)
    (hle : ∀ q ∈ raced quotes, quoteNetScore q outPrice ≤ quoteNetScore best outPrice)
    (hpos : ∀ price ∈ outPrice, finite 0 < price) (hdistinct : Distinct SwapQuote.provider quotes) :
    NearBest quotes ⟨best, outPrice, false,
      computePriceImprovementUsd best (selectRunnerUp quotes best outPrice) outPrice⟩ where
  mem := hbest
  best := fun _ => hle
  near := nofun
  nonneg improvement h := by
    obtain ⟨runnerUp, -, price, hprice, ⟨-, rfl⟩ | ⟨hlt, rfl⟩⟩ :=
      computePriceImprovementUsd_cases h
    · exact le_rfl
    · exact (finite_mul_pos (sub_pos.mpr hlt) (hpos price hprice)).le
  outranked improvement h := by
    obtain ⟨runnerUp, hrunnerUp, price, hprice, hcases⟩ := computePriceImprovementUsd_cases h
    refine ⟨price, hprice, fun q hq houtranked => ?_⟩
    have hle := selectRunnerUp_le hrunnerUp hbest hdistinct hq houtranked
    rcases hcases with ⟨-, rfl⟩ | ⟨hlt, rfl⟩
    · exact (finite_mul_pos (sub_pos.mpr houtranked) (hpos price hprice)).le
    · exact mul_le_mul_finite (sub_pos.mpr hlt) (sub_le_sub_left hle _) (hpos price hprice)

lemma nearBest_of_tiebreak (hbest : best ∈ raced quotes)
    (hle : ∀ q ∈ raced quotes, quoteNetScore q outPrice ≤ quoteNetScore best outPrice)
    (hwinner : winner ∈ raced quotes) (hpositive : 0 < quoteNetScore best outPrice)
    (hnear : 999 / 1000 * quoteNetScore best outPrice ≤ quoteNetScore winner outPrice) :
    NearBest quotes ⟨winner, outPrice, true, none⟩ where
  mem := hwinner
  best := nofun
  near := fun _ => ⟨_, hpositive, ⟨⟨best, hbest, rfl⟩, fun _ ⟨q, hq, hx⟩ => hx ▸ hle q hq⟩, hnear⟩
  nonneg := nofun
  outranked := nofun

lemma race_ok (h : race sort parse quotes inputPriceUsd fromChain toChain = .ok r)
    (hdistinct : Distinct SwapQuote.provider quotes) : NearBest quotes r := by
  obtain ⟨⟨best, outPrice⟩, hrank, h⟩ := bind_ok_iff.mp h
  obtain ⟨⟨winner, tiebreak⟩, htiebreak, h⟩ := bind_ok_iff.mp h
  rw [pure_ok_iff] at h
  obtain ⟨hprice, hbest, hle⟩ := rankQuotesWithPrice_ok hrank
  have hpos : ∀ price ∈ outPrice, finite 0 < price := by
    rintro price rfl
    exact rankingPrice_some hprice
  subst h
  rcases applySpeedTiebreak_ok htiebreak with ⟨rfl, rfl⟩ | ⟨rfl, hwinner, hpositive, hnear⟩
  · exact nearBest_of_best hbest hle hpos hdistinct
  · exact nearBest_of_tiebreak hbest hle hwinner hpositive hnear

/-! ### That there is a winner -/

/-- Nothing is missing that the race reads: the estimate is a dict, a trusted time is there. -/
def Complete (parse : ParseFloat) (q : SwapQuote) : Prop :=
  (∃ v, extractInputUsdValue parse q = .ok v) ∧ (q.timeTrusted → q.estimatedTime.isSome)

lemma providerInputUsdValue_exists (h : ∀ q ∈ quotes, Complete parse q) :
    ∃ v, providerInputUsdValue parse quotes = .ok v := by
  induction quotes with
  | nil => exact ⟨none, rfl⟩
  | cons q quotes ih =>
    obtain ⟨⟨v, hv⟩, -⟩ := h q List.mem_cons_self
    obtain ⟨rest, hrest⟩ := ih fun q' hq' => h q' (List.mem_cons_of_mem _ hq')
    rw [providerInputUsdValue, hv, ok_bind]
    cases v with
    | some v => exact ⟨some v, rfl⟩
    | none   => exact ⟨rest, hrest⟩

lemma rankingPrice_exists (inputPriceUsd : Option ℚ) (h : ∀ q ∈ quotes, Complete parse q) :
    ∃ outPrice, rankingPrice sort parse quotes inputPriceUsd = .ok outPrice := by
  obtain ⟨provider, hprovider⟩ := providerInputUsdValue_exists h
  unfold rankingPrice inputUsdSourcesDisagree
  rw [hprovider]
  split_ifs
  · exact ⟨none, rfl⟩
  split
  · exact ⟨none, rfl⟩
  simp only [ok_bind, pure_bind]
  split_ifs
  all_goals exact ⟨_, rfl⟩

lemma largest_exists (score : SwapQuote → ℚ) (h : quotes ≠ []) :
    ∃ best, largest score quotes = .ok best := by
  unfold largest
  split
  · exact ⟨_, rfl⟩
  · rename_i hnone
    exact absurd (List.argmax_eq_none.mp hnone) h

lemma applySpeedTiebreak_exists (quotes : List SwapQuote) (outPrice : Option (Extended ℚ))
    (fromChain toChain : String) (h : best.timeTrusted → best.estimatedTime.isSome) :
    ∃ result, applySpeedTiebreak quotes best outPrice fromChain toChain = .ok result := by
  unfold applySpeedTiebreak
  dsimp only
  split_ifs with hstays
  · exact ⟨_, rfl⟩
  have htrusted : best.timeTrusted = true := by
    by_contra htrusted
    exact hstays (.inr (.inr (.inr htrusted)))
  cases hpassed : filterExcept (qualifies best outPrice) (raced quotes) with
  | ok passed => exact ⟨_, rfl⟩
  | error e =>
    obtain ⟨q, -, herror⟩ := filterExcept_error hpassed
    have hsome := h htrusted
    rw [(qualifies_error herror).2] at hsome
    cases hsome

lemma race_exists (hne : quotes ≠ []) (h : ∀ q ∈ quotes, Complete parse q) :
    ∃ r, race sort parse quotes inputPriceUsd fromChain toChain = .ok r := by
  have h : ∀ q ∈ raced quotes, Complete parse q := fun q hq => h q (raced_subset hq)
  obtain ⟨outPrice, hprice⟩ := rankingPrice_exists inputPriceUsd h
  obtain ⟨best, hbest⟩ := largest_exists (quoteNetScore · outPrice) (raced_ne_nil hne)
  have hrank : rankQuotesWithPrice sort parse quotes inputPriceUsd = .ok (best, outPrice) := by
    unfold rankQuotesWithPrice
    dsimp only
    rw [hprice, ok_bind, hbest, ok_bind]
    rfl
  obtain ⟨result, htiebreak⟩ := applySpeedTiebreak_exists quotes outPrice fromChain toChain
    (h best (rankQuotesWithPrice_ok hrank).2.1).2
  unfold race
  rw [hrank, ok_bind]
  dsimp only
  rw [htiebreak, ok_bind]
  exact ⟨_, rfl⟩

/-- For quotes of one amount, whose providers and whose scores are distinct. -/
theorem race_near_best (sort : Sorting ℚ) (parse : ParseFloat) (quotes : List SwapQuote)
    (inputPriceUsd : Option ℚ) (fromChain toChain : String) (hne : quotes ≠ [])
    (hamount : SameAmount quotes)
    (hproviders : (quotes.map SwapQuote.provider).Nodup)
    (hscores : ScoresDistinct sort parse quotes inputPriceUsd) :
    (∀ quotes', quotes.Perm quotes' → race sort parse quotes' inputPriceUsd fromChain toChain =
      race sort parse quotes inputPriceUsd fromChain toChain) ∧
    (∀ r, race sort parse quotes inputPriceUsd fromChain toChain = .ok r → NearBest quotes r) ∧
    ((∀ q ∈ quotes, Complete parse q) →
      ∃ r, race sort parse quotes inputPriceUsd fromChain toChain = .ok r) := by
  have hdistinct := Distinct.of_nodup hproviders
  refine ⟨fun quotes' h => ?_, fun r h => race_ok h hdistinct, race_exists hne⟩
  exact (race_perm h hamount hdistinct hscores).symm

/-- More tokens, for more gas. -/
def dearer : SwapQuote where
  provider := "lifi"
  fromAmountHuman := 100
  toAmountHuman := 100
  gasCostUsd := some 10
  estimatedTime := some 60
  rawQuote := .dict [("estimate", .dict [("toAmountUSD", .num (finite 100))])]
  gasCostTrusted := true
  timeTrusted := true

/-- Fewer tokens, for less gas. -/
def cheaper (fromAmount : ℚ) : SwapQuote where
  provider := "kyberswap"
  fromAmountHuman := fromAmount
  toAmountHuman := 99
  gasCostUsd := some 1
  estimatedTime := some 60
  rawQuote := .dict [("kyberswap_quote",
    .dict [("routeSummary", .dict [("amountOutUsd", .num (finite 99))])])]
  gasCostTrusted := true
  timeTrusted := true

/-- The scores are 90 and 98 with the gas, 100 and 99 without. -/
lemma scoresDistinct_cheaper (amount : ℚ)
    (hprice :
      (rankingPrice .insertion (fun _ => none) (raced [dearer, cheaper amount]) (some 1)).toOption =
      some (some (finite 1))) :
    ScoresDistinct .insertion (fun _ => none) [dearer, cheaper amount] (some 1) := by
  intro outPrice h
  rw [h] at hprice
  cases hprice
  refine Distinct.of_nodup ?_
  change [quoteNetScore dearer (some (finite 1)),
    quoteNetScore (cheaper amount) (some (finite 1))].Nodup
  norm_num [quoteNetScore, gasTokens, dearer, cheaper]

theorem race_near_best_cheaper :
    (∀ quotes', [dearer, cheaper 100].Perm quotes' →
      race .insertion (fun _ => none) quotes' (some 1) "base" "base" =
        race .insertion (fun _ => none) [dearer, cheaper 100] (some 1) "base" "base") ∧
    (∀ r, race .insertion (fun _ => none) [dearer, cheaper 100] (some 1) "base" "base" = .ok r →
      NearBest [dearer, cheaper 100] r) ∧
    ((∀ q ∈ [dearer, cheaper 100], Complete (fun _ => none) q) →
      ∃ r, race .insertion (fun _ => none) [dearer, cheaper 100] (some 1) "base" "base" = .ok r) :=
  race_near_best .insertion _ _ _ "base" "base" (List.cons_ne_nil _ _)
    (by simp [SameAmount, dearer, cheaper]) (by decide +kernel)
    (scoresDistinct_cheaper 100 (by decide +kernel))

/-- Of two amounts the value of the input is that of the quote that arrives first. -/
theorem race_depends_on_order :
    ¬ ∀ (sort : Sorting ℚ) (parse : ParseFloat) (quotes quotes' : List SwapQuote)
      (inputPriceUsd : Option ℚ) (fromChain toChain : String), quotes ≠ [] →
      (quotes.map SwapQuote.provider).Nodup →
      ScoresDistinct sort parse quotes inputPriceUsd → quotes.Perm quotes' →
      (race sort parse quotes inputPriceUsd fromChain toChain).toOption.map (·.winner.provider) =
        (race sort parse quotes' inputPriceUsd fromChain toChain).toOption.map
          (·.winner.provider) := by
  intro h
  have hwinner := h .insertion (fun _ => none) [dearer, cheaper 50] [cheaper 50, dearer]
    (some 1) "base" "base" (List.cons_ne_nil _ _) (by decide +kernel)
    (scoresDistinct_cheaper 50 (by decide +kernel))
    (List.Perm.swap _ _ _)
  revert hwinner
  decide +kernel

end Suwappu.SwapEngine.Quotes
