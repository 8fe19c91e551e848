import Suwappu.SwapEngine.Quotes

/-!
# The median price

`deriveMedianOutputPrice_iff`: where most of the prices that the quotes of a race expose are honest
and close to one another, the price that is derived is among the honest ones, if no quote exposes a
NaN. A NaN passes for a price, and sorting may put it into the middle.
-/

namespace Suwappu.SwapEngine.Quotes

open Extended Median

variable {sort : Sorting ℚ} {parse : ParseFloat} {quotes quotes' : List SwapQuote}
  {quote : SwapQuote} {p lo hi : Extended ℚ} {values : List (Extended ℚ)}

lemma exposedPrice_cases (h : exposedPrice parse quote = some p) : p = nan ∨ finite 0 < p := by
  unfold exposedPrice extractOutputUsdPrice at h
  by_cases hamount : quote.toAmountHuman ≤ 0
  · rw [if_pos hamount] at h
    cases h
  rw [if_neg hamount] at h
  cases hraw : quote.rawQuote with
  | dict fields =>
    rw [hraw] at h
    dsimp only at h
    cases hreported : reportedOutputUsd quote.provider fields with
    | ok usdValue =>
      rw [hreported, Checked.ok_bind] at h
      obtain ⟨usd, husd, rfl⟩ := Option.map_eq_some_iff.mp h
      have hnot := of_decide_eq_true (Option.filter_eq_some_iff.mp husd).2
      by_cases hnan : usd = nan
      · rw [hnan]
        exact .inl rfl
      · exact .inr (finite_lt_div (not_le.mp hamount)
          (not_le.mp fun hle => hnot ((isLE_iff hnan).mpr hle)))
    | error e =>
      rw [hreported] at h
      cases h
  | _ =>
    rw [hraw] at h
    cases h

/-! ### The candidates -/

/-- The prices that quotes expose, in the order of their arrival. -/
def exposedPrices (parse : ParseFloat) (quotes : List SwapQuote) : List (Extended ℚ) :=
  quotes.filterMap (exposedPrice parse)

def positivePrices (parse : ParseFloat) (quotes : List SwapQuote) : List (Extended ℚ) :=
  (exposedPrices parse quotes).filter (finite 0 < ·)

lemma candidates_perm : (candidates parse quotes).Perm (exposedPrices parse quotes) :=
  (List.perm_insertionSort _ quotes).filterMap _

lemma pos_of_mem_positivePrices (h : p ∈ positivePrices parse quotes) : finite 0 < p :=
  of_decide_eq_true (List.mem_filter.mp h).2

lemma positivePrices_eq (h : nan ∉ exposedPrices parse quotes) :
    positivePrices parse quotes = exposedPrices parse quotes := by
  refine List.filter_eq_self.mpr fun p hp => decide_eq_true ?_
  obtain ⟨quote, -, hquote⟩ := List.mem_filterMap.mp hp
  exact (exposedPrice_cases hquote).resolve_left fun hnan => h (hnan ▸ hp)

/-! ### Medians -/

lemma median_between (h : Majority lo hi values) (hlo : finite 0 < lo) (hnan : nan ∉ values) :
    lo ≤ median sort values ∧ median sort values ≤ hi :=
  (h.perm (sort.perm values).symm).middle (sort.pairwise values hnan)
    fun _ _ ha hb => mean_between hlo ha hb

/-- What is compared with a median is no NaN. -/
lemma nan_notMem_near {rawMedian : Extended ℚ} : nan ∉ near rawMedian values := by
  intro h
  exact (of_decide_eq_true (List.mem_filter.mp h).2).2.1 rfl

/-- Where something is near to a median that is not at most zero, the median is positive. -/
lemma pos_of_mem_near {rawMedian : Extended ℚ} (hraw : ¬ rawMedian.IsLE (finite 0))
    (h : p ∈ near rawMedian values) : finite 0 < rawMedian := by
  have hne : rawMedian ≠ nan := by
    rintro rfl
    exact (of_decide_eq_true (List.mem_filter.mp h).2).1.1 rfl
  exact not_le.mp fun hle => hraw ((isLE_iff hne).mpr hle)

/-- A median in a narrow interval is near to all of its values. -/
lemma majority_near {rawMedian : Extended ℚ} (h : Majority lo hi values) (hpos : finite 0 < lo)
    (hnarrow : hi ≤ (finite 2).mul lo) (hlo : lo ≤ rawMedian) (hhi : rawMedian ≤ hi) :
    Majority lo hi (near rawMedian values) := by
  have hmedian : finite 0 < rawMedian := hpos.trans_le hlo
  have hhalf : (finite (1 / 2)).mul rawMedian ≤ lo := by
    have hle := mul_mono one_half_pos hmedian (hhi.trans hnarrow)
    rwa [mul_mul one_half_pos two_pos hpos, one_div_mul_cancel two_ne_zero,
      finite_one_mul hpos] at hle
  have hdouble : hi ≤ (finite 2).mul rawMedian := hnarrow.trans (mul_mono two_pos hpos hlo)
  refine h.filter fun p hlop hphi => decide_eq_true ⟨?_, ?_⟩
  · have hne : (finite (1 / 2)).mul rawMedian ≠ nan :=
      fun hnan => not_finite_lt_nan (hnan ▸ finite_mul_pos one_half_pos hmedian)
    exact (isLE_iff hne).mpr (hhalf.trans hlop)
  · have hne : p ≠ nan := fun hnan => not_finite_lt_nan (hnan ▸ hpos.trans_le hlop)
    exact (isLE_iff hne).mpr (hphi.trans hdouble)

/-- Where most prices lie in a narrow interval, so does the price that is derived. -/
lemma deriveMedianOutputPrice_of_majority (htwo : 2 ≤ (exposedPrices parse quotes).length)
    (hmajority : Majority lo hi (exposedPrices parse quotes)) (hpos : finite 0 < lo)
    (hnarrow : hi ≤ (finite 2).mul lo) (hnan : nan ∉ exposedPrices parse quotes) :
    ∃ price, deriveMedianOutputPrice sort parse quotes = some price ∧ lo ≤ price ∧ price ≤ hi := by
  have hmajority := hmajority.perm candidates_perm.symm
  have hmedian : lo ≤ median sort (candidates parse quotes) ∧ _ ≤ hi :=
    median_between hmajority hpos fun h => hnan (candidates_perm.mem_iff.mp h)
  have hnear := majority_near hmajority hpos hnarrow hmedian.1 hmedian.2
  have hne : near (median sort (candidates parse quotes)) (candidates parse quotes) ≠ [] := by
    intro hnil
    rw [hnil] at hnear
    exact absurd hnear (lt_irrefl 0)
  rw [← candidates_perm.length_eq] at htwo
  refine ⟨median sort _, ?_, median_between hnear hpos nan_notMem_near⟩
  unfold deriveMedianOutputPrice
  dsimp only
  rw [if_neg (not_lt.mpr htwo), if_neg, if_neg hne]
  exact fun hle => not_le.mpr (hpos.trans_le hmedian.1) hle.2

/-! ### NaN -/

lemma median_middling (h : nan ∈ values) : median .middling values = nan := by
  have hmiddle := Sorting.middling_getElem? h
  have hlength : (Sorting.middling.sorted values).length = values.length :=
    (Sorting.middling.perm values).length_eq
  unfold median middle
  dsimp only
  rw [hlength, List.getD_eq_getElem?_getD, List.getD_eq_getElem?_getD, hmiddle, Option.getD_some]
  split_ifs
  · rfl
  · exact mean_nan_right

/-- Nothing is near to NaN. -/
lemma near_nan : near nan values = [] :=
  List.filter_eq_nil_iff.mpr fun _ _ h => (of_decide_eq_true h).1.1 rfl

lemma deriveMedianOutputPrice_middling (h : nan ∈ exposedPrices parse quotes) :
    deriveMedianOutputPrice .middling parse quotes = none := by
  have hmem : nan ∈ candidates parse quotes := candidates_perm.mem_iff.mpr h
  unfold deriveMedianOutputPrice
  dsimp only
  rw [median_middling hmem, near_nan, if_pos rfl]
  split_ifs <;> rfl

/-! ### Honest prices -/

/-- The prices of honest quotes. -/
def honestPrices (parse : ParseFloat) (honest : SwapQuote → Bool) (quotes : List SwapQuote) :
    List (Extended ℚ) :=
  positivePrices parse (quotes.filter honest)

/-- The price that is derived is between the smallest and the largest honest one. -/
def Resists (sort : Sorting ℚ) (parse : ParseFloat) (honest : SwapQuote → Bool)
    (quotes : List SwapQuote) : Prop :=
  ∃ price lo hi, deriveMedianOutputPrice sort parse quotes = some price ∧
    IsLeast {p | p ∈ honestPrices parse honest quotes} lo ∧
    IsGreatest {p | p ∈ honestPrices parse honest quotes} hi ∧ lo ≤ price ∧ price ≤ hi

lemma majority_of_honestPrices {honest : SwapQuote → Bool}
    (hmost : (positivePrices parse quotes).length < 2 * (honestPrices parse honest quotes).length)
    (hbetween : ∀ p ∈ honestPrices parse honest quotes, lo ≤ p ∧ p ≤ hi) :
    Majority lo hi (positivePrices parse quotes) := by
  have hsub : (honestPrices parse honest quotes).Sublist (positivePrices parse quotes) :=
    (List.filter_sublist.filterMap _).filter _
  have hall : (honestPrices parse honest quotes).countP (fun p => lo ≤ p ∧ p ≤ hi) =
      (honestPrices parse honest quotes).length :=
    List.countP_eq_length.mpr fun p hp => decide_eq_true (hbetween p hp)
  have hle := hsub.countP_le (p := fun p => lo ≤ p ∧ p ≤ hi)
  rw [Majority]
  omega

/-- Whatever the other quotes report, in whatever order the quotes arrive and however lists with a
NaN are sorted, the price is an honest one if and only if no quote exposes a NaN. -/
theorem deriveMedianOutputPrice_iff (parse : ParseFloat) (honest : SwapQuote → Bool)
    (quotes : List SwapQuote) (htwo : 2 ≤ (positivePrices parse quotes).length)
    (hmost : (positivePrices parse quotes).length < 2 * (honestPrices parse honest quotes).length)
    (hclose : ∀ p ∈ honestPrices parse honest quotes, ∀ p' ∈ honestPrices parse honest quotes,
      p ≤ (finite 2).mul p') :
    (∀ sort, Resists sort parse honest quotes) ↔ nan ∉ exposedPrices parse quotes := by
  constructor
  · intro h hnan
    obtain ⟨price, -, -, hprice, -⟩ := h .middling
    rw [deriveMedianOutputPrice_middling hnan] at hprice
    cases hprice
  · intro hnan sort
    have hne : (honestPrices parse honest quotes).toFinset.Nonempty := by
      rw [List.toFinset_nonempty_iff, ← List.length_pos_iff]
      omega
    obtain ⟨lo, hlo, hmin⟩ := Finset.exists_min_image _ id hne
    obtain ⟨hi, hhi, hmax⟩ := Finset.exists_max_image _ id hne
    simp only [List.mem_toFinset, id] at hlo hmin hhi hmax
    have hpos : finite 0 < lo := pos_of_mem_positivePrices hlo
    have hmajority := majority_of_honestPrices hmost fun p hp => ⟨hmin p hp, hmax p hp⟩
    rw [positivePrices_eq hnan] at htwo hmajority
    obtain ⟨price, hprice, hbetween⟩ :=
      deriveMedianOutputPrice_of_majority htwo hmajority hpos (hclose hi hhi lo hlo) hnan
    exact ⟨price, lo, hi, hprice, ⟨hlo, hmin⟩, ⟨hhi, hmax⟩, hbetween⟩

/-- A quote of 100 tokens that reports their value under some key of its answer. -/
def reporting (provider key field : String) (usd : Value) : SwapQuote where
  provider := provider
  fromAmountHuman := 1
  toAmountHuman := 100
  gasCostUsd := some 1
  estimatedTime := some 60
  rawQuote := .dict [(key, .dict [(field, usd)])]
  gasCostTrusted := true
  timeTrusted := true

/-- A figure that is off by a factor of a million and an infinite one, among prices of 1 and 1.1. -/
def outliers : List SwapQuote :=
  [reporting "zerox" "zerox_quote" "outputUsd" (.num (finite 100000000)),
    reporting "okx" "okx_quote" "toAmountUSD" (.num (finite 110)),
    reporting "lifi" "estimate" "toAmountUSD" (.num (finite 100)),
    reporting "socket" "socket_quote" "outputUsd" (.num inf),
    reporting "paraswap" "paraswap_quote" "outputUsd" (.num (finite 105))]

theorem deriveMedianOutputPrice_outliers : Resists .insertion (fun _ => none)
    (fun q => q.provider ≠ "zerox" ∧ q.provider ≠ "socket") outliers :=
  (deriveMedianOutputPrice_iff _ _ outliers (by decide +kernel) (by decide +kernel)
    (by decide +kernel)).mpr (by decide +kernel) .insertion

/-- `float` of the text of NaN -/
def parseNaN : ParseFloat := fun s => if s = "NaN" then some nan else none

/-- Two prices of 1 and 1.1 and a NaN, which is visited between them. -/
def withNaN : List SwapQuote :=
  [{ reporting "kyberswap" "kyberswap_quote" "" .none with
      rawQuote := .dict [("kyberswap_quote",
        .dict [("routeSummary", .dict [("amountOutUsd", .num (finite 100))])])] },
    reporting "lifi" "estimate" "toAmountUSD" (.str "NaN"),
    reporting "okx" "okx_quote" "toAmountUSD" (.num (finite 110))]

/-- No price is derived. -/
theorem not_resists_withNaN :
    ¬ ∀ (sort : Sorting ℚ) (parse : ParseFloat) (honest : SwapQuote → Bool)
      (quotes : List SwapQuote), 2 ≤ (positivePrices parse quotes).length →
      (positivePrices parse quotes).length < 2 * (honestPrices parse honest quotes).length →
      (∀ p ∈ honestPrices parse honest quotes, ∀ p' ∈ honestPrices parse honest quotes,
        p ≤ (finite 2).mul p') → Resists sort parse honest quotes := by
  intro h
  obtain ⟨price, -, -, hprice, -⟩ := h .insertion parseNaN (fun q => q.provider ≠ "lifi") withNaN
    (by decide +kernel) (by decide +kernel) (by decide +kernel)
  have hnone : deriveMedianOutputPrice .insertion parseNaN withNaN = none := by decide +kernel
  rw [hnone] at hprice
  cases hprice

end Suwappu.SwapEngine.Quotes
