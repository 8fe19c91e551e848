import Mathlib.Data.List.MinMax
import Mathlib.Data.Prod.Lex
import Mathlib.Data.String.Basic
import Suwappu.Lib.Checked
import Suwappu.Lib.Extended
import Suwappu.Lib.Median

/-!
# Quotes in a race

The helpers that rank the quotes of a race: the price of the output token that the quotes imply, the
choice of a quote, the tiebreak by speed and the improvement over the runner-up.

Numbers are exact; what a provider reports may be infinite or NaN as well. Of a quote what no helper
reads is left out, and of the tiebreak its telemetry.
-/

namespace Suwappu.SwapEngine.Quotes

open Checked Extended

/-- What a provider has answered. -/
inductive Value where
  | none
  | bool (b : Bool)
  | num (x : Extended ℚ)
  | str (s : String)
  | list (values : List Value)
  | dict (fields : List (String × Value))

structure SwapQuote where
  provider : String
  fromAmountHuman : ℚ
  toAmountHuman : ℚ
  gasCostUsd : Option ℚ
  /-- seconds -/
  estimatedTime : Option ℚ
  rawQuote : Value
  gasCostTrusted : Bool
  timeTrusted : Bool

inductive Error where
  /-- of what is no dict something is read -/
  | AttributeError
  /-- half of a time that is missing -/
  | TypeError
  /-- the largest of no quotes -/
  | ValueError
deriving DecidableEq, Repr

/-! ### Reading an answer -/

/-- `value.get(key)` -/
def Value.get (value : Value) (key : String) : Except Error Value :=
  match value with
  | .dict fields => .ok ((fields.lookup key).getD .none)
  | _            => .error .AttributeError

/-- `value or {}` -/
def Value.orEmpty : Value → Value
  | .none | .bool false | .list [] => .dict []
  | .num x => if x = finite 0 then .dict [] else .num x
  | .str s => if s = "" then .dict [] else .str s
  | value  => value

/-- `value.get(key, {})` -/
def Value.getDict (value : Value) (key : String) : Except Error Value :=
  match value with
  | .dict fields => .ok ((fields.lookup key).getD (.dict []))
  | _            => .error .AttributeError

def OUTPUT_USD_KEYS : List String := ["toAmountUSD", "amountOutUsd", "outputUsd", "to_amount_usd"]

/-- The first of the keys that is there. -/
def scan (fields : List (String × Value)) : Option Value :=
  OUTPUT_USD_KEYS.findSome? fun key => fields.lookup key

/-- A figure that is not None. -/
def Value.figure : Value → Option Value
  | .none => .none
  | value => some value

/-- The top level first, then the nested dicts. -/
def scanNested (fields : List (String × Value)) : Option Value :=
  ((scan fields).bind Value.figure).or (fields.findSome? fun field =>
    match field.2 with
    | .dict nested => (scan nested).bind Value.figure
    | _            => none)

/-- `float` of a text -/
abbrev ParseFloat := String → Option (Extended ℚ)

variable (sort : Sorting ℚ) (parse : ParseFloat)

/-- `float(value)`, where it raises neither a TypeError nor a ValueError -/
def Value.float : Value → Option (Extended ℚ)
  | .num x  => some x
  | .bool b => some (finite (if b then 1 else 0))
  | .str s  => parse s
  | _       => .none

/-- The figure that an answer gives for the output, or None. -/
def reportedOutputUsd (provider : String) (fields : List (String × Value)) :
    Except Error (Option Value) :=
  if provider = "lifi" then do
    let estimate ← (Value.dict fields).get "estimate"
    let usdValue ← estimate.orEmpty.get "toAmountUSD"
    return usdValue.figure
  else if provider = "kyberswap" then do
    let kyberswap ← (Value.dict fields).get "kyberswap_quote"
    let routeSummary ← kyberswap.orEmpty.getDict "routeSummary"
    let usdValue ← routeSummary.get "amountOutUsd"
    return usdValue.figure
  else return scanNested fields

/-- NaN is not at most zero, so it goes on. -/
def extractOutputUsdPrice (quote : SwapQuote) : Except Error (Option (Extended ℚ)) :=
  if quote.toAmountHuman ≤ 0 then return none
  else match quote.rawQuote with
  | .dict fields => do
    let usdValue ← reportedOutputUsd quote.provider fields
    let usdValue := (usdValue.bind (Value.float parse)).filter fun usd => ¬ usd.IsLE (finite 0)
    return usdValue.map (·.div quote.toAmountHuman)
  | _ => return none

def extractInputUsdValue (quote : SwapQuote) : Except Error (Option (Extended ℚ)) :=
  match quote.rawQuote with
  | .dict fields =>
    if quote.provider = "lifi" then do
      let estimate ← (Value.dict fields).get "estimate"
      let val ← estimate.orEmpty.get "fromAmountUSD"
      return (val.float parse).filter fun v => (finite 0).IsLT v
    else return none
  | _ => return none

/-! ### Prices -/

/-- `gas / price`, which is nothing where the price is infinite; the price is never NaN. -/
def gasTokens (gas : ℚ) : Extended ℚ → ℚ
  | finite price => gas / price
  | _            => 0

/-- `_quote_net_score` -/
def quoteNetScore (quote : SwapQuote) (outPrice : Option (Extended ℚ)) : ℚ :=
  match outPrice with
  | some price =>
    if price = finite 0 then quote.toAmountHuman
    else quote.toAmountHuman - gasTokens (quote.gasCostUsd.getD 0) price
  | none => quote.toAmountHuman

/-- The price that a quote exposes; what is raised is swallowed. -/
def exposedPrice (quote : SwapQuote) : Option (Extended ℚ) :=
  match extractOutputUsdPrice parse quote with
  | .ok price => price
  | .error _  => none

def candidates (quotes : List SwapQuote) : List (Extended ℚ) :=
  (quotes.insertionSort fun q q' => q.provider ≤ q'.provider).filterMap (exposedPrice parse)

/-- `_median` -/
def median (values : List (Extended ℚ)) : Extended ℚ :=
  Median.middle mean nan (sort.sorted values)

/-- The prices between half and twice a median. -/
def near (rawMedian : Extended ℚ) (candidates : List (Extended ℚ)) : List (Extended ℚ) :=
  candidates.filter fun p =>
    ((finite (1 / 2)).mul rawMedian).IsLE p ∧ p.IsLE ((finite 2).mul rawMedian)

def deriveMedianOutputPrice (quotes : List SwapQuote) : Option (Extended ℚ) :=
  let candidates := candidates parse quotes
  if candidates.length < 2 then none
  else
    let rawMedian := median sort candidates
    if rawMedian.IsLE (finite 0) then none
    else
      let filtered := near rawMedian candidates
      if filtered = [] then none else some (median sort filtered)

def oracleInputUsdValue (quotes : List SwapQuote) (inputPriceUsd : Option ℚ) : Option ℚ := do
  let price ← inputPriceUsd
  let quote ← quotes.head?
  if price ≤ 0 ∨ quote.fromAmountHuman ≤ 0 then none else some (price * quote.fromAmountHuman)

/-- The first value that a provider reports. -/
def providerInputUsdValue : List SwapQuote → Except Error (Option (Extended ℚ))
  | []              => .ok none
  | quote :: quotes => do
    match ← extractInputUsdValue parse quote with
    | some v => return some v
    | none   => providerInputUsdValue quotes

def inputUsdSourcesDisagree (quotes : List SwapQuote) (inputPriceUsd : Option ℚ) :
    Except Error Bool := do
  let oracle := oracleInputUsdValue quotes inputPriceUsd
  let provider ← providerInputUsdValue parse quotes
  return match oracle, provider with
  | some oracle, some provider =>
    oracle > 0 ∧ (finite (1 / 4)).IsLT (((finite oracle).add provider.neg).abs.div oracle)
  | _, _ => false

/-! ### The ranking -/

/-- Wormhole takes part only where it is the only one. -/
def raced (quotes : List SwapQuote) : List SwapQuote :=
  let others := quotes.filter fun q => q.provider ≠ "wormhole"
  if others = [] then quotes else others

/-- `max(ranked, key=score)`, the first of the largest -/
def largest (score : SwapQuote → ℚ) (ranked : List SwapQuote) : Except Error SwapQuote :=
  match ranked.argmax score with
  | some q => .ok q
  | none   => .error .ValueError

/-- The gas is more than half of the value of the trade. -/
def absurdGas (outPrice : Extended ℚ) (inputUsd : Option ℚ) (q : SwapQuote) : Bool :=
  let gas := q.gasCostUsd.getD 0
  let tradeValue := (inputUsd.map finite).getD ((finite q.toAmountHuman).mul outPrice)
  0 < gas ∧ (finite 0).IsLT tradeValue ∧ ((finite (1 / 2)).mul tradeValue).IsLT (finite gas)

/-- The value of the output is off that of the input. -/
def deviates (outPrice : Extended ℚ) (inputUsd : ℚ) (q : SwapQuote) : Bool :=
  let impliedOutputUsd := (finite q.toAmountHuman).mul outPrice
  impliedOutputUsd.IsLE (finite 0) ∨
    (finite (1 / 4)).IsLT ((impliedOutputUsd.add (finite (-inputUsd))).abs.div inputUsd)

/-- The gas is more than a twentieth of the output. -/
def clamped (outPrice : Extended ℚ) (q : SwapQuote) : Bool :=
  0 < q.toAmountHuman ∧ gasTokens (q.gasCostUsd.getD 0) outPrice > 1 / 20 * q.toAmountHuman

/-- The price that the ranking nets gas with, or none where it falls back to the gross amounts. -/
def rankingPrice (ranked : List SwapQuote) (inputPriceUsd : Option ℚ) :
    Except Error (Option (Extended ℚ)) := do
  if ranked.length = 1 ∨ ¬ ranked.all SwapQuote.gasCostTrusted then return none
  match deriveMedianOutputPrice sort parse ranked with
  | none          => return none
  | some outPrice =>
    if ← inputUsdSourcesDisagree parse ranked inputPriceUsd then return none
    let inputUsd := oracleInputUsdValue ranked inputPriceUsd
    if ranked.any (absurdGas outPrice inputUsd) then return none
    let implausible := match inputUsd with
      | some inputUsd => ranked.any (deviates outPrice inputUsd)
      | none          => ranked.any (clamped outPrice)
    return if implausible then none else some outPrice

/-- `_rank_quotes_with_price` -/
def rankQuotesWithPrice (quotes : List SwapQuote) (inputPriceUsd : Option ℚ) :
    Except Error (SwapQuote × Option (Extended ℚ)) := do
  let ranked := raced quotes
  let outPrice ← rankingPrice sort parse ranked inputPriceUsd
  let best ← largest (quoteNetScore · outPrice) ranked
  return (best, outPrice)

/-! ### The tiebreak -/

/-- A quote that is faster than the best one and about as good. -/
def qualifies (best : SwapQuote) (outPrice : Option (Extended ℚ)) (q : SwapQuote) :
    Except Error Bool :=
  if q.provider = best.provider ∨ ¬ q.timeTrusted then .ok false
  else match q.estimatedTime, best.estimatedTime with
    | none, _               => .ok false
    | some _, none          => .error .TypeError
    | some time, some best' =>
      let winnerScore := quoteNetScore best outPrice
      let diff := winnerScore - quoteNetScore q outPrice
      .ok (time < best' / 2 ∧ 0 ≤ diff ∧ diff ≤ 1 / 1000 * winnerScore)

/-- The quotes that a check lets pass. -/
def filterExcept (check : SwapQuote → Except Error Bool) :
    List SwapQuote → Except Error (List SwapQuote)
  | []              => .ok []
  | quote :: quotes => do
    let passes ← check quote
    let rest ← filterExcept check quotes
    return if passes then quote :: rest else rest

/-- The faster quote comes first; of two as fast ones, that of the first provider by name. -/
def SwapQuote.speed (q : SwapQuote) : ℚ ×ₗ String := toLex (q.estimatedTime.getD 0, q.provider)

/-- `_apply_speed_tiebreak`, and whether it has changed the winner -/
def applySpeedTiebreak (quotes : List SwapQuote) (best : SwapQuote)
    (outPrice : Option (Extended ℚ)) (fromChain toChain : String) :
    Except Error (SwapQuote × Bool) := do
  let ranked := raced quotes
  if fromChain.toLower = toChain.toLower ∨ ranked.length ≤ 1 ∨ quoteNetScore best outPrice ≤ 0
      ∨ ¬ best.timeTrusted then
    return (best, false)
  let candidates ← filterExcept (qualifies best outPrice) ranked
  return match candidates.insertionSort (fun q q' => q.speed ≤ q'.speed) with
  | []           => (best, false)
  | fastest :: _ => (fastest, true)

/-! ### The receipt -/

/-- `_select_runner_up` -/
def selectRunnerUp (quotes : List SwapQuote) (best : SwapQuote)
    (outPriceUsed : Option (Extended ℚ)) : Option SwapQuote :=
  ((raced quotes).filter fun q => q.provider ≠ best.provider).argmax (quoteNetScore · outPriceUsed)

/-- `_compute_price_improvement_usd` -/
def computePriceImprovementUsd (winner : SwapQuote) (runnerUp : Option SwapQuote)
    (outPriceUsed : Option (Extended ℚ)) : Option (Extended ℚ) := do
  let runnerUp ← runnerUp
  let price ← outPriceUsed
  if price = finite 0 then none
  else
    let deltaNet := quoteNetScore winner outPriceUsed - quoteNetScore runnerUp outPriceUsed
    some (if deltaNet ≤ 0 then finite 0 else (finite deltaNet).mul price)

/-- What comes of a race. -/
structure Outcome where
  winner : SwapQuote
  outPriceUsed : Option (Extended ℚ)
  tiebreak : Bool
  priceImprovementUsd : Option (Extended ℚ)

/-- `get_quote`, once the quotes are there: no improvement is recorded after a tiebreak. -/
def race (quotes : List SwapQuote) (inputPriceUsd : Option ℚ) (fromChain toChain : String) :
    Except Error Outcome := do
  let (best, outPriceUsed) ← rankQuotesWithPrice sort parse quotes inputPriceUsd
  let (winner, tiebreak) ← applySpeedTiebreak quotes best outPriceUsed fromChain toChain
  return ⟨winner, outPriceUsed, tiebreak, if tiebreak then none
    else computePriceImprovementUsd winner (selectRunnerUp quotes winner outPriceUsed) outPriceUsed⟩

end Suwappu.SwapEngine.Quotes
