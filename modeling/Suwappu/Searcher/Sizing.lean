import Mathlib
import Suwappu.Searcher.Events

/-!
# Sizing

`optimize_grid` tries every point of the search domain. `optimize_unimodal_grid` narrows the domain
with two probes at a time, keeps what they evaluate to in a cache, and tries the points that are
left.
-/

namespace Suwappu.Searcher

open Checked Std

structure SizeSearch where
  minInput : Fixed
  maxInput : Fixed
  step : Fixed

structure SizeOptimum where
  input : Fixed
  netPnlQuote : Fixed
  evaluations : ℕ
deriving DecidableEq

inductive SizingError where
  | InvalidDomain | EvaluationBudgetExceeded | NoExecutablePoint | NonExecutablePoint | Overflow
deriving DecidableEq

/-! ### The grid -/

/-- The result of a checked operation. -/
def checkedFixed (z : ℤ) : Except SizingError Fixed :=
  if h : -2 ^ 127 ≤ z ∧ z < 2 ^ 127 then .ok ⟨z, h⟩ else .error .Overflow

def checkedDiv (a b : Fixed) : Except SizingError Fixed :=
  if b.val = 0 then .error .Overflow else checkedFixed (a.val.tdiv b.val)

def checkedRem (a b : Fixed) : Except SizingError Fixed :=
  if b.val = 0 then .error .Overflow else checkedFixed (a.val.tmod b.val)

def gridPointCount (search : SizeSearch) : Except SizingError ℕ := do
  guard (0 ≤ search.minInput.val ∧ search.minInput.val ≤ search.maxInput.val ∧ 0 < search.step.val)
    .InvalidDomain
  let span ← checkedFixed (search.maxInput.val - search.minInput.val)
  let fullSteps ← checkedDiv span search.step
  let remainder ← checkedRem span search.step
  let terminalPoint := if remainder.val = 0 then 0 else 1
  let points ← checkedFixed (fullSteps.val + 1)
  let points ← checkedFixed (points.val + terminalPoint)
  guard (0 ≤ points.val ∧ points.val < 2 ^ 64) .EvaluationBudgetExceeded
  return points.val.toNat

/-- The last point is the upper bound, wherever the step ends. -/
def inputAt (search : SizeSearch) (points index : ℕ) : Except SizingError Fixed :=
  if points ≤ index then .error .InvalidDomain
  else if index = points - 1 then .ok search.maxInput
  else do
    let offset ← checkedFixed (search.step.val * index)
    checkedFixed (search.minInput.val + offset.val)

/-! ### The oracle -/

section Oracle

variable (search : SizeSearch) (points : ℕ) (evaluate : Fixed → Option Fixed)

def tryPoint (best : Option SizeOptimum) (index : ℕ) :
    Except SizingError (Option SizeOptimum) := do
  let input ← inputAt search points index
  match evaluate input with
  | none     => return best
  | some net =>
    let replace := best.all fun current =>
      current.netPnlQuote.val < net.val ∨
        net = current.netPnlQuote ∧ input.val < current.input.val
    return if replace then some ⟨input, net, index + 1⟩ else best

def optimizeGrid (maxEvaluations : ℕ) : Except SizingError SizeOptimum := do
  let points ← gridPointCount search
  guard (points ≤ maxEvaluations) .EvaluationBudgetExceeded
  match ← (List.range points).foldlM (tryPoint search points evaluate) none with
  | none      => .error .NoExecutablePoint
  | some best => return { best with evaluations := points }

def optimizeProfitableGrid (maxEvaluations : ℕ) : Except SizingError (Option SizeOptimum) := do
  let best ← optimizeGrid search evaluate maxEvaluations
  return if 0 < best.netPnlQuote.val then some best else none

end Oracle

/-! ### The refinement -/

/-- The points evaluated so far. -/
structure Probes where
  evaluations : ℕ
  cache : TreeMap ℕ Fixed

/-- `saturating_add` of indexes -/
def saturatingAdd (a b : ℕ) : ℕ := min (a + b) (2 ^ 64 - 1)

section Refinement

variable (search : SizeSearch) (points maxEvaluations : ℕ) (evaluate : Fixed → Option Fixed)

def evalIndex (s : Probes) (index : ℕ) : Except SizingError (Fixed × Probes) :=
  match s.cache[index]? with
  | some value => .ok (value, s)
  | none       => do
    guard (s.evaluations < maxEvaluations) .EvaluationBudgetExceeded
    let input ← inputAt search points index
    match evaluate input with
    | none     => .error .NonExecutablePoint
    | some net => return (net, ⟨saturatingAdd s.evaluations 1, s.cache.insert index net⟩)

def third (left right : ℕ) : ℕ := (right - left) / 3

/-- The loop over the bounds, with a bound on its rounds. -/
def narrow : ℕ → ℕ × ℕ → Probes → Except SizingError ((ℕ × ℕ) × Probes)
  | 0, bounds, s                  => .ok (bounds, s)
  | rounds + 1, (left, right), s =>
    if 8 < right - left then do
      let m1 := left + third left right
      let m2 := right - third left right
      let (v1, s) ← evalIndex search points maxEvaluations evaluate s m1
      let (v2, s) ← evalIndex search points maxEvaluations evaluate s m2
      if v1.val < v2.val then narrow rounds (saturatingAdd m1 1, right) s
      else narrow rounds (left, m2 - 1) s
    else .ok ((left, right), s)

def tryIndex (found : Option (ℕ × Fixed) × Probes) (index : ℕ) :
    Except SizingError (Option (ℕ × Fixed) × Probes) := do
  let (best, s) := found
  let (net, s) ← evalIndex search points maxEvaluations evaluate s index
  let replace := best.all fun current =>
    current.2.val < net.val ∨ net = current.2 ∧ index < current.1
  return (if replace then some (index, net) else best, s)

def optimizeUnimodalGrid : Except SizingError SizeOptimum := do
  let points ← gridPointCount search
  guard (maxEvaluations ≠ 0) .EvaluationBudgetExceeded
  let ((left, right), s) ← narrow search points maxEvaluations evaluate points (0, points - 1)
    ⟨0, ∅⟩
  let (best, s) ← (List.range' left (right + 1 - left)).foldlM
    (tryIndex search points maxEvaluations evaluate) (none, s)
  match best with
  | none              => .error .NoExecutablePoint
  | some (index, net) =>
    let input ← inputAt search points index
    return ⟨input, net, s.evaluations⟩

end Refinement

end Suwappu.Searcher
