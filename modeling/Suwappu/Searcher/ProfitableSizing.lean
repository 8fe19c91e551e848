import Suwappu.Searcher.UnimodalSizing

/-!
# Profitable sizes

`optimize_profitable_grid` on any function, which may be executable at few points and have any
shape. `most_profitable`: it returns the largest profit there is, at the smallest input that makes
it, and nothing only where no executable point makes one.
-/

namespace Suwappu.Searcher

open Checked

variable {search : SizeSearch} {points tried : ℕ} {evaluate : Fixed → Option Fixed}
  {best : SizeOptimum} {found : Option SizeOptimum} {p maxEvaluations : ℕ} {input net : Fixed}

/-- What a point makes, where it is executable. -/
def Makes (search : SizeSearch) (points : ℕ) (evaluate : Fixed → Option Fixed) (index : ℕ)
    (input net : Fixed) : Prop :=
  inputAt search points index = .ok input ∧ evaluate input = some net

/-- The best of the points tried, and the first of its kind. -/
structure BestOf (search : SizeSearch) (points : ℕ) (evaluate : Fixed → Option Fixed) (tried : ℕ)
    (best : SizeOptimum) (p : ℕ) : Prop where
  lt : p < tried
  makes : Makes search points evaluate p best.input best.netPnlQuote
  max : ∀ i < tried, ∀ input net, Makes search points evaluate i input net →
    net < best.netPnlQuote ∨ net = best.netPnlQuote ∧ p ≤ i

/-- No point tried is executable, or the best one has been found. -/
def Found (search : SizeSearch) (points : ℕ) (evaluate : Fixed → Option Fixed) (tried : ℕ) :
    Option SizeOptimum → Prop
  | none      => ∀ i < tried, ∀ input net, ¬ Makes search points evaluate i input net
  | some best => ∃ p, BestOf search points evaluate tried best p

lemma Makes.unique {index : ℕ} {input' net' : Fixed}
    (h : Makes search points evaluate index input net)
    (h' : Makes search points evaluate index input' net') : input' = input ∧ net' = net := by
  obtain rfl : input' = input := Except.ok.inj (h'.1.symm.trans h.1)
  exact ⟨rfl, Option.some.inj (h'.2.symm.trans h.2)⟩

/-- A point that makes no more changes nothing. -/
lemma BestOf.keep (h : BestOf search points evaluate tried best p)
    (hnext : ∀ input net, Makes search points evaluate tried input net →
      net ≤ best.netPnlQuote) :
    BestOf search points evaluate (tried + 1) best p := by
  refine ⟨h.lt.trans (Nat.lt_succ_self tried), h.makes, fun i hi input net hmakes => ?_⟩
  rcases Nat.lt_succ_iff_lt_or_eq.mp hi with hlt | rfl
  · exact h.max i hlt input net hmakes
  · rcases (hnext input net hmakes).lt_or_eq with hless | hsame
    · exact .inl hless
    · exact .inr ⟨hsame, h.lt.le⟩

/-- A point that makes more than all before it is the best. -/
lemma bestOf_new (hmakes : Makes search points evaluate tried input net) (evaluations : ℕ)
    (hless : ∀ i < tried, ∀ input' net', Makes search points evaluate i input' net' →
      net' < net) :
    BestOf search points evaluate (tried + 1) ⟨input, net, evaluations⟩ tried := by
  refine ⟨Nat.lt_succ_self tried, hmakes, fun i hi input' net' hmakes' => ?_⟩
  rcases Nat.lt_succ_iff_lt_or_eq.mp hi with hlt | rfl
  · exact .inl (hless i hlt input' net' hmakes')
  · exact .inr ⟨(hmakes.unique hmakes').2, le_rfl⟩

lemma Found.tryPoint (hgrid : OnGrid search points)
    (h : Found search points evaluate tried found) (htried : tried < points) :
    ∃ found', Searcher.tryPoint search points evaluate found tried = .ok found' ∧
      Found search points evaluate (tried + 1) found' := by
  obtain ⟨input, hinput, -⟩ := exists_inputAt hgrid htried
  unfold Searcher.tryPoint
  rw [hinput, ok_bind]
  cases hnet : evaluate input with
  | none =>
    have hnone (input' net' : Fixed) : ¬ Makes search points evaluate tried input' net' := by
      rintro ⟨hinput', hnet'⟩
      rw [← Except.ok.inj (hinput.symm.trans hinput'), hnet] at hnet'
      cases hnet'
    refine ⟨found, rfl, ?_⟩
    cases found with
    | none =>
      intro i hi input' net' hmakes
      rcases Nat.lt_succ_iff_lt_or_eq.mp hi with hlt | rfl
      · exact h i hlt input' net' hmakes
      · exact hnone input' net' hmakes
    | some best =>
      obtain ⟨p, hbest⟩ := h
      exact ⟨p, hbest.keep fun input' net' hmakes => absurd hmakes (hnone input' net')⟩
  | some net =>
    have hmakes : Makes search points evaluate tried input net := ⟨hinput, hnet⟩
    cases found with
    | none =>
      exact ⟨_, rfl, tried, bestOf_new hmakes _ fun i hi input' net' hmakes' =>
        absurd hmakes' (h i hi input' net')⟩
    | some best =>
      obtain ⟨p, hbest⟩ := h
      by_cases hlt : best.netPnlQuote < net
      · refine ⟨some ⟨input, net, tried + 1⟩, by simp [hlt, pure, Except.pure], tried,
          bestOf_new hmakes _ fun i hi input' net' hmakes' => ?_⟩
        rcases hbest.max i hi input' net' hmakes' with hless | ⟨hsame, -⟩
        · exact hless.trans hlt
        · exact hsame ▸ hlt
      · -- a point that comes later is at a larger input
        have hlater : ¬ input < best.input :=
          not_lt.mpr (inputAt_lt hgrid hbest.lt htried hbest.makes.1 hinput).le
        refine ⟨some best, by simp [hlt, hlater, pure, Except.pure], p,
          hbest.keep fun input' net' hmakes' => ?_⟩
        rw [(hmakes.unique hmakes').2]
        exact not_lt.mp hlt

lemma found_foldlM (evaluate : Fixed → Option Fixed) (hgrid : OnGrid search points)
    (htried : tried ≤ points) :
    ∃ found, (List.range tried).foldlM (Searcher.tryPoint search points evaluate) none = .ok found ∧
      Found search points evaluate tried found := by
  induction tried with
  | zero => exact ⟨none, rfl, fun i hi => absurd hi (Nat.not_lt_zero i)⟩
  | succ tried ih =>
    obtain ⟨found, hrun, hfound⟩ := ih (Nat.le_of_succ_le htried)
    obtain ⟨found', hstep, hfound'⟩ := hfound.tryPoint hgrid htried
    refine ⟨found', ?_, hfound'⟩
    rw [List.range_succ, List.foldlM_append, hrun, ok_bind]
    simpa using hstep

/-- Two bests of the same points are one. -/
lemma BestOf.unique {best' : SizeOptimum} {p' : ℕ} (h : BestOf search points evaluate tried best p)
    (h' : BestOf search points evaluate tried best' p') :
    best'.input = best.input ∧ best'.netPnlQuote = best.netPnlQuote := by
  have hp : p' = p := by
    rcases h.max p' h'.lt _ _ h'.makes with hless | ⟨hsame, hle⟩ <;>
      rcases h'.max p h.lt _ _ h.makes with hless' | ⟨hsame', hle'⟩
    · exact absurd (hless.trans hless') (lt_irrefl _)
    · exact absurd (hsame' ▸ hless) (lt_irrefl _)
    · exact absurd (hsame ▸ hless') (lt_irrefl _)
    · exact le_antisymm hle' hle
  subst hp
  exact h.makes.unique h'.makes

/-- How a run of the oracle ends on a domain within its budget. -/
lemma optimizeGrid_ok_iff :
    optimizeGrid search evaluate maxEvaluations = .ok best ↔
      ∃ points, gridPointCount search = .ok points ∧ points ≤ maxEvaluations ∧
        best.evaluations = points ∧ ∃ p, BestOf search points evaluate points best p := by
  unfold optimizeGrid
  simp only [bind_ok_iff, guard_ok_iff]
  constructor
  · rintro ⟨points, hpoints, _, hmax, found, hrun, hfinal⟩
    obtain ⟨found', hrun', hfound⟩ :=
      found_foldlM evaluate (onGrid_of_gridPointCount hpoints) le_rfl
    obtain rfl : found' = found := Except.ok.inj (hrun'.symm.trans hrun)
    cases found' with
    | none => cases hfinal
    | some oracle =>
      cases hfinal
      obtain ⟨p, hbest⟩ := hfound
      exact ⟨points, hpoints, hmax, rfl, p, hbest.lt, hbest.makes, hbest.max⟩
  · rintro ⟨points, hpoints, hmax, hevaluations, p, hbest⟩
    obtain ⟨found, hrun, hfound⟩ :=
      found_foldlM evaluate (onGrid_of_gridPointCount hpoints) le_rfl
    refine ⟨points, hpoints, (), hmax, found, hrun, ?_⟩
    cases found with
    | none => exact absurd hbest.makes (hfound p hbest.lt _ _)
    | some oracle =>
      obtain ⟨p', hbest'⟩ := hfound
      obtain ⟨hinput, hnet⟩ := hbest.unique hbest'
      obtain ⟨input, net, evaluations⟩ := best
      dsimp only at hinput hnet hevaluations ⊢
      rw [hinput, hnet, hevaluations]
      rfl

/-- The largest profit at the smallest input that makes it, or nothing where no executable point
makes a profit. -/
theorem most_profitable (search : SizeSearch) (evaluate : Fixed → Option Fixed)
    (maxEvaluations : ℕ) :
    (∀ best, optimizeProfitableGrid search evaluate maxEvaluations = .ok (some best) ↔
      ∃ points, gridPointCount search = .ok points ∧ points ≤ maxEvaluations ∧
        best.evaluations = points ∧ 0 < best.netPnlQuote.val ∧
        ∃ p, BestOf search points evaluate points best p) ∧
    (optimizeProfitableGrid search evaluate maxEvaluations = .ok none ↔
      ∃ points, gridPointCount search = .ok points ∧ points ≤ maxEvaluations ∧
        (∃ i < points, ∃ input net, Makes search points evaluate i input net) ∧
        ∀ i < points, ∀ input net, Makes search points evaluate i input net → net.val ≤ 0) := by
  unfold optimizeProfitableGrid
  simp only [bind_ok_iff, pure_ok_iff, optimizeGrid_ok_iff]
  refine ⟨fun best => ?_, ?_⟩
  · constructor
    · rintro ⟨oracle, ⟨points, hpoints, hmax, hevaluations, hbest⟩, hif⟩
      split_ifs at hif with hpos
      cases hif
      exact ⟨points, hpoints, hmax, hevaluations, hpos, hbest⟩
    · rintro ⟨points, hpoints, hmax, hevaluations, hpos, hbest⟩
      exact ⟨best, ⟨points, hpoints, hmax, hevaluations, hbest⟩, (if_pos hpos)⟩
  · constructor
    · rintro ⟨oracle, ⟨points, hpoints, hmax, -, p, hbest⟩, hif⟩
      split_ifs at hif with hpos
      refine ⟨points, hpoints, hmax, ⟨p, hbest.lt, _, _, hbest.makes⟩,
        fun i hi input net hmakes => ?_⟩
      rcases hbest.max i hi input net hmakes with hless | ⟨rfl, -⟩
      · exact (show net.val < oracle.netPnlQuote.val from hless).le.trans (not_lt.mp hpos)
      · exact not_lt.mp hpos
    · rintro ⟨points, hpoints, hmax, ⟨i, hi, input, net, hmakes⟩, hloss⟩
      obtain ⟨found, -, hfound⟩ :=
        found_foldlM evaluate (onGrid_of_gridPointCount hpoints) le_rfl
      cases found with
      | none => exact absurd hmakes (hfound i hi input net)
      | some oracle =>
        obtain ⟨p, hbest⟩ := hfound
        refine ⟨{ oracle with evaluations := points }, ⟨points, hpoints, hmax, rfl, p, hbest.lt,
          hbest.makes, hbest.max⟩, ?_⟩
        exact if_neg (not_lt.mpr (hloss p hbest.lt _ _ hbest.makes))

end Suwappu.Searcher
