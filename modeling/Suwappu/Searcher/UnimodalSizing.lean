import Suwappu.Lib.Unimodal
import Suwappu.Searcher.Sizing

/-!
# The refinement against the oracle

The oracle finds the first maximum of the grid. The refinement keeps it between its bounds until two
probes are equal and lie before it, on a stretch where the function is flat.
-/

namespace Suwappu.Searcher

open Checked Unimodal

variable {search : SizeSearch} {points index left right : ℕ} {evaluate : Fixed → Option Fixed}
  {net : ℕ → Fixed}

/-! ### The grid -/

lemma checkedFixed_ok_iff {z : ℤ} {x : Fixed} : checkedFixed z = .ok x ↔ z = x.val := by
  unfold checkedFixed
  split_ifs with h
  · rw [Except.ok.injEq, Subtype.ext_iff]
  · refine iff_of_false id ?_
    rintro rfl
    exact h x.2

lemma exists_checkedFixed {z : ℤ} (h : -2 ^ 127 ≤ z ∧ z < 2 ^ 127) :
    ∃ x : Fixed, checkedFixed z = .ok x ∧ x.val = z :=
  ⟨⟨z, h⟩, checkedFixed_ok_iff.mpr rfl, rfl⟩

/-- All points but the last lie whole steps above the lower bound, and below the upper one. -/
structure OnGrid (search : SizeSearch) (points : ℕ) : Prop where
  pos : 0 < points
  lt : points < 2 ^ 64
  min_nonneg : 0 ≤ search.minInput.val
  step_pos : 0 < search.step.val
  inner : ∀ index, index + 1 < points →
    search.minInput.val + search.step.val * index < search.maxInput.val

lemma onGrid_of_gridPointCount (h : gridPointCount search = .ok points) : OnGrid search points := by
  unfold gridPointCount checkedDiv checkedRem at h
  simp only [bind_ok_iff, guard_ok_iff, pure_ok_iff] at h
  obtain ⟨⟨⟩, ⟨hmin, hmax, hstep⟩, span, hspan, steps, hsteps, rest, hrest, h⟩ := h
  rw [if_neg hstep.ne', checkedFixed_ok_iff] at hsteps hrest
  rw [checkedFixed_ok_iff] at hspan
  obtain ⟨count, hcount, total, htotal, ⟨⟩, hfit, rfl⟩ := h
  rw [checkedFixed_ok_iff] at hcount htotal
  rw [Int.tdiv_eq_ediv_of_nonneg (by omega)] at hsteps
  rw [Int.tmod_eq_emod_of_nonneg (by omega)] at hrest
  have hdiv := Int.mul_ediv_add_emod span.val search.step.val
  rw [hsteps, hrest] at hdiv
  have hrest_nonneg : 0 ≤ rest.val := hrest ▸ Int.emod_nonneg _ hstep.ne'
  have hsteps_nonneg : 0 ≤ steps.val := hsteps ▸ Int.ediv_nonneg (by omega) hstep.le
  refine ⟨by split_ifs at htotal <;> omega, by omega, hmin, hstep, fun index hindex => ?_⟩
  have hle : search.step.val * index ≤ search.step.val * steps.val :=
    mul_le_mul_of_nonneg_left (by split_ifs at htotal <;> omega) hstep.le
  split_ifs at htotal with hzero
  · have hlt : search.step.val * index < search.step.val * steps.val :=
      mul_lt_mul_of_pos_left (by omega) hstep
    omega
  · omega

variable (hgrid : OnGrid search points)
include hgrid

lemma exists_inputAt (hindex : index < points) : ∃ input, inputAt search points index = .ok input ∧
    input.val = if index = points - 1 then search.maxInput.val
      else search.minInput.val + search.step.val * index := by
  unfold inputAt
  rw [if_neg (not_le.mpr hindex)]
  split_ifs with hlast
  · exact ⟨_, rfl, rfl⟩
  · have hinner := hgrid.inner index (by omega)
    have hmul : 0 ≤ search.step.val * index := mul_nonneg hgrid.step_pos.le (by omega)
    have hmin := hgrid.min_nonneg
    have hmax := search.maxInput.2
    obtain ⟨offset, hoffset, hval⟩ := exists_checkedFixed (z := search.step.val * index) (by omega)
    obtain ⟨input, hinput, hval'⟩ :=
      exists_checkedFixed (z := search.minInput.val + offset.val) (by omega)
    exact ⟨input, by rw [hoffset, ok_bind, hinput], by rw [hval', hval]⟩

lemma inputAt_lt {i j : ℕ} {a b : Fixed} (hij : i < j) (hj : j < points)
    (ha : inputAt search points i = .ok a) (hb : inputAt search points j = .ok b) :
    a.val < b.val := by
  obtain ⟨a', ha', hval⟩ := exists_inputAt hgrid (hij.trans hj)
  obtain ⟨b', hb', hval'⟩ := exists_inputAt hgrid hj
  obtain rfl : a' = a := Except.ok.inj (ha'.symm.trans ha)
  obtain rfl : b' = b := Except.ok.inj (hb'.symm.trans hb)
  rw [if_neg (by omega)] at hval
  rw [hval, hval']
  split_ifs with hlast
  · exact hgrid.inner i (by omega)
  · have hlt : search.step.val * i < search.step.val * j :=
      mul_lt_mul_of_pos_left (by omega) hgrid.step_pos
    omega

lemma inputAt_inj {i j : ℕ} {a : Fixed} (hi : i < points) (hj : j < points)
    (ha : inputAt search points i = .ok a) (hb : inputAt search points j = .ok a) : i = j := by
  rcases lt_trichotomy i j with hlt | heq | hlt
  · exact absurd (inputAt_lt hgrid hlt hj ha hb) (lt_irrefl _)
  · exact heq
  · exact absurd (inputAt_lt hgrid hlt hi hb ha) (lt_irrefl _)

omit hgrid

/-! ### The oracle -/

/-- Every point of the grid is executable, and `net` is what it makes. -/
def Executable (search : SizeSearch) (points : ℕ) (evaluate : Fixed → Option Fixed)
    (net : ℕ → Fixed) : Prop :=
  ∀ index < points, ∃ input, inputAt search points index = .ok input ∧
    evaluate input = some (net index)

/-- The optimum is the first maximum of the first points. -/
structure IsOptimum (search : SizeSearch) (points : ℕ) (net : ℕ → Fixed) (last : ℕ)
    (best : SizeOptimum) (p : ℕ) : Prop where
  isFirstMax : IsFirstMax net 0 last p
  input : inputAt search points p = .ok best.input
  net : best.netPnlQuote = net p

lemma tryPoint_none (hexec : Executable search points evaluate net) (hpos : 0 < points) :
    ∃ best, tryPoint search points evaluate none 0 = .ok (some best) ∧
      IsOptimum search points net 0 best 0 := by
  obtain ⟨input, hinput, hnet⟩ := hexec 0 hpos
  refine ⟨⟨input, net 0, 0 + 1⟩, ?_, ?_, hinput, rfl⟩
  · unfold tryPoint
    rw [hinput, ok_bind, hnet]
    rfl
  · exact ⟨le_rfl, le_rfl, fun i _ hi => by rw [Nat.le_zero.mp hi], fun i _ hi => by omega⟩

lemma tryPoint_some {best : SizeOptimum} {p last : ℕ} (hgrid : OnGrid search points)
    (hexec : Executable search points evaluate net) (h : IsOptimum search points net last best p)
    (hlast : last + 1 < points) :
    ∃ best' p', tryPoint search points evaluate (some best) (last + 1) = .ok (some best') ∧
      IsOptimum search points net (last + 1) best' p' := by
  obtain ⟨input, hinput, hnet⟩ := hexec (last + 1) hlast
  have hlater : ¬ input < best.input :=
    not_lt.mpr (inputAt_lt hgrid (Nat.lt_succ_of_le h.isFirstMax.le) hlast h.input hinput).le
  unfold tryPoint
  rw [hinput, ok_bind, hnet]
  by_cases hlt : net p < net (last + 1)
  · refine ⟨⟨input, net (last + 1), last + 1 + 1⟩, last + 1, ?_, h.isFirstMax.succ_of_lt hlt,
      hinput, rfl⟩
    simp [h.net, hlt, pure, Except.pure]
  · refine ⟨best, p, ?_, h.isFirstMax.succ_of_not_lt hlt, h.input, h.net⟩
    simp [h.net, hlt, hlater, pure, Except.pure]

lemma foldlM_tryPoint (hgrid : OnGrid search points)
    (hexec : Executable search points evaluate net) {last : ℕ} (hlast : last < points) :
    ∃ best p, (List.range (last + 1)).foldlM (tryPoint search points evaluate) none =
      .ok (some best) ∧ IsOptimum search points net last best p := by
  induction last with
  | zero =>
    obtain ⟨best, hbest, h⟩ := tryPoint_none hexec hgrid.pos
    exact ⟨best, 0, by simpa [List.range_succ] using hbest, h⟩
  | succ last ih =>
    obtain ⟨best, p, hbest, h⟩ := ih (by omega)
    obtain ⟨best', p', hbest', h'⟩ := tryPoint_some hgrid hexec h hlast
    refine ⟨best', p', ?_, h'⟩
    rw [List.range_succ, List.foldlM_append, hbest, ok_bind]
    simpa using hbest'

lemma optimizeGrid_ok {maxEvaluations : ℕ} (hpoints : gridPointCount search = .ok points)
    (hexec : Executable search points evaluate net) (hmax : points ≤ maxEvaluations) :
    ∃ oracle p, optimizeGrid search evaluate maxEvaluations = .ok oracle ∧
      IsOptimum search points net (points - 1) oracle p := by
  have hgrid := onGrid_of_gridPointCount hpoints
  have hlast : points - 1 + 1 = points := Nat.sub_add_cancel hgrid.pos
  obtain ⟨best, p, hbest, h⟩ :=
    foldlM_tryPoint hgrid hexec (Nat.sub_lt hgrid.pos Nat.one_pos)
  rw [hlast] at hbest
  refine ⟨{ best with evaluations := points }, p, ?_, h.isFirstMax, h.input, h.net⟩
  unfold optimizeGrid
  rw [hpoints, ok_bind, guard_of_true hmax, ok_bind, hbest, ok_bind]
  rfl

/-! ### Probing -/

/-- The cache holds what the objective makes of the points evaluated, and counts them. -/
structure Sound (points : ℕ) (net : ℕ → Fixed) (s : Probes) : Prop where
  evaluations : s.evaluations = s.cache.size
  cached : ∀ index value, s.cache[index]? = some value → index < points ∧ value = net index

lemma sound_empty : Sound points net ⟨0, ∅⟩ :=
  ⟨rfl, fun index value h => by simp at h⟩

lemma notMem_of_getElem? {cache : Std.TreeMap ℕ Fixed} (h : cache[index]? = none) :
    index ∉ cache := by
  rw [Std.TreeMap.mem_iff_isSome_getElem?, h]
  exact Bool.false_ne_true

lemma Sound.evaluations_lt {s : Probes} (h : Sound points net s) (hindex : index < points)
    (hnone : s.cache[index]? = none) : s.evaluations < points := by
  have hsubset : insert index s.cache.keys.toFinset ⊆ Finset.range points := by
    intro i hi
    rw [Finset.mem_insert, List.mem_toFinset, Std.TreeMap.mem_keys] at hi
    rcases hi with rfl | hi
    · exact Finset.mem_range.mpr hindex
    · exact Finset.mem_range.mpr (h.cached i _ (Std.TreeMap.getElem?_eq_some_getElem hi)).1
  have hfresh : index ∉ s.cache.keys.toFinset := by
    rw [List.mem_toFinset, Std.TreeMap.mem_keys]
    exact notMem_of_getElem? hnone
  have hcard := Finset.card_le_card hsubset
  rw [Finset.card_insert_of_notMem hfresh, Finset.card_range,
    List.toFinset_card_of_nodup Std.TreeMap.nodup_keys, Std.TreeMap.length_keys] at hcard
  rw [h.evaluations]
  exact hcard

/-- The run ends well, or for want of a budget that covers the grid. -/
def Yields {α : Type} (points maxEvaluations : ℕ) (x : Except SizingError α) (post : α → Prop) :
    Prop :=
  (∃ a, x = .ok a ∧ post a) ∨ x = .error .EvaluationBudgetExceeded ∧ maxEvaluations < points

section Yields

variable {α β : Type} {maxEvaluations : ℕ} {x : Except SizingError α} {post : α → Prop}
  {f : α → Except SizingError β} {post' : β → Prop}

lemma Yields.bind (h : Yields points maxEvaluations x post)
    (hf : ∀ a, post a → Yields points maxEvaluations (f a) post') :
    Yields points maxEvaluations (x >>= f) post' := by
  rcases h with ⟨a, rfl, ha⟩ | ⟨rfl, hlt⟩
  · exact hf a ha
  · exact .inr ⟨rfl, hlt⟩

lemma Yields.mono {post' : α → Prop} (h : Yields points maxEvaluations x post)
    (himp : ∀ a, post a → post' a) : Yields points maxEvaluations x post' :=
  h.imp_left fun ⟨a, hx, ha⟩ => ⟨a, hx, himp a ha⟩

lemma yields_ok {a : α} (h : post a) : Yields points maxEvaluations (.ok a) post := .inl ⟨a, rfl, h⟩

end Yields

/-! ### Narrowing -/

/-- What one round of two probes leaves of the bounds. -/
def probeStep (net : ℕ → Fixed) (bounds : ℕ × ℕ) : ℕ × ℕ :=
  let (left, right) := bounds
  if 8 < right - left then
    if (net (left + third left right)).val < (net (right - third left right)).val then
      (left + third left right + 1, right)
    else (left, right - third left right - 1)
  else bounds

/-- The bounds after some rounds. -/
def bounds (net : ℕ → Fixed) (points rounds : ℕ) : ℕ × ℕ :=
  (probeStep net)^[rounds] (0, points - 1)

/-- Two equal probes of wide bounds, with a larger value behind them. -/
def Misled (net : ℕ → Fixed) (bounds : ℕ × ℕ) : Prop :=
  let (left, right) := bounds
  8 < right - left ∧ net (left + third left right) = net (right - third left right) ∧
    ∃ i ∈ Finset.Ioc (right - third left right) right,
      (net (right - third left right)).val < (net i).val

instance decidableMisled (net : ℕ → Fixed) : (bounds : ℕ × ℕ) → Decidable (Misled net bounds)
  | (_, _) => inferInstanceAs (Decidable (_ ∧ _ ∧ _))

def Within (points : ℕ) (bounds : ℕ × ℕ) : Prop := bounds.1 ≤ bounds.2 ∧ bounds.2 < points

lemma probes_within (h : 8 < right - left) : left < left + third left right ∧
    left + third left right < right - third left right ∧ right - third left right < right := by
  unfold third
  omega

lemma probeStep_of_wide (h : 8 < right - left) : probeStep net (left, right) =
    if (net (left + third left right)).val < (net (right - third left right)).val then
      (left + third left right + 1, right)
    else (left, right - third left right - 1) :=
  if_pos h

lemma probeStep_of_narrow (h : ¬ 8 < right - left) : probeStep net (left, right) = (left, right) :=
  if_neg h

lemma Within.probeStep {bounds : ℕ × ℕ} (h : Within points bounds) (net : ℕ → Fixed) :
    Within points (probeStep net bounds) := by
  obtain ⟨left, right⟩ := bounds
  obtain ⟨hle, hlt⟩ := h
  unfold Searcher.probeStep
  dsimp only at hle hlt ⊢
  split_ifs with hwide hless
  · obtain ⟨hl, hm, hr⟩ := probes_within hwide
    exact ⟨by dsimp only; omega, hlt⟩
  · obtain ⟨hl, hm, hr⟩ := probes_within hwide
    exact ⟨by dsimp only; omega, by dsimp only; omega⟩
  · exact ⟨hle, hlt⟩

section Run

variable {maxEvaluations : ℕ} {s : Probes} (hgrid : OnGrid search points)
  (hexec : Executable search points evaluate net)
include hgrid hexec

lemma yields_evalIndex (h : Sound points net s) (hindex : index < points) :
    Yields points maxEvaluations (evalIndex search points maxEvaluations evaluate s index)
      fun (value, s') => value = net index ∧ Sound points net s' := by
  unfold evalIndex
  cases hcache : s.cache[index]? with
  | some value => exact yields_ok ⟨(h.cached index value hcache).2, h⟩
  | none =>
    have hlt := h.evaluations_lt hindex hcache
    obtain ⟨input, hinput, hnet⟩ := hexec index hindex
    by_cases hbudget : s.evaluations < maxEvaluations
    · dsimp only
      rw [guard_of_true hbudget, ok_bind, hinput, ok_bind, hnet]
      refine yields_ok ⟨rfl, ?_, fun i value hi => ?_⟩
      · have hpoints := hgrid.lt
        have hfresh : ¬ s.cache.contains index = true :=
          fun hin => notMem_of_getElem? hcache (Std.TreeMap.mem_iff_contains.mpr hin)
        rw [saturatingAdd, min_eq_left (by omega), Std.TreeMap.size_insert, h.evaluations,
          if_neg hfresh]
      · rw [Std.TreeMap.getElem?_insert] at hi
        split_ifs at hi with heq
        · obtain rfl := Std.LawfulEqCmp.eq_of_compare heq
          exact ⟨hindex, (Option.some.inj hi).symm⟩
        · exact h.cached i value hi
    · dsimp only
      rw [guard_error_iff.mpr ⟨hbudget, rfl⟩]
      exact .inr ⟨rfl, by omega⟩

lemma yields_narrow {rounds : ℕ} {bounds : ℕ × ℕ} (h : Sound points net s)
    (hb : Within points bounds) :
    Yields points maxEvaluations (narrow search points maxEvaluations evaluate rounds bounds s)
      fun (bounds', s') => bounds' = (probeStep net)^[rounds] bounds ∧ Sound points net s' := by
  induction rounds generalizing bounds s with
  | zero => exact yields_ok ⟨rfl, h⟩
  | succ rounds ih =>
    have hnext := hb.probeStep net
    rw [Function.iterate_succ_apply]
    obtain ⟨left, right⟩ := bounds
    obtain ⟨hle, hlt⟩ := hb
    dsimp only at hle hlt
    rw [narrow]
    split_ifs with hwide
    · obtain ⟨hl, hm, hr⟩ := probes_within hwide
      refine (yields_evalIndex hgrid hexec h (by omega)).bind ?_
      rintro ⟨v1, s1⟩ ⟨rfl, h1⟩
      refine (yields_evalIndex hgrid hexec h1 (by omega)).bind ?_
      rintro ⟨v2, s2⟩ ⟨rfl, h2⟩
      dsimp only
      have hgrid_lt := hgrid.lt
      rw [saturatingAdd, min_eq_left (by omega)]
      rw [probeStep_of_wide hwide] at hnext ⊢
      split_ifs at hnext ⊢
      · exact ih h2 hnext
      · exact ih h2 hnext
    · rw [probeStep_of_narrow hwide, Function.iterate_fixed (probeStep_of_narrow hwide)]
      exact yields_ok ⟨rfl, h⟩

/-- The points left are tried in order. -/
lemma yields_tryIndex {count : ℕ} (h : Sound points net s) (hlt : left + count < points) :
    Yields points maxEvaluations
      ((List.range' left (count + 1)).foldlM
        (tryIndex search points maxEvaluations evaluate) (none, s))
      fun (best, _) => ∃ p, best = some (p, net p) ∧ IsFirstMax net left (left + count) p := by
  suffices hall : Yields points maxEvaluations
      ((List.range' left (count + 1)).foldlM
        (tryIndex search points maxEvaluations evaluate) (none, s))
      fun (best, s') => (∃ p, best = some (p, net p) ∧ IsFirstMax net left (left + count) p) ∧
        Sound points net s' by
    exact hall.mono fun _ hpost => hpost.1
  induction count with
  | zero =>
    rw [List.range'_one, List.foldlM_cons, tryIndex]
    refine ((yields_evalIndex hgrid hexec h (by omega)).bind ?_).bind fun _ hpost =>
      yields_ok hpost
    rintro ⟨value, s'⟩ ⟨rfl, h'⟩
    exact yields_ok ⟨⟨left, rfl, isFirstMax_self net left⟩, h'⟩
  | succ count ih =>
    rw [List.range'_concat, List.foldlM_append]
    refine (ih (by omega)).bind ?_
    rintro ⟨_, s1⟩ ⟨⟨p, rfl, hp⟩, h1⟩
    rw [List.foldlM_cons, tryIndex]
    refine ((yields_evalIndex hgrid hexec h1 (by omega)).bind ?_).bind fun _ hpost =>
      yields_ok hpost
    rintro ⟨value, s'⟩ ⟨rfl, h'⟩
    refine yields_ok ⟨?_, h'⟩
    rw [one_mul]
    have hnot : ¬ left + (count + 1) < p := not_lt.mpr (Nat.le_succ_of_le hp.le)
    by_cases hless : net p < net (left + (count + 1))
    · exact ⟨left + (count + 1), by simp [hless], hp.succ_of_lt hless⟩
    · exact ⟨p, by simp [hless, hnot], hp.succ_of_not_lt hless⟩

end Run

lemma within_bounds (net : ℕ → Fixed) (hpos : 0 < points) (rounds : ℕ) :
    Within points (bounds net points rounds) := by
  induction rounds with
  | zero => exact ⟨Nat.zero_le _, Nat.sub_lt hpos Nat.one_pos⟩
  | succ rounds ih =>
    rw [bounds, Function.iterate_succ_apply']
    exact ih.probeStep net

lemma width_bounds (net : ℕ → Fixed) (points rounds : ℕ) :
    (bounds net points rounds).2 - (bounds net points rounds).1 ≤ max 8 (points - rounds) := by
  induction rounds with
  | zero => exact le_max_of_le_right (Nat.sub_le_sub_right (Nat.sub_le _ _) 0)
  | succ rounds ih =>
    rw [bounds, Function.iterate_succ_apply', ← bounds]
    generalize bounds net points rounds = last at ih ⊢
    obtain ⟨left, right⟩ := last
    dsimp only at ih
    by_cases hwide : 8 < right - left
    · obtain ⟨hl, hm, hr⟩ := probes_within hwide
      rw [probeStep_of_wide hwide]
      split_ifs
      · dsimp only
        omega
      · dsimp only
        omega
    · rw [probeStep_of_narrow hwide]
      dsimp only
      omega

/-! ### The first maximum between the bounds -/

def Between (bounds : ℕ × ℕ) (p : ℕ) : Prop := bounds.1 ≤ p ∧ p ≤ bounds.2

lemma Between.of_probeStep {bounds : ℕ × ℕ} {p : ℕ} (h : Between (probeStep net bounds) p) :
    Between bounds p := by
  obtain ⟨left, right⟩ := bounds
  by_cases hwide : 8 < right - left
  · obtain ⟨hl, hm, hr⟩ := probes_within hwide
    rw [probeStep_of_wide hwide] at h
    split_ifs at h
    · exact ⟨by have := h.1; dsimp only at this ⊢; omega, h.2⟩
    · exact ⟨h.1, by have := h.2; dsimp only at this ⊢; omega⟩
  · rwa [probeStep_of_narrow hwide] at h

section Stages

variable {p : ℕ} (hnet : UnimodalOn net points) (hp : IsFirstMax net 0 (points - 1) p)
include hnet hp

/-- A round loses the first maximum if and only if it is misled. -/
lemma between_probeStep_iff {bounds : ℕ × ℕ} (hb : Within points bounds) (h : Between bounds p) :
    Between (probeStep net bounds) p ↔ ¬ Misled net bounds := by
  obtain ⟨left, right⟩ := bounds
  obtain ⟨hle, hlt⟩ := hb
  obtain ⟨hge, hpr⟩ := h
  dsimp only at hle hlt hge hpr
  by_cases hwide : 8 < right - left
  · obtain ⟨hl, hm, hr⟩ := probes_within hwide
    rw [probeStep_of_wide hwide]
    split_ifs with hless
    · refine iff_of_true ⟨?_, hpr⟩ fun ⟨_, heq, _⟩ => absurd hless (by rw [heq]; exact lt_irrefl _)
      exact lt_of_probe_lt hnet hp hm.le (by omega) hless
    · rcases lt_or_tie_of_probe_le hnet hp hm (not_lt.mp hless) with hbefore | ⟨heq, hbehind⟩
      · refine iff_of_true ⟨hge, Nat.le_sub_one_of_lt hbefore⟩ fun ⟨_, _, i, hi, hlater⟩ => ?_
        obtain ⟨hi, hir⟩ := Finset.mem_Ioc.mp hi
        exact absurd (lt_of_lt_later hnet hp hi (by omega) hlater) (by omega)
      · refine iff_of_false (fun hbetween => ?_) (not_not_intro ⟨hwide, heq, p, ?_, ?_⟩)
        · have := hbetween.2
          dsimp only at this
          omega
        · exact Finset.mem_Ioc.mpr ⟨hbehind, hpr⟩
        · exact hp.first _ (Nat.zero_le _) hbehind
  · rw [probeStep_of_narrow hwide]
    exact iff_of_true ⟨hge, hpr⟩ fun hmisled => hwide hmisled.1

lemma between_bounds_iff (hpos : 0 < points) (rounds : ℕ) :
    Between (bounds net points rounds) p ↔
      ∀ stage < rounds, ¬ Misled net (bounds net points stage) := by
  induction rounds with
  | zero =>
    exact iff_of_true ⟨Nat.zero_le _, hp.le⟩ fun stage hstage => absurd hstage (Nat.not_lt_zero _)
  | succ rounds ih =>
    have hstep : bounds net points (rounds + 1) = probeStep net (bounds net points rounds) :=
      Function.iterate_succ_apply' _ _ _
    rw [Nat.forall_lt_succ_right, ← ih, hstep]
    refine ⟨fun h => ?_, fun ⟨h, hmisled⟩ => ?_⟩
    · have hbetween := h.of_probeStep
      exact ⟨hbetween, (between_probeStep_iff hnet hp (within_bounds _ hpos _) hbetween).mp h⟩
    · exact (between_probeStep_iff hnet hp (within_bounds _ hpos _) h).mpr hmisled

end Stages

lemma not_misled_of_le {stage : ℕ} (hstage : points ≤ stage) :
    ¬ Misled net (bounds net points stage) := by
  have hwidth := width_bounds net points stage
  rw [Nat.sub_eq_zero_of_le hstage] at hwidth
  exact fun hmisled => absurd hmisled.1 (not_lt.mpr (hwidth.trans_eq (max_eq_left (Nat.zero_le 8))))

/-! ### Agreement -/

lemma yields_optimizeUnimodalGrid {maxEvaluations : ℕ}
    (hpoints : gridPointCount search = .ok points)
    (hexec : Executable search points evaluate net) :
    Yields points maxEvaluations (optimizeUnimodalGrid search maxEvaluations evaluate)
      fun refined => ∃ p,
        IsFirstMax net (bounds net points points).1 (bounds net points points).2 p ∧
        inputAt search points p = .ok refined.input ∧ refined.netPnlQuote = net p := by
  have hgrid := onGrid_of_gridPointCount hpoints
  unfold optimizeUnimodalGrid
  rw [hpoints, ok_bind]
  by_cases hmax : maxEvaluations = 0
  · rw [guard_error_iff.mpr ⟨not_not_intro hmax, rfl⟩]
    exact .inr ⟨rfl, hmax ▸ hgrid.pos⟩
  rw [guard_of_true hmax, ok_bind]
  have hb : Within points (0, points - 1) := within_bounds net hgrid.pos 0
  refine (yields_narrow hgrid hexec sound_empty hb).bind ?_
  rintro ⟨_, s⟩ ⟨rfl, hs⟩
  obtain ⟨hle, hlt⟩ := within_bounds net hgrid.pos points
  rw [← bounds]
  generalize bounds net points points = last at hle hlt ⊢
  obtain ⟨left, right⟩ := last
  dsimp only at hle hlt
  obtain ⟨count, rfl⟩ := Nat.exists_eq_add_of_le hle
  dsimp only
  rw [show left + count + 1 - left = count + 1 by omega]
  refine (yields_tryIndex hgrid hexec hs hlt).bind ?_
  rintro ⟨_, s'⟩ ⟨p, rfl, hp⟩
  obtain ⟨input, hinput, -⟩ := exists_inputAt hgrid (hp.le.trans_lt hlt)
  dsimp only
  rw [hinput, ok_bind]
  exact yields_ok ⟨p, hp, hinput, rfl⟩

/-- The refinement finds what the oracle finds if and only if no round is misled. -/
theorem optimizeUnimodalGrid_eq_iff {maxEvaluations budget : ℕ}
    (hpoints : gridPointCount search = .ok points)
    (hexec : Executable search points evaluate net) (hnet : UnimodalOn net points)
    (hmax : points ≤ maxEvaluations)
    (hbudget : points ≤ budget ∨
      optimizeUnimodalGrid search budget evaluate ≠ .error .EvaluationBudgetExceeded) :
    ∃ oracle refined, optimizeGrid search evaluate maxEvaluations = .ok oracle ∧
      optimizeUnimodalGrid search budget evaluate = .ok refined ∧
      (refined.input = oracle.input ∧ refined.netPnlQuote = oracle.netPnlQuote ↔
        ∀ stage, ¬ Misled net (bounds net points stage)) := by
  have hgrid := onGrid_of_gridPointCount hpoints
  obtain ⟨oracle, p, horacle, hp⟩ := optimizeGrid_ok hpoints hexec hmax
  obtain ⟨refined, hrefined, p', hp', hinput, hnet'⟩ | ⟨herror, hlt⟩ :=
    yields_optimizeUnimodalGrid hpoints hexec
  · refine ⟨oracle, refined, horacle, hrefined, ?_⟩
    have hwithin := within_bounds net hgrid.pos points
    have hstages := between_bounds_iff hnet hp.isFirstMax hgrid.pos points
    refine ⟨fun ⟨heq, _⟩ stage => ?_, fun hmisled => ?_⟩
    · -- the inputs tell the points apart
      obtain rfl : p' = p := inputAt_inj hgrid (hp'.le.trans_lt hwithin.2)
        (hp.isFirstMax.le.trans_lt (Nat.sub_lt hgrid.pos Nat.one_pos)) (heq ▸ hinput) hp.input
      rcases lt_or_ge stage points with hstage | hstage
      · exact hstages.mp ⟨hp'.ge, hp'.le⟩ stage hstage
      · exact not_misled_of_le hstage
    · obtain ⟨hge, hle⟩ := hstages.mpr fun stage _ => hmisled stage
      obtain rfl : p = p' :=
        (hp.isFirstMax.restrict (Nat.zero_le _) (Nat.le_sub_one_of_lt hwithin.2) hge hle).unique hp'
      exact ⟨Except.ok.inj (hinput.symm.trans hp.input), hnet'.trans hp.net.symm⟩
  · rcases hbudget with hbudget | hbudget
    · exact absurd hlt (not_lt.mpr hbudget)
    · exact absurd herror hbudget

/-! ### A step -/

def ofFin (n : Fin 32) : Fixed := ⟨n.val, by omega⟩

/-- The inputs from 0 to 20. -/
def unitGrid : SizeSearch := ⟨ofFin 0, ofFin 20, ofFin 1⟩

def stepAt (n : ℕ) (input : Fixed) : Option Fixed :=
  some (if n ≤ input.val then ofFin 1 else ofFin 0)

def stepNet (n index : ℕ) : Fixed := if n ≤ index then ofFin 1 else ofFin 0

lemma stepNet_mono (n : ℕ) : Monotone (stepNet n) := by
  intro i j hij
  unfold stepNet
  split_ifs with hi hj
  · exact le_rfl
  · exact absurd (hi.trans hij) hj
  · exact Subtype.coe_le_coe.mp (by decide)
  · exact le_rfl

lemma unimodalOn_stepNet (n : ℕ) : UnimodalOn (stepNet n) 21 := by
  refine ⟨20, by omega, fun i j hij _ => stepNet_mono n hij, fun i j hi hij hj => ?_⟩
  exact stepNet_mono n (by omega)

lemma executable_stepAt {n : ℕ} (h : ∀ index < 21,
    (inputAt unitGrid 21 index).toOption.bind (stepAt n) = some (stepNet n index)) :
    Executable unitGrid 21 (stepAt n) (stepNet n) := by
  intro index hindex
  obtain ⟨input, hinput, hnet⟩ := Option.bind_eq_some_iff.mp (h index hindex)
  exact ⟨input, toOption_eq_some_iff.mp hinput, hnet⟩

theorem late_step_found : ∃ oracle refined,
    optimizeGrid unitGrid (stepAt 10) 21 = .ok oracle ∧
    optimizeUnimodalGrid unitGrid 21 (stepAt 10) = .ok refined ∧
    refined.input = oracle.input ∧ refined.netPnlQuote = oracle.netPnlQuote := by
  obtain ⟨oracle, refined, horacle, hrefined, h⟩ := optimizeUnimodalGrid_eq_iff
    (by decide) (executable_stepAt (by decide)) (unimodalOn_stepNet 10) le_rfl (.inl le_rfl)
  refine ⟨oracle, refined, horacle, hrefined, h.mpr fun stage => ?_⟩
  rcases lt_or_ge stage 21 with hstage | hstage
  · revert stage
    decide
  · exact not_misled_of_le hstage

/-- Both probes lie before the step, and the points behind them are given up. -/
theorem later_step_lost : ¬ ∀ (search : SizeSearch) (points : ℕ) (evaluate : Fixed → Option Fixed)
    (net : ℕ → Fixed) (maxEvaluations budget : ℕ), gridPointCount search = .ok points →
    Executable search points evaluate net → UnimodalOn net points → points ≤ maxEvaluations →
    points ≤ budget → ∃ oracle refined, optimizeGrid search evaluate maxEvaluations = .ok oracle ∧
      optimizeUnimodalGrid search budget evaluate = .ok refined ∧
      refined.input = oracle.input ∧ refined.netPnlQuote = oracle.netPnlQuote := by
  intro hall
  obtain ⟨oracle, refined, horacle, hrefined, hinput, -⟩ :=
    hall unitGrid 21 (stepAt 16) (stepNet 16)
    21 21 (by decide) (executable_stepAt (by decide)) (unimodalOn_stepNet 16) le_rfl le_rfl
  have h16 : (optimizeGrid unitGrid (stepAt 16) 21).toOption.map SizeOptimum.input =
      some (ofFin 16) := by decide +kernel
  have h0 : (optimizeUnimodalGrid unitGrid 21 (stepAt 16)).toOption.map SizeOptimum.input =
      some (ofFin 0) := by decide +kernel
  rw [horacle] at h16
  rw [hrefined] at h0
  have heq : ofFin 0 = ofFin 16 :=
    (Option.some.inj h0).symm.trans (hinput.trans (Option.some.inj h16))
  exact absurd heq (by decide)

end Suwappu.Searcher
