import Suwappu.Lib.FloorPoly
import Suwappu.Primitives.TimeCurve.Basic

/-!
# The time multiplier only decays

`_wadExp` evaluates a rational approximation of `2 ^ k * e ^ x` in truncated fixed point. On the
arguments a curve can reach, `[-41e18, 0]`, no operation wraps, numerator and denominator move in
opposite directions inside one halving, and the steps between halvings are checked at their ends.
Hence the multiplier never grows with time.
-/

namespace Suwappu.TimeCurve

open Checked FloorPoly

/-- A bound on the reduced argument, just above `ln 2 / 2`. -/
def expBound : ℤ := 275 * 10 ^ 26

lemma wrap_eq {z : ℤ} (h : |z| ≤ 2 ^ 254) : wrap z = z := by
  have := abs_le.mp h
  exact Int.bmod_eq_of_le_mul_two (by push_cast; omega) (by push_cast; omega)

/-! ### The rational approximation without wrapping -/

def expY₀ (x : ℤ) : ℤ := x + 1346386616545796478920950773328
def expY (x : ℤ) : ℤ := expY₀ x * x / 2 ^ 96 + 57155421227552351082224309758442
def expP₁ (x : ℤ) : ℤ := expY x + x - 94201549194550492254356042504812
def expP₂ (x : ℤ) : ℤ := expP₁ x * expY x / 2 ^ 96 + 28719021644029726153956944680412240
def expNum (x : ℤ) : ℤ := expP₂ x * x + 4385272521454847904659076985693276 * 2 ^ 96

def expQ₀ (x : ℤ) : ℤ := x + -2855989394907223263936484059900
def expQ₁ (x : ℤ) : ℤ := expQ₀ x * x / 2 ^ 96 + 50020603652535783019961831881945
def expQ₂ (x : ℤ) : ℤ := expQ₁ x * x / 2 ^ 96 + -533845033583426703283633433725380
def expQ₃ (x : ℤ) : ℤ := expQ₂ x * x / 2 ^ 96 + 3604857256930695427073651918091429
def expQ₄ (x : ℤ) : ℤ := expQ₃ x * x / 2 ^ 96 + -14423608567350463180887372962807573
def expDen (x : ℤ) : ℤ := expQ₄ x * x / 2 ^ 96 + 26449188498355588339934803723976023

lemma tame_expY₀ : Tame expBound (18 * 2 ^ 96) 1 expY₀ :=
  (tame_id.add_const _).mono (by norm_num [expBound]) le_rfl

lemma tame_expY : Tame expBound (728 * 2 ^ 96) 20 expY :=
  tame_expY₀.horner (by norm_num) _ (by norm_num [expBound]) (by norm_num [expBound])

lemma tame_expP₁ : Tame expBound (475 * 2 ^ 96) 21 expP₁ := by
  have hprod : Tame expBound (7 * 2 ^ 96) 20 (fun x => expY₀ x * x / 2 ^ 96 + 0) :=
    tame_expY₀.horner (by norm_num) 0 (by norm_num [expBound]) (by norm_num [expBound])
  have h := (hprod.add tame_id).add_const
    (57155421227552351082224309758442 - 94201549194550492254356042504812)
  have e : expP₁ = fun x => expY₀ x * x / 2 ^ 96 + 0 + x +
      (57155421227552351082224309758442 - 94201549194550492254356042504812) := by
    funext x
    rw [expP₁, expY]
    ring
  rw [e]
  exact h.mono (by norm_num [expBound]) (by norm_num)

lemma tame_expProd : Tame expBound (345801 * 2 ^ 96) 24800 (fun x => expP₁ x * expY x / 2 ^ 96) :=
  (tame_expP₁.mul tame_expY).floor (by norm_num) (by norm_num) (by norm_num)

lemma tame_expP₂ : Tame expBound (710000 * 2 ^ 96) 24800 expP₂ :=
  (tame_expProd.add_const _).mono (by norm_num) le_rfl

lemma tame_expQ₀ : Tame expBound (37 * 2 ^ 96) 1 expQ₀ :=
  (tame_id.add_const _).mono (by norm_num [expBound]) le_rfl

lemma tame_expQ₁ : Tame expBound (645 * 2 ^ 96) 39 expQ₁ :=
  tame_expQ₀.horner (by norm_num) _ (by norm_num [expBound]) (by norm_num [expBound])

lemma tame_expQ₂ : Tame expBound (6963 * 2 ^ 96) 660 expQ₂ :=
  tame_expQ₁.horner (by norm_num) _ (by norm_num [expBound]) (by norm_num [expBound])

lemma tame_expQ₃ : Tame expBound (47918 * 2 ^ 96) 7194 expQ₃ :=
  tame_expQ₂.horner (by norm_num) _ (by norm_num [expBound]) (by norm_num [expBound])

lemma tame_expQ₄_prod : Tame expBound (16634 * 2 ^ 96) 50417 (fun x => expQ₃ x * x / 2 ^ 96 + 0) :=
  tame_expQ₃.horner (by norm_num) _ (by norm_num [expBound]) (by norm_num [expBound])

lemma tame_expQ₄ : Tame expBound (198686 * 2 ^ 96) 50417 expQ₄ :=
  tame_expQ₃.horner (by norm_num) _ (by norm_num [expBound]) (by norm_num [expBound])

lemma tame_expDen_prod :
    Tame expBound (68970 * 2 ^ 96) 300000 (fun x => expQ₄ x * x / 2 ^ 96 + 0) :=
  tame_expQ₄.horner (by norm_num) _ (by norm_num [expBound]) (by norm_num [expBound])

variable {x y : ℤ}

lemma expP_eq (hx : |x| ≤ expBound) : expP x = expNum x := by
  have hx' : |x| ≤ 2 ^ 95 := hx.trans (by norm_num [expBound])
  have w0 : wrap (x + 1346386616545796478920950773328) = expY₀ x :=
    wrap_eq ((tame_expY₀.bound x hx).trans (by norm_num))
  have w1 : mulShift (expY₀ x) x = expY₀ x * x / 2 ^ 96 := by
    rw [mulShift, wrap_eq (((tame_expY₀.mul tame_id).bound x hx).trans (by norm_num [expBound]))]
  have w2 : wrap (expY₀ x * x / 2 ^ 96 + 57155421227552351082224309758442) = expY x :=
    wrap_eq ((tame_expY.bound x hx).trans (by norm_num))
  have w3 : wrap (expY x + x) = expY x + x :=
    wrap_eq (((tame_expY.add tame_id).bound x hx).trans (by norm_num [expBound]))
  have w4 : wrap (expY x + x - 94201549194550492254356042504812) = expP₁ x :=
    wrap_eq ((tame_expP₁.bound x hx).trans (by norm_num))
  have w5 : mulShift (expP₁ x) (expY x) = expP₁ x * expY x / 2 ^ 96 := by
    rw [mulShift, wrap_eq (((tame_expP₁.mul tame_expY).bound x hx).trans (by norm_num))]
  have w6 : wrap (expP₁ x * expY x / 2 ^ 96 + 28719021644029726153956944680412240) = expP₂ x :=
    wrap_eq ((tame_expP₂.bound x hx).trans (by norm_num))
  have w7 : wrap (expP₂ x * x) = expP₂ x * x :=
    wrap_eq (((tame_expP₂.mul tame_id).bound x hx).trans (by norm_num [expBound]))
  have w8 : wrap (4385272521454847904659076985693276 * 2 ^ 96)
      = 4385272521454847904659076985693276 * 2 ^ 96 := wrap_eq (by norm_num)
  have w9 : wrap (expP₂ x * x + 4385272521454847904659076985693276 * 2 ^ 96) = expNum x :=
    wrap_eq ((((tame_expP₂.mul tame_id).add_const _).bound x hx).trans (by norm_num [expBound]))
  simp only [expP, w0, w1, w2, w3, w4, w5, w6, w7, w8, w9]

/-- One wrapped Horner step is the exact one when its value is in range. -/
lemma wrap_horner {U M : ℤ} {f : ℤ → ℤ} (hf : Tame expBound U M f) (hU : U ≤ 2 ^ 120)
    (hx : |x| ≤ expBound) (c : ℤ) (hc : |c| ≤ 2 ^ 120) :
    wrap (mulShift (f x) x + c) = f x * x / 2 ^ 96 + c := by
  have hprod : |f x * x| ≤ 2 ^ 120 * 2 ^ 95 := by
    rw [abs_mul]
    exact mul_le_mul ((hf.bound x hx).trans hU) (hx.trans (by norm_num [expBound]))
      (abs_nonneg _) (by norm_num)
  have hdiv : |f x * x / 2 ^ 96| ≤ 2 ^ 120 * 2 ^ 95 := by
    have := abs_le.mp hprod
    rw [abs_le]
    constructor <;> omega
  have hshift : mulShift (f x) x = f x * x / 2 ^ 96 := by
    rw [mulShift, wrap_eq (hprod.trans (by norm_num))]
  rw [hshift, wrap_eq]
  exact (abs_add_le _ _).trans ((add_le_add hdiv hc).trans (by norm_num))

lemma expQ_eq (hx : |x| ≤ expBound) : expQ x = expDen x := by
  have w0 : wrap (x - 2855989394907223263936484059900) = expQ₀ x :=
    wrap_eq ((tame_expQ₀.bound x hx).trans (by norm_num))
  simp only [expQ, w0, sub_eq_add_neg (mulShift _ _)]
  rw [wrap_horner tame_expQ₀ (by norm_num) hx _ (by norm_num),
    ← expQ₁, wrap_horner tame_expQ₁ (by norm_num) hx _ (by norm_num),
    ← expQ₂, wrap_horner tame_expQ₂ (by norm_num) hx _ (by norm_num),
    ← expQ₃, wrap_horner tame_expQ₃ (by norm_num) hx _ (by norm_num),
    ← expQ₄, wrap_horner tame_expQ₄ (by norm_num) hx _ (by norm_num), ← expDen]

/-! ### Inside one halving -/

lemma expP₂_pos (hx : |x| ≤ expBound) : 24800 * expBound < expP₂ x := by
  have := abs_le.mp (tame_expProd.bound x hx)
  norm_num [expP₂, expBound] at *
  omega

lemma expNum_mono (hx : |x| ≤ expBound) (hy : |y| ≤ expBound) (hxy : x ≤ y) :
    expNum x ≤ expNum y := by
  rcases hxy.eq_or_lt with rfl | h
  · rfl
  · exact (tame_expP₂.strictMono_mulAdd _ (fun _ => expP₂_pos) hx hy h).le

lemma expDen_anti (hx : |x| ≤ expBound) (hy : |y| ≤ expBound) (hxy : x ≤ y) :
    expDen y ≤ expDen x := by
  refine tame_expQ₄.anti_horner (by norm_num) _ (fun z hz => ?_) hx hy hxy
  have := abs_le.mp (tame_expQ₄_prod.bound z hz)
  norm_num [expQ₄, expBound] at *
  omega

lemma expDen_pos (hx : |x| ≤ expBound) : 0 < expDen x := by
  have := abs_le.mp (tame_expDen_prod.bound x hx)
  norm_num [expDen] at *
  omega

/-- The approximation of `e ^ x`, up to the final scaling. -/
def expRatio (x : ℤ) : ℤ := expNum x / expDen x

lemma expNum_pos (hx : |x| ≤ expBound) : 0 < expNum x := by
  have h := expNum_mono (x := -expBound) (by norm_num [expBound]) hx (abs_le.mp hx).1
  have h0 : 0 < expNum (-expBound) := by decide +kernel
  omega

lemma expRatio_mono (hx : |x| ≤ expBound) (hy : |y| ≤ expBound) (hxy : x ≤ y) :
    expRatio x ≤ expRatio y := by
  have hq := expDen_anti hx hy hxy
  have hqy := expDen_pos hy
  have hr : 0 ≤ expRatio x := Int.ediv_nonneg (expNum_pos hx).le (expDen_pos hx).le
  change expRatio x ≤ expNum y / expDen y
  rw [Int.le_ediv_iff_mul_le hqy]
  calc expRatio x * expDen y ≤ expRatio x * expDen x := mul_le_mul_of_nonneg_left hq hr
    _ ≤ expNum x := Int.ediv_mul_le _ (expDen_pos hx).ne'
    _ ≤ expNum y := expNum_mono hx hy hxy

lemma expRatio_nonneg (hx : |x| ≤ expBound) : 0 ≤ expRatio x :=
  Int.ediv_nonneg (expNum_pos hx).le (expDen_pos hx).le

lemma expRatio_lt (hx : |x| ≤ expBound) : expRatio x < 2 ^ 94 := by
  have h := expRatio_mono hx (y := expBound) (by norm_num [expBound]) (abs_le.mp hx).2
  have h0 : expRatio expBound < 2 ^ 94 := by decide +kernel
  omega

/-! ### Taking out the halvings -/

/-- The argument in 96-bit fixed point. -/
def expFixed (x : ℤ) : ℤ := (x * 2 ^ 78).tdiv (5 ^ 18)

/-- The number of halvings, without wrapping. -/
def expK (z : ℤ) : ℤ := ((z * 2 ^ 96).tdiv LN2 + 2 ^ 95) / 2 ^ 96

/-- The reduced argument. -/
def expReduced (z : ℤ) : ℤ := z - expK z * LN2

lemma tdiv_of_nonpos {a b : ℤ} (ha : a ≤ 0) : a.tdiv b = -(-a / b) := by
  rw [← Int.tdiv_eq_ediv_of_nonneg (by omega : 0 ≤ -a), Int.neg_tdiv, neg_neg]

/-- Truncation of a nonpositive quotient is a ceiling. -/
lemma tdiv_bounds {a b : ℤ} (ha : a ≤ 0) (hb : 0 < b) :
    a ≤ a.tdiv b * b ∧ a.tdiv b * b < a + b ∧ a.tdiv b ≤ 0 := by
  have hlo := Int.mul_ediv_self_le (x := -a) hb.ne'
  have hhi := Int.lt_mul_ediv_self_add (x := -a) hb
  have hnn : 0 ≤ -a / b := Int.ediv_nonneg (by omega) hb.le
  rw [tdiv_of_nonpos ha]
  refine ⟨?_, ?_, by omega⟩ <;> nlinarith

lemma tdiv_mono {a a' b : ℤ} (ha' : a' ≤ 0) (hb : 0 < b) (h : a ≤ a') : a.tdiv b ≤ a'.tdiv b := by
  rw [tdiv_of_nonpos (h.trans ha'), tdiv_of_nonpos ha']
  have := Int.ediv_le_ediv hb (neg_le_neg h)
  omega

lemma expFixed_mono (hy : y ≤ 0) (hxy : x ≤ y) : expFixed x ≤ expFixed y :=
  tdiv_mono (by omega) (by norm_num) (by omega)

lemma expFixed_nonpos (hx : x ≤ 0) : expFixed x ≤ 0 :=
  (tdiv_bounds (by omega) (by norm_num)).2.2

lemma expFixed_ge (hx : x ≤ 0) (hlo : -(41 * 10 ^ 18) ≤ x) : -(41 * 2 ^ 96) ≤ expFixed x := by
  have h := (tdiv_bounds (a := x * 2 ^ 78) (b := 5 ^ 18) (by omega) (by norm_num)).1
  rw [expFixed]
  omega

/-- Distinct WAD arguments stay far apart in fixed point. -/
lemma expFixed_gap (hy : y ≤ 0) (hxy : x < y) : expFixed x + 79228162513 ≤ expFixed y := by
  have h1 := (tdiv_bounds (a := x * 2 ^ 78) (b := 5 ^ 18) (by omega) (by norm_num)).2.1
  have h2 := (tdiv_bounds (a := y * 2 ^ 78) (b := 5 ^ 18) (by omega) (by norm_num)).1
  rw [expFixed, expFixed]
  omega

variable {z z' : ℤ}

lemma expK_mono (hz' : z' ≤ 0) (h : z ≤ z') : expK z ≤ expK z' := by
  have hdiv : (z * 2 ^ 96).tdiv LN2 ≤ (z' * 2 ^ 96).tdiv LN2 :=
    tdiv_mono (by omega) (by norm_num [LN2]) (by omega)
  exact Int.ediv_le_ediv (by norm_num) (by omega)

/-- The reduced argument is at most half of `ln 2` away from zero. -/
lemma expReduced_bounds (hz : z ≤ 0) :
    -(LN2 / 2 + 1) ≤ expReduced z ∧ expReduced z ≤ LN2 / 2 + 1 := by
  have ht := tdiv_bounds (a := z * 2 ^ 96) (b := LN2) (by omega) (by norm_num [LN2])
  have hk1 : 2 ^ 96 * expK z ≤ (z * 2 ^ 96).tdiv LN2 + 2 ^ 95 := Int.mul_ediv_self_le (by norm_num)
  have hk2 : (z * 2 ^ 96).tdiv LN2 + 2 ^ 95 < 2 ^ 96 * expK z + 2 ^ 96 :=
    Int.lt_mul_ediv_self_add (by norm_num)
  simp only [expReduced]
  generalize (z * 2 ^ 96).tdiv LN2 = t at *
  generalize expK z = k at *
  norm_num [LN2] at *
  constructor <;> omega

lemma abs_expReduced (hz : z ≤ 0) : |expReduced z| ≤ expBound := by
  have h := expReduced_bounds hz
  norm_num [LN2, expBound] at *
  rw [abs_le]
  constructor <;> omega

lemma expK_nonpos (hz : z ≤ 0) : expK z ≤ 0 := by
  have h := expReduced_bounds hz
  norm_num [expReduced, LN2] at *
  omega

lemma expK_ge (hz : z ≤ 0) (hlo : -(41 * 2 ^ 96) ≤ z) : -60 ≤ expK z := by
  have h := expReduced_bounds hz
  norm_num [expReduced, LN2] at *
  omega

/-! ### The value of `_wadExp` -/

/-- `e ^ x` as `_wadExp` returns it on `[-41e18, 0]`. -/
def expValue (x : ℤ) : ℕ :=
  (expRatio (expReduced (expFixed x))).toNat * 3822833074963236453042738258902158003155416615667
    / 2 ^ (195 - expK (expFixed x)).toNat

lemma expHalvings_eq (hz : z ≤ 0) (hlo : -(41 * 2 ^ 96) ≤ z) : expHalvings z = expK z := by
  have ht := tdiv_bounds (a := z * 2 ^ 96) (b := LN2) (by omega) (by norm_num [LN2])
  have w1 : wrap (z * 2 ^ 96) = z * 2 ^ 96 := wrap_eq (by rw [abs_le]; constructor <;> omega)
  have w2 : wrap ((z * 2 ^ 96).tdiv LN2) = (z * 2 ^ 96).tdiv LN2 := by
    refine wrap_eq ?_
    generalize (z * 2 ^ 96).tdiv LN2 = t at *
    norm_num [LN2] at *
    rw [abs_le]
    constructor <;> omega
  have w3 : wrap ((z * 2 ^ 96).tdiv LN2 + 2 ^ 95) = (z * 2 ^ 96).tdiv LN2 + 2 ^ 95 := by
    refine wrap_eq ?_
    generalize (z * 2 ^ 96).tdiv LN2 = t at *
    norm_num [LN2] at *
    rw [abs_le]
    constructor <;> omega
  rw [expHalvings, w1, w2, w3, expK]

/-- The scaled ratio fits one word. -/
lemma expScaled_lt (hz : z ≤ 0) : (expRatio (expReduced z)).toNat *
    3822833074963236453042738258902158003155416615667 < 2 ^ 256 := by
  have hr := expRatio_lt (abs_expReduced hz)
  have : (expRatio (expReduced z)).toNat < 2 ^ 94 := by omega
  omega

lemma expValue_lt (hx : x ≤ 0) : expValue x < 2 ^ 254 := by
  have hk := expK_nonpos (expFixed_nonpos hx)
  have hn := expScaled_lt (expFixed_nonpos hx)
  have hpow : 2 ^ 2 ≤ 2 ^ (195 - expK (expFixed x)).toNat :=
    Nat.pow_le_pow_right (by norm_num) (by omega)
  have hdiv := Nat.div_le_div_left (a := (expRatio (expReduced (expFixed x))).toNat *
    3822833074963236453042738258902158003155416615667) hpow (by norm_num)
  rw [expValue]
  omega

theorem wadExp_eq (hx : x ≤ 0) (hlo : -(41 * 10 ^ 18) ≤ x) : wadExp x = .ok (expValue x : ℤ) := by
  have hf := expFixed_nonpos hx
  have hfge := expFixed_ge hx hlo
  have hred := abs_expReduced hf
  have hk := expK_ge hf hfge
  have hk0 := expK_nonpos hf
  have hr0 := expRatio_nonneg hred
  have hr1 := expRatio_lt hred
  have w1 : wrap (x * 2 ^ 78) = x * 2 ^ 78 := wrap_eq (by rw [abs_le]; constructor <;> omega)
  have w2 : wrap (expK (expFixed x) * LN2) = expK (expFixed x) * LN2 := by
    refine wrap_eq ?_
    rw [abs_le, LN2]
    constructor <;> omega
  have w3 : wrap (expReduced (expFixed x)) = expReduced (expFixed x) :=
    wrap_eq (hred.trans (by norm_num [expBound]))
  have hdiv : (expP (expReduced (expFixed x))).tdiv (expQ (expReduced (expFixed x)))
      = expRatio (expReduced (expFixed x)) := by
    rw [expP_eq hred, expQ_eq hred, Int.tdiv_eq_ediv_of_nonneg (expNum_pos hred).le, expRatio]
  have w4 : wrap (expRatio (expReduced (expFixed x))) = expRatio (expReduced (expFixed x)) :=
    wrap_eq (by rw [abs_of_nonneg hr0]; omega)
  have w5 : wrap (195 - expK (expFixed x)) = 195 - expK (expFixed x) :=
    wrap_eq (by rw [abs_le]; constructor <;> omega)
  have hmod : expRatio (expReduced (expFixed x)) % 2 ^ 256 = expRatio (expReduced (expFixed x)) :=
    Int.emod_eq_of_lt hr0 (by omega)
  have hkmod : (195 - expK (expFixed x)) % 2 ^ 256 = 195 - expK (expFixed x) :=
    Int.emod_eq_of_lt (by omega) (by omega)
  have hword : (expRatio (expReduced (expFixed x))).toNat *
      3822833074963236453042738258902158003155416615667 % 2 ^ 256
      = (expRatio (expReduced (expFixed x))).toNat *
        3822833074963236453042738258902158003155416615667 := Nat.mod_eq_of_lt (expScaled_lt hf)
  have hshr : shr ((expRatio (expReduced (expFixed x))).toNat *
      3822833074963236453042738258902158003155416615667) (195 - expK (expFixed x)).toNat
      = expValue x := by
    rw [shr, if_pos (by omega), expValue]
  have w6 : wrap (expValue x : ℤ) = expValue x := by
    have := expValue_lt hx
    exact Int.bmod_eq_of_le_mul_two (by push_cast; omega) (by push_cast; omega)
  have hguard :
      (guard (x < 135305999368893231589) Error.EXP_OVERFLOW : Except Error Unit) = .ok () :=
    guard_of_true (by omega)
  rw [wadExp, if_neg (by omega), hguard]
  simp only [ok_bind]
  rw [w1, ← expFixed, expHalvings_eq hf hfge, w2, ← expReduced, w3, hdiv, w4, hmod, w5, hkmod,
    hword, hshr, w6]
  rfl

/-! ### Monotonicity -/

/-- Across a halving the ratio at most doubles; the gap between distinct arguments absorbs the
error of the approximation at the two ends of the interval. -/
lemma expRatio_halving (hz' : z' ≤ 0) (hgap : z + 79228162513 ≤ z') (hk : expK z' = expK z + 1) :
    expRatio (expReduced z) ≤ 2 * expRatio (expReduced z') := by
  have hz : z ≤ 0 := by omega
  have hb := (expReduced_bounds hz).2
  have hb' := (expReduced_bounds hz').1
  have ha := abs_expReduced hz
  have ha' := abs_expReduced hz'
  have hrel : expReduced z + 79228162513 ≤ expReduced z' + LN2 := by
    rw [expReduced, expReduced, hk]
    linarith
  rcases le_or_gt (expReduced z) (LN2 / 2 - 30000000000) with h | h
  · have h1 := expRatio_mono ha (y := LN2 / 2 - 30000000000) (by norm_num [LN2, expBound]) h
    have h2 := expRatio_mono (x := -(LN2 / 2 + 1)) (by norm_num [LN2, expBound]) ha' hb'
    have h3 : expRatio (LN2 / 2 - 30000000000) ≤ 2 * expRatio (-(LN2 / 2 + 1)) := by decide +kernel
    omega
  · have hlow : -(LN2 / 2) + 30000000000 ≤ expReduced z' := by
      norm_num [LN2] at *
      omega
    have h1 := expRatio_mono ha (y := LN2 / 2 + 1) (by norm_num [LN2, expBound]) hb
    have h2 := expRatio_mono (x := -(LN2 / 2) + 30000000000) (by norm_num [LN2, expBound]) ha' hlow
    have h3 : expRatio (LN2 / 2 + 1) ≤ 2 * expRatio (-(LN2 / 2) + 30000000000) := by decide +kernel
    omega

/-- Over two halvings and more the ends of the interval decide. -/
lemma expRatio_far (hz : z ≤ 0) (hz' : z' ≤ 0) :
    expRatio (expReduced z) ≤ 4 * expRatio (expReduced z') := by
  have ha := abs_expReduced hz
  have ha' := abs_expReduced hz'
  have h1 := expRatio_mono ha (y := expBound) (by norm_num [expBound]) (abs_le.mp ha).2
  have h2 := expRatio_mono (x := -expBound) (by norm_num [expBound]) ha' (abs_le.mp ha').1
  have h3 : expRatio expBound ≤ 4 * expRatio (-expBound) := by decide +kernel
  omega

lemma expRatio_le_pow (hy : y ≤ 0) (hxy : x < y) :
    expRatio (expReduced (expFixed x)) ≤
      expRatio (expReduced (expFixed y)) *
        2 ^ (expK (expFixed y) - expK (expFixed x)).toNat := by
  have hfx := expFixed_nonpos (x := x) (by omega)
  have hfy := expFixed_nonpos hy
  have hgap := expFixed_gap hy hxy
  have hk := expK_mono hfy (z := expFixed x) (by omega)
  have h0 := expRatio_nonneg (abs_expReduced hfy)
  obtain ⟨n, hn⟩ : ∃ n : ℕ, expK (expFixed y) = expK (expFixed x) + n :=
    ⟨(expK (expFixed y) - expK (expFixed x)).toNat, by omega⟩
  have hn' : (expK (expFixed y) - expK (expFixed x)).toNat = n := by omega
  rw [hn']
  match n, hn with
  | 0, hn =>
    have hred : expReduced (expFixed x) ≤ expReduced (expFixed y) := by
      rw [expReduced, expReduced, hn]
      push_cast
      linarith
    simpa using expRatio_mono (abs_expReduced hfx) (abs_expReduced hfy) hred
  | 1, hn =>
    have := expRatio_halving hfy hgap (by simpa using hn)
    linarith
  | n + 2, _ =>
    have h4 := expRatio_far hfx hfy
    have hpow : (4 : ℤ) ≤ 2 ^ (n + 2) := by
      rw [pow_add]
      have : (1 : ℤ) ≤ 2 ^ n := one_le_pow₀ (by norm_num)
      linarith
    nlinarith

/-- `_wadExp` is monotone on the arguments of the multiplier. -/
theorem expValue_mono (hy : y ≤ 0) (hxy : x ≤ y) :
    expValue x ≤ expValue y := by
  rcases hxy.eq_or_lt with rfl | hlt
  · rfl
  have hfx := expFixed_nonpos (x := x) (by omega)
  have hfy := expFixed_nonpos hy
  have hkx := expK_nonpos hfx
  have hky := expK_nonpos hfy
  have hk := expK_mono hfy (expFixed_mono hy hxy)
  have hr := expRatio_le_pow hy hlt
  have h0 := expRatio_nonneg (abs_expReduced hfy)
  have hrn : (expRatio (expReduced (expFixed x))).toNat ≤
      (expRatio (expReduced (expFixed y))).toNat *
        2 ^ (expK (expFixed y) - expK (expFixed x)).toNat := by
    zify
    rw [Int.toNat_of_nonneg (expRatio_nonneg (abs_expReduced hfx)), Int.toNat_of_nonneg h0]
    exact hr
  have hpow : 2 ^ (195 - expK (expFixed x)).toNat =
      2 ^ (195 - expK (expFixed y)).toNat * 2 ^ (expK (expFixed y) - expK (expFixed x)).toNat := by
    rw [← pow_add]
    congr 1
    omega
  rw [expValue, expValue, hpow]
  generalize 2 ^ (195 - expK (expFixed y)).toNat = d at *
  generalize (expRatio (expReduced (expFixed y))).toNat = ry at *
  generalize (expRatio (expReduced (expFixed x))).toNat = rx at *
  have he : 0 < 2 ^ (expK (expFixed y) - expK (expFixed x)).toNat := by positivity
  generalize 2 ^ (expK (expFixed y) - expK (expFixed x)).toNat = e at *
  calc rx * 3822833074963236453042738258902158003155416615667 / (d * e)
      ≤ ry * e * 3822833074963236453042738258902158003155416615667 / (d * e) :=
        Nat.div_le_div_right (Nat.mul_le_mul_right _ hrn)
    _ = ry * 3822833074963236453042738258902158003155416615667 * e / (d * e) := by
        congr 1
        ring
    _ = ry * 3822833074963236453042738258902158003155416615667 / d := Nat.mul_div_mul_right _ _ he

lemma expValue_zero : expValue 0 = WAD := by decide +kernel

lemma expValue_floor : expValue (-(41 * 10 ^ 18)) = 1 := by decide +kernel

/-! ### The multiplier of a curve -/

/-- The exponent of the multiplier after `elapsed` seconds. -/
def Curve.exponent (c : Curve) (elapsed : ℕ) : ℤ := max (c.rate * elapsed) (-(41 * 10 ^ 18))

/-- `m(t)`, `elapsed` seconds after deployment. -/
def Curve.multiplierAt (c : Curve) (elapsed : ℕ) : ℕ := expValue (c.exponent elapsed)

variable (c : Curve)

lemma Curve.exponent_bounds (n : ℕ) : -(41 * 10 ^ 18) ≤ c.exponent n ∧ c.exponent n ≤ 0 := by
  refine ⟨le_max_right _ _, max_le ?_ (by norm_num)⟩
  exact mul_nonpos_of_nonpos_of_nonneg c.rate_nonpos (by positivity)

/-- The multiplier never grows with time. -/
theorem Curve.multiplierAt_anti {n n' : ℕ} (h : n ≤ n') :
    c.multiplierAt n' ≤ c.multiplierAt n := by
  refine expValue_mono (c.exponent_bounds n).2 ?_
  refine max_le_max_right _ (mul_le_mul_of_nonpos_left ?_ c.rate_nonpos)
  exact_mod_cast h

lemma Curve.multiplierAt_pos (n : ℕ) : 0 < c.multiplierAt n := by
  have := expValue_mono (c.exponent_bounds n).2 (c.exponent_bounds n).1
  rw [expValue_floor] at this
  exact this

lemma Curve.multiplierAt_le (n : ℕ) : c.multiplierAt n ≤ WAD := by
  rw [← expValue_zero]
  exact expValue_mono le_rfl (c.exponent_bounds n).2

lemma Curve.multiplierAt_zero : c.multiplierAt 0 = WAD := by
  rw [Curve.multiplierAt, Curve.exponent, Nat.cast_zero, mul_zero, max_eq_left (by norm_num),
    expValue_zero]

/-- After deployment `multiplier()` never reverts. -/
theorem multiplier_eq (s : State) (h : c.deployTime ≤ s.now) :
    multiplier c s = .ok (c.multiplierAt (s.now.val - c.deployTime.val)) := by
  have hle : c.deployTime.val ≤ s.now.val := h
  have hn : s.now.val - c.deployTime.val < 2 ^ 64 := by have := s.now.isLt; omega
  have hsub : (subU s.now.val c.deployTime.val : Except Error ℕ)
      = .ok (s.now.val - c.deployTime.val) := subU_ok_iff.mpr ⟨hle, rfl⟩
  generalize s.now.val - c.deployTime.val = n at *
  have hw : wrap (n : ℤ) = n := wrap_eq (by rw [abs_of_nonneg (by positivity)]; omega)
  have hr1 := c.rate_nonpos
  have hr2 := c.rate_ge
  have hlo : -(10 ^ 24 * 2 ^ 64) ≤ c.rate * n := by nlinarith
  have hhi : c.rate * n ≤ 0 := mul_nonpos_of_nonpos_of_nonneg hr1 (by positivity)
  have hmin : (-2 ^ (256 - 1) : ℤ) ≤ -(10 ^ 24 * 2 ^ 64) := by norm_num
  have hfit : (fitI 256 (c.rate * wrap n) : Except Error ℤ) = .ok (c.rate * n) := by
    rw [hw, fitI_ok_iff]
    exact ⟨⟨hmin.trans hlo, hhi.trans_lt (by positivity)⟩, rfl⟩
  have hmax : (if c.rate * n < -(41 * 10 ^ 18) then -(41 * 10 ^ 18) else c.rate * n)
      = c.exponent n := by
    rw [Curve.exponent]
    split
    · rw [max_eq_right (by omega)]
    · rw [max_eq_left (by omega)]
  have hb := c.exponent_bounds n
  have hlt := expValue_lt hb.2
  have hmod : ((expValue (c.exponent n) : ℤ) % 2 ^ 256).toNat = expValue (c.exponent n) := by
    omega
  simp only [multiplier, hsub, hfit, ok_bind, hmax, wadExp_eq hb.2 hb.1, hmod]
  rfl

/-- The multiplier starts at one, only falls, and never becomes zero; reading it never reverts. -/
theorem multiplier_decays (s₁ s₂ : State) (h₁ : c.deployTime ≤ s₁.now) (h₂ : s₁.now ≤ s₂.now) :
    ∃ m₁ m₂, multiplier c s₁ = .ok m₁ ∧ multiplier c s₂ = .ok m₂ ∧ 0 < m₂ ∧ m₂ ≤ m₁ ∧
      m₁ ≤ 10 ^ 18 ∧ (s₁.now = c.deployTime → m₁ = 10 ^ 18) := by
  refine ⟨_, _, multiplier_eq c s₁ h₁, multiplier_eq c s₂ (h₁.trans h₂), c.multiplierAt_pos _, ?_,
    c.multiplierAt_le _, fun hstart => ?_⟩
  · have hle : s₁.now.val ≤ s₂.now.val := h₂
    exact c.multiplierAt_anti (by omega)
  · rw [hstart, Nat.sub_self, c.multiplierAt_zero]
    rfl

/-- Halving in about eleven minutes. -/
def decaying : Curve where
  reserveDecimals := 18
  deployTime := 0
  basePrice := 1
  slope := 0
  rate := -1000000000000000
  sinkRate := 0
  reserveDecimals_le := le_rfl
  basePrice_pos := by norm_num
  slope_le := by norm_num
  rate_nonpos := by norm_num
  rate_ge := by norm_num
  sinkRate_lt := by decide

theorem multiplier_decays_hour : ∃ m₁ m₂, multiplier decaying (.init decaying 0) = .ok m₁ ∧
    multiplier decaying { State.init decaying 0 with now := 3600 } = .ok m₂ ∧ 0 < m₂ ∧ m₂ ≤ m₁ ∧
      m₁ ≤ 10 ^ 18 ∧ ((State.init decaying 0).now = decaying.deployTime → m₁ = 10 ^ 18) :=
  multiplier_decays decaying (.init decaying 0) { State.init decaying 0 with now := 3600 }
    (by decide) (by decide)

end Suwappu.TimeCurve
