import Mathlib.Tactic

/-!
# Polynomials in truncated fixed point

A polynomial evaluated in fixed point with one floor division by `S` after every product is not a
polynomial, but it stays close to one. `Tame H U M f` bounds such an `f` and its slope on
`[-H, H]`; products and constants keep it, so Horner schemes are tame step by step, and at the end
the sign of the slope follows from the size of the last factor (`Tame.strictMono_mulAdd`,
`Tame.anti_horner`).
-/

namespace FloorPoly

variable {S H U V M N : ℤ} {f g : ℤ → ℤ}

/-- On `[-H, H]`, `f` is bounded by `U` and moves by at most `M` per unit. -/
structure Tame (H U M : ℤ) (f : ℤ → ℤ) : Prop where
  bound : ∀ x, |x| ≤ H → |f x| ≤ U
  slope : ∀ x y, |x| ≤ H → |y| ≤ H → x ≤ y → |f y - f x| ≤ M * (y - x)

lemma tame_id : Tame H H 1 (fun x => x) where
  bound _ h := h
  slope x y _ _ hxy := by rw [abs_of_nonneg (by omega)]; omega

/-- Weaken the bounds. -/
lemma Tame.mono (h : Tame H U M f) {U' M' : ℤ} (hU : U ≤ U') (hM : M ≤ M') : Tame H U' M' f where
  bound x hx := (h.bound x hx).trans hU
  slope x y hx hy hxy := (h.slope x y hx hy hxy).trans
    (mul_le_mul_of_nonneg_right hM (by omega))

lemma Tame.add_const (h : Tame H U M f) (c : ℤ) : Tame H (U + |c|) M (fun x => f x + c) where
  bound x hx := (abs_add_le _ _).trans (by have := h.bound x hx; omega)
  slope x y hx hy hxy := by
    have e : f y + c - (f x + c) = f y - f x := by ring
    rw [e]
    exact h.slope x y hx hy hxy

lemma Tame.add (hf : Tame H U M f) (hg : Tame H V N g) :
    Tame H (U + V) (M + N) (fun x => f x + g x) where
  bound x hx := (abs_add_le _ _).trans (add_le_add (hf.bound x hx) (hg.bound x hx))
  slope x y hx hy hxy := by
    have e : f y + g y - (f x + g x) = (f y - f x) + (g y - g x) := by ring
    rw [e, add_mul]
    exact (abs_add_le _ _).trans (add_le_add (hf.slope x y hx hy hxy) (hg.slope x y hx hy hxy))

/-- The exact product, before its floor. -/
lemma Tame.mul (hf : Tame H U M f) (hg : Tame H V N g) :
    Tame H (U * V) (M * V + U * N) (fun x => f x * g x) where
  bound x hx := by
    rw [abs_mul]
    exact mul_le_mul (hf.bound x hx) (hg.bound x hx) (abs_nonneg _)
      ((abs_nonneg _).trans (hf.bound x hx))
  slope x y hx hy hxy := by
    have e : f y * g y - f x * g x = (f y - f x) * g y + f x * (g y - g x) := by ring
    have hM : 0 ≤ M * (y - x) := (abs_nonneg _).trans (hf.slope x y hx hy hxy)
    have h1 : |f y - f x| * |g y| ≤ M * (y - x) * V :=
      mul_le_mul (hf.slope x y hx hy hxy) (hg.bound y hy) (abs_nonneg _) hM
    have h2 : |f x| * |g y - g x| ≤ U * (N * (y - x)) :=
      mul_le_mul (hf.bound x hx) (hg.slope x y hx hy hxy) (abs_nonneg _)
        ((abs_nonneg _).trans (hf.bound x hx))
    calc |f y * g y - f x * g x| ≤ |f y - f x| * |g y| + |f x| * |g y - g x| := by
          rw [e, ← abs_mul, ← abs_mul]
          exact abs_add_le _ _
      _ ≤ M * (y - x) * V + U * (N * (y - x)) := add_le_add h1 h2
      _ = (M * V + U * N) * (y - x) := by ring

/-- Flooring after a division by `S` costs one unit in the value and one in the slope. -/
lemma Tame.floor (h : Tame H U M f) (hS : 0 < S) {U' M' : ℤ} (hU : U + S ≤ S * U')
    (hM : M + S ≤ S * M') : Tame H U' M' (fun x => f x / S) where
  bound x hx := by
    have hb := abs_le.mp (h.bound x hx)
    have hlo := Int.mul_ediv_self_le (x := f x) hS.ne'
    have hhi := Int.lt_mul_ediv_self_add (x := f x) hS
    rw [abs_le]
    constructor <;> nlinarith
  slope x y hx hy hxy := by
    rcases hxy.eq_or_lt with rfl | hlt
    · simp
    have hs := abs_le.mp (h.slope x y hx hy hxy)
    have hlox := Int.mul_ediv_self_le (x := f x) hS.ne'
    have hhix := Int.lt_mul_ediv_self_add (x := f x) hS
    have hloy := Int.mul_ediv_self_le (x := f y) hS.ne'
    have hhiy := Int.lt_mul_ediv_self_add (x := f y) hS
    have hd : 1 ≤ y - x := by omega
    have hk : S * 1 ≤ S * (y - x) := mul_le_mul_of_nonneg_left hd hS.le
    have hM' : (M + S) * (y - x) ≤ S * M' * (y - x) := mul_le_mul_of_nonneg_right hM (by omega)
    rw [abs_le]
    constructor <;> nlinarith

/-- One Horner step with its floor. -/
lemma Tame.horner (h : Tame H U M f) (hS : 0 < S) (c : ℤ) {U' M' : ℤ}
    (hU : U * H + S + S * |c| ≤ S * U') (hM : M * H + U + S ≤ S * M') :
    Tame H U' M' (fun x => f x * x / S + c) := by
  have hmul : Tame H (U' - |c|) M' (fun x => f x * x / S) :=
    (h.mul tame_id).floor hS (by linarith) (by linarith)
  exact (hmul.add_const c).mono (by linarith) le_rfl

/-! ### Monotone last steps -/

/-- What the slope of `f` adds to `f x * x`. -/
lemma Tame.abs_slope_mul_le (h : Tame H U M f) {x y : ℤ} (hx : |x| ≤ H) (hy : |y| ≤ H)
    (hxy : x ≤ y) : |(f y - f x) * y| ≤ M * (y - x) * H := by
  have hs := h.slope x y hx hy hxy
  rw [abs_mul]
  exact mul_le_mul hs hy (abs_nonneg _) ((abs_nonneg _).trans hs)

/-- `f x * x + c` grows with `x` as long as `f` exceeds what its slope can take back. -/
lemma Tame.strictMono_mulAdd (h : Tame H U M f) (c : ℤ) (hpos : ∀ x, |x| ≤ H → M * H < f x)
    {x y : ℤ} (hx : |x| ≤ H) (hy : |y| ≤ H) (hxy : x < y) : f x * x + c < f y * y + c := by
  have e : f y * y - f x * x = (f y - f x) * y + f x * (y - x) := by ring
  have h1 := (abs_le.mp (h.abs_slope_mul_le hx hy hxy.le)).1
  have h2 : M * H * (y - x) < f x * (y - x) := mul_lt_mul_of_pos_right (hpos x hx) (by omega)
  linarith

/-- A floored last step with a negative factor falls with `x`. -/
lemma Tame.anti_horner (h : Tame H U M f) (hS : 0 < S) (c : ℤ)
    (hneg : ∀ x, |x| ≤ H → f x + M * H ≤ 0) {x y : ℤ} (hx : |x| ≤ H) (hy : |y| ≤ H)
    (hxy : x ≤ y) : f y * y / S + c ≤ f x * x / S + c := by
  have e : f y * y - f x * x = (f y - f x) * y + f x * (y - x) := by ring
  have h1 := (abs_le.mp (h.abs_slope_mul_le hx hy hxy)).2
  have h2 : (f x + M * H) * (y - x) ≤ 0 :=
    mul_nonpos_of_nonpos_of_nonneg (hneg x hx) (by omega)
  have h3 : f y * y ≤ f x * x := by linarith
  have := Int.ediv_le_ediv hS h3
  omega

end FloorPoly
