import Suwappu.Lib.Checked
import Suwappu.Lib.WideWord

/-!
# Multiply-then-divide

The 512-bit `_mulDiv` that the immutable primitives share, operation by operation, and its
specification: it returns `⌊x * y / d⌋` whenever that is a word and fails otherwise.
-/

namespace Suwappu

open Checked WideWord

universe u
variable {ε : Type u}

/-- `1e18`, the fixed-point one of every primitive. -/
def WAD : ℕ := 10 ^ 18

lemma WAD_pos : 0 < WAD := by decide

/-- An error type with the two reasons `_mulDiv` reverts with. -/
class MulDivError (ε : Type u) extends Overflow ε where
  divZero : ε
  mulDivOverflow : ε

variable [MulDivError ε]

/-- The high word of the 512-bit product, off its residue modulo `2 ^ 256 - 1`. -/
def mulDivHigh (x y : ℕ) : ℕ :=
  let mm := mulmod x y (wnot 256 0)
  let prod0 := wmul 256 x y
  wsub 256 (wsub 256 mm prod0) (if mm < prod0 then 1 else 0)

/-- The inverse of an odd word: a four-bit seed and six Newton steps. -/
def mulDivInverse (d : ℕ) : ℕ :=
  let inverse := wmul 256 3 d ^^^ 2
  let inverse := newtonStep 256 d inverse
  let inverse := newtonStep 256 d inverse
  let inverse := newtonStep 256 d inverse
  let inverse := newtonStep 256 d inverse
  let inverse := newtonStep 256 d inverse
  newtonStep 256 d inverse

/-- The branch of `_mulDiv` whose product does not fit one word. -/
def mulDivWide (x y denominator prod0 prod1 : ℕ) : ℕ :=
  let remainder := mulmod x y denominator
  let prod1 := wsub 256 prod1 (if remainder > prod0 then 1 else 0)
  let prod0 := wsub 256 prod0 remainder
  let twos := denominator &&& wadd 256 (wnot 256 denominator) 1
  let denominator := denominator / twos
  let prod0 := prod0 / twos
  let twos := wadd 256 (wsub 256 0 twos / twos) 1
  let prod0 := prod0 ||| wmul 256 prod1 twos
  wmul 256 prod0 (mulDivInverse denominator)

/-- `_mulDiv`. Its operands are words; anything else is not a call of it. -/
def mulDiv (x y denominator : ℕ) : Except ε ℕ := do
  guard (x < 2 ^ 256 ∧ y < 2 ^ 256 ∧ denominator < 2 ^ 256) Overflow.overflow
  let prod0 := wmul 256 x y
  let prod1 := mulDivHigh x y
  if prod1 = 0 then
    guard (denominator > 0) MulDivError.divZero
    return prod0 / denominator
  guard (denominator > prod1) MulDivError.mulDivOverflow
  return mulDivWide x y denominator prod0 prod1

/-! ### Specification -/

lemma mulDivHigh_eq {x y : ℕ} (hx : x < 2 ^ 256) (hy : y < 2 ^ 256) :
    mulDivHigh x y = x * y / 2 ^ 256 :=
  high_eq (w := 256) (by norm_num) hx hy

/-- A product fits one word exactly when its high word is zero. -/
lemma mul_lt_of_high_eq_zero {x y : ℕ} (h : x * y / 2 ^ 256 = 0) : x * y < 2 ^ 256 := by
  by_contra hc
  have : 1 ≤ x * y / 2 ^ 256 := (Nat.one_le_div_iff (by positivity)).mpr (by omega)
  omega

/-- The denominator exceeds the high word exactly when the quotient is a word. -/
lemma gt_high_iff {x y d : ℕ} : d > x * y / 2 ^ 256 ↔ 0 < d ∧ x * y / d < 2 ^ 256 := by
  constructor
  · intro h
    have hd : 0 < d := by omega
    have hmul : x * y < d * 2 ^ 256 := (Nat.div_lt_iff_lt_mul (by positivity)).mp h
    exact ⟨hd, (Nat.div_lt_iff_lt_mul hd).mpr (by rwa [mul_comm (2 ^ 256)])⟩
  · rintro ⟨hd, h⟩
    have hmul : x * y < 2 ^ 256 * d := (Nat.div_lt_iff_lt_mul hd).mp h
    exact (Nat.div_lt_iff_lt_mul (by positivity)).mpr (by rwa [mul_comm d])

lemma mulDivInverse_dvd {d : ℕ} (hd : d % 2 = 1) :
    (2 : ℤ) ^ 256 ∣ 1 - d * mulDivInverse d := by
  have h8 := newtonStep_dvd (w := 256) (k := 4) (by norm_num) (seed_dvd (w := 256) (by norm_num) hd)
  have h16 := newtonStep_dvd (w := 256) (by norm_num) h8
  have h32 := newtonStep_dvd (w := 256) (by norm_num) h16
  have h64 := newtonStep_dvd (w := 256) (by norm_num) h32
  have h128 := newtonStep_dvd (w := 256) (by norm_num) h64
  exact newtonStep_dvd (w := 256) (by norm_num) h128

/-- Taking the remainder off the double-width product borrows from the high word. -/
lemma mulDiv_borrow {P r : ℕ} (hr : r ≤ P) (hr' : r < 2 ^ 256) (hP : P / 2 ^ 256 < 2 ^ 256) :
    wsub 256 (P / 2 ^ 256) (if r > P % 2 ^ 256 then 1 else 0) = (P - r) / 2 ^ 256 ∧
      wsub 256 (P % 2 ^ 256) r = (P - r) % 2 ^ 256 := by
  have hlo : P % 2 ^ 256 < 2 ^ 256 := Nat.mod_lt _ (by positivity)
  have hdm := Nat.div_add_mod P (2 ^ 256)
  generalize P / 2 ^ 256 = hi at *
  generalize P % 2 ^ 256 = lo at *
  rcases le_or_gt r lo with h | h
  · have e : P - r = 2 ^ 256 * hi + (lo - r) := by omega
    rw [if_neg (by omega), wsub_of_le (by omega) hP, wsub_of_le h hlo, e,
      Nat.mul_add_div (by positivity), Nat.mul_add_mod, Nat.div_eq_of_lt (by omega),
      Nat.mod_eq_of_lt (by omega)]
    omega
  · have hhi : 1 ≤ hi := by
      by_contra h0
      have : hi = 0 := by omega
      subst this
      omega
    have e : P - r = 2 ^ 256 * (hi - 1) + (lo + 2 ^ 256 - r) := by
      have : 2 ^ 256 * hi = 2 ^ 256 * (hi - 1) + 2 ^ 256 := by
        rw [← Nat.mul_succ]
        congr 1
        omega
      omega
    rw [if_pos h, wsub_of_le hhi hP, wsub_of_lt h hr'.le, e, Nat.mul_add_div (by positivity),
      Nat.mul_add_mod, Nat.div_eq_of_lt (by omega), Nat.mod_eq_of_lt (by omega)]
    omega

/-- Shifting a double-width multiple of `2 ^ k` right by `k` bits, read off its halves. -/
lemma mulDiv_shift {Q k : ℕ} (hk : k < 256) :
    Q % 2 ^ 256 / 2 ^ k |||
        wmul 256 (Q / 2 ^ 256) (wadd 256 (wsub 256 0 (2 ^ k) / 2 ^ k) 1)
      = Q / 2 ^ k % 2 ^ 256 := by
  obtain ⟨j, hj⟩ : ∃ j, k + j = 256 := ⟨256 - k, by omega⟩
  have hpow : (2 : ℕ) ^ 256 = 2 ^ k * 2 ^ j := by rw [← hj, pow_add]
  have hkpos : 0 < 2 ^ k := by positivity
  have hjpos : 1 < 2 ^ j := Nat.one_lt_two_pow (by omega)
  have htwos : wsub 256 0 (2 ^ k) / 2 ^ k = 2 ^ j - 1 := by
    have : wsub 256 0 (2 ^ k) = 2 ^ k * (2 ^ j - 1) := by
      rw [wsub_of_lt hkpos (by rw [hpow]; exact Nat.le_mul_of_pos_right _ (by omega)), hpow,
        Nat.mul_sub]
      omega
    rw [this, Nat.mul_div_cancel_left _ hkpos]
  have hlow : Q % 2 ^ 256 / 2 ^ k = Q / 2 ^ k % 2 ^ j := by
    rw [hpow, Nat.mod_mul_right_div_self]
  have hhigh : wmul 256 (Q / 2 ^ 256) (wadd 256 (2 ^ j - 1) 1)
      = 2 ^ j * (Q / 2 ^ k / 2 ^ j % 2 ^ k) := by
    have hadd : wadd 256 (2 ^ j - 1) 1 = 2 ^ j % 2 ^ 256 := by
      rw [wadd, Nat.sub_add_cancel (by omega)]
    rw [wmul, hadd, Nat.mul_mod_mod, Nat.div_div_eq_div_mul, ← hpow, mul_comm, hpow,
      mul_comm (2 ^ k), Nat.mul_mod_mul_left]
  rw [htwos, hlow, hhigh, Nat.or_comm,
    ← Nat.two_pow_add_eq_or_of_lt (Nat.mod_lt _ (by positivity))]
  conv_rhs => rw [hpow, mul_comm, Nat.mod_mul]
  omega

lemma mulDivWide_eq {x y d : ℕ} (hx : x < 2 ^ 256) (hy : y < 2 ^ 256) (hd : 0 < d)
    (hdw : d < 2 ^ 256) (hq : x * y / d < 2 ^ 256) :
    mulDivWide x y d (wmul 256 x y) (x * y / 2 ^ 256) = x * y / d := by
  obtain ⟨k, m, hk, hm, rfl, hland⟩ := land_neg_eq hd hdw
  have hmpos : 0 < m := by omega
  have hneg : wadd 256 (wnot 256 (2 ^ k * m)) 1 = 2 ^ 256 - 2 ^ k * m := by
    have h : 2 ^ 256 - 1 - 2 ^ k * m + 1 = 2 ^ 256 - 2 ^ k * m := by omega
    rw [wadd, wnot, h, Nat.mod_eq_of_lt (by omega)]
  have hhi := (high_le hx hy).resolve_right (by norm_num)
  have hr : mulmod x y (2 ^ k * m) ≤ x * y := Nat.mod_le _ _
  have hr' : mulmod x y (2 ^ k * m) < 2 ^ 256 := (Nat.mod_lt _ hd).trans hdw
  obtain ⟨hb1, hb0⟩ := mulDiv_borrow hr hr' (by omega)
  have hQ : x * y - mulmod x y (2 ^ k * m) = 2 ^ k * (x * y / (2 ^ k * m) * m) := by
    have : 2 ^ k * m * (x * y / (2 ^ k * m)) + mulmod x y (2 ^ k * m) = x * y :=
      Nat.div_add_mod (x * y) (2 ^ k * m)
    have e : 2 ^ k * (x * y / (2 ^ k * m) * m) = 2 ^ k * m * (x * y / (2 ^ k * m)) := by ring
    omega
  have hlow : wmul 256 x y = x * y % 2 ^ 256 := rfl
  simp only [mulDivWide, hneg, hland]
  rw [hlow, hb1, hb0, mulDiv_shift hk, hQ, Nat.mul_div_cancel_left _ (by positivity),
    Nat.mul_div_cancel_left _ (by positivity)]
  exact wmul_inverse hq (mulDivInverse_dvd hm)

/-- `_mulDiv` returns the floor of the exact quotient when that is a word, and fails otherwise. -/
theorem mulDiv_ok_iff {x y d z : ℕ} : (mulDiv x y d : Except ε ℕ) = .ok z ↔
    (x < 2 ^ 256 ∧ y < 2 ^ 256 ∧ d < 2 ^ 256) ∧ 0 < d ∧ x * y / d < 2 ^ 256 ∧ x * y / d = z := by
  unfold mulDiv
  simp only [bind_ok_iff, guard_ok_iff, exists_const]
  refine and_congr_right fun ⟨hx, hy, hdw⟩ => ?_
  rw [mulDivHigh_eq hx hy]
  split
  · rename_i h0
    have hlt := mul_lt_of_high_eq_zero h0
    simp only [bind_ok_iff, guard_ok_iff, exists_const, pure_ok_iff, wmul, Nat.mod_eq_of_lt hlt]
    exact and_congr_right fun _ =>
      (and_iff_right ((Nat.div_le_self _ _).trans_lt hlt)).symm
  · simp only [bind_ok_iff, guard_ok_iff, exists_const, pure_ok_iff, gt_high_iff, and_assoc]
    refine and_congr_right fun hd => and_congr_right fun hq => ?_
    rw [mulDivWide_eq hx hy hd hdw hq]

/-- `_mulDiv` on any three words: the floor of the exact quotient where that is a word, and
otherwise the revert for a zero denominator or for a quotient that is too large. -/
theorem mulDiv_exact (x y d : BitVec 256) : (mulDiv x.toNat y.toNat d.toNat : Except ε ℕ) =
    if 0 < d.toNat ∧ x.toNat * y.toNat / d.toNat < 2 ^ 256 then
      .ok (x.toNat * y.toNat / d.toNat)
    else if x.toNat * y.toNat < 2 ^ 256 then .error MulDivError.divZero
    else .error MulDivError.mulDivOverflow := by
  have hwords : x.toNat < 2 ^ 256 ∧ y.toNat < 2 ^ 256 ∧ d.toNat < 2 ^ 256 :=
    ⟨x.isLt, y.isLt, d.isLt⟩
  split_ifs with hq hprod
  · exact mulDiv_ok_iff.mpr ⟨hwords, hq.1, hq.2, rfl⟩
  · -- the product is a word, and so is every quotient by a positive denominator
    have hd : ¬ d.toNat > 0 := fun hd => hq ⟨hd, (Nat.div_le_self _ _).trans_lt hprod⟩
    unfold mulDiv
    rw [mulDivHigh_eq hwords.1 hwords.2.1, Nat.div_eq_of_lt hprod, guard_of_true hwords, ok_bind,
      if_pos rfl, guard_error_iff.mpr ⟨hd, rfl⟩, error_bind]
  · have hhigh : x.toNat * y.toNat / 2 ^ 256 ≠ 0 := fun h => hprod (mul_lt_of_high_eq_zero h)
    have hd : ¬ d.toNat > x.toNat * y.toNat / 2 ^ 256 := fun hd => hq (gt_high_iff.mp hd)
    unfold mulDiv
    rw [mulDivHigh_eq hwords.1 hwords.2.1, guard_of_true hwords, ok_bind, if_neg hhigh,
      guard_error_iff.mpr ⟨hd, rfl⟩, error_bind]

lemma avoids_mulDiv {x y d : ℕ} {e : ε} (h₁ : Overflow.overflow ≠ e)
    (h₂ : MulDivError.divZero ≠ e) (h₃ : MulDivError.mulDivOverflow ≠ e) :
    Avoids e (mulDiv x y d) := by
  unfold mulDiv
  refine (avoids_guard h₁).bind fun _ _ => ?_
  dsimp only
  split
  · exact (avoids_guard h₂).bind fun _ _ => avoids_pure _
  · exact (avoids_guard h₃).bind fun _ _ => avoids_pure _

end Suwappu
