import Mathlib.Tactic

/-!
# Rounding losses

Prices are computed by chains of floor divisions. The lemmas here state what such a chain drops,
exactly, so that amounts charged with one chain and paid with another can be compared over any
number of trades.
-/

namespace Rounding

/-- `⌈a / b⌉`, written so that nothing can overflow. -/
def ceilDiv (a b : ℕ) : ℕ := if a = 0 then 0 else (a - 1) / b + 1

lemma le_mul_ceilDiv (a : ℕ) {b : ℕ} (hb : 0 < b) : a ≤ b * ceilDiv a b := by
  unfold ceilDiv
  split
  · omega
  · have h1 := Nat.div_add_mod (a - 1) b
    have h2 := Nat.mod_lt (a - 1) hb
    rw [mul_add, mul_one]
    omega

/-- What rounding up to a multiple of `b` adds. -/
lemma mul_ceilDiv_sub (a : ℕ) {b : ℕ} (hb : 0 < b) : b * ceilDiv a b - a = (b - a % b) % b := by
  unfold ceilDiv
  split
  · rename_i h
    simp [h]
  · rename_i h
    have h1 := Nat.div_add_mod (a - 1) b
    have h2 := Nat.mod_lt (a - 1) hb
    have e : a = (a - 1) % b + 1 + b * ((a - 1) / b) := by omega
    have hmod : a % b = ((a - 1) % b + 1) % b := by
      conv_lhs => rw [e, Nat.add_mul_mod_self_left]
    rw [hmod, mul_add, mul_one]
    rcases Nat.lt_or_ge ((a - 1) % b + 1) b with hlt | hge
    · rw [Nat.mod_eq_of_lt hlt, Nat.mod_eq_of_lt (by omega)]
      omega
    · rw [show (a - 1) % b + 1 = b by omega]
      simp
      omega

lemma ceilDiv_eq (a : ℕ) {b : ℕ} (hb : 0 < b) :
    ceilDiv a b = if a % b ≠ 0 then a / b + 1 else a / b := by
  have h := mul_ceilDiv_sub a hb
  have hle := le_mul_ceilDiv a hb
  have hdiv := Nat.div_add_mod a b
  have hlt := Nat.mod_lt a hb
  split
  · rename_i hne
    rw [Nat.mod_eq_of_lt (by omega : b - a % b < b)] at h
    refine Nat.eq_of_mul_eq_mul_left hb ?_
    rw [mul_add, mul_one]
    omega
  · rename_i hzero
    rw [ne_eq, not_not] at hzero
    rw [hzero, Nat.sub_zero, Nat.mod_self] at h
    exact Nat.eq_of_mul_eq_mul_left hb (by omega)

lemma div_le_ceilDiv (a : ℕ) {b : ℕ} (hb : 0 < b) : a / b ≤ ceilDiv a b := by
  rw [ceilDiv_eq a hb]
  split <;> omega

/-- An amount that a quantity is worth, rounded down, is worth at most that quantity rounded up. -/
lemma ceilDiv_le_of_le_div {a x i w : ℕ} (hi : 0 < i) (h : a ≤ x * i / w) :
    ceilDiv (a * w) i ≤ x := by
  have hle : a * w ≤ i * x := by
    rw [mul_comm i x]
    exact (Nat.mul_le_mul_right w h).trans (Nat.div_mul_le_self _ _)
  rw [ceilDiv]
  split
  · exact Nat.zero_le _
  · have hlt : (a * w - 1) / i < x := by
      rw [Nat.div_lt_iff_lt_mul hi, mul_comm x i]
      omega
    exact hlt

/-- A quantity priced at no less than one, its value rounded down: rounding up recovers it. -/
lemma ceilDiv_div_mul (x : ℕ) {i w : ℕ} (hw : 0 < w) (hi : w ≤ i) :
    ceilDiv (x * i / w * w) i = x := by
  have hipos : 0 < i := hw.trans_le hi
  refine le_antisymm (ceilDiv_le_of_le_div hipos le_rfl) ?_
  have hup := le_mul_ceilDiv (x * i / w * w) hipos
  have hdown : x * i < x * i / w * w + w := by
    have hdiv := Nat.div_add_mod (x * i) w
    have hmod := Nat.mod_lt (x * i) hw
    rw [mul_comm w] at hdiv
    omega
  have hlt : x * i < (ceilDiv (x * i / w * w) i + 1) * i := by
    rw [add_mul, one_mul, mul_comm (ceilDiv _ _) i]
    omega
  exact Nat.lt_succ_iff.mp (Nat.lt_of_mul_lt_mul_right hlt)

/-- Taking an amount, rounded up, off a quantity takes at least the amount off its value. -/
lemma sub_ceilDiv_mul_div_le (x a : ℕ) {i w : ℕ} (hi : 0 < i) :
    (x - ceilDiv (a * w) i) * i / w ≤ x * i / w - a := by
  have hup : w * a ≤ ceilDiv (a * w) i * i := by
    rw [mul_comm w, mul_comm (ceilDiv _ _)]
    exact le_mul_ceilDiv (a * w) hi
  have hle : (x - ceilDiv (a * w) i) * i ≤ x * i - w * a := by
    rw [Nat.sub_mul]
    exact Nat.sub_le_sub_left hup _
  exact (Nat.div_le_div_right hle).trans (Nat.sub_mul_div _ _ _).le

/-- Taking `a * w + e` off an amount lowers its floor by no more than `a` exactly when the extra `e`
is below the fraction the floor drops. -/
lemma div_le_sub_div_add_iff {w a e x : ℕ} (hw : 0 < w) (h : a * w + e ≤ x) :
    x / w ≤ (x - (a * w + e)) / w + a ↔ e ≤ x % w := by
  have hx := Nat.div_add_mod x w
  have hle : a ≤ x / w := by
    rw [Nat.le_div_iff_mul_le hw]
    omega
  obtain ⟨k, hk⟩ := Nat.exists_eq_add_of_le hle
  rw [hk, mul_add, mul_comm w a] at hx
  constructor
  · intro hdiv
    have hmul : w * k ≤ x - (a * w + e) := by
      rw [mul_comm]
      exact (Nat.le_div_iff_mul_le hw).mp (by omega)
    omega
  · intro he
    have hmul : k ≤ (x - (a * w + e)) / w := by
      rw [Nat.le_div_iff_mul_le hw, mul_comm]
      omega
    omega

/-- Two floored terms, the second one halved: the integral of a linear price and its remainder. -/
lemma slice_eq (W base slope a d : ℕ) : 2 * base * a + slope * d
    = 2 * W * (base * a / W + slope * d / W / 2)
      + (2 * (base * a % W) + slope * d % W + W * (slope * d / W % 2)) := by
  have hbase := Nat.div_add_mod (base * a) W
  have hrise := Nat.div_add_mod (slope * d) W
  have hhalf := Nat.div_add_mod (slope * d / W) 2
  generalize base * a / W = lin at *
  generalize base * a % W = r₁ at *
  generalize slope * d / W = q at *
  generalize slope * d % W = r₂ at *
  generalize q / 2 = half at *
  generalize q % 2 = r₃ at *
  subst hhalf
  rw [← hrise, mul_assoc 2 base a, ← hbase]
  ring

/-! ### Amounts in parts -/

section Parts

variable (W σ : ℕ)

/-- What the parts keep of their fractions in `σ / W`, and what they drop of them. -/
lemma sum_floor_eq (gs : List ℕ) :
    W * (gs.map fun g => g * σ / W).sum + (gs.map fun g => g * σ % W).sum = gs.sum * σ := by
  induction gs with
  | nil => simp
  | cons g gs ih =>
    have h := Nat.div_add_mod (g * σ) W
    simp only [List.map_cons, List.sum_cons, mul_add, add_mul]
    omega

variable {W σ}

lemma floor_le (hσ : σ ≤ W) (g : ℕ) : g * σ / W ≤ g := by
  refine Nat.div_le_of_le_mul ?_
  rw [mul_comm W g]
  exact Nat.mul_le_mul_left g hσ

lemma sum_sub_floor_add (hσ : σ ≤ W) (gs : List ℕ) :
    (gs.map fun g => g - g * σ / W).sum + (gs.map fun g => g * σ / W).sum = gs.sum := by
  induction gs with
  | nil => rfl
  | cons g gs ih =>
    have hle := floor_le hσ g
    simp only [List.map_cons, List.sum_cons]
    omega

/-- Charging the fraction `σ / W`, rounded down, on parts of an amount leaves no more than charging
it on the amount exactly when the parts drop less than a unit in all, beside the share of what the
parts lack of the amount. -/
lemma sum_sub_floor_le_iff (hσ : σ < W) {gs : List ℕ} {G : ℕ} (hle : gs.sum ≤ G) :
    (gs.map fun g => g - g * σ / W).sum ≤ G - G * σ / W ↔
      (gs.map fun g => g * σ % W).sum < W + (G - gs.sum) * (W - σ) := by
  obtain ⟨δ, rfl⟩ := Nat.exists_eq_add_of_le hle
  have hW : 0 < W := by omega
  have hkeep := sum_floor_eq W σ gs
  have hnet := sum_sub_floor_add hσ.le gs
  have hwhole := floor_le hσ.le (gs.sum + δ)
  rw [Nat.add_sub_cancel_left]
  generalize (gs.map fun g => g - g * σ / W).sum = net at *
  generalize (gs.map fun g => g * σ / W).sum = kept at *
  generalize (gs.map fun g => g * σ % W).sum = dropped at *
  -- the charge on the whole: that on the parts, and what they drop together
  have hcharge : (gs.sum + δ) * σ / W = kept + (dropped + δ * σ) / W := by
    rw [add_mul, ← hkeep, add_assoc, Nat.mul_add_div hW]
  have hsplit : δ * W = δ * (W - σ) + δ * σ := by
    rw [← mul_add, Nat.sub_add_cancel hσ.le]
  have hfloor : (dropped + δ * σ) / W ≤ δ ↔ dropped < W + δ * (W - σ) := by
    rw [← Nat.lt_succ_iff, Nat.div_lt_iff_lt_mul hW, Nat.succ_mul]
    omega
  rw [hcharge] at hwhole ⊢
  rw [← hfloor]
  omega

end Parts

variable {W scale : ℕ}

/-- A floored amount rounded up to multiples of `scale`: what is dropped and what is added. -/
lemma charge_eq (hs : 0 < scale) (m A L : ℕ) :
    m * (2 * W * A + L) + 2 * W * W * (scale * ceilDiv (m * A / W) scale - m * A / W)
      = m * L + 2 * W * (m * A % W) + 2 * W * W * scale * ceilDiv (m * A / W) scale := by
  have hfloor := Nat.div_add_mod (m * A) W
  have hceil := Nat.add_sub_cancel' (le_mul_ceilDiv (m * A / W) hs)
  have e : 2 * W * W * scale * ceilDiv (m * A / W) scale
      = 2 * W * W * (scale * ceilDiv (m * A / W) scale) := by ring
  rw [e]
  generalize scale * ceilDiv (m * A / W) scale = cost at *
  generalize cost - m * A / W = pad at *
  generalize m * A % W = r at *
  generalize m * A / W = q at *
  subst hceil
  have hmul : m * (2 * W * A + L) = 2 * W * (m * A) + m * L := by ring
  rw [hmul, ← hfloor]
  ring

/-- A doubly floored amount is at most the exact one. -/
lemma payout_le (m A L : ℕ) :
    2 * W * W * scale * (m * A / W / scale) ≤ m * (2 * W * A + L) := by
  have h1 := Nat.mul_div_le (m * A / W) scale
  have h2 := Nat.mul_div_le (m * A) W
  generalize m * A / W = q at *
  calc 2 * W * W * scale * (q / scale) = 2 * W * (W * (scale * (q / scale))) := by ring
    _ ≤ 2 * W * (W * q) := Nat.mul_le_mul_left _ (Nat.mul_le_mul_left _ h1)
    _ ≤ 2 * W * (m * A) := Nat.mul_le_mul_left _ h2
    _ ≤ m * (2 * W * A + L) := by
      have e : m * (2 * W * A + L) = 2 * W * (m * A) + m * L := by ring
      rw [e]
      exact Nat.le_add_right _ _

/-! ### Multiples -/

/-- What rounding down to a multiple leaves. -/
lemma isGreatest_sub_mod (m k : ℕ) : IsGreatest {n | k ∣ n ∧ n ≤ m} (m - m % k) := by
  refine ⟨⟨Nat.dvd_sub_mod m, Nat.sub_le _ _⟩, ?_⟩
  rintro _ ⟨⟨c, rfl⟩, hle⟩
  have hm := Nat.div_add_mod m k
  have hmul : k * c ≤ k * (m / k) := by
    rcases Nat.eq_zero_or_pos k with rfl | hk
    · rw [zero_mul, zero_mul]
    · exact Nat.mul_le_mul_left k ((Nat.le_div_iff_mul_le hk).mpr (by rwa [mul_comm]))
  omega

end Rounding
