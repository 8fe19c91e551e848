import Mathlib.Tactic
import Mathlib.Data.Int.ModEq

/-!
# Double-width products of machine words

Wrapping arithmetic on `w`-bit words, and the three facts that turn a double-width product divided
by a word into single-width operations: the high half of a product is read off its residue modulo
`2 ^ w - 1`, the lowest set bit of a word is the largest power of two dividing it, and Newton's
iteration doubles the precision of an inverse modulo a power of two.
-/

namespace WideWord

variable {w : ℕ}

def wadd (w a b : ℕ) : ℕ := (a + b) % 2 ^ w
def wsub (w a b : ℕ) : ℕ := (a + (2 ^ w - b)) % 2 ^ w
def wmul (w a b : ℕ) : ℕ := a * b % 2 ^ w
def wnot (w a : ℕ) : ℕ := 2 ^ w - 1 - a
def mulmod (a b n : ℕ) : ℕ := a * b % n

lemma wmul_lt (w a b : ℕ) : wmul w a b < 2 ^ w := Nat.mod_lt _ (by positivity)

lemma wsub_of_le {a b : ℕ} (hb : b ≤ a) (ha : a < 2 ^ w) : wsub w a b = a - b := by
  have h : a + (2 ^ w - b) = (a - b) + 2 ^ w := by omega
  rw [wsub, h, Nat.add_mod_right, Nat.mod_eq_of_lt (by omega)]

lemma wsub_of_lt {a b : ℕ} (hab : a < b) (hb : b ≤ 2 ^ w) : wsub w a b = a + 2 ^ w - b := by
  rw [wsub, Nat.mod_eq_of_lt (by omega)]
  omega

lemma wsub_modEq (a : ℕ) {b : ℕ} (hb : b ≤ 2 ^ w) : (wsub w a b : ℤ) ≡ a - b [ZMOD 2 ^ w] := by
  have h : ((a + (2 ^ w - b) : ℕ) : ℤ) = a - b + 2 ^ w := by push_cast [hb]; ring
  rw [wsub, Int.natCast_mod, h]
  push_cast
  exact (Int.mod_modEq _ _).trans Int.add_modEq_right

lemma wmul_modEq (a b : ℕ) : (wmul w a b : ℤ) ≡ a * b [ZMOD 2 ^ w] := by
  rw [wmul, Int.natCast_mod]
  push_cast
  exact Int.mod_modEq _ _

/-! ### The high half of a product -/

lemma high_le {x y : ℕ} (hx : x < 2 ^ w) (hy : y < 2 ^ w) : x * y / 2 ^ w + 1 < 2 ^ w ∨ w = 0 := by
  rcases Nat.eq_zero_or_pos w with h | h
  · exact .inr h
  · left
    have hW : 2 ≤ 2 ^ w := Nat.le_self_pow h.ne' 2
    have hxy : x * y ≤ (2 ^ w - 1) * (2 ^ w - 1) := Nat.mul_le_mul (by omega) (by omega)
    obtain ⟨k, hk⟩ : ∃ k, 2 ^ w = k + 2 := ⟨2 ^ w - 2, by omega⟩
    rw [hk] at hxy ⊢
    have : x * y < (k + 1) * (k + 2) := by
      calc x * y ≤ (k + 1) * (k + 1) := by simpa using hxy
        _ < (k + 1) * (k + 2) := by nlinarith
    have := (Nat.div_lt_iff_lt_mul (by omega : 0 < k + 2)).mpr this
    omega

/-- Casting out `2 ^ w - 1` adds the halves of the product. -/
lemma mulmod_pred_eq (x y : ℕ) :
    mulmod x y (2 ^ w - 1) = (x * y / 2 ^ w + x * y % 2 ^ w) % (2 ^ w - 1) := by
  have h1 : 2 ^ w = (2 ^ w - 1) + 1 := (Nat.sub_add_cancel Nat.one_le_two_pow).symm
  have h : x * y = (2 ^ w - 1) * (x * y / 2 ^ w) + (x * y / 2 ^ w + x * y % 2 ^ w) := by
    conv_lhs => rw [← Nat.div_add_mod (x * y) (2 ^ w)]
    conv_lhs => enter [1, 1]; rw [h1]
    ring
  rw [mulmod]
  conv_lhs => rw [h]
  rw [Nat.mul_add_mod]

/-- The high half of `x * y`, from the low half and the residue modulo `2 ^ w - 1`. -/
theorem high_eq {x y : ℕ} (hw : 0 < w) (hx : x < 2 ^ w) (hy : y < 2 ^ w) :
    wsub w (wsub w (mulmod x y (2 ^ w - 1)) (wmul w x y))
      (if mulmod x y (2 ^ w - 1) < wmul w x y then 1 else 0) = x * y / 2 ^ w := by
  have hhi := (high_le hx hy).resolve_right hw.ne'
  have hlo : wmul w x y < 2 ^ w := wmul_lt w x y
  have hmm : mulmod x y (2 ^ w - 1) = (x * y / 2 ^ w + wmul w x y) % (2 ^ w - 1) :=
    mulmod_pred_eq x y
  generalize mulmod x y (2 ^ w - 1) = mm at hmm ⊢
  generalize wmul w x y = lo at hlo hmm ⊢
  generalize x * y / 2 ^ w = hi at hhi hmm ⊢
  rcases lt_or_ge (hi + lo) (2 ^ w - 1) with h | h
  · rw [Nat.mod_eq_of_lt h] at hmm
    have hsub : wsub w mm lo = hi := by
      rw [wsub_of_le (by omega) (by omega)]
      omega
    rw [if_neg (by omega), hsub, wsub_of_le (by omega) (by omega), Nat.sub_zero]
  · have hmm' : mm = hi + lo - (2 ^ w - 1) := by
      rw [hmm, Nat.mod_eq_sub_mod h, Nat.mod_eq_of_lt (by omega)]
    have hsub : wsub w mm lo = hi + 1 := by
      rw [wsub_of_lt (by omega) (by omega)]
      omega
    rw [if_pos (by omega), hsub, wsub_of_le (by omega) (by omega), Nat.add_sub_cancel]

/-! ### The lowest set bit -/

lemma odd_land_neg {m j : ℕ} (hm : m % 2 = 1) (hj : m < 2 ^ j) : m &&& (2 ^ j - m) = 1 := by
  apply Nat.eq_of_testBit_eq
  intro i
  obtain ⟨n, rfl⟩ : ∃ n, m = n + 1 := ⟨m - 1, by omega⟩
  rw [Nat.testBit_and, Nat.testBit_two_pow_sub_succ (by omega : n < 2 ^ j)]
  cases i with
  | zero =>
    have hj0 : 0 < j := by
      rcases Nat.eq_zero_or_pos j with rfl | h
      · simp at hj
      · exact h
    have h0 : (n + 1).testBit 0 = true := by simp; omega
    have h1 : n.testBit 0 = false := by simp; omega
    simp only [h0, h1]
    simp [hj0]
  | succ i =>
    have h : (n + 1).testBit (i + 1) = n.testBit (i + 1) := by
      rw [Nat.testBit_succ, Nat.testBit_succ]
      congr 1
      omega
    rw [h]
    cases n.testBit (i + 1) <;> simp [Nat.testBit_succ]

/-- `d &&& -d` on `w`-bit words is the largest power of two dividing `d`. -/
theorem land_neg_eq {d : ℕ} (hd : 0 < d) (hdw : d < 2 ^ w) :
    ∃ k m, k < w ∧ m % 2 = 1 ∧ d = 2 ^ k * m ∧ d &&& (2 ^ w - d) = 2 ^ k := by
  obtain ⟨k, m, hm, hdm⟩ := Nat.exists_eq_two_pow_mul_odd hd.ne'
  have hm1 : m % 2 = 1 := Nat.odd_iff.mp hm
  have hkw : k < w := by
    by_contra h
    have h2 : 2 ^ w ≤ 2 ^ k := Nat.pow_le_pow_right (by norm_num) (by omega)
    have : 2 ^ k ≤ 2 ^ k * m := Nat.le_mul_of_pos_right _ (by omega)
    omega
  refine ⟨k, m, hkw, hm1, hdm, ?_⟩
  obtain ⟨j, rfl⟩ : ∃ j, w = k + j := ⟨w - k, by omega⟩
  have hmj : m < 2 ^ j := by
    rw [hdm, pow_add] at hdw
    exact lt_of_mul_lt_mul_left hdw (Nat.zero_le _)
  have hneg : 2 ^ (k + j) - d = 2 ^ k * (2 ^ j - m) := by
    rw [hdm, pow_add, ← Nat.mul_sub]
  have hsh : ∀ a, 2 ^ k * a = a <<< k := fun a => by rw [Nat.shiftLeft_eq, mul_comm]
  rw [hneg, hdm, hsh, hsh, ← Nat.shiftLeft_and_distrib, odd_land_neg hm1 hmj, Nat.shiftLeft_eq,
    one_mul]

/-! ### Inverses modulo powers of two -/

/-- One Newton step squares the error of an inverse. -/
lemma newton_dvd {n d i : ℤ} (h : n ∣ 1 - d * i) : n * n ∣ 1 - d * (i * (2 - d * i)) := by
  have e : 1 - d * (i * (2 - d * i)) = (1 - d * i) * (1 - d * i) := by ring
  rw [e]
  exact mul_dvd_mul h h

/-- Newton's step for the inverse of `d`, in wrapping arithmetic. -/
def newtonStep (w d i : ℕ) : ℕ := wmul w i (wsub w 2 (wmul w d i))

lemma newtonStep_modEq (d i : ℕ) : (newtonStep w d i : ℤ) ≡ i * (2 - d * i) [ZMOD 2 ^ w] := by
  refine (wmul_modEq _ _).trans (Int.ModEq.mul_left _ ?_)
  refine (wsub_modEq 2 (wmul_lt w d i).le).trans ?_
  simpa using Int.ModEq.sub_left 2 (wmul_modEq (w := w) d i)

/-- A step from `k` correct bits gives `2 * k`, up to the word width. -/
theorem newtonStep_dvd {k d i : ℕ} (hk : 2 * k ≤ w) (h : (2 : ℤ) ^ k ∣ 1 - d * i) :
    (2 : ℤ) ^ (2 * k) ∣ 1 - d * newtonStep w d i := by
  have h1 : (2 : ℤ) ^ (2 * k) ∣ 1 - d * (i * (2 - d * i)) := by
    rw [two_mul, pow_add]
    exact newton_dvd h
  have h2 : (newtonStep w d i : ℤ) ≡ i * (2 - d * i) [ZMOD 2 ^ (2 * k)] :=
    (newtonStep_modEq d i).of_dvd (pow_dvd_pow 2 hk)
  have h3 : (1 : ℤ) - d * newtonStep w d i ≡ 1 - d * (i * (2 - d * i)) [ZMOD 2 ^ (2 * k)] :=
    Int.ModEq.sub_left 1 (Int.ModEq.mul_left _ h2)
  exact (Int.ModEq.dvd_iff h3).mpr h1

/-- `3 * d` with the second bit flipped inverts an odd `d` to four bits. -/
lemma seed_dvd {d : ℕ} (hw : 4 ≤ w) (hd : d % 2 = 1) :
    (2 : ℤ) ^ 4 ∣ 1 - d * (wmul w 3 d ^^^ 2 : ℕ) := by
  have hs : (wmul w 3 d ^^^ 2) % 2 ^ 4 = (3 * (d % 16) % 16) ^^^ 2 := by
    rw [Nat.xor_mod_two_pow, wmul, Nat.mod_mod_of_dvd _ (pow_dvd_pow 2 hw), Nat.mul_mod]
    norm_num
  have h16 : d * (wmul w 3 d ^^^ 2) % 16 = 1 := by
    have hr : d % 16 < 16 := Nat.mod_lt _ (by norm_num)
    have hodd : d % 16 % 2 = 1 := by omega
    rw [Nat.mul_mod, show (16 : ℕ) = 2 ^ 4 by norm_num, hs, show (2 : ℕ) ^ 4 = 16 by norm_num]
    revert hr hodd
    generalize d % 16 = r
    intro hr hodd
    interval_cases r <;> simp_all
  push_cast at *
  have : ((d * (wmul w 3 d ^^^ 2) : ℕ) : ℤ) % 16 = 1 := by exact_mod_cast congrArg Nat.cast h16
  push_cast at this
  omega

/-- A multiple of an odd `d`, recovered from its low word by an inverse of `d`. -/
theorem wmul_inverse {d i q : ℕ} (hq : q < 2 ^ w) (hi : (2 : ℤ) ^ w ∣ 1 - d * i) :
    wmul w (q * d % 2 ^ w) i = q := by
  have h1 : ((q * d % 2 ^ w * i : ℕ) : ℤ) ≡ q [ZMOD 2 ^ w] := by
    have ha : ((q * d % 2 ^ w : ℕ) : ℤ) ≡ q * d [ZMOD 2 ^ w] := by
      push_cast
      exact Int.mod_modEq _ _
    push_cast at ha ⊢
    calc ((q : ℤ) * d % 2 ^ w) * i ≡ q * d * i [ZMOD 2 ^ w] := ha.mul_right _
      _ ≡ q [ZMOD 2 ^ w] := by
        refine (Int.modEq_iff_dvd).mpr ?_
        have e : (q : ℤ) - q * d * i = q * (1 - d * i) := by ring
        rw [e]
        exact hi.mul_left _
  have h2 : q * d % 2 ^ w * i ≡ q [MOD 2 ^ w] := by
    rw [← Int.natCast_modEq_iff]
    exact_mod_cast h1
  rw [wmul, h2, Nat.mod_eq_of_lt hq]

end WideWord
