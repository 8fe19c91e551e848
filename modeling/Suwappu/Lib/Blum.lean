import Mathlib.NumberTheory.LegendreSymbol.JacobiSymbol
import Mathlib.Tactic

/-!
# Blum integers

The products of two primes of the form `4 * n + 3`. Of the four multiples of a unit by `-1` and by a
number with Jacobi symbol `-1`, exactly one is a square modulo both primes, and such a number has a
fourth root that is a power of it.
-/

namespace Blum

open NumberTheorySymbols

structure IsBlum (p q : ℕ) : Prop where
  left_prime : p.Prime
  right_prime : q.Prime
  ne : p ≠ q
  left_mod : p % 4 = 3
  right_mod : q % 4 = 3

variable {p q : ℕ} {a b w : ℤ}

lemma IsBlum.symm (h : IsBlum p q) : IsBlum q p :=
  ⟨h.right_prime, h.left_prime, h.ne.symm, h.right_mod, h.left_mod⟩

lemma IsBlum.coprime (h : IsBlum p q) : p.Coprime q :=
  (Nat.coprime_primes h.left_prime h.right_prime).mpr h.ne

lemma IsBlum.one_lt (h : IsBlum p q) : (1 : ℤ) < (p * q : ℕ) := by
  have hlt : 1 < p * q := one_lt_mul'' h.left_prime.one_lt h.right_prime.one_lt
  exact_mod_cast hlt

/-- A square modulo both primes, and a unit. -/
def IsResidue (p q : ℕ) (a : ℤ) : Prop := J(a | p) = 1 ∧ J(a | q) = 1

lemma IsResidue.symm (h : IsResidue p q a) : IsResidue q p a := ⟨h.2, h.1⟩

lemma IsResidue.congr (h : IsResidue p q a) (hab : a ≡ b [ZMOD (p * q : ℕ)]) :
    IsResidue p q b := by
  rw [Nat.cast_mul] at hab
  refine ⟨(jacobiSym.mod_left' ?_).trans h.1, (jacobiSym.mod_left' ?_).trans h.2⟩
  · exact (hab.of_mul_right _).symm
  · exact (hab.of_mul_left _).symm

lemma IsResidue.pow (h : IsResidue p q a) (n : ℕ) : IsResidue p q (a ^ n) := by
  rw [IsResidue, jacobiSym.pow_left, jacobiSym.pow_left, h.1, h.2, one_pow]
  exact ⟨rfl, rfl⟩

lemma IsResidue.gcd_eq_one (h : IsBlum p q) (ha : IsResidue p q a) : a.gcd (p * q : ℕ) = 1 := by
  have hcoprime : ∀ {r : ℕ}, r.Prime → J(a | r) = 1 → a.gcd r = 1 := by
    intro r hr hone
    by_contra hne
    have := NeZero.mk hr.ne_zero
    rw [jacobiSym.eq_zero_iff_not_coprime.mpr hne] at hone
    cases hone
  exact Nat.Coprime.mul_right (hcoprime h.left_prime ha.1) (hcoprime h.right_prime ha.2)

/-! ### Roots -/

/-- The power that is a square root. -/
def rootExponent (p q : ℕ) : ℕ := ((p - 1) * (q - 1) + 4) / 8

lemma rootExponent_comm (p q : ℕ) : rootExponent p q = rootExponent q p := by
  rw [rootExponent, rootExponent, mul_comm]

lemma two_mul_rootExponent (h : IsBlum p q) : rootExponent p q * 2 = p / 2 * (q / 2) + 1 := by
  obtain ⟨i, rfl⟩ : ∃ i, p = 4 * i + 3 := ⟨p / 4, by have := h.left_mod; omega⟩
  obtain ⟨j, rfl⟩ : ∃ j, q = 4 * j + 3 := ⟨q / 4, by have := h.right_mod; omega⟩
  have hleft : (4 * i + 3) / 2 = 2 * i + 1 := by omega
  have hright : (4 * j + 3) / 2 = 2 * j + 1 := by omega
  have hphi : (4 * i + 3 - 1) * (4 * j + 3 - 1) + 4 = 8 * (2 * (i * j) + i + j + 1) := by
    rw [Nat.add_sub_assoc (by decide), Nat.add_sub_assoc (by decide)]
    ring
  rw [rootExponent, hphi, Nat.mul_div_cancel_left _ (by decide), hleft, hright]
  ring

/-- Euler's criterion. -/
lemma pow_half (hp : p.Prime) (h : J(a | p) = 1) : (a : ZMod p) ^ (p / 2) = 1 := by
  have := Fact.mk hp
  rw [← legendreSym.eq_pow, jacobiSym.legendreSym.to_jacobiSym, h, Int.cast_one]

lemma sq_root_prime (h : IsBlum p q) (ha : J(a | p) = 1) :
    (a ^ rootExponent p q) ^ 2 ≡ a [ZMOD p] := by
  rw [← ZMod.intCast_eq_intCast_iff]
  push_cast
  rw [← pow_mul, two_mul_rootExponent h, pow_succ, pow_mul, pow_half h.left_prime ha, one_pow,
    one_mul]

/-- The power of a square is a square root of it. -/
theorem IsResidue.sq_root (h : IsBlum p q) (ha : IsResidue p q a) :
    (a ^ rootExponent p q) ^ 2 ≡ a [ZMOD (p * q : ℕ)] := by
  have hright := sq_root_prime h.symm ha.2
  rw [rootExponent_comm] at hright
  rw [Nat.cast_mul]
  exact (Int.modEq_and_modEq_iff_modEq_mul (by exact_mod_cast h.coprime)).mp
    ⟨sq_root_prime h ha.1, hright⟩

/-! ### Multiples -/

lemma jacobiSym_neg (hp : p % 4 = 3) (a : ℤ) : J(-a | p) = -J(a | p) := by
  rw [jacobiSym.neg _ (Nat.odd_iff.mpr (by omega)), ZMod.χ₄_nat_three_mod_four hp, neg_one_mul]

/-- The unit with or without the sign and the number `w`. -/
def multiple (w a : ℤ) (choice : Bool × Bool) : ℤ :=
  (if choice.1 = true then -1 else 1) * ((if choice.2 = true then w else 1) * a)

lemma jacobiSym_multiple (hp : p % 4 = 3) (w a : ℤ) (choice : Bool × Bool) :
    J(multiple w a choice | p) =
      (if choice.1 = true then -1 else 1) *
        ((if choice.2 = true then J(w | p) else 1) * J(a | p)) := by
  obtain ⟨negate, multiplyW⟩ := choice
  cases negate <;> cases multiplyW <;>
    simp [multiple, jacobiSym.mul_left, jacobiSym_neg hp]

lemma isResidue_multiple (h : IsBlum p q) (w a : ℤ) (choice : Bool × Bool) :
    IsResidue p q (multiple w a choice) ↔
      J((if choice.2 = true then w else 1) * a | p) = (if choice.1 = true then -1 else 1) ∧
        J((if choice.2 = true then w else 1) * a | q) = if choice.1 = true then -1 else 1 := by
  obtain ⟨negate, multiplyW⟩ := choice
  cases negate
  · rw [IsResidue, multiple, if_neg Bool.false_ne_true, one_mul]
  · rw [IsResidue, multiple, if_pos rfl, neg_one_mul, jacobiSym_neg h.left_mod,
      jacobiSym_neg h.right_mod, neg_eq_iff_eq_neg, neg_eq_iff_eq_neg]

/-- The symbols of a number that is no square and no negative of one modulo both primes. -/
lemma jacobiSym_opposite (h : IsBlum p q) (hw : J(w | p * q) = -1) {s : ℤ} (hs : s = 1 ∨ s = -1)
    (hp : J(w * a | p) = s) (hq : J(w * a | q) = s) :
    J(a | p) = 1 ∧ J(a | q) = -1 ∨ J(a | p) = -1 ∧ J(a | q) = 1 := by
  have hproduct : J(w | p) * J(w | q) = -1 := by
    rw [← jacobiSym.mul_right' w h.left_prime.ne_zero h.right_prime.ne_zero, hw]
  have hsquare : s * s = 1 := by
    rcases hs with rfl | rfl <;> rfl
  rw [jacobiSym.mul_left] at hp hq
  have hopposite : J(a | p) * J(a | q) = -1 := by
    linear_combination J(a | p) * J(a | q) * hproduct - J(w | q) * J(a | q) * hp - s * hq - hsquare
  exact Int.mul_eq_neg_one_iff_eq_one_or_neg_one.mp hopposite

/-- A unit is a unit modulo both primes. -/
lemma jacobiSym_eq (ha : a.gcd (p * q : ℕ) = 1) :
    (J(a | p) = 1 ∨ J(a | p) = -1) ∧ (J(a | q) = 1 ∨ J(a | q) = -1) := by
  rw [Nat.cast_mul] at ha
  exact ⟨jacobiSym.eq_one_or_neg_one (Int.gcd_eq_one_of_gcd_mul_right_eq_one_left ha),
    jacobiSym.eq_one_or_neg_one (Int.gcd_eq_one_of_gcd_mul_right_eq_one_right ha)⟩

/-- Exactly one of the four multiples is a square modulo both primes. -/
theorem existsUnique_multiple (h : IsBlum p q) (hw : J(w | p * q) = -1)
    (ha : a.gcd (p * q : ℕ) = 1) : ∃! choice, IsResidue p q (multiple w a choice) := by
  obtain ⟨hleft, hright⟩ := jacobiSym_eq ha
  have hproduct : J(w | p) * J(w | q) = -1 := by
    rw [← jacobiSym.mul_right' w h.left_prime.ne_zero h.right_prime.ne_zero, hw]
  have hw' : J(w | p) = 1 ∧ J(w | q) = -1 ∨ J(w | p) = -1 ∧ J(w | q) = 1 := by
    rcases jacobiSym.trichotomy w p with hp | hp | hp
    · rw [hp, zero_mul] at hproduct
      cases hproduct
    · exact .inl ⟨hp, by rwa [hp, one_mul] at hproduct⟩
    · exact .inr ⟨hp, by rw [hp] at hproduct; omega⟩
  simp only [ExistsUnique, IsResidue, jacobiSym_multiple h.left_mod, jacobiSym_multiple h.right_mod]
  -- the signs of the unit and of `w` decide which one it is
  rcases hleft with hleft | hleft <;> rcases hright with hright | hright <;>
    rcases hw' with ⟨hp, hq⟩ | ⟨hp, hq⟩ <;> rw [hleft, hright, hp, hq] <;> decide

/-! ### Powers -/

/-- A unit to a power that is one more than a multiple of the order of the group. -/
theorem pow_totient_succ {n : ℕ} (ha : a.gcd n = 1) (k : ℕ) :
    a ^ (n.totient * k + 1) ≡ a [ZMOD n] := by
  rw [← ZMod.intCast_eq_intCast_iff]
  obtain ⟨u, hu⟩ : ∃ u : (ZMod n)ˣ, (u : ZMod n) = a :=
    ⟨ZMod.unitOfIsCoprime a (Int.isCoprime_iff_gcd_eq_one.mpr ha), rfl⟩
  push_cast
  rw [← hu, ← Units.val_pow_eq_pow_val, pow_succ, pow_mul, ZMod.pow_totient, one_pow, one_mul]

end Blum
