import Mathlib.Data.Nat.Log
import Mathlib.Tactic

/-!
# Decimal arithmetic in a context

Decimal numbers with a coefficient and an exponent, as in the General Decimal Arithmetic
specification: a result is computed exactly and then rounded into a context, half to even. A
number that `Fits` the context is not rounded. There are no infinities, and an overflow is trapped.
-/

structure Decimal where
  coeff : ℤ
  exp : ℤ
deriving DecidableEq, Repr

namespace Decimal

variable {a b d d' : Decimal}

def value (d : Decimal) : ℚ := d.coeff * 10 ^ d.exp

def ofNat (n : ℕ) : Decimal := ⟨n, 0⟩

instance instNeg : Neg Decimal := ⟨fun d => ⟨-d.coeff, d.exp⟩⟩

/-- The coefficient at a lower exponent. -/
def scaled (d : Decimal) (e : ℤ) : ℤ := d.coeff * 10 ^ (d.exp - e).toNat

/-- The sum, before any rounding. -/
def exactAdd (a b : Decimal) : Decimal :=
  let e := min a.exp b.exp
  ⟨a.scaled e + b.scaled e, e⟩

def exactSub (a b : Decimal) : Decimal := a.exactAdd (-b)

/-- `a < b` -/
def lt (a b : Decimal) : Bool := (a.exactSub b).coeff < 0

lemma ten_zpow_pos (e : ℤ) : (0 : ℚ) < 10 ^ e := zpow_pos (by norm_num) e

lemma scaled_value {e : ℤ} (h : e ≤ d.exp) : (d.scaled e : ℚ) * 10 ^ e = d.value := by
  have hexp : ((d.exp - e).toNat : ℤ) = d.exp - e := Int.toNat_of_nonneg (by omega)
  calc (d.scaled e : ℚ) * 10 ^ e
      = d.coeff * ((10 : ℚ) ^ ((d.exp - e).toNat : ℤ) * 10 ^ e) := by
        rw [scaled, Int.cast_mul, Int.cast_pow, zpow_natCast, mul_assoc]
        norm_num
    _ = d.value := by
        rw [hexp, ← zpow_add₀ (by norm_num), sub_add_cancel, value]

@[simp] lemma value_exactAdd : (a.exactAdd b).value = a.value + b.value := by
  rw [← scaled_value (min_le_left a.exp b.exp), ← scaled_value (min_le_right a.exp b.exp),
    ← add_mul, ← Int.cast_add]
  rfl

@[simp] lemma value_neg : (-d).value = -d.value := by
  change ((-d.coeff : ℤ) : ℚ) * 10 ^ d.exp = -(d.coeff * 10 ^ d.exp)
  push_cast
  ring

@[simp] lemma value_exactSub : (a.exactSub b).value = a.value - b.value := by
  rw [exactSub, value_exactAdd, value_neg, sub_eq_add_neg]

lemma value_nonneg_iff : 0 ≤ d.value ↔ 0 ≤ d.coeff := by
  rw [value, mul_nonneg_iff_of_pos_right (ten_zpow_pos d.exp), Int.cast_nonneg_iff]

lemma lt_eq_false_iff : a.lt b = false ↔ b.value ≤ a.value := by
  rw [lt, decide_eq_false_iff_not, not_lt, ← value_nonneg_iff, value_exactSub, sub_nonneg]

/-! ### Rounding -/

/-- `n / d`, to the nearest number and half to even. -/
def halfEven (n d : ℕ) : ℕ :=
  let r := n % d
  if 2 * r < d ∨ 2 * r = d ∧ n / d % 2 = 0 then n / d else n / d + 1

def numDigits (n : ℕ) : ℕ := Nat.log 10 n + 1

structure Context where
  prec : ℕ
  emin : ℤ
  emax : ℤ

namespace Context

variable (c : Context)

/-- `Etiny()` -/
def etiny : ℤ := c.emin - c.prec + 1

/-- `Etop()` -/
def etop : ℤ := c.emax - c.prec + 1

/-- The least exponent at which the context keeps all the digits it can of `d`. -/
def expMin (d : Decimal) : ℤ := max (numDigits d.coeff.natAbs + d.exp - c.prec) c.etiny

/-- The coefficient with its last digits rounded off, and the exponent it then has. -/
def round (d : Decimal) : Decimal :=
  let e := c.expMin d
  let q := halfEven d.coeff.natAbs (10 ^ (e - d.exp).toNat)
  if 10 ^ c.prec ≤ q then ⟨d.coeff.sign * ((q / 10 : ℕ) : ℤ), e + 1⟩
  else ⟨d.coeff.sign * (q : ℤ), e⟩

/-- `_fix`: `d` as the context can hold it, or nothing when it overflows. -/
def fix (d : Decimal) : Option Decimal :=
  if d.coeff = 0 then some ⟨0, min (max d.exp c.etiny) c.emax⟩
  else if numDigits d.coeff.natAbs + d.exp - c.prec > c.etop then none
  else if d.exp < c.expMin d then
    let r := c.round d
    if r.exp > c.etop then none else some r
  else some d

/-- The context holds `d` with all its digits. -/
def Fits (d : Decimal) : Prop :=
  if d.coeff = 0 then c.etiny ≤ d.exp ∧ d.exp ≤ c.emax
  else numDigits d.coeff.natAbs + d.exp - c.prec ≤ c.etop ∧ c.expMin d ≤ d.exp

instance decidableFits : Decidable (c.Fits d) := by
  unfold Fits
  infer_instance

def add (a b : Decimal) : Option Decimal := c.fix (a.exactAdd b)

def sub (a b : Decimal) : Option Decimal := c.fix (a.exactSub b)

variable {c}

lemma fix_of_fits (h : c.Fits d) : c.fix d = some d := by
  unfold Fits at h
  unfold fix
  split at h
  · rename_i hzero
    rw [if_pos hzero, max_eq_left h.1, min_eq_left h.2]
    rw [← hzero]
  · rename_i hzero
    rw [if_neg hzero, if_neg (not_lt.mpr h.1), if_neg (not_lt.mpr h.2)]

lemma round_nonneg (h : 0 ≤ d.coeff) : 0 ≤ (c.round d).coeff := by
  have hsign : 0 ≤ d.coeff.sign := Int.sign_nonneg_iff.mpr h
  dsimp only [round]
  split
  · exact mul_nonneg hsign (Int.natCast_nonneg _)
  · exact mul_nonneg hsign (Int.natCast_nonneg _)

/-- Rounding keeps a number from becoming negative. -/
lemma fix_nonneg (h : c.fix d = some d') (hd : 0 ≤ d.value) : 0 ≤ d'.value := by
  rw [value_nonneg_iff] at hd ⊢
  unfold fix at h
  split at h
  · cases h
    exact le_rfl
  split at h
  · cases h
  split at h
  · dsimp only at h
    split at h
    · cases h
    · cases h
      exact round_nonneg hd
  · cases h
    exact hd

lemma nonneg_of_add (h : c.add a b = some d) (ha : 0 ≤ a.value) (hb : 0 ≤ b.value) :
    0 ≤ d.value :=
  fix_nonneg h (by rw [value_exactAdd]; exact add_nonneg ha hb)

lemma nonneg_of_sub (h : c.sub a b = some d) (hle : b.value ≤ a.value) : 0 ≤ d.value :=
  fix_nonneg h (by rw [value_exactSub]; exact sub_nonneg.mpr hle)

lemma add_value (h : c.add a b = some d) (hfits : c.Fits (a.exactAdd b)) :
    d.value = a.value + b.value := by
  rw [add, fix_of_fits hfits] at h
  cases h
  exact value_exactAdd

lemma sub_value (h : c.sub a b = some d) (hfits : c.Fits (a.exactSub b)) :
    d.value = a.value - b.value := by
  rw [sub, fix_of_fits hfits] at h
  cases h
  exact value_exactSub

end Context

example : (Context.mk 3 (-9) 9).add ⟨12345, -2⟩ ⟨1, 0⟩ = some ⟨124, 0⟩ := by decide +kernel

end Decimal
