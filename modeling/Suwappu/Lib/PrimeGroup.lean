import Mathlib.Algebra.Field.ZMod
import Mathlib.Algebra.Module.ZMod
import Mathlib.Tactic.NormNum.Prime

/-!
# Groups of prime order

A group of prime order `q`, written additively, has the field `ZMod q` as its scalars, and every
element is a multiple of its generator by exactly one scalar.
-/

universe u

instance fact65537 : Fact (Nat.Prime 65537) := ⟨by norm_num⟩

/-- The generator of a group of prime order. -/
structure PrimeGroup (q : ℕ) [Fact q.Prime] (G : Type u) [AddCommGroup G] [Module (ZMod q) G] where
  generator : G
  bijective : Function.Bijective fun s : ZMod q => s • generator

namespace PrimeGroup

variable {q : ℕ} [Fact q.Prime] {G : Type u} [AddCommGroup G] [Module (ZMod q) G]

/-- The scalars themselves. -/
def scalars (q : ℕ) [Fact q.Prime] : PrimeGroup q (ZMod q) where
  generator := 1
  bijective := by
    simp only [smul_eq_mul, mul_one]
    exact Function.bijective_id

lemma smul_generator_inj (C : PrimeGroup q G) {a b : ZMod q} :
    a • C.generator = b • C.generator ↔ a = b := C.bijective.injective.eq_iff

lemma exists_smul_generator (C : PrimeGroup q G) (P : G) : ∃ s : ZMod q, s • C.generator = P :=
  C.bijective.surjective P

lemma smul_generator_eq_zero (C : PrimeGroup q G) {s : ZMod q} :
    s • C.generator = 0 ↔ s = 0 := by
  rw [← C.smul_generator_inj, zero_smul]

/-- A multiple that the order does not divide tells elements apart. -/
lemma nsmul_inj {n : ℕ} (hn : ¬ q ∣ n) {P Q : G} : n • P = n • Q ↔ P = Q := by
  have hne : (n : ZMod q) ≠ 0 := fun h => hn ((ZMod.natCast_eq_zero_iff n q).mp h)
  rw [← Nat.cast_smul_eq_nsmul (ZMod q), ← Nat.cast_smul_eq_nsmul (ZMod q)]
  exact hne.isUnit.smul_left_cancel

end PrimeGroup
