import Mathlib.LinearAlgebra.Lagrange

/-!
# Shamir's shares

The shares of a secret are values of a polynomial whose value at zero is the secret. Weighted by
the Lagrange polynomials at zero, as many shares as the degree allows add up to the secret, and so
do the images of the shares in a module.
-/

namespace Shamir

open Polynomial

universe u v w

variable {ι : Type u} {F : Type v} [DecidableEq ι] [Field F] {s : Finset ι} {x : ι → F}

/-- What the share of `i` counts for among the shares of `s`, held at the points `x`. -/
def weight (s : Finset ι) (x : ι → F) (i : ι) : F :=
  (∏ j ∈ s.erase i, x j) * (∏ j ∈ s.erase i, (x j - x i))⁻¹

lemma weight_eq_eval_basis (s : Finset ι) (x : ι → F) (i : ι) :
    weight s x i = (Lagrange.basis s x i).eval 0 := by
  rw [weight, Lagrange.basis, eval_prod, ← Finset.prod_inv_distrib, ← Finset.prod_mul_distrib]
  refine Finset.prod_congr rfl fun j _ => ?_
  rw [Lagrange.basisDivisor, eval_mul, eval_C, eval_sub, eval_X, eval_C, zero_sub,
    ← neg_sub (x i) (x j), inv_neg]
  ring

/-- The weighted shares add up to the secret. -/
theorem sum_weight_mul_eval {f : F[X]} (hx : Set.InjOn x s) (hf : f.degree < s.card) :
    ∑ i ∈ s, weight s x i * f.eval (x i) = f.eval 0 := by
  conv_rhs => rw [Lagrange.eq_interpolate hx hf, Lagrange.interpolate_apply, eval_finsetSum]
  refine Finset.sum_congr rfl fun i _ => ?_
  rw [eval_mul, eval_C, ← weight_eq_eval_basis, mul_comm]

/-- Between two shares. -/
lemma weight_pair {i j : ι} (h : i ≠ j) : weight {i, j} x i = x j * (x j - x i)⁻¹ := by
  rw [weight, Finset.erase_insert (Finset.notMem_singleton.mpr h), Finset.prod_singleton,
    Finset.prod_singleton]

variable {G : Type w} [AddCommGroup G] [Module F G]

/-- So do the weighted images of the shares. -/
theorem sum_weight_smul {f : F[X]} {g : G} (hx : Set.InjOn x s) (hf : f.degree < s.card) :
    ∑ i ∈ s, weight s x i • f.eval (x i) • g = f.eval 0 • g := by
  rw [← sum_weight_mul_eval hx hf, Finset.sum_smul]
  exact Finset.sum_congr rfl fun i _ => smul_smul _ _ _

end Shamir
