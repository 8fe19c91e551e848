import Mathlib.Tactic

/-!
# Totals

A total is the sum of one field over the entries of a table. These lemmas say how it changes when
an entry does.
-/

namespace Totals

variable {ι α M : Type*} [DecidableEq ι]

/-- Two tables that differ in one entry: the old value out, the new one in. -/
lemma sum_add_of_eq_off [AddCommMonoid M] {S : Finset ι} {i : ι} (hi : i ∈ S) {f g : ι → M}
    (h : ∀ j ∈ S, j ≠ i → f j = g j) : (∑ j ∈ S, f j) + g i = (∑ j ∈ S, g j) + f i := by
  rw [← Finset.sum_erase_add S f hi, ← Finset.sum_erase_add S g hi]
  have hrest : ∑ j ∈ S.erase i, f j = ∑ j ∈ S.erase i, g j :=
    Finset.sum_congr rfl fun j hj => h j (Finset.mem_of_mem_erase hj) (Finset.ne_of_mem_erase hj)
  rw [hrest, add_assoc, add_assoc, add_comm (f i)]

/-- The total after one entry was updated. -/
lemma sum_update_add [AddCommMonoid M] {S : Finset ι} {i : ι} (hi : i ∈ S) (g : ι → α) (a : α)
    (f : α → M) :
    (∑ j ∈ S, f (Function.update g i a j)) + f (g i) = (∑ j ∈ S, f (g j)) + f a := by
  have h := sum_add_of_eq_off (f := fun j => f (Function.update g i a j))
    (g := fun j => f (g j)) hi fun j _ hne => by rw [Function.update_of_ne hne]
  rwa [Function.update_self] at h

/-- An entry outside of the table changes no total. -/
lemma sum_update_of_notMem [AddCommMonoid M] {S : Finset ι} {i : ι} (hi : i ∉ S) (g : ι → α)
    (a : α) (f : α → M) : ∑ j ∈ S, f (Function.update g i a j) = ∑ j ∈ S, f (g j) :=
  Finset.sum_congr rfl fun j hj => by
    have hne : j ≠ i := fun e => hi (e ▸ hj)
    rw [Function.update_of_ne hne]

/-- The total of a table of amounts after one of them was updated. -/
lemma sum_update [AddCommMonoid M] [Fintype ι] (g : ι → M) (i : ι) (a : M) :
    (∑ j, Function.update g i a j) + g i = (∑ j, g j) + a :=
  sum_update_add (Finset.mem_univ i) g a id

end Totals
