import Mathlib.Tactic

/-!
# Canonical lists

Sorting by a total comparison that tells distinct elements apart gives a list that depends on the
members alone: two lists without repetitions that have the same members are sorted into the same
list.
-/

namespace Canonical

open Std

universe u

variable {α : Type u} (cmp : α → α → Ordering)

/-- Ascending by `cmp`. -/
def sorted (l : List α) : List α := l.mergeSort fun a b => (cmp a b).isLE

lemma sorted_perm (l : List α) : (sorted cmp l).Perm l := List.mergeSort_perm ..

variable {cmp} {l l' : List α}

lemma mem_sorted {a : α} : a ∈ sorted cmp l ↔ a ∈ l := (sorted_perm cmp l).mem_iff

variable [TransCmp cmp]

lemma pairwise_sorted : (sorted cmp l).Pairwise fun a b => (cmp a b).isLE = true := by
  refine List.pairwise_mergeSort (fun a b c => TransCmp.isLE_trans) (fun a b => ?_) l
  rw [Bool.or_eq_true]
  by_cases h : (cmp a b).isLE = true
  · exact .inl h
  · exact .inr (Ordering.isLE_of_eq_lt (OrientedCmp.lt_of_not_isLE h))

/-- Only the members count. -/
theorem sorted_eq_of_perm (heq : ∀ a ∈ l, ∀ b ∈ l, cmp a b = .eq → a = b) (h : l.Perm l') :
    sorted cmp l = sorted cmp l' := by
  refine (List.Perm.eq_of_pairwise (fun a b ha hb hab hba => ?_) pairwise_sorted pairwise_sorted
    (((sorted_perm cmp l).trans h).trans (sorted_perm cmp l').symm))
  exact heq a (mem_sorted.mp ha) b (h.mem_iff.mpr (mem_sorted.mp hb))
    (OrientedCmp.isLE_antisymm hab hba)

theorem sorted_eq_of_mem_iff (heq : ∀ a ∈ l, ∀ b ∈ l, cmp a b = .eq → a = b) (hl : l.Nodup)
    (hl' : l'.Nodup) (h : ∀ a, a ∈ l ↔ a ∈ l') : sorted cmp l = sorted cmp l' :=
  sorted_eq_of_perm heq ((List.perm_ext_iff_of_nodup hl hl').mpr h)

end Canonical
