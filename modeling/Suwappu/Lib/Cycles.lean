import Mathlib.Tactic
import Mathlib.GroupTheory.Perm.List

/-!
# Legs of a cycle

A list of distinct nodes read as a cycle: its legs lead from every node to the next one, and from
the last back to the first. Every node starts one leg and ends one, and a cycle of three or more
nodes has no leg in both directions.
-/

namespace Cycles

variable {α : Type*}

/-- The legs `(l[i], l[(i + 1) % n])`. -/
def legs (l : List α) : List (α × α) := l.zip (l.rotate 1)

@[simp] lemma length_legs (l : List α) : (legs l).length = l.length := by simp [legs]

@[simp] lemma map_fst_legs (l : List α) : (legs l).map Prod.fst = l :=
  List.map_fst_zip (by simp)

lemma getElem_legs (l : List α) (i : ℕ) (h : i < (legs l).length) (hi : i < l.length)
    (hj : (i + 1) % l.length < l.length) :
    (legs l)[i] = (l[i], l[(i + 1) % l.length]) := by
  simp [legs, List.getElem_rotate]

lemma nodup_legs {l : List α} (hd : l.Nodup) : (legs l).Nodup :=
  List.Nodup.of_map Prod.fst (by rwa [map_fst_legs])

lemma mem_legs {l : List α} {a b : α} :
    (a, b) ∈ legs l ↔ ∃ (i : ℕ) (_ : i < l.length) (_ : (i + 1) % l.length < l.length),
      l[i] = a ∧ l[(i + 1) % l.length] = b := by
  rw [List.mem_iff_getElem]
  constructor
  · rintro ⟨i, h, hleg⟩
    have hi : i < l.length := by rwa [length_legs] at h
    have hj : (i + 1) % l.length < l.length := Nat.mod_lt _ (by omega)
    rw [getElem_legs l i h hi hj, Prod.mk.injEq] at hleg
    exact ⟨i, hi, hj, hleg⟩
  · rintro ⟨i, hi, hj, hleg⟩
    refine ⟨i, by rwa [length_legs], ?_⟩
    rw [getElem_legs l i _ hi hj, Prod.mk.injEq]
    exact hleg

lemma ne_of_mem_legs {l : List α} (hd : l.Nodup) (hn : 2 ≤ l.length) {a b : α}
    (h : (a, b) ∈ legs l) : a ≠ b := by
  obtain ⟨i, hi, hi', rfl, rfl⟩ := mem_legs.mp h
  rw [Ne, hd.getElem_inj_iff]
  intro e
  rcases Nat.lt_or_ge (i + 1) l.length with hlt | hge
  · rw [Nat.mod_eq_of_lt hlt] at e
    omega
  · obtain rfl : i = l.length - 1 := by omega
    rw [show l.length - 1 + 1 = l.length by omega, Nat.mod_self] at e
    omega

/-- With three nodes or more no leg runs against another. -/
lemma not_mem_legs_swap {l : List α} (hd : l.Nodup) (hn : 3 ≤ l.length) {a b : α}
    (h : (a, b) ∈ legs l) : (b, a) ∉ legs l := by
  obtain ⟨i, hi, hi', rfl, rfl⟩ := mem_legs.mp h
  intro h'
  obtain ⟨j, hj, hj', hj₁, hj₂⟩ := mem_legs.mp h'
  rw [hd.getElem_inj_iff] at hj₁ hj₂
  subst hj₁
  rcases Nat.lt_or_ge (i + 1) l.length with hlt | hge
  · rw [Nat.mod_eq_of_lt hlt] at hj₂
    rcases Nat.lt_or_ge (i + 1 + 1) l.length with hlt' | hge'
    · rw [Nat.mod_eq_of_lt hlt'] at hj₂
      omega
    · rw [show i + 1 + 1 = l.length by omega, Nat.mod_self] at hj₂
      omega
  · rw [show i + 1 = l.length by omega, Nat.mod_self, Nat.mod_eq_of_lt (by omega)] at hj₂
    omega

variable [DecidableEq α]

/-- The legs are the graph of the cyclic permutation. -/
lemma mem_legs_iff_formPerm {l : List α} (hd : l.Nodup) {a b : α} :
    (a, b) ∈ legs l ↔ a ∈ l ∧ l.formPerm a = b := by
  rw [mem_legs]
  constructor
  · rintro ⟨i, hi, -, rfl, rfl⟩
    exact ⟨List.getElem_mem hi, List.formPerm_apply_getElem l hd i hi⟩
  · rintro ⟨ha, rfl⟩
    obtain ⟨i, hi, rfl⟩ := List.getElem_of_mem ha
    exact ⟨i, hi, Nat.mod_lt _ (by omega), rfl, (List.formPerm_apply_getElem l hd i hi).symm⟩

/-- The node before `b` is the only one with a leg to it. -/
lemma mem_legs_iff_formPerm_symm {l : List α} (hd : l.Nodup) {a b : α} :
    (a, b) ∈ legs l ↔ b ∈ l ∧ l.formPerm.symm b = a := by
  rw [mem_legs_iff_formPerm hd, Equiv.symm_apply_eq, eq_comm (a := b)]
  refine and_congr_left fun h => ?_
  rw [← h]
  exact (List.formPerm_mem_iff_mem).symm

/-- As many legs lead into a node as out of it. -/
lemma sum_legs_into [Fintype α] {M : Type*} [AddCommMonoid M] {l : List α} (hd : l.Nodup) (x : α)
    (m : M) : (∑ y, if (y, x) ∈ legs l then m else 0) = ∑ y, if (x, y) ∈ legs l then m else 0 := by
  simp only [mem_legs_iff_formPerm_symm hd (b := x), mem_legs_iff_formPerm hd (a := x)]
  by_cases hx : x ∈ l <;> simp [hx]

end Cycles
