import Mathlib.Data.List.GetD
import Mathlib.Tactic

/-!
# Medians

The median of a list stays within every interval that holds more than half of its values.
-/

namespace Median

/-- The middle one of sorted values, or the mean of the two middle ones. -/
def middle {α : Type*} (mean : α → α → α) (default : α) (values : List α) : α :=
  let mid := values.length / 2
  if values.length % 2 = 1 then values.getD mid default
  else mean (values.getD (mid - 1) default) (values.getD mid default)

lemma countP_add_countP_le {α : Type*} {l : List α} {p q : α → Bool} (hpq : ∀ a, p a → ¬ q a) :
    l.countP p + l.countP q ≤ l.length := by
  have hmono : l.countP q ≤ l.countP fun a => ¬ p a :=
    List.countP_mono_left fun a _ hq => decide_eq_true fun hp => hpq a hp hq
  rw [List.length_eq_countP_add_countP p]
  exact Nat.add_le_add_left hmono _

section Sorting

variable {α : Type*} [LinearOrder α] {l : List α} {p : α → Bool} {i : ℕ}

/-- What is true of a value is true of those before it as well. -/
lemma lt_countP_of_getElem (hsorted : l.Pairwise (· ≤ ·)) (hi : i < l.length) (h : p l[i])
    (hp : ∀ a b, a ≤ b → p b → p a) : i < l.countP p := by
  have htake : (l.take (i + 1)).countP p = i + 1 := by
    rw [List.countP_eq_length.mpr, List.length_take_of_le hi]
    intro a ha
    obtain ⟨j, hj, rfl⟩ := List.getElem_of_mem ha
    rw [List.length_take_of_le hi] at hj
    rw [List.getElem_take]
    have hle := hsorted.rel_get_of_le (a := ⟨j, by omega⟩) (b := ⟨i, hi⟩) (Nat.lt_succ_iff.mp hj)
    exact hp _ _ hle h
  have hle : (l.take (i + 1)).countP p ≤ l.countP p := (List.take_sublist _ _).countP_le
  omega

/-- What is true of a value is true of those after it as well. -/
lemma length_le_countP_of_getElem (hsorted : l.Pairwise (· ≤ ·)) (hi : i < l.length) (h : p l[i])
    (hp : ∀ a b, a ≤ b → p a → p b) : l.length ≤ i + l.countP p := by
  have hdrop : (l.drop i).countP p = l.length - i := by
    rw [List.countP_eq_length.mpr, List.length_drop]
    intro a ha
    obtain ⟨j, hj, rfl⟩ := List.getElem_of_mem ha
    rw [List.length_drop] at hj
    rw [List.getElem_drop]
    exact hp _ _ (hsorted.rel_get_of_le (a := ⟨i, hi⟩) (b := ⟨i + j, by omega⟩)
      (Nat.le_add_right i j)) h
  have hle : (l.drop i).countP p ≤ l.countP p := (List.drop_sublist _ _).countP_le
  omega

end Sorting

section Majority

variable {α : Type*} [LinearOrder α] {l l' : List α} {lo hi : α} {i : ℕ}

/-- More than half of the values are in an interval. -/
def Majority (lo hi : α) (l : List α) : Prop :=
  l.length < 2 * l.countP fun p => lo ≤ p ∧ p ≤ hi

lemma Majority.perm (h : l.Perm l') (hmajority : Majority lo hi l) : Majority lo hi l' := by
  rwa [Majority, ← h.length_eq, ← h.countP_eq]

lemma Majority.le_getElem (h : Majority lo hi l) (hsorted : l.Pairwise (· ≤ ·))
    (hi' : i < l.length) (hmid : l.length ≤ 2 * i + 2) : lo ≤ l[i] := by
  by_contra hlt
  have hcount := lt_countP_of_getElem (p := fun a => a < lo) hsorted hi'
    (decide_eq_true (not_le.mp hlt))
    fun a b hab hb => decide_eq_true (hab.trans_lt (of_decide_eq_true hb))
  have hdisjoint : l.countP (fun a => a < lo) + l.countP (fun p => lo ≤ p ∧ p ≤ hi) ≤ l.length :=
    countP_add_countP_le fun a ha hin =>
      ((of_decide_eq_true hin).1.trans_lt (of_decide_eq_true ha)).false
  rw [Majority] at h
  omega

lemma Majority.getElem_le (h : Majority lo hi l) (hsorted : l.Pairwise (· ≤ ·))
    (hi' : i < l.length) (hmid : 2 * i ≤ l.length) : l[i] ≤ hi := by
  by_contra hlt
  have hcount := length_le_countP_of_getElem (p := fun a => hi < a) hsorted hi'
    (decide_eq_true (not_le.mp hlt))
    fun a b hab ha => decide_eq_true ((of_decide_eq_true ha).trans_le hab)
  have hdisjoint : l.countP (fun a => hi < a) + l.countP (fun p => lo ≤ p ∧ p ≤ hi) ≤ l.length :=
    countP_add_countP_le fun a ha hin =>
      ((of_decide_eq_true ha).trans_le (of_decide_eq_true hin).2).false
  rw [Majority] at h
  omega

lemma majority_of_forall (hne : l ≠ []) (h : ∀ a ∈ l, lo ≤ a ∧ a ≤ hi) : Majority lo hi l := by
  rw [Majority, List.countP_eq_length.mpr fun a ha => decide_eq_true (h a ha), two_mul]
  exact Nat.lt_add_of_pos_left (List.length_pos_of_ne_nil hne)

/-- A filter that the values in the interval pass. -/
lemma Majority.filter {p : α → Bool} (h : Majority lo hi l)
    (hp : ∀ a, lo ≤ a → a ≤ hi → p a = true) : Majority lo hi (l.filter p) := by
  have hcount : (l.filter p).countP (fun a => lo ≤ a ∧ a ≤ hi) =
      l.countP fun a => lo ≤ a ∧ a ≤ hi := by
    rw [List.countP_filter]
    refine List.countP_congr fun a _ => ?_
    simp only [Bool.decide_and, Bool.and_eq_true, decide_eq_true_eq]
    exact ⟨And.left, fun ha => ⟨ha, hp a ha.1 ha.2⟩⟩
  have hlength : (l.filter p).length ≤ l.length := List.length_filter_le _ _
  rw [Majority] at h ⊢
  rw [hcount]
  omega

/-- The middle of sorted values is where more than half of them are, and what a mean is of values
from there. -/
theorem Majority.middle {mean : α → α → α} {default : α} (h : Majority lo hi l)
    (hsorted : l.Pairwise (· ≤ ·))
    (hmean : ∀ a b, lo ≤ a ∧ a ≤ hi → lo ≤ b ∧ b ≤ hi → lo ≤ mean a b ∧ mean a b ≤ hi) :
    lo ≤ Median.middle mean default l ∧ Median.middle mean default l ≤ hi := by
  have hpos : 0 < l.length := by
    have hle := List.countP_le_length (p := fun p => decide (lo ≤ p ∧ p ≤ hi)) (l := l)
    rw [Majority] at h
    omega
  unfold Median.middle
  dsimp only
  split_ifs with hodd
  · rw [List.getD_eq_getElem _ _ (by omega)]
    exact ⟨h.le_getElem hsorted _ (by omega), h.getElem_le hsorted _ (by omega)⟩
  · rw [List.getD_eq_getElem _ _ (by omega), List.getD_eq_getElem _ _ (by omega)]
    refine hmean _ _ ⟨?_, ?_⟩ ⟨?_, ?_⟩
    · exact h.le_getElem hsorted _ (by omega)
    · exact h.getElem_le hsorted _ (by omega)
    · exact h.le_getElem hsorted _ (by omega)
    · exact h.getElem_le hsorted _ (by omega)

end Majority

end Median
