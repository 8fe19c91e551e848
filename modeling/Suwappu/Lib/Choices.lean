import Mathlib.Data.List.MinMax
import Mathlib.Data.List.Sort

/-!
# Choices from a list

What is chosen from a list by a key that tells its elements apart does not depend on their order:
the largest element, the first one with a property, the sorted list.
-/

namespace Choices

variable {α β : Type*} {key : α → β} {l l' : List α}

/-- The key tells the elements apart. -/
def Distinct (key : α → β) (l : List α) : Prop := ∀ a ∈ l, ∀ b ∈ l, key a = key b → a = b

lemma Distinct.of_nodup (h : (l.map key).Nodup) : Distinct key l :=
  fun _ ha _ hb => List.inj_on_of_nodup_map h ha hb

lemma Distinct.subset (h : Distinct key l) (hsub : l' ⊆ l) : Distinct key l' :=
  fun a ha b hb => h a (hsub ha) b (hsub hb)

/-- The first element with some value of the key. -/
theorem find?_perm [DecidableEq β] (h : l.Perm l') (hdistinct : Distinct key l) (k : β) :
    l.find? (fun a => key a = k) = l'.find? (fun a => key a = k) := by
  cases hfind : l.find? (fun a => key a = k) with
  | none =>
    refine (List.find?_eq_none.mpr fun a ha => ?_).symm
    exact List.find?_eq_none.mp hfind a (h.mem_iff.mpr ha)
  | some a =>
    have ha := List.mem_of_find?_eq_some hfind
    have hk := List.find?_some hfind
    cases hfind' : l'.find? (fun a => key a = k) with
    | none => exact absurd hk (List.find?_eq_none.mp hfind' a (h.mem_iff.mp ha))
    | some b =>
      have hb := h.mem_iff.mpr (List.mem_of_find?_eq_some hfind')
      have hk' := List.find?_some hfind'
      rw [hdistinct a ha b hb ((of_decide_eq_true hk).trans (of_decide_eq_true hk').symm)]

variable [LinearOrder β]

theorem argmax_perm (h : l.Perm l') (hdistinct : Distinct key l) :
    l.argmax key = l'.argmax key := by
  cases hmax : l.argmax key with
  | none =>
    rw [List.argmax_eq_none] at hmax
    subst hmax
    rw [List.nil_perm.mp h, List.argmax_nil]
  | some a =>
    cases hmax' : l'.argmax key with
    | none =>
      rw [List.argmax_eq_none] at hmax'
      subst hmax'
      rw [List.perm_nil.mp h] at hmax
      cases hmax
    | some b =>
      have ha := List.argmax_mem hmax
      have hb := h.mem_iff.mpr (List.argmax_mem hmax')
      have hab := List.le_of_mem_argmax (h.mem_iff.mp ha) hmax'
      have hba := List.le_of_mem_argmax hb hmax
      rw [hdistinct a ha b hb (le_antisymm hab hba)]

theorem insertionSort_perm (h : l.Perm l') (hdistinct : Distinct key l) :
    l.insertionSort (key · ≤ key ·) = l'.insertionSort (key · ≤ key ·) := by
  have htotal : Std.Total fun a b => key a ≤ key b := ⟨fun _ _ => le_total _ _⟩
  have htrans : IsTrans α fun a b => key a ≤ key b := ⟨fun _ _ _ => le_trans⟩
  have hperm := List.perm_insertionSort (key · ≤ key ·) l
  have hperm' := List.perm_insertionSort (key · ≤ key ·) l'
  refine ((hperm.trans h).trans hperm'.symm).eq_of_pairwise (fun a b ha hb hab hba => ?_)
    (List.pairwise_insertionSort _ l) (List.pairwise_insertionSort _ l')
  exact hdistinct a (hperm.mem_iff.mp ha) b (h.mem_iff.mpr (hperm'.mem_iff.mp hb))
    (le_antisymm hab hba)

end Choices
