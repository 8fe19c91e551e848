import Mathlib.Data.List.MinMax
import Mathlib.Data.Set.Finite.List
import Mathlib.Order.WellFounded
import Mathlib.Tactic

/-!
# Frontiers

What is left of a list when every element that another one dominates is taken out. The frontier
keeps a largest element unless something smaller dominates each of them.
-/

namespace Frontier

variable {α β : Type*} [LinearOrder β] {l : List α} {f : α → β}

def IsLargest (f : α → β) (l : List α) (c : α) : Prop := c ∈ l ∧ ∀ o ∈ l, f o ≤ f c

variable (dominates : α → α → Prop) [DecidableRel dominates]

/-- The elements nothing dominates. -/
def frontier (l : List α) : List α := l.filter fun c => ¬ l.any fun o => dominates o c

variable {dominates}

lemma mem_frontier {c : α} : c ∈ frontier dominates l ↔ c ∈ l ∧ ∀ o ∈ l, ¬ dominates o c := by
  simp [frontier]

variable [IsStrictOrder α dominates]

variable (dominates) in
/-- What is not on the frontier is dominated from there. -/
lemma exists_mem_frontier {c : α} (hc : c ∈ l) :
    ∃ o ∈ frontier dominates l, o = c ∨ dominates o c := by
  have hwf : WellFounded fun x y : {x // x ∈ l} => dominates x.val y.val := by
    have : IsStrictOrder {x // x ∈ l} fun x y => dominates x.val y.val :=
      { irrefl := fun x => irrefl_of dominates x.val
        trans := fun _ _ _ hab hbc => trans_of dominates hab hbc }
    have : Finite {x // x ∈ l} := (List.finite_toSet l).to_subtype
    exact Finite.wellFounded_of_trans_of_irrefl _
  obtain ⟨⟨o, ho⟩, hoc, hmin⟩ := hwf.has_min {o | o.val = c ∨ dominates o.val c} ⟨⟨c, hc⟩, .inl rfl⟩
  refine ⟨o, mem_frontier.mpr ⟨ho, fun o' ho' hdom => ?_⟩, hoc⟩
  refine hmin ⟨o', ho'⟩ ?_ hdom
  rcases hoc with rfl | hoc
  · exact .inr hdom
  · exact .inr (trans_of dominates hdom hoc)

lemma frontier_ne_nil (h : l ≠ []) : frontier dominates l ≠ [] := by
  obtain ⟨c, hc⟩ := List.exists_mem_of_ne_nil l h
  obtain ⟨o, ho, -⟩ := exists_mem_frontier dominates hc
  exact List.ne_nil_of_mem ho

/-- A largest element is on the frontier if and only if nothing smaller dominates one of them. -/
theorem exists_isLargest_frontier : (∃ c ∈ frontier dominates l, IsLargest f l c) ↔
    ∃ c, IsLargest f l c ∧ ∀ o ∈ l, dominates o c → f c ≤ f o := by
  constructor
  · rintro ⟨c, hc, hlargest⟩
    exact ⟨c, hlargest, fun o ho hdom => absurd hdom ((mem_frontier.mp hc).2 o ho)⟩
  · rintro ⟨c, ⟨hc, hle⟩, hlow⟩
    -- among the largest elements, one that none of them dominates
    have hmem : c ∈ l.filter fun o => f c ≤ f o :=
      List.mem_filter.mpr ⟨hc, decide_eq_true le_rfl⟩
    obtain ⟨best, hbest, hbc⟩ := exists_mem_frontier dominates hmem
    obtain ⟨hbest, hundominated⟩ := mem_frontier.mp hbest
    obtain ⟨hbl, hcb⟩ := List.mem_filter.mp hbest
    have hcb : f c ≤ f best := of_decide_eq_true hcb
    refine ⟨best, mem_frontier.mpr ⟨hbl, fun o ho hdom => ?_⟩, hbl,
      fun o ho => (hle o ho).trans hcb⟩
    have hoc : dominates o c := by
      rcases hbc with rfl | hbc
      · exact hdom
      · exact trans_of dominates hdom hbc
    exact hundominated o (List.mem_filter.mpr ⟨ho, decide_eq_true (hlow o ho hoc)⟩) hdom

end Frontier
