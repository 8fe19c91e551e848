import Mathlib.Tactic

/-!
# Sums over a trailing window

What the dated entries of a log sum to from some time on.
-/

namespace Window

variable {α T V : Type*} [LinearOrder T] (date : α → T) (value : α → V)

/-- What the entries from a time on sum to. -/
def sumSince [AddCommMonoid V] (l : List α) (t : T) : V :=
  ((l.filter fun a => t ≤ date a).map value).sum

section Sums

variable [AddCommMonoid V] {date value} {l l' : List α} {a : α} {t : T}

@[simp] lemma sumSince_nil : sumSince date value [] t = 0 := rfl

@[simp] lemma sumSince_cons : sumSince date value (a :: l) t =
    (if t ≤ date a then value a else 0) + sumSince date value l t := by
  by_cases h : t ≤ date a <;> simp [sumSince, h]

@[simp] lemma sumSince_append : sumSince date value (l ++ l') t =
    sumSince date value l t + sumSince date value l' t := by
  simp [sumSince]

end Sums

section Ordered

variable [AddCommMonoid V] [PartialOrder V] [IsOrderedAddMonoid V] {date value} {l : List α}
  {t t' : T}

/-- A later start leaves less. -/
lemma sumSince_anti_of_nonneg (hnonneg : ∀ a ∈ l, 0 ≤ value a) (h : t ≤ t') :
    sumSince date value l t' ≤ sumSince date value l t := by
  induction l with
  | nil => exact le_rfl
  | cons a l ih =>
    rw [sumSince_cons, sumSince_cons]
    refine add_le_add ?_ (ih fun b hb => hnonneg b (List.mem_cons_of_mem _ hb))
    by_cases ha : t' ≤ date a
    · rw [if_pos ha, if_pos (h.trans ha)]
    · rw [if_neg ha]
      split_ifs
      · exact hnonneg a List.mem_cons_self
      · exact le_rfl

variable [CanonicallyOrderedAdd V]

lemma sumSince_anti (h : t ≤ t') : sumSince date value l t' ≤ sumSince date value l t :=
  sumSince_anti_of_nonneg (fun _ _ => zero_le) h

/-- So do fewer entries. -/
lemma sumSince_sublist {l' : List α} (h : l.Sublist l') :
    sumSince date value l t ≤ sumSince date value l' t :=
  (List.Sublist.map value (h.filter _)).sum_le_sum fun _ _ => zero_le

end Ordered

end Window
