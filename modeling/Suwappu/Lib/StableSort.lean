import Mathlib.Data.List.Sort

/-!
# Copies in a sorted list

`Copies P l l'`: the second list is the first one with further elements of `P`, anywhere. An element
more of a list is an element more of the sorted list.
-/

namespace StableSort

variable {α : Type*} {P : α → Prop} {r : α → α → Prop} [DecidableRel r] {l l' : List α}

inductive Copies (P : α → Prop) : List α → List α → Prop
  | nil : Copies P [] []
  | keep {x : α} {l l' : List α} (h : Copies P l l') : Copies P (x :: l) (x :: l')
  | copy {x : α} {l l' : List α} (hx : P x) (h : Copies P l l') : Copies P l (x :: l')

/-- What one element more keeps, copies keep. -/
lemma Copies.induction {Q : List α → Prop}
    (hQ : ∀ (a b : List α) (x : α), P x → Q (a ++ b) → Q (a ++ x :: b)) (h : Copies P l l') :
    ∀ a, Q (a ++ l) → Q (a ++ l') := by
  induction h with
  | nil => exact fun _ hl => hl
  | keep h ih =>
    rename_i x l l'
    intro a hl
    have happend : ∀ l : List α, a ++ x :: l = (a ++ [x]) ++ l := fun l => by simp
    rw [happend] at hl ⊢
    exact ih _ hl
  | copy hx h ih => exact fun a hl => hQ a _ _ hx (ih a hl)

lemma exists_orderedInsert [IsTrans α r] (y x : α) :
    ∀ u v : List α, (u ++ x :: v).Pairwise r → ∃ u' v',
      (u ++ v).orderedInsert r y = u' ++ v' ∧ (u ++ x :: v).orderedInsert r y = u' ++ x :: v'
  | [], v, hsorted => by
    by_cases hyx : r y x
    · have hv : v.orderedInsert r y = y :: v := by
        cases v with
        | nil => rfl
        | cons z v =>
          have hxz : r x z := (List.pairwise_cons.mp hsorted).1 z List.mem_cons_self
          exact List.orderedInsert_cons_of_le r v (IsTrans.trans y x z hyx hxz)
      exact ⟨[y], v, hv, List.orderedInsert_cons_of_le r v hyx⟩
    · exact ⟨[], v.orderedInsert r y, rfl, List.orderedInsert_of_not_le r v hyx⟩
  | z :: u, v, hsorted => by
    by_cases hyz : r y z
    · exact ⟨y :: z :: u, v, List.orderedInsert_cons_of_le r (u ++ v) hyz,
        List.orderedInsert_cons_of_le r (u ++ x :: v) hyz⟩
    · obtain ⟨u', v', hshort, hlong⟩ :=
        exists_orderedInsert y x u v (List.pairwise_cons.mp hsorted).2
      refine ⟨z :: u', v', ?_, ?_⟩
      · exact (List.orderedInsert_of_not_le r (u ++ v) hyz).trans (congrArg _ hshort)
      · exact (List.orderedInsert_of_not_le r (u ++ x :: v) hyz).trans (congrArg _ hlong)

/-- One element more, and where it comes in the sorted list. -/
lemma exists_insertionSort [IsTrans α r] [Std.Total r] (x : α) (b : List α) :
    ∀ a : List α, ∃ u v, (a ++ b).insertionSort r = u ++ v ∧
      (a ++ x :: b).insertionSort r = u ++ x :: v
  | [] => by
    refine ⟨_, _, (List.takeWhile_append_dropWhile (p := fun y => ¬ r x y)).symm, ?_⟩
    exact List.insertionSort_cons_eq_take_drop r x b
  | y :: a => by
    obtain ⟨u, v, hshort, hlong⟩ := exists_insertionSort x b a
    have hsorted : (u ++ x :: v).Pairwise r := hlong ▸ List.pairwise_insertionSort r _
    obtain ⟨u', v', hshort', hlong'⟩ := exists_orderedInsert y x u v hsorted
    refine ⟨u', v', ?_, ?_⟩
    · rw [← hshort', ← hshort]
      rfl
    · rw [← hlong', ← hlong]
      rfl

end StableSort
