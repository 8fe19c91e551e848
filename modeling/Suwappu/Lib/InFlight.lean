import Mathlib.Tactic

/-!
# Messages in flight

A network holds the messages that were sent and not yet delivered, and delivers any of them next.
Delivery takes one message out; as far as counting goes, the rest is the same bag without it.
-/

namespace InFlight

variable {α : Type*} {l rest : List α} {a : α} {i : ℕ} {p : α → Bool}

/-- Message `i` and the messages that stay in flight. -/
def take (l : List α) (i : ℕ) : Option (α × List α) := l[i]?.map fun a => (a, l.eraseIdx i)

lemma take_perm (h : take l i = some (a, rest)) : l.Perm (a :: rest) := by
  simp only [take, Option.map_eq_some_iff, Prod.mk.injEq] at h
  obtain ⟨b, hb, rfl, rfl⟩ := h
  obtain ⟨hi, rfl⟩ := List.getElem?_eq_some_iff.mp hb
  exact (List.getElem_cons_eraseIdx_perm hi).symm

lemma mem_of_take (h : take l i = some (a, rest)) : a ∈ l :=
  (take_perm h).mem_iff.mpr List.mem_cons_self

lemma subset_of_take (h : take l i = some (a, rest)) {b : α} (hb : b ∈ rest) : b ∈ l :=
  (take_perm h).mem_iff.mpr (List.mem_cons_of_mem _ hb)

/-- What is counted before a delivery: the message, if it counts, and the rest. -/
lemma countP_take (h : take l i = some (a, rest)) :
    l.countP p = rest.countP p + if p a then 1 else 0 := by
  rw [(take_perm h).countP_eq, List.countP_cons]

end InFlight
