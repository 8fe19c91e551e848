import Mathlib.Tactic

/-!
# Tables that only grow

Rows are found by their position. A table extends another one if it has every row of it, changed
only as a relation allows.
-/

namespace Rows

variable {α : Type*} {R : α → α → Prop} {l l' : List α}

/-- Every row is still there, and related to what it was. -/
def Extends (R : α → α → Prop) (l l' : List α) : Prop :=
  ∀ (i : ℕ) (a : α), l[i]? = some a → ∃ b, l'[i]? = some b ∧ R a b

lemma Extends.refl (hR : ∀ a, R a a) (l : List α) : Extends R l l :=
  fun _ a ha => ⟨a, ha, hR a⟩

lemma Extends.append (hR : ∀ a, R a a) (l l' : List α) : Extends R l (l ++ l') := by
  intro i a ha
  have hi : i < l.length := (List.getElem?_eq_some_iff.mp ha).1
  exact ⟨a, by rw [List.getElem?_append_left hi, ha], hR a⟩

lemma Extends.modify (hR : ∀ a, R a a) {j : ℕ} {f : α → α}
    (hf : ∀ a, l[j]? = some a → R a (f a)) : Extends R l (l.modify j f) := by
  intro i a ha
  rw [List.getElem?_modify, ha]
  by_cases hij : j = i
  · subst hij
    exact ⟨f a, by simp, hf a ha⟩
  · exact ⟨a, by simp [hij], hR a⟩

/-- A sum over a table of which one row has changed. -/
lemma sum_map_modify {M : Type*} [AddCommGroup M] {g : α → M} {f : α → α} :
    ∀ {l : List α} {i : ℕ} {a : α}, l[i]? = some a →
      ((l.modify i f).map g).sum = (l.map g).sum - g a + g (f a)
  | b :: l, 0, a, h => by
    obtain rfl : b = a := by simpa using h
    simp only [List.modify_zero_cons, List.map_cons, List.sum_cons]
    abel
  | b :: l, i + 1, a, h => by
    have htail : l[i]? = some a := by simpa using h
    simp only [List.modify_succ_cons, List.map_cons, List.sum_cons, sum_map_modify htail]
    abel
  | [], _, _, h => by simp at h

/-- The positions of some rows are distinct. -/
lemma nodup_positions (l : List α) (p : α × ℕ → Bool) :
    ((l.zipIdx.filter p).map Prod.snd).Nodup := by
  have hrange : (l.zipIdx.map Prod.snd).Nodup := by
    rw [List.zipIdx_map_snd]
    exact List.nodup_range'
  exact hrange.sublist (List.filter_sublist.map Prod.snd)

/-- What a map that is made of rows has for a key on which the rows agree. -/
lemma lookup_filterMap {κ β : Type*} [BEq κ] [LawfulBEq κ] {key : α → κ} {f : α → Option β} {k : κ}
    {v : Option β} {l : List α} (hall : ∀ a ∈ l, key a = k → f a = v)
    (hmem : v = none ∨ ∃ a ∈ l, key a = k) :
    (l.filterMap fun a => (f a).map fun b => (key a, b)).lookup k = v := by
  induction l with
  | nil =>
    rcases hmem with rfl | ⟨a, ha, -⟩
    · rfl
    · cases ha
  | cons a l ih =>
    obtain ⟨hhead, hall⟩ := List.forall_mem_cons.mp hall
    rw [List.filterMap_cons]
    by_cases hkey : key a = k
    · cases hf : f a with
      | none   => exact ih hall (.inl ((hhead hkey).symm.trans hf))
      | some b =>
        rw [← hhead hkey, hf, Option.map_some, ← hkey]
        exact List.lookup_cons_self
    · have hmem : v = none ∨ ∃ a ∈ l, key a = k := by
        rcases hmem with hnone | ⟨a', ha', hkey'⟩
        · exact .inl hnone
        · rcases List.mem_cons.mp ha' with rfl | ha'
          · exact absurd hkey' hkey
          · exact .inr ⟨a', ha', hkey'⟩
      cases f a with
      | none   => exact ih hall hmem
      | some b =>
        rw [Option.map_some]
        dsimp only
        rw [List.lookup_cons, beq_false_of_ne (Ne.symm hkey)]
        exact ih hall hmem

section Filters

variable {p : α → Bool} {f : α → α}

lemma map_fst_filter_zipIdx (l : List α) :
    (l.zipIdx.filter fun row => p row.1).map Prod.fst = l.filter p := by
  have hmap := List.filter_map (l := l.zipIdx) (p := p) (f := Prod.fst)
  rw [List.zipIdx_map_fst] at hmap
  exact hmap.symm

/-- Rows that stay as they are, and stay the only ones to be chosen. -/
lemma filter_zipIdx_map {l : List α} (hp : ∀ a ∈ l, p (f a) = p a)
    (hf : ∀ a ∈ l, p a = true → f a = a) :
    (l.map f).zipIdx.filter (fun row => p row.1) = l.zipIdx.filter fun row => p row.1 := by
  have hrow : ∀ row ∈ l.zipIdx, row.1 ∈ l := fun row hrow => List.fst_mem_of_mem_zipIdx hrow
  rw [List.zipIdx_map, List.filter_map]
  have hfilter : l.zipIdx.filter ((fun row : α × ℕ => p row.1) ∘ Prod.map f id) =
      l.zipIdx.filter fun row => p row.1 :=
    List.filter_congr fun row hmem => hp row.1 (hrow row hmem)
  rw [hfilter]
  refine (List.map_congr_left fun row hmem => ?_).trans (List.map_id _)
  obtain ⟨hmem, hchosen⟩ := List.mem_filter.mp hmem
  exact Prod.ext (hf row.1 (hrow row hmem) hchosen) rfl

lemma filter_zipIdx_concat {l : List α} {a : α} (ha : p a = false) :
    (l ++ [a]).zipIdx.filter (fun row => p row.1) = l.zipIdx.filter fun row => p row.1 := by
  rw [List.zipIdx_append, List.filter_append]
  simp [ha]

end Filters

section Sums

variable {M : Type*} [AddCommMonoid M] {p : α → Prop} [DecidablePred p] {g : α → M}

/-- What a row counts for. -/
private def share (p : α → Prop) [DecidablePred p] (g : α → M) : Option α → M
  | some a => if p a then g a else 0
  | none   => 0

private lemma sum_filter_eq_sum_share (l : List α) :
    ((l.filter p).map g).sum = ∑ i ∈ Finset.range l.length, share p g l[i]? := by
  induction l using List.reverseRecOn with
  | nil => rfl
  | append_singleton l a ih =>
    have hlast : share p g (l ++ [a])[l.length]? = ((if p a then [a] else []).map g).sum := by
      by_cases ha : p a <;> simp [share, ha]
    rw [List.length_append, List.length_singleton, Finset.sum_range_succ, hlast, List.filter_append,
      List.map_append, List.sum_append, ih]
    congr 1
    · refine Finset.sum_congr rfl fun i hi => ?_
      rw [List.getElem?_append_left (Finset.mem_range.mp hi)]
    · by_cases ha : p a <;> simp [ha]

/-- Entries that stand for different rows add up to no more than all the rows do. -/
lemma sum_le_sum_filter [PartialOrder M] [IsOrderedAddMonoid M] {β : Type*} {entries : List β}
    {key : β → ℕ} {value : β → M} (hkeys : (entries.map key).Nodup)
    (hrow : ∀ b ∈ entries, ∃ a, l[key b]? = some a ∧ p a ∧ g a = value b)
    (hnonneg : ∀ a ∈ l, p a → 0 ≤ g a) :
    (entries.map value).sum ≤ ((l.filter p).map g).sum := by
  have hshare : ∀ i : ℕ, 0 ≤ share p g l[i]? := by
    intro i
    cases hi : l[i]? with
    | none   => exact le_rfl
    | some a =>
      by_cases ha : p a
      · simpa [share, ha] using hnonneg a (List.mem_of_getElem? hi) ha
      · simp [share, ha]
  have hvalue : entries.map value = (entries.map key).map fun i : ℕ => share p g l[i]? := by
    rw [List.map_map]
    refine List.map_congr_left fun b hb => ?_
    obtain ⟨a, hrow, ha, hvalue⟩ := hrow b hb
    simp [share, hrow, ha, hvalue]
  have hsub : (entries.map key).toFinset ⊆ Finset.range l.length := by
    intro i hi
    obtain ⟨b, hb, rfl⟩ := List.mem_map.mp (List.mem_toFinset.mp hi)
    obtain ⟨a, hrow, -⟩ := hrow b hb
    exact Finset.mem_range.mpr (List.getElem?_eq_some_iff.mp hrow).1
  rw [hvalue, ← List.sum_toFinset _ hkeys, sum_filter_eq_sum_share]
  exact Finset.sum_le_sum_of_subset_of_nonneg hsub fun i _ _ => hshare i

end Sums

end Rows
