import Mathlib.Order.Interval.Finset.Nat
import Mathlib.Tactic

/-!
# Unimodal functions on an initial segment

A function rises to a point and falls from there, with flat stretches anywhere. Two probes tell on
which side of one of them its first maximum lies, unless they are equal and lie before it.
-/

namespace Unimodal

variable {α : Type*} [LinearOrder α] {f : ℕ → α} {n p a b i l r : ℕ}

def UnimodalOn (f : ℕ → α) (n : ℕ) : Prop :=
  ∃ q < n, (∀ i j, i ≤ j → j ≤ q → f i ≤ f j) ∧ ∀ i j, q ≤ i → i ≤ j → j < n → f j ≤ f i

/-- The first point of an interval at which the function is largest there. -/
structure IsFirstMax (f : ℕ → α) (l r p : ℕ) : Prop where
  ge : l ≤ p
  le : p ≤ r
  max : ∀ i, l ≤ i → i ≤ r → f i ≤ f p
  first : ∀ i, l ≤ i → i < p → f i < f p

lemma IsFirstMax.unique {p' : ℕ} (h : IsFirstMax f l r p) (h' : IsFirstMax f l r p') : p = p' := by
  rcases lt_trichotomy p p' with hlt | heq | hlt
  · exact absurd (h'.first p h.ge hlt) (not_lt.mpr (h.max p' h'.ge h'.le))
  · exact heq
  · exact absurd (h.first p' h'.ge hlt) (not_lt.mpr (h'.max p h.ge h.le))

/-- The first maximum of an interval is that of the parts it lies in. -/
lemma IsFirstMax.restrict {l' r' : ℕ} (h : IsFirstMax f l r p) (hl : l ≤ l') (hr : r' ≤ r)
    (hge : l' ≤ p) (hle : p ≤ r') : IsFirstMax f l' r' p :=
  ⟨hge, hle, fun i hi hi' => h.max i (hl.trans hi) (hi'.trans hr),
    fun i hi hi' => h.first i (hl.trans hi) hi'⟩

lemma IsFirstMax.succ_of_lt (h : IsFirstMax f l r p) (hlt : f p < f (r + 1)) :
    IsFirstMax f l (r + 1) (r + 1) := by
  refine ⟨Nat.le_succ_of_le (h.ge.trans h.le), le_rfl, fun i hi hi' => ?_, fun i hi hi' => ?_⟩
  · rcases Nat.le_succ_iff.mp hi' with hi' | rfl
    · exact (h.max i hi hi').trans hlt.le
    · exact le_rfl
  · exact (h.max i hi (Nat.le_of_lt_succ hi')).trans_lt hlt

lemma IsFirstMax.succ_of_not_lt (h : IsFirstMax f l r p) (hlt : ¬ f p < f (r + 1)) :
    IsFirstMax f l (r + 1) p := by
  refine ⟨h.ge, Nat.le_succ_of_le h.le, fun i hi hi' => ?_, h.first⟩
  rcases Nat.le_succ_iff.mp hi' with hi' | rfl
  · exact h.max i hi hi'
  · exact not_lt.mp hlt

lemma isFirstMax_self (f : ℕ → α) (l : ℕ) : IsFirstMax f l l l :=
  ⟨le_rfl, le_rfl, fun i hi hi' => by rw [le_antisymm hi' hi],
    fun i hi hi' => absurd hi (not_le.mpr hi')⟩

variable (hf : UnimodalOn f n) (hp : IsFirstMax f 0 (n - 1) p)
include hf hp

/-- The function rises to its first maximum and falls from there. -/
lemma IsFirstMax.mono : ∀ i j, i ≤ j → j ≤ p → f i ≤ f j := by
  obtain ⟨q, hq, hrise, hfall⟩ := hf
  intro i j hij hjp
  rcases le_total j q with hjq | hqj
  · exact hrise i j hij hjq
  · have hle := hp.le
    have hpj : f p ≤ f j := hfall j p hqj hjp (by omega)
    exact (hp.max i (Nat.zero_le _) (by omega)).trans hpj

lemma IsFirstMax.anti : ∀ i j, p ≤ i → i ≤ j → j < n → f j ≤ f i := by
  obtain ⟨q, hq, hrise, hfall⟩ := hf
  intro i j hpi hij hjn
  rcases le_total q i with hqi | hiq
  · exact hfall i j hqi hij hjn
  · exact (hp.max j (Nat.zero_le _) (by omega)).trans (hrise p i hpi hiq)

/-- A larger second probe lies before the first maximum, or not far behind it. -/
lemma lt_of_probe_lt (hab : a ≤ b) (hb : b < n) (h : f a < f b) : a < p := by
  by_contra hle
  exact absurd (hp.anti hf a b (not_lt.mp hle) hab hb) (not_le.mpr h)

/-- Unless the probes are equal and lie before it, the first maximum lies before the second one. -/
lemma lt_or_tie_of_probe_le (hab : a < b) (h : f b ≤ f a) : p < b ∨ f a = f b ∧ b < p := by
  rcases lt_trichotomy p b with hlt | rfl | hlt
  · exact .inl hlt
  · exact absurd (hp.first a (Nat.zero_le _) hab) (not_lt.mpr h)
  · exact .inr ⟨le_antisymm (hp.mono hf a b hab.le hlt.le) h, hlt⟩

lemma lt_of_lt_later (hbi : b < i) (hi : i < n) (h : f b < f i) : b < p :=
  lt_of_probe_lt hf hp hbi.le hi h

end Unimodal
