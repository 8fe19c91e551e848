import Mathlib.Tactic

/-!
# Interest that is rounded down

A debt earns interest over some time, rounded down to whole units, and the interest is added to it.
How often that happens makes two differences: more often, each time a fraction of a unit is dropped,
and what was added before earns interest of its own. The lemmas here weigh the one against the
other.
-/

namespace Interest

variable (W r : ℕ)

/-- A debt after its interest of `d` seconds at the rate `r / W` is added. -/
def grow (m d : ℕ) : ℕ := m + m * r * d / W

/-- A debt after its interest is added at the end of each of some intervals. -/
def compound (m : ℕ) (ds : List ℕ) : ℕ := ds.foldl (grow W r) m

/-- The fractions that are dropped on the way, in parts of `W`. -/
def fractions : ℕ → List ℕ → ℕ
  | _, []      => 0
  | m, d :: ds => m * r * d % W + fractions (grow W r m d) ds

/-- The interest on what was added since the debt was `m₀`, in parts of `W`. -/
def gain (m₀ : ℕ) : ℕ → List ℕ → ℕ
  | _, []      => 0
  | m, d :: ds => (m - m₀) * r * d + gain m₀ (grow W r m d) ds

variable {W r} {m₀ m : ℕ}

lemma le_grow (m d : ℕ) : m ≤ grow W r m d := Nat.le_add_right _ _

lemma mul_grow (m d : ℕ) : W * grow W r m d + m * r * d % W = W * m + m * r * d := by
  have h := Nat.div_add_mod (m * r * d) W
  rw [grow, mul_add]
  omega

/-- What the debt has become, up to the fractions: itself, its simple interest, and the interest on
the interest. -/
lemma mul_compound (ds : List ℕ) (h : m₀ ≤ m) :
    W * compound W r m ds + fractions W r m ds = W * m + m₀ * r * ds.sum + gain W r m₀ m ds := by
  induction ds generalizing m with
  | nil => simp [compound, fractions, gain]
  | cons d ds ih =>
    have hgrow := mul_grow (W := W) (r := r) m d
    have htail := ih (m := grow W r m d) (h.trans (le_grow m d))
    have hsplit : m * r * d = m₀ * r * d + (m - m₀) * r * d := by
      rw [← add_mul, ← add_mul, Nat.add_sub_cancel' h]
    rw [compound, List.foldl_cons, ← compound, fractions, gain, List.sum_cons, mul_add]
    omega

/-- Adding interest at the end of each interval leaves no less than adding it once exactly when the
fractions dropped are made up for by the interest on interest and the one fraction dropped at
once. -/
theorem grow_sum_le_compound_iff (hW : 0 < W) {ds : List ℕ} :
    grow W r m ds.sum ≤ compound W r m ds ↔
      fractions W r m ds ≤ m * r * ds.sum % W + gain W r m m ds := by
  have honce := mul_grow (W := W) (r := r) m ds.sum
  have heach := mul_compound (W := W) (r := r) ds (le_refl m)
  rw [← Nat.mul_le_mul_left_iff hW]
  omega

/-! ### Intervals -/

/-- The lengths of the intervals between a time and later ones. -/
def gaps : ℕ → List ℕ → List ℕ
  | _, []      => []
  | t, u :: us => (u - t) :: gaps u us

lemma sum_gaps {t u : ℕ} {ts : List ℕ} (h : (t :: ts ++ [u]).Pairwise (· ≤ ·)) :
    (gaps t (ts ++ [u])).sum = u - t := by
  induction ts generalizing t with
  | nil => simp [gaps]
  | cons v ts ih =>
    rw [List.cons_append, List.pairwise_cons] at h
    have hv : t ≤ v := h.1 v (by simp)
    have hu : v ≤ u := (List.pairwise_cons.mp h.2).1 u (by simp)
    rw [List.cons_append, gaps, List.sum_cons, ih h.2]
    omega

end Interest
