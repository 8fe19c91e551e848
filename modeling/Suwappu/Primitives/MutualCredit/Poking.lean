import Suwappu.Lib.Interest
import Suwappu.Primitives.MutualCredit.Change

/-!
# Accruals in between

Every call on a line folds the interest into its balance, and rounds it down. Whether a debt gains
or loses by that depends on the fractions of a unit that are dropped.
-/

namespace Suwappu.MutualCredit

open Checked

variable {s s' : State} {l l' : Line} {d c token : Address} {t t₁ : BlockTime} {ts : List BlockTime}
  {z z' : ℤ}

/-- `_accrue` at some times after each other. -/
def accrueAll : Line → List BlockTime → Except Error Line
  | l, []      => .ok l
  | l, t :: ts => do
    let l ← accrue t l
    accrueAll l ts

/-- A payment of nothing is an accrual, up to a demand that is covered. -/
lemma pay_zero (hne : d ≠ c) (h : pay s d c token 0 = .ok s') :
    ∃ l, accrue s.now (s.lines (lineKey d c token)) = .ok l ∧
      (s'.lines (lineKey d c token)).balance = l.balance ∧
      (s'.lines (lineKey d c token)).lastAccrual = l.lastAccrual := by
  have haccrue := h
  simp only [pay, bind_ok_iff, guard_ok_iff, exists_const] at haccrue
  obtain ⟨-, -, l, hl, -⟩ := haccrue
  obtain ⟨-, -, rfl⟩ := pay_ok hne h
  obtain ⟨rfl, -⟩ := accrue_ok hl
  exact ⟨_, hl, by simp [moreDebt], by simp⟩

lemma natAbs_accrued (l : Line) (t : BlockTime) : (l.accrued t).natAbs =
    Interest.grow WAD l.feeRate l.balance.natAbs (t.val - l.lastAccrual.val) := by
  rw [Line.accrued, Interest.grow, ← Line.interest]
  split <;> omega

/-- What is owed after some accruals. -/
lemma natAbs_of_accrueAll (h : accrueAll l ts = .ok l') (hz : accruedBalance t₁ l' = .ok z) :
    z.natAbs = Interest.compound WAD l.feeRate l.balance.natAbs
      (Interest.gaps l.lastAccrual.val ((ts ++ [t₁]).map Fin.val)) := by
  induction ts generalizing l with
  | nil =>
    cases h
    rw [(accruedBalance_ok hz).1, natAbs_accrued]
    rfl
  | cons t ts ih =>
    simp only [accrueAll, bind_ok_iff] at h
    obtain ⟨l₁, haccrue, h⟩ := h
    obtain ⟨rfl, -⟩ := accrue_ok haccrue
    rw [ih h, natAbs_accrued]
    rfl

/-- The interest on interest makes up for the fractions of a unit that the accruals drop, beside the
one that a single accrual drops. -/
def Compounds (l : Line) (pokes : List BlockTime) (t₁ : BlockTime) : Prop :=
  let m := l.balance.natAbs
  let ds := Interest.gaps l.lastAccrual.val ((pokes ++ [t₁]).map Fin.val)
  Interest.fractions WAD l.feeRate m ds ≤
    m * l.feeRate * (t₁.val - l.lastAccrual.val) % WAD + Interest.gain WAD l.feeRate m m ds

instance decidableCompounds (l : Line) (pokes : List BlockTime) (t₁ : BlockTime) :
    Decidable (Compounds l pokes t₁) := inferInstanceAs (Decidable (_ ≤ _))

/-- Accruals in between leave no less owed than none exactly when they compound. -/
theorem owed_le_poked_iff {pokes : List BlockTime}
    (hsorted : (l.lastAccrual :: pokes ++ [t₁]).Pairwise (· ≤ ·))
    (hpokes : accrueAll l pokes = .ok l') (hz : accruedBalance t₁ l = .ok z)
    (hz' : accruedBalance t₁ l' = .ok z') :
    z.natAbs ≤ z'.natAbs ↔ Compounds l pokes t₁ := by
  have hsum : (Interest.gaps l.lastAccrual.val ((pokes ++ [t₁]).map Fin.val)).sum =
      t₁.val - l.lastAccrual.val := by
    have hvals : ((l.lastAccrual :: pokes ++ [t₁]).map Fin.val).Pairwise (· ≤ ·) :=
      hsorted.map Fin.val fun _ _ h => h
    rw [List.map_append, List.map_cons] at hvals
    rw [List.map_append]
    exact Interest.sum_gaps hvals
  rw [(accruedBalance_ok hz).1, natAbs_accrued, natAbs_of_accrueAll hpokes hz', Compounds, ← hsum]
  exact Interest.grow_sum_le_compound_iff WAD_pos

/-- One dollar of a token with six decimals, at the highest rate. -/
def dollar : Line := { Line.empty with
  balance := 1000000
  feeRate := MAX_FEE_RATE
  status := .Active }

/-- An accrual that drops nothing compounds. -/
theorem owed_le_poked_iff_day : Int.natAbs 1001382 ≤ Int.natAbs 1001382 ↔
    Compounds dollar [62500] 86400 := by
  have hpokes : accrueAll dollar [62500] =
      .ok { dollar with balance := 1001000, lastAccrual := 62500 } := by decide +kernel
  exact owed_le_poked_iff (by decide) hpokes (by decide +kernel) (by decide +kernel)

/-- Half a unit of interest is dropped twice. -/
theorem interest_shrunk : ¬ ∀ (l l' : Line) (pokes : List BlockTime) (t₁ : BlockTime) (z z' : ℤ),
    (l.lastAccrual :: pokes ++ [t₁]).Pairwise (· ≤ ·) → accrueAll l pokes = .ok l' →
    accruedBalance t₁ l = .ok z → accruedBalance t₁ l' = .ok z' → z.natAbs ≤ z'.natAbs := by
  intro h
  have hle := h dollar { dollar with lastAccrual := 32 } [32] 64 1000001 1000000 (by decide)
    (by decide +kernel) (by decide +kernel) (by decide +kernel)
  omega

end Suwappu.MutualCredit
