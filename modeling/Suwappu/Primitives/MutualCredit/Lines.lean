import Suwappu.Primitives.MutualCredit.Basic

/-!
# Lines and their balances

The balance of a line with its interest, what each side owes on it, and the bound every stored
balance keeps.
-/

namespace Suwappu.MutualCredit

open Checked

variable {s s' : State} {l l' : Line} {d c token : Address} {now : BlockTime} {m : ℕ}
  {legs : List (Address × Address)}

/-! ### Pairs and keys -/

lemma pair_of_lt (h : d < c) : pair d c = (d, c) := if_pos h

lemma pair_of_gt (h : c < d) : pair d c = (c, d) := if_neg h.asymm

lemma lineKey_comm (x y token : Address) : lineKey x y token = lineKey y x token := by
  rcases lt_trichotomy x y with h | rfl | h
  · rw [lineKey, lineKey, pair_of_lt h, pair_of_gt h]
  · rfl
  · rw [lineKey, lineKey, pair_of_gt h, pair_of_lt h]

/-- A key determines the token and the two parties, up to their order. -/
lemma lineKey_eq_iff {x y x' y' token token' : Address} :
    lineKey x y token = lineKey x' y' token' ↔
      token = token' ∧ ((x = x' ∧ y = y') ∨ (x = y' ∧ y = x')) := by
  simp only [lineKey, pair]
  split <;> split <;> simp only [LineKey.mk.injEq, Fin.lt_def, Fin.ext_iff] at * <;> omega

@[simp] lemma setLine_self (s : State) (key : LineKey) (l : Line) :
    (s.setLine key l).lines key = l := Function.update_self ..

lemma setLine_of_ne (s : State) {key key' : LineKey} (l : Line) (h : key' ≠ key) :
    (s.setLine key l).lines key' = s.lines key' := Function.update_of_ne h ..

@[simp] lemma setLine_now (s : State) (key : LineKey) (l : Line) :
    (s.setLine key l).now = s.now := rfl

/-! ### The balance with interest -/

/-- The interest since the last accrual, before any bound on words. -/
def Line.interest (l : Line) (now : BlockTime) : ℕ :=
  l.balance.natAbs * l.feeRate * (now.val - l.lastAccrual.val) / WAD

/-- What `_accruedBalance` returns when nothing overflows. -/
def Line.accrued (l : Line) (now : BlockTime) : ℤ :=
  if l.balance > 0 then l.balance + l.interest now else l.balance - l.interest now

/-- A balance a word can hold. -/
def Fits (z : ℤ) : Prop := -2 ^ 255 ≤ z ∧ z < 2 ^ 255

lemma accrued_of_zero (h : l.balance = 0 ∨ l.feeRate = 0) : l.accrued now = l.balance := by
  have h0 : l.interest now = 0 := by rcases h with h | h <;> simp [Line.interest, h]
  simp [Line.accrued, h0]

lemma accrued_of_accruedAt (h : l.lastAccrual = now) : l.accrued now = l.balance := by
  have h0 : l.interest now = 0 := by simp [Line.interest, h]
  simp [Line.accrued, h0]

lemma negU_ok_iff {z : ℤ} {n : ℕ} : negU z = .ok n ↔ Fits (-z) ∧ (-z).toNat = n := by
  simp only [negU, bind_ok_iff, fitI_ok_iff, pure_ok_iff, Fits]
  constructor
  · rintro ⟨_, ⟨h, rfl⟩, hn⟩
    exact ⟨h, hn⟩
  · rintro ⟨h, hn⟩
    exact ⟨_, ⟨h, rfl⟩, hn⟩

lemma magnitude_ok {z : ℤ} {n : ℕ} (h : magnitude z = .ok n) : n = z.natAbs := by
  unfold magnitude at h
  split at h
  · simp only [pure_ok_iff] at h
    omega
  · rw [negU_ok_iff] at h
    omega

/-- Interest is a quotient by `WAD`, so its conversion to a signed word does not wrap. -/
lemma int256_interest {x : ℕ} (h : x < 2 ^ 256) : int256 (x / WAD) = (x / WAD : ℕ) :=
  int256_eq (by rw [Nat.div_lt_iff_lt_mul WAD_pos]; exact h.trans (by decide))

lemma accruedBalance_ok {b : ℤ} (h : accruedBalance now l = .ok b) :
    b = l.accrued now ∧ (b = l.balance ∨ Fits b) := by
  unfold accruedBalance at h
  dsimp only at h
  split at h
  · rename_i h0
    simp only [pure_ok_iff] at h
    exact ⟨by rw [accrued_of_zero h0, h], .inl h.symm⟩
  simp only [bind_ok_iff, subU_ok_iff] at h
  obtain ⟨dt, ⟨-, rfl⟩, h⟩ := h
  split at h
  · rename_i hdt
    have h0 : l.interest now = 0 := by simp [Line.interest, hdt]
    simp only [pure_ok_iff] at h
    exact ⟨by simp [Line.accrued, h0, h], .inl h.symm⟩
  simp only [bind_ok_iff, mulU_ok_iff] at h
  obtain ⟨mag, hmag, x, ⟨-, rfl⟩, y, ⟨hlt, rfl⟩, h⟩ := h
  rw [int256_interest hlt, magnitude_ok hmag] at h
  split at h <;> rename_i hpos <;> rw [fitI_ok_iff] at h <;> obtain ⟨hfit, rfl⟩ := h
  · exact ⟨by rw [Line.accrued, if_pos hpos, Line.interest], .inr hfit⟩
  · exact ⟨by rw [Line.accrued, if_neg hpos, Line.interest], .inr hfit⟩

lemma accruedBalance_fits {b : ℤ} (hl : Fits l.balance) (h : accruedBalance now l = .ok b) :
    Fits b := by
  rcases (accruedBalance_ok h).2 with rfl | hb
  · exact hl
  · exact hb

/-- Right after an accrual the next one has nothing to add. -/
lemma accruedBalance_of_accruedAt (h : l.lastAccrual = now) :
    accruedBalance now l = .ok l.balance := by
  unfold accruedBalance
  dsimp only
  split
  · rfl
  · rw [show (subU now.val l.lastAccrual.val : Except Error ℕ) = .ok 0 by
      rw [subU_ok_iff, h]
      exact ⟨le_rfl, Nat.sub_self _⟩]
    rfl

lemma accrue_ok (h : accrue now l = .ok l') :
    l' = { l with balance := l.accrued now, lastAccrual := now } ∧
      accruedBalance now l = .ok (l.accrued now) := by
  simp only [accrue, bind_ok_iff, pure_ok_iff] at h
  obtain ⟨b, hb, rfl⟩ := h
  obtain rfl := (accruedBalance_ok hb).1
  exact ⟨rfl, hb⟩

/-! ### What one side owes -/

/-- What `debtor` owes `creditor` on their line at balance `bal`. -/
def debt (debtor creditor : Address) (bal : ℤ) : ℕ :=
  if debtor < creditor then (-bal).toNat else bal.toNat

lemma debtOf_ok (hne : d ≠ c) {bal : ℤ} {n : ℕ}
    (h : debtOf d (pair d c).1 (pair d c).2 bal = .ok n) : n = debt d c bal := by
  rcases lt_or_gt_of_ne hne with hlt | hgt
  · simp only [debtOf, pair_of_lt hlt, hne, false_and, if_false, true_and] at h
    rw [debt, if_pos hlt]
    split at h
    · rw [negU_ok_iff] at h
      exact h.2.symm
    · simp only [pure_ok_iff] at h
      omega
  · simp only [debtOf, pair_of_gt hgt, hne, false_and, if_false, true_and] at h
    rw [debt, if_neg hgt.asymm]
    split at h <;> simp only [pure_ok_iff] at h <;> omega

lemma debtOf_eq (hne : d ≠ c) {bal : ℤ} (h : Fits (-bal)) :
    debtOf d (pair d c).1 (pair d c).2 bal = .ok (debt d c bal) := by
  have hneg : negU bal = .ok (-bal).toNat := negU_ok_iff.mpr ⟨h, rfl⟩
  rcases lt_or_gt_of_ne hne with hlt | hgt
  · simp only [debtOf, pair_of_lt hlt, hne, false_and, if_false, true_and, debt, if_pos hlt]
    split
    · exact hneg
    · rw [pure_ok_iff]
      omega
  · simp only [debtOf, pair_of_gt hgt, hne, false_and, if_false, true_and, debt, if_neg hgt.asymm]
    split <;> rw [pure_ok_iff]
    omega

/-! ### Every stored balance is a signed word -/

def BalancesFit (s : State) : Prop := ∀ key, Fits (s.lines key).balance

lemma clearDemandIfCovered_cases (l : Line) (lo hi : Address) : clearDemandIfCovered l lo hi = l ∨
    clearDemandIfCovered l lo hi = { l with demandTs := 0, demandBy := Address.zero } := by
  by_cases h₀ : l.demandTs = 0
  · exact .inl (if_pos h₀)
  · rw [clearDemandIfCovered, if_neg h₀]
    exact ite_eq_or_eq _ _ _

@[simp] lemma clearDemandIfCovered_balance (l : Line) (lo hi : Address) :
    (clearDemandIfCovered l lo hi).balance = l.balance := by
  rcases clearDemandIfCovered_cases l lo hi with h | h <;> rw [h]

@[simp] lemma clearDemandIfCovered_lastAccrual (l : Line) (lo hi : Address) :
    (clearDemandIfCovered l lo hi).lastAccrual = l.lastAccrual := by
  rcases clearDemandIfCovered_cases l lo hi with h | h <;> rw [h]

@[simp] lemma clearDemandIfCovered_status (l : Line) (lo hi : Address) :
    (clearDemandIfCovered l lo hi).status = l.status := by
  rcases clearDemandIfCovered_cases l lo hi with h | h <;> rw [h]

lemma BalancesFit.setLine (hI : BalancesFit s) (key : LineKey) (hl : Fits l.balance) :
    BalancesFit (s.setLine key l) := by
  intro key'
  by_cases h : key' = key
  · subst h
    rwa [setLine_self]
  · rw [setLine_of_ne s l h]
    exact hI key'

lemma accrue_fits (hl : Fits l.balance) (h : accrue now l = .ok l') : Fits l'.balance := by
  obtain ⟨rfl, hb⟩ := accrue_ok h
  exact accruedBalance_fits hl hb

lemma netLine_fits (h : netLine now m d c l = .ok l') : Fits l'.balance := by
  simp only [netLine, bind_ok_iff, guard_ok_iff, exists_const, fitI_ok_iff, pure_ok_iff] at h
  obtain ⟨-, l₁, -, legOwed, -, -, balance, ⟨hfit, rfl⟩, rfl⟩ := h
  rw [clearDemandIfCovered_balance]
  exact hfit

lemma netLegs_fits (hI : BalancesFit s) (h : netLegs token m s legs = .ok s') :
    BalancesFit s' := by
  induction legs generalizing s with
  | nil =>
    simp only [netLegs, pure_ok_iff] at h
    exact h ▸ hI
  | cons leg legs ih =>
    simp only [netLegs, bind_ok_iff] at h
    obtain ⟨l, hl, h⟩ := h
    exact ih (hI.setLine _ (netLine_fits hl)) h

lemma pay_fits (hI : BalancesFit s) {amount : ℕ} (h : pay s d c token amount = .ok s') :
    BalancesFit s' := by
  simp only [pay, bind_ok_iff, guard_ok_iff, exists_const] at h
  obtain ⟨-, -, l, -, h⟩ := h
  split at h <;> simp only [bind_ok_iff, fitI_ok_iff] at h <;>
    obtain ⟨balance, ⟨hfit, rfl⟩, h⟩ := h <;> split at h <;>
    simp only [bind_ok_iff, guard_ok_iff, exists_const, pure_ok_iff] at h
  · obtain ⟨debt, -, -, rfl⟩ := h
    exact hI.setLine _ (by rw [clearDemandIfCovered_balance]; exact hfit)
  · obtain rfl := h
    exact hI.setLine _ (by rw [clearDemandIfCovered_balance]; exact hfit)
  · obtain ⟨-, rfl⟩ := h
    exact hI.setLine _ (by rw [clearDemandIfCovered_balance]; exact hfit)
  · obtain rfl := h
    exact hI.setLine _ (by rw [clearDemandIfCovered_balance]; exact hfit)

lemma settle_fits (hI : BalancesFit s) {amount : ℕ} {transferred : Bool}
    (h : settle s d c token amount transferred = .ok s') : BalancesFit s' := by
  simp only [settle, bind_ok_iff, guard_ok_iff, exists_const, fitI_ok_iff, pure_ok_iff] at h
  obtain ⟨-, l, -, owed, -, -, balance, ⟨hfit, rfl⟩, -, rfl⟩ := h
  exact hI.setLine _ (by rw [clearDemandIfCovered_balance]; exact hfit)

lemma step_fits (hI : BalancesFit s) {call : Call} (h : step s call = .ok s') :
    BalancesFit s' := by
  cases call with
  | proposeLine sender counterparty token myLimit feeRate grace =>
    simp only [step, proposeLine, bind_ok_iff, guard_ok_iff, exists_const, pure_ok_iff] at h
    obtain ⟨-, -, -, rfl⟩ := h
    exact hI.setLine _ (by norm_num [Fits])
  | acceptLine sender proposer token myLimit =>
    simp only [step, acceptLine, bind_ok_iff, guard_ok_iff, exists_const, pure_ok_iff] at h
    obtain ⟨-, rfl⟩ := h
    refine hI.setLine _ ?_
    split <;> exact hI _
  | cancelProposal sender counterparty token =>
    simp only [step, cancelProposal, bind_ok_iff, guard_ok_iff, exists_const, pure_ok_iff] at h
    obtain ⟨-, rfl⟩ := h
    exact hI.setLine _ (hI (lineKey sender counterparty token))
  | rejectProposal sender proposer token =>
    simp only [step, rejectProposal, bind_ok_iff, guard_ok_iff, exists_const, pure_ok_iff] at h
    obtain ⟨-, rfl⟩ := h
    exact hI.setLine _ (hI (lineKey sender proposer token))
  | pay sender dst token amount => exact pay_fits hI h
  | netCycle token cycle =>
    simp only [step, netCycle, bind_ok_iff, guard_ok_iff, exists_const] at h
    obtain ⟨-, -, -, m, -, h⟩ := h
    exact netLegs_fits hI h
  | settle sender creditor token amount transferred => exact settle_fits hI h
  | demandSettlement sender debtor token =>
    simp only [step, demandSettlement, bind_ok_iff, guard_ok_iff, exists_const, pure_ok_iff] at h
    obtain ⟨-, l, hl, -, -, -, rfl⟩ := h
    have hfit := accrue_fits (hI _) hl
    exact hI.setLine _ hfit
  | markDefault sender debtor token =>
    simp only [step, markDefault, bind_ok_iff, guard_ok_iff, exists_const, pure_ok_iff] at h
    obtain ⟨-, -, l, hl, -, -, -, -, -, rfl⟩ := h
    have hfit := accrue_fits (hI _) hl
    exact hI.setLine _ hfit
  | closeLine sender counterparty token =>
    simp only [step, closeLine, bind_ok_iff, guard_ok_iff, exists_const, pure_ok_iff] at h
    obtain ⟨-, l, hl, -, rfl⟩ := h
    have hfit := accrue_fits (hI _) hl
    exact hI.setLine _ hfit
  | advance time =>
    simp only [step, bind_ok_iff, guard_ok_iff, exists_const, pure_ok_iff] at h
    obtain ⟨-, rfl⟩ := h
    exact hI

lemma run_fits (t₀ : BlockTime) (calls : List Call) :
    BalancesFit (machine.run (State.init t₀) calls) := by
  have h₀ : BalancesFit (State.init t₀) := fun _ => by norm_num [Fits, State.init, Line.empty]
  exact Machine.run_induction (M := machine) (fun _ _ _ hI h => step_fits hI h) h₀ calls

end Suwappu.MutualCredit
