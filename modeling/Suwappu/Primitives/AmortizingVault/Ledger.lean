import Suwappu.Lib.Totals
import Suwappu.Primitives.AmortizingVault.Effects

/-!
# The ledger

Positions and lenders add up to the totals, the contract holds the cash and the collateral it has
on its books, and the two saturating subtractions never saturate.
-/

namespace Suwappu.AmortizingVault

open Checked Totals

variable {v : Vault} {s s' : State} {id : ℕ} {q q' : Quote} {burned received : Option ℕ}
  {paid : Bool}

structure Ledger (s : State) : Prop where
  unopened : ∀ id, s.nextPositionId ≤ id → s.positions id = Position.empty
  debts : ∑ id ∈ Finset.range s.nextPositionId, (s.positions id).debtScaled = s.totalDebtScaled
  lenders : ∑ a, s.lendShares a = s.totalLendShares
  cash : s.totalCash ≤ s.assetBalance
  collateral : ∑ id ∈ Finset.range s.nextPositionId, (s.positions id).shares ≤ s.shareBalance
  unclamped : s.clamped = false

lemma ledger_init (v : Vault) : Ledger (State.init v) where
  unopened _ _ := rfl
  debts := rfl
  lenders := Finset.sum_const_zero
  cash := le_rfl
  collateral := le_rfl
  unclamped := rfl

namespace Ledger

lemma lt_next (hI : Ledger s) (h : s.positions id ≠ Position.empty) : id < s.nextPositionId := by
  by_contra hle
  exact h (hI.unopened id (by omega))

lemma lt_next_of_shares (hI : Ledger s) (h : (s.positions id).shares ≠ 0) :
    id < s.nextPositionId :=
  hI.lt_next fun e => h (by rw [e]; rfl)

lemma lt_next_of_debt (hI : Ledger s) (h : (s.positions id).debtScaled ≠ 0) :
    id < s.nextPositionId :=
  hI.lt_next fun e => h (by rw [e]; rfl)

lemma lt_next_of_owner (hI : Ledger s) (h : (s.positions id).owner ≠ Address.zero) :
    id < s.nextPositionId :=
  hI.lt_next fun e => h (by rw [e]; rfl)

/-- No position owes more than the total, so taking its debt off the total never saturates. -/
lemma debt_le (hI : Ledger s) (id : ℕ) : (s.positions id).debtScaled ≤ s.totalDebtScaled := by
  by_cases hid : id < s.nextPositionId
  · rw [← hI.debts]
    exact Finset.single_le_sum (f := fun id => (s.positions id).debtScaled)
      (fun _ _ => Nat.zero_le _) (Finset.mem_range.mpr hid)
  · rw [hI.unopened id (by omega)]
    exact Nat.zero_le _

/-- Giving an open position new values keeps the ledger when every book moves with its total. -/
lemma put (hI : Ledger s) (hid : id < s.nextPositionId) {p : Position}
    {total cash assets shares : ℕ}
    (hdebt : total + (s.positions id).debtScaled = s.totalDebtScaled + p.debtScaled)
    (hcash : cash + s.assetBalance ≤ assets + s.totalCash)
    (hshares : s.shareBalance + p.shares ≤ shares + (s.positions id).shares) :
    Ledger (s.put id p total cash assets shares) where
  unopened id' h := by
    rw [put_nextPositionId] at h
    rw [put_positions_of_ne s p _ _ _ _ (by omega)]
    exact hI.unopened id' h
  debts := by
    have hsum := sum_update_add (Finset.mem_range.mpr hid) s.positions p Position.debtScaled
    have hdebts := hI.debts
    change ∑ j ∈ Finset.range s.nextPositionId, (Function.update s.positions id p j).debtScaled
      = total
    omega
  lenders := hI.lenders
  cash := by
    have := hI.cash
    change cash ≤ assets
    omega
  collateral := by
    have hsum := sum_update_add (Finset.mem_range.mpr hid) s.positions p Position.shares
    have hcollateral := hI.collateral
    change ∑ j ∈ Finset.range s.nextPositionId, (Function.update s.positions id p j).shares
      ≤ shares
    omega
  unclamped := hI.unclamped

lemma amortizeDebt (hI : Ledger s) (h : amortizeDebt v s id q burned = .ok s') : Ledger s' := by
  rcases amortizeDebt_ok (hI.debt_le id) h with ⟨-, rfl⟩ | ⟨hne, b, -, hb, hbal, rfl⟩
  · exact hI
  · have hid : id < s.nextPositionId :=
      hI.lt_next_of_shares (shares_pos_of_yieldAt hne).ne'
    have hscaled := scaledUp_le (yieldAt_le v s id q)
    have htotal := hI.debt_le id
    exact hI.put hid (by dsimp only; omega) (by omega) (by dsimp only; omega)

lemma supply (hI : Ledger s) {sender : Address} {assets : ℕ}
    (h : supply v s sender assets received = .ok s') : Ledger s' := by
  obtain ⟨shares, -, rfl⟩ := supply_ok h
  have hsum := sum_update_add (Finset.mem_univ sender) s.lendShares (s.lendShares sender + shares)
    (fun n => n)
  have hlenders := hI.lenders
  have hcash := hI.cash
  refine ⟨hI.unopened, hI.debts, ?_, ?_, hI.collateral, hI.unclamped⟩
  · dsimp only
    omega
  · dsimp only
    omega

lemma withdraw (hI : Ledger s) {sender : Address} {shares : ℕ}
    (h : withdraw v s sender shares paid = .ok s') : Ledger s' := by
  obtain ⟨assets, -, hbal, htotal, hcash, hassets, rfl⟩ := withdraw_ok h
  have hsum := sum_update_add (Finset.mem_univ sender) s.lendShares (s.lendShares sender - shares)
    (fun n => n)
  have hlenders := hI.lenders
  have hbooked := hI.cash
  refine ⟨hI.unopened, hI.debts, ?_, ?_, hI.collateral, hI.unclamped⟩
  · dsimp only
    omega
  · dsimp only
    omega

lemma openPosition (hI : Ledger s) {sender : Address} {shares borrow deadline : ℕ}
    (h : openPosition v s sender shares borrow deadline q received paid = .ok s') :
    Ledger s' := by
  obtain ⟨-, hborrow, scaled, rest, -, hrest, rfl⟩ := openPosition_ok h
  have hfresh : s.nextPositionId ∉ Finset.range s.nextPositionId := by simp
  have hcash := hI.cash
  have hcollateral := hI.collateral
  refine ⟨fun id hid => ?_, ?_, hI.lenders, ?_, ?_, hI.unclamped⟩
  · dsimp only at hid
    dsimp only
    rw [put_positions_of_ne s _ _ _ _ _ (by omega)]
    exact hI.unopened id (by omega)
  · dsimp only
    rw [Finset.sum_range_succ, put_positions_self]
    change ∑ j ∈ Finset.range s.nextPositionId,
      (Function.update s.positions s.nextPositionId _ j).debtScaled + scaled
        = s.totalDebtScaled + scaled
    rw [sum_update_of_notMem hfresh s.positions _ Position.debtScaled, hI.debts]
  · change s.totalCash - borrow ≤ rest
    omega
  · dsimp only
    rw [Finset.sum_range_succ, put_positions_self]
    change ∑ j ∈ Finset.range s.nextPositionId,
      (Function.update s.positions s.nextPositionId _ j).shares + shares ≤ s.shareBalance + shares
    rw [sum_update_of_notMem hfresh s.positions _ Position.shares]
    omega

lemma addCollateral (hI : Ledger s) {shares : ℕ}
    (h : addCollateral s id shares q received = .ok s') : Ledger s' := by
  obtain ⟨-, howner, rfl⟩ := addCollateral_ok h
  exact hI.put (hI.lt_next_of_owner howner) rfl (by omega) (by dsimp only; omega)

lemma repay (hI : Ledger s) {assets : ℕ} (h : repay v s id assets received = .ok s') :
    Ledger s' := by
  obtain ⟨a, ha, hdebt, rfl⟩ := repay_ok (hI.debt_le id) h
  have hid : id < s.nextPositionId :=
    hI.lt_next_of_debt fun e => hdebt (debtAt_eq_zero.mpr e)
  have hscaled : v.scaledUp s a ≤ (s.positions id).debtScaled :=
    scaledUp_le (ha ▸ Nat.min_le_right _ _)
  have htotal := hI.debt_le id
  exact hI.put hid (by dsimp only; omega) (by omega) le_rfl

lemma reclaimed (hI : Ledger s) {sh baseline : ℕ} (hsh : sh ≤ (s.positions id).shares)
    (hbal : sh ≤ s.shareBalance) (hne : (s.positions id).shares ≠ 0) :
    Ledger (s.reclaimed id sh baseline) :=
  hI.put (hI.lt_next_of_shares hne) rfl (by omega) (by dsimp only; omega)

lemma withdrawCollateral (hI : Ledger s) {sender : Address} {shares deadline : ℕ}
    (h : withdrawCollateral v s sender id shares deadline q burned q' paid = .ok s') :
    Ledger s' := by
  obtain ⟨hne, -, s₁, baseline, hamortize, hle, hbal, -, rfl⟩ := withdrawCollateral_ok h
  exact (hI.amortizeDebt hamortize).reclaimed hle hbal (by omega)

lemma liquidate (hI : Ledger s) {repayAssets deadline : ℕ}
    (h : liquidate v s id repayAssets deadline q burned q' received paid = .ok s') :
    Ledger s' := by
  obtain ⟨s₁, -, a, sh, baseline, hamortize, -, -, -, ha, hne, hsh, hbal, rfl⟩ :=
    liquidate_ok (hI.debt_le id) h
  have hI₁ := hI.amortizeDebt hamortize
  have hdebt : v.debtAt s₁ id ≠ 0 := by omega
  have hid : id < s₁.nextPositionId :=
    hI₁.lt_next_of_debt fun e => hdebt (debtAt_eq_zero.mpr e)
  have hscaled : v.scaledUp s₁ a ≤ (s₁.positions id).debtScaled :=
    scaledUp_le (ha ▸ Nat.min_le_right _ _)
  have htotal := hI₁.debt_le id
  have hgone : writtenOff ((s₁.positions id).shares - sh)
      ((s₁.positions id).debtScaled - v.scaledUp s₁ a)
        ≤ (s₁.positions id).debtScaled - v.scaledUp s₁ a := by
    unfold writtenOff
    split <;> omega
  exact hI₁.put hid (by dsimp only; omega) (by omega) (by dsimp only; omega)

lemma apply (hI : Ledger s) {op : Op} (h : apply v s op = .ok s') : Ledger s' := by
  cases op with
  | supply => exact hI.supply h
  | withdraw => exact hI.withdraw h
  | openPosition => exact hI.openPosition h
  | addCollateral => exact hI.addCollateral h
  | amortize => exact hI.amortizeDebt h
  | repay => exact hI.repay h
  | withdrawCollateral => exact hI.withdrawCollateral h
  | liquidate => exact hI.liquidate h

lemma step (hI : Ledger s) {call : Call} (h : step v s call = .ok s') : Ledger s' := by
  cases call with
  | op => exact hI.apply h
  | donateAssets amount =>
    simp only [AmortizingVault.step, pure_ok_iff] at h
    subst h
    exact ⟨hI.unopened, hI.debts, hI.lenders, hI.cash.trans (Nat.le_add_right _ _), hI.collateral,
      hI.unclamped⟩
  | donateShares amount =>
    simp only [AmortizingVault.step, pure_ok_iff] at h
    subst h
    exact ⟨hI.unopened, hI.debts, hI.lenders, hI.cash, hI.collateral.trans (Nat.le_add_right _ _),
      hI.unclamped⟩
  | advance time =>
    simp only [AmortizingVault.step, bind_ok_iff, guard_ok_iff, exists_const, pure_ok_iff] at h
    obtain ⟨-, rfl⟩ := h
    exact ⟨hI.unopened, hI.debts, hI.lenders, hI.cash, hI.collateral, hI.unclamped⟩

end Ledger

lemma run_ledger (v : Vault) (calls : List Call) :
    Ledger ((machine v).run (State.init v) calls) :=
  Machine.run_induction (M := machine v) (fun _ _ _ hI h => hI.step h) (ledger_init v) calls

/-! ### Without donations -/

/-- The assets a call brings in outside of the protocol. -/
def Call.donated : Call → ℕ
  | .donateAssets amount => amount
  | _                    => 0

lemma amortizeDebt_cash (hI : Ledger s) (h : amortizeDebt v s id q burned = .ok s') :
    s'.assetBalance + s.totalCash = s.assetBalance + s'.totalCash := by
  rcases amortizeDebt_ok (hI.debt_le id) h with ⟨-, rfl⟩ | ⟨-, b, -, -, -, rfl⟩
  · rfl
  · simp only [State.amortized, State.put]
    omega

/-- An operation moves the asset balance and the books by the same amount. -/
lemma apply_cash (hI : Ledger s) {op : Op} (h : apply v s op = .ok s') :
    s'.assetBalance + s.totalCash = s.assetBalance + s'.totalCash := by
  cases op with
  | supply sender assets received =>
    obtain ⟨shares, -, rfl⟩ := supply_ok h
    dsimp only
    omega
  | withdraw sender shares paid =>
    obtain ⟨assets, -, -, -, hcash, hassets, rfl⟩ := withdraw_ok h
    dsimp only
    omega
  | openPosition sender shares borrow deadline q received paid =>
    obtain ⟨-, hborrow, scaled, rest, -, hrest, rfl⟩ := openPosition_ok h
    simp only [State.put]
    omega
  | addCollateral id shares q received =>
    obtain ⟨-, -, rfl⟩ := addCollateral_ok h
    rfl
  | amortize id q burned => exact amortizeDebt_cash hI h
  | repay id assets received =>
    obtain ⟨a, -, -, rfl⟩ := repay_ok (hI.debt_le id) h
    simp only [State.put]
    omega
  | withdrawCollateral sender id shares deadline q burned q' paid =>
    obtain ⟨-, -, s₁, baseline, hamortize, -, -, -, rfl⟩ := withdrawCollateral_ok h
    have hcash := amortizeDebt_cash hI hamortize
    exact hcash
  | liquidate id repayAssets deadline q burned q' received paid =>
    obtain ⟨s₁, -, a, sh, baseline, hamortize, -, -, -, -, -, -, -, rfl⟩ :=
      liquidate_ok (hI.debt_le id) h
    have hcash := amortizeDebt_cash hI hamortize
    simp only [State.liquidated, State.put]
    omega

lemma step_cash (hI : Ledger s) {call : Call} (h : step v s call = .ok s') :
    s'.assetBalance + s.totalCash = s.assetBalance + s'.totalCash + call.donated := by
  cases call with
  | op => exact apply_cash hI h
  | donateAssets amount =>
    simp only [step, pure_ok_iff] at h
    subst h
    simp only [Call.donated]
    omega
  | donateShares amount =>
    simp only [step, pure_ok_iff] at h
    subst h
    rfl
  | advance time =>
    simp only [step, bind_ok_iff, guard_ok_iff, exists_const, pure_ok_iff] at h
    obtain ⟨-, rfl⟩ := h
    rfl

/-- Every reachable state balances, no debt exceeds the total, and without donations the asset
balance is exactly the cash on the books. -/
theorem ledger_balances (v : Vault) (calls : List Call) :
    let s := (machine v).run (State.init v) calls
    Ledger s ∧ (∀ id, (s.positions id).debtScaled ≤ s.totalDebtScaled) ∧
      ((∀ call ∈ calls, call.donated = 0) → s.assetBalance = s.totalCash) := by
  intro s
  have hI : Ledger s := run_ledger v calls
  refine ⟨hI, hI.debt_le, fun hdonated => ?_⟩
  have hstep : ∀ (s : State) (call : Call) (s' : State),
      (Ledger s ∧ s.assetBalance = s.totalCash) → call.donated = 0 → step v s call = .ok s' →
        Ledger s' ∧ s'.assetBalance = s'.totalCash := by
    intro s call s' hs hcall h
    have hcash := step_cash hs.1 h
    exact ⟨hs.1.step h, by omega⟩
  exact (Machine.run_induction_along (M := machine v) hstep calls ⟨ledger_init v, rfl⟩
    (Machine.along_of_forall hdonated)).2

end Suwappu.AmortizingVault
