import Suwappu.Primitives.AmortizingVault.Ledger

/-!
# Debt without collateral

Collateral leaves a position on three paths. The owner cannot withdraw the last share of a debt,
and a liquidation writes the rest of the debt off with the last share; `amortize` alone can burn
the last share and leave the rest of the debt where it is.
-/

namespace Suwappu.AmortizingVault

open Checked

variable {v : Vault} {s s' : State} {id : ℕ} {q q' : Quote} {burned received : Option ℕ}
  {paid : Bool}

/-- A position without collateral owes nothing. -/
def NoPhantom (s : State) : Prop :=
  ∀ id, (s.positions id).shares = 0 → (s.positions id).debtScaled = 0

/-- Taking the yield burns the last collateral share while part of the debt stays. -/
def Exhausts (v : Vault) (s : State) (id : ℕ) (q : Quote) (burned : Option ℕ) : Prop :=
  v.yieldAt s id q ≠ 0 ∧ burned = some (s.positions id).shares ∧
    v.scaledUp s (v.yieldAt s id q) < (s.positions id).debtScaled

instance : Decidable (Exhausts v s id q burned) := by
  unfold Exhausts
  infer_instance

/-- The condition on a call: it is no `amortize` that burns the last share of a debt. -/
def KeepsCollateral (v : Vault) (s : State) : Call → Prop
  | .op (.amortize id q burned) => ¬ Exhausts v s id q burned
  | _                           => True

/-! ### One position at a time -/

/-- Nobody but position `id` may owe without collateral. -/
def NoPhantomBut (id : ℕ) (s : State) : Prop :=
  ∀ id' ≠ id, (s.positions id').shares = 0 → (s.positions id').debtScaled = 0

lemma NoPhantomBut.update (hI : NoPhantomBut id s) {p : Position}
    (hpos : s'.positions = Function.update s.positions id p)
    (hp : p.shares = 0 → p.debtScaled = 0) : NoPhantom s' := by
  intro id'
  rw [hpos]
  by_cases h : id' = id
  · subst h
    rwa [Function.update_self]
  · rw [Function.update_of_ne h]
    exact hI id' h

lemma NoPhantom.but (hI : NoPhantom s) (id : ℕ) : NoPhantomBut id s := fun id' _ => hI id'

lemma NoPhantom.amortizeBut (hI : NoPhantom s) (hL : Ledger s)
    (h : amortizeDebt v s id q burned = .ok s') : NoPhantomBut id s' := by
  rcases amortizeDebt_ok (hL.debt_le id) h with ⟨-, rfl⟩ | ⟨-, b, -, -, -, rfl⟩
  · exact hI.but id
  · intro id' hne
    rw [State.amortized, put_positions_of_ne s _ _ _ _ _ hne]
    exact hI id'

lemma NoPhantom.amortize (hI : NoPhantom s) (hL : Ledger s) (hC : ¬ Exhausts v s id q burned)
    (h : amortizeDebt v s id q burned = .ok s') : NoPhantom s' := by
  rcases amortizeDebt_ok (hL.debt_le id) h with ⟨-, rfl⟩ | ⟨hne, b, hb, hle, -, rfl⟩
  · exact hI
  · refine (hI.but id).update rfl fun hzero => ?_
    dsimp only at hzero ⊢
    have hlast : b = (s.positions id).shares := by omega
    subst hlast
    have hcleared : ¬ v.scaledUp s (v.yieldAt s id q) < (s.positions id).debtScaled :=
      fun hlt => hC ⟨hne, hb, hlt⟩
    omega

lemma NoPhantom.withdrawCollateral (hI : NoPhantom s) (hL : Ledger s) {sender : Address}
    {shares deadline : ℕ}
    (h : withdrawCollateral v s sender id shares deadline q burned q' paid = .ok s') :
    NoPhantom s' := by
  obtain ⟨-, -, s₁, baseline, hamortize, -, -, hltv, rfl⟩ := withdrawCollateral_ok h
  refine (hI.amortizeBut hL hamortize).update rfl fun hzero => ?_
  dsimp only at hzero ⊢
  -- worthless collateral backs no debt at all
  rw [← debtAt_eq_zero (v := v)]
  by_contra hne
  have hbacked := hltv hne
  rw [hzero, q'.convertToAssets_zero, zero_mul, Nat.le_zero, mul_eq_zero] at hbacked
  exact hbacked.elim hne WAD_pos.ne'

lemma NoPhantom.liquidate (hI : NoPhantom s) (hL : Ledger s) {repayAssets deadline : ℕ}
    (h : liquidate v s id repayAssets deadline q burned q' received paid = .ok s') :
    NoPhantom s' := by
  obtain ⟨s₁, -, a, sh, baseline, hamortize, -, -, -, -, -, -, -, rfl⟩ :=
    liquidate_ok (hL.debt_le id) h
  refine (hI.amortizeBut hL hamortize).update rfl fun hzero => ?_
  dsimp only at hzero ⊢
  rw [writtenOff, if_pos hzero, Nat.sub_self]

lemma NoPhantom.apply (hI : NoPhantom s) (hL : Ledger s) {op : Op}
    (hC : KeepsCollateral v s (.op op)) (h : apply v s op = .ok s') : NoPhantom s' := by
  cases op with
  | supply sender assets received =>
    obtain ⟨shares, -, rfl⟩ := supply_ok h
    exact hI
  | withdraw sender shares paid =>
    obtain ⟨assets, -, -, -, -, -, rfl⟩ := withdraw_ok h
    exact hI
  | openPosition sender shares borrow deadline q received paid =>
    obtain ⟨hshares, -, scaled, rest, -, -, rfl⟩ := openPosition_ok h
    exact (hI.but _).update rfl fun hzero => absurd hzero hshares
  | addCollateral id shares q received =>
    obtain ⟨hshares, -, rfl⟩ := addCollateral_ok h
    exact (hI.but _).update rfl fun hzero => absurd hzero (by dsimp only; omega)
  | amortize id q burned => exact hI.amortize hL hC h
  | repay id assets received =>
    obtain ⟨a, -, -, rfl⟩ := repay_ok (hL.debt_le id) h
    refine (hI.but _).update rfl fun hzero => ?_
    have hdebt := hI id hzero
    dsimp only
    omega
  | withdrawCollateral sender id shares deadline q burned q' paid =>
    exact hI.withdrawCollateral hL h
  | liquidate id repayAssets deadline q burned q' received paid => exact hI.liquidate hL h

lemma NoPhantom.step (hI : NoPhantom s) (hL : Ledger s) {call : Call}
    (hC : KeepsCollateral v s call) (h : step v s call = .ok s') : NoPhantom s' := by
  cases call with
  | op => exact hI.apply hL hC h
  | donateAssets amount =>
    simp only [AmortizingVault.step, pure_ok_iff] at h
    exact h ▸ hI
  | donateShares amount =>
    simp only [AmortizingVault.step, pure_ok_iff] at h
    exact h ▸ hI
  | advance time =>
    simp only [AmortizingVault.step, bind_ok_iff, guard_ok_iff, exists_const, pure_ok_iff] at h
    obtain ⟨-, rfl⟩ := h
    exact hI

/-! ### Runs -/

/-- In every run without an `amortize` that burns the last share of a debt, no position owes
without collateral. -/
theorem noPhantom_of_keepsCollateral (v : Vault) (calls : List Call)
    (h : (machine v).Along (KeepsCollateral v) (State.init v) calls) :
    NoPhantom ((machine v).run (State.init v) calls) := by
  have hstep : ∀ (s : State) (call : Call) (s' : State), (Ledger s ∧ NoPhantom s) →
      KeepsCollateral v s call → step v s call = .ok s' → Ledger s' ∧ NoPhantom s' :=
    fun s call s' hs hC h => ⟨hs.1.step h, hs.2.step hs.1 hC h⟩
  exact (Machine.run_induction_along (M := machine v) hstep calls
    ⟨ledger_init v, fun _ _ => rfl⟩ h).2

/-- A vault without interest that lends up to half of the collateral. -/
def halfLtv : Vault where
  borrowRate := 0
  maxLtv := 500000000000000000
  liqLtv := 900000000000000000
  liqBonus := 0
  startTime := 0
  maxLtv_pos := by norm_num
  maxLtv_lt := by norm_num
  liqLtv_lt := by decide
  borrowRate_le := by norm_num
  liqBonus_le := by norm_num

/-- One share worth 1000 backs a debt of 500. -/
def oneShare : List Call :=
  [.op (.supply 1 1000 (some 1000)), .op (.openPosition 2 1 500 0 (priced 1000) (some 1) true)]

/-- Its price rises to 1001. The yield of one asset burns the whole share. -/
theorem amortize_leaves_phantom : ¬ NoPhantom ((machine halfLtv).run (State.init halfLtv)
    (oneShare ++ [.op (.amortize 0 (priced 1001) (some 1))])) := by
  intro h
  have hdebt := h 0 (by decide +kernel)
  revert hdebt
  decide +kernel

/-- At 1500 the yield is the whole debt, and burning the share for it leaves nothing owed. -/
theorem noPhantom_of_keepsCollateral_cleared : NoPhantom ((machine halfLtv).run
    (State.init halfLtv) (oneShare ++ [.op (.amortize 0 (priced 1500) (some 1))])) :=
  noPhantom_of_keepsCollateral halfLtv _
    ⟨trivial, trivial, show ¬ Exhausts _ _ _ _ _ by decide +kernel, trivial⟩

end Suwappu.AmortizingVault
