import Suwappu.Primitives.AmortizingVault.Repayment

/-!
# What a liquidation takes

A liquidator pays part of the debt and seizes collateral worth the payment and a bonus, as far as
the collateral goes. What is then still owed without any collateral is written off.
-/

namespace Suwappu.AmortizingVault

open Checked Rounding

variable {v : Vault} {s s' s₁ s₂ : State} {id assets a r sh deadline : ℕ} {q q' : Quote}
  {burned received : Option ℕ} {paid : Bool}

/-- The conversions round down at the one rate of `total` assets for `supply` shares. -/
structure Quote.AtRate (q : Quote) (total supply : ℕ) : Prop where
  toAssets : ∀ shares, q.convertToAssets shares = shares * total / supply
  toShares : ∀ assets, q.convertToShares assets = assets * supply / total

/-- The value of the collateral that a payment of `r` earns. -/
def Vault.seizeValue (v : Vault) (r : ℕ) : ℕ := r + r * v.liqBonus / WAD

/-- Shares that a value buys are worth no more than it. -/
lemma Quote.AtRate.le_of_le_toShares {total supply value shares : ℕ} (hq : q.AtRate total supply)
    (h : shares ≤ q.convertToShares value) : q.convertToAssets shares ≤ value := by
  rw [hq.toShares] at h
  rw [hq.toAssets]
  have hmul : shares * total ≤ value * supply :=
    (Nat.mul_le_mul_right total h).trans (Nat.div_mul_le_self _ _)
  exact Nat.div_le_of_le_mul (by rwa [mul_comm supply])

/-! ### The seizure -/

lemma reduceDebt_position (h : reduceDebt v s id a = .ok s') (ha : a ≤ v.debtAt s id) :
    s'.positions id = { s.positions id with
        debtScaled := (s.positions id).debtScaled - v.scaledUp s a } ∧
      s'.shareBalance = s.shareBalance ∧ s'.now = s.now := by
  have hscaled := scaledUp_le ha
  simp only [reduceDebt, bind_ok_iff, subU_ok_iff, pure_ok_iff] at h
  obtain ⟨i, hi, scaled, hup, _, ⟨-, rfl⟩, rfl⟩ := h
  obtain rfl : scaled = v.scaledUp s a := by
    rw [mulDivUp_ok hup, index_ok hi, Vault.scaledUp]
  rw [if_neg (by omega)]
  exact ⟨setPosition_positions_self _ _ _, rfl, rfl⟩

/-- What a seizure leaves of the position, in any state. -/
lemma seize_position (h : seize v s id assets q burned q' = .ok (s₂, r, sh)) :
    ∃ s₁, amortizeDebt v s id q burned = .ok s₁ ∧ debtOf v s₁ id = .ok (v.debtAt s₁ id) ∧
      r ≤ v.debtAt s₁ id ∧
      sh = min (q'.convertToShares (v.seizeValue r)) (s₁.positions id).shares ∧
      (s₂.positions id).shares = (s₁.positions id).shares - sh ∧
      (s₂.positions id).debtScaled = (s₁.positions id).debtScaled - v.scaledUp s₁ r ∧
      s₂.shareBalance = s₁.shareBalance ∧ s₂.now = s₁.now := by
  simp only [seize, bind_ok_iff, guard_ok_iff, exists_const, mulU_ok_iff, addU_ok_iff, subU_ok_iff,
    pure_ok_iff, Prod.mk.injEq] at h
  obtain ⟨s₁, hamortize, d, hd, -, _, ⟨-, rfl⟩, _, ⟨-, rfl⟩, -, -, _, ⟨-, rfl⟩, _, ⟨-, rfl⟩,
    s₃, hreduce, _, ⟨-, rfl⟩, _, ⟨-, rfl⟩, baseline, -, rfl, hr, hsh⟩ := h
  obtain rfl := debtOf_ok hd
  have hcap : r ≤ v.debtAt s₁ id := by
    rw [← hr]
    split <;> omega
  rw [hr] at hreduce hsh
  obtain ⟨hpos, hbalance, hnow⟩ := reduceDebt_position hreduce hcap
  refine ⟨s₁, hamortize, hd, hcap, ?_, ?_, ?_, hbalance, hnow⟩
  · rw [← hsh, ← Vault.seizeValue]
    split <;> omega
  · change (Function.update s₃.positions id _ id).shares = _
    rw [Function.update_self, hpos, hr, hsh]
  · change (Function.update s₃.positions id _ id).debtScaled = _
    rw [Function.update_self, hpos]

/-- The debt after a payment is no more than the debt less the payment. -/
lemma debtAt_sub_le (h : (s₂.positions id).debtScaled = (s₁.positions id).debtScaled
    - v.scaledUp s₁ r) (hnow : s₂.now = s₁.now) : v.debtAt s₂ id ≤ v.debtAt s₁ id - r := by
  rw [Vault.debtAt, Vault.indexAt_congr hnow, h]
  exact sub_ceilDiv_mul_div_le _ _ (v.indexAt_pos s₁)

lemma writeOff_position (h : writeOff v s id = .ok s') :
    s'.shareBalance = s.shareBalance ∧ (s'.positions id).shares = (s.positions id).shares ∧
      ((s'.positions id).debtScaled ≠ (s.positions id).debtScaled →
        (s'.positions id).debtScaled = 0 ∧ (s.positions id).shares = 0 ∧
          debtOf v s id = .ok (v.debtAt s id)) := by
  unfold writeOff at h
  dsimp only at h
  split at h
  · rename_i hgone
    simp only [bind_ok_iff, pure_ok_iff] at h
    obtain ⟨d, hd, rfl⟩ := h
    obtain rfl := debtOf_ok hd
    refine ⟨rfl, ?_, fun _ => ⟨?_, hgone.1, hd⟩⟩ <;>
      dsimp only <;> rw [setPosition_positions_self]
  · rw [pure_ok_iff] at h
    subst h
    exact ⟨rfl, rfl, fun hne => absurd rfl hne⟩

/-! ### The bounds -/

/-- A liquidation that pays `r` seizes shares worth at most `r` and the bonus. Debt is written off
only when all of the collateral is worth no more than that, and no more than the debt less `r`. -/
theorem liquidate_bounds (v : Vault) (s s' : State) (id repayAssets deadline : ℕ) (q q' : Quote)
    (burned received : Option ℕ) (paid : Bool) {total supply : ℕ} (hq : q'.AtRate total supply)
    (h : liquidate v s id repayAssets deadline q burned q' received paid = .ok s') :
    ∃ s₁ s₂ r sh d, amortizeDebt v s id q burned = .ok s₁ ∧ debtOf v s₁ id = .ok d ∧
      seize v s id repayAssets q burned q' = .ok (s₂, r, sh) ∧ received = some r ∧
      (s'.positions id).shares + sh = (s₁.positions id).shares ∧
      s'.shareBalance + sh = s₁.shareBalance ∧
      q'.convertToAssets sh ≤ v.seizeValue r ∧
      ((s'.positions id).debtScaled ≠ (s₂.positions id).debtScaled →
        (s'.positions id).debtScaled = 0 ∧
        q'.convertToAssets (s₁.positions id).shares ≤ v.seizeValue r ∧
        ∃ writeoff, debtOf v s₂ id = .ok writeoff ∧ writeoff ≤ d - r) := by
  simp only [liquidate, bind_ok_iff, guard_ok_iff, exists_const, push_ok_iff, pullExact_ok_iff,
    pure_ok_iff] at h
  obtain ⟨-, ⟨s₂, r, sh⟩, hseize, s₃, hwrite, hreceived, _, ⟨⟨-, hbal⟩, rfl⟩, rfl⟩ := h
  dsimp only at hwrite hreceived hbal
  obtain ⟨s₁, hamortize, hd, -, hsh, hshares, hscaled, hbalance, hnow⟩ := seize_position hseize
  obtain ⟨hbalance', hshares', hwritten⟩ := writeOff_position hwrite
  have hle : sh ≤ q'.convertToShares (v.seizeValue r) := hsh ▸ Nat.min_le_left _ _
  have hcap : sh ≤ (s₁.positions id).shares := hsh ▸ Nat.min_le_right _ _
  refine ⟨s₁, s₂, r, sh, _, hamortize, hd, hseize, hreceived, ?_, ?_, hq.le_of_le_toShares hle,
    fun hne => ?_⟩
  · dsimp only
    omega
  · dsimp only
    omega
  · obtain ⟨hzero, hgone, hoff⟩ := hwritten hne
    have hall : (s₁.positions id).shares = sh := by omega
    refine ⟨hzero, ?_, _, hoff, debtAt_sub_le hscaled hnow⟩
    rw [hall]
    exact hq.le_of_le_toShares hle

/-- Collateral of 110 shares, worth 2 each, for a debt of 105. -/
def leveraged : State := (machine lending).run (State.init lending)
  [.op (.supply 1 1000 (some 1000)), .op (.openPosition 2 110 105 0 (priced 2) (some 110) true)]

lemma priced_one_atRate : (priced 1).AtRate 1 1 where
  toAssets _ := (Nat.div_one _).symm
  toShares assets := congrArg (· / 1) (Nat.mul_one assets).symm

/-- At a price of 1, a payment of 104 and its bonus would earn more than all of the collateral. -/
theorem liquidate_bounds_leveraged : ∃ s₂ r sh,
    seize lending leveraged 0 104 (priced 1) none (priced 1) = .ok (s₂, r, sh) ∧ some 104 = some r ∧
      (priced 1).convertToAssets sh ≤ lending.seizeValue r := by
  obtain ⟨s', hs', -⟩ : ∃ s', liquidate lending leveraged 0 104 0 (priced 1) none (priced 1)
      (some 104) true = .ok s' ∧ (s'.positions 0).debtScaled = 0 :=
    exists_ok_of_map (by decide +kernel)
  obtain ⟨-, s₂, r, sh, -, -, -, hseize, hr, -, -, hvalue, -⟩ :=
    liquidate_bounds lending leveraged s' 0 104 0 _ _ none _ true priced_one_atRate hs'
  exact ⟨s₂, r, sh, hseize, hr, hvalue⟩

/-- At a price of 1, the collateral covers a payment of 100 and the bonus of 10 to the unit, and
the 5 that remain are written off all the same. -/
theorem written_off_though_covered : ¬ ∀ s₁ s₂ s' r sh,
    amortizeDebt lending leveraged 0 (priced 1) none = .ok s₁ →
    seize lending leveraged 0 100 (priced 1) none (priced 1) = .ok (s₂, r, sh) →
    liquidate lending leveraged 0 100 0 (priced 1) none (priced 1) (some 100) true = .ok s' →
    (s'.positions 0).debtScaled ≠ (s₂.positions 0).debtScaled →
      (priced 1).convertToAssets (s₁.positions 0).shares < lending.seizeValue r := by
  intro h
  obtain ⟨s₁, hs₁, hshares⟩ : ∃ s₁, amortizeDebt lending leveraged 0 (priced 1) none = .ok s₁ ∧
      (s₁.positions 0).shares = 110 := exists_ok_of_map (by decide +kernel)
  obtain ⟨⟨s₂, r, sh⟩, hs₂, hr⟩ : ∃ out, seize lending leveraged 0 100 (priced 1) none (priced 1)
      = .ok out ∧ ((out.1.positions 0).debtScaled, out.2.1) = (5, 100) :=
    exists_ok_of_map (by decide +kernel)
  obtain ⟨s', hs', hzero⟩ : ∃ s', liquidate lending leveraged 0 100 0 (priced 1) none (priced 1)
      (some 100) true = .ok s' ∧ (s'.positions 0).debtScaled = 0 :=
    exists_ok_of_map (by decide +kernel)
  obtain ⟨hleft, rfl⟩ := Prod.mk.inj hr
  have hlt := h s₁ s₂ s' _ sh hs₁ hs₂ hs' (by rw [hzero]; exact fun e => by simp [← e] at hleft)
  rw [hshares] at hlt
  revert hlt
  decide +kernel

end Suwappu.AmortizingVault
