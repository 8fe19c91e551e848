import Suwappu.Lib.Totals
import Suwappu.Staking.Basic

/-!
# Stakes and bonuses are covered

The SUWP of the contract covers every stake and every bonus, so each of them can be withdrawn by
whoever is entitled to it. `Solvent` is what every call keeps, of the contract or of the token.
-/

namespace Suwappu.Staking

open Checked Erc20

variable {C : Contracts} {env : Env} {s s' : State} {amount total : ℕ}

/-- The books agree with each other and with the token. -/
structure Solvent (C : Contracts) (s : State) : Prop where
  unapproving : s.suwp.Unapproving C.self
  staked : ∑ a, s.staking.stakedBalance a = s.staking.totalStaked
  pending : ∑ a, s.staking.claimableSuwpBonus a = s.staking.totalPendingBonuses
  covered : s.staking.totalStaked + s.staking.totalPendingBonuses ≤ s.suwp.balanceOf C.self

lemma Solvent.of_init (C : Contracts) (owner : Address) : Solvent C (.init owner) where
  unapproving _ := rfl
  staked := Finset.sum_const_zero
  pending := Finset.sum_const_zero
  covered := le_rfl

/-! ### Batches -/

lemma sumAmounts_ok {amounts : List ℕ} {start : ℕ} (h : sumAmounts amounts start = .ok total) :
    total = start + amounts.sum := by
  induction amounts generalizing start with
  | nil =>
    cases h
    rw [List.sum_nil, Nat.add_zero]
  | cons amount amounts ih =>
    simp only [sumAmounts, bind_ok_iff, addU_ok_iff] at h
    obtain ⟨_, ⟨-, rfl⟩, h⟩ := h
    rw [ih h, List.sum_cons, Nat.add_assoc]

/-- A batch adds its amounts to the bonuses, however often it names a staker. -/
lemma creditBonuses_ok {batch : List (Address × ℕ)} {claimable claimable' : Address → ℕ}
    (h : creditBonuses batch claimable = .ok claimable') :
    ∑ a, claimable' a = ∑ a, claimable a + (batch.map Prod.snd).sum := by
  induction batch generalizing claimable with
  | nil =>
    cases h
    rw [List.map_nil, List.sum_nil, Nat.add_zero]
  | cons entry batch ih =>
    simp only [creditBonuses, bind_ok_iff, addU_ok_iff] at h
    obtain ⟨_, ⟨-, rfl⟩, h⟩ := h
    have hsum := Totals.sum_update claimable entry.1 (claimable entry.1 + entry.2)
    rw [ih h, List.map_cons, List.sum_cons]
    omega

/-! ### Calls -/

lemma stake_solvent (hS : Solvent C s) (h : stake C env s amount = .ok s') : Solvent C s' := by
  simp only [stake, bind_ok_iff, guard_ok_iff, exists_const, suwpCall_ok_iff, addU_ok_iff,
    pure_ok_iff] at h
  obtain ⟨-, -, suwp, hpull, _, ⟨-, rfl⟩, _, ⟨-, rfl⟩, -, -, rfl⟩ := h
  obtain ⟨hun, hbalance⟩ := Token.transferFrom_of_unapproving hS.unapproving hpull
  have hsum := Totals.sum_update s.staking.stakedBalance env.sender
    (s.staking.stakedBalance env.sender + amount)
  have hstaked := hS.staked
  have hcovered := hS.covered
  exact {
    unapproving := hun
    staked := by dsimp only; omega
    pending := hS.pending
    covered := by dsimp only; omega }

/-- What leaves the books leaves the contract. -/
lemma Solvent.withdraw {staking : Storage} {suwp : Token Address} {dst : Address}
    (hS : Solvent C s) (hpay : s.suwp.transfer C.self dst amount = .ok suwp)
    (hstaked : ∑ a, staking.stakedBalance a = staking.totalStaked)
    (hpending : ∑ a, staking.claimableSuwpBonus a = staking.totalPendingBonuses)
    (hless : staking.totalStaked + staking.totalPendingBonuses + amount =
      s.staking.totalStaked + s.staking.totalPendingBonuses) : Solvent C ⟨staking, suwp⟩ := by
  obtain ⟨hun, hbalance⟩ := Token.transfer_of_unapproving hS.unapproving hpay
  have hcovered := hS.covered
  exact ⟨hun, hstaked, hpending, by dsimp only; omega⟩

lemma unstake_solvent (hS : Solvent C s) (h : unstake C env s amount = .ok s') :
    Solvent C s' := by
  simp only [unstake, bind_ok_iff, guard_ok_iff, exists_const, suwpCall_ok_iff, subU_ok_iff,
    pure_ok_iff] at h
  obtain ⟨-, hle, _, ⟨-, rfl⟩, _, ⟨htotal, rfl⟩, -, -, suwp, hpay, rfl⟩ := h
  have hsum := Totals.sum_update s.staking.stakedBalance env.sender
    (s.staking.stakedBalance env.sender - amount)
  have hstaked := hS.staked
  refine hS.withdraw hpay ?_ hS.pending ?_
  · dsimp only
    omega
  · dsimp only
    omega

lemma emergencyUnstake_solvent (hS : Solvent C s) (h : emergencyUnstake C env s = .ok s') :
    Solvent C s' := by
  simp only [emergencyUnstake, bind_ok_iff, guard_ok_iff, exists_const, suwpCall_ok_iff,
    subU_ok_iff, pure_ok_iff] at h
  obtain ⟨-, -, _, ⟨htotal, rfl⟩, suwp, hpay, rfl⟩ := h
  have hsum := Totals.sum_update s.staking.stakedBalance env.sender 0
  have hstaked := hS.staked
  refine hS.withdraw hpay ?_ hS.pending ?_
  · dsimp only
    omega
  · dsimp only
    omega

lemma claimSuwpBonus_solvent (hS : Solvent C s) (h : claimSuwpBonus C env s = .ok s') :
    Solvent C s' := by
  simp only [claimSuwpBonus, bind_ok_iff, guard_ok_iff, exists_const, suwpCall_ok_iff,
    subU_ok_iff, pure_ok_iff] at h
  obtain ⟨-, _, ⟨htotal, rfl⟩, suwp, hpay, rfl⟩ := h
  have hsum := Totals.sum_update s.staking.claimableSuwpBonus env.sender 0
  have hpending := hS.pending
  refine hS.withdraw hpay hS.staked ?_ ?_
  · dsimp only
    omega
  · dsimp only
    omega

lemma distributeSuwpBonus_solvent (hS : Solvent C s) {stakers : List Address}
    {amounts : List ℕ} (h : distributeSuwpBonus C env s stakers amounts = .ok s') :
    Solvent C s' := by
  simp only [distributeSuwpBonus, bind_ok_iff, guard_ok_iff, exists_const, addU_ok_iff,
    pure_ok_iff] at h
  obtain ⟨-, -, hlength, -, total, htotal, _, ⟨-, rfl⟩, _, ⟨-, rfl⟩, hfunded, claimable, hcredit,
    _, ⟨-, rfl⟩, rfl⟩ := h
  have hsum := creditBonuses_ok hcredit
  rw [List.map_snd_zip hlength.ge, hS.pending] at hsum
  have htotal := sumAmounts_ok htotal
  exact {
    unapproving := hS.unapproving
    staked := hS.staked
    pending := by dsimp only; omega
    covered := by dsimp only; omega }

lemma recoverToken_solvent (hS : Solvent C s) {token : Address}
    (h : recoverToken C env s token amount = .ok s') : Solvent C s' := by
  simp only [recoverToken, bind_ok_iff] at h
  obtain ⟨-, -, h⟩ := h
  split at h
  · simp only [surplus, bind_ok_iff, guard_ok_iff, exists_const, suwpCall_ok_iff, subU_ok_iff,
      pure_ok_iff] at h
    obtain ⟨_, ⟨_, ⟨-, rfl⟩, -, rfl⟩, hle, suwp, hpay, rfl⟩ := h
    obtain ⟨hun, hbalance⟩ := Token.transfer_of_unapproving hS.unapproving hpay
    have hcovered := hS.covered
    exact ⟨hun, hS.staked, hS.pending, by dsimp only; omega⟩
  · simp only [bind_ok_iff, guard_ok_iff, exists_const, pure_ok_iff] at h
    exact h.2 ▸ hS

/-- A call that leaves stakes, bonuses and SUWP alone. -/
lemma Solvent.of_books (hS : Solvent C s) {staking : Storage}
    (hstaked : staking.stakedBalance = s.staking.stakedBalance)
    (htotal : staking.totalStaked = s.staking.totalStaked)
    (hclaimable : staking.claimableSuwpBonus = s.staking.claimableSuwpBonus)
    (hpending : staking.totalPendingBonuses = s.staking.totalPendingBonuses) :
    Solvent C { s with staking := staking } where
  unapproving := hS.unapproving
  staked := by
    dsimp only
    rw [hstaked, htotal]
    exact hS.staked
  pending := by
    dsimp only
    rw [hclaimable, hpending]
    exact hS.pending
  covered := by
    dsimp only
    rw [htotal, hpending]
    exact hS.covered

lemma apply_solvent (hS : Solvent C s) {op : Op} (h : apply C env s op = .ok s') :
    Solvent C s' := by
  cases op with
  | stake amount => exact stake_solvent hS h
  | unstake amount => exact unstake_solvent hS h
  | emergencyUnstake => exact emergencyUnstake_solvent hS h
  | distributeSuwpBonus stakers amounts => exact distributeSuwpBonus_solvent hS h
  | claimSuwpBonus => exact claimSuwpBonus_solvent hS h
  | recoverToken token amount => exact recoverToken_solvent hS h
  | fundStream usdcAmount durationSeconds =>
    simp only [apply, fundStream, bind_ok_iff, pure_ok_iff] at h
    obtain ⟨-, -, -, -, -, -, -, -, -, -, epoch, -, -, -, usdcxAmount, -, -, -, -, -, -, -, -, -,
      rfl⟩ := h
    exact hS.of_books rfl rfl rfl rfl
  | depositVaultYield usdcAmount =>
    simp only [apply, depositVaultYield, bind_ok_iff, pure_ok_iff] at h
    obtain ⟨-, -, -, -, -, -, yieldPool, -, rfl⟩ := h
    exact hS.of_books rfl rfl rfl rfl
  | pause =>
    simp only [apply, pause, bind_ok_iff, pure_ok_iff] at h
    obtain ⟨-, -, -, -, rfl⟩ := h
    exact hS.of_books rfl rfl rfl rfl
  | unpause =>
    simp only [apply, unpause, bind_ok_iff, pure_ok_iff] at h
    obtain ⟨-, -, -, -, rfl⟩ := h
    exact hS.of_books rfl rfl rfl rfl
  | transferOwnership newOwner =>
    simp only [apply, transferOwnership, bind_ok_iff, pure_ok_iff] at h
    obtain ⟨-, -, -, -, rfl⟩ := h
    exact hS.of_books rfl rfl rfl rfl
  | renounceOwnership =>
    simp only [apply, renounceOwnership, bind_ok_iff, pure_ok_iff] at h
    obtain ⟨-, -, rfl⟩ := h
    exact hS.of_books rfl rfl rfl rfl

theorem solvent_of_step (hS : Solvent C s) {c : Call C} (h : step C s c = .ok s') :
    Solvent C s' := by
  cases c with
  | staking env op => exact apply_solvent hS h
  | suwp caller other op =>
    simp only [step, bind_ok_iff, suwpCall_ok_iff, pure_ok_iff] at h
    obtain ⟨suwp, hcall, rfl⟩ := h
    obtain ⟨hun, hbalance⟩ := Token.apply_of_ne other hS.unapproving hcall
    exact ⟨hun, hS.staked, hS.pending, hS.covered.trans hbalance⟩

/-! ### Withdrawals -/

lemma Solvent.stake_le (hS : Solvent C s) (a : Address) :
    s.staking.stakedBalance a ≤ s.staking.totalStaked := by
  rw [← hS.staked]
  exact Finset.single_le_sum_of_canonicallyOrdered (Finset.mem_univ a)

lemma Solvent.bonus_le (hS : Solvent C s) (a : Address) :
    s.staking.claimableSuwpBonus a ≤ s.staking.totalPendingBonuses := by
  rw [← hS.pending]
  exact Finset.single_le_sum_of_canonicallyOrdered (Finset.mem_univ a)

lemma pay_succeeds (dst : Address) (h : amount ≤ s.suwp.balanceOf C.self) :
    ∃ suwp, suwpCall (s.suwp.transfer C.self dst amount) = .ok suwp := by
  obtain ⟨suwp, hpay⟩ := Token.transfer_succeeds dst h
  exact ⟨suwp, suwpCall_ok_iff.mpr hpay⟩

/-- Whoever staked gets it back, once the pool takes the new units. -/
lemma unstake_succeeds (hS : Solvent C s) (hpos : amount > 0)
    (hle : amount ≤ s.staking.stakedBalance env.sender)
    (hunits : requireUnits env (s.staking.stakedBalance env.sender - amount) = .ok ()) :
    ∃ s', unstake C env s amount = .ok s' := by
  have htotal := hS.stake_le env.sender
  have hcovered := hS.covered
  have hbalance : amount ≤ s.suwp.balanceOf C.self := by omega
  obtain ⟨suwp, hpay⟩ := pay_succeeds env.sender hbalance
  simp only [unstake, bind_ok_iff, guard_ok_iff, exists_const, subU_ok_iff, pure_ok_iff]
  exact ⟨_, hpos, hle, _, ⟨hle, rfl⟩, _, ⟨by omega, rfl⟩, (), hunits, suwp, hpay, rfl⟩

lemma emergencyUnstake_succeeds (hS : Solvent C s) (hpaused : s.staking.paused = true)
    (hpos : s.staking.stakedBalance env.sender > 0) :
    ∃ s', emergencyUnstake C env s = .ok s' := by
  have htotal := hS.stake_le env.sender
  have hcovered := hS.covered
  have hbalance : s.staking.stakedBalance env.sender ≤ s.suwp.balanceOf C.self := by omega
  obtain ⟨suwp, hpay⟩ := pay_succeeds env.sender hbalance
  simp only [emergencyUnstake, bind_ok_iff, guard_ok_iff, exists_const, subU_ok_iff, pure_ok_iff]
  exact ⟨_, hpaused, hpos, _, ⟨htotal, rfl⟩, suwp, hpay, rfl⟩

lemma claimSuwpBonus_succeeds (hS : Solvent C s)
    (hpos : s.staking.claimableSuwpBonus env.sender > 0) :
    ∃ s', claimSuwpBonus C env s = .ok s' := by
  have htotal := hS.bonus_le env.sender
  have hcovered := hS.covered
  have hbalance : s.staking.claimableSuwpBonus env.sender ≤ s.suwp.balanceOf C.self := by omega
  obtain ⟨suwp, hpay⟩ := pay_succeeds env.sender hbalance
  simp only [claimSuwpBonus, bind_ok_iff, guard_ok_iff, exists_const, subU_ok_iff, pure_ok_iff]
  exact ⟨_, hpos, _, ⟨htotal, rfl⟩, suwp, hpay, rfl⟩

/-- The contract holds what it owes, its totals are sums over all addresses, and so every
withdrawal somebody is entitled to goes through. -/
theorem stakes_covered (C : Contracts) (owner : Address) (calls : List (Call C)) :
    let s := (machine C).run (.init owner) calls
    s.staking.totalStaked + s.staking.totalPendingBonuses ≤ s.suwp.balanceOf C.self ∧
    ∑ a, s.staking.stakedBalance a = s.staking.totalStaked ∧
    ∑ a, s.staking.claimableSuwpBonus a = s.staking.totalPendingBonuses ∧
    ∀ env : Env,
      (∀ amount > 0, amount ≤ s.staking.stakedBalance env.sender →
        requireUnits env (s.staking.stakedBalance env.sender - amount) = .ok () →
        ∃ s', unstake C env s amount = .ok s') ∧
      (s.staking.paused = true → s.staking.stakedBalance env.sender > 0 →
        ∃ s', emergencyUnstake C env s = .ok s') ∧
      (s.staking.claimableSuwpBonus env.sender > 0 → ∃ s', claimSuwpBonus C env s = .ok s') := by
  intro s
  have hS : Solvent C s := Machine.run_induction (M := machine C)
    (fun _ _ _ hS h => solvent_of_step hS h) (.of_init C owner) calls
  exact ⟨hS.covered, hS.staked, hS.pending, fun env =>
    ⟨fun _ hpos hle hunits => unstake_succeeds hS hpos hle hunits,
      emergencyUnstake_succeeds hS, claimSuwpBonus_succeeds hS⟩⟩

end Suwappu.Staking
