import Suwappu.Lib.Rounding
import Suwappu.Primitives.AmortizingVault.Basic

/-!
# What the calls change

Every call on a position ends in one `State.put`: a new value of the position, of the two totals
and of the two token balances. The lemmas here read that state off a successful call, for states
in which no position owes more than the total.
-/

namespace Suwappu.AmortizingVault

open Checked Rounding

variable {v : Vault} {s s' : State} {id : ℕ} {q q' : Quote} {burned received : Option ℕ}
  {paid : Bool}

/-! ### The index and the debts it values -/

/-- What `_index` returns. -/
def Vault.indexAt (v : Vault) (s : State) : ℕ :=
  WAD + v.borrowRate * (s.now.val - v.startTime.val)

/-- What `debtOf` returns. -/
def Vault.debtAt (v : Vault) (s : State) (id : ℕ) : ℕ :=
  (s.positions id).debtScaled * v.indexAt s / WAD

/-- What `poolAssets` returns. -/
def Vault.poolAt (v : Vault) (s : State) : ℕ :=
  s.totalCash + s.totalDebtScaled * v.indexAt s / WAD

lemma Vault.indexAt_pos (v : Vault) (s : State) : 0 < v.indexAt s :=
  Nat.add_pos_left WAD_pos _

lemma Vault.indexAt_congr (h : s'.now = s.now) : v.indexAt s' = v.indexAt s := by
  rw [Vault.indexAt, h, Vault.indexAt]

lemma index_ok {i : ℕ} (h : index v s = .ok i) : i = v.indexAt s := by
  simp only [index, bind_ok_iff, subU_ok_iff, mulU_ok_iff, addU_ok_iff] at h
  obtain ⟨_, ⟨-, rfl⟩, _, ⟨-, rfl⟩, -, rfl⟩ := h
  rw [Vault.indexAt]

lemma debtOf_ok {d : ℕ} (h : debtOf v s id = .ok d) : d = v.debtAt s id := by
  simp only [debtOf, bind_ok_iff, mulDiv_ok_iff] at h
  obtain ⟨i, hi, -, -, -, rfl⟩ := h
  rw [Vault.debtAt, index_ok hi]

lemma poolAssets_ok {pool : ℕ} (h : poolAssets v s = .ok pool) : pool = v.poolAt s := by
  simp only [poolAssets, totalDebtAssets, bind_ok_iff, mulDiv_ok_iff, addU_ok_iff] at h
  obtain ⟨_, ⟨i, hi, -, -, -, rfl⟩, -, rfl⟩ := h
  rw [Vault.poolAt, index_ok hi]

/-- The index never falls below one, so a scaled debt is worth at least itself. -/
lemma debtAt_eq_zero : v.debtAt s id = 0 ↔ (s.positions id).debtScaled = 0 := by
  rw [Vault.debtAt, Nat.div_eq_zero_iff]
  constructor
  · rintro (h | h)
    · exact absurd WAD_pos (by omega)
    · by_contra hne
      have hle : 1 * v.indexAt s ≤ (s.positions id).debtScaled * v.indexAt s :=
        Nat.mul_le_mul_right _ (by omega)
      have hindex : WAD ≤ v.indexAt s := Nat.le_add_right _ _
      omega
  · intro h
    rw [h, zero_mul]
    exact .inr WAD_pos

/-! ### Reducing a debt -/

/-- The scaled debt that an amount of assets takes off, rounded up. -/
def Vault.scaledUp (v : Vault) (s : State) (assets : ℕ) : ℕ := ceilDiv (assets * WAD) (v.indexAt s)

/-- No more of the scaled debt goes than there is, as long as no more than the debt is repaid. -/
lemma scaledUp_le {assets : ℕ} (h : assets ≤ v.debtAt s id) :
    v.scaledUp s assets ≤ (s.positions id).debtScaled :=
  ceilDiv_le_of_le_div (v.indexAt_pos s) h

@[simp] lemma scaledUp_zero : v.scaledUp s 0 = 0 := by simp [Vault.scaledUp, ceilDiv]

lemma mulDivUp_ok {x y d z : ℕ} (h : mulDivUp x y d = .ok z) : z = ceilDiv (x * y) d := by
  simp only [mulDivUp, bind_ok_iff, mulDiv_ok_iff] at h
  obtain ⟨_, ⟨-, hd, -, rfl⟩, h⟩ := h
  have hmod : WideWord.mulmod x y d = x * y % d := rfl
  rw [ceilDiv_eq _ hd, ← hmod]
  by_cases hne : WideWord.mulmod x y d ≠ 0
  · rw [if_pos hne, addU_ok_iff] at h
    rw [if_pos hne, h.2]
  · rw [if_neg hne, pure_ok_iff] at h
    rw [if_neg hne, h]

/-- A position, the totals and the token balances take new values. -/
def State.put (s : State) (id : ℕ) (p : Position) (totalDebtScaled totalCash assetBalance
    shareBalance : ℕ) : State :=
  { s.setPosition id p with
    totalDebtScaled := totalDebtScaled
    totalCash := totalCash
    assetBalance := assetBalance
    shareBalance := shareBalance }

lemma put_positions_self (s : State) (id : ℕ) (p : Position) (a b c d : ℕ) :
    (s.put id p a b c d).positions id = p := Function.update_self ..

lemma put_positions_of_ne (s : State) {id id' : ℕ} (p : Position) (a b c d : ℕ) (h : id' ≠ id) :
    (s.put id p a b c d).positions id' = s.positions id' := Function.update_of_ne h ..

@[simp] lemma put_nextPositionId (s : State) (id : ℕ) (p : Position) (a b c d : ℕ) :
    (s.put id p a b c d).nextPositionId = s.nextPositionId := rfl

section setPosition

variable (s : State) (id : ℕ) (p : Position)

@[simp] lemma setPosition_positions_self : (s.setPosition id p).positions id = p :=
  Function.update_self ..

@[simp] lemma setPosition_totalDebtScaled :
    (s.setPosition id p).totalDebtScaled = s.totalDebtScaled := rfl

@[simp] lemma setPosition_now : (s.setPosition id p).now = s.now := rfl

end setPosition

lemma reduceDebt_ok {assets : ℕ} (htotal : (s.positions id).debtScaled ≤ s.totalDebtScaled)
    (hle : assets ≤ v.debtAt s id) (h : reduceDebt v s id assets = .ok s') :
    s' = s.put id { s.positions id with
        debtScaled := (s.positions id).debtScaled - v.scaledUp s assets }
      (s.totalDebtScaled - v.scaledUp s assets) s.totalCash s.assetBalance s.shareBalance := by
  have hscaled := scaledUp_le hle
  simp only [reduceDebt, bind_ok_iff, subU_ok_iff, pure_ok_iff] at h
  obtain ⟨i, hi, scaled, hup, _, ⟨-, rfl⟩, rfl⟩ := h
  obtain rfl : scaled = v.scaledUp s assets := by
    rw [mulDivUp_ok hup, index_ok hi, Vault.scaledUp]
  rw [if_neg (by omega), if_neg (by omega)]
  have hclamp : decide (v.scaledUp s assets > s.totalDebtScaled) = false := by
    rw [decide_eq_false_iff_not]
    omega
  simp only [State.put, State.setPosition, hclamp, Bool.or_false]

/-! ### Applying the yield -/

/-- The yield `_amortize` takes from position `id`. -/
def Vault.yieldAt (v : Vault) (s : State) (id : ℕ) (q : Quote) : ℕ :=
  yieldOf q (s.positions id) (v.debtAt s id)

lemma yieldOf_le (q : Quote) (p : Position) (d : ℕ) : yieldOf q p d ≤ d := by
  unfold yieldOf
  dsimp only
  split_ifs <;> omega

lemma yieldAt_le (v : Vault) (s : State) (id : ℕ) (q : Quote) :
    v.yieldAt s id q ≤ v.debtAt s id := yieldOf_le q _ _

/-- Only a position with collateral and debt has a yield to take. -/
lemma shares_pos_of_yieldAt (h : v.yieldAt s id q ≠ 0) : 0 < (s.positions id).shares := by
  rw [Vault.yieldAt, yieldOf] at h
  by_contra hzero
  exact h (if_pos (.inr (by omega)))

/-- The state after a yield of `assets` was taken, for which the vault burned `b` shares. -/
def State.amortized (v : Vault) (s : State) (id assets b : ℕ) : State :=
  s.put id { s.positions id with
      shares := (s.positions id).shares - b
      debtScaled := (s.positions id).debtScaled - v.scaledUp s assets }
    (s.totalDebtScaled - v.scaledUp s assets) (s.totalCash + assets) (s.assetBalance + assets)
    (s.shareBalance - b)

lemma amortizeDebt_ok (htotal : (s.positions id).debtScaled ≤ s.totalDebtScaled)
    (h : amortizeDebt v s id q burned = .ok s') :
    (v.yieldAt s id q = 0 ∧ s' = s) ∨
      (v.yieldAt s id q ≠ 0 ∧ ∃ b, burned = some b ∧ b ≤ (s.positions id).shares ∧
        b ≤ s.shareBalance ∧ s' = s.amortized v id (v.yieldAt s id q) b) := by
  simp only [amortizeDebt, bind_ok_iff] at h
  obtain ⟨d, hd, h⟩ := h
  obtain rfl := debtOf_ok hd
  rw [← Vault.yieldAt] at h
  split at h
  · rename_i hzero
    rw [pure_ok_iff] at h
    exact .inl ⟨hzero, h.symm⟩
  · rename_i hne
    refine .inr ⟨hne, ?_⟩
    cases burned with
    | none => simp at h
    | some b =>
      simp only [bind_ok_iff, guard_ok_iff, exists_const, subU_ok_iff, addU_ok_iff,
        pure_ok_iff] at h
      obtain ⟨hbal, _, ⟨hshares, rfl⟩, s₁, hreduce, cash, ⟨-, rfl⟩, rfl⟩ := h
      refine ⟨b, rfl, hshares, hbal, ?_⟩
      obtain rfl := reduceDebt_ok (by simpa using htotal)
        (by simpa [Vault.debtAt, Vault.indexAt] using yieldAt_le v s id q) hreduce
      simp [State.put, State.amortized, State.setPosition, Vault.scaledUp, Vault.indexAt]

/-- What a position still owes stays below the total. -/
lemma amortizeDebt_total (htotal : (s.positions id).debtScaled ≤ s.totalDebtScaled)
    (h : amortizeDebt v s id q burned = .ok s') :
    (s'.positions id).debtScaled ≤ s'.totalDebtScaled := by
  rcases amortizeDebt_ok htotal h with ⟨-, rfl⟩ | ⟨-, b, -, -, -, rfl⟩
  · exact htotal
  · rw [State.amortized, put_positions_self]
    exact Nat.sub_le_sub_right htotal _

/-! ### The other calls -/

lemma pullExact_ok_iff {amount : ℕ} {u : Unit} :
    pullExact received amount = .ok u ↔ received = some amount := by
  cases received with
  | none   => simp [pullExact]
  | some r => simp [pullExact, guard_ok_iff]

lemma push_ok_iff {balance amount rest : ℕ} : push balance amount paid = .ok rest ↔
    (paid = true ∧ amount ≤ balance) ∧ balance - amount = rest := by
  simp only [push, bind_ok_iff, guard_ok_iff, exists_const, pure_ok_iff]

lemma supply_ok {sender : Address} {assets : ℕ} (h : supply v s sender assets received = .ok s') :
    ∃ shares, shares = assets * (s.totalLendShares + VIRTUAL) / (v.poolAt s + VIRTUAL) ∧
      s' = { s with
        totalLendShares := s.totalLendShares + shares
        lendShares := Function.update s.lendShares sender (s.lendShares sender + shares)
        totalCash := s.totalCash + assets
        assetBalance := s.assetBalance + assets } := by
  simp only [supply, bind_ok_iff, guard_ok_iff, exists_const, addU_ok_iff, mulDiv_ok_iff,
    pure_ok_iff] at h
  obtain ⟨-, pool, hpool, _, ⟨-, rfl⟩, _, ⟨-, rfl⟩, _, ⟨-, -, -, rfl⟩, -, _, ⟨-, rfl⟩, _,
    ⟨-, rfl⟩, _, ⟨-, rfl⟩, _, -, rfl⟩ := h
  exact ⟨_, by rw [poolAssets_ok hpool], rfl⟩

lemma withdraw_ok {sender : Address} {shares : ℕ} (h : withdraw v s sender shares paid = .ok s') :
    ∃ assets, assets = shares * (v.poolAt s + VIRTUAL) / (s.totalLendShares + VIRTUAL) ∧
      shares ≤ s.lendShares sender ∧ shares ≤ s.totalLendShares ∧ assets ≤ s.totalCash ∧
      assets ≤ s.assetBalance ∧
      s' = { s with
        totalLendShares := s.totalLendShares - shares
        lendShares := Function.update s.lendShares sender (s.lendShares sender - shares)
        totalCash := s.totalCash - assets
        assetBalance := s.assetBalance - assets } := by
  simp only [withdraw, bind_ok_iff, guard_ok_iff, exists_const, addU_ok_iff, subU_ok_iff,
    mulDiv_ok_iff, push_ok_iff, pure_ok_iff] at h
  obtain ⟨hshares, pool, hpool, _, ⟨-, rfl⟩, _, ⟨-, rfl⟩, _, ⟨-, -, -, rfl⟩, hcash, _,
    ⟨htotal, rfl⟩, _, ⟨-, rfl⟩, _, ⟨⟨-, hbal⟩, rfl⟩, rfl⟩ := h
  exact ⟨_, by rw [poolAssets_ok hpool], by omega, htotal, hcash, hbal, rfl⟩

lemma openPosition_ok {sender : Address} {shares borrow deadline : ℕ}
    (h : openPosition v s sender shares borrow deadline q received paid = .ok s') :
    shares ≠ 0 ∧ borrow ≤ s.totalCash ∧ ∃ scaled rest,
      scaled = borrow * WAD / v.indexAt s ∧ rest + borrow = s.assetBalance ∧
      s' = { s.put s.nextPositionId ⟨sender, shares, q.convertToAssets shares, scaled⟩
          (s.totalDebtScaled + scaled) (s.totalCash - borrow) rest (s.shareBalance + shares) with
        nextPositionId := s.nextPositionId + 1 } := by
  simp only [openPosition, bind_ok_iff, guard_ok_iff, exists_const, addU_ok_iff, subU_ok_iff,
    mulU_ok_iff, mulDiv_ok_iff, pullExact_ok_iff] at h
  obtain ⟨-, hshares, _, ⟨-, rfl⟩, _, ⟨-, rfl⟩, -, hcash, i, hi, _, ⟨-, -, -, rfl⟩, _,
    ⟨-, rfl⟩, _, ⟨-, rfl⟩, _, ⟨-, rfl⟩, -, h⟩ := h
  obtain rfl := index_ok hi
  refine ⟨hshares, hcash, borrow * WAD / v.indexAt s, ?_⟩
  split at h
  · simp only [bind_ok_iff, push_ok_iff, pure_ok_iff] at h
    obtain ⟨rest, ⟨⟨-, hbal⟩, rfl⟩, rfl⟩ := h
    exact ⟨_, rfl, Nat.sub_add_cancel hbal, rfl⟩
  · simp only [bind_ok_iff, pure_ok_iff] at h
    obtain ⟨_, rfl, rfl⟩ := h
    exact ⟨s.assetBalance, rfl, by omega, rfl⟩

lemma addCollateral_ok {shares : ℕ} (h : addCollateral s id shares q received = .ok s') :
    shares ≠ 0 ∧ (s.positions id).owner ≠ Address.zero ∧
      s' = s.put id { s.positions id with
          shares := (s.positions id).shares + shares
          baselineAssets := (s.positions id).baselineAssets + q.convertToAssets shares }
        s.totalDebtScaled s.totalCash s.assetBalance (s.shareBalance + shares) := by
  simp only [addCollateral, bind_ok_iff, guard_ok_iff, exists_const, addU_ok_iff,
    pure_ok_iff] at h
  obtain ⟨hshares, howner, _, ⟨-, rfl⟩, _, ⟨-, rfl⟩, _, -, rfl⟩ := h
  exact ⟨hshares, howner, rfl⟩

lemma repay_ok {assets : ℕ} (htotal : (s.positions id).debtScaled ≤ s.totalDebtScaled)
    (h : repay v s id assets received = .ok s') :
    ∃ a, a = min assets (v.debtAt s id) ∧ v.debtAt s id ≠ 0 ∧
      s' = s.put id { s.positions id with
          debtScaled := (s.positions id).debtScaled - v.scaledUp s a }
        (s.totalDebtScaled - v.scaledUp s a) (s.totalCash + a) (s.assetBalance + a)
        s.shareBalance := by
  simp only [repay, bind_ok_iff, guard_ok_iff, exists_const, addU_ok_iff, pure_ok_iff] at h
  obtain ⟨-, d, hd, hne, s₁, hreduce, _, ⟨-, rfl⟩, _, -, rfl⟩ := h
  obtain rfl := debtOf_ok hd
  have ha : (if assets > v.debtAt s id then v.debtAt s id else assets)
      = min assets (v.debtAt s id) := by
    split <;> omega
  rw [ha] at hreduce ⊢
  obtain rfl := reduceDebt_ok htotal (Nat.min_le_right _ _) hreduce
  exact ⟨_, rfl, hne, rfl⟩

/-- The state after the yield was taken, `sh` shares left position `id` and its cost basis became
`baseline`. -/
def State.reclaimed (s : State) (id sh baseline : ℕ) : State :=
  s.put id
    { s.positions id with shares := (s.positions id).shares - sh, baselineAssets := baseline }
    s.totalDebtScaled s.totalCash s.assetBalance (s.shareBalance - sh)

lemma withdrawCollateral_ok {sender : Address} {shares deadline : ℕ}
    (h : withdrawCollateral v s sender id shares deadline q burned q' paid = .ok s') :
    shares ≠ 0 ∧ shares ≤ (s.positions id).shares ∧ ∃ s₁ baseline,
      amortizeDebt v s id q burned = .ok s₁ ∧ shares ≤ (s₁.positions id).shares ∧
      shares ≤ s₁.shareBalance ∧
      (v.debtAt s₁ id ≠ 0 → v.debtAt s₁ id * WAD
        ≤ q'.convertToAssets ((s₁.positions id).shares - shares) * v.maxLtv) ∧
      s' = s₁.reclaimed id shares baseline := by
  simp only [withdrawCollateral, bind_ok_iff, guard_ok_iff, exists_const, subU_ok_iff] at h
  obtain ⟨-, -, hshares, s₁, hamortize, d, hd, _, ⟨hle, rfl⟩, h⟩ := h
  obtain rfl := debtOf_ok hd
  split at h <;>
    simp only [bind_ok_iff, guard_ok_iff, exists_const, mulU_ok_iff, push_ok_iff, pure_ok_iff] at h
  · obtain ⟨_, ⟨-, rfl⟩, _, ⟨-, rfl⟩, hltv, baseline, -, _, ⟨⟨-, hbal⟩, rfl⟩, rfl⟩ := h
    exact ⟨by omega, by omega, s₁, baseline, hamortize, hle, hbal, fun _ => hltv, rfl⟩
  · obtain ⟨baseline, -, _, ⟨⟨-, hbal⟩, rfl⟩, rfl⟩ := h
    exact ⟨by omega, by omega, s₁, baseline, hamortize, hle, hbal, fun hd => by omega, rfl⟩

/-- The scaled debt that is written off when `left` remains on a position with `shares` shares. -/
def writtenOff (shares left : ℕ) : ℕ := if shares = 0 then left else 0

/-- The state after a liquidator repaid `a` and seized `sh` shares. -/
def State.liquidated (v : Vault) (s : State) (id a sh baseline : ℕ) : State :=
  let p := s.positions id
  let left := p.debtScaled - v.scaledUp s a
  let gone := writtenOff (p.shares - sh) left
  s.put id { p with
      shares := p.shares - sh, baselineAssets := baseline, debtScaled := left - gone }
    (s.totalDebtScaled - v.scaledUp s a - gone) (s.totalCash + a) (s.assetBalance + a)
    (s.shareBalance - sh)

lemma writeOff_ok (htotal : (s.positions id).debtScaled ≤ s.totalDebtScaled)
    (h : writeOff v s id = .ok s') :
    s' = s.put id { s.positions id with
        debtScaled := (s.positions id).debtScaled
          - writtenOff (s.positions id).shares (s.positions id).debtScaled }
      (s.totalDebtScaled - writtenOff (s.positions id).shares (s.positions id).debtScaled)
      s.totalCash s.assetBalance s.shareBalance := by
  unfold writeOff at h
  dsimp only at h
  split at h
  · rename_i hgone
    simp only [bind_ok_iff, pure_ok_iff] at h
    obtain ⟨-, -, rfl⟩ := h
    have hclamp : decide ((s.positions id).debtScaled > s.totalDebtScaled) = false := by
      rw [decide_eq_false_iff_not]
      omega
    rw [if_neg (by omega), writtenOff, if_pos hgone.1, Nat.sub_self, hclamp, Bool.or_false]
    rfl
  · rename_i hkeep
    rw [pure_ok_iff] at h
    have hzero : writtenOff (s.positions id).shares (s.positions id).debtScaled = 0 := by
      unfold writtenOff
      split <;> omega
    rw [hzero, ← h]
    simp [State.put, State.setPosition]

lemma seize_ok {repayAssets a sh : ℕ} (htotal : (s.positions id).debtScaled ≤ s.totalDebtScaled)
    (h : seize v s id repayAssets q burned q' = .ok (s', a, sh)) :
    ∃ s₁ baseline, amortizeDebt v s id q burned = .ok s₁ ∧
      a = min repayAssets (v.debtAt s₁ id) ∧ a ≠ 0 ∧ sh ≤ (s₁.positions id).shares ∧
      s' = s₁.put id { s₁.positions id with
          shares := (s₁.positions id).shares - sh
          baselineAssets := baseline
          debtScaled := (s₁.positions id).debtScaled - v.scaledUp s₁ a }
        (s₁.totalDebtScaled - v.scaledUp s₁ a) (s₁.totalCash + a) s₁.assetBalance
        s₁.shareBalance := by
  simp only [seize, bind_ok_iff, guard_ok_iff, exists_const, mulU_ok_iff, addU_ok_iff, subU_ok_iff,
    pure_ok_iff, Prod.mk.injEq] at h
  obtain ⟨s₁, hamortize, d, hd, -, _, ⟨-, rfl⟩, _, ⟨-, rfl⟩, -, ha, _, ⟨-, rfl⟩, seizeValue, -,
    s₂, hreduce, _, ⟨-, rfl⟩, _, ⟨hsh, rfl⟩, baseline, -, rfl, rfl, rfl⟩ := h
  obtain rfl := debtOf_ok hd
  have hmin : (if repayAssets > v.debtAt s₁ id then v.debtAt s₁ id else repayAssets)
      = min repayAssets (v.debtAt s₁ id) := by
    split <;> omega
  rw [hmin] at hreduce ha ⊢
  obtain rfl := reduceDebt_ok (amortizeDebt_total htotal hamortize) (Nat.min_le_right _ _) hreduce
  rw [put_positions_self] at hsh ⊢
  refine ⟨s₁, baseline, hamortize, rfl, ha, hsh, ?_⟩
  simp [State.put, State.setPosition]

lemma liquidate_ok {repayAssets deadline : ℕ}
    (htotal : (s.positions id).debtScaled ≤ s.totalDebtScaled)
    (h : liquidate v s id repayAssets deadline q burned q' received paid = .ok s') :
    ∃ s₁ s₂ a sh baseline, amortizeDebt v s id q burned = .ok s₁ ∧
      seize v s id repayAssets q burned q' = .ok (s₂, a, sh) ∧
      (s₂.positions id).shares = (s₁.positions id).shares - sh ∧
      (s₂.positions id).debtScaled = (s₁.positions id).debtScaled - v.scaledUp s₁ a ∧
      a = min repayAssets (v.debtAt s₁ id) ∧ a ≠ 0 ∧ sh ≤ (s₁.positions id).shares ∧
      sh ≤ s₁.shareBalance ∧ s' = s₁.liquidated v id a sh baseline := by
  simp only [liquidate, bind_ok_iff, guard_ok_iff, exists_const, push_ok_iff, pure_ok_iff] at h
  obtain ⟨-, ⟨s₂, a, sh⟩, hseize, s₃, hwrite, _, -, _, ⟨⟨-, hbal⟩, rfl⟩, rfl⟩ := h
  obtain ⟨s₁, baseline, hamortize, rfl, ha, hsh, rfl⟩ := seize_ok htotal hseize
  have htotal₁ := amortizeDebt_total htotal hamortize
  obtain rfl :=
    writeOff_ok (by rw [put_positions_self]; exact Nat.sub_le_sub_right htotal₁ _) hwrite
  refine ⟨s₁, _, _, sh, baseline, hamortize, hseize, by rw [put_positions_self],
    by rw [put_positions_self], rfl, ha, hsh, hbal, ?_⟩
  simp [State.put, State.setPosition, State.liquidated]

end Suwappu.AmortizingVault
