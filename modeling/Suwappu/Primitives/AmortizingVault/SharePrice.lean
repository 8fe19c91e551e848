import Suwappu.Primitives.AmortizingVault.BadDebt

/-!
# The lender share price

Within one block only roundings can move the price of a lender share. Supplies and withdrawals
round against the lender who makes them. An opened debt is rounded down and every reduction of a
debt is rounded up, both against the pool; the results here say exactly when the fractions that
the valuations of the debts drop anyway absorb that.
-/

namespace Suwappu.AmortizingVault

open Checked Rounding

variable {v : Vault} {s s₁ s' : State} {id a a' r r' : ℕ} {q q' : Quote}
  {burned received : Option ℕ} {paid : Bool} {op : Op}

/-! ### The property -/

/-- What an operation lends out. -/
def Op.lent : Op → ℕ
  | .openPosition _ _ borrowAssets _ _ _ _ => borrowAssets
  | _                                      => 0

/-- The share price did not fall, a new debt is at least what was lent, and no debt shrank by more
than the cash that came in. -/
structure LendersKept (v : Vault) (s : State) (op : Op) (s' : State) : Prop where
  price : (v.poolAt s + VIRTUAL) * (s'.totalLendShares + VIRTUAL)
    ≤ (v.poolAt s' + VIRTUAL) * (s.totalLendShares + VIRTUAL)
  lent : op.lent ≤ v.debtAt s' s.nextPositionId
  reductions : ∀ id, v.debtAt s id ≤ v.debtAt s' id + (s'.totalCash - s.totalCash)

/-- `op` is no liquidation that leaves a debt without collateral to write off. -/
def NoWriteOff (v : Vault) (s : State) : Op → Prop
  | .liquidate id repayAssets _ q burned q' _ _ => ∀ s₂ a sh,
      seize v s id repayAssets q burned q' = .ok (s₂, a, sh) →
        ¬ ((s₂.positions id).shares = 0 ∧ (s₂.positions id).debtScaled > 0)
  | _ => True

/-! ### The condition -/

/-- What rounding `assets` up to whole units of scaled debt adds. -/
def Vault.excess (v : Vault) (s : State) (assets : ℕ) : ℕ :=
  (v.indexAt s - assets * WAD % v.indexAt s) % v.indexAt s

/-- `e` is within what valuing the total debt, and the debt of position `id`, rounds away. -/
def Absorbed (v : Vault) (s : State) (id e : ℕ) : Prop :=
  e ≤ s.totalDebtScaled * v.indexAt s % WAD ∧
    e ≤ (s.positions id).debtScaled * v.indexAt s % WAD

/-- The debt of a position after its yield was applied. -/
def Vault.debtAfterYield (v : Vault) (s : State) (id : ℕ) (q : Quote) : ℕ :=
  ((s.positions id).debtScaled - v.scaledUp s (v.yieldAt s id q)) * v.indexAt s / WAD

/-- The roundings of an operation cost the lenders nothing. -/
def RoundsFairly (v : Vault) (s : State) : Op → Prop
  | .openPosition _ _ borrowAssets _ _ _ _     => v.indexAt s ∣ borrowAssets * WAD
  | .amortize id q _                           =>
    Absorbed v s id (v.excess s (v.yieldAt s id q))
  | .repay id assets _                         =>
    Absorbed v s id (v.excess s (min assets (v.debtAt s id)))
  | .withdrawCollateral _ id _ _ q _ _ _       =>
    Absorbed v s id (v.excess s (v.yieldAt s id q))
  | .liquidate id repayAssets _ q _ _ _ _      =>
    Absorbed v s id (v.excess s (v.yieldAt s id q)
      + v.excess s (min repayAssets (v.debtAfterYield s id q)))
  | _                                          => True

/-! ### Reductions of one debt -/

/-- `r` units of scaled debt of position `id` went for `a` assets, and nothing else that the
lenders see. -/
structure Reduces (s s' : State) (id a r : ℕ) : Prop where
  now : s'.now = s.now
  lendShares : s'.totalLendShares = s.totalLendShares
  cash : s'.totalCash = s.totalCash + a
  total : s'.totalDebtScaled + r = s.totalDebtScaled
  debt : (s'.positions id).debtScaled + r = (s.positions id).debtScaled
  others : ∀ id' ≠ id, (s'.positions id').debtScaled = (s.positions id').debtScaled

lemma Reduces.refl (s : State) (id : ℕ) : Reduces s s id 0 0 :=
  ⟨rfl, rfl, rfl, rfl, rfl, fun _ _ => rfl⟩

lemma Reduces.trans (h : Reduces s s₁ id a r) (h' : Reduces s₁ s' id a' r') :
    Reduces s s' id (a + a') (r + r') where
  now := h'.now.trans h.now
  lendShares := h'.lendShares.trans h.lendShares
  cash := by rw [h'.cash, h.cash, add_assoc]
  total := by rw [← h.total, ← h'.total]; omega
  debt := by rw [← h.debt, ← h'.debt]; omega
  others id' hne := (h'.others id' hne).trans (h.others id' hne)

/-- A new value of one position, of the total and of the cash. -/
lemma Reduces.put {p : Position} (assets shares : ℕ)
    (hdebt : p.debtScaled + r = (s.positions id).debtScaled) (hr : r ≤ s.totalDebtScaled) :
    Reduces s (s.put id p (s.totalDebtScaled - r) (s.totalCash + a) assets shares) id a r where
  now := rfl
  lendShares := rfl
  cash := rfl
  total := Nat.sub_add_cancel hr
  debt := by rw [put_positions_self, hdebt]
  others id' hne := by rw [put_positions_of_ne s p _ _ _ _ hne]

lemma scaledUp_mul_index (v : Vault) (s : State) (assets : ℕ) :
    v.scaledUp s assets * v.indexAt s = assets * WAD + v.excess s assets := by
  have hup := mul_ceilDiv_sub (assets * WAD) (v.indexAt_pos s)
  have hle := le_mul_ceilDiv (assets * WAD) (v.indexAt_pos s)
  rw [Vault.excess, Vault.scaledUp, mul_comm, ← hup]
  omega

/-- The heart of the matter: when a reduction is worth `e` more than what was paid for it. -/
lemma Reduces.kept_iff (h : Reduces s s' id a r) {e : ℕ}
    (he : r * v.indexAt s = a * WAD + e) (hlent : op.lent = 0) :
    LendersKept v s op s' ↔ Absorbed v s id e := by
  have hindex : v.indexAt s' = v.indexAt s := v.indexAt_congr h.now
  have hsub : ∀ x x', x' + r = x →
      (x * v.indexAt s / WAD ≤ x' * v.indexAt s / WAD + a ↔ e ≤ x * v.indexAt s % WAD) := by
    intro x x' hx
    have hmul : x' * v.indexAt s + (a * WAD + e) = x * v.indexAt s := by
      rw [← he, ← hx, add_mul]
    have hle : a * WAD + e ≤ x * v.indexAt s := by omega
    rw [← div_le_sub_div_add_iff WAD_pos hle, ← hmul, Nat.add_sub_cancel]
  have hpool : v.poolAt s ≤ v.poolAt s' ↔ e ≤ s.totalDebtScaled * v.indexAt s % WAD := by
    rw [← hsub _ _ h.total, Vault.poolAt, Vault.poolAt, hindex, h.cash]
    omega
  have hdebt : v.debtAt s id ≤ v.debtAt s' id + a
      ↔ e ≤ (s.positions id).debtScaled * v.indexAt s % WAD := by
    rw [← hsub _ _ h.debt, Vault.debtAt, Vault.debtAt, hindex]
  have hcash : s'.totalCash - s.totalCash = a := by
    rw [h.cash]
    omega
  rw [Absorbed, ← hpool, ← hdebt]
  constructor
  · rintro ⟨hprice, -, hred⟩
    rw [h.lendShares] at hprice
    refine ⟨?_, ?_⟩
    · have hle := Nat.le_of_mul_le_mul_right hprice (Nat.add_pos_right _ (by decide))
      omega
    · have hid := hred id
      rwa [hcash] at hid
  · rintro ⟨hprice, hred⟩
    refine ⟨?_, by omega, fun id' => ?_⟩
    · rw [h.lendShares]
      exact Nat.mul_le_mul_right _ (by omega)
    · by_cases hne : id' = id
      · subst hne
        rwa [hcash]
      · rw [Vault.debtAt, Vault.debtAt, hindex, h.others id' hne]
        exact Nat.le_add_right _ _

lemma amortizeDebt_reduces (hL : Ledger s) (h : amortizeDebt v s id q burned = .ok s') :
    Reduces s s' id (v.yieldAt s id q) (v.scaledUp s (v.yieldAt s id q)) := by
  rcases amortizeDebt_ok (hL.debt_le id) h with ⟨hzero, rfl⟩ | ⟨-, b, -, -, -, rfl⟩
  · rw [hzero, scaledUp_zero]
    exact Reduces.refl _ id
  · have hscaled := scaledUp_le (yieldAt_le v s id q)
    exact Reduces.put _ _ (Nat.sub_add_cancel hscaled) (hscaled.trans (hL.debt_le id))

/-- Collateral that leaves takes no debt with it. -/
lemma reclaimed_reduces (s : State) (id sh baseline : ℕ) :
    Reduces s (s.reclaimed id sh baseline) id 0 0 where
  now := rfl
  lendShares := rfl
  cash := rfl
  total := rfl
  debt := by rw [State.reclaimed, put_positions_self, Nat.add_zero]
  others id' hne := by rw [State.reclaimed, put_positions_of_ne s _ _ _ _ _ hne]

/-- The debt that a liquidator finds. -/
lemma Reduces.debtAt (h : Reduces s s' id a r) :
    v.debtAt s' id = ((s.positions id).debtScaled - r) * v.indexAt s / WAD := by
  rw [Vault.debtAt, v.indexAt_congr h.now, ← h.debt, Nat.add_sub_cancel]

lemma liquidate_reduces (hL : Ledger s) {repayAssets deadline : ℕ}
    (hw : NoWriteOff v s (.liquidate id repayAssets deadline q burned q' received paid))
    (h : liquidate v s id repayAssets deadline q burned q' received paid = .ok s') :
    ∃ r, Reduces s s' id
        (v.yieldAt s id q + min repayAssets (v.debtAfterYield s id q)) r ∧
      r * v.indexAt s = (v.yieldAt s id q + min repayAssets (v.debtAfterYield s id q)) * WAD
        + (v.excess s (v.yieldAt s id q)
          + v.excess s (min repayAssets (v.debtAfterYield s id q))) := by
  obtain ⟨s₁, s₂, a, sh, baseline, hamortize, hseize, hshares, hdebt, ha, -, -, -, rfl⟩ :=
    liquidate_ok (hL.debt_le id) h
  have hL₁ := hL.amortizeDebt hamortize
  have h₁ := amortizeDebt_reduces hL hamortize
  have hscaled : v.scaledUp s₁ a ≤ (s₁.positions id).debtScaled :=
    scaledUp_le (ha ▸ Nat.min_le_right _ _)
  have hkept : writtenOff ((s₁.positions id).shares - sh)
      ((s₁.positions id).debtScaled - v.scaledUp s₁ a) = 0 := by
    have hnone := hw s₂ a sh hseize
    rw [hshares, hdebt] at hnone
    unfold writtenOff
    split <;> omega
  have h₂ : Reduces s₁ (s₁.liquidated v id a sh baseline) id a (v.scaledUp s₁ a) := by
    unfold State.liquidated
    dsimp only
    rw [hkept, Nat.sub_zero, Nat.sub_zero]
    exact Reduces.put _ _ (Nat.sub_add_cancel hscaled) (hscaled.trans (hL₁.debt_le id))
  have hup : v.scaledUp s₁ a = v.scaledUp s a := by
    rw [Vault.scaledUp, v.indexAt_congr h₁.now, Vault.scaledUp]
  rw [h₁.debtAt, ← Vault.debtAfterYield] at ha
  rw [← ha]
  refine ⟨_, h₁.trans h₂, ?_⟩
  rw [hup, add_mul, scaledUp_mul_index, scaledUp_mul_index]
  ring

/-! ### Lenders, and the opening of a debt -/

lemma supply_kept {sender : Address} {assets : ℕ}
    (h : supply v s sender assets received = .ok s') :
    LendersKept v s (.supply sender assets received) s' := by
  obtain ⟨shares, hshares, rfl⟩ := supply_ok h
  have hmint : shares * (v.poolAt s + VIRTUAL) ≤ assets * (s.totalLendShares + VIRTUAL) := by
    rw [hshares]
    exact Nat.div_mul_le_self _ _
  refine ⟨?_, Nat.zero_le _, fun id => Nat.le_add_right _ _⟩
  change (v.poolAt s + VIRTUAL) * (s.totalLendShares + shares + VIRTUAL)
    ≤ (s.totalCash + assets + s.totalDebtScaled * v.indexAt s / WAD + VIRTUAL)
      * (s.totalLendShares + VIRTUAL)
  rw [show s.totalCash + assets + s.totalDebtScaled * v.indexAt s / WAD + VIRTUAL
    = v.poolAt s + VIRTUAL + assets by rw [Vault.poolAt]; omega]
  calc (v.poolAt s + VIRTUAL) * (s.totalLendShares + shares + VIRTUAL)
    _ = (v.poolAt s + VIRTUAL) * (s.totalLendShares + VIRTUAL)
        + shares * (v.poolAt s + VIRTUAL) := by ring
    _ ≤ (v.poolAt s + VIRTUAL) * (s.totalLendShares + VIRTUAL)
        + assets * (s.totalLendShares + VIRTUAL) := Nat.add_le_add_left hmint _
    _ = (v.poolAt s + VIRTUAL + assets) * (s.totalLendShares + VIRTUAL) := by ring

lemma withdraw_kept {sender : Address} {shares : ℕ}
    (h : withdraw v s sender shares paid = .ok s') :
    LendersKept v s (.withdraw sender shares paid) s' := by
  obtain ⟨assets, hassets, -, htotal, hcash, -, rfl⟩ := withdraw_ok h
  have hburn : assets * (s.totalLendShares + VIRTUAL) ≤ shares * (v.poolAt s + VIRTUAL) := by
    rw [hassets]
    exact Nat.div_mul_le_self _ _
  refine ⟨?_, Nat.zero_le _, fun id => Nat.le_add_right _ _⟩
  change (v.poolAt s + VIRTUAL) * (s.totalLendShares - shares + VIRTUAL)
    ≤ (s.totalCash - assets + s.totalDebtScaled * v.indexAt s / WAD + VIRTUAL)
      * (s.totalLendShares + VIRTUAL)
  obtain ⟨rest, hrest⟩ := Nat.exists_eq_add_of_le hcash
  obtain ⟨left, hleft⟩ := Nat.exists_eq_add_of_le htotal
  have hpool : v.poolAt s + VIRTUAL
      = assets + (rest + s.totalDebtScaled * v.indexAt s / WAD + VIRTUAL) := by
    rw [Vault.poolAt]
    omega
  rw [hpool, hleft] at hburn ⊢
  rw [hrest, Nat.add_sub_cancel_left, Nat.add_sub_cancel_left]
  generalize rest + s.totalDebtScaled * v.indexAt s / WAD + VIRTUAL = pool at *
  nlinarith only [hburn]

lemma openPosition_kept_iff (hL : Ledger s) {sender : Address} {shares borrow deadline : ℕ}
    (h : openPosition v s sender shares borrow deadline q received paid = .ok s') :
    LendersKept v s (.openPosition sender shares borrow deadline q received paid) s'
      ↔ v.indexAt s ∣ borrow * WAD := by
  obtain ⟨-, hcash, scaled, rest, hscaled, -, rfl⟩ := openPosition_ok h
  set s' : State := { s.put s.nextPositionId ⟨sender, shares, q.convertToAssets shares, scaled⟩
    (s.totalDebtScaled + scaled) (s.totalCash - borrow) rest (s.shareBalance + shares) with
    nextPositionId := s.nextPositionId + 1 } with hs'
  have hdebt : v.debtAt s' s.nextPositionId = scaled * v.indexAt s / WAD := by
    rw [Vault.debtAt, hs', put_positions_self]
    rfl
  constructor
  · intro hkept
    have hlent : borrow ≤ scaled * v.indexAt s / WAD := hdebt ▸ hkept.lent
    rw [Nat.le_div_iff_mul_le WAD_pos] at hlent
    have hle : scaled * v.indexAt s ≤ borrow * WAD := by
      rw [hscaled]
      exact Nat.div_mul_le_self _ _
    exact ⟨scaled, by rw [mul_comm (v.indexAt s)]; omega⟩
  · intro hdvd
    have hexact : scaled * v.indexAt s = borrow * WAD := by
      rw [hscaled]
      exact Nat.div_mul_cancel hdvd
    have hpool : v.poolAt s' = v.poolAt s := by
      change s.totalCash - borrow + (s.totalDebtScaled + scaled) * v.indexAt s / WAD
        = s.totalCash + s.totalDebtScaled * v.indexAt s / WAD
      rw [add_mul, hexact, Nat.add_mul_div_right _ _ WAD_pos]
      omega
    refine ⟨?_, ?_, fun id => ?_⟩
    · rw [hpool]
      exact le_rfl
    · rw [hdebt, hexact, Nat.mul_div_cancel _ WAD_pos]
      exact le_rfl
    · by_cases hid : id = s.nextPositionId
      · rw [hid, Vault.debtAt, hL.unopened _ le_rfl]
        simp [Position.empty]
      · have hsame : v.debtAt s' id = v.debtAt s id := by
          rw [Vault.debtAt, hs', put_positions_of_ne s _ _ _ _ _ hid]
          rfl
        rw [hsame]
        exact Nat.le_add_right _ _

/-! ### When the lenders keep what they have -/

lemma kept_iff (hL : Ledger s) (h : apply v s op = .ok s') (hw : NoWriteOff v s op) :
    LendersKept v s op s' ↔ RoundsFairly v s op := by
  cases op with
  | supply sender assets received => exact iff_of_true (supply_kept h) trivial
  | withdraw sender shares paid => exact iff_of_true (withdraw_kept h) trivial
  | openPosition sender shares borrow deadline q received paid => exact openPosition_kept_iff hL h
  | addCollateral id shares q received =>
    obtain ⟨-, -, rfl⟩ := addCollateral_ok h
    refine iff_of_true ⟨le_rfl, Nat.zero_le _, fun id' => ?_⟩ trivial
    by_cases hid : id' = id
    · subst hid
      rw [Vault.debtAt, Vault.debtAt, put_positions_self]
      exact Nat.le_add_right _ _
    · rw [Vault.debtAt, Vault.debtAt, put_positions_of_ne s _ _ _ _ _ hid]
      exact Nat.le_add_right _ _
  | amortize id q burned =>
    exact (amortizeDebt_reduces hL h).kept_iff (scaledUp_mul_index _ _ _) rfl
  | repay id assets received =>
    obtain ⟨a, ha, -, rfl⟩ := repay_ok (hL.debt_le id) h
    have hscaled : v.scaledUp s a ≤ (s.positions id).debtScaled :=
      scaledUp_le (ha ▸ Nat.min_le_right _ _)
    rw [RoundsFairly, ← ha]
    exact (Reduces.put _ _ (Nat.sub_add_cancel hscaled)
      (hscaled.trans (hL.debt_le id))).kept_iff (scaledUp_mul_index _ _ _) rfl
  | withdrawCollateral sender id shares deadline q burned q' paid =>
    obtain ⟨-, -, s₁, baseline, hamortize, -, -, -, rfl⟩ := withdrawCollateral_ok h
    have hr := (amortizeDebt_reduces hL hamortize).trans (reclaimed_reduces s₁ id shares baseline)
    rw [Nat.add_zero, Nat.add_zero] at hr
    exact hr.kept_iff (scaledUp_mul_index _ _ _) rfl
  | liquidate id repayAssets deadline q burned q' received paid =>
    obtain ⟨r, hr, he⟩ := liquidate_reduces hL hw h
    exact hr.kept_iff he rfl

/-- From a reachable state, an operation that writes nothing off leaves the lenders what they have
if and only if its roundings are absorbed. -/
theorem lendersKept_iff_roundsFairly (v : Vault) (calls : List Call) (op : Op) (s' : State)
    (h : apply v ((machine v).run (State.init v) calls) op = .ok s')
    (hw : NoWriteOff v ((machine v).run (State.init v) calls) op) :
    LendersKept v ((machine v).run (State.init v) calls) op s'
      ↔ RoundsFairly v ((machine v).run (State.init v) calls) op :=
  kept_iff (run_ledger v calls) h hw

/-- The vault `halfLtv` with the highest interest the constructor admits. -/
def steep : Vault :=
  { halfLtv with
    borrowRate := 1000000000000
    borrowRate_le := by norm_num }

/-- A thousand assets wait until the index is one and a half. -/
def steepPool : State :=
  (machine steep).run (State.init steep) [.op (.supply 1 1000 (some 1000)), .advance 500000]

/-- Somebody borrows `amount` against one share worth 1000. -/
def borrowing (amount : ℕ) : Op := .openPosition 2 1 amount 500000 (priced 1000) (some 1) true

/-- Borrowing one asset is recorded as no debt at all. -/
theorem borrowing_one_dilutes : ¬ ∀ s', apply steep steepPool (borrowing 1) = .ok s' →
    NoWriteOff steep steepPool (borrowing 1) → LendersKept steep steepPool (borrowing 1) s' := by
  intro h
  have hstep : (machine steep).step steepPool (.op (borrowing 1)) = _ :=
    Machine.step_of_isOk (by decide +kernel)
  have hlent := (h _ hstep trivial).lent
  revert hlent
  decide +kernel

/-- Three assets are exactly two units of scaled debt. -/
theorem lendersKept_iff_roundsFairly_three :
    LendersKept steep steepPool (borrowing 3)
      ((machine steep).exec steepPool (.op (borrowing 3))) := by
  have hstep : (machine steep).step steepPool (.op (borrowing 3)) = _ :=
    Machine.step_of_isOk (by decide +kernel)
  refine (lendersKept_iff_roundsFairly steep _ (borrowing 3) _ hstep trivial).mpr ?_
  rw [borrowing, RoundsFairly]
  decide +kernel

end Suwappu.AmortizingVault
