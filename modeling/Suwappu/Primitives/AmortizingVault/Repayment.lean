import Suwappu.Primitives.AmortizingVault.BadDebt

/-!
# Repaying in full

The debt of a position is stored scaled. What `debtOf` rounds down, `_reduceDebt` rounds up, and an
index of at least one makes the two meet: who repays what he owes owes nothing, and his collateral
is free.
-/

namespace Suwappu.AmortizingVault

open Checked Rounding

variable {v : Vault} {s s' : State} {id assets d : ℕ} {q q' : Quote} {burned received : Option ℕ}
  {paid : Bool}

/-! ### Cost bases are words -/

def Based (s : State) : Prop := ∀ id, (s.positions id).baselineAssets < 2 ^ 256

lemma Based.update (h : Based s) {p : Position}
    (hpos : s'.positions = Function.update s.positions id p) (hp : p.baselineAssets < 2 ^ 256) :
    Based s' := by
  intro id'
  rw [hpos]
  by_cases hid : id' = id
  · subst hid
    rwa [Function.update_self]
  · rw [Function.update_of_ne hid]
    exact h id'

lemma Based.reduceDebt (h : Based s) (hreduce : reduceDebt v s id assets = .ok s') : Based s' := by
  simp only [AmortizingVault.reduceDebt, bind_ok_iff, subU_ok_iff, pure_ok_iff] at hreduce
  obtain ⟨_, -, _, -, _, -, rfl⟩ := hreduce
  exact h.update rfl (h id)

lemma Based.amortizeDebt (h : Based s) (hamortize : amortizeDebt v s id q burned = .ok s') :
    Based s' := by
  simp only [AmortizingVault.amortizeDebt, bind_ok_iff] at hamortize
  obtain ⟨d, -, hamortize⟩ := hamortize
  split at hamortize
  · rw [pure_ok_iff] at hamortize
    exact hamortize ▸ h
  · cases burned with
    | none => simp at hamortize
    | some b =>
      simp only [bind_ok_iff, guard_ok_iff, exists_const, subU_ok_iff, addU_ok_iff,
        pure_ok_iff] at hamortize
      obtain ⟨-, _, -, s₁, hreduce, _, -, rfl⟩ := hamortize
      intro id'
      refine Based.reduceDebt ?_ hreduce id'
      exact h.update rfl (h id)

lemma scaleBaseline_lt {p : Position} {remaining baseline : ℕ}
    (h : scaleBaseline p remaining = .ok baseline) : baseline < 2 ^ 256 := by
  rw [scaleBaseline] at h
  split at h
  · rw [pure_ok_iff] at h
    rw [← h]
    exact Nat.two_pow_pos 256
  · obtain ⟨-, -, hlt, rfl⟩ := mulDiv_ok_iff.mp h
    exact hlt

lemma Based.openPosition (h : Based s) {sender : Address} {shares borrow deadline : ℕ}
    (hopen : openPosition v s sender shares borrow deadline q received paid = .ok s') :
    Based s' := by
  have hopened := hopen
  simp only [AmortizingVault.openPosition, bind_ok_iff, guard_ok_iff, exists_const,
    mulU_ok_iff] at hopened
  obtain ⟨-, -, _, -, _, ⟨hvalue, -⟩, -⟩ := hopened
  obtain ⟨-, -, scaled, rest, -, -, rfl⟩ := openPosition_ok hopen
  refine h.update rfl ?_
  exact (Nat.le_mul_of_pos_right _ v.maxLtv_pos).trans_lt hvalue

lemma Based.addCollateral (h : Based s) {shares : ℕ}
    (hadd : addCollateral s id shares q received = .ok s') : Based s' := by
  have hadded := hadd
  simp only [AmortizingVault.addCollateral, bind_ok_iff, guard_ok_iff, exists_const,
    addU_ok_iff] at hadded
  obtain ⟨-, -, _, -, _, ⟨hbaseline, -⟩, -⟩ := hadded
  obtain ⟨-, -, rfl⟩ := addCollateral_ok hadd
  exact h.update rfl hbaseline

lemma Based.repay (h : Based s) (hrepay : repay v s id assets received = .ok s') : Based s' := by
  simp only [AmortizingVault.repay, bind_ok_iff, guard_ok_iff, exists_const, addU_ok_iff,
    pure_ok_iff] at hrepay
  obtain ⟨-, _, -, -, s₁, hreduce, _, -, _, -, rfl⟩ := hrepay
  have h₁ := h.reduceDebt hreduce
  exact h₁

lemma Based.withdrawCollateral (h : Based s) {sender : Address} {shares deadline : ℕ}
    (hwithdraw : withdrawCollateral v s sender id shares deadline q burned q' paid = .ok s') :
    Based s' := by
  simp only [AmortizingVault.withdrawCollateral, bind_ok_iff, guard_ok_iff,
    exists_const] at hwithdraw
  obtain ⟨-, -, -, s₁, hamortize, _, -, _, -, hwithdraw⟩ := hwithdraw
  have h₁ := h.amortizeDebt hamortize
  split at hwithdraw <;>
    simp only [bind_ok_iff, guard_ok_iff, exists_const, mulU_ok_iff, pure_ok_iff] at hwithdraw
  · obtain ⟨_, -, _, -, -, baseline, hscale, _, -, rfl⟩ := hwithdraw
    exact h₁.update rfl (scaleBaseline_lt hscale)
  · obtain ⟨baseline, hscale, _, -, rfl⟩ := hwithdraw
    exact h₁.update rfl (scaleBaseline_lt hscale)

lemma Based.seize (h : Based s) {a sh : ℕ}
    (hseize : seize v s id assets q burned q' = .ok (s', a, sh)) : Based s' := by
  simp only [AmortizingVault.seize, bind_ok_iff, guard_ok_iff, exists_const, mulU_ok_iff,
    addU_ok_iff, pure_ok_iff, Prod.mk.injEq] at hseize
  obtain ⟨s₁, hamortize, _, -, -, _, -, _, -, -, -, _, -, _, -, s₂, hreduce, _, -, _, -,
    baseline, hscale, rfl, -, -⟩ := hseize
  exact ((h.amortizeDebt hamortize).reduceDebt hreduce).update rfl (scaleBaseline_lt hscale)

lemma Based.writeOff (h : Based s) (hwrite : writeOff v s id = .ok s') : Based s' := by
  unfold AmortizingVault.writeOff at hwrite
  dsimp only at hwrite
  split at hwrite
  · simp only [bind_ok_iff, pure_ok_iff] at hwrite
    obtain ⟨_, -, rfl⟩ := hwrite
    exact h.update rfl (h id)
  · rw [pure_ok_iff] at hwrite
    exact hwrite ▸ h

lemma Based.liquidate (h : Based s) {deadline : ℕ}
    (hliquidate : liquidate v s id assets deadline q burned q' received paid = .ok s') :
    Based s' := by
  simp only [AmortizingVault.liquidate, bind_ok_iff, guard_ok_iff, exists_const,
    pure_ok_iff] at hliquidate
  obtain ⟨-, ⟨s₂, a, sh⟩, hseize, s₃, hwrite, _, -, _, -, rfl⟩ := hliquidate
  have h₃ := (h.seize hseize).writeOff hwrite
  exact h₃

lemma Based.apply (h : Based s) {op : Op} (happly : apply v s op = .ok s') : Based s' := by
  cases op with
  | supply sender assets received =>
    obtain ⟨_, -, rfl⟩ := supply_ok happly
    exact h
  | withdraw sender shares paid =>
    obtain ⟨_, -, -, -, -, -, rfl⟩ := withdraw_ok happly
    exact h
  | openPosition => exact h.openPosition happly
  | addCollateral => exact h.addCollateral happly
  | amortize => exact h.amortizeDebt happly
  | repay => exact h.repay happly
  | withdrawCollateral => exact h.withdrawCollateral happly
  | liquidate => exact h.liquidate happly

lemma Based.step (h : Based s) {call : Call} (hstep : step v s call = .ok s') : Based s' := by
  cases call with
  | op => exact h.apply hstep
  | donateAssets amount =>
    simp only [AmortizingVault.step, pure_ok_iff] at hstep
    exact hstep ▸ h
  | donateShares amount =>
    simp only [AmortizingVault.step, pure_ok_iff] at hstep
    exact hstep ▸ h
  | advance time =>
    simp only [AmortizingVault.step, bind_ok_iff, guard_ok_iff, exists_const, pure_ok_iff] at hstep
    obtain ⟨-, rfl⟩ := hstep
    exact h

lemma run_based (v : Vault) (calls : List Call) :
    Based ((machine v).run (State.init v) calls) :=
  Machine.run_induction (M := machine v) (fun _ _ _ hI h => hI.step h)
    (fun _ => Nat.two_pow_pos 256) calls

/-! ### Scaling there and back -/

lemma le_indexAt (v : Vault) (s : State) : WAD ≤ v.indexAt s := Nat.le_add_right _ _

/-- At an index of at least one, a scaled debt is worth nothing only when it is nothing. -/
lemma scaled_worth_zero_iff {scaled i w : ℕ} (hw : 0 < w) (hi : w ≤ i) :
    scaled * i / w = 0 ↔ scaled = 0 := by
  constructor
  · intro h
    have hscaled := Rounding.ceilDiv_div_mul scaled hw hi
    rw [h, zero_mul] at hscaled
    exact hscaled.symm
  · intro h
    rw [h, zero_mul, Nat.zero_div]

/-- What is owed, scaled back up, is all of the scaled debt. -/
lemma scaledUp_debtAt (v : Vault) (s : State) (id : ℕ) :
    v.scaledUp s (v.debtAt s id) = (s.positions id).debtScaled :=
  ceilDiv_div_mul _ WAD_pos (le_indexAt v s)

lemma debtOf_ok_iff : debtOf v s id = .ok d ↔ index v s = .ok (v.indexAt s) ∧
    v.indexAt s < 2 ^ 256 ∧ (s.positions id).debtScaled < 2 ^ 256 ∧ d < 2 ^ 256 ∧
      d = v.debtAt s id := by
  simp only [debtOf, bind_ok_iff, mulDiv_ok_iff]
  constructor
  · rintro ⟨i, hi, ⟨hscaled, hindex, -⟩, -, hlt, rfl⟩
    obtain rfl := index_ok hi
    exact ⟨hi, hindex, hscaled, hlt, rfl⟩
  · rintro ⟨hi, hindex, hscaled, hlt, rfl⟩
    exact ⟨_, hi, ⟨hscaled, hindex, by decide⟩, WAD_pos, hlt, rfl⟩

/-! ### Paying all that is owed -/

lemma mulDivUp_of_lt {x y m : ℕ} (hx : x < 2 ^ 256) (hy : y < 2 ^ 256) (hm : 0 < m)
    (hm' : m < 2 ^ 256) (h : ceilDiv (x * y) m < 2 ^ 256) :
    mulDivUp x y m = .ok (ceilDiv (x * y) m) := by
  have hdiv : (mulDiv x y m : Except Error ℕ) = .ok (x * y / m) :=
    mulDiv_ok_iff.mpr ⟨⟨hx, hy, hm'⟩, hm, (div_le_ceilDiv _ hm).trans_lt h, rfl⟩
  have hmod : WideWord.mulmod x y m = x * y % m := rfl
  rw [ceilDiv_eq _ hm] at h ⊢
  rw [mulDivUp, hdiv]
  change (if WideWord.mulmod x y m ≠ 0 then addU 256 (x * y / m) 1 else pure (x * y / m)) = _
  rw [hmod]
  split
  · rename_i hne
    rw [if_pos hne] at h
    exact addU_ok_iff.mpr ⟨h, rfl⟩
  · rfl

lemma reduceDebt_debt (hd : debtOf v s id = .ok d) :
    ∃ s', reduceDebt v s id d = .ok s' ∧ s'.totalCash = s.totalCash := by
  obtain ⟨hindex, hlt, hscaled, hword, rfl⟩ := debtOf_ok_iff.mp hd
  have hup : mulDivUp (v.debtAt s id) WAD (v.indexAt s) = .ok (s.positions id).debtScaled := by
    have hall : ceilDiv (v.debtAt s id * WAD) (v.indexAt s) = (s.positions id).debtScaled :=
      scaledUp_debtAt v s id
    rw [mulDivUp_of_lt hword (by decide) (v.indexAt_pos s) hlt (by rwa [hall]), hall]
  simp only [reduceDebt, bind_ok_iff, subU_ok_iff, pure_ok_iff]
  refine ⟨_, ⟨_, hindex, _, hup, _, ⟨?_, rfl⟩, rfl⟩, rfl⟩
  rw [if_neg (lt_irrefl _)]

/-- Offering no less than the debt is accepted as soon as the token delivers the debt. -/
lemma repay_succeeds (hd : debtOf v s id = .ok d) (hne : d ≠ 0) (hassets : d ≤ assets)
    (hcash : s.totalCash + d < 2 ^ 256) : ∃ s', repay v s id assets (some d) = .ok s' := by
  obtain ⟨s₁, hreduce, hsame⟩ := reduceDebt_debt hd
  have hcap : (if assets > d then d else assets) = d := by
    split <;> omega
  simp only [repay, bind_ok_iff, guard_ok_iff, exists_const, addU_ok_iff, pullExact_ok_iff,
    pure_ok_iff]
  refine ⟨_, by omega, d, hd, hne, s₁, ?_, _, ⟨?_, rfl⟩, ?_, rfl⟩
  · rw [hcap]
    exact hreduce
  · rw [hcap, hsame]
    exact hcash
  · rw [hcap]

lemma repay_takes (hd : debtOf v s id = .ok d) (hassets : d ≤ assets)
    (h : repay v s id assets received = .ok s') : received = some d := by
  simp only [repay, bind_ok_iff, guard_ok_iff, exists_const, pullExact_ok_iff] at h
  obtain ⟨-, d', hd', -, _, -, _, -, hreceived, -⟩ := h
  obtain rfl : d = d' := Except.ok.inj (hd.symm.trans hd')
  rw [hreceived]
  congr 1
  split <;> omega

/-- A repayment of no less than the debt leaves nothing owed and moves just the debt. -/
lemma repay_all (htotal : (s.positions id).debtScaled ≤ s.totalDebtScaled)
    (hd : debtOf v s id = .ok d) (hassets : d ≤ assets)
    (h : repay v s id assets received = .ok s') :
    s' = s.put id { s.positions id with debtScaled := 0 }
      (s.totalDebtScaled - (s.positions id).debtScaled) (s.totalCash + d) (s.assetBalance + d)
      s.shareBalance := by
  obtain rfl := debtOf_ok hd
  obtain ⟨a, ha, -, rfl⟩ := repay_ok htotal h
  obtain rfl : a = v.debtAt s id := by omega
  rw [scaledUp_debtAt, Nat.sub_self]

/-! ### Taking the collateral back -/

/-- The owner can withdraw all of his collateral, whatever the ERC-4626 vault answers, as long as
the share token pays out. -/
def Withdrawable (v : Vault) (s : State) (id : ℕ) : Prop :=
  (s.positions id).shares ≠ 0 → s.shareBalance < 2 ^ 256 → ∀ deadline q burned q',
    s.now.val ≤ deadline → ∃ s', withdrawCollateral v s (s.positions id).owner id
      (s.positions id).shares deadline q burned q' true = .ok s' ∧ (s'.positions id).shares = 0

lemma amortizeDebt_of_debtless (hd : debtOf v s id = .ok 0) :
    amortizeDebt v s id q burned = .ok s := by
  have hyield : yieldOf q (s.positions id) 0 = 0 := Nat.le_zero.mp (yieldOf_le q _ 0)
  simp only [amortizeDebt, bind_ok_iff]
  refine ⟨0, hd, ?_⟩
  rw [if_pos hyield, pure_ok_iff]

lemma withdrawable (hL : Ledger s) (hB : Based s) (hd : debtOf v s id = .ok 0) :
    Withdrawable v s id := by
  intro hshares hword deadline q burned q' hdeadline
  have hle : (s.positions id).shares ≤ s.shareBalance :=
    (Finset.single_le_sum (f := fun id => (s.positions id).shares) (fun _ _ => Nat.zero_le _)
      (Finset.mem_range.mpr (hL.lt_next_of_shares hshares))).trans hL.collateral
  have hscale : scaleBaseline (s.positions id) 0 = .ok 0 := by
    rw [scaleBaseline, if_neg hshares]
    refine mulDiv_ok_iff.mpr ⟨⟨hB id, Nat.two_pow_pos 256, by omega⟩, by omega, ?_, ?_⟩ <;>
      rw [mul_zero, Nat.zero_div]
    exact Nat.two_pow_pos 256
  refine ⟨s.reclaimed id (s.positions id).shares 0, ?_, ?_⟩
  · simp only [withdrawCollateral, bind_ok_iff, guard_ok_iff, exists_const, subU_ok_iff]
    refine ⟨hdeadline, trivial, by omega, s, amortizeDebt_of_debtless hd, 0, hd, 0,
      ⟨le_rfl, Nat.sub_self _⟩, ?_⟩
    rw [if_neg (lt_irrefl 0)]
    simp only [bind_ok_iff, push_ok_iff, pure_ok_iff]
    refine ⟨0, hscale, _, ⟨⟨trivial, hle⟩, rfl⟩, ?_⟩
    rw [State.reclaimed, Nat.sub_self]
    rfl
  · rw [State.reclaimed, put_positions_self]
    exact Nat.sub_self _

/-- In every reachable state, who owes nothing can take his collateral, and a repayment of no less
than the debt takes just the debt, leaves none of it, and frees the collateral. -/
theorem repay_clears (v : Vault) (calls : List Call) :
    let s := (machine v).run (State.init v) calls
    (∀ scaled i d, WAD ≤ i → (mulDiv scaled i WAD : Except Error ℕ) = .ok d →
      (d = 0 ↔ scaled = 0)) ∧
    ∀ id d, debtOf v s id = .ok d →
      (d = 0 ↔ (s.positions id).debtScaled = 0) ∧
      (d = 0 → Withdrawable v s id) ∧
      ∀ assets, d ≤ assets →
        (d ≠ 0 → s.totalCash + d < 2 ^ 256 → ∃ s', repay v s id assets (some d) = .ok s') ∧
        ∀ received s', repay v s id assets received = .ok s' →
          received = some d ∧ s'.assetBalance = s.assetBalance + d ∧
            s'.totalCash = s.totalCash + d ∧ (s'.positions id).debtScaled = 0 ∧
            (s'.positions id).shares = (s.positions id).shares ∧ Withdrawable v s' id := by
  intro s
  have hL : Ledger s := run_ledger v calls
  have hB : Based s := run_based v calls
  refine ⟨fun scaled i d hi h => ?_, fun id d hd => ⟨?_, ?_, fun assets hassets => ⟨?_, ?_⟩⟩⟩
  · obtain ⟨-, -, -, rfl⟩ := mulDiv_ok_iff.mp h
    exact scaled_worth_zero_iff WAD_pos hi
  · rw [debtOf_ok hd]
    exact debtAt_eq_zero
  · rintro rfl
    exact withdrawable hL hB hd
  · exact fun hne hcash => repay_succeeds hd hne hassets hcash
  · intro received s' hrepay
    have hL' := hL.repay hrepay
    have hB' := hB.repay hrepay
    have hreceived := repay_takes hd hassets hrepay
    obtain rfl := repay_all (hL.debt_le id) hd hassets hrepay
    have hclear : debtOf v (s.put id { s.positions id with debtScaled := 0 }
        (s.totalDebtScaled - (s.positions id).debtScaled) (s.totalCash + d) (s.assetBalance + d)
        s.shareBalance) id = .ok 0 := by
      obtain ⟨hindex, hlt, -⟩ := debtOf_ok_iff.mp hd
      refine debtOf_ok_iff.mpr ⟨hindex, hlt, ?_, Nat.two_pow_pos 256, (debtAt_eq_zero.mpr ?_).symm⟩
      · rw [put_positions_self]
        exact Nat.two_pow_pos 256
      · rw [put_positions_self]
    refine ⟨hreceived, rfl, rfl, ?_, ?_, withdrawable hL' hB' hclear⟩ <;> rw [put_positions_self]

/-- A vault with ten percent of simple interest in a thousand seconds. -/
def lending : Vault :=
  { halfLtv with
    borrowRate := 10 ^ 12
    liqBonus := 100000000000000000
    borrowRate_le := by norm_num
    liqBonus_le := by norm_num }

/-- A debt of 500 drawn at the start, 1 more after 2000 seconds. -/
def drawn : List Call :=
  [.op (.supply 1 1000 (some 1000)), .op (.openPosition 2 7 500 0 (priced 1000) (some 7) true),
    .advance 2000]

/-- Of the 600 offered 501 are taken, and the seven shares are free. -/
theorem repay_clears_drawn : ∃ s, repay lending ((machine lending).run (State.init lending) drawn)
    0 600 (some 501) = .ok s ∧ (s.positions 0).debtScaled = 0 ∧ (s.positions 0).shares = 7 ∧
      Withdrawable lending s 0 := by
  obtain ⟨-, h⟩ := repay_clears lending drawn
  obtain ⟨-, -, hrepay⟩ := h 0 501 (by decide +kernel)
  obtain ⟨hok, hclears⟩ := hrepay 600 (by norm_num)
  obtain ⟨s, hs⟩ := hok (by norm_num) (by decide +kernel)
  obtain ⟨-, -, -, hzero, hshares, hfree⟩ := hclears _ s hs
  exact ⟨s, hs, hzero, hshares.trans (by decide +kernel), hfree⟩

end Suwappu.AmortizingVault
