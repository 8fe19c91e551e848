import Suwappu.HyperCore.CoreRouter.Basic

/-!
# What the steps of a swap do

One lemma for each step: what a successful call established, the storage it left and the effects it
had. The fee is capped at one percent, so a reconciliation never fails.
-/

namespace Suwappu.CoreRouter

open Checked

variable {M : Market} {env : Env} {accepts : Effect → Bool} {s s' : State} {sw : Swap} {id : ℕ}
  {effects : List Effect} {orderPlaced : Bool}

@[simp] lemma setSwap_self (s : State) (id : ℕ) (sw : Swap) : (s.setSwap id sw).swaps id = sw :=
  Function.update_self ..

lemma setSwap_of_ne (s : State) {id j : ℕ} (sw : Swap) (h : j ≠ id) :
    (s.setSwap id sw).swaps j = s.swaps j := Function.update_of_ne h ..

lemma transfer_ok {e e' : Effect} {message : String} (h : transfer accepts e message = .ok e') :
    e' = e := by
  simp only [transfer, bind_ok_iff, pure_ok_iff] at h
  obtain ⟨-, -, rfl⟩ := h
  rfl

lemma free_lt (env : Env) (token : Uint64) : free env token < 2 ^ 64 := by
  have h := (env.spotBalance token).total.isLt
  simp only [free]
  split_ifs <;> omega

/-! ### Reconciliation -/

/-- The fee on proceeds. -/
def fee (M : Market) (outDelta : ℕ) : ℕ := outDelta * M.feeBps / 10000

lemma fee_le (M : Market) (d : ℕ) : fee M d ≤ d := by
  have h : d * M.feeBps ≤ d * 100 := Nat.mul_le_mul_left d M.feeBps_le
  unfold fee
  omega

lemma fee_lt (M : Market) {d : ℕ} (hd : 0 < d) : fee M d < d := by
  have h : d * M.feeBps ≤ d * 100 := Nat.mul_le_mul_left d M.feeBps_le
  unfold fee
  omega

lemma outDelta_lt (M : Market) (env : Env) (sw : Swap) (orderPlaced : Bool) :
    outDelta M env sw orderPlaced < 2 ^ 64 := by
  have h := free_lt env (M.tokenOut sw.baseForQuote)
  simp only [outDelta]
  split_ifs <;> omega

lemma inRemainder_le : inRemainder M env sw ≤ sw.coreIn := by
  simp only [inRemainder]
  split_ifs <;> omega

/-- The swap after its reconciliation. -/
def reconciled (M : Market) (env : Env) (sw : Swap) (orderPlaced : Bool) : Swap :=
  { sw with
    owedOut := outDelta M env sw orderPlaced - fee M (outDelta M env sw orderPlaced)
    owedIn := inRemainder M env sw
    evmOutSnapshot := env.balanceOf (M.erc20For (M.tokenOut sw.baseForQuote))
    evmInSnapshot := env.balanceOf (M.erc20For (M.tokenIn sw.baseForQuote))
    settledL1Block := env.l1BlockNumber.val
    status := .Bridging }

/-- The fee for the treasury and both legs on their way back. -/
def reconcileSends (M : Market) (env : Env) (sw : Swap) (orderPlaced : Bool) : List Effect :=
  (if fee M (outDelta M env sw orderPlaced) > 0 then
      [.spotSend M.treasury (M.tokenOut sw.baseForQuote) (fee M (outDelta M env sw orderPlaced))]
    else []) ++
    bridgeBack (M.tokenOut sw.baseForQuote) (reconciled M env sw orderPlaced).owedOut ++
    bridgeBack (M.tokenIn sw.baseForQuote) (reconciled M env sw orderPlaced).owedIn

/-- The order is resolved, and something came back from Core. -/
def Recoverable (M : Market) (env : Env) (sw : Swap) (orderPlaced : Bool) : Prop :=
  ¬ (env.spotBalance (M.tokenIn sw.baseForQuote)).hold > 0 ∧
    (outDelta M env sw orderPlaced ≠ 0 ∨ inRemainder M env sw ≠ 0)

instance : Decidable (Recoverable M env sw orderPlaced) := inferInstanceAs (Decidable (_ ∧ _))

lemma reconcile_cases (M : Market) (env : Env) (sw : Swap) (orderPlaced : Bool) :
    reconcile M env sw orderPlaced = .ok (.Held, sw, []) ∨
      reconcile M env sw orderPlaced = .ok (.Nothing, sw, []) ∨
      (Recoverable M env sw orderPlaced ∧ reconcile M env sw orderPlaced =
        .ok (.Reconciled, reconciled M env sw orderPlaced,
          reconcileSends M env sw orderPlaced)) := by
  unfold reconcile
  dsimp only
  split
  · exact .inl rfl
  rename_i hhold
  split
  · exact .inr (.inl rfl)
  rename_i hnot
  refine .inr (.inr ⟨⟨hhold, not_and_or.mp hnot⟩, ?_⟩)
  have hdelta := outDelta_lt M env sw orderPlaced
  have hfee := fee_le M (outDelta M env sw orderPlaced)
  have hbps : M.feeBps ≤ 100 := M.feeBps_le
  have hproduct : outDelta M env sw orderPlaced * M.feeBps < 2 ^ 256 :=
    (Nat.mul_le_mul hdelta.le hbps).trans_lt (by norm_num)
  have hmod : outDelta M env sw orderPlaced * M.feeBps / 10000 % 2 ^ 64 =
      fee M (outDelta M env sw orderPlaced) := Nat.mod_eq_of_lt (hfee.trans_lt hdelta)
  rw [show (mulU 256 (outDelta M env sw orderPlaced) M.feeBps : Except Error ℕ) = .ok _ from
    mulU_ok_iff.mpr ⟨hproduct, rfl⟩]
  simp only [ok_bind]
  rw [hmod, show (subU (outDelta M env sw orderPlaced) (fee M (outDelta M env sw orderPlaced)) :
    Except Error ℕ) = .ok _ from subU_ok_iff.mpr ⟨hfee, rfl⟩]
  rfl

lemma owed_pos (h : Recoverable M env sw orderPlaced) :
    0 < (reconciled M env sw orderPlaced).owedOut ∨
      0 < (reconciled M env sw orderPlaced).owedIn := by
  rcases h.2 with h | h
  · exact .inl (Nat.sub_pos_of_lt (fee_lt M (Nat.pos_of_ne_zero h)))
  · exact .inr (Nat.pos_of_ne_zero h)

/-! ### Successful calls -/

lemma fund_ok {next : ℕ} {user : Address} {baseForQuote : Bool}
    {evmAmountIn coreIn limitPx minCoreOut : ℕ}
    (h : fund M env accepts s id next user baseForQuote evmAmountIn coreIn limitPx minCoreOut =
      .ok (s', effects)) :
    ∃ sw, sw.user = user ∧ sw.status = .Funding ∧ sw.owedOut = 0 ∧ sw.owedIn = 0 ∧
      sw.initiatedL1Block = env.l1BlockNumber.val ∧
      s' = { nextSwapId := next, inFlight := id, swaps := Function.update s.swaps id sw } ∧
      effects = [.pull (M.erc20For (M.tokenIn baseForQuote)) user evmAmountIn,
        .pay (M.erc20For (M.tokenIn baseForQuote))
          (systemAddress (M.tokenIn baseForQuote)) evmAmountIn] := by
  simp only [fund, bind_ok_iff, pure_ok_iff, Prod.mk.injEq] at h
  obtain ⟨pull, hpull, bridge, hbridge, rfl, rfl⟩ := h
  obtain rfl := transfer_ok hpull
  obtain rfl := transfer_ok hbridge
  exact ⟨_, rfl, rfl, rfl, rfl, rfl, rfl, rfl⟩

lemma execute_ok (h : execute M env s id = .ok (s', effects)) :
    (s.swaps id).status = .Funding ∧
      s' = s.setSwap id { s.swaps id with
        outSnapshot := free env (M.tokenOut (s.swaps id).baseForQuote)
        executedL1Block := env.l1BlockNumber.val
        status := .Pending } ∧
      ∃ sz, effects = [.limitOrder M.orderAsset (!(s.swaps id).baseForQuote) (s.swaps id).limitPx sz
        false TIF_IOC id] := by
  simp only [execute, bind_ok_iff, guard_ok_iff, pure_ok_iff, Prod.mk.injEq] at h
  obtain ⟨-, hs, -, -, -, -, sz, -, rfl, rfl⟩ := h
  exact ⟨hs, rfl, sz, rfl⟩

lemma settle_ok (h : settle M env s id = .ok (s', effects)) :
    (s.swaps id).status = .Pending ∧ s.inFlight = id ∧ Recoverable M env (s.swaps id) true ∧
      s' = s.setSwap id (reconciled M env (s.swaps id) true) ∧
      effects = reconcileSends M env (s.swaps id) true := by
  simp only [settle, bind_ok_iff, guard_ok_iff, pure_ok_iff, Prod.mk.injEq] at h
  obtain ⟨-, hs, -, hlock, -, -, -, -, ⟨r, sw, effs⟩, hr, -, hheld, -, hnothing, rfl, rfl⟩ := h
  rcases reconcile_cases M env (s.swaps id) true with h | h | ⟨hrec, h⟩
  · rw [h] at hr
    cases hr
    exact absurd rfl hheld
  · rw [h] at hr
    cases hr
    exact absurd rfl hnothing
  · rw [h] at hr
    cases hr
    exact ⟨hs, hlock, hrec, rfl, rfl⟩

/-- A leg of a claim. -/
def payLeg (token user : Address) (amount : ℕ) : List Effect :=
  if amount > 0 then [.pay token user amount] else []

lemma payOut_ok {token user : Address} {amount : ℕ} {message : String}
    (h : payOut accepts token user amount message = .ok effects) :
    effects = payLeg token user amount := by
  unfold payOut at h
  unfold payLeg
  split at h
  · rename_i hpos
    simp only [bind_ok_iff, pure_ok_iff] at h
    obtain ⟨e, he, rfl⟩ := h
    rw [if_pos hpos, transfer_ok he]
  · rename_i hpos
    cases h
    rw [if_neg hpos]

lemma coreToEvm_ok_iff {amount extra evm : ℕ} :
    coreToEvm amount extra = .ok evm ↔
      10 ^ extra < 2 ^ 256 ∧ amount * 10 ^ extra < 2 ^ 256 ∧ amount * 10 ^ extra = evm := by
  simp only [coreToEvm, bind_ok_iff, powU_ok_iff, mulU_ok_iff]
  constructor
  · rintro ⟨scale, ⟨h, rfl⟩, h', rfl⟩
    exact ⟨h, h', rfl⟩
  · rintro ⟨h, h', rfl⟩
    exact ⟨_, ⟨h, rfl⟩, h', rfl⟩

/-- What a swap is owed in EVM units of its out-token and of its in-token. -/
def evmOut (M : Market) (sw : Swap) : ℕ := sw.owedOut * 10 ^ M.extraOut sw.baseForQuote

def evmIn (M : Market) (sw : Swap) : ℕ := sw.owedIn * 10 ^ M.extraIn sw.baseForQuote

lemma claim_ok (h : claim M env accepts s id = .ok (s', effects)) :
    (s.swaps id).status = .Bridging ∧
      (s.swaps id).evmOutSnapshot + evmOut M (s.swaps id) ≤
        env.balanceOf (M.erc20For (M.tokenOut (s.swaps id).baseForQuote)) ∧
      (s.swaps id).evmInSnapshot + evmIn M (s.swaps id) ≤
        env.balanceOf (M.erc20For (M.tokenIn (s.swaps id).baseForQuote)) ∧
      s' = { s.setSwap id { s.swaps id with status := .Done } with
        inFlight := if s.inFlight = id then 0 else s.inFlight } ∧
      effects =
        payLeg (M.erc20For (M.tokenOut (s.swaps id).baseForQuote)) (s.swaps id).user
          (evmOut M (s.swaps id)) ++
        payLeg (M.erc20For (M.tokenIn (s.swaps id).baseForQuote)) (s.swaps id).user
          (evmIn M (s.swaps id)) := by
  simp only [claim, bind_ok_iff, guard_ok_iff, coreToEvm_ok_iff, addU_ok_iff, pure_ok_iff,
    Prod.mk.injEq] at h
  obtain ⟨-, hs, -, -, _, ⟨-, -, rfl⟩, _, ⟨-, -, rfl⟩, _, ⟨-, rfl⟩, -, hout, _, ⟨-, rfl⟩, -, hin,
    out, hpo, back, hpb, rfl, rfl⟩ := h
  refine ⟨hs, not_lt.mp hout, not_lt.mp hin, rfl, ?_⟩
  rw [payOut_ok hpo, payOut_ok hpb, evmOut, evmIn]

lemma retry_ok (h : retry M env s id = .ok (s', effects)) :
    (s.swaps id).status = .Bridging ∧ (s.inFlight = 0 ∨ s.inFlight = id) ∧
      s' = s.setSwap id { s.swaps id with retriedL1Block := env.l1BlockNumber.val } ∧
      ∃ out back, effects = bridgeBack (M.tokenOut (s.swaps id).baseForQuote) out ++
        bridgeBack (M.tokenIn (s.swaps id).baseForQuote) back := by
  simp only [retry, bind_ok_iff, guard_ok_iff, pure_ok_iff, Prod.mk.injEq] at h
  obtain ⟨-, hs, -, hlock, -, -, -, -, rfl, rfl⟩ := h
  exact ⟨hs, by tauto, rfl, _, _, rfl⟩

lemma forceRelease_ok (h : forceRelease M env s id = .ok (s', effects)) :
    s.inFlight = id ∧
      (((s.swaps id).status = .Bridging ∧ s' = { s with inFlight := 0 } ∧ effects = []) ∨
        (((s.swaps id).status = .Funding ∨ (s.swaps id).status = .Pending) ∧
          ((Recoverable M env (s.swaps id) ((s.swaps id).status = .Pending) ∧
              s' = s.setSwap id (reconciled M env (s.swaps id) ((s.swaps id).status = .Pending)) ∧
              effects = reconcileSends M env (s.swaps id) ((s.swaps id).status = .Pending)) ∨
            (s' = { s.setSwap id { s.swaps id with status := .Aborted } with inFlight := 0 } ∧
              effects = [])))) := by
  unfold forceRelease at h
  dsimp only at h
  simp only [bind_ok_iff, guard_ok_iff] at h
  obtain ⟨-, hlock, h⟩ := h
  refine ⟨hlock, ?_⟩
  split at h
  · rename_i hs
    simp only [bind_ok_iff, pure_ok_iff, Prod.mk.injEq] at h
    obtain ⟨-, -, -, -, rfl, rfl⟩ := h
    exact .inl ⟨hs, rfl, rfl⟩
  · simp only [bind_ok_iff, guard_ok_iff] at h
    obtain ⟨-, hs, -, -, -, -, ⟨r, sw', effs⟩, hr, h⟩ := h
    have hopen : (s.swaps id).status = .Funding ∨ (s.swaps id).status = .Pending := by tauto
    refine .inr ⟨hopen, ?_⟩
    rcases reconcile_cases M env (s.swaps id) ((s.swaps id).status = .Pending) with
      heq | heq | ⟨hrec, heq⟩
    · rw [heq] at hr
      cases hr
      cases h
      exact .inr ⟨rfl, rfl⟩
    · rw [heq] at hr
      cases hr
      cases h
      exact .inr ⟨rfl, rfl⟩
    · rw [heq] at hr
      cases hr
      cases h
      exact .inl ⟨hrec, rfl, rfl⟩

end Suwappu.CoreRouter
