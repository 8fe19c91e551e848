import Suwappu.HyperCore.CoreRouter.MultiUser

/-!
# The router of one user

`SuwappuCoreRouterBoundUserImpl`, run by a clone that is bound to one user and one factory. A run
records every effect beside the call it came from, so that what left the user and where it went can
be read off the record. `Bound` is what every call keeps, whoever makes it.
-/

namespace Suwappu.CoreRouter.BoundUser

open Checked
open MultiUser (Op Call)

/-- The addresses in the bytecode of a clone. -/
structure Clone where
  user : Address
  factory : Address

variable {M : Market} {B : Clone} {env : Env} {accepts : Effect → Bool} {s s' : State}
  {sw : Swap} {id : ℕ} {effects : List Effect}

/-- Pays for a swap from the bound user, at the wish of that user or of the factory. -/
def initiate (M : Market) (B : Clone) (env : Env) (accepts : Effect → Bool) (s : State)
    (baseForQuote : Bool) (evmAmountIn : Uint256) (limitPx minCoreOut : Uint64) :
    Except Error (State × List Effect) := do
  guard (s.inFlight = 0) .Locked
  guard (evmAmountIn ≠ 0 ∧ minCoreOut ≠ 0 ∧ limitPx ≠ 0) .ZeroAmount
  guard (¬ (env.sender ≠ B.user ∧ env.sender ≠ B.factory)) .NotAuthorized
  let coreIn ← evmToCore evmAmountIn.val (M.extraIn baseForQuote)
  let _ ← orderSz M baseForQuote coreIn limitPx.val
  let id ← addU 128 s.nextSwapId 1
  fund M env accepts s id id B.user baseForQuote evmAmountIn.val coreIn limitPx.val minCoreOut.val

/-- The storage of a fresh clone. -/
def init : State := ⟨0, 0, fun _ => .empty⟩

def apply (M : Market) (B : Clone) (s : State) (c : Call) : Except Error (State × List Effect) :=
  match c.op with
  | .initiate baseForQuote evmAmountIn limitPx minCoreOut =>
    initiate M B c.env c.accepts s baseForQuote evmAmountIn limitPx minCoreOut
  | .execute id      => execute M c.env s id
  | .settle id       => settle M c.env s id
  | .claim id        => claim M c.env c.accepts s id
  | .retry id        => retry M c.env s id
  | .forceRelease id => forceRelease M c.env s id

lemma initiate_ok {baseForQuote : Bool} {evmAmountIn : Uint256} {limitPx minCoreOut : Uint64}
    (h : initiate M B env accepts s baseForQuote evmAmountIn limitPx minCoreOut =
      .ok (s', effects)) :
    (env.sender = B.user ∨ env.sender = B.factory) ∧ ∃ sw, sw.user = B.user ∧
      sw.status = .Funding ∧ sw.owedOut = 0 ∧ sw.owedIn = 0 ∧
      s' = ⟨s.nextSwapId + 1, s.nextSwapId + 1,
        Function.update s.swaps (s.nextSwapId + 1) sw⟩ ∧
      effects = [.pull (M.erc20For (M.tokenIn baseForQuote)) B.user evmAmountIn.val,
        .pay (M.erc20For (M.tokenIn baseForQuote))
          (systemAddress (M.tokenIn baseForQuote)) evmAmountIn.val] := by
  simp only [initiate, bind_ok_iff, guard_ok_iff, addU_ok_iff] at h
  obtain ⟨-, -, -, -, -, hsender, coreIn, -, -, -, id, ⟨-, rfl⟩, h⟩ := h
  obtain ⟨sw, huser, hs, howedOut, howedIn, -, rfl, rfl⟩ := fund_ok h
  exact ⟨by tauto, sw, huser, hs, howedOut, howedIn, rfl, rfl⟩

/-! ### The record of a run -/

/-- An effect of a call, and the swap the call was about. -/
structure Entry where
  call : Call
  swap : ℕ
  effect : Effect

/-- The storage, every effect so far, and what each swap was measured to have brought in. -/
structure World where
  state : State
  log : List Entry
  proceeds : ℕ → ℕ

/-- The swap a call is about. -/
def swapOf (s : State) : Op → ℕ
  | .initiate _ _ _ _ => s.nextSwapId + 1
  | .execute id       => id
  | .settle id        => id
  | .claim id         => id
  | .retry id         => id
  | .forceRelease id  => id

/-- The growth of the out-token balance that a reconciliation of the swap found. -/
def measured (M : Market) (env : Env) (sw sw' : Swap) : ℕ :=
  if sw.status ≠ .Bridging ∧ sw'.status = .Bridging then outDelta M env sw (sw.status = .Pending)
  else 0

def World.record (M : Market) (w : World) (c : Call) (s' : State) (effects : List Effect) :
    World where
  state := s'
  log := w.log ++ effects.map (⟨c, swapOf w.state c.op, ·⟩)
  proceeds id := w.proceeds id + measured M c.env (w.state.swaps id) (s'.swaps id)

def step (M : Market) (B : Clone) (w : World) (c : Call) : Except Error World := do
  let (s', effects) ← apply M B w.state c
  return w.record M c s' effects

/-- A clone as a machine: a reverted call changes nothing and has no effect. -/
def machine (M : Market) (B : Clone) : Machine World Call Error := ⟨step M B⟩

def World.init : World := ⟨BoundUser.init, [], fun _ => 0⟩

/-- What an effect sends to the treasury rather than back to the EVM. -/
def toTreasury (M : Market) : Effect → ℕ
  | .spotSend dst token amount =>
    if dst = M.treasury ∧ dst ≠ systemAddress token then amount else 0
  | _ => 0

def treasuryTotal (M : Market) (log : List Entry) (id : ℕ) : ℕ :=
  ((log.filter (·.swap = id)).map (toTreasury M ·.effect)).sum

/-! ### Directions -/

/-- Where funds may come from and go to. -/
def Allowed (M : Market) (B : Clone) (e : Entry) : Prop :=
  match e.effect with
  | .pull _ src _ => src = B.user ∧ (e.call.env.sender = B.user ∨ e.call.env.sender = B.factory) ∧
      ∃ baseForQuote evmAmountIn limitPx minCoreOut,
        e.call.op = .initiate baseForQuote evmAmountIn limitPx minCoreOut
  | .pay token dst _ => dst = B.user ∨ ∃ baseForQuote,
      token = M.erc20For (M.tokenIn baseForQuote) ∧ dst = systemAddress (M.tokenIn baseForQuote)
  | .spotSend dst token _ => dst = systemAddress token ∨ dst = M.treasury
  | .limitOrder _ _ _ _ _ _ _ => True

/-- How the proceeds of a swap are shared, once they are measured. -/
structure Shares (M : Market) (sw : Swap) (proceeds toTreasury : ℕ) : Prop where
  unsettled : sw.status ≠ .Bridging → sw.status ≠ .Done → proceeds = 0 ∧ toTreasury = 0
  treasury : toTreasury ≤ fee M proceeds
  owedOut : sw.owedOut + fee M proceeds = proceeds
  owedIn : sw.owedIn ≤ sw.coreIn

/-- What every call keeps. -/
structure Bound (M : Market) (B : Clone) (w : World) : Prop where
  unused : ∀ id, w.state.nextSwapId < id → (w.state.swaps id).status = .None
  owner : ∀ id, (w.state.swaps id).status ≠ .None → (w.state.swaps id).user = B.user
  shares : ∀ id, Shares M (w.state.swaps id) (w.proceeds id) (treasuryTotal M w.log id)
  allowed : ∀ e ∈ w.log, Allowed M B e

lemma treasuryTotal_append (M : Market) (log log' : List Entry) (id : ℕ) :
    treasuryTotal M (log ++ log') id = treasuryTotal M log id + treasuryTotal M log' id := by
  simp [treasuryTotal]

lemma treasuryTotal_entries (M : Market) (c : Call) (id : ℕ) (effects : List Effect) :
    treasuryTotal M (effects.map (⟨c, id, ·⟩)) id = (effects.map (toTreasury M)).sum := by
  simp [treasuryTotal, List.filter_map, Function.comp_def]

lemma treasuryTotal_entries_ne (M : Market) (c : Call) {id j : ℕ} (effects : List Effect)
    (h : j ≠ id) : treasuryTotal M (effects.map (⟨c, id, ·⟩)) j = 0 := by
  simp [treasuryTotal, List.filter_map, Function.comp_def, h.symm]

lemma measured_self (M : Market) (env : Env) (sw : Swap) : measured M env sw sw = 0 := by
  rw [measured, if_neg (fun h => h.1 h.2)]

/-- A call rewrites one swap and records its effects under it. -/
lemma Bound.update {w : World} (hB : Bound M B w) {c : Call} {next lock : ℕ}
    (hswap : swapOf w.state c.op = id) (hnext : w.state.nextSwapId ≤ next) (hid : id ≤ next)
    (huser : sw.user = B.user)
    (hshares : Shares M sw (w.proceeds id + measured M c.env (w.state.swaps id) sw)
      (treasuryTotal M w.log id + (effects.map (toTreasury M)).sum))
    (hall : ∀ e ∈ effects, Allowed M B ⟨c, id, e⟩) :
    Bound M B (w.record M c ⟨next, lock, Function.update w.state.swaps id sw⟩ effects) where
  unused j hj := by
    dsimp only [World.record] at hj ⊢
    rw [Function.update_of_ne (by omega)]
    exact hB.unused j (by omega)
  owner j hj := by
    dsimp only [World.record] at hj ⊢
    by_cases h : j = id
    · rw [h, Function.update_self]
      exact huser
    · rw [Function.update_of_ne h] at hj ⊢
      exact hB.owner j hj
  shares j := by
    dsimp only [World.record]
    rw [hswap, treasuryTotal_append]
    by_cases h : j = id
    · rw [h, Function.update_self, treasuryTotal_entries]
      exact hshares
    · rw [Function.update_of_ne h, measured_self, treasuryTotal_entries_ne M c effects h]
      exact hB.shares j
  allowed e he := by
    dsimp only [World.record] at he
    rw [hswap, List.mem_append, List.mem_map] at he
    rcases he with he | ⟨effect, he, rfl⟩
    · exact hB.allowed e he
    · exact hall effect he

lemma Bound.le_next {w : World} (hB : Bound M B w) (h : (w.state.swaps id).status ≠ .None) :
    id ≤ w.state.nextSwapId := by
  by_contra hle
  exact h (hB.unused id (not_le.mp hle))

/-! ### Effects -/

lemma toTreasury_bridgeBack (M : Market) (token : Uint64) (amount : ℕ) :
    ((bridgeBack token amount).map (toTreasury M)).sum = 0 := by
  unfold bridgeBack
  split
  · simp [toTreasury]
  · rfl

lemma mem_bridgeBack {token : Uint64} {amount : ℕ} {e : Effect} (h : e ∈ bridgeBack token amount) :
    e = .spotSend (systemAddress token) token amount := by
  unfold bridgeBack at h
  split at h
  · exact List.mem_singleton.mp h
  · cases h

lemma mem_payLeg {token user : Address} {amount : ℕ} {e : Effect}
    (h : e ∈ payLeg token user amount) : e = .pay token user amount := by
  unfold payLeg at h
  split at h
  · exact List.mem_singleton.mp h
  · cases h

/-- A reconciliation sends the treasury no more than the fee. -/
lemma toTreasury_reconcileSends (M : Market) (env : Env) (sw : Swap) (orderPlaced : Bool) :
    ((reconcileSends M env sw orderPlaced).map (toTreasury M)).sum ≤
      fee M (outDelta M env sw orderPlaced) := by
  unfold reconcileSends
  rw [List.map_append, List.map_append, List.sum_append, List.sum_append, toTreasury_bridgeBack,
    toTreasury_bridgeBack]
  split
  · simp only [List.map_cons, List.map_nil, List.sum_singleton, toTreasury]
    split <;> omega
  · simp

lemma toTreasury_payLeg (M : Market) (token user : Address) (amount : ℕ) :
    ((payLeg token user amount).map (toTreasury M)).sum = 0 := by
  unfold payLeg
  split <;> simp [toTreasury]

lemma allowed_reconcileSends {c : Call} {orderPlaced : Bool} {e : Effect}
    (h : e ∈ reconcileSends M env sw orderPlaced) : Allowed M B ⟨c, id, e⟩ := by
  unfold reconcileSends at h
  rw [List.mem_append, List.mem_append] at h
  rcases h with (h | h) | h
  · split at h
    · rw [List.mem_singleton.mp h]
      exact .inr rfl
    · cases h
  · rw [mem_bridgeBack h]
    exact .inl rfl
  · rw [mem_bridgeBack h]
    exact .inl rfl

/-! ### Calls -/

/-- The reconciliation of a swap that was open. -/
lemma Shares.reconcile {sw : Swap} {proceeds treasury sent : ℕ}
    (hS : Shares M sw proceeds treasury) (hopen : sw.status = .Funding ∨ sw.status = .Pending)
    (hsent : sent ≤ fee M (outDelta M env sw (sw.status = .Pending))) :
    Shares M (reconciled M env sw (sw.status = .Pending))
      (proceeds + measured M env sw (reconciled M env sw (sw.status = .Pending)))
      (treasury + sent) := by
  have hne : sw.status ≠ .Bridging ∧ sw.status ≠ .Done := by
    rcases hopen with h | h <;> rw [h] <;> decide
  obtain ⟨rfl, rfl⟩ := hS.unsettled hne.1 hne.2
  rw [measured, if_pos ⟨hne.1, rfl⟩, zero_add, zero_add]
  exact {
    unsettled := fun h => absurd rfl h
    treasury := hsent
    owedOut := Nat.sub_add_cancel (fee_le M _)
    owedIn := inRemainder_le }

/-- A call that measures nothing, sends nothing to the treasury and leaves the amounts. -/
lemma Shares.keep {sw sw' : Swap} {proceeds treasury : ℕ} (hS : Shares M sw proceeds treasury)
    (hmeasured : measured M env sw sw' = 0) (hsent : (effects.map (toTreasury M)).sum = 0)
    (hstatus : sw'.status ≠ .Bridging → sw'.status ≠ .Done →
      sw.status ≠ .Bridging ∧ sw.status ≠ .Done)
    (howedOut : sw'.owedOut = sw.owedOut) (howedIn : sw'.owedIn = sw.owedIn)
    (hcoreIn : sw'.coreIn = sw.coreIn) :
    Shares M sw' (proceeds + measured M env sw sw')
      (treasury + (effects.map (toTreasury M)).sum) := by
  rw [hmeasured, hsent]
  exact {
    unsettled := fun h h' => hS.unsettled (hstatus h h').1 (hstatus h h').2
    treasury := hS.treasury
    owedOut := howedOut ▸ hS.owedOut
    owedIn := howedIn ▸ hcoreIn ▸ hS.owedIn }

/-- A swap that starts owes nothing. -/
lemma Shares.start {sw sw' : Swap} {proceeds treasury : ℕ} (hS : Shares M sw proceeds treasury)
    (hs : sw.status = .None) (hs' : sw'.status = .Funding) (howedOut : sw'.owedOut = 0)
    (howedIn : sw'.owedIn = 0) (hsent : (effects.map (toTreasury M)).sum = 0) :
    Shares M sw' (proceeds + measured M env sw sw')
      (treasury + (effects.map (toTreasury M)).sum) := by
  obtain ⟨rfl, rfl⟩ := hS.unsettled (by rw [hs]; decide) (by rw [hs]; decide)
  have hmeasured : measured M env sw sw' = 0 := by
    rw [measured, if_neg (fun h => by rw [hs'] at h; cases h.2)]
  rw [hmeasured, hsent]
  exact {
    unsettled := fun _ _ => ⟨rfl, rfl⟩
    treasury := Nat.zero_le _
    owedOut := by simp [howedOut, fee]
    owedIn := by simp [howedIn] }

lemma measured_of_ne {sw sw' : Swap} (h : sw'.status = .Bridging → sw.status = .Bridging) :
    measured M env sw sw' = 0 := by
  rw [measured, if_neg (fun hb => hb.1 (h hb.2))]

theorem bound_of_step {w w' : World} {c : Call} (hB : Bound M B w)
    (h : step M B w c = .ok w') : Bound M B w' := by
  simp only [step, bind_ok_iff, pure_ok_iff] at h
  obtain ⟨⟨s', effects⟩, h, rfl⟩ := h
  obtain ⟨env, accepts, op⟩ := c
  cases op with
  | initiate baseForQuote evmAmountIn limitPx minCoreOut =>
    obtain ⟨hsender, sw, huser, hs, howedOut, howedIn, rfl, rfl⟩ := initiate_ok h
    refine hB.update rfl (Nat.le_succ _) le_rfl huser ?_ (fun e he => ?_)
    · exact (hB.shares _).start (hB.unused _ (Nat.lt_succ_self _)) hs howedOut howedIn rfl
    · rcases List.mem_pair.mp he with rfl | rfl
      · exact ⟨rfl, hsender, _, _, _, _, rfl⟩
      · exact .inr ⟨baseForQuote, rfl, rfl⟩
  | execute id =>
    obtain ⟨hs, rfl, sz, rfl⟩ := execute_ok h
    have hsome : (w.state.swaps id).status ≠ .None := by rw [hs]; decide
    refine hB.update rfl le_rfl (hB.le_next hsome) (hB.owner id hsome) ?_ (fun e he => ?_)
    · exact (hB.shares id).keep (measured_of_ne (fun h => by cases h)) rfl
        (fun _ _ => by rw [hs]; decide) rfl rfl rfl
    · rw [List.mem_singleton.mp he]
      trivial
  | settle id =>
    obtain ⟨hs, -, -, rfl, rfl⟩ := settle_ok h
    have hsome : (w.state.swaps id).status ≠ .None := by rw [hs]; decide
    refine hB.update rfl le_rfl (hB.le_next hsome) (hB.owner id hsome) ?_
      (fun e he => allowed_reconcileSends he)
    have hsent := toTreasury_reconcileSends M env (w.state.swaps id) true
    have hplaced : decide ((w.state.swaps id).status = .Pending) = true := decide_eq_true hs
    rw [← hplaced] at hsent ⊢
    exact (hB.shares id).reconcile (.inr hs) hsent
  | claim id =>
    obtain ⟨hs, -, -, rfl, rfl⟩ := claim_ok h
    have hsome : (w.state.swaps id).status ≠ .None := by rw [hs]; decide
    refine hB.update rfl le_rfl (hB.le_next hsome) (hB.owner id hsome) ?_ (fun e he => ?_)
    · refine (hB.shares id).keep (measured_of_ne (fun h => by cases h)) ?_
        (fun _ h => absurd rfl h) rfl rfl rfl
      rw [List.map_append, List.sum_append, toTreasury_payLeg, toTreasury_payLeg]
    · rcases List.mem_append.mp he with he | he <;> rw [mem_payLeg he] <;>
        exact .inl (hB.owner id hsome)
  | retry id =>
    obtain ⟨hs, -, rfl, out, back, rfl⟩ := retry_ok h
    have hsome : (w.state.swaps id).status ≠ .None := by rw [hs]; decide
    refine hB.update rfl le_rfl (hB.le_next hsome) (hB.owner id hsome) ?_ (fun e he => ?_)
    · refine (hB.shares id).keep (measured_of_ne (fun _ => hs)) ?_ (fun h => absurd hs h) rfl rfl
        rfl
      rw [List.map_append, List.sum_append, toTreasury_bridgeBack, toTreasury_bridgeBack]
    · rcases List.mem_append.mp he with he | he <;> rw [mem_bridgeBack he] <;> exact .inl rfl
  | forceRelease id =>
    obtain ⟨-, ⟨hs, rfl, rfl⟩ | ⟨hopen, ⟨-, rfl, rfl⟩ | ⟨rfl, rfl⟩⟩⟩ := forceRelease_ok h
    · have hsome : (w.state.swaps id).status ≠ .None := by rw [hs]; decide
      have hkept : Bound M B (w.record M ⟨env, accepts, .forceRelease id⟩ ⟨w.state.nextSwapId, 0,
          Function.update w.state.swaps id (w.state.swaps id)⟩ []) :=
        hB.update rfl le_rfl (hB.le_next hsome) (hB.owner id hsome)
          ((hB.shares id).keep (measured_self ..) rfl (fun h h' => ⟨h, h'⟩) rfl rfl rfl)
          (fun e he => by cases he)
      rwa [Function.update_eq_self] at hkept
    · have hsome : (w.state.swaps id).status ≠ .None := by
        rcases hopen with hs | hs <;> rw [hs] <;> decide
      exact hB.update rfl le_rfl (hB.le_next hsome) (hB.owner id hsome)
        ((hB.shares id).reconcile hopen (toTreasury_reconcileSends ..))
        (fun e he => allowed_reconcileSends he)
    · have hsome : (w.state.swaps id).status ≠ .None := by
        rcases hopen with hs | hs <;> rw [hs] <;> decide
      refine hB.update rfl le_rfl (hB.le_next hsome) (hB.owner id hsome) ?_
        (fun e he => by cases he)
      refine (hB.shares id).keep (measured_of_ne (fun h => by cases h)) rfl (fun _ _ => ?_) rfl rfl
        rfl
      rcases hopen with hs | hs <;> rw [hs] <;> decide

lemma Bound.of_init (M : Market) (B : Clone) : Bound M B .init where
  unused _ _ := rfl
  owner _ h := absurd rfl h
  shares _ :=
    { unsettled := fun _ _ => ⟨rfl, rfl⟩
      treasury := Nat.zero_le _
      owedOut := by simp [World.init, init, Swap.empty, fee]
      owedIn := le_rfl }
  allowed _ h := by cases h

/-- Funds come from the bound user alone and only as that user or the factory asked for, and go to
that user, to HyperCore and back, or as a fee on a swap's own proceeds to the treasury. -/
theorem funds_stay_bound (M : Market) (B : Clone) (calls : List Call) :
    let w := (machine M B).run .init calls
    (∀ e ∈ w.log, Allowed M B e) ∧
    ∀ id, treasuryTotal M w.log id ≤ w.proceeds id * M.feeBps / 10000 ∧
      (w.state.swaps id).owedOut + w.proceeds id * M.feeBps / 10000 = w.proceeds id ∧
      (w.state.swaps id).owedIn ≤ (w.state.swaps id).coreIn := by
  intro w
  have hB : Bound M B w := Machine.run_induction (M := machine M B)
    (fun _ _ _ hB h => bound_of_step hB h) (.of_init M B) calls
  exact ⟨hB.allowed, fun id =>
    ⟨(hB.shares id).treasury, (hB.shares id).owedOut, (hB.shares id).owedIn⟩⟩

end Suwappu.CoreRouter.BoundUser
