import Suwappu.Lib.Machine
import Suwappu.HyperCore.CoreRouter.Steps

/-!
# The router that all users share

`SuwappuCoreRouterMultiUser`, and its lock: one swap at a time is between its deposit and its
reconciliation. `Lock` is what every call keeps, from any sender and with any answer of HyperCore
and of the tokens.
-/

namespace Suwappu.CoreRouter.MultiUser

open Checked

variable {M : Market} {env : Env} {accepts : Effect → Bool} {s s' : State} {sw : Swap} {id : ℕ}
  {effects : List Effect}

def initiate (M : Market) (env : Env) (accepts : Effect → Bool) (s : State) (baseForQuote : Bool)
    (evmAmountIn : Uint256) (limitPx minCoreOut : Uint64) : Except Error (State × List Effect) := do
  guard (s.inFlight = 0) .Locked
  guard (evmAmountIn ≠ 0 ∧ minCoreOut ≠ 0 ∧ limitPx ≠ 0) .ZeroAmount
  let coreIn ← evmToCore evmAmountIn.val (M.extraIn baseForQuote)
  let _ ← orderSz M baseForQuote coreIn limitPx.val
  let next ← addU 128 s.nextSwapId 1
  fund M env accepts s s.nextSwapId next env.sender baseForQuote evmAmountIn.val coreIn limitPx.val
    minCoreOut.val

/-- The router right after deployment. -/
def init : State := ⟨1, 0, fun _ => .empty⟩

inductive Op where
  | initiate (baseForQuote : Bool) (evmAmountIn : Uint256) (limitPx minCoreOut : Uint64)
  | execute (id : ℕ)
  | settle (id : ℕ)
  | claim (id : ℕ)
  | retry (id : ℕ)
  | forceRelease (id : ℕ)

/-- A call, with what it sees and which token transfers succeed. -/
structure Call where
  env : Env
  accepts : Effect → Bool
  op : Op

def apply (M : Market) (s : State) (c : Call) : Except Error (State × List Effect) :=
  match c.op with
  | .initiate baseForQuote evmAmountIn limitPx minCoreOut =>
    initiate M c.env c.accepts s baseForQuote evmAmountIn limitPx minCoreOut
  | .execute id      => execute M c.env s id
  | .settle id       => settle M c.env s id
  | .claim id        => claim M c.env c.accepts s id
  | .retry id        => retry M c.env s id
  | .forceRelease id => forceRelease M c.env s id

def step (M : Market) (s : State) (c : Call) : Except Error State := do
  let (s', _) ← apply M s c
  return s'

/-- The deployed router as a machine: a reverted call changes nothing. -/
def machine (M : Market) : Machine State Call Error := ⟨step M⟩

lemma step_ok {c : Call} (h : step M s c = .ok s') :
    ∃ effects, apply M s c = .ok (s', effects) := by
  simp only [step, bind_ok_iff, pure_ok_iff] at h
  obtain ⟨⟨t, effects⟩, h, rfl⟩ := h
  exact ⟨effects, h⟩

lemma initiate_ok {baseForQuote : Bool} {evmAmountIn : Uint256} {limitPx minCoreOut : Uint64}
    (h : initiate M env accepts s baseForQuote evmAmountIn limitPx minCoreOut =
      .ok (s', effects)) :
    s.inFlight = 0 ∧ ∃ sw, sw.user = env.sender ∧ sw.status = .Funding ∧
      sw.initiatedL1Block = env.l1BlockNumber.val ∧
      s' = { nextSwapId := s.nextSwapId + 1
             inFlight := s.nextSwapId
             swaps := Function.update s.swaps s.nextSwapId sw } ∧
      effects = [.pull (M.erc20For (M.tokenIn baseForQuote)) env.sender evmAmountIn.val,
        .pay (M.erc20For (M.tokenIn baseForQuote))
          (systemAddress (M.tokenIn baseForQuote)) evmAmountIn.val] := by
  simp only [initiate, bind_ok_iff, guard_ok_iff, addU_ok_iff] at h
  obtain ⟨-, hlock, -, -, coreIn, -, -, -, next, ⟨-, rfl⟩, h⟩ := h
  obtain ⟨sw, huser, hs, -, -, hl1, rfl, rfl⟩ := fund_ok h
  exact ⟨hlock, sw, huser, hs, hl1, rfl, rfl⟩

/-! ### The lock -/

/-- The statuses of the swap that holds the lock. -/
def Live (st : Status) : Prop := st = .Funding ∨ st = .Pending ∨ st = .Bridging

structure Lock (s : State) : Prop where
  first : 0 < s.nextSwapId
  unused : ∀ id, id = 0 ∨ s.nextSwapId ≤ id → (s.swaps id).status = .None
  held : ∀ id, (s.swaps id).status = .Funding ∨ (s.swaps id).status = .Pending → s.inFlight = id
  live : s.inFlight ≠ 0 → Live (s.swaps s.inFlight).status
  owed : ∀ id, (s.swaps id).status = .Bridging → 0 < (s.swaps id).owedOut ∨ 0 < (s.swaps id).owedIn

namespace Lock

lemma of_init : Lock init where
  first := Nat.one_pos
  unused _ _ := rfl
  held _ h := by rcases h with h | h <;> cases h
  live h := absurd rfl h
  owed _ h := by cases h

lemma ne_zero (hL : Lock s) (h : (s.swaps id).status ≠ .None) : id ≠ 0 :=
  fun hid => h (hL.unused id (.inl hid))

lemma lt_next (hL : Lock s) (h : (s.swaps id).status ≠ .None) : id < s.nextSwapId := by
  by_contra hle
  exact h (hL.unused id (.inr (not_lt.mp hle)))

/-- A call rewrites one swap, and keeps the lock or frees it from that swap. -/
lemma update (hL : Lock s) {lock : ℕ} (hsome : (s.swaps id).status ≠ .None)
    (hlock : lock = s.inFlight ∨ lock = 0 ∧ s.inFlight = id)
    (hopen : sw.status = .Funding ∨ sw.status = .Pending → lock = id)
    (hlive : lock = id → Live sw.status)
    (howed : sw.status = .Bridging → 0 < sw.owedOut ∨ 0 < sw.owedIn) :
    Lock { s.setSwap id sw with inFlight := lock } where
  first := hL.first
  unused j hj := by
    have hne : j ≠ id := by
      rintro rfl
      exact hsome (hL.unused j hj)
    dsimp only
    rw [setSwap_of_ne s sw hne]
    exact hL.unused j hj
  held j hj := by
    dsimp only at hj ⊢
    by_cases hne : j = id
    · subst hne
      rw [setSwap_self] at hj
      exact hopen hj
    · rw [setSwap_of_ne s sw hne] at hj
      have hj' := hL.held j hj
      rcases hlock with rfl | ⟨-, hid⟩
      · exact hj'
      · exact absurd (hj'.symm.trans hid) hne
  live h := by
    dsimp only at h ⊢
    by_cases hne : lock = id
    · rw [hne, setSwap_self]
      exact hlive hne
    · rw [setSwap_of_ne s sw hne]
      rcases hlock with rfl | ⟨h0, -⟩
      · exact hL.live h
      · exact absurd h0 h
  owed j hj := by
    dsimp only at hj ⊢
    by_cases hne : j = id
    · subst hne
      rw [setSwap_self] at hj ⊢
      exact howed hj
    · rw [setSwap_of_ne s sw hne] at hj ⊢
      exact hL.owed j hj

lemma initiate (hL : Lock s) (hfree : s.inFlight = 0) (hs : sw.status = .Funding) :
    Lock { nextSwapId := s.nextSwapId + 1
           inFlight := s.nextSwapId
           swaps := Function.update s.swaps s.nextSwapId sw } where
  first := Nat.succ_pos _
  unused j hj := by
    have hne : j ≠ s.nextSwapId := by
      have hfirst := hL.first
      dsimp only at hj
      omega
    dsimp only at hj ⊢
    rw [Function.update_of_ne hne]
    exact hL.unused j (by omega)
  held j hj := by
    dsimp only at hj ⊢
    by_cases hne : j = s.nextSwapId
    · exact hne.symm
    · rw [Function.update_of_ne hne] at hj
      have hzero : j = 0 := (hL.held j hj).symm.trans hfree
      rw [hL.unused j (.inl hzero)] at hj
      rcases hj with h | h <;> cases h
  live _ := by
    dsimp only
    rw [Function.update_self]
    exact .inl hs
  owed j hj := by
    dsimp only at hj ⊢
    by_cases hne : j = s.nextSwapId
    · rw [hne, Function.update_self, hs] at hj
      cases hj
    · rw [Function.update_of_ne hne] at hj ⊢
      exact hL.owed j hj

end Lock

theorem lock_of_step {c : Call} (hL : Lock s) (h : step M s c = .ok s') : Lock s' := by
  obtain ⟨effects, h⟩ := step_ok h
  obtain ⟨env, accepts, op⟩ := c
  cases op with
  | initiate baseForQuote evmAmountIn limitPx minCoreOut =>
    obtain ⟨hfree, sw, -, hs, -, rfl, -⟩ := initiate_ok h
    exact hL.initiate hfree hs
  | execute id =>
    obtain ⟨hs, rfl, -⟩ := execute_ok h
    have hheld := hL.held id (.inl hs)
    exact hL.update (by rw [hs]; decide) (.inl rfl) (fun _ => hheld) (fun _ => .inr (.inl rfl))
      (fun h => by cases h)
  | settle id =>
    obtain ⟨hs, hlock, hrec, rfl, -⟩ := settle_ok h
    exact hL.update (by rw [hs]; decide) (.inl rfl) (fun _ => hlock) (fun _ => .inr (.inr rfl))
      (fun _ => owed_pos hrec)
  | claim id =>
    obtain ⟨hs, -, -, rfl, -⟩ := claim_ok h
    have hsome : (s.swaps id).status ≠ .None := by rw [hs]; decide
    refine hL.update hsome ?_ (fun h => by rcases h with h | h <;> cases h) (fun h => ?_)
      (fun h => by cases h)
    · split_ifs with hid
      · exact .inr ⟨rfl, hid⟩
      · exact .inl rfl
    · split_ifs at h with hid
      · exact absurd h.symm (hL.ne_zero hsome)
      · exact absurd h hid
  | retry id =>
    obtain ⟨hs, -, rfl, -⟩ := retry_ok h
    refine hL.update (by rw [hs]; decide) (.inl rfl) (fun h => ?_) (fun _ => .inr (.inr hs))
      (fun _ => hL.owed id hs)
    dsimp only at h
    rw [hs] at h
    rcases h with h | h <;> cases h
  | forceRelease id =>
    obtain ⟨hlock, ⟨hs, rfl, -⟩ | ⟨hs, ⟨hrec, rfl, -⟩ | ⟨rfl, -⟩⟩⟩ := forceRelease_ok h
    · have hset : s.setSwap id (s.swaps id) = s := by
        rw [State.setSwap, Function.update_eq_self]
      have hsome : (s.swaps id).status ≠ .None := by rw [hs]; decide
      have hfreed : Lock { s.setSwap id (s.swaps id) with inFlight := 0 } :=
        hL.update hsome (.inr ⟨rfl, hlock⟩)
          (fun h => by rw [hs] at h; rcases h with h | h <;> cases h)
          (fun h => absurd h.symm (hL.ne_zero hsome)) (hL.owed id)
      rwa [hset] at hfreed
    · have hsome : (s.swaps id).status ≠ .None := by rcases hs with hs | hs <;> rw [hs] <;> decide
      exact hL.update hsome (.inl rfl) (fun _ => hlock) (fun _ => .inr (.inr rfl))
        (fun _ => owed_pos hrec)
    · have hsome : (s.swaps id).status ≠ .None := by rcases hs with hs | hs <;> rw [hs] <;> decide
      exact hL.update hsome (.inr ⟨rfl, hlock⟩) (fun h => by rcases h with h | h <;> cases h)
        (fun h => absurd h.symm (hL.ne_zero hsome)) (fun h => by cases h)

lemma lock_of_run (M : Market) (calls : List Call) {s : State} (hL : Lock s) :
    Lock ((machine M).run s calls) :=
  Machine.run_induction (M := machine M) (fun _ _ _ hL h => lock_of_step hL h) hL calls

end Suwappu.CoreRouter.MultiUser
