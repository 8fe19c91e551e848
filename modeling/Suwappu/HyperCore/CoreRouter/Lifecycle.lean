import Suwappu.HyperCore.CoreRouter.MultiUser

/-!
# The life of a swap

How the status of a swap may change, and why no swap can keep the lock for ever.
-/

namespace Suwappu.CoreRouter.MultiUser

open Checked

variable {M : Market} {env : Env} {accepts : Effect → Bool} {s s' : State} {sw : Swap} {id : ℕ}
  {effects : List Effect}

/-! ### A market for concrete runs -/

def exampleMarket : Market where
  baseErc20 := Address.ofNat 1
  quoteErc20 := Address.ofNat 2
  baseToken := 1
  quoteToken := 2
  orderAsset := 10000
  baseWeiDecimals := 8
  quoteWeiDecimals := 8
  baseExtraEvmDecimals := 0
  quoteExtraEvmDecimals := 0
  szDecimals := 8
  treasury := Address.ofNat 3
  feeBps := 0
  feeBps_le := by decide
  szDecimals_le := by decide
  token_ne := by decide
  erc20_ne := by decide

/-- A call at L1 block `l1`, with free balances of the two tokens on Core. -/
def exampleCall (l1 base quote : Uint64) (op : Op) : Call where
  env :=
    { sender := Address.ofNat 9
      blockNumber := l1.val
      l1BlockNumber := l1
      spotBalance := fun token => ⟨if token = 1 then base else quote, 0⟩
      balanceOf := fun _ => 0 }
  accepts _ := true
  op := op

/-- The deposit arrived, nobody executed, and the release sends it back. -/
def releasedEarly : List Call := [
  exampleCall 1 0 0 (.initiate true 100 1 1),
  exampleCall 100001 100 0 (.forceRelease 1)]

/-! ### Statuses -/

/-- A swap waits for its deposit, its order and its credits, or is aborted on the way. -/
inductive Arrow : Status → Status → Prop
  | stay (st : Status) : Arrow st st
  | initiate : Arrow .None .Funding
  | execute : Arrow .Funding .Pending
  | settle : Arrow .Pending .Bridging
  | claim : Arrow .Bridging .Done
  | abortFunding : Arrow .Funding .Aborted
  | abortPending : Arrow .Pending .Aborted

/-- A forced release sends back what has arrived of the deposit of a swap whose order was never
placed; no proceeds are looked for, and the lock is kept. -/
structure Recovers (M : Market) (c : Call) (s s' : State) (effects : List Effect) (id : ℕ) :
    Prop where
  op : c.op = .forceRelease id
  funding : (s.swaps id).status = .Funding
  bridging : (s'.swaps id).status = .Bridging
  deposit_pos : 0 < inRemainder M c.env (s.swaps id)
  deposit_le : inRemainder M c.env (s.swaps id) ≤ (s.swaps id).coreIn
  owedIn : (s'.swaps id).owedIn = inRemainder M c.env (s.swaps id)
  owedOut : (s'.swaps id).owedOut = 0
  sends : effects = bridgeBack (M.tokenIn (s.swaps id).baseForQuote)
    (inRemainder M c.env (s.swaps id))
  lock : s'.inFlight = id

def Moves (M : Market) (c : Call) (s s' : State) (effects : List Effect) (id : ℕ) : Prop :=
  Arrow (s.swaps id).status (s'.swaps id).status ∨ Recovers M c s s' effects id

/-- A call rewrites one swap. -/
lemma arrow_update (h : Arrow (s.swaps id).status sw.status) (j : ℕ) :
    Arrow (s.swaps j).status (Function.update s.swaps id sw j).status := by
  by_cases hj : j = id
  · subst hj
    rwa [Function.update_self]
  · rw [Function.update_of_ne hj]
    exact .stay _

lemma outDelta_unplaced (M : Market) (env : Env) (sw : Swap) : outDelta M env sw false = 0 := by
  unfold outDelta
  exact if_neg fun h => Bool.false_ne_true h.1

/-- Without an order only the deposit comes back. -/
lemma recovers_of_reconciled {c : Call} (hop : c.op = .forceRelease id) (hlock : s.inFlight = id)
    (hs : (s.swaps id).status = .Funding) (hrec : Recoverable M c.env (s.swaps id) false) :
    Recovers M c s (s.setSwap id (reconciled M c.env (s.swaps id) false))
      (reconcileSends M c.env (s.swaps id) false) id := by
  have hnone := outDelta_unplaced M c.env (s.swaps id)
  have hpos : inRemainder M c.env (s.swaps id) ≠ 0 := hrec.2.resolve_left (not_not.mpr hnone)
  refine ⟨hop, hs, ?_, Nat.pos_of_ne_zero hpos, inRemainder_le, ?_, ?_, ?_, hlock⟩
  · rw [setSwap_self]
    rfl
  · rw [setSwap_self]
    rfl
  · rw [setSwap_self]
    exact Nat.sub_eq_zero_of_le (hnone ▸ Nat.zero_le _)
  · unfold reconcileSends reconciled fee
    rw [hnone, Nat.zero_mul, Nat.zero_div]
    rfl

lemma moves_of_apply {c : Call} (hL : Lock s) (h : apply M s c = .ok (s', effects)) (j : ℕ) :
    Moves M c s s' effects j := by
  obtain ⟨env, accepts, op⟩ := c
  cases op with
  | initiate baseForQuote evmAmountIn limitPx minCoreOut =>
    obtain ⟨-, sw, -, hs, -, rfl, -⟩ := initiate_ok h
    refine .inl (arrow_update ?_ j)
    rw [hL.unused _ (.inr le_rfl), hs]
    exact .initiate
  | execute id =>
    obtain ⟨hs, rfl, -⟩ := execute_ok h
    exact .inl (arrow_update (hs ▸ .execute) j)
  | settle id =>
    obtain ⟨hs, -, -, rfl, -⟩ := settle_ok h
    exact .inl (arrow_update (hs ▸ .settle) j)
  | claim id =>
    obtain ⟨hs, -, -, rfl, -⟩ := claim_ok h
    exact .inl (arrow_update (hs ▸ .claim) j)
  | retry id =>
    obtain ⟨hs, -, rfl, -⟩ := retry_ok h
    refine .inl (arrow_update ?_ j)
    dsimp only
    rw [hs]
    exact .stay _
  | forceRelease id =>
    obtain ⟨hlock, ⟨-, rfl, -⟩ | ⟨hs, ⟨hrec, rfl, rfl⟩ | ⟨rfl, -⟩⟩⟩ := forceRelease_ok h
    · exact .inl (.stay _)
    · rcases hs with hs | hs
      · simp only [hs, reduceCtorEq, decide_false] at hrec ⊢
        by_cases hj : j = id
        · subst hj
          exact .inr (recovers_of_reconciled rfl hlock hs hrec)
        · refine .inl ?_
          rw [setSwap_of_ne _ _ hj]
          exact .stay _
      · exact .inl (arrow_update (hs ▸ .settle) j)
    · refine .inl (arrow_update ?_ j)
      rcases hs with hs | hs
      · exact hs ▸ .abortFunding
      · exact hs ▸ .abortPending

/-- Only `initiate` takes an id, and it takes the next one. -/
lemma taken_of_apply {c : Call} (h : apply M s c = .ok (s', effects))
    (hnone : (s.swaps id).status = .None) (hsome : (s'.swaps id).status ≠ .None) :
    id = s.nextSwapId ∧ s'.nextSwapId = id + 1 := by
  obtain ⟨env, accepts, op⟩ := c
  -- a call on an existing swap leaves the others alone
  have hold : ∀ {j : ℕ} {sw : Swap}, (s.swaps j).status ≠ .None →
      (Function.update s.swaps j sw id).status = .None := by
    intro j sw hj
    have hne : id ≠ j := by
      rintro rfl
      exact hj hnone
    rwa [Function.update_of_ne hne]
  cases op with
  | initiate baseForQuote evmAmountIn limitPx minCoreOut =>
    obtain ⟨-, sw, -, -, -, rfl, -⟩ := initiate_ok h
    dsimp only at hsome ⊢
    by_cases hid : id = s.nextSwapId
    · exact ⟨hid, by rw [hid]⟩
    · rw [Function.update_of_ne hid] at hsome
      exact absurd hnone hsome
  | execute j =>
    obtain ⟨hs, rfl, -⟩ := execute_ok h
    exact absurd (hold (by rw [hs]; decide)) hsome
  | settle j =>
    obtain ⟨hs, -, -, rfl, -⟩ := settle_ok h
    exact absurd (hold (by rw [hs]; decide)) hsome
  | claim j =>
    obtain ⟨hs, -, -, rfl, -⟩ := claim_ok h
    exact absurd (hold (by rw [hs]; decide)) hsome
  | retry j =>
    obtain ⟨hs, -, rfl, -⟩ := retry_ok h
    exact absurd (hold (by rw [hs]; decide)) hsome
  | forceRelease j =>
    obtain ⟨-, ⟨-, rfl, -⟩ | ⟨hs, ⟨-, rfl, -⟩ | ⟨rfl, -⟩⟩⟩ := forceRelease_ok h
    · exact absurd hnone hsome
    · exact absurd (hold (by rcases hs with hs | hs <;> rw [hs] <;> decide)) hsome
    · exact absurd (hold (by rcases hs with hs | hs <;> rw [hs] <;> decide)) hsome

/-- One swap at a time is funded or pending, and it holds the lock; a lock is held by a swap that
is still under way; a swap awaiting credits is owed something; statuses only move along the arrows
or where a forced release recovers a deposit; and each id is taken once. -/
theorem lock_serialises (M : Market) (calls : List Call) :
    let s := (machine M).run init calls
    (∀ id, (s.swaps id).status = .Funding ∨ (s.swaps id).status = .Pending → s.inFlight = id) ∧
    (s.inFlight ≠ 0 → Live (s.swaps s.inFlight).status) ∧
    (∀ id, (s.swaps id).status = .Bridging →
      0 < (s.swaps id).owedOut ∨ 0 < (s.swaps id).owedIn) ∧
    ∀ c s' effects, apply M s c = .ok (s', effects) → ∀ id, Moves M c s s' effects id ∧
      ((s.swaps id).status = .None → (s'.swaps id).status ≠ .None →
        id = s.nextSwapId ∧ s'.nextSwapId = id + 1) := by
  intro s
  have hL : Lock s := lock_of_run M calls .of_init
  exact ⟨hL.held, hL.live, hL.owed, fun c s' effects h id =>
    ⟨moves_of_apply hL h id, fun hnone hsome => taken_of_apply h hnone hsome⟩⟩

theorem release_skips_pending : ¬ ∀ (M : Market) (calls : List Call) (c : Call) (s' : State),
    step M ((machine M).run init calls) c = .ok s' →
      ∀ id, Arrow (((machine M).run init calls).swaps id).status (s'.swaps id).status := by
  intro h
  have hstep : step exampleMarket ((machine exampleMarket).run init (releasedEarly.take 1))
      (exampleCall 100001 100 0 (.forceRelease 1)) =
        .ok ((machine exampleMarket).run init releasedEarly) := by rfl
  have harrow := h exampleMarket (releasedEarly.take 1) _ _ hstep 1
  rw [show (((machine exampleMarket).run init (releasedEarly.take 1)).swaps 1).status = .Funding by
      rfl, show (((machine exampleMarket).run init releasedEarly).swaps 1).status = .Bridging by
      rfl] at harrow
  cases harrow

/-! ### Releasing the lock -/

/-- The L1 block of the last step of a swap that holds the lock. -/
def progress (sw : Swap) : ℕ :=
  match sw.status with
  | .Funding => sw.initiatedL1Block
  | .Pending => sw.executedL1Block
  | _        => sw.settledL1Block

/-- A swap that is still under way can be released, once it made no progress for long enough. -/
lemma forceRelease_succeeds (hlock : s.inFlight = id) (hlive : Live (s.swaps id).status)
    (hlate : progress (s.swaps id) + RELEASE_DELAY_L1 < env.l1BlockNumber.val) :
    ∃ s' effects, forceRelease M env s id = .ok (s', effects) := by
  have hword := env.l1BlockNumber.isLt
  unfold forceRelease
  dsimp only
  rw [guard_of_true hlock, ok_bind]
  by_cases hs : (s.swaps id).status = .Bridging
  · rw [if_pos hs]
    rw [progress, hs] at hlate
    rw [show (addU 64 (s.swaps id).settledL1Block RELEASE_DELAY_L1 : Except Error ℕ) = .ok _ from
      addU_ok_iff.mpr ⟨hlate.trans hword, rfl⟩, ok_bind, guard_of_true (not_lt.mpr hlate.le)]
    exact ⟨_, _, rfl⟩
  · rw [if_neg hs]
    have hopen : (s.swaps id).status = .Funding ∨ (s.swaps id).status = .Pending := by
      rcases hlive with h | h | h
      · exact .inl h
      · exact .inr h
      · exact absurd h hs
    have hsince : progress (s.swaps id) = if (s.swaps id).status = .Funding then
        (s.swaps id).initiatedL1Block else (s.swaps id).executedL1Block := by
      rcases hopen with h | h <;> simp [progress, h]
    rw [hsince] at hlate
    rw [guard_of_true (by tauto), ok_bind,
      show (addU 64 (if (s.swaps id).status = .Funding then (s.swaps id).initiatedL1Block
          else (s.swaps id).executedL1Block) RELEASE_DELAY_L1 : Except Error ℕ) = .ok _ from
        addU_ok_iff.mpr ⟨hlate.trans hword, rfl⟩, ok_bind, guard_of_true (not_lt.mpr hlate.le),
      ok_bind]
    rcases reconcile_cases M env (s.swaps id) ((s.swaps id).status = .Pending) with
      h | h | ⟨-, h⟩ <;> rw [h] <;> exact ⟨_, _, rfl⟩

/-- A swap past its reconciliation stays there, and no later swap takes its id. -/
structure Settled (id : ℕ) (s : State) : Prop where
  lock : Lock s
  status : (s.swaps id).status = .Bridging ∨ (s.swaps id).status = .Done

lemma settled_of_step {c : Call} (hS : Settled id s) (h : step M s c = .ok s') :
    Settled id s' where
  lock := lock_of_step hS.lock h
  status := by
    obtain ⟨effects, happly⟩ := step_ok h
    rcases moves_of_apply hS.lock happly id with harrow | hrecovers
    · generalize (s'.swaps id).status = st' at harrow ⊢
      rcases hS.status with hs | hs <;> rw [hs] at harrow
      · cases harrow with
        | stay => exact .inl rfl
        | claim => exact .inr rfl
      · cases harrow with
        | stay => exact .inr rfl
    · exact .inl hrecovers.bridging

/-- The second release frees the lock, whatever was called since the first. -/
lemma second_release (hS : Settled id s) (hid : id ≠ 0)
    (h : forceRelease M env s id = .ok (s', effects)) : s'.inFlight = 0 := by
  obtain ⟨hlock, ⟨-, rfl, -⟩ | ⟨hs, -⟩⟩ := forceRelease_ok h
  · rfl
  · have hlive := hS.lock.live (hlock ▸ hid)
    rcases hS.status with hb | hd
    · rw [hb] at hs
      rcases hs with h | h <;> cases h
    · rw [hlock, hd] at hlive
      rcases hlive with h | h | h <;> cases h

/-- No swap keeps the lock for ever: after the release delay `forceRelease` goes through, and of two
that went through the second has freed the lock. -/
theorem never_wedged (M : Market) (calls : List Call) (id : ℕ) (hid : id ≠ 0)
    (hlock : ((machine M).run init calls).inFlight = id) :
    let s := (machine M).run init calls
    (∀ env, progress (s.swaps id) + RELEASE_DELAY_L1 < env.l1BlockNumber.val →
      ∃ s' effects, forceRelease M env s id = .ok (s', effects)) ∧
    ∀ env s₁ effects, forceRelease M env s id = .ok (s₁, effects) → s₁.inFlight = 0 ∨
      ∀ more env' s₂ effects',
        forceRelease M env' ((machine M).run s₁ more) id = .ok (s₂, effects') →
          s₂.inFlight = 0 := by
  intro s
  have hL : Lock s := lock_of_run M calls .of_init
  have hlive : Live (s.swaps id).status := hlock ▸ hL.live (hlock.symm ▸ hid)
  refine ⟨fun env hlate => forceRelease_succeeds hlock hlive hlate, fun env s₁ effects h => ?_⟩
  have hL₁ : Lock s₁ := lock_of_step (M := M) (c := ⟨env, fun _ => true, .forceRelease id⟩) hL
    (by simp only [step, apply, h]; rfl)
  obtain ⟨-, ⟨-, rfl, -⟩ | ⟨-, ⟨-, rfl, -⟩ | ⟨rfl, -⟩⟩⟩ := forceRelease_ok h
  · exact .inl rfl
  · refine .inr fun more env' s₂ effects' h₂ => second_release (Machine.run_induction
      (M := machine M) (fun _ _ _ hS h => settled_of_step hS h) ⟨hL₁, .inl ?_⟩ more) hid h₂
    rw [setSwap_self]
    rfl
  · exact .inl rfl

theorem never_wedged_releasedEarly :
    let s := (machine exampleMarket).run init releasedEarly
    (∀ env, progress (s.swaps 1) + RELEASE_DELAY_L1 < env.l1BlockNumber.val →
      ∃ s' effects, forceRelease exampleMarket env s 1 = .ok (s', effects)) ∧
    ∀ env s₁ effects, forceRelease exampleMarket env s 1 = .ok (s₁, effects) → s₁.inFlight = 0 ∨
      ∀ more env' s₂ effects',
        forceRelease exampleMarket env' ((machine exampleMarket).run s₁ more) 1 =
          .ok (s₂, effects') → s₂.inFlight = 0 :=
  never_wedged exampleMarket releasedEarly 1 (by decide) rfl

end Suwappu.CoreRouter.MultiUser
