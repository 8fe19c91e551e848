import Suwappu.Lib.InFlight
import Suwappu.HyperCore.CoreRouter.Lifecycle

/-!
# Whose credits a claim pays

The world around the shared router: its token balances, the bridge sends under way, and what
arrived for each swap. A claim is measured against the balances at the reconciliation, so it pays
the swap's own credits as long as no other swap was waiting for credits at that moment.
-/

namespace Suwappu.CoreRouter.MultiUser

open Checked InFlight

/-- The EVM decimals of a token beyond its Core decimals. -/
def extraFor (M : Market) (token : Uint64) : ℕ :=
  if token = M.baseToken then M.baseExtraEvmDecimals else M.quoteExtraEvmDecimals

/-- A bridge send of swap `id`, in Core units. -/
structure Send where
  id : ℕ
  token : Uint64
  amount : ℕ
deriving DecidableEq

/-- The last three fields are a record of what happened: the credits that arrived for each swap,
the swaps with a rejected send, and the claims that paid more than had arrived for them. -/
structure World where
  state : State
  balances : Address → ℕ
  pending : List Send
  landed : ℕ → Address → ℕ
  rejected : List ℕ
  foreign : List ℕ

def World.init (balances : Address → ℕ) : World :=
  ⟨MultiUser.init, balances, [], fun _ _ => 0, [], []⟩

inductive Event where
  /-- a call; the balances it sees are those of the world -/
  | call (c : Call)
  /-- send `i` is credited on the EVM side -/
  | land (i : ℕ)
  /-- HyperCore silently rejects send `i` -/
  | reject (i : ℕ)

/-- The swap that a call is about. -/
def Op.swapId : Op → ℕ
  | .initiate _ _ _ _ => 0
  | .execute id       => id
  | .settle id        => id
  | .claim id         => id
  | .retry id         => id
  | .forceRelease id  => id

/-- What a token transfer does to the balances of the router. -/
def credit (balances : Address → ℕ) : Effect → Address → ℕ
  | .pull token _ amount => Function.update balances token (balances token + amount)
  | .pay token _ amount  => Function.update balances token (balances token - amount)
  | _                    => balances

/-- The bridge sends among the effects of a call for swap `id`. -/
def sendsOf (id : ℕ) (effects : List Effect) : List Send :=
  effects.filterMap fun e =>
    match e with
    | .spotSend dst token amount =>
      if dst = systemAddress token then some ⟨id, token, amount⟩ else none
    | _ => none

/-- Whether a transfer exceeds what has arrived. -/
def exceeds (landed : Address → ℕ) : Effect → Bool
  | .pay token _ amount => landed token < amount
  | _                   => false

/-- The claims whose transfers exceed what had arrived for them. -/
def noteForeign (w : World) (op : Op) (effects : List Effect) : List ℕ :=
  match op with
  | .claim id => if effects.any (exceeds (w.landed id)) then id :: w.foreign else w.foreign
  | _         => w.foreign

/-- The call sees the balances of the world. -/
def World.sees (w : World) (c : Call) : Call :=
  { c with env := { c.env with balanceOf := w.balances } }

def World.after (w : World) (op : Op) (s' : State) (effects : List Effect) : World :=
  { w with
    state := s'
    balances := effects.foldl credit w.balances
    pending := sendsOf op.swapId effects ++ w.pending
    foreign := noteForeign w op effects }

def World.step (M : Market) (w : World) : Event → Except Error World
  | .call c => do
    let (s', effects) ← apply M w.state (w.sees c)
    return w.after c.op s' effects
  | .land i =>
    match take w.pending i with
    | some (send, rest) => do
      let amount := send.amount * 10 ^ extraFor M send.token
      let token := M.erc20For send.token
      guard (w.balances token + amount < 2 ^ 256) .Panic
      let landed := Function.update (w.landed send.id) token (w.landed send.id token + amount)
      return { w with
        balances := Function.update w.balances token (w.balances token + amount)
        pending := rest
        landed := Function.update w.landed send.id landed }
    | none => .error .BadStatus
  | .reject i =>
    match take w.pending i with
    | some (send, rest) => .ok { w with pending := rest, rejected := send.id :: w.rejected }
    | none => .error .BadStatus

/-- The router and its bridge as a machine. -/
def world (M : Market) : Machine World Event Error := ⟨World.step M⟩

/-- Claims paid what had arrived for them, and a swap whose sends have all landed can be claimed. -/
def OwnCredits (M : Market) (w : World) : Prop :=
  w.foreign = [] ∧ ∀ id, (w.state.swaps id).status = .Bridging →
    (∀ send ∈ w.pending, send.id ≠ id) → id ∉ w.rejected →
      ∀ (env : Env) (accepts : Effect → Bool), (∀ e, accepts e = true) → ∃ s' effects,
        claim M { env with balanceOf := w.balances } accepts w.state id = .ok (s', effects)

/-! ### Runs in which swaps are reconciled one at a time -/

/-- When the call reconciles a swap, no other swap awaits credits and no send of another swap is
under way. -/
def Alone (M : Market) (w : World) : Event → Prop
  | .call c =>
    match c.op with
    | .settle id | .forceRelease id =>
      (w.state.swaps id).status = .Funding ∨ (w.state.swaps id).status = .Pending →
        Recoverable M (w.sees c).env (w.state.swaps id) ((w.state.swaps id).status = .Pending) →
          (∀ j < w.state.nextSwapId, j ≠ id → (w.state.swaps j).status ≠ .Bridging) ∧
            ∀ send ∈ w.pending, send.id = id
    | _ => True
  | _ => True

instance (M : Market) (w : World) (ev : Event) : Decidable (Alone M w ev) := by
  unfold Alone
  split
  · split <;> infer_instance
  · infer_instance

/-- The Core units of a token under way. -/
def flying (pending : List Send) (token : Uint64) : ℕ :=
  (pending.map fun send => if send.token = token then send.amount else 0).sum

variable {M : Market} {env : Env} {accepts : Effect → Bool} {s s' : State} {sw : Swap}
  {w w' : World} {id i : ℕ} {effects : List Effect} {pending rest : List Send} {send : Send}

lemma flying_append (l l' : List Send) (token : Uint64) :
    flying (l ++ l') token = flying l token + flying l' token := by
  rw [flying, List.map_append, List.sum_append]
  rfl

lemma flying_take (h : take pending i = some (send, rest)) (token : Uint64) :
    flying pending token = (if send.token = token then send.amount else 0) + flying rest token := by
  rw [flying, ((take_perm h).map _).sum_eq, List.map_cons, List.sum_cons]
  rfl

lemma le_flying (h : send ∈ pending) : send.amount ≤ flying pending send.token :=
  List.single_le_sum (fun _ _ => Nat.zero_le _) _
    (List.mem_map.mpr ⟨send, h, by rw [if_pos rfl]⟩)

lemma extraFor_out (M : Market) (b : Bool) : extraFor M (M.tokenOut b) = M.extraOut b := by
  cases b
  · simp [extraFor, Market.tokenOut, Market.extraOut]
  · simp [extraFor, Market.tokenOut, Market.extraOut, M.token_ne.symm]

lemma extraFor_in (M : Market) (b : Bool) : extraFor M (M.tokenIn b) = M.extraIn b := by
  cases b
  · simp [extraFor, Market.tokenIn, Market.extraIn, M.token_ne.symm]
  · simp [extraFor, Market.tokenIn, Market.extraIn]

/-! ### The effects of the calls on the world -/

lemma sendsOf_append (id : ℕ) (l l' : List Effect) :
    sendsOf id (l ++ l') = sendsOf id l ++ sendsOf id l' := List.filterMap_append

lemma id_of_mem_sendsOf (h : send ∈ sendsOf id effects) : send.id = id := by
  obtain ⟨e, -, he⟩ := List.mem_filterMap.mp h
  cases e with
  | spotSend dst token amount =>
    dsimp only at he
    split at he
    · cases he
      rfl
    · cases he
  | _ => cases he

lemma sendsOf_bridgeBack (id : ℕ) (token : Uint64) (amount : ℕ) :
    sendsOf id (bridgeBack token amount) = if amount > 0 then [⟨id, token, amount⟩] else [] := by
  unfold bridgeBack
  split <;> simp [sendsOf]

lemma le_flying_bridgeBack (id : ℕ) (token : Uint64) (amount : ℕ) :
    amount ≤ flying (sendsOf id (bridgeBack token amount)) token := by
  rw [sendsOf_bridgeBack]
  split
  · have hmem : (⟨id, token, amount⟩ : Send) ∈ [⟨id, token, amount⟩] := List.mem_cons_self
    exact le_flying hmem
  · omega

lemma sendsOf_payLeg (id : ℕ) (token user : Address) (amount : ℕ) :
    sendsOf id (payLeg token user amount) = [] := by
  unfold payLeg
  split <;> rfl

/-- Spot sends leave the EVM balances alone. -/
lemma credit_bridgeBack (balances : Address → ℕ) (token : Uint64) (amount : ℕ) :
    (bridgeBack token amount).foldl credit balances = balances := by
  unfold bridgeBack
  split <;> rfl

lemma credit_reconcileSends (balances : Address → ℕ) (orderPlaced : Bool) :
    (reconcileSends M env sw orderPlaced).foldl credit balances = balances := by
  unfold reconcileSends
  rw [List.foldl_append, List.foldl_append, credit_bridgeBack, credit_bridgeBack]
  split <;> rfl

/-- What was pulled is passed on. -/
lemma credit_pull_pay (balances : Address → ℕ) (token src dst : Address) (amount : ℕ) :
    [Effect.pull token src amount, .pay token dst amount].foldl credit balances = balances := by
  simp [credit]

lemma credit_payLeg_le (balances : Address → ℕ) (token user : Address) (amount : ℕ) (t : Address) :
    (payLeg token user amount).foldl credit balances t ≤ balances t := by
  unfold payLeg
  split
  · by_cases h : t = token
    · subst h
      simp [credit]
    · simp [credit, h]
  · exact le_rfl

/-! ### The invariant -/

/-- At most one swap awaits credits. Every send under way is its own, the balances have grown by
what arrived for it, and what has not arrived is under way unless a send was rejected. -/
structure Credits (M : Market) (w : World) : Prop where
  lock : Lock w.state
  one : ∀ id j, (w.state.swaps id).status = .Bridging → (w.state.swaps j).status = .Bridging →
    id = j
  sends : ∀ id, (w.state.swaps id).status = .Bridging → ∀ send ∈ w.pending, send.id = id
  unsent : ∀ id, (w.state.swaps id).status = .None ∨ (w.state.swaps id).status = .Funding ∨
    (w.state.swaps id).status = .Pending →
      (∀ send ∈ w.pending, send.id ≠ id) ∧ ∀ token, w.landed id token = 0
  balanceOut : ∀ id sw, w.state.swaps id = sw → sw.status = .Bridging →
    w.balances (M.erc20For (M.tokenOut sw.baseForQuote)) =
      sw.evmOutSnapshot + w.landed id (M.erc20For (M.tokenOut sw.baseForQuote))
  balanceIn : ∀ id sw, w.state.swaps id = sw → sw.status = .Bridging →
    w.balances (M.erc20For (M.tokenIn sw.baseForQuote)) =
      sw.evmInSnapshot + w.landed id (M.erc20For (M.tokenIn sw.baseForQuote))
  owedOut : ∀ id sw, w.state.swaps id = sw → sw.status = .Bridging → id ∉ w.rejected →
    evmOut M sw ≤ w.landed id (M.erc20For (M.tokenOut sw.baseForQuote)) +
      flying w.pending (M.tokenOut sw.baseForQuote) * 10 ^ M.extraOut sw.baseForQuote
  owedIn : ∀ id sw, w.state.swaps id = sw → sw.status = .Bridging → id ∉ w.rejected →
    evmIn M sw ≤ w.landed id (M.erc20For (M.tokenIn sw.baseForQuote)) +
      flying w.pending (M.tokenIn sw.baseForQuote) * 10 ^ M.extraIn sw.baseForQuote
  fits : ∀ token, w.balances token < 2 ^ 256
  foreign : w.foreign = []

lemma credits_init {balances : Address → ℕ} (h : ∀ token, balances token < 2 ^ 256) :
    Credits M (.init balances) where
  lock := .of_init
  one _ _ h := by cases h
  sends _ h := by cases h
  unsent _ _ := ⟨fun _ h => (by cases h), fun _ => rfl⟩
  balanceOut _ _ h hs := by subst h; cases hs
  balanceIn _ _ h hs := by subst h; cases hs
  owedOut _ _ h hs := by subst h; cases hs
  owedIn _ _ h hs := by subst h; cases hs
  fits := h
  foreign := rfl

namespace Credits

/-- A state in which no swap awaits credits. -/
lemma of_none (hlock : Lock w.state) (hnone : ∀ id, (w.state.swaps id).status ≠ .Bridging)
    (hunsent : ∀ id, (w.state.swaps id).status = .None ∨ (w.state.swaps id).status = .Funding ∨
      (w.state.swaps id).status = .Pending →
        (∀ send ∈ w.pending, send.id ≠ id) ∧ ∀ token, w.landed id token = 0)
    (hfits : ∀ token, w.balances token < 2 ^ 256) (hforeign : w.foreign = []) : Credits M w where
  lock := hlock
  one id _ h := absurd h (hnone id)
  sends id h := absurd h (hnone id)
  unsent := hunsent
  balanceOut id _ h hs := absurd (h ▸ hs) (hnone id)
  balanceIn id _ h hs := absurd (h ▸ hs) (hnone id)
  owedOut id _ h hs := absurd (h ▸ hs) (hnone id)
  owedIn id _ h hs := absurd (h ▸ hs) (hnone id)
  fits := hfits
  foreign := hforeign

variable (id) in
/-- A swap that is not awaiting credits, before or after, is rewritten. -/
lemma rewrite (hC : Credits M w) (hlock : Lock s')
    (hsame : ∀ j, j ≠ id → s'.swaps j = w.state.swaps j)
    (hbefore : (w.state.swaps id).status ≠ .Bridging) (hafter : (s'.swaps id).status ≠ .Bridging)
    (hunsent : (s'.swaps id).status = .None ∨ (s'.swaps id).status = .Funding ∨
      (s'.swaps id).status = .Pending → (w.state.swaps id).status = .None ∨
        (w.state.swaps id).status = .Funding ∨ (w.state.swaps id).status = .Pending) :
    Credits M { w with state := s' } := by
  have hswap : ∀ j, (s'.swaps j).status = .Bridging → s'.swaps j = w.state.swaps j :=
    fun j hj => hsame j fun hid => hafter (hid ▸ hj)
  exact
    { lock := hlock
      one := fun j k hj hk => hC.one j k (hswap j hj ▸ hj) (hswap k hk ▸ hk)
      sends := fun j hj => hC.sends j (hswap j hj ▸ hj)
      unsent := fun j hj => by
        by_cases hid : j = id
        · subst hid
          exact hC.unsent j (hunsent hj)
        · dsimp only at hj
          rw [hsame j hid] at hj
          exact hC.unsent j hj
      balanceOut := fun j sw h hs => hC.balanceOut j sw ((hswap j (h ▸ hs)).symm.trans h) hs
      balanceIn := fun j sw h hs => hC.balanceIn j sw ((hswap j (h ▸ hs)).symm.trans h) hs
      owedOut := fun j sw h hs => hC.owedOut j sw ((hswap j (h ▸ hs)).symm.trans h) hs
      owedIn := fun j sw h hs => hC.owedIn j sw ((hswap j (h ▸ hs)).symm.trans h) hs
      fits := hC.fits
      foreign := hC.foreign }

/-- The swap is reconciled: from here on the balances are compared with what they are now. -/
lemma reconcile (hC : Credits M w) {orderPlaced : Bool} (henv : env.balanceOf = w.balances)
    (hlock : Lock (w.state.setSwap id (reconciled M env (w.state.swaps id) orderPlaced)))
    (hs : (w.state.swaps id).status = .Funding ∨ (w.state.swaps id).status = .Pending)
    (halone : (∀ j < w.state.nextSwapId, j ≠ id → (w.state.swaps j).status ≠ .Bridging) ∧
      ∀ send ∈ w.pending, send.id = id) :
    Credits M { w with
      state := w.state.setSwap id (reconciled M env (w.state.swaps id) orderPlaced)
      pending :=
        sendsOf id (reconcileSends M env (w.state.swaps id) orderPlaced) ++ w.pending } := by
  obtain ⟨hunsent, hlanded⟩ := hC.unsent id (.inr hs)
  -- its own sends are only now put under way, and no others are
  have hpending : w.pending = [] := List.eq_nil_iff_forall_not_mem.mpr fun send h =>
    hunsent send h (halone.2 send h)
  have hothers : ∀ j, j ≠ id → (w.state.swaps j).status ≠ .Bridging := by
    intro j hj hb
    exact halone.1 j (hC.lock.lt_next (by rw [hb]; decide)) hj hb
  have hself : ∀ j, ((w.state.setSwap id
      (reconciled M env (w.state.swaps id) orderPlaced)).swaps j).status = .Bridging → j = id := by
    intro j hj
    by_contra hne
    rw [setSwap_of_ne _ _ hne] at hj
    exact hothers j hne hj
  have hnow : ∀ j sw, (w.state.setSwap id
      (reconciled M env (w.state.swaps id) orderPlaced)).swaps j = sw → sw.status = .Bridging →
        j = id ∧ sw = reconciled M env (w.state.swaps id) orderPlaced := by
    rintro j sw rfl hb
    obtain rfl := hself j hb
    exact ⟨rfl, setSwap_self _ _ _⟩
  have hout : (reconciled M env (w.state.swaps id) orderPlaced).owedOut ≤
      flying (sendsOf id (reconcileSends M env (w.state.swaps id) orderPlaced))
        (M.tokenOut (w.state.swaps id).baseForQuote) := by
    rw [reconcileSends, sendsOf_append, sendsOf_append, flying_append, flying_append]
    have hle := le_flying_bridgeBack id (M.tokenOut (w.state.swaps id).baseForQuote)
      (reconciled M env (w.state.swaps id) orderPlaced).owedOut
    omega
  have hin : (reconciled M env (w.state.swaps id) orderPlaced).owedIn ≤
      flying (sendsOf id (reconcileSends M env (w.state.swaps id) orderPlaced))
        (M.tokenIn (w.state.swaps id).baseForQuote) := by
    rw [reconcileSends, sendsOf_append, flying_append]
    have hle := le_flying_bridgeBack id (M.tokenIn (w.state.swaps id).baseForQuote)
      (reconciled M env (w.state.swaps id) orderPlaced).owedIn
    omega
  refine
    { lock := hlock
      one := fun j k hj hk => (hself j hj).trans (hself k hk).symm
      sends := fun j hj send hsend => ?_
      unsent := fun j hj => ?_
      balanceOut := fun j sw h hb => ?_
      balanceIn := fun j sw h hb => ?_
      owedOut := fun j sw h hb _ => ?_
      owedIn := fun j sw h hb _ => ?_
      fits := hC.fits
      foreign := hC.foreign }
  · rw [hself j hj]
    rw [hpending, List.append_nil] at hsend
    exact id_of_mem_sendsOf hsend
  · have hne : j ≠ id := by
      rintro rfl
      dsimp only at hj
      rw [setSwap_self] at hj
      rcases hj with h | h | h <;> cases h
    dsimp only at hj ⊢
    rw [setSwap_of_ne _ _ hne] at hj
    refine ⟨fun send hsend => ?_, (hC.unsent j hj).2⟩
    rw [hpending, List.append_nil] at hsend
    rw [id_of_mem_sendsOf hsend]
    exact hne.symm
  · obtain ⟨rfl, rfl⟩ := hnow j sw h hb
    rw [hlanded, Nat.add_zero]
    exact congrFun henv.symm _
  · obtain ⟨rfl, rfl⟩ := hnow j sw h hb
    rw [hlanded, Nat.add_zero]
    exact congrFun henv.symm _
  · obtain ⟨rfl, rfl⟩ := hnow j sw h hb
    rw [hlanded, Nat.zero_add, hpending, List.append_nil]
    exact Nat.mul_le_mul_right _ hout
  · obtain ⟨rfl, rfl⟩ := hnow j sw h hb
    rw [hlanded, Nat.zero_add, hpending, List.append_nil]
    exact Nat.mul_le_mul_right _ hin

/-- More of its own sends, and nothing else, for the swap that awaits credits. -/
lemma resend (hC : Credits M w) (hlock : Lock s') (more : List Send)
    (hmore : ∀ send ∈ more, send.id = id) (hs : (w.state.swaps id).status = .Bridging)
    (hsame : ∀ j, ∃ retried, s'.swaps j = { w.state.swaps j with retriedL1Block := retried }) :
    Credits M { w with state := s', pending := more ++ w.pending } := by
  have hstatus : ∀ j, (s'.swaps j).status = (w.state.swaps j).status := by
    intro j
    obtain ⟨retried, h⟩ := hsame j
    rw [h]
  have hswap : ∀ j sw, s'.swaps j = sw →
      ∃ retried, sw = { w.state.swaps j with retriedL1Block := retried } := by
    rintro j sw rfl
    exact hsame j
  have hflying : ∀ token, flying w.pending token ≤ flying (more ++ w.pending) token := by
    intro token
    rw [flying_append]
    exact Nat.le_add_left _ _
  refine
    { lock := hlock
      one := fun j k hj hk => hC.one j k (hstatus j ▸ hj) (hstatus k ▸ hk)
      sends := fun j hj send hsend => ?_
      unsent := fun j hj => ?_
      balanceOut := fun j sw h hb => ?_
      balanceIn := fun j sw h hb => ?_
      owedOut := fun j sw h hb hr => ?_
      owedIn := fun j sw h hb hr => ?_
      fits := hC.fits
      foreign := hC.foreign }
  · rw [hC.one j id (hstatus j ▸ hj) hs]
    rcases List.mem_append.mp hsend with h | h
    · exact hmore send h
    · exact hC.sends id hs send h
  · dsimp only at hj ⊢
    rw [hstatus j] at hj
    obtain ⟨hunsent, hlanded⟩ := hC.unsent j hj
    refine ⟨fun send hsend => ?_, hlanded⟩
    rcases List.mem_append.mp hsend with h | h
    · rw [hmore send h]
      rintro rfl
      rw [hs] at hj
      rcases hj with h | h | h <;> cases h
    · exact hunsent send h
  · obtain ⟨retried, rfl⟩ := hswap j sw h
    exact hC.balanceOut j (w.state.swaps j) rfl hb
  · obtain ⟨retried, rfl⟩ := hswap j sw h
    exact hC.balanceIn j (w.state.swaps j) rfl hb
  · obtain ⟨retried, rfl⟩ := hswap j sw h
    exact (hC.owedOut j (w.state.swaps j) rfl hb hr).trans
      (Nat.add_le_add_left (Nat.mul_le_mul_right _ (hflying _)) _)
  · obtain ⟨retried, rfl⟩ := hswap j sw h
    exact (hC.owedIn j (w.state.swaps j) rfl hb hr).trans
      (Nat.add_le_add_left (Nat.mul_le_mul_right _ (hflying _)) _)

/-- A credit arrives for the swap that awaits it, if any does. -/
lemma land (hC : Credits M w) (h : take w.pending i = some (send, rest))
    (hfits : w.balances (M.erc20For send.token) + send.amount * 10 ^ extraFor M send.token <
      2 ^ 256) :
    Credits M { w with
      balances := Function.update w.balances (M.erc20For send.token)
        (w.balances (M.erc20For send.token) + send.amount * 10 ^ extraFor M send.token)
      pending := rest
      landed := Function.update w.landed send.id
        (Function.update (w.landed send.id) (M.erc20For send.token)
          (w.landed send.id (M.erc20For send.token) +
            send.amount * 10 ^ extraFor M send.token)) } := by
  have hmem := mem_of_take h
  set amount := send.amount * 10 ^ extraFor M send.token with hamount
  -- the balance and the record of the swap grow by the same amount
  have hboth : ∀ j, (w.state.swaps j).status = .Bridging → ∀ token snapshot,
      w.balances token = snapshot + w.landed j token →
      Function.update w.balances (M.erc20For send.token)
          (w.balances (M.erc20For send.token) + amount) token =
        snapshot + Function.update w.landed send.id
          (Function.update (w.landed send.id) (M.erc20For send.token)
            (w.landed send.id (M.erc20For send.token) + amount)) j token := by
    intro j hj token snapshot heq
    obtain rfl := hC.sends j hj send hmem
    rw [Function.update_self]
    by_cases ht : token = M.erc20For send.token
    · subst ht
      rw [Function.update_self, Function.update_self, heq]
      omega
    · rw [Function.update_of_ne ht, Function.update_of_ne ht, heq]
  have howed : ∀ j, (w.state.swaps j).status = .Bridging → ∀ token extra owed,
      extraFor M token = extra →
      owed ≤ w.landed j (M.erc20For token) + flying w.pending token * 10 ^ extra →
      owed ≤ Function.update w.landed send.id
          (Function.update (w.landed send.id) (M.erc20For send.token)
            (w.landed send.id (M.erc20For send.token) + amount)) j (M.erc20For token) +
        flying rest token * 10 ^ extra := by
    intro j hj token extra owed hextra hle
    obtain rfl := hC.sends j hj send hmem
    rw [Function.update_self]
    rw [flying_take h token, Nat.add_mul] at hle
    by_cases ht : send.token = token
    · subst ht
      rw [if_pos rfl, ← hextra, ← hamount] at hle
      rw [Function.update_self, ← hextra]
      omega
    · rw [if_neg ht, Nat.zero_mul, Nat.zero_add] at hle
      refine hle.trans (Nat.add_le_add_right ?_ _)
      by_cases he : M.erc20For token = M.erc20For send.token
      · rw [he, Function.update_self]
        exact Nat.le_add_right _ _
      · rw [Function.update_of_ne he]
  exact
    { lock := hC.lock
      one := hC.one
      sends := fun j hj s hs => hC.sends j hj s (subset_of_take h hs)
      unsent := fun j hj => by
        obtain ⟨hunsent, hlanded⟩ := hC.unsent j hj
        refine ⟨fun s hs => hunsent s (subset_of_take h hs), fun token => ?_⟩
        dsimp only
        rw [Function.update_of_ne (hunsent send hmem).symm]
        exact hlanded token
      balanceOut := fun j sw hj hs => hboth j (hj ▸ hs) _ _ (hC.balanceOut j sw hj hs)
      balanceIn := fun j sw hj hs => hboth j (hj ▸ hs) _ _ (hC.balanceIn j sw hj hs)
      owedOut := fun j sw hj hs hr => howed j (hj ▸ hs) _ _ _ (extraFor_out M _)
        (hC.owedOut j sw hj hs hr)
      owedIn := fun j sw hj hs hr => howed j (hj ▸ hs) _ _ _ (extraFor_in M _)
        (hC.owedIn j sw hj hs hr)
      fits := fun token => by
        dsimp only
        by_cases ht : token = M.erc20For send.token
        · rw [ht, Function.update_self]
          exact hfits
        · rw [Function.update_of_ne ht]
          exact hC.fits token
      foreign := hC.foreign }

/-- A send that HyperCore rejects. -/
lemma reject (hC : Credits M w) (h : take w.pending i = some (send, rest)) :
    Credits M { w with pending := rest, rejected := send.id :: w.rejected } := by
  have hrejected : ∀ j, (w.state.swaps j).status = .Bridging → j ∈ send.id :: w.rejected := by
    intro j hj
    rw [hC.sends j hj send (mem_of_take h)]
    exact List.mem_cons_self
  exact
    { lock := hC.lock
      one := hC.one
      sends := fun j hj s hs => hC.sends j hj s (subset_of_take h hs)
      unsent := fun j hj =>
        ⟨fun s hs => (hC.unsent j hj).1 s (subset_of_take h hs), (hC.unsent j hj).2⟩
      balanceOut := hC.balanceOut
      balanceIn := hC.balanceIn
      owedOut := fun j sw hj hs hr => absurd (hrejected j (hj ▸ hs)) hr
      owedIn := fun j sw hj hs hr => absurd (hrejected j (hj ▸ hs)) hr
      fits := hC.fits
      foreign := hC.foreign }

/-- The claim pays no more than what has arrived for the swap. -/
lemma claim (hC : Credits M w) {c : Call} {id : ℕ}
    (h : CoreRouter.claim M (w.sees c).env accepts w.state id = .ok (s', effects))
    (hlock : Lock s') : Credits M (w.after (.claim id) s' effects) := by
  obtain ⟨hs, hout, hin, rfl, rfl⟩ := claim_ok h
  have hbalanceOut := hC.balanceOut id _ rfl hs
  have hbalanceIn := hC.balanceIn id _ rfl hs
  simp only [World.sees] at hout hin
  have hnone : ∀ j, ((w.state.setSwap id { w.state.swaps id with status := .Done }).swaps
      j).status ≠ .Bridging := by
    intro j hj
    by_cases hid : j = id
    · subst hid
      rw [setSwap_self] at hj
      cases hj
    · rw [setSwap_of_ne _ _ hid] at hj
      exact hid (hC.one j id hj hs)
  refine of_none hlock hnone (fun j hj => ?_) (fun token => ?_) ?_
  · dsimp only [World.after] at hj ⊢
    have hid : j ≠ id := by
      rintro rfl
      rw [setSwap_self] at hj
      rcases hj with h | h | h <;> cases h
    rw [setSwap_of_ne _ _ hid] at hj
    rw [sendsOf_append, sendsOf_payLeg, sendsOf_payLeg, List.nil_append, List.nil_append]
    exact hC.unsent j hj
  · dsimp only [World.after]
    rw [List.foldl_append]
    exact ((credit_payLeg_le _ _ _ _ token).trans (credit_payLeg_le _ _ _ _ token)).trans_lt
      (hC.fits token)
  · have hlegs : ∀ token user amount, amount ≤ w.landed id token →
        (payLeg token user amount).any (exceeds (w.landed id)) = false := by
      intro token user amount hle
      unfold payLeg
      split
      · simpa [exceeds] using hle
      · rfl
    dsimp only [World.after, noteForeign]
    rw [List.any_append, hlegs _ _ _ (by omega), hlegs _ _ _ (by omega)]
    exact hC.foreign

end Credits

/-! ### Steps and runs -/

theorem credits_of_step {ev : Event} (hC : Credits M w) (halone : Alone M w ev)
    (h : World.step M w ev = .ok w') : Credits M w' := by
  cases ev with
  | land i =>
    simp only [World.step] at h
    split at h
    · rename_i send rest htake
      simp only [bind_ok_iff, guard_ok_iff, pure_ok_iff] at h
      obtain ⟨-, hfits, rfl⟩ := h
      exact hC.land htake hfits
    · cases h
  | reject i =>
    simp only [World.step] at h
    split at h
    · rename_i send rest htake
      cases h
      exact hC.reject htake
    · cases h
  | call c =>
    simp only [World.step, bind_ok_iff, pure_ok_iff] at h
    obtain ⟨⟨s', effects⟩, h, rfl⟩ := h
    have hlock : Lock s' := lock_of_step (c := w.sees c) hC.lock (by rw [step, h]; rfl)
    obtain ⟨env, accepts, op⟩ := c
    cases op with
    | initiate baseForQuote evmAmountIn limitPx minCoreOut =>
      obtain ⟨-, sw, -, hs, -, rfl, rfl⟩ := initiate_ok h
      dsimp only [World.after, noteForeign]
      rw [credit_pull_pay]
      have hnone := hC.lock.unused w.state.nextSwapId (.inr le_rfl)
      refine hC.rewrite w.state.nextSwapId hlock
        (fun j hj => Function.update_of_ne hj _ _) (by rw [hnone]; decide) ?_
        (fun _ => .inl hnone)
      dsimp only
      rw [Function.update_self, hs]
      decide
    | execute id =>
      obtain ⟨hs, rfl, sz, rfl⟩ := execute_ok h
      refine hC.rewrite id hlock (fun j hj => setSwap_of_ne _ _ hj) (by rw [hs]; decide) ?_
        (fun _ => .inr (.inl hs))
      rw [setSwap_self]
      exact (by decide : Status.Pending ≠ .Bridging)
    | settle id =>
      obtain ⟨hs, -, hrec, rfl, rfl⟩ := settle_ok h
      dsimp only [World.after, noteForeign, Op.swapId]
      rw [credit_reconcileSends]
      refine hC.reconcile rfl hlock (.inr hs) (halone (.inr hs) ?_)
      rw [decide_eq_true hs]
      exact hrec
    | claim id => exact hC.claim h hlock
    | retry id =>
      obtain ⟨hs, -, rfl, out, back, rfl⟩ := retry_ok h
      dsimp only [World.after, noteForeign, Op.swapId]
      rw [List.foldl_append, credit_bridgeBack, credit_bridgeBack]
      refine hC.resend hlock _ (fun send h => id_of_mem_sendsOf h) hs fun j => ?_
      by_cases hj : j = id
      · subst hj
        exact ⟨_, setSwap_self _ _ _⟩
      · exact ⟨(w.state.swaps j).retriedL1Block, setSwap_of_ne _ _ hj⟩
    | forceRelease id =>
      obtain ⟨-, ⟨hs, rfl, rfl⟩ | ⟨hs, ⟨hrec, rfl, rfl⟩ | ⟨rfl, rfl⟩⟩⟩ := forceRelease_ok h
      · exact hC.resend hlock [] (fun _ h => by cases h) hs
          fun j => ⟨(w.state.swaps j).retriedL1Block, rfl⟩
      · dsimp only [World.after, noteForeign, Op.swapId]
        rw [credit_reconcileSends]
        exact hC.reconcile rfl hlock hs (halone hs hrec)
      · refine hC.rewrite id hlock (fun j hj => setSwap_of_ne _ _ hj) ?_ ?_
          (fun _ => .inr hs)
        · rcases hs with hs | hs <;> rw [hs] <;> decide
        · dsimp only
          rw [setSwap_self]
          exact (by decide : Status.Aborted ≠ .Bridging)

/-- A swap whose sends have all landed passes the checks of `claim`. -/
lemma Credits.claimable (hC : Credits M w) (hbase : 10 ^ M.baseExtraEvmDecimals < 2 ^ 256)
    (hquote : 10 ^ M.quoteExtraEvmDecimals < 2 ^ 256)
    (hs : (w.state.swaps id).status = .Bridging) (hsent : ∀ send ∈ w.pending, send.id ≠ id)
    (hrejected : id ∉ w.rejected) (haccepts : ∀ e, accepts e = true) :
    ∃ s' effects, CoreRouter.claim M { env with balanceOf := w.balances } accepts w.state id =
      .ok (s', effects) := by
  have hpending : w.pending = [] := List.eq_nil_iff_forall_not_mem.mpr fun send h =>
    hsent send h (hC.sends id hs send h)
  have hbalanceOut := hC.balanceOut id _ rfl hs
  have hbalanceIn := hC.balanceIn id _ rfl hs
  have howedOut := hC.owedOut id _ rfl hs hrejected
  have howedIn := hC.owedIn id _ rfl hs hrejected
  have hfitsOut := hC.fits (M.erc20For (M.tokenOut (w.state.swaps id).baseForQuote))
  have hfitsIn := hC.fits (M.erc20For (M.tokenIn (w.state.swaps id).baseForQuote))
  have hflying : ∀ token, flying w.pending token = 0 := fun _ => by rw [hpending]; rfl
  rw [hflying, Nat.zero_mul, Nat.add_zero] at howedOut howedIn
  have hextraOut : 10 ^ M.extraOut (w.state.swaps id).baseForQuote < 2 ^ 256 := by
    unfold Market.extraOut
    split <;> assumption
  have hextraIn : 10 ^ M.extraIn (w.state.swaps id).baseForQuote < 2 ^ 256 := by
    unfold Market.extraIn
    split <;> assumption
  have hpay : ∀ token user amount message,
      payOut accepts token user amount message = .ok (payLeg token user amount) := by
    intro token user amount message
    unfold payOut payLeg transfer
    split
    · rw [guard_of_true (haccepts _)]
      rfl
    · rfl
  have howed : ¬ ((w.state.swaps id).owedOut = 0 ∧ (w.state.swaps id).owedIn = 0) := by
    have hpos := hC.lock.owed id hs
    omega
  unfold CoreRouter.claim
  dsimp only
  rw [guard_of_true hs, ok_bind, guard_of_true howed, ok_bind,
    coreToEvm_ok_iff.mpr ⟨hextraOut, by rw [evmOut] at howedOut; omega, rfl⟩, ok_bind,
    coreToEvm_ok_iff.mpr ⟨hextraIn, by rw [evmIn] at howedIn; omega, rfl⟩, ok_bind,
    addU_ok_iff.mpr ⟨by rw [evmOut] at howedOut; omega, rfl⟩, ok_bind,
    guard_of_true (by rw [evmOut] at howedOut; omega), ok_bind,
    addU_ok_iff.mpr ⟨by rw [evmIn] at howedIn; omega, rfl⟩, ok_bind,
    guard_of_true (by rw [evmIn] at howedIn; omega), ok_bind, hpay, ok_bind, hpay]
  exact ⟨_, _, rfl⟩

/-- In a run whose reconciliations are made one at a time, claims pay only a swap's own credits, and
a swap whose sends have all landed can be claimed. -/
theorem ownCredits_of_alone (M : Market) (hbase : 10 ^ M.baseExtraEvmDecimals < 2 ^ 256)
    (hquote : 10 ^ M.quoteExtraEvmDecimals < 2 ^ 256) (balances : Address → ℕ)
    (hfits : ∀ token, balances token < 2 ^ 256) (events : List Event)
    (h : (world M).Along (Alone M) (.init balances) events) :
    OwnCredits M ((world M).run (.init balances) events) := by
  have hC : Credits M ((world M).run (.init balances) events) :=
    Machine.run_induction_along (M := world M) (fun _ _ _ hC hA h => credits_of_step hC hA h)
      events (credits_init hfits) h
  exact ⟨hC.foreign, fun id hs hsent hrejected env accepts haccepts =>
    hC.claimable hbase hquote hs hsent hrejected haccepts⟩

/-- A swap of 100 base for 50 quote, up to its reconciliation. -/
def swapped (id : ℕ) (l1 : Uint64) : List Event := [
  .call (exampleCall l1 0 0 (.initiate true 100 1 1)),
  .call (exampleCall (l1 + 1) 100 0 (.execute id)),
  .call (exampleCall (l1 + 200) 0 50 (.settle id))]

/-- The same by another user. -/
def Event.sentBy (sender : Address) : Event → Event
  | .call c => .call { c with env := { c.env with sender := sender } }
  | ev      => ev

/-- Two users swap, one after the other. -/
theorem ownCredits_of_alone_swapped : OwnCredits exampleMarket ((world exampleMarket).run
    (.init fun _ => 0) (swapped 1 1 ++ [.land 0, .call (exampleCall 300 0 0 (.claim 1))] ++
      (swapped 2 301).map (Event.sentBy (Address.ofNat 8)) ++
      [.land 0, .call (exampleCall 600 0 0 (.claim 2))])) :=
  ownCredits_of_alone exampleMarket (by decide) (by decide) (fun _ => 0) (fun _ => by decide) _
    (by decide +kernel)

/-- The first swap lost the lock while its credit was under way. It takes the credit of the
second. -/
theorem claim_pays_foreign_credit : ¬ OwnCredits exampleMarket ((world exampleMarket).run
    (.init fun _ => 0) (swapped 1 1 ++ [.call (exampleCall 100300 0 0 (.forceRelease 1))] ++
      swapped 2 100301 ++ [.land 0, .call (exampleCall 100600 0 0 (.claim 1))])) := by
  rintro ⟨h, -⟩
  revert h
  decide +kernel

end Suwappu.CoreRouter.MultiUser
