import Suwappu.Positions.Supply

/-!
# Who submits a paid mint

A payer signs for a phase, a ticker and a quantity, and anybody may submit the signature. What the
signature leaves open is the submitter's choice: the grant and its proof, and whether a card
without a price is acceptable. `relayer_independent_iff` says when none of these choices changes
what the payer gets.
-/

namespace Suwappu.Positions

open Checked

variable {D : Deployment} {env : Env} {s s' s₁ s₂ : State} {a : Address} {n quantity : ℕ}
  {tickerIndex : ℕ} {phase : Phase} {maxQty : ℕ} {proof : List Bytes32} {allowUnpriced : Bool}

/-! ### When a mint goes through -/

lemma requireWithinCap_ok {used cap : ℕ} {e : Error} {u : Unit} :
    requireWithinCap used quantity cap e = .ok u ↔
      (cap ≠ 0 → used + quantity < 2 ^ 256 ∧ used + quantity ≤ cap) := by
  unfold requireWithinCap
  split
  · rename_i hcap
    rw [requireWithin_ok]
    exact ⟨fun h _ => h, fun h => h hcap⟩
  · rename_i hcap
    exact ⟨fun _ h => absurd h hcap, fun _ => rfl⟩

/-- The proof shows that the wallet is listed with the grant. -/
def ValidProof (D : Deployment) (s : State) (minter : Address) (phase : Phase) (maxQty : ℕ)
    (proof : List Bytes32) : Prop :=
  (s.phaseConfig phase).merkleRoot ≠ 0 →
    verify D proof (s.phaseConfig phase).merkleRoot (D.leaf minter maxQty) = true

/-- The grant suffices for what the wallet has minted in the phase and the quantity. -/
def Covers (s : State) (minter : Address) (phase : Phase) (quantity maxQty : ℕ) : Prop :=
  (s.phaseConfig phase).merkleRoot ≠ 0 → s.mintedInPhase phase minter + quantity ≤ maxQty

lemma checkAllowlist_ok {u : Unit} (h : s.mintedInPhase phase a + quantity < 2 ^ 256) :
    checkAllowlist D s a phase quantity maxQty proof = .ok u ↔
      ValidProof D s a phase maxQty proof ∧ Covers s a phase quantity maxQty := by
  unfold checkAllowlist ValidProof Covers
  split
  · rename_i hroot
    simp only [bind_ok_iff, guard_ok_iff, exists_const, requireWithin_ok]
    constructor
    · rintro ⟨hverify, -, hle⟩
      exact ⟨fun _ => hverify, fun _ => hle⟩
    · rintro ⟨hverify, hle⟩
      exact ⟨hverify hroot, h, hle hroot⟩
  · rename_i hroot
    exact ⟨fun _ => ⟨(absurd · hroot), (absurd · hroot)⟩, fun _ => rfl⟩

/-- The oracle has a price for the ticker, or the phase asks for none. -/
def Priced (D : Deployment) (env : Env) (s : State) (phase : Phase) (tickerIndex : ℕ) : Prop :=
  (s.phaseConfig phase).price ≠ 0 → oraclePrice D env s tickerIndex ≠ 0

/-- Every check of a mint that no submitter has a say in. -/
structure Mintable (D : Deployment) (env : Env) (s : State) (minter : Address) (phase : Phase)
    (tickerIndex quantity : ℕ) : Prop where
  phaseOpen : phase ≠ .Closed
  registrySealed : s.registrySealed = true
  quantity_ne : quantity ≠ 0
  ticker : tickerIndex < TICKER_COUNT
  live : checkLive env s = .ok ()
  started : ¬ ((s.phaseConfig phase).startsAt = 0 ∨
    env.timestamp < (s.phaseConfig phase).startsAt)
  ended : ¬ ((s.phaseConfig phase).endsAt ≠ 0 ∧ env.timestamp > (s.phaseConfig phase).endsAt)
  walletCap : (s.phaseConfig phase).walletCap ≠ 0 →
    s.mintedInPhase phase minter + quantity ≤ (s.phaseConfig phase).walletCap
  perWallet : s.minted minter + quantity ≤ MAX_PER_WALLET
  allocation : (s.phaseConfig phase).allocation ≠ 0 →
    s.phaseMinted phase + quantity ≤ (s.phaseConfig phase).allocation
  supply : s.totalSupply + quantity ≤ MAX_SUPPLY
  tickerCap : s.tickerMinted tickerIndex + quantity ≤ D.tickerCap tickerIndex
  counts : s.mintedInPhase phase minter + quantity < 2 ^ 256
  timestamp : env.timestamp < 2 ^ 32
  price : oraclePrice D env s tickerIndex < 2 ^ 96
  minter_ne : minter ≠ Address.zero
  receives : ∀ id, s.totalSupply < id → id ≤ s.totalSupply + quantity →
    (env.onERC721Received minter env.sender id).accepts = true

lemma Counted.phaseMinted_le (hC : Counted D s) (phase : Phase) :
    s.phaseMinted phase ≤ s.totalSupply := by
  have hle := Finset.single_le_sum (f := s.phaseMinted) (fun _ _ => Nat.zero_le _)
    (Finset.mem_univ phase)
  have hsum := hC.phases
  omega

lemma Deployment.tickerCap_le (D : Deployment) (h : tickerIndex < TICKER_COUNT) :
    D.tickerCap tickerIndex ≤ MAX_SUPPLY := by
  rw [← D.caps_sum]
  exact Finset.single_le_sum (fun _ _ => Nat.zero_le _) (Finset.mem_range.mpr h)

lemma Owned.goldBalance_le (hO : Owned n s) (a : Address) : s.goldBalance a ≤ n := by
  rw [hO.gold]
  calc ∑ id ∈ Finset.Ico 1 (n + 1), goldShare s a id
      ≤ ∑ _id ∈ Finset.Ico 1 (n + 1), 1 := Finset.sum_le_sum fun id _ => by
        unfold goldShare
        split
        · exact le_rfl
        · exact Nat.zero_le _
    _ = n := by simp

lemma moveGold_isOk (tokenId : ℕ) (h : s.goldBalance a + 1 < 2 ^ 256) :
    ∃ gold, moveGold s tokenId none (some a) = .ok gold := by
  unfold moveGold
  split
  · simp only [takeGold, giveGold, ok_bind, bind_ok_iff, addU_ok_iff, pure_ok_iff]
    exact ⟨_, _, ⟨h, rfl⟩, rfl⟩
  · exact ⟨_, rfl⟩

lemma update_isOk {tokenId : ℕ} (hnone : s.token.ownerOf tokenId = none)
    (h : s.goldBalance a + 1 < 2 ^ 256) :
    ∃ s', update s (some a) tokenId none = .ok (s', none) := by
  obtain ⟨gold, hgold⟩ := moveGold_isOk tokenId h
  refine ⟨{ s with token := s.token.move none (some a) tokenId, goldBalance := gold }, ?_⟩
  simp only [update, Erc721.Ledger.update, Erc721.Ledger.checkAuth, hnone, bind_ok_iff,
    erc721_ok_iff, pure_ok_iff, Prod.mk.injEq]
  exact ⟨(_, none), ⟨(), trivial, rfl⟩, gold, hgold, rfl, rfl⟩

lemma safeMint_isOk (position : Position) (hO : Owned n s) (hn : n + 1 < 2 ^ 256)
    (ha : a ≠ Address.zero) (hrec : (env.onERC721Received a env.sender (n + 1)).accepts = true) :
    ∃ s', safeMint env { s with positions := Function.update s.positions (n + 1) position } a
      (n + 1) = .ok s' := by
  have hnone : s.token.ownerOf (n + 1) = none := by
    by_contra hne
    have hle := (hO.exists_iff (n + 1)).mp hne
    omega
  have hgold : s.goldBalance a + 1 < 2 ^ 256 := by
    have hle := hO.goldBalance_le a
    omega
  obtain ⟨s₁, hupdate⟩ := update_isOk
    (s := { s with positions := Function.update s.positions (n + 1) position }) hnone hgold
  simp only [safeMint, bind_ok_iff, guard_ok_iff, exists_const, external, pure_ok_iff]
  exact ⟨_, ha, (s₁, none), hupdate, rfl, hrec, rfl⟩

lemma mintLoop_isOk (position : Position) (hO : Owned n s) (hn : n + quantity < 2 ^ 256)
    (ha : a ≠ Address.zero) (hrec : ∀ id, n < id → id ≤ n + quantity →
      (env.onERC721Received a env.sender id).accepts = true) :
    ∃ s', mintLoop env a position (n + 1) quantity s = .ok s' := by
  induction quantity generalizing n s with
  | zero => exact ⟨s, rfl⟩
  | succ q ih =>
    obtain ⟨s₁, hmint⟩ := safeMint_isOk { position with mintRank := (n + 1) % 2 ^ 16 } hO
      (by omega) ha (hrec (n + 1) (Nat.lt_succ_self n) (by omega))
    obtain ⟨s', hloop⟩ := ih (safeMint_owned hO hmint).1 (by omega) fun id hlt hle =>
      hrec id (by omega) (by omega)
    exact ⟨s', bind_ok_iff.mpr ⟨s₁, hmint, hloop⟩⟩

/-- Each of the tokens was received. -/
lemma mintLoop_received {position : Position}
    (h : mintLoop env a position (n + 1) quantity s = .ok s') (id : ℕ) (hlt : n < id)
    (hle : id ≤ n + quantity) :
    a ≠ Address.zero ∧ (env.onERC721Received a env.sender id).accepts = true := by
  induction quantity generalizing n s with
  | zero => omega
  | succ q ih =>
    simp only [mintLoop, bind_ok_iff] at h
    obtain ⟨s₁, hmint, h⟩ := h
    by_cases hid : id = n + 1
    · simp only [safeMint, bind_ok_iff, guard_ok_iff, exists_const, external] at hmint
      obtain ⟨hzero, -, -, -, hrec, -⟩ := hmint
      exact ⟨hzero, hid ▸ hrec⟩
    · exact ih h (by omega) (by omega)

lemma safeCast_ok {w x y : ℕ} : safeCast w x = .ok y ↔ x < 2 ^ w ∧ x = y := by
  simp only [safeCast, bind_ok_iff, guard_ok_iff, exists_const, pure_ok_iff]

lemma mintRun_isOk {entry : ℕ} {gold : Bool} (hO : Owned s.totalSupply s)
    (hminted : s.minted a + quantity ≤ MAX_PER_WALLET)
    (hticker : s.tickerMinted tickerIndex + quantity ≤ MAX_SUPPLY)
    (hsupply : s.totalSupply + quantity ≤ MAX_SUPPLY) (htime : env.timestamp < 2 ^ 32)
    (hentry : entry < 2 ^ 96) (ha : a ≠ Address.zero)
    (hrec : ∀ id, s.totalSupply < id → id ≤ s.totalSupply + quantity →
      (env.onERC721Received a env.sender id).accepts = true) :
    ∃ s', mintRun D env s a tickerIndex quantity entry gold = .ok s' := by
  unfold MAX_PER_WALLET at hminted
  unfold MAX_SUPPLY at hticker hsupply
  have hquantity : quantity % 2 ^ 16 = quantity := Nat.mod_eq_of_lt (by omega)
  simp only [mintRun, bind_ok_iff, addU_ok_iff, safeCast_ok, hquantity]
  have hloop := fun s₁ position (hO₁ : Owned s.totalSupply s₁) =>
    mintLoop_isOk position hO₁ (by omega : s.totalSupply + quantity < 2 ^ 256) ha hrec
  obtain ⟨s', h⟩ := hloop { s with
    minted := Function.update s.minted a (s.minted a + quantity)
    tickerMinted := Function.update s.tickerMinted tickerIndex
      (s.tickerMinted tickerIndex + quantity)
    totalSupply := s.totalSupply + quantity }
    ⟨tickerIndex, entry, env.timestamp, 0, oracleMultiplier D env s tickerIndex, gold⟩
    (hO.of_holdings rfl)
  exact ⟨s', _, ⟨by omega, rfl⟩, _, ⟨by omega, rfl⟩, _, ⟨by omega, rfl⟩, _, ⟨htime, rfl⟩, _,
    ⟨hentry, rfl⟩, h⟩

lemma mintRun_received {entry : ℕ} {gold : Bool}
    (h : mintRun D env s a tickerIndex quantity entry gold = .ok s') :
    env.timestamp < 2 ^ 32 ∧ entry < 2 ^ 96 ∧
      ∀ id, s.totalSupply < id → id ≤ s.totalSupply + quantity →
        a ≠ Address.zero ∧ (env.onERC721Received a env.sender id).accepts = true := by
  simp only [mintRun, bind_ok_iff, safeCast_ok] at h
  obtain ⟨_, -, _, -, _, -, _, ⟨htime, rfl⟩, _, ⟨hentry, rfl⟩, h⟩ := h
  exact ⟨htime, hentry, mintLoop_received h⟩

lemma countInPhase_isOk (h : s.mintedInPhase phase a + quantity < 2 ^ 256)
    (h' : s.phaseMinted phase + quantity < 2 ^ 256) :
    ∃ s', countInPhase s a phase quantity = .ok s' := by
  simp only [countInPhase, bind_ok_iff, addU_ok_iff, pure_ok_iff]
  exact ⟨_, _, ⟨h, rfl⟩, _, ⟨h', rfl⟩, rfl⟩

lemma countInPhase_minted (h : countInPhase s a phase quantity = .ok s') :
    s'.minted = s.minted ∧ s.mintedInPhase phase a + quantity < 2 ^ 256 := by
  simp only [countInPhase, bind_ok_iff, addU_ok_iff, pure_ok_iff] at h
  obtain ⟨_, ⟨hlt, rfl⟩, _, ⟨-, rfl⟩, rfl⟩ := h
  exact ⟨rfl, hlt⟩

lemma Mintable.mintRun_isOk {entry : ℕ} (gold : Bool) (hC : Counted D s)
    (hm : Mintable D env s a phase tickerIndex quantity)
    (hcount : countInPhase s a phase quantity = .ok s₁) (hentry : entry < 2 ^ 96) :
    ∃ s', mintRun D env s₁ a tickerIndex quantity entry gold = .ok s' := by
  obtain ⟨hholdings, hcounters⟩ := countInPhase_ok hcount
  simp only [State.counters, Prod.mk.injEq] at hcounters
  obtain ⟨htotal, htickers, -, -⟩ := hcounters
  apply Positions.mintRun_isOk
  · rw [htotal]
    exact hC.owned.of_holdings hholdings
  · rw [(countInPhase_minted hcount).1]
    exact hm.perWallet
  · rw [htickers]
    exact hm.tickerCap.trans (D.tickerCap_le hm.ticker)
  · rw [htotal]
    exact hm.supply
  · exact hm.timestamp
  · exact hentry
  · exact hm.minter_ne
  · rw [htotal]
    exact hm.receives

/-- A checked mint goes through exactly when the wallet may mint, the grant is proved and suffices,
and the ticker is priced where a price is asked for. -/
lemma mintChecked_isOk_iff (hC : Counted D s) :
    (∃ s', mintChecked D env s a phase tickerIndex quantity maxQty proof allowUnpriced = .ok s') ↔
      Mintable D env s a phase tickerIndex quantity ∧
        (allowUnpriced = true ∨ Priced D env s phase tickerIndex) ∧
        ValidProof D s a phase maxQty proof ∧ Covers s a phase quantity maxQty := by
  constructor
  · rintro ⟨s', h⟩
    simp only [mintChecked, bind_ok_iff, guard_ok_iff, exists_const, requireWithin_ok,
      requireWithinCap_ok] at h
    obtain ⟨hphase, hsealed, hquantity, hindex, ⟨⟩, hlive, hstart, hend, hunpriced, ⟨⟩, hlist,
      hcap, ⟨-, hwallet⟩, halloc, ⟨-, hsupply⟩, ⟨-, hticker⟩, s₁, hcount, hrun⟩ := h
    obtain ⟨-, hcounters⟩ := countInPhase_ok hcount
    simp only [State.counters, Prod.mk.injEq] at hcounters
    obtain ⟨htime, hentry, hrec⟩ := mintRun_received hrun
    rw [hcounters.1] at hrec
    have hcounts := (countInPhase_minted hcount).2
    obtain ⟨hvalid, hcovers⟩ := (checkAllowlist_ok hcounts).mp hlist
    refine ⟨?_, ?_, hvalid, hcovers⟩
    · exact {
        phaseOpen := hphase
        registrySealed := hsealed
        quantity_ne := hquantity
        ticker := not_le.mp hindex
        live := hlive
        started := hstart
        ended := hend
        walletCap := fun h => (hcap h).2
        perWallet := hwallet
        allocation := fun h => (halloc h).2
        supply := hsupply
        tickerCap := hticker
        counts := hcounts
        timestamp := htime
        price := hentry
        minter_ne := (hrec (s.totalSupply + 1) (by omega) (by omega)).1
        receives := fun id hlt hle => (hrec id hlt hle).2 }
    · by_cases hallow : allowUnpriced = true
      · exact .inl hallow
      · exact .inr fun hprice hzero =>
          hunpriced ⟨hprice, Bool.eq_false_iff.mpr hallow, hzero⟩
  · rintro ⟨hm, hpriced, hvalid, hcovers⟩
    have hsupply := hm.supply
    have hwallet := hm.perWallet
    have hticker := hm.tickerCap.trans (D.tickerCap_le hm.ticker)
    have hphase := hC.phaseMinted_le phase
    have hcounts := hm.counts
    unfold MAX_SUPPLY at hsupply hticker
    unfold MAX_PER_WALLET at hwallet
    obtain ⟨s₁, hcount⟩ := countInPhase_isOk hcounts
      (by omega : s.phaseMinted phase + quantity < 2 ^ 256)
    obtain ⟨s', hrun⟩ := hm.mintRun_isOk (decide (phase = .Gold)) hC hcount hm.price
    refine ⟨s', ?_⟩
    simp only [mintChecked, bind_ok_iff, guard_ok_iff, exists_const, requireWithin_ok,
      requireWithinCap_ok]
    refine ⟨hm.phaseOpen, hm.registrySealed, hm.quantity_ne, not_le.mpr hm.ticker, (), hm.live,
      hm.started, hm.ended, ?_, (), (checkAllowlist_ok hcounts).mpr ⟨hvalid, hcovers⟩,
      fun h => ⟨hcounts, hm.walletCap h⟩, ⟨by omega, hm.perWallet⟩,
      fun h => ⟨by omega, hm.allocation h⟩, ⟨by omega, hm.supply⟩, ⟨by omega, hm.tickerCap⟩,
      s₁, hcount, hrun⟩
    rintro ⟨hprice, hallow, hzero⟩
    rcases hpriced with h | h
    · exact absurd (h.symm.trans hallow) (by decide)
    · exact h hprice hzero

/-! ### Submissions -/

/-- What the submitter of a signed mint brings along. -/
structure Submission where
  relayer : Address
  maxQty : Uint256
  proof : List Bytes32
  allowUnpriced : Bool

/-- The call of a relayer that submits the signature. -/
def submit (D : Deployment) (env : Env) (s : State) (phase : Phase) (tickerIndex quantity : ℕ)
    (auth : Authorization) (b : Submission) : Except Error State :=
  mintWithAuthorization D { env with sender := b.relayer } s phase tickerIndex quantity b.maxQty
    b.proof b.allowUnpriced auth

/-- The owner, the ticker, the entry price and the gold flag of every card. -/
def State.cards (s : State) : ℕ → Option Address × ℕ × ℕ × Bool := fun id =>
  (s.token.ownerOf id, (s.positions id).tickerIndex, (s.positions id).entryPrice,
    (s.positions id).isGold)

/-- The state in which the payment is settled and the mint is checked. -/
def settled (env : Env) (s : State) (auth : Authorization) : State :=
  (opMachine env.timestamp).run
    { s with
      mintSeq := Function.update s.mintSeq auth.from_ ((s.mintSeq auth.from_ + 1) % 2 ^ 256) }
    (env.settle s.usdg auth).calls

/-- The submitters of a signature have no say in the cards it mints, nor in whether it does, but
for a proof that does not show the payer's grant. -/
def RelayerIndependent (D : Deployment) (env : Env) (s : State) (phase : Phase)
    (tickerIndex quantity : ℕ) (auth : Authorization) : Prop :=
  ∀ b b' : Submission,
    ValidProof D (settled env s auth) auth.from_ phase b.maxQty b.proof →
    ValidProof D (settled env s auth) auth.from_ phase b'.maxQty b'.proof →
    (submit D env s phase tickerIndex quantity auth b).toOption.map State.cards =
      (submit D env s phase tickerIndex quantity auth b').toOption.map State.cards

/-- The payment is set up, the signature is for this mint, and the token honours it. -/
structure Payable (D : Deployment) (env : Env) (s : State) (phase : Phase)
    (tickerIndex quantity : ℕ) (auth : Authorization) : Prop where
  configured : ¬ (s.usdg = Address.zero ∨ s.treasury = Address.zero)
  priced : (s.phaseConfig phase).price ≠ 0
  cost : usdgCost (s.phaseConfig phase).price quantity = .ok auth.value
  nonce : auth.nonce = D.mintNonce auth.from_ phase tickerIndex quantity (s.mintSeq auth.from_)
  settles : (env.settle s.usdg auth).accepts = true

section Submit

variable {auth : Authorization} {b b' : Submission}

lemma submit_ok_iff : submit D env s phase tickerIndex quantity auth b = .ok s' ↔
    Payable D env s phase tickerIndex quantity auth ∧
      mintChecked D { env with sender := b.relayer } (settled env s auth) auth.from_ phase
        tickerIndex quantity b.maxQty b.proof b.allowUnpriced = .ok s' := by
  simp only [submit, mintWithAuthorization, external, bind_ok_iff, guard_ok_iff, exists_const,
    pure_ok_iff]
  constructor
  · rintro ⟨hconfigured, hpriced, cost, hcost, hvalue, hnonce, _, ⟨hsettles, rfl⟩, h⟩
    exact ⟨⟨hconfigured, hpriced, hvalue.symm ▸ hcost, hnonce, hsettles⟩, h⟩
  · rintro ⟨hp, h⟩
    exact ⟨hp.configured, hp.priced, _, hp.cost, rfl, hp.nonce, _, ⟨hp.settles, rfl⟩, h⟩

lemma Payable.settled_counted (hC : Counted D s)
    (hp : Payable D env s phase tickerIndex quantity auth) : Counted D (settled env s auth) := by
  have hC₀ : Counted D { s with
      mintSeq := Function.update s.mintSeq auth.from_ ((s.mintSeq auth.from_ + 1) % 2 ^ 256) } :=
    hC.of_counters (hC.owned.of_holdings rfl) rfl
  have hcall : external env { s with
      mintSeq := Function.update s.mintSeq auth.from_ ((s.mintSeq auth.from_ + 1) % 2 ^ 256) }
      (env.settle s.usdg auth) .FailedCall = .ok (settled env s auth) := by
    simp only [external, bind_ok_iff, guard_ok_iff, exists_const, hp.settles, true_and]
    rfl
  exact (hC₀.external hcall).1

variable (hwallet : ∀ operator operator' id, env.onERC721Received auth.from_ operator id =
  env.onERC721Received auth.from_ operator' id)

include hwallet

lemma mintable_iff (relayer : Address) :
    Mintable D { env with sender := relayer } s auth.from_ phase tickerIndex quantity ↔
      Mintable D env s auth.from_ phase tickerIndex quantity := by
  constructor
  · intro h
    exact { h with
      receives := fun id hlt hle => (hwallet env.sender relayer id).symm ▸ h.receives id hlt hle }
  · intro h
    exact { h with
      receives := fun id hlt hle => (hwallet relayer env.sender id).symm ▸ h.receives id hlt hle }

lemma mintLoop_relayer {position : Position} {tokenId : ℕ} (relayer : Address) :
    mintLoop { env with sender := relayer } auth.from_ position tokenId quantity s =
      mintLoop env auth.from_ position tokenId quantity s := by
  induction quantity generalizing tokenId s with
  | zero => rfl
  | succ q ih =>
    simp only [mintLoop, safeMint, ih, hwallet relayer env.sender]
    rfl

lemma mintRun_relayer {entry : ℕ} {gold : Bool} (relayer : Address) :
    mintRun D { env with sender := relayer } s auth.from_ tickerIndex quantity entry gold =
      mintRun D env s auth.from_ tickerIndex quantity entry gold := by
  simp only [mintRun, mintLoop_relayer hwallet]
  rfl

/-- Two submissions that both go through mint the same. -/
lemma submit_congr (h : submit D env s phase tickerIndex quantity auth b = .ok s₁)
    (h' : submit D env s phase tickerIndex quantity auth b' = .ok s₂) : s₁ = s₂ := by
  obtain ⟨-, h⟩ := submit_ok_iff.mp h
  obtain ⟨-, h'⟩ := submit_ok_iff.mp h'
  obtain ⟨-, -, -, -, t, hcount, hrun⟩ := mintChecked_ok h
  obtain ⟨-, -, -, -, t', hcount', hrun'⟩ := mintChecked_ok h'
  cases hcount.symm.trans hcount'
  rw [mintRun_relayer hwallet] at hrun hrun'
  exact Except.ok.inj (hrun.symm.trans hrun')

variable (quantity tickerIndex phase b) in
lemma submit_isOk_iff (hC : Counted D s)
    (hvalid : ValidProof D (settled env s auth) auth.from_ phase b.maxQty b.proof) :
    (∃ s', submit D env s phase tickerIndex quantity auth b = .ok s') ↔
      Payable D env s phase tickerIndex quantity auth ∧
        Mintable D env (settled env s auth) auth.from_ phase tickerIndex quantity ∧
        (b.allowUnpriced = true ∨ Priced D env (settled env s auth) phase tickerIndex) ∧
        Covers (settled env s auth) auth.from_ phase quantity b.maxQty := by
  simp only [submit_ok_iff, exists_and_left]
  refine and_congr_right fun hp => ?_
  rw [mintChecked_isOk_iff (hp.settled_counted hC), mintable_iff hwallet]
  refine and_congr_right fun _ => and_congr Iff.rfl ⟨fun h => h.2, fun h => ⟨hvalid, h⟩⟩

lemma cards_eq_of_isOk_iff
    (h : (∃ s', submit D env s phase tickerIndex quantity auth b = .ok s') ↔
      ∃ s', submit D env s phase tickerIndex quantity auth b' = .ok s') :
    (submit D env s phase tickerIndex quantity auth b).toOption.map State.cards =
      (submit D env s phase tickerIndex quantity auth b').toOption.map State.cards := by
  cases hb : submit D env s phase tickerIndex quantity auth b with
  | ok t =>
    obtain ⟨t', hb'⟩ := h.mp ⟨t, hb⟩
    rw [hb', submit_congr hwallet hb hb']
  | error e =>
    cases hb' : submit D env s phase tickerIndex quantity auth b' with
    | ok t' =>
      obtain ⟨t, ht⟩ := h.mpr ⟨t', hb'⟩
      rw [hb] at ht
      cases ht
    | error e' => rfl

omit hwallet in
lemma isOk_iff_of_cards_eq
    (h : (submit D env s phase tickerIndex quantity auth b).toOption.map State.cards =
      (submit D env s phase tickerIndex quantity auth b').toOption.map State.cards) :
    (∃ s', submit D env s phase tickerIndex quantity auth b = .ok s') ↔
      ∃ s', submit D env s phase tickerIndex quantity auth b' = .ok s' := by
  cases hb : submit D env s phase tickerIndex quantity auth b <;>
    cases hb' : submit D env s phase tickerIndex quantity auth b' <;>
    simp [hb, hb', Except.toOption] at h ⊢

end Submit

/-- The payer is listed with the grant, in a phase that has a list. -/
def Listed (D : Deployment) (s : State) (minter : Address) (phase : Phase) (maxQty : Uint256) :
    Prop :=
  ∃ proof, ValidProof D s minter phase maxQty proof

/-- For a payer whose wallet answers all operators alike, as an account that signs with a key
does, the submitter has no say exactly if the mint cannot go through for anybody, or every grant
of the payer suffices and the ticker has a price. -/
theorem relayer_independent_iff (D : Deployment) (env : Env) (owner : Address)
    (calls : List Call) (phase : Phase) (tickerIndex quantity : ℕ) (auth : Authorization)
    (hwallet : ∀ operator operator' id, env.onERC721Received auth.from_ operator id =
      env.onERC721Received auth.from_ operator' id) :
    let s := (machine D).run (.init owner) calls
    let s₁ := settled env s auth
    RelayerIndependent D env s phase tickerIndex quantity auth ↔
      (Payable D env s phase tickerIndex quantity auth →
        Mintable D env s₁ auth.from_ phase tickerIndex quantity →
        (∀ maxQty, Listed D s₁ auth.from_ phase maxQty →
          ¬ Covers s₁ auth.from_ phase quantity maxQty) ∨
        Priced D env s₁ phase tickerIndex ∧
          ∀ maxQty, Listed D s₁ auth.from_ phase maxQty →
            Covers s₁ auth.from_ phase quantity maxQty) := by
  intro s s₁
  have hC : Counted D s := counted_of_run D calls (.of_init D owner)
  have hiff := fun b => submit_isOk_iff quantity tickerIndex phase b hwallet hC
  constructor
  · intro h hp hm
    by_cases hnone : ∀ maxQty, Listed D s₁ auth.from_ phase maxQty →
        ¬ Covers s₁ auth.from_ phase quantity maxQty
    · exact .inl hnone
    push Not at hnone
    obtain ⟨m, ⟨proof, hvalid⟩, hcovers⟩ := hnone
    have hok := (hiff ⟨env.sender, m, proof, true⟩ hvalid).mpr ⟨hp, hm, .inl rfl, hcovers⟩
    refine .inr ⟨?_, ?_⟩
    · have hok' := (isOk_iff_of_cards_eq (h ⟨env.sender, m, proof, true⟩
        ⟨env.sender, m, proof, false⟩ hvalid hvalid)).mp hok
      exact ((hiff _ hvalid).mp hok').2.2.1.resolve_left Bool.false_ne_true
    · rintro m' ⟨proof', hvalid'⟩
      have hok' := (isOk_iff_of_cards_eq (h ⟨env.sender, m, proof, true⟩
        ⟨env.sender, m', proof', true⟩ hvalid hvalid')).mp hok
      exact ((hiff _ hvalid').mp hok').2.2.2
  · intro h b b' hvalid hvalid'
    refine cards_eq_of_isOk_iff hwallet ?_
    rw [hiff b hvalid, hiff b' hvalid']
    refine and_congr_right fun hp => and_congr_right fun hm => ?_
    rcases h hp hm with hnone | ⟨hpriced, hall⟩
    · have hb := hnone _ ⟨_, hvalid⟩
      have hb' := hnone _ ⟨_, hvalid'⟩
      exact ⟨fun h => absurd h.2 hb, fun h => absurd h.2 hb'⟩
    · have hb := hall _ ⟨_, hvalid⟩
      have hb' := hall _ ⟨_, hvalid'⟩
      exact ⟨fun _ => ⟨.inr hpriced, hb'⟩, fun _ => ⟨.inr hpriced, hb⟩⟩

/-! ### A ticker without a price -/

/-- A collection of one ticker, with stand-ins for its hashes. -/
def oneTicker : Deployment where
  tickerCap i := if i = 0 then MAX_SUPPLY else 0
  tickerToken _ := Address.ofNat 9
  caps_sum := by
    rw [Finset.sum_ite_eq' (Finset.range TICKER_COUNT)]
    rfl
  leaf minter maxQty := Fin.ofNat _ (minter.val + 2 ^ 160 * maxQty)
  efficientKeccak256 a b := Fin.ofNat _ (a.val + 3 * b.val)
  mintNonce payer phase tickerIndex quantity seq := Fin.ofNat _ (payer.val +
    2 ^ 160 * (phase.ctorIdx + 2 ^ 3 * (tickerIndex + 2 ^ 8 * (quantity + 2 ^ 16 * seq))))

/-- The owner opens a paid public phase. -/
def openPublic : List Call :=
  let owner := Address.ofNat 1
  [.op owner 5 .sealRegistry, .op owner 5 (.setUsdg (Address.ofNat 2)),
    .op owner 5 (.setTreasury (Address.ofNat 3)), .op owner 5 (.setOracle (Address.ofNat 4)),
    .op owner 5 (.configurePhase .Public 0 1000 10 100 6 0)]

/-- A block in which the oracle answers `price`, and every payment is honoured. -/
def blockWithPrice (price : Option ℕ) : Env where
  sender := Address.ofNat 5
  timestamp := 10
  priceOf _ _ := price
  multiplierOf _ _ := none
  onERC721Received _ _ _ := ⟨[], true⟩
  settle _ _ := ⟨[], true⟩

/-- The payer's signature for one card. -/
def oneCard : Authorization where
  from_ := Address.ofNat 6
  value := 10000000
  validAfter := 0
  validBefore := 20
  nonce := oneTicker.mintNonce (Address.ofNat 6) .Public 0 1 0
  v := 27
  r := 1
  s := 1

theorem oneCard_independent_of_relayer :
    RelayerIndependent oneTicker (blockWithPrice (some 7))
      ((machine oneTicker).run (.init (Address.ofNat 1)) openPublic) .Public 0 1 oneCard := by
  refine (relayer_independent_iff oneTicker (blockWithPrice (some 7)) (Address.ofNat 1) openPublic
    .Public 0 1 oneCard fun _ _ _ => rfl).mpr fun _ _ => .inr ⟨?_, ?_⟩
  · intro _
    decide +kernel
  · intro _ _ hroot
    exact absurd (by decide +kernel) hroot

/-- While the oracle is down, one relayer mints the card without a price, and another does not
mint it. -/
theorem oneCard_depends_on_relayer :
    ¬ RelayerIndependent oneTicker (blockWithPrice none)
      ((machine oneTicker).run (.init (Address.ofNat 1)) openPublic) .Public 0 1 oneCard := by
  intro h
  have hroot : ((settled (blockWithPrice none) ((machine oneTicker).run (.init (Address.ofNat 1))
      openPublic) oneCard).phaseConfig .Public).merkleRoot = 0 := by decide +kernel
  have heq := congrArg Option.isSome (h ⟨Address.ofNat 7, 0, [], true⟩
    ⟨Address.ofNat 8, 0, [], false⟩ (absurd hroot) (absurd hroot))
  simp only [Option.isSome_map] at heq
  revert heq
  decide +kernel

end Suwappu.Positions
