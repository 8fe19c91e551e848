import Suwappu.Positions.Relayers

/-!
# What the mint page is told

`mintState` tells in one call what a wallet may mint, from counters and limits that `_mintChecked`
reads again. The two agree but for the limits that the view leaves out.
-/

namespace Suwappu.Positions

open Checked

variable {D : Deployment} {env : Env} {s s' : State} {who : Address} {phase : Phase}
  {tickerIndex quantity : ℕ} {maxQty : Uint256} {proof : List Bytes32} {allowUnpriced : Bool}

/-! ### The views -/

def phaseIsLive (env : Env) (s : State) (phase : Phase) : Bool :=
  let cfg := s.phaseConfig phase
  if cfg.startsAt = 0 ∨ env.timestamp < cfg.startsAt then false
  else if cfg.endsAt ≠ 0 ∧ env.timestamp > cfg.endsAt then false
  else if cfg.allocation ≠ 0 ∧ s.phaseMinted phase ≥ cfg.allocation then false
  else s.totalSupply < MAX_SUPPLY

/-- The limit of a wallet in a phase: its grant and the cap, as far as there are any. -/
def walletLimit (cfg : PhaseConfig) (maxQty : Uint256) : ℕ :=
  let limit := if cfg.merkleRoot ≠ 0 then maxQty.val else 2 ^ 256 - 1
  if cfg.walletCap ≠ 0 ∧ cfg.walletCap < limit then cfg.walletCap else limit

def remainingFor (s : State) (phase : Phase) (who : Address) (maxQty : Uint256) : ℕ :=
  let used := s.mintedInPhase phase who
  let limit := walletLimit (s.phaseConfig phase) maxQty
  if used ≥ limit then 0 else limit - used

structure MintState where
  live : Bool
  requiresProof : Bool
  priceUsdCents : ℕ
  /-- for one card -/
  priceUsdg : ℕ
  startsAt : ℕ
  endsAt : ℕ
  walletCap : ℕ
  allocation : ℕ
  phaseMintedSoFar : ℕ
  walletMinted : ℕ
  walletRemaining : ℕ
  tickerRemaining : ℕ
  minted : ℕ
  supplyRemaining : ℕ
  isPaused : Bool
  ended : Bool
  closedForever : Bool

/-- What the cap of a ticker leaves; there is nothing left of an unknown one. -/
def tickerRemaining (D : Deployment) (s : State) (tickerIndex : ℕ) : Except Error ℕ :=
  if tickerIndex < TICKER_COUNT then subU (D.tickerCap tickerIndex) (s.tickerMinted tickerIndex)
  else pure 0

/-- `mintState`. The zero address stands for a visitor without a wallet. -/
def mintState (D : Deployment) (env : Env) (s : State) (who : Address) (phase : Phase)
    (tickerIndex : ℕ) (maxQty : Uint256) : Except Error MintState := do
  let cfg := s.phaseConfig phase
  let priceUsdg ← usdgCost cfg.price 1
  let ended : Bool := s.mintEndTime ≠ 0 ∧ env.timestamp > s.mintEndTime
  let walletMinted := if who ≠ Address.zero then s.mintedInPhase phase who else 0
  let limit := walletLimit cfg maxQty
  let walletRemaining :=
    if who ≠ Address.zero then if walletMinted ≥ limit then 0 else limit - walletMinted else 0
  let tickerRemaining ← tickerRemaining D s tickerIndex
  let supplyRemaining ← subU MAX_SUPPLY s.totalSupply
  return {
    live := phaseIsLive env s phase && !s.paused && !ended && !s.mintingClosedForever
    requiresProof := cfg.merkleRoot ≠ 0
    priceUsdCents := cfg.price
    priceUsdg := priceUsdg
    startsAt := cfg.startsAt
    endsAt := cfg.endsAt
    walletCap := cfg.walletCap
    allocation := cfg.allocation
    phaseMintedSoFar := s.phaseMinted phase
    walletMinted := walletMinted
    walletRemaining := walletRemaining
    tickerRemaining := tickerRemaining
    minted := s.totalSupply
    supplyRemaining := supplyRemaining
    isPaused := s.paused
    ended := ended
    closedForever := s.mintingClosedForever }

/-! ### The phase that is never configured -/

section Closed

lemma configure_closed {cfg : PhaseConfig} {e : Error} (hphase : phase ≠ .Closed)
    (h : configure s phase cfg e = .ok s') : s'.phaseConfig .Closed = s.phaseConfig .Closed := by
  simp only [configure, bind_ok_iff, pure_ok_iff] at h
  obtain ⟨-, -, rfl⟩ := h
  exact Function.update_of_ne hphase.symm _ _

lemma update_closed {dst src auth : Option Address} {tokenId : ℕ}
    (h : update s dst tokenId auth = .ok (s', src)) :
    s'.phaseConfig .Closed = s.phaseConfig .Closed := by
  simp only [update, bind_ok_iff, pure_ok_iff, Prod.mk.injEq] at h
  obtain ⟨_, -, gold, -, rfl, -⟩ := h
  rfl

lemma applyOp_closed {sender : Address} {timestamp : ℕ} {op : Op}
    (h : applyOp sender timestamp s op = .ok s') :
    s'.phaseConfig .Closed = s.phaseConfig .Closed := by
  cases op with
  | configurePhase phase merkleRoot price walletCap allocation startsAt endsAt =>
    simp only [applyOp, configurePhase, bind_ok_iff, guard_ok_iff, exists_const] at h
    obtain ⟨-, -, hphase, -, h⟩ := h
    exact configure_closed hphase h
  | configureFreePhase phase merkleRoot walletCap allocation startsAt endsAt =>
    simp only [applyOp, configureFreePhase, bind_ok_iff, guard_ok_iff, exists_const] at h
    obtain ⟨-, -, hphase, h⟩ := h
    exact configure_closed hphase h
  | transferFrom src dst tokenId =>
    simp only [applyOp, transferFrom, bind_ok_iff, guard_ok_iff, exists_const, pure_ok_iff] at h
    obtain ⟨-, ⟨s₁, previousOwner⟩, hupdate, -, rfl⟩ := h
    exact update_closed hupdate
  | renounceOwnership =>
    simp only [applyOp, renounceOwnership, bind_ok_iff] at h
    obtain ⟨-, -, h⟩ := h
    cases h
  | _ =>
    simp only [applyOp, approve, setApprovalForAll, sealRegistry, setPaused, announceEnd,
      closeMintingForever, setUsdg, setTreasury, setOracle, transferOwnership, acceptOwnership,
      bind_ok_iff, pure_ok_iff] at h
    first
    | (obtain ⟨-, -, rfl⟩ := h; rfl)
    | (obtain ⟨-, -, -, -, rfl⟩ := h; rfl)
    | (obtain ⟨-, -, -, -, -, -, rfl⟩ := h; rfl)

lemma external_closed {answer : Answer} {e : Error} (h : external env s answer e = .ok s') :
    s'.phaseConfig .Closed = s.phaseConfig .Closed := by
  simp only [external, bind_ok_iff, guard_ok_iff, exists_const, pure_ok_iff] at h
  obtain ⟨-, rfl⟩ := h
  exact Machine.run_induction (M := opMachine env.timestamp)
    (I := fun t => t.phaseConfig .Closed = s.phaseConfig .Closed)
    (fun _ _ _ ht h => (applyOp_closed h).trans ht) rfl answer.calls

lemma safeMint_closed {tokenId : ℕ} (h : safeMint env s who tokenId = .ok s') :
    s'.phaseConfig .Closed = s.phaseConfig .Closed := by
  simp only [safeMint, bind_ok_iff, guard_ok_iff, exists_const] at h
  obtain ⟨-, ⟨s₁, previousOwner⟩, hupdate, -, hcall⟩ := h
  exact (external_closed hcall).trans (update_closed hupdate)

lemma mintLoop_closed {position : Position} {tokenId : ℕ}
    (h : mintLoop env who position tokenId quantity s = .ok s') :
    s'.phaseConfig .Closed = s.phaseConfig .Closed := by
  induction quantity generalizing tokenId s with
  | zero =>
    cases h
    rfl
  | succ q ih =>
    simp only [mintLoop, bind_ok_iff] at h
    obtain ⟨s₁, hmint, h⟩ := h
    have hsame := safeMint_closed hmint
    exact (ih h).trans hsame

lemma mintRun_closed {entry : ℕ} {gold : Bool}
    (h : mintRun D env s who tickerIndex quantity entry gold = .ok s') :
    s'.phaseConfig .Closed = s.phaseConfig .Closed := by
  simp only [mintRun, bind_ok_iff] at h
  obtain ⟨_, -, _, -, _, -, _, -, _, -, h⟩ := h
  have hsame := mintLoop_closed h
  exact hsame

lemma mintChecked_closed {maxQty : ℕ}
    (h : mintChecked D env s who phase tickerIndex quantity maxQty proof allowUnpriced = .ok s') :
    s'.phaseConfig .Closed = s.phaseConfig .Closed := by
  obtain ⟨-, -, -, -, s₁, hcount, hrun⟩ := mintChecked_ok h
  simp only [countInPhase, bind_ok_iff, pure_ok_iff] at hcount
  obtain ⟨_, -, _, -, rfl⟩ := hcount
  have hsame := mintRun_closed hrun
  exact hsame

lemma step_closed {c : Call} (h : step D s c = .ok s') :
    s'.phaseConfig .Closed = s.phaseConfig .Closed := by
  cases c with
  | mint env phase tickerIndex quantity maxQty proof allowUnpriced =>
    simp only [step, mint, bind_ok_iff, guard_ok_iff, exists_const] at h
    exact mintChecked_closed h.2
  | mintWithAuthorization env phase tickerIndex quantity maxQty proof allowUnpriced auth =>
    simp only [step, mintWithAuthorization, bind_ok_iff, guard_ok_iff, exists_const] at h
    obtain ⟨-, -, _, -, -, -, s₁, hsettle, h⟩ := h
    have hsame := external_closed hsettle
    exact (mintChecked_closed h).trans hsame
  | ownerMint env dst tickerIndex quantity =>
    simp only [step, ownerMint, bind_ok_iff, guard_ok_iff, exists_const, requireWithin_ok] at h
    obtain ⟨-, -, -, -, -, -, -, -, -, -, _, -, h⟩ := h
    have hsame := mintRun_closed h
    exact hsame
  | op sender timestamp op => exact applyOp_closed h

lemma run_closed (D : Deployment) (owner : Address) (calls : List Call) :
    ((machine D).run (.init owner) calls).phaseConfig .Closed = .empty :=
  Machine.run_induction (M := machine D) (I := fun s => s.phaseConfig .Closed = .empty)
    (fun _ _ _ hs h => (step_closed h).trans hs) rfl calls

end Closed

/-! ### What the view says -/

lemma phaseIsLive_iff : phaseIsLive env s phase = true ↔
    ¬ ((s.phaseConfig phase).startsAt = 0 ∨ env.timestamp < (s.phaseConfig phase).startsAt) ∧
    ¬ ((s.phaseConfig phase).endsAt ≠ 0 ∧ env.timestamp > (s.phaseConfig phase).endsAt) ∧
    ¬ ((s.phaseConfig phase).allocation ≠ 0 ∧
      s.phaseMinted phase ≥ (s.phaseConfig phase).allocation) ∧ s.totalSupply < MAX_SUPPLY := by
  unfold phaseIsLive
  dsimp only
  split_ifs with hstart hend halloc
  · exact ⟨fun h => h.elim, fun h => absurd hstart h.1⟩
  · exact ⟨fun h => h.elim, fun h => absurd hend h.2.1⟩
  · exact ⟨fun h => h.elim, fun h => absurd halloc h.2.2.1⟩
  · rw [decide_eq_true_eq]
    exact ⟨fun h => ⟨hstart, hend, halloc, h⟩, fun h => h.2.2.2⟩

lemma checkLive_ok {u : Unit} : checkLive env s = .ok u ↔ s.paused = false ∧
    s.mintingClosedForever = false ∧ ¬ (s.mintEndTime ≠ 0 ∧ env.timestamp > s.mintEndTime) := by
  simp only [checkLive, bind_ok_iff, guard_ok_iff, exists_const]

lemma le_walletLimit_iff {cfg : PhaseConfig} {n : ℕ} : n ≤ walletLimit cfg maxQty ↔
    (cfg.merkleRoot ≠ 0 → n ≤ maxQty.val) ∧ (cfg.walletCap ≠ 0 → n ≤ cfg.walletCap) ∧
      n < 2 ^ 256 := by
  have hgrant : maxQty.val < 2 ^ 256 := maxQty.isLt
  unfold walletLimit
  by_cases hroot : cfg.merkleRoot = 0
  · simp only [hroot, ne_eq, not_true_eq_false, if_false, false_implies, true_and]
    split_ifs <;> omega
  · simp only [hroot, ne_eq, not_false_eq_true, if_true, true_implies]
    split_ifs <;> omega

lemma le_remainingFor_iff (hq : 0 < quantity) : quantity ≤ remainingFor s phase who maxQty ↔
    s.mintedInPhase phase who + quantity ≤ walletLimit (s.phaseConfig phase) maxQty := by
  unfold remainingFor
  dsimp only
  split_ifs <;> omega

/-- As many cards as all three remainders allow. -/
def MintState.remaining (st : MintState) : ℕ :=
  min st.walletRemaining (min st.tickerRemaining st.supplyRemaining)

lemma tickerRemaining_ok {left : ℕ} (h : tickerRemaining D s tickerIndex = .ok left) :
    left = if tickerIndex < TICKER_COUNT then
      D.tickerCap tickerIndex - s.tickerMinted tickerIndex else 0 := by
  unfold tickerRemaining at h
  split_ifs at h ⊢
  · exact (subU_ok_iff.mp h).2.symm
  · exact (pure_ok_iff.mp h).symm

lemma mintState_ok {st : MintState} (h : mintState D env s who phase tickerIndex maxQty = .ok st) :
    (st.live = true ↔ phaseIsLive env s phase = true ∧ checkLive env s = .ok ()) ∧
      st.walletRemaining = (if who ≠ Address.zero then remainingFor s phase who maxQty else 0) ∧
      st.tickerRemaining = (if tickerIndex < TICKER_COUNT then
        D.tickerCap tickerIndex - s.tickerMinted tickerIndex else 0) ∧
      st.supplyRemaining = MAX_SUPPLY - s.totalSupply := by
  simp only [mintState, bind_ok_iff, subU_ok_iff, pure_ok_iff] at h
  obtain ⟨priceUsdg, -, left, hleft, _, ⟨-, rfl⟩, rfl⟩ := h
  refine ⟨?_, ?_, tickerRemaining_ok hleft, rfl⟩
  · rw [checkLive_ok]
    simp only [Bool.and_eq_true, Bool.not_eq_true', decide_eq_false_iff_not]
    tauto
  · by_cases hwho : who ≠ Address.zero
    · simp only [if_pos hwho]
      rfl
    · simp only [if_neg hwho]

/-- The view has the quantity on offer exactly when the checks that it shows pass. -/
lemma offered_iff (hC : Counted D s) {st : MintState}
    (h : mintState D env s who phase tickerIndex maxQty = .ok st) (hq : 0 < quantity) :
    st.live = true ∧ quantity ≤ st.remaining ↔
      phaseIsLive env s phase = true ∧ checkLive env s = .ok () ∧ who ≠ Address.zero ∧
      s.mintedInPhase phase who + quantity ≤ walletLimit (s.phaseConfig phase) maxQty ∧
      tickerIndex < TICKER_COUNT ∧
      s.tickerMinted tickerIndex + quantity ≤ D.tickerCap tickerIndex ∧
      s.totalSupply + quantity ≤ MAX_SUPPLY := by
  obtain ⟨hlive, hwallet, hticker, hsupply⟩ := mintState_ok h
  rw [MintState.remaining, le_min_iff, le_min_iff, hlive, hwallet, hticker, hsupply,
    ← le_remainingFor_iff hq]
  have htotal := hC.supply
  by_cases hwho : who ≠ Address.zero
  · rw [if_pos hwho]
    by_cases hindex : tickerIndex < TICKER_COUNT
    · have hcap := hC.caps tickerIndex hindex
      rw [if_pos hindex]
      constructor
      · rintro ⟨⟨h₁, h₂⟩, h₃, h₄, h₅⟩
        exact ⟨h₁, h₂, hwho, h₃, hindex, by omega, by omega⟩
      · rintro ⟨h₁, h₂, -, h₃, -, h₄, h₅⟩
        exact ⟨⟨h₁, h₂⟩, h₃, by omega, by omega⟩
    · rw [if_neg hindex]
      exact ⟨fun h => absurd h.2.2.1 (by omega), fun h => absurd h.2.2.2.2.1 hindex⟩
  · rw [if_neg hwho]
    refine ⟨fun h => absurd h.2.1 (by omega), fun h => absurd h.2.2.1 hwho⟩

/-! ### What the view leaves out -/

/-- The checks and casts of a mint that the view does not look at. -/
structure Unhindered (D : Deployment) (env : Env) (s : State) (who : Address) (phase : Phase)
    (tickerIndex quantity : ℕ) : Prop where
  registrySealed : s.registrySealed = true
  perWallet : s.minted who + quantity ≤ MAX_PER_WALLET
  allocation : (s.phaseConfig phase).allocation ≠ 0 →
    s.phaseMinted phase + quantity ≤ (s.phaseConfig phase).allocation
  timestamp : env.timestamp < 2 ^ 32
  price : oraclePrice D env s tickerIndex < 2 ^ 96
  receives : ∀ id, s.totalSupply < id → id ≤ s.totalSupply + quantity →
    (env.onERC721Received who env.sender id).accepts = true

/-- Whoever may mint, the view offers it to him. -/
lemma Mintable.offered (hC : Counted D s) (hm : Mintable D env s who phase tickerIndex quantity)
    (hcovers : Covers s who phase quantity maxQty) {st : MintState}
    (h : mintState D env s who phase tickerIndex maxQty = .ok st) :
    st.live = true ∧ quantity ≤ st.remaining := by
  have hq : 0 < quantity := Nat.pos_of_ne_zero hm.quantity_ne
  rw [offered_iff hC h hq, phaseIsLive_iff]
  refine ⟨⟨hm.started, hm.ended, ?_, ?_⟩, hm.live, hm.minter_ne, ?_, hm.ticker, hm.tickerCap,
    hm.supply⟩
  · rintro ⟨hne, hle⟩
    have halloc := hm.allocation hne
    omega
  · have hsupply := hm.supply
    omega
  · exact le_walletLimit_iff.mpr ⟨hcovers, hm.walletCap, hm.counts⟩

/-- What is offered to whom nothing hinders, he may mint. -/
lemma Unhindered.mintable (hC : Counted D s) (hclosed : s.phaseConfig .Closed = .empty)
    (hu : Unhindered D env s who phase tickerIndex quantity) {st : MintState}
    (h : mintState D env s who phase tickerIndex maxQty = .ok st) (hq : 0 < quantity)
    (hlive : st.live = true) (hle : quantity ≤ st.remaining) :
    Mintable D env s who phase tickerIndex quantity ∧ Covers s who phase quantity maxQty := by
  obtain ⟨hphase, hchecks, hwho, hwallet, hindex, hticker, hsupply⟩ :=
    (offered_iff hC h hq).mp ⟨hlive, hle⟩
  obtain ⟨hstart, hend, -, -⟩ := phaseIsLive_iff.mp hphase
  obtain ⟨hcovers, hcap, hcounts⟩ := le_walletLimit_iff.mp hwallet
  refine ⟨?_, hcovers⟩
  exact {
    phaseOpen := by
      rintro rfl
      rw [hclosed] at hstart
      exact hstart (.inl rfl)
    registrySealed := hu.registrySealed
    quantity_ne := hq.ne'
    ticker := hindex
    live := hchecks
    started := hstart
    ended := hend
    walletCap := hcap
    perWallet := hu.perWallet
    allocation := hu.allocation
    supply := hsupply
    tickerCap := hticker
    counts := hcounts
    timestamp := hu.timestamp
    price := hu.price
    minter_ne := hwho
    receives := hu.receives }

/-- The view and the mint agree: what is on offer can be minted with a valid proof on a ticker with
a price, and what is not on offer cannot. -/
def Agrees (D : Deployment) (env : Env) (s : State) (who : Address) (phase : Phase)
    (tickerIndex quantity : ℕ) (maxQty : Uint256) (proof : List Bytes32) (allowUnpriced : Bool)
    (st : MintState) : Prop :=
  (st.live = true → 0 < quantity → quantity ≤ st.remaining →
    ValidProof D s who phase maxQty proof → oraclePrice D env s tickerIndex ≠ 0 →
    ∃ s', mintChecked D env s who phase tickerIndex quantity maxQty proof allowUnpriced = .ok s') ∧
  (st.live = false ∨ st.remaining < quantity →
    ∃ e, mintChecked D env s who phase tickerIndex quantity maxQty proof allowUnpriced = .error e)

/-- In every reachable state, the view agrees with the mint exactly if nothing that it leaves out
hinders a mint that it offers. -/
theorem mintState_agrees_iff (D : Deployment) (env : Env) (owner : Address) (calls : List Call)
    (who : Address) (phase : Phase) (tickerIndex quantity : ℕ) (maxQty : Uint256)
    (proof : List Bytes32) (allowUnpriced : Bool) (st : MintState)
    (h : mintState D env ((machine D).run (.init owner) calls) who phase tickerIndex maxQty
      = .ok st) :
    let s := (machine D).run (.init owner) calls
    Agrees D env s who phase tickerIndex quantity maxQty proof allowUnpriced st ↔
      (st.live = true → 0 < quantity → quantity ≤ st.remaining →
        ValidProof D s who phase maxQty proof → oraclePrice D env s tickerIndex ≠ 0 →
        Unhindered D env s who phase tickerIndex quantity) := by
  intro s
  have hC : Counted D s := counted_of_run D calls (.of_init D owner)
  have hclosed : s.phaseConfig .Closed = .empty := run_closed D owner calls
  constructor
  · rintro ⟨hoffered, -⟩ hlive hq hle hvalid hpriced
    obtain ⟨hm, -⟩ := (mintChecked_isOk_iff hC).mp (hoffered hlive hq hle hvalid hpriced)
    exact ⟨hm.registrySealed, hm.perWallet, hm.allocation, hm.timestamp, hm.price, hm.receives⟩
  · refine fun hu => ⟨fun hlive hq hle hvalid hpriced => ?_, fun hnot => ?_⟩
    · obtain ⟨hm, hcovers⟩ :=
        (hu hlive hq hle hvalid hpriced).mintable hC hclosed h hq hlive hle
      exact (mintChecked_isOk_iff hC).mpr ⟨hm, .inr fun _ => hpriced, hvalid, hcovers⟩
    · cases hrun : mintChecked D env s who phase tickerIndex quantity maxQty proof
          allowUnpriced with
      | error e => exact ⟨e, rfl⟩
      | ok s' =>
        obtain ⟨hm, -, -, hcovers⟩ := (mintChecked_isOk_iff hC).mp ⟨s', hrun⟩
        obtain ⟨hlive, hle⟩ := hm.offered hC hcovers h
        rcases hnot with hnot | hnot
        · exact absurd (hlive.symm.trans hnot) (by decide)
        · omega

/-- A public phase of the collection of one ticker that caps a wallet at `walletCap` cards. -/
def publicPhase (walletCap : ℕ) : State :=
  let owner := Address.ofNat 1
  (machine oneTicker).run (.init owner) [.op owner 5 .sealRegistry,
    .op owner 5 (.setOracle (Address.ofNat 4)),
    .op owner 5 (.configurePhase .Public 0 1000 walletCap 100 6 0)]

/-- With a cap of 10 a wallet may mint the three cards it is offered. -/
theorem three_cards_agree : ∃ st, mintState oneTicker (blockWithPrice (some 7)) (publicPhase 10)
      (Address.ofNat 6) .Public 0 0 = .ok st ∧ st.live = true ∧ 3 ≤ st.remaining ∧
    Agrees oneTicker (blockWithPrice (some 7)) (publicPhase 10) (Address.ofNat 6) .Public 0 3 0 []
      false st := by
  obtain ⟨st, hst, hshown⟩ : ∃ st, mintState oneTicker (blockWithPrice (some 7)) (publicPhase 10)
      (Address.ofNat 6) .Public 0 0 = .ok st ∧ (st.live, st.remaining) = (true, 10) :=
    exists_ok_of_map (by decide +kernel)
  obtain ⟨hlive, hleft⟩ := Prod.mk.inj hshown
  refine ⟨st, hst, hlive, by omega, ?_⟩
  refine (mintState_agrees_iff oneTicker _ _ _ (Address.ofNat 6) .Public 0 3 0 [] false st
    hst).mpr fun _ _ _ _ _ => ?_
  exact {
    registrySealed := by decide +kernel
    perWallet := by decide +kernel
    allocation := by decide +kernel
    timestamp := by decide
    price := by decide +kernel
    receives := fun _ _ _ => rfl }

/-- With a cap of 50 the view offers 21 cards, one more than any wallet may hold. -/
theorem twenty_one_cards_disagree : ¬ ∀ st, mintState oneTicker (blockWithPrice (some 7))
      (publicPhase 50) (Address.ofNat 6) .Public 0 0 = .ok st →
    Agrees oneTicker (blockWithPrice (some 7)) (publicPhase 50) (Address.ofNat 6) .Public 0 21 0 []
      false st := by
  intro h
  obtain ⟨st, hst, hshown⟩ : ∃ st, mintState oneTicker (blockWithPrice (some 7)) (publicPhase 50)
      (Address.ofNat 6) .Public 0 0 = .ok st ∧ (st.live, st.remaining) = (true, 50) :=
    exists_ok_of_map (by decide +kernel)
  obtain ⟨hlive, hleft⟩ := Prod.mk.inj hshown
  obtain ⟨s', hs'⟩ := (h st hst).1 hlive (by norm_num) (by omega)
    (fun hroot => absurd (by decide +kernel) hroot) (by decide +kernel)
  have hok : (mintChecked oneTicker (blockWithPrice (some 7)) (publicPhase 50) (Address.ofNat 6)
      .Public 0 21 (0 : Uint256) [] false).isOk = true := by
    rw [hs']
    rfl
  revert hok
  decide +kernel

end Suwappu.Positions
