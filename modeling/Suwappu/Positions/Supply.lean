import Suwappu.Lib.Totals
import Suwappu.Positions.Basic

/-!
# The supply and the gold cards

Who owns what, against the counters. `Owned n` says that exactly the tokens up to `n` have owners
and that the gold balances count theirs; every open call keeps it, also one that a receiver makes
halfway through a mint. `Counted` adds the counters, and is what every call keeps.
-/

namespace Suwappu.Positions

open Checked

variable {D : Deployment} {env : Env} {s s' : State} {sender a : Address} {timestamp n : ℕ}
  {tokenId quantity tickerIndex : ℕ} {dst src auth : Option Address}

/-! ### Holdings -/

def State.holdings (s : State) : (ℕ → Option Address) × (ℕ → Position) × (Address → ℕ) :=
  (s.token.ownerOf, s.positions, s.goldBalance)

def State.counters (s : State) : ℕ × (ℕ → ℕ) × (Phase → ℕ) × ℕ :=
  (s.totalSupply, s.tickerMinted, s.phaseMinted, s.reserveMinted)

/-- A token counts for its owner, if it is gold. -/
def goldShare (s : State) (a : Address) (id : ℕ) : ℕ :=
  if s.token.ownerOf id = some a ∧ (s.positions id).isGold = true then 1 else 0

/-- Exactly the tokens up to `n` exist, and the gold balances count the gold ones. -/
structure Owned (n : ℕ) (s : State) : Prop where
  exists_iff : ∀ id, s.token.ownerOf id ≠ none ↔ 1 ≤ id ∧ id ≤ n
  gold : ∀ a, s.goldBalance a = ∑ id ∈ Finset.Ico 1 (n + 1), goldShare s a id

lemma Owned.of_holdings (hO : Owned n s) (h : s'.holdings = s.holdings) : Owned n s' := by
  simp only [State.holdings, Prod.mk.injEq] at h
  obtain ⟨howner, hpositions, hgold⟩ := h
  refine ⟨by rw [howner]; exact hO.exists_iff, fun a => ?_⟩
  rw [hgold, hO.gold]
  exact Finset.sum_congr rfl fun id _ => by rw [goldShare, goldShare, howner, hpositions]

lemma takeGold_ok {gold gold' : Address → ℕ} (h : takeGold gold src = .ok gold') (a : Address) :
    gold' a + (if src = some a then 1 else 0) = gold a := by
  cases src with
  | none =>
    cases h
    rfl
  | some b =>
    simp only [takeGold, bind_ok_iff, subU_ok_iff, pure_ok_iff] at h
    obtain ⟨_, ⟨hle, rfl⟩, rfl⟩ := h
    by_cases hb : a = b
    · subst hb
      rw [Function.update_self, if_pos rfl]
      omega
    · rw [Function.update_of_ne hb, if_neg (fun h => hb (Option.some.inj h).symm)]
      rfl

lemma giveGold_ok {gold gold' : Address → ℕ} (h : giveGold gold dst = .ok gold') (a : Address) :
    gold' a = gold a + (if dst = some a then 1 else 0) := by
  cases dst with
  | none =>
    cases h
    rfl
  | some b =>
    simp only [giveGold, bind_ok_iff, addU_ok_iff, pure_ok_iff] at h
    obtain ⟨_, ⟨-, rfl⟩, rfl⟩ := h
    by_cases hb : a = b
    · subst hb
      rw [Function.update_self, if_pos rfl]
    · rw [Function.update_of_ne hb, if_neg (fun h => hb (Option.some.inj h).symm)]
      rfl

lemma update_ok (h : update s dst tokenId auth = .ok (s', src)) :
    src = s.token.ownerOf tokenId ∧ (auth ≠ none → src ≠ none) ∧
      s'.token.ownerOf = Function.update s.token.ownerOf tokenId dst ∧
      s'.positions = s.positions ∧ s'.counters = s.counters ∧
      ∀ a, s'.goldBalance a + goldShare s a tokenId =
        s.goldBalance a + goldShare s' a tokenId := by
  simp only [update, bind_ok_iff, erc721_ok_iff, pure_ok_iff, Prod.mk.injEq] at h
  obtain ⟨⟨token, src'⟩, htoken, gold, hgold, rfl, rfl⟩ := h
  obtain ⟨hsrc, howner, hauth⟩ := Erc721.Ledger.update_ok htoken
  refine ⟨hsrc, hauth, howner, rfl, rfl, fun a => ?_⟩
  dsimp only [goldShare]
  rw [howner, Function.update_self, ← hsrc]
  unfold moveGold at hgold
  split at hgold
  · rename_i hisGold
    simp only [bind_ok_iff] at hgold
    obtain ⟨gold₁, htake, hgive⟩ := hgold
    have htake := takeGold_ok htake a
    have hgive := giveGold_ok hgive a
    simp only [hisGold, and_true]
    omega
  · rename_i hplain
    cases hgold
    rw [if_neg (fun h => hplain h.2), if_neg (fun h => hplain h.2)]

/-- A token changes hands. -/
lemma Owned.transfer (hO : Owned n s) (h : update s (some a) tokenId auth = .ok (s', src))
    (hsome : src ≠ none) : Owned n s' := by
  obtain ⟨rfl, -, howner, hpositions, -, hgold⟩ := update_ok h
  have hmem := (hO.exists_iff tokenId).mp hsome
  refine ⟨fun id => ?_, fun x => ?_⟩
  · rw [howner]
    by_cases hid : id = tokenId
    · rw [hid, Function.update_self]
      exact ⟨fun _ => hmem, fun _ => Option.some_ne_none _⟩
    · rw [Function.update_of_ne hid]
      exact hO.exists_iff id
  · have hsum := Totals.sum_add_of_eq_off (S := Finset.Ico 1 (n + 1)) (i := tokenId)
      (Finset.mem_Ico.mpr ⟨hmem.1, Nat.lt_succ_of_le hmem.2⟩) (f := goldShare s' x)
      (g := goldShare s x) fun id _ hid => by
        rw [goldShare, goldShare, howner, hpositions, Function.update_of_ne hid]
    have hgoldx := hgold x
    rw [hO.gold x] at hgoldx
    omega

/-- The next token comes into being. -/
lemma Owned.mint (hO : Owned n s) {position : Position}
    (h : update { s with positions := Function.update s.positions (n + 1) position } (some a)
      (n + 1) none = .ok (s', src)) : Owned (n + 1) s' := by
  obtain ⟨rfl, -, howner, hpositions, -, hgold⟩ := update_ok h
  have hnone : s.token.ownerOf (n + 1) = none := by
    by_contra hne
    have hle := (hO.exists_iff (n + 1)).mp hne
    omega
  refine ⟨fun id => ?_, fun x => ?_⟩
  · rw [howner]
    by_cases hid : id = n + 1
    · rw [hid, Function.update_self]
      exact ⟨fun _ => by omega, fun _ => Option.some_ne_none _⟩
    · rw [Function.update_of_ne hid]
      exact (hO.exists_iff id).trans (by omega)
  · have hold : ∑ id ∈ Finset.Ico 1 (n + 1), goldShare s' x id =
        ∑ id ∈ Finset.Ico 1 (n + 1), goldShare s x id :=
      Finset.sum_congr rfl fun id hid => by
        have hne : id ≠ n + 1 := (Finset.mem_Ico.mp hid).2.ne
        dsimp only at howner hpositions
        rw [goldShare, goldShare, howner, hpositions, Function.update_of_ne hne,
          Function.update_of_ne hne]
    have hgoldx := hgold x
    have hfresh : goldShare { s with positions := Function.update s.positions (n + 1) position }
        x (n + 1) = 0 := by
      rw [goldShare, if_neg]
      rintro ⟨h, -⟩
      rw [hnone] at h
      cases h
    rw [hfresh, Nat.add_zero] at hgoldx
    rw [Finset.sum_Ico_succ_top (by omega), hold, ← hO.gold x]
    exact hgoldx

/-! ### Open calls -/

lemma transferFrom_owned {src dst : Address} (hO : Owned n s)
    (h : transferFrom s sender src dst tokenId = .ok s') :
    Owned n s' ∧ s'.counters = s.counters := by
  simp only [transferFrom, bind_ok_iff, guard_ok_iff, exists_const, pure_ok_iff] at h
  obtain ⟨-, ⟨s₁, previousOwner⟩, hupdate, -, rfl⟩ := h
  obtain ⟨-, hauth, -, -, hcounters, -⟩ := update_ok hupdate
  exact ⟨hO.transfer hupdate (hauth (Option.some_ne_none _)), hcounters⟩

/-- Every other open call leaves tokens and counters alone. -/
lemma applyOp_settings {op : Op} (h : applyOp sender timestamp s op = .ok s') :
    (∃ src dst tokenId, op = .transferFrom src dst tokenId) ∨
      s'.holdings = s.holdings ∧ s'.counters = s.counters := by
  cases op with
  | transferFrom src dst tokenId => exact .inl ⟨src, dst, tokenId, rfl⟩
  | approve dst tokenId =>
    simp only [applyOp, approve, bind_ok_iff, erc721_ok_iff, pure_ok_iff] at h
    obtain ⟨token, htoken, rfl⟩ := h
    refine .inr ⟨?_, rfl⟩
    rw [State.holdings, State.holdings, Erc721.Ledger.approve_ok htoken]
  | renounceOwnership =>
    simp only [applyOp, renounceOwnership, bind_ok_iff] at h
    obtain ⟨-, -, h⟩ := h
    cases h
  | _ =>
    simp only [applyOp, setApprovalForAll, sealRegistry, setPaused, announceEnd,
      closeMintingForever, setUsdg, setTreasury, setOracle, configurePhase, configureFreePhase,
      configure, transferOwnership, acceptOwnership, bind_ok_iff, pure_ok_iff] at h
    right
    first
    | (obtain ⟨-, -, rfl⟩ := h; exact ⟨rfl, rfl⟩)
    | (obtain ⟨-, -, -, -, rfl⟩ := h; exact ⟨rfl, rfl⟩)
    | (obtain ⟨-, -, -, -, -, -, rfl⟩ := h; exact ⟨rfl, rfl⟩)
    | (obtain ⟨-, -, -, -, -, -, -, -, rfl⟩ := h; exact ⟨rfl, rfl⟩)

lemma applyOp_owned {op : Op} (hO : Owned n s) (h : applyOp sender timestamp s op = .ok s') :
    Owned n s' ∧ s'.counters = s.counters := by
  rcases applyOp_settings h with ⟨src, dst, tokenId, rfl⟩ | ⟨hholdings, hcounters⟩
  · exact transferFrom_owned hO h
  · exact ⟨hO.of_holdings hholdings, hcounters⟩

/-- Whatever a called contract does with the open calls. -/
lemma external_owned {answer : Answer} {e : Error} (hO : Owned n s)
    (h : external env s answer e = .ok s') : Owned n s' ∧ s'.counters = s.counters := by
  simp only [external, bind_ok_iff, guard_ok_iff, exists_const, pure_ok_iff] at h
  obtain ⟨-, rfl⟩ := h
  exact Machine.run_induction (M := opMachine env.timestamp)
    (I := fun t => Owned n t ∧ t.counters = s.counters)
    (fun t op t' ht h => by
      have hnext := applyOp_owned ht.1 h
      exact ⟨hnext.1, hnext.2.trans ht.2⟩) ⟨hO, rfl⟩ answer.calls

/-! ### Minting -/

lemma safeMint_owned (hO : Owned n s) {position : Position}
    (h : safeMint env { s with positions := Function.update s.positions (n + 1) position } a
      (n + 1) = .ok s') : Owned (n + 1) s' ∧ s'.counters = s.counters := by
  simp only [safeMint, bind_ok_iff, guard_ok_iff, exists_const] at h
  obtain ⟨-, ⟨s₁, previousOwner⟩, hupdate, -, h⟩ := h
  obtain ⟨-, -, -, -, hcounters, -⟩ := update_ok hupdate
  have hcall := external_owned (hO.mint hupdate) h
  exact ⟨hcall.1, hcall.2.trans hcounters⟩

/-- Whatever the receiver does between two tokens, the loop mints the next ones. -/
lemma mintLoop_owned {position : Position} (hO : Owned n s)
    (h : mintLoop env a position (n + 1) quantity s = .ok s') :
    Owned (n + quantity) s' ∧ s'.counters = s.counters := by
  induction quantity generalizing n s with
  | zero =>
    cases h
    exact ⟨hO, rfl⟩
  | succ q ih =>
    simp only [mintLoop, bind_ok_iff] at h
    obtain ⟨s₁, hmint, h⟩ := h
    obtain ⟨hO₁, hcounters⟩ := safeMint_owned hO hmint
    obtain ⟨hO', hcounters'⟩ := ih hO₁ h
    exact ⟨by rwa [Nat.add_assoc, Nat.add_comm 1 q] at hO', hcounters'.trans hcounters⟩

lemma mintRun_owned {entry : ℕ} {gold : Bool} (hO : Owned s.totalSupply s)
    (h : mintRun D env s a tickerIndex quantity entry gold = .ok s') :
    Owned (s.totalSupply + quantity) s' ∧
      s'.counters = (s.totalSupply + quantity,
        Function.update s.tickerMinted tickerIndex
          (s.tickerMinted tickerIndex + quantity % 2 ^ 16),
        s.phaseMinted, s.reserveMinted) := by
  simp only [mintRun, bind_ok_iff, addU_ok_iff] at h
  obtain ⟨_, ⟨-, rfl⟩, _, ⟨-, rfl⟩, _, ⟨-, rfl⟩, mintedAt, -, entryPrice, -, h⟩ := h
  refine mintLoop_owned ?_ h
  exact hO.of_holdings rfl

/-! ### The counters -/

structure Counted (D : Deployment) (s : State) : Prop where
  owned : Owned s.totalSupply s
  supply : s.totalSupply ≤ MAX_SUPPLY
  tickers : ∑ i ∈ Finset.range TICKER_COUNT, s.tickerMinted i = s.totalSupply
  caps : ∀ i < TICKER_COUNT, s.tickerMinted i ≤ D.tickerCap i
  phases : ∑ p, s.phaseMinted p + s.reserveMinted = s.totalSupply
  reserve : s.reserveMinted ≤ RESERVE_MAX

lemma Counted.of_init (D : Deployment) (owner : Address) : Counted D (.init owner) where
  owned :=
    { exists_iff := fun id => by
        simp only [State.init, Erc721.Ledger.empty, ne_eq, not_true_eq_false, false_iff]
        omega
      gold := fun _ => rfl }
  supply := Nat.zero_le _
  tickers := Finset.sum_const_zero
  caps _ _ := Nat.zero_le _
  phases := by simp [State.init]
  reserve := Nat.zero_le _

lemma Counted.of_counters (hC : Counted D s) (hO : Owned s.totalSupply s')
    (h : s'.counters = s.counters) : Counted D s' := by
  simp only [State.counters, Prod.mk.injEq] at h
  obtain ⟨htotal, htickers, hphases, hreserve⟩ := h
  exact {
    owned := htotal.symm ▸ hO
    supply := htotal.symm ▸ hC.supply
    tickers := by rw [htickers, htotal]; exact hC.tickers
    caps := by rw [htickers]; exact hC.caps
    phases := by rw [hphases, hreserve, htotal]; exact hC.phases
    reserve := hreserve.symm ▸ hC.reserve }

/-- A run of mints, once the phase or the reserve was charged for it. -/
lemma Counted.mintRun {s₁ : State} {entry : ℕ} {gold : Bool} (hC : Counted D s)
    (hholdings : s₁.holdings = s.holdings) (htotal : s₁.totalSupply = s.totalSupply)
    (htickers : s₁.tickerMinted = s.tickerMinted)
    (hphases : ∑ p, s₁.phaseMinted p + s₁.reserveMinted = s.totalSupply + quantity)
    (hreserve : s₁.reserveMinted ≤ RESERVE_MAX) (hindex : tickerIndex < TICKER_COUNT)
    (hsmall : quantity < 2 ^ 16) (hsupply : s.totalSupply + quantity ≤ MAX_SUPPLY)
    (hcap : s.tickerMinted tickerIndex + quantity ≤ D.tickerCap tickerIndex)
    (h : mintRun D env s₁ a tickerIndex quantity entry gold = .ok s') :
    Counted D s' ∧ s.totalSupply ≤ s'.totalSupply := by
  obtain ⟨hO, hcounters⟩ := mintRun_owned (htotal ▸ hC.owned.of_holdings hholdings) h
  rw [htotal, htickers, Nat.mod_eq_of_lt hsmall] at hcounters
  rw [htotal] at hO
  simp only [State.counters, Prod.mk.injEq] at hcounters
  obtain ⟨htotal', htickers', hphases', hreserve'⟩ := hcounters
  have hsum := Totals.sum_update_add (Finset.mem_range.mpr hindex) s.tickerMinted
    (s.tickerMinted tickerIndex + quantity) id
  have htickersum := hC.tickers
  refine ⟨?_, htotal'.symm ▸ Nat.le_add_right _ _⟩
  exact {
    owned := htotal'.symm ▸ hO
    supply := htotal'.symm ▸ hsupply
    tickers := by
      rw [htotal', htickers']
      dsimp only [id] at hsum
      omega
    caps := fun i hi => by
      rw [htickers']
      by_cases hne : i = tickerIndex
      · rw [hne, Function.update_self]
        exact hcap
      · rw [Function.update_of_ne hne]
        exact hC.caps i hi
    phases := by rw [htotal', hphases', hreserve']; exact hphases
    reserve := hreserve'.symm ▸ hreserve }

lemma requireWithin_ok {used limit : ℕ} {e : Error} {u : Unit} :
    requireWithin used quantity limit e = .ok u ↔
      used + quantity < 2 ^ 256 ∧ used + quantity ≤ limit := by
  simp only [requireWithin, bind_ok_iff, addU_ok_iff, guard_ok_iff]
  constructor
  · rintro ⟨_, ⟨hlt, rfl⟩, hle⟩
    exact ⟨hlt, not_lt.mp hle⟩
  · rintro ⟨hlt, hle⟩
    exact ⟨_, ⟨hlt, rfl⟩, not_lt.mpr hle⟩

/-! ### Calls -/

/-- What a checked mint established before it mints. -/
lemma mintChecked_ok {phase : Phase} {maxQty : ℕ} {proof : List Bytes32} {allowUnpriced : Bool}
    (h : mintChecked D env s a phase tickerIndex quantity maxQty proof allowUnpriced = .ok s') :
    tickerIndex < TICKER_COUNT ∧ s.minted a + quantity ≤ MAX_PER_WALLET ∧
      s.totalSupply + quantity ≤ MAX_SUPPLY ∧
      s.tickerMinted tickerIndex + quantity ≤ D.tickerCap tickerIndex ∧
      ∃ s₁, countInPhase s a phase quantity = .ok s₁ ∧
        mintRun D env s₁ a tickerIndex quantity (oraclePrice D env s tickerIndex)
          (phase = .Gold) = .ok s' := by
  simp only [mintChecked, bind_ok_iff, guard_ok_iff, exists_const, requireWithin_ok] at h
  obtain ⟨-, -, -, hindex, -, -, -, -, -, -, -, -, -, ⟨-, hwallet⟩, -, -, ⟨-, hsupply⟩,
    ⟨-, hcap⟩, h⟩ := h
  exact ⟨not_le.mp hindex, hwallet, hsupply, hcap, h⟩

lemma countInPhase_ok {phase : Phase} (h : countInPhase s a phase quantity = .ok s') :
    s'.holdings = s.holdings ∧ s'.counters = (s.totalSupply, s.tickerMinted,
      Function.update s.phaseMinted phase (s.phaseMinted phase + quantity), s.reserveMinted) := by
  simp only [countInPhase, bind_ok_iff, addU_ok_iff, pure_ok_iff] at h
  obtain ⟨_, ⟨-, rfl⟩, _, ⟨-, rfl⟩, rfl⟩ := h
  exact ⟨rfl, rfl⟩

lemma mintChecked_counted {phase : Phase} {maxQty : ℕ} {proof : List Bytes32}
    {allowUnpriced : Bool} (hC : Counted D s)
    (h : mintChecked D env s a phase tickerIndex quantity maxQty proof allowUnpriced = .ok s') :
    Counted D s' ∧ s.totalSupply ≤ s'.totalSupply := by
  obtain ⟨hindex, hwallet, hsupply, hcap, s₁, hcount, h⟩ := mintChecked_ok h
  obtain ⟨hholdings, hcounters⟩ := countInPhase_ok hcount
  simp only [State.counters, Prod.mk.injEq] at hcounters
  obtain ⟨htotal, htickers, hphaseMinted, hreserve⟩ := hcounters
  have hsmall : quantity < 2 ^ 16 := by
    unfold MAX_PER_WALLET at hwallet
    omega
  have hsum := Totals.sum_update s.phaseMinted phase (s.phaseMinted phase + quantity)
  have hphases := hC.phases
  exact hC.mintRun hholdings htotal htickers (by rw [hphaseMinted, hreserve]; omega)
    (hreserve.symm ▸ hC.reserve) hindex hsmall hsupply hcap h

lemma ownerMint_counted {dst : Address} (hC : Counted D s)
    (h : ownerMint D env s dst tickerIndex quantity = .ok s') :
    Counted D s' ∧ s.totalSupply ≤ s'.totalSupply := by
  simp only [ownerMint, bind_ok_iff, guard_ok_iff, exists_const, requireWithin_ok,
    addU_ok_iff] at h
  obtain ⟨-, -, -, -, -, -, hindex, ⟨-, hreserve⟩, ⟨-, hsupply⟩, ⟨-, hcap⟩, _, ⟨-, rfl⟩, h⟩ := h
  have hsmall : quantity < 2 ^ 16 := by
    unfold RESERVE_MAX at hreserve
    omega
  have hphases := hC.phases
  refine hC.mintRun ?_ ?_ ?_ ?_ ?_ (not_le.mp hindex) hsmall hsupply hcap h
  · rfl
  · rfl
  · rfl
  · dsimp only
    omega
  · exact hreserve

/-- What a called contract does leaves the counters as they are. -/
lemma Counted.external {answer : Answer} {e : Error} (hC : Counted D s)
    (h : external env s answer e = .ok s') :
    Counted D s' ∧ s'.totalSupply = s.totalSupply := by
  obtain ⟨hO, hcounters⟩ := external_owned hC.owned h
  refine ⟨hC.of_counters hO hcounters, ?_⟩
  simp only [State.counters, Prod.mk.injEq] at hcounters
  exact hcounters.1

lemma mintWithAuthorization_counted {phase : Phase} {maxQty : ℕ} {proof : List Bytes32}
    {allowUnpriced : Bool} {authorization : Authorization} (hC : Counted D s)
    (h : mintWithAuthorization D env s phase tickerIndex quantity maxQty proof allowUnpriced
      authorization = .ok s') :
    Counted D s' ∧ s.totalSupply ≤ s'.totalSupply := by
  simp only [mintWithAuthorization, bind_ok_iff, guard_ok_iff, exists_const] at h
  obtain ⟨-, -, cost, -, -, -, s₁, hsettle, h⟩ := h
  have hC₀ : Counted D { s with
      mintSeq := Function.update s.mintSeq authorization.from_
        ((s.mintSeq authorization.from_ + 1) % 2 ^ 256) } :=
    hC.of_counters (hC.owned.of_holdings rfl) rfl
  obtain ⟨hC₁, htotal⟩ := hC₀.external hsettle
  obtain ⟨hC', hle⟩ := mintChecked_counted hC₁ h
  exact ⟨hC', htotal.ge.trans hle⟩

theorem counted_of_step {c : Call} (hC : Counted D s) (h : step D s c = .ok s') :
    Counted D s' ∧ s.totalSupply ≤ s'.totalSupply := by
  cases c with
  | mint env phase tickerIndex quantity maxQty proof allowUnpriced =>
    simp only [step, mint, bind_ok_iff, guard_ok_iff, exists_const] at h
    exact mintChecked_counted hC h.2
  | mintWithAuthorization env phase tickerIndex quantity maxQty proof allowUnpriced auth =>
    exact mintWithAuthorization_counted hC h
  | ownerMint env dst tickerIndex quantity => exact ownerMint_counted hC h
  | op sender timestamp op =>
    obtain ⟨hO, hcounters⟩ := applyOp_owned hC.owned h
    refine ⟨hC.of_counters hO hcounters, ?_⟩
    simp only [State.counters, Prod.mk.injEq] at hcounters
    exact hcounters.1.ge

lemma counted_of_run (D : Deployment) (calls : List Call) (hC : Counted D s) :
    Counted D ((machine D).run s calls) :=
  Machine.run_induction (M := machine D) (fun _ _ _ hC h => (counted_of_step hC h).1) hC calls

/-- No call gives supply back. -/
lemma totalSupply_mono (calls : List Call) (hC : Counted D s) :
    s.totalSupply ≤ ((machine D).run s calls).totalSupply :=
  (Machine.run_induction (M := machine D)
    (I := fun t => Counted D t ∧ s.totalSupply ≤ t.totalSupply)
    (fun _ _ _ ht h => ⟨(counted_of_step ht.1 h).1, ht.2.trans (counted_of_step ht.1 h).2⟩)
    ⟨hC, le_rfl⟩ calls).2

/-- The tokens are numbered without gaps and none ever goes, every counter adds up to the supply
within its limits, and the gold balances count the gold tokens of their owners. -/
theorem supply_accounted (D : Deployment) (owner : Address) (calls : List Call) :
    let s := (machine D).run (.init owner) calls
    (∀ id, s.token.ownerOf id ≠ none ↔ 1 ≤ id ∧ id ≤ s.totalSupply) ∧
    (∀ more, s.totalSupply ≤ ((machine D).run s more).totalSupply) ∧
    s.totalSupply ≤ 4444 ∧
    ∑ i ∈ Finset.range 35, s.tickerMinted i = s.totalSupply ∧
    (∀ i < 35, s.tickerMinted i ≤ D.tickerCap i) ∧
    ∑ p, s.phaseMinted p + s.reserveMinted = s.totalSupply ∧
    s.reserveMinted ≤ 45 ∧
    ∀ a, s.goldBalance a = ((Finset.Icc 1 s.totalSupply).filter fun id =>
      s.token.ownerOf id = some a ∧ (s.positions id).isGold = true).card := by
  intro s
  have hC : Counted D s := counted_of_run D calls (.of_init D owner)
  refine ⟨hC.owned.exists_iff, fun more => totalSupply_mono more hC, hC.supply, hC.tickers,
    hC.caps, hC.phases, hC.reserve, fun a => ?_⟩
  rw [hC.owned.gold, Finset.card_filter]
  exact Finset.sum_congr (by ext id; simp) fun _ _ => rfl

end Suwappu.Positions
