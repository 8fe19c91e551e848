import Suwappu.Chain
import Suwappu.Lib.Erc721
import Suwappu.Lib.Machine

/-!
# Positions

`SuwappuPositions`: a collection of 4444 cards that are minted on a ticker, in phases, by allowlist
or by a signed payment, and a small reserve. While a token is minted its receiver is called, and
may itself call whatever the reentrancy guard leaves open. Such calls are flattened: a safe
transfer that the receiver answers with calls of its own is the transfer followed by those calls,
and one that is rejected in the end did not happen.
-/

namespace Suwappu.Positions

open Checked

/-- A 32-byte hash. -/
abbrev Bytes32 := Fin (2 ^ 256)

inductive Error where
  | PhaseNotOpen | NotAllowlisted | PhaseAllocationExhausted | ReserveExhausted | BadPhase
  | ZeroQuantity | SoldOut | TickerSoldOut | UnknownTicker | WalletLimitExceeded | WrongPayment
  | RegistryAlreadySealed | RegistryNotSealed | MintPaused | MintEnded | MintingIsClosed
  | EndAlreadyAnnounced | InvalidEndTime | IntentMismatch | PaymentNotConfigured | PriceZero
  | UnpricedAtMint | FreePhaseUnbounded | OpenPhaseUnbounded | RenounceDisabled
  | OwnableUnauthorizedAccount | SafeCastOverflowedUintDowncast | ERC721InvalidReceiver
  | ERC721InvalidSender | ERC721IncorrectOwner | ERC721InvalidOperator | FailedCall
  | Erc721 (e : Erc721.Error)
  | Panic
deriving DecidableEq, Repr

instance : Overflow Error := ⟨.Panic⟩

def MAX_SUPPLY : ℕ := 4444
def TICKER_COUNT : ℕ := 35
def MAX_PER_WALLET : ℕ := 20
def RESERVE_MAX : ℕ := 45

inductive Phase where
  | Closed | Founder | Allowlist | Public | Gold
deriving DecidableEq, Repr

instance : Fintype Phase :=
  ⟨{.Closed, .Founder, .Allowlist, .Public, .Gold}, fun p => by cases p <;> decide⟩

structure PhaseConfig where
  /-- 0: open phase, no proof required -/
  merkleRoot : Bytes32
  /-- USD cents per card -/
  price : ℕ
  walletCap : ℕ
  /-- 0: up to `MAX_SUPPLY` -/
  allocation : ℕ
  /-- 0: not scheduled -/
  startsAt : ℕ
  /-- 0: no end -/
  endsAt : ℕ
deriving DecidableEq

/-- An untouched storage slot. -/
def PhaseConfig.empty : PhaseConfig := ⟨0, 0, 0, 0, 0, 0⟩

structure Position where
  tickerIndex : ℕ
  /-- 0: minted while unpriced -/
  entryPrice : ℕ
  mintedAt : ℕ
  mintRank : ℕ
  entryMultiplier : ℕ
  isGold : Bool
deriving DecidableEq, Repr

def Position.empty : Position := ⟨0, 0, 0, 0, 0, false⟩

/-- What is fixed at deployment: the caps, which add up to the supply, the tokens, and the hashes
of the chain and contract. -/
structure Deployment where
  tickerCap : ℕ → ℕ
  tickerToken : ℕ → Address
  caps_sum : ∑ i ∈ Finset.range TICKER_COUNT, tickerCap i = MAX_SUPPLY
  /-- the leaf of a wallet and its grant -/
  leaf : Address → ℕ → Bytes32
  /-- `keccak256` of a pair -/
  efficientKeccak256 : Bytes32 → Bytes32 → Bytes32
  /-- the hash behind `mintNonce` -/
  mintNonce : Address → Phase → ℕ → ℕ → ℕ → Bytes32

structure State where
  owner : Address
  pendingOwner : Address
  token : Erc721.Ledger Address
  tickerMinted : ℕ → ℕ
  registrySealed : Bool
  oracle : Address
  positions : ℕ → Position
  minted : Address → ℕ
  goldBalance : Address → ℕ
  totalSupply : ℕ
  usdg : Address
  treasury : Address
  mintSeq : Address → ℕ
  mintEndTime : ℕ
  mintingClosedForever : Bool
  paused : Bool
  phaseConfig : Phase → PhaseConfig
  phaseMinted : Phase → ℕ
  mintedInPhase : Phase → Address → ℕ
  reserveMinted : ℕ

def State.init (owner : Address) : State where
  owner := owner
  pendingOwner := Address.zero
  token := .empty
  tickerMinted _ := 0
  registrySealed := false
  oracle := Address.zero
  positions _ := .empty
  minted _ := 0
  goldBalance _ := 0
  totalSupply := 0
  usdg := Address.zero
  treasury := Address.zero
  mintSeq _ := 0
  mintEndTime := 0
  mintingClosedForever := false
  paused := false
  phaseConfig _ := .empty
  phaseMinted _ := 0
  mintedInPhase _ _ := 0
  reserveMinted := 0

/-! ### Tokens -/

def erc721 {α : Type} : Except Erc721.Error α → Except Error α := Except.mapError .Erc721

lemma erc721_ok_iff {α : Type} {x : Except Erc721.Error α} {a : α} :
    erc721 x = .ok a ↔ x = .ok a := by
  cases x <;> simp [erc721, Except.mapError]

/-- A gold card leaves `src`. -/
def takeGold (goldBalance : Address → ℕ) (src : Option Address) : Except Error (Address → ℕ) :=
  match src with
  | none     => .ok goldBalance
  | some src => do
    let balance ← subU (goldBalance src) 1
    return Function.update goldBalance src balance

/-- A gold card arrives at `dst`. -/
def giveGold (goldBalance : Address → ℕ) (dst : Option Address) : Except Error (Address → ℕ) :=
  match dst with
  | none     => .ok goldBalance
  | some dst => do
    let balance ← addU 256 (goldBalance dst) 1
    return Function.update goldBalance dst balance

/-- The gold balances after a token moved. -/
def moveGold (s : State) (tokenId : ℕ) (src dst : Option Address) :
    Except Error (Address → ℕ) :=
  if (s.positions tokenId).isGold then do
    let goldBalance ← takeGold s.goldBalance src
    giveGold goldBalance dst
  else .ok s.goldBalance

/-- `_update` -/
def update (s : State) (dst : Option Address) (tokenId : ℕ) (auth : Option Address) :
    Except Error (State × Option Address) := do
  let (token, src) ← erc721 (s.token.update dst tokenId auth)
  let goldBalance ← moveGold s tokenId src dst
  return ({ s with token := token, goldBalance := goldBalance }, src)

/-- `transferFrom`. No transaction comes from the zero address. -/
def transferFrom (s : State) (sender src dst : Address) (tokenId : ℕ) : Except Error State := do
  guard (dst ≠ Address.zero) .ERC721InvalidReceiver
  let (s, previousOwner) ← update s (some dst) tokenId (some sender)
  guard (previousOwner = some src) .ERC721IncorrectOwner
  return s

def approve (s : State) (sender dst : Address) (tokenId : ℕ) : Except Error State := do
  let token ← erc721 (s.token.approve sender
    (if dst = Address.zero then none else some dst) tokenId)
  return { s with token := token }

def setApprovalForAll (s : State) (sender operator : Address) (approved : Bool) :
    Except Error State := do
  guard (operator ≠ Address.zero) .ERC721InvalidOperator
  return { s with token := s.token.setApprovalForAll sender operator approved }

/-! ### The owner -/

section Owner

variable (sender : Address) (timestamp : ℕ) (s : State)

def onlyOwner : Except Error Unit := guard (sender = s.owner) .OwnableUnauthorizedAccount

def sealRegistry : Except Error State := do
  onlyOwner sender s
  guard (s.registrySealed = false) .RegistryAlreadySealed
  return { s with registrySealed := true }

def setPaused (p : Bool) : Except Error State := do
  onlyOwner sender s
  return { s with paused := p }

def announceEnd (endTime : ℕ) : Except Error State := do
  onlyOwner sender s
  guard (s.mintEndTime = 0) .EndAlreadyAnnounced
  guard (¬ endTime ≤ timestamp) .InvalidEndTime
  return { s with mintEndTime := endTime }

def closeMintingForever : Except Error State := do
  onlyOwner sender s
  return { s with mintingClosedForever := true }

def setUsdg (token : Address) : Except Error State := do
  onlyOwner sender s
  return { s with usdg := token }

def setTreasury (t : Address) : Except Error State := do
  onlyOwner sender s
  guard (t ≠ Address.zero) .PaymentNotConfigured
  return { s with treasury := t }

def setOracle (o : Address) : Except Error State := do
  onlyOwner sender s
  return { s with oracle := o }

/-- The two doors to a phase: without an allowlist it needs both bounds. -/
def configure (phase : Phase) (cfg : PhaseConfig) (unbounded : Error) : Except Error State := do
  guard (¬ (cfg.merkleRoot = 0 ∧ (cfg.walletCap = 0 ∨ cfg.allocation = 0))) unbounded
  return { s with phaseConfig := Function.update s.phaseConfig phase cfg }

def configurePhase (phase : Phase) (merkleRoot : Bytes32) (price walletCap allocation startsAt
    endsAt : ℕ) : Except Error State := do
  onlyOwner sender s
  guard (phase ≠ .Closed) .BadPhase
  guard (price ≠ 0) .PriceZero
  configure s phase ⟨merkleRoot, price, walletCap, allocation, startsAt, endsAt⟩
    .OpenPhaseUnbounded

def configureFreePhase (phase : Phase) (merkleRoot : Bytes32) (walletCap allocation startsAt
    endsAt : ℕ) : Except Error State := do
  onlyOwner sender s
  guard (phase ≠ .Closed) .BadPhase
  configure s phase ⟨merkleRoot, 0, walletCap, allocation, startsAt, endsAt⟩ .FreePhaseUnbounded

def transferOwnership (newOwner : Address) : Except Error State := do
  onlyOwner sender s
  return { s with pendingOwner := newOwner }

def acceptOwnership : Except Error State := do
  guard (s.pendingOwner = sender) .OwnableUnauthorizedAccount
  return { s with owner := sender, pendingOwner := Address.zero }

def renounceOwnership : Except Error State := do
  onlyOwner sender s
  .error .RenounceDisabled

end Owner

/-! ### Calls that the reentrancy guard leaves open -/

inductive Op where
  | transferFrom (src dst : Address) (tokenId : ℕ)
  | approve (dst : Address) (tokenId : ℕ)
  | setApprovalForAll (operator : Address) (approved : Bool)
  | sealRegistry
  | setPaused (p : Bool)
  | announceEnd (endTime : ℕ)
  | closeMintingForever
  | setUsdg (token : Address)
  | setTreasury (t : Address)
  | setOracle (o : Address)
  | configurePhase (phase : Phase) (merkleRoot : Bytes32)
      (price walletCap allocation startsAt endsAt : ℕ)
  | configureFreePhase (phase : Phase) (merkleRoot : Bytes32)
      (walletCap allocation startsAt endsAt : ℕ)
  | transferOwnership (newOwner : Address)
  | acceptOwnership
  | renounceOwnership

def applyOp (sender : Address) (timestamp : ℕ) (s : State) : Op → Except Error State
  | .transferFrom src dst tokenId => transferFrom s sender src dst tokenId
  | .approve dst tokenId => approve s sender dst tokenId
  | .setApprovalForAll operator approved => setApprovalForAll s sender operator approved
  | .sealRegistry => sealRegistry sender s
  | .setPaused p => setPaused sender s p
  | .announceEnd endTime => announceEnd sender timestamp s endTime
  | .closeMintingForever => closeMintingForever sender s
  | .setUsdg token => setUsdg sender s token
  | .setTreasury t => setTreasury sender s t
  | .setOracle o => setOracle sender s o
  | .configurePhase phase merkleRoot price walletCap allocation startsAt endsAt =>
    configurePhase sender s phase merkleRoot price walletCap allocation startsAt endsAt
  | .configureFreePhase phase merkleRoot walletCap allocation startsAt endsAt =>
    configureFreePhase sender s phase merkleRoot walletCap allocation startsAt endsAt
  | .transferOwnership newOwner => transferOwnership sender s newOwner
  | .acceptOwnership => acceptOwnership sender s
  | .renounceOwnership => renounceOwnership sender s

/-- The open calls as a machine: a reverted call changes nothing. -/
def opMachine (timestamp : ℕ) : Machine State (Address × Op) Error :=
  ⟨fun s op => applyOp op.1 timestamp s op.2⟩

/-- What a called contract does: calls of its own, and then it accepts or reverts. -/
structure Answer where
  calls : List (Address × Op)
  accepts : Bool

structure Authorization where
  from_ : Address
  value : ℕ
  validAfter : ℕ
  validBefore : ℕ
  nonce : Bytes32
  v : ℕ
  r : Bytes32
  s : Bytes32
deriving DecidableEq

/-- What a call sees: its sender, the block, and the answers of other contracts. -/
structure Env where
  sender : Address
  timestamp : ℕ
  /-- `oracle.priceOf(token)`, unless it reverts -/
  priceOf : Address → Address → Option ℕ
  /-- `oracle.multiplierOf(token)`, unless it reverts -/
  multiplierOf : Address → Address → Option ℕ
  /-- `onERC721Received` of a receiver, for an operator and a token -/
  onERC721Received : Address → Address → ℕ → Answer
  /-- `usdg.receiveWithAuthorization` and the sweep to the treasury -/
  settle : Address → Authorization → Answer

/-- A call of another contract, which may call back. -/
def external (env : Env) (s : State) (answer : Answer) (e : Error) : Except Error State := do
  guard (answer.accepts = true) e
  return (opMachine env.timestamp).run s answer.calls

/-! ### Minting -/

section Mint

variable (D : Deployment) (env : Env)

/-- `_oraclePrice` -/
def oraclePrice (s : State) (tickerIndex : ℕ) : ℕ :=
  if s.oracle = Address.zero then 0
  else if D.tickerToken tickerIndex = Address.zero then 0
  else (env.priceOf s.oracle (D.tickerToken tickerIndex)).getD 0

/-- `_oracleMultiplier` -/
def oracleMultiplier (s : State) (tickerIndex : ℕ) : ℕ :=
  if s.oracle = Address.zero then 10 ^ 18
  else if D.tickerToken tickerIndex = Address.zero then 10 ^ 18
  else match env.multiplierOf s.oracle (D.tickerToken tickerIndex) with
    | none   => 10 ^ 18
    | some m => if m = 0 then 10 ^ 18 else m

/-- `_safeMint` -/
def safeMint (s : State) (dst : Address) (tokenId : ℕ) : Except Error State := do
  guard (dst ≠ Address.zero) .ERC721InvalidReceiver
  let (s, previousOwner) ← update s (some dst) tokenId none
  guard (previousOwner = none) .ERC721InvalidSender
  external env s (env.onERC721Received dst env.sender tokenId) .ERC721InvalidReceiver

/-- The loop of `_mintRun`, from `tokenId` on. -/
def mintLoop (dst : Address) (position : Position) : ℕ → ℕ → State → Except Error State
  | _, 0, s           => .ok s
  | tokenId, n + 1, s => do
    let position' := { position with mintRank := tokenId % 2 ^ 16 }
    let s ← safeMint env { s with positions := Function.update s.positions tokenId position' }
      dst tokenId
    mintLoop dst position (tokenId + 1) n s

/-- `SafeCast` to a word of `w` bits. -/
def safeCast (w n : ℕ) : Except Error ℕ := do
  guard (n < 2 ^ w) .SafeCastOverflowedUintDowncast
  return n

/-- `_mintRun` -/
def mintRun (s : State) (dst : Address) (tickerIndex quantity entry : ℕ) (gold : Bool) :
    Except Error State := do
  let minted ← addU 256 (s.minted dst) quantity
  let tickerMinted ← addU 16 (s.tickerMinted tickerIndex) (quantity % 2 ^ 16)
  let supply := s.totalSupply
  let totalSupply ← addU 256 supply quantity
  let mintedAt ← safeCast 32 env.timestamp
  let entryPrice ← safeCast 96 entry
  let entryMul := oracleMultiplier D env s tickerIndex
  let s := { s with
    minted := Function.update s.minted dst minted
    tickerMinted := Function.update s.tickerMinted tickerIndex tickerMinted
    totalSupply := totalSupply }
  mintLoop env dst ⟨tickerIndex, entryPrice, mintedAt, 0, entryMul, gold⟩ (supply + 1) quantity s

/-- `used + quantity > limit` reverts. -/
def requireWithin (used quantity limit : ℕ) (e : Error) : Except Error Unit := do
  let total ← addU 256 used quantity
  guard (¬ total > limit) e

/-- A limit of zero stands for none. -/
def requireWithinCap (used quantity cap : ℕ) (e : Error) : Except Error Unit :=
  if cap ≠ 0 then requireWithin used quantity cap e else .ok ()

/-- `Hashes.commutativeKeccak256` -/
def commutativeKeccak256 (a b : Bytes32) : Bytes32 :=
  if a < b then D.efficientKeccak256 a b else D.efficientKeccak256 b a

/-- `MerkleProof.verify` -/
def verify (proof : List Bytes32) (root leaf : Bytes32) : Bool :=
  proof.foldl (commutativeKeccak256 D) leaf = root

def checkAllowlist (s : State) (minter : Address) (phase : Phase) (quantity maxQty : ℕ)
    (proof : List Bytes32) : Except Error Unit :=
  if (s.phaseConfig phase).merkleRoot ≠ 0 then do
    guard (verify D proof (s.phaseConfig phase).merkleRoot (D.leaf minter maxQty) = true)
      .NotAllowlisted
    requireWithin (s.mintedInPhase phase minter) quantity maxQty .WalletLimitExceeded
  else .ok ()

/-- The checks of a mint that are about time: it is neither paused nor over. -/
def checkLive (s : State) : Except Error Unit := do
  guard (s.paused = false) .MintPaused
  guard (s.mintingClosedForever = false) .MintingIsClosed
  guard (¬ (s.mintEndTime ≠ 0 ∧ env.timestamp > s.mintEndTime)) .MintEnded

/-- The counters of a phase, for its wallet and in all. -/
def countInPhase (s : State) (minter : Address) (phase : Phase) (quantity : ℕ) :
    Except Error State := do
  let inPhase ← addU 256 (s.mintedInPhase phase minter) quantity
  let total ← addU 256 (s.phaseMinted phase) quantity
  return { s with
    mintedInPhase := Function.update s.mintedInPhase phase
      (Function.update (s.mintedInPhase phase) minter inPhase)
    phaseMinted := Function.update s.phaseMinted phase total }

/-- `_mintChecked` -/
def mintChecked (s : State) (minter : Address) (phase : Phase) (tickerIndex quantity maxQty : ℕ)
    (proof : List Bytes32) (allowUnpriced : Bool) : Except Error State := do
  guard (phase ≠ .Closed) .BadPhase
  guard (s.registrySealed = true) .RegistryNotSealed
  guard (quantity ≠ 0) .ZeroQuantity
  guard (¬ tickerIndex ≥ TICKER_COUNT) .UnknownTicker
  checkLive env s
  let cfg := s.phaseConfig phase
  guard (¬ (cfg.startsAt = 0 ∨ env.timestamp < cfg.startsAt)) .PhaseNotOpen
  guard (¬ (cfg.endsAt ≠ 0 ∧ env.timestamp > cfg.endsAt)) .PhaseNotOpen
  let entry := oraclePrice D env s tickerIndex
  guard (¬ (cfg.price ≠ 0 ∧ allowUnpriced = false ∧ entry = 0)) .UnpricedAtMint
  checkAllowlist D s minter phase quantity maxQty proof
  requireWithinCap (s.mintedInPhase phase minter) quantity cfg.walletCap .WalletLimitExceeded
  requireWithin (s.minted minter) quantity MAX_PER_WALLET .WalletLimitExceeded
  requireWithinCap (s.phaseMinted phase) quantity cfg.allocation .PhaseAllocationExhausted
  requireWithin s.totalSupply quantity MAX_SUPPLY .SoldOut
  requireWithin (s.tickerMinted tickerIndex) quantity (D.tickerCap tickerIndex) .TickerSoldOut
  let s ← countInPhase s minter phase quantity
  mintRun D env s minter tickerIndex quantity entry (phase = .Gold)

def mint (s : State) (phase : Phase) (tickerIndex quantity maxQty : ℕ) (proof : List Bytes32)
    (allowUnpriced : Bool) : Except Error State := do
  guard ((s.phaseConfig phase).price = 0) .WrongPayment
  mintChecked D env s env.sender phase tickerIndex quantity maxQty proof allowUnpriced

/-- USD cents to USDG base units. -/
def usdgCost (cents quantity : ℕ) : Except Error ℕ := do
  let total ← mulU 256 cents quantity
  mulU 256 total (10 ^ 4)

def mintWithAuthorization (s : State) (phase : Phase) (tickerIndex quantity maxQty : ℕ)
    (proof : List Bytes32) (allowUnpriced : Bool) (auth : Authorization) : Except Error State := do
  guard (¬ (s.usdg = Address.zero ∨ s.treasury = Address.zero)) .PaymentNotConfigured
  guard ((s.phaseConfig phase).price ≠ 0) .WrongPayment
  let cost ← usdgCost (s.phaseConfig phase).price quantity
  guard (auth.value = cost) .WrongPayment
  let seq := s.mintSeq auth.from_
  guard (auth.nonce = D.mintNonce auth.from_ phase tickerIndex quantity seq) .IntentMismatch
  let s := { s with mintSeq := Function.update s.mintSeq auth.from_ ((seq + 1) % 2 ^ 256) }
  let s ← external env s (env.settle s.usdg auth) .FailedCall
  mintChecked D env s auth.from_ phase tickerIndex quantity maxQty proof allowUnpriced

def ownerMint (s : State) (dst : Address) (tickerIndex quantity : ℕ) : Except Error State := do
  onlyOwner env.sender s
  guard (s.mintingClosedForever = false) .MintingIsClosed
  guard (s.paused = false) .MintPaused
  guard (¬ (s.mintEndTime ≠ 0 ∧ env.timestamp > s.mintEndTime)) .MintEnded
  guard (quantity ≠ 0) .ZeroQuantity
  guard (¬ tickerIndex ≥ TICKER_COUNT) .UnknownTicker
  requireWithin s.reserveMinted quantity RESERVE_MAX .ReserveExhausted
  requireWithin s.totalSupply quantity MAX_SUPPLY .SoldOut
  requireWithin (s.tickerMinted tickerIndex) quantity (D.tickerCap tickerIndex) .TickerSoldOut
  let reserve ← addU 256 s.reserveMinted quantity
  mintRun D env { s with reserveMinted := reserve } dst tickerIndex quantity
    (oraclePrice D env s tickerIndex) false

end Mint

/-! ### Runs -/

inductive Call where
  | mint (env : Env) (phase : Phase) (tickerIndex quantity maxQty : ℕ) (proof : List Bytes32)
      (allowUnpriced : Bool)
  | mintWithAuthorization (env : Env) (phase : Phase) (tickerIndex quantity maxQty : ℕ)
      (proof : List Bytes32) (allowUnpriced : Bool) (auth : Authorization)
  | ownerMint (env : Env) (dst : Address) (tickerIndex quantity : ℕ)
  | op (sender : Address) (timestamp : ℕ) (op : Op)

def step (D : Deployment) (s : State) : Call → Except Error State
  | .mint env phase tickerIndex quantity maxQty proof allowUnpriced =>
    mint D env s phase tickerIndex quantity maxQty proof allowUnpriced
  | .mintWithAuthorization env phase tickerIndex quantity maxQty proof allowUnpriced auth =>
    mintWithAuthorization D env s phase tickerIndex quantity maxQty proof allowUnpriced auth
  | .ownerMint env dst tickerIndex quantity => ownerMint D env s dst tickerIndex quantity
  | .op sender timestamp op => applyOp sender timestamp s op

/-- The deployed collection as a machine: a reverted call changes nothing. -/
def machine (D : Deployment) : Machine State Call Error := ⟨step D⟩

end Suwappu.Positions
