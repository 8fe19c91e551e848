import Suwappu.Chain
import Suwappu.Lib.Machine
import Suwappu.Primitives.MulDiv

/-!
# Bonds

`SuwppuBonds`: liquidity positions sold to the treasury for SUWP that vests over seven days. What a
position holds and what SUWP costs comes from Uniswap; a call takes both as they are answered. The
machine also counts what the calls did outside: the SUWP minted for each bond, the positions taken
in, and the bonds that were cancelled.
-/

namespace Suwappu.Bonds

open Checked

inductive Error where
  | require (message : String)
  | EnforcedPause | ExpectedPause | OwnableUnauthorizedAccount | OwnableInvalidOwner
  | FailedCall
  | Panic
deriving DecidableEq, Repr

instance : Overflow Error := ⟨.Panic⟩

/-- `FullMath.mulDiv` is the same algorithm as `_mulDiv`, and reverts with no reason. -/
instance : MulDivError Error := { divZero := .require "", mulDivOverflow := .require "" }

/-- 7 days -/
def VESTING_DURATION : ℕ := 604800

/-- 5% discount (basis points) -/
def DISCOUNT_BPS : ℕ := 500

structure Contracts where
  self : Address
  suwp : Address
  usdc : Address

structure Bond where
  bonder : Address
  lpTokenId : ℕ
  /-- total SUWP to vest -/
  suwpTotal : ℕ
  /-- already claimed -/
  suwpClaimed : ℕ
  startTime : ℕ
  endTime : ℕ
  active : Bool
deriving DecidableEq, Repr

/-- An untouched storage slot. -/
def Bond.empty : Bond := ⟨Address.zero, 0, 0, 0, 0, 0, false⟩

structure State where
  owner : Address
  paused : Bool
  suwpUsdcPool : Address
  maxSuwpPerBond : ℕ
  globalBondCap : ℕ
  nextBondId : ℕ
  bonds : ℕ → Bond
  userBonds : Address → List ℕ
  totalLpBonded : ℕ
  totalSuwpIssued : ℕ
  /-- `block.timestamp` -/
  now : BlockTime

/-- What a call sees: its sender, and the answers of Uniswap and of SUWP. -/
structure Env where
  sender : Address
  /-- `positionManager.ownerOf` -/
  ownerOf : ℕ → Address
  /-- `token0` and `token1` of `positionManager.positions` -/
  tokensOf : ℕ → Address × Address
  /-- `token0` and `token1` of a pool -/
  poolTokens : Address → Address × Address
  /-- `_positionAmounts`: the USDC and the SUWP in a position at the TWAP -/
  positionAmounts : ℕ → Except Error (ℕ × ℕ)
  /-- `getSuwpPrice`: USDC for one SUWP at the TWAP -/
  suwpPrice : Except Error ℕ
  /-- whether `positionManager.safeTransferFrom` goes through -/
  transfers : Bool
  /-- whether `suwp.mint` goes through -/
  mints : Bool

/-- The contract right after deployment. -/
def State.init (owner : Address) (now : BlockTime) : State where
  owner := owner
  paused := false
  suwpUsdcPool := Address.zero
  maxSuwpPerBond := 1000000 * 10 ^ 18
  globalBondCap := 50000000 * 10 ^ 18
  nextBondId := 1
  bonds _ := .empty
  userBonds _ := []
  totalLpBonded := 0
  totalSuwpIssued := 0
  now := now

/-- SUWP and USDC, in either order. -/
def IsPair (C : Contracts) (tokens : Address × Address) : Prop :=
  tokens = (C.suwp, C.usdc) ∨ tokens = (C.usdc, C.suwp)

instance (C : Contracts) (tokens : Address × Address) : Decidable (IsPair C tokens) :=
  inferInstanceAs (Decidable (_ ∨ _))

def onlyOwner (s : State) (env : Env) : Except Error Unit :=
  guard (env.sender = s.owner) .OwnableUnauthorizedAccount

def State.setBond (s : State) (id : ℕ) (b : Bond) : State :=
  { s with bonds := Function.update s.bonds id b }

/-- `_vestedAmount` -/
def vestedAmount (now : ℕ) (b : Bond) : Except Error ℕ :=
  if now ≥ b.endTime then .ok b.suwpTotal
  else do
    let elapsed ← subU now b.startTime
    let product ← mulU 256 b.suwpTotal elapsed
    return product / VESTING_DURATION

section Calls

variable (C : Contracts) (env : Env) (s : State)

/-- `_computePayout` -/
def computePayout (lpTokenId : ℕ) : Except Error ℕ := do
  let (usdcAmt, suwpAmt) ← env.positionAmounts lpTokenId
  let suwpPrice ← env.suwpPrice
  let suwpValueUsdc ← mulDiv suwpAmt suwpPrice (10 ^ 18)
  let totalUsdcValue ← addU 256 usdcAmt suwpValueUsdc
  guard (totalUsdcValue > 0) (.require "Zero value position")
  let baseSuwp ← mulDiv totalUsdcValue (10 ^ 18) suwpPrice
  let product ← mulU 256 baseSuwp (10000 + DISCOUNT_BPS)
  let payout := product / 10000
  guard (payout ≤ s.maxSuwpPerBond) (.require "Exceeds per-bond cap")
  let issued ← addU 256 s.totalSuwpIssued payout
  guard (issued ≤ s.globalBondCap) (.require "Exceeds global bond cap")
  return payout

def bond (lpTokenId : ℕ) : Except Error State := do
  guard (s.paused = false) .EnforcedPause
  guard (s.suwpUsdcPool ≠ Address.zero) (.require "Pool not set")
  guard (env.ownerOf lpTokenId = env.sender) (.require "Not NFT owner")
  guard (IsPair C (env.tokensOf lpTokenId)) (.require "LP must be SUWP/USDC")
  let suwpPayout ← computePayout env s lpTokenId
  let next ← addU 256 s.nextBondId 1
  let endTime ← addU 256 s.now.val VESTING_DURATION
  let lpBonded ← addU 256 s.totalLpBonded 1
  let issued ← addU 256 s.totalSuwpIssued suwpPayout
  guard (env.transfers = true) .FailedCall
  let b : Bond := ⟨env.sender, lpTokenId, suwpPayout, 0, s.now.val, endTime, true⟩
  return { s.setBond s.nextBondId b with
    nextBondId := next
    userBonds := Function.update s.userBonds env.sender
      (s.userBonds env.sender ++ [s.nextBondId])
    totalLpBonded := lpBonded
    totalSuwpIssued := issued }

/-- `redeem`, with the amount it claims. -/
def redeem (bondId : ℕ) : Except Error (State × ℕ) := do
  let b := s.bonds bondId
  guard (b.bonder = env.sender) (.require "Not bond owner")
  guard (b.active = true) (.require "Bond not active")
  let vested ← vestedAmount s.now.val b
  let claimed ← subU vested b.suwpClaimed
  guard (claimed > 0) (.require "Nothing to claim")
  let suwpClaimed ← addU 256 b.suwpClaimed claimed
  guard (env.mints = true) .FailedCall
  return (s.setBond bondId { b with
    suwpClaimed := suwpClaimed
    active := if suwpClaimed ≥ b.suwpTotal then false else b.active }, claimed)

def cancelBond (bondId : ℕ) : Except Error State := do
  onlyOwner s env
  let b := s.bonds bondId
  guard (b.active = true) (.require "Bond not active")
  let unminted ← subU b.suwpTotal b.suwpClaimed
  guard (env.transfers = true) .FailedCall
  return { s.setBond bondId { b with active := false } with
    totalSuwpIssued := if s.totalSuwpIssued ≥ unminted then s.totalSuwpIssued - unminted else 0
    totalLpBonded := if s.totalLpBonded > 0 then s.totalLpBonded - 1 else s.totalLpBonded }

/-- `claimable`: what is vested and not claimed yet. -/
def claimable (bondId : ℕ) : Except Error ℕ :=
  let b := s.bonds bondId
  if b.active = false then .ok 0
  else do
    let vested ← vestedAmount s.now.val b
    subU vested b.suwpClaimed

/-! ### The owner -/

def setSuwpUsdcPool (pool : Address) : Except Error State := do
  onlyOwner s env
  guard (pool ≠ Address.zero) (.require "Pool=0")
  guard (IsPair C (env.poolTokens pool)) (.require "Pool not SUWP/USDC")
  return { s with suwpUsdcPool := pool }

def setBondCaps (maxSuwpPerBond globalBondCap : ℕ) : Except Error State := do
  onlyOwner s env
  guard (maxSuwpPerBond > 0) (.require "maxPerBond=0")
  guard (globalBondCap ≥ s.totalSuwpIssued) (.require "cap < issued")
  return { s with maxSuwpPerBond := maxSuwpPerBond, globalBondCap := globalBondCap }

def pause : Except Error State := do
  onlyOwner s env
  guard (s.paused = false) .EnforcedPause
  return { s with paused := true }

def unpause : Except Error State := do
  onlyOwner s env
  guard (s.paused = true) .ExpectedPause
  return { s with paused := false }

def transferOwnership (newOwner : Address) : Except Error State := do
  onlyOwner s env
  guard (newOwner ≠ Address.zero) .OwnableInvalidOwner
  return { s with owner := newOwner }

def renounceOwnership : Except Error State := do
  onlyOwner s env
  return { s with owner := Address.zero }

end Calls

/-! ### Runs -/

inductive Call where
  | bond (env : Env) (lpTokenId : ℕ)
  | redeem (env : Env) (bondId : ℕ)
  | cancelBond (env : Env) (bondId : ℕ)
  | setSuwpUsdcPool (env : Env) (pool : Address)
  | setBondCaps (env : Env) (maxSuwpPerBond globalBondCap : ℕ)
  | pause (env : Env)
  | unpause (env : Env)
  | transferOwnership (env : Env) (newOwner : Address)
  | renounceOwnership (env : Env)
  /-- the clock of a later block -/
  | advance (time : BlockTime)

/-- The contract, and what its calls did outside. -/
structure World where
  state : State
  /-- SUWP minted for a bond -/
  minted : ℕ → ℕ
  /-- positions ever bonded -/
  lpBonded : ℕ
  /-- bonds that were cancelled -/
  cancelled : List ℕ

def advance (s : State) (time : BlockTime) : Except Error State := do
  guard (s.now ≤ time) .Panic
  return { s with now := time }

def step (C : Contracts) (w : World) : Call → Except Error World
  | .bond env lpTokenId => do
    let s ← bond C env w.state lpTokenId
    return { w with state := s, lpBonded := w.lpBonded + 1 }
  | .redeem env bondId => do
    let (s, claimed) ← redeem env w.state bondId
    return { w with
      state := s
      minted := Function.update w.minted bondId (w.minted bondId + claimed) }
  | .cancelBond env bondId => do
    let s ← cancelBond env w.state bondId
    return { w with state := s, cancelled := bondId :: w.cancelled }
  | .setSuwpUsdcPool env pool => do
    let s ← setSuwpUsdcPool C env w.state pool
    return { w with state := s }
  | .setBondCaps env maxSuwpPerBond globalBondCap => do
    let s ← setBondCaps env w.state maxSuwpPerBond globalBondCap
    return { w with state := s }
  | .pause env => do
    let s ← pause env w.state
    return { w with state := s }
  | .unpause env => do
    let s ← unpause env w.state
    return { w with state := s }
  | .transferOwnership env newOwner => do
    let s ← transferOwnership env w.state newOwner
    return { w with state := s }
  | .renounceOwnership env => do
    let s ← renounceOwnership env w.state
    return { w with state := s }
  | .advance time => do
    let s ← advance w.state time
    return { w with state := s }

/-- The deployed contract as a machine: a reverted call changes nothing. -/
def machine (C : Contracts) : Machine World Call Error := ⟨step C⟩

def World.init (owner : Address) (now : BlockTime) : World := ⟨.init owner now, fun _ => 0, 0, []⟩

end Suwappu.Bonds
