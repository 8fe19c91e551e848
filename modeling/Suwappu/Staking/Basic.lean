import Suwappu.Chain
import Suwappu.Lib.Erc20
import Suwappu.Lib.Machine

/-!
# Staking

`SuwppuStaking`: SUWP stakes that earn a USDCx stream, and SUWP bonuses that the owner distributes.
Principal and bonuses share the SUWP balance of the contract. The Superfluid pool, the stream and
USDC answer as they like; what they do to SUWP in the meantime amounts to calls of their own before
or after.
-/

namespace Suwappu.Staking

open Checked

inductive Error where
  | require (message : String)
  | EnforcedPause | ExpectedPause | OwnableUnauthorizedAccount | OwnableInvalidOwner
  | FailedCall
  | Suwp (e : Erc20.Error)
  | Panic
deriving DecidableEq, Repr

instance : Overflow Error := ⟨.Panic⟩

/-- below this, `toUnits` rounds to 0 units -/
def MIN_STAKE : ℕ := 10 ^ 9

structure Contracts where
  /-- `address(this)` -/
  self : Address
  suwp : Address
  usdc : Address
  suwp_ne_usdc : suwp ≠ usdc

structure EpochInfo where
  totalStakedSnapshot : ℕ
  suwpBonusPool : ℕ
  usdcStreamed : ℕ
  flowRate : ℕ
  timestamp : ℕ
deriving DecidableEq, Repr

structure Storage where
  owner : Address
  paused : Bool
  totalStaked : ℕ
  stakedBalance : Address → ℕ
  claimableSuwpBonus : Address → ℕ
  currentEpoch : ℕ
  lastEpochBlock : ℕ
  epochs : ℕ → EpochInfo
  /-- allocated to stakers but not yet claimed -/
  totalPendingBonuses : ℕ
  vaultYieldPool : ℕ

/-- The contract beside the token it holds. -/
structure State where
  staking : Storage
  suwp : Erc20.Token Address

/-- Calls of tokens and of the stream that a staking call makes. -/
inductive External where
  | usdcTransferFrom (src : Address) (amount : ℕ)
  | usdcxUpgrade (amount : ℕ)
  | distributeFlow (flowRate : ℕ)
  | transfer (token dst : Address) (amount : ℕ)

inductive PoolAnswer where
  | returns (accepted : Bool)
  | reverts
deriving DecidableEq

structure Env where
  sender : Address
  blockNumber : ℕ
  timestamp : ℕ
  /-- whether an external call goes through -/
  succeeds : External → Bool
  /-- `pool.updateMemberUnits(member, units)` -/
  updateMemberUnits : Address → ℕ → PoolAnswer

/-- A call of SUWP: its failure is the failure of the caller. -/
def suwpCall {α : Type} : Except Erc20.Error α → Except Error α := Except.mapError .Suwp

lemma suwpCall_ok_iff {α : Type} {x : Except Erc20.Error α} {a : α} :
    suwpCall x = .ok a ↔ x = .ok a := by
  cases x <;> simp [suwpCall, Except.mapError]

/-- `_toUnits` -/
def toUnits (suwpAmount : ℕ) : ℕ := suwpAmount / 10 ^ 9 % 2 ^ 128

def onlyOwner (s : State) (env : Env) : Except Error Unit :=
  guard (env.sender = s.staking.owner) .OwnableUnauthorizedAccount

/-- The pool has to take the new units of the sender. -/
def requireUnits (env : Env) (stake : ℕ) : Except Error Unit := do
  let answer := env.updateMemberUnits env.sender (toUnits stake)
  guard (answer ≠ .reverts) .FailedCall
  guard (answer = .returns true) (.require "Unit update failed")

section Calls

variable (C : Contracts) (env : Env) (s : State)

/-! ### Stakes -/

def stake (amount : ℕ) : Except Error State := do
  guard (s.staking.paused = false) .EnforcedPause
  guard (amount ≥ MIN_STAKE) (.require "Below minimum stake")
  let suwp ← suwpCall (s.suwp.transferFrom C.self env.sender C.self amount)
  let stake ← addU 256 (s.staking.stakedBalance env.sender) amount
  let total ← addU 256 s.staking.totalStaked amount
  requireUnits env stake
  return { staking := { s.staking with
             stakedBalance := Function.update s.staking.stakedBalance env.sender stake
             totalStaked := total }
           suwp := suwp }

def unstake (amount : ℕ) : Except Error State := do
  guard (amount > 0) (.require "Amount must be > 0")
  guard (s.staking.stakedBalance env.sender ≥ amount) (.require "Insufficient stake")
  let stake ← subU (s.staking.stakedBalance env.sender) amount
  let total ← subU s.staking.totalStaked amount
  requireUnits env stake
  let suwp ← suwpCall (s.suwp.transfer C.self env.sender amount)
  return { staking := { s.staking with
             stakedBalance := Function.update s.staking.stakedBalance env.sender stake
             totalStaked := total }
           suwp := suwp }

/-- Whatever the pool answers, the principal is returned. -/
def emergencyUnstake : Except Error State := do
  guard (s.staking.paused = true) .ExpectedPause
  let amount := s.staking.stakedBalance env.sender
  guard (amount > 0) (.require "Nothing staked")
  let total ← subU s.staking.totalStaked amount
  let suwp ← suwpCall (s.suwp.transfer C.self env.sender amount)
  return { staking := { s.staking with
             stakedBalance := Function.update s.staking.stakedBalance env.sender 0
             totalStaked := total }
           suwp := suwp }

/-! ### The stream -/

def fundStream (usdcAmount durationSeconds : ℕ) : Except Error State := do
  onlyOwner s env
  guard (usdcAmount > 0) (.require "Amount must be > 0")
  guard (durationSeconds > 0) (.require "Duration must be > 0")
  guard (s.staking.totalStaked > 0) (.require "No stakers")
  guard (env.blockNumber > s.staking.lastEpochBlock) (.require "Already funded this block")
  let epoch ← addU 256 s.staking.currentEpoch 1
  guard (env.succeeds (.usdcTransferFrom env.sender usdcAmount) = true) .FailedCall
  let usdcxAmount ← mulU 256 usdcAmount (10 ^ 12)
  guard (env.succeeds (.usdcxUpgrade usdcxAmount) = true) .FailedCall
  let ratePerSec := usdcxAmount / durationSeconds
  guard (ratePerSec ≤ 2 ^ 95 - 1) (.require "Flow rate too large")
  guard (ratePerSec > 0) (.require "Flow rate too small")
  guard (env.succeeds (.distributeFlow ratePerSec) = true) (.require "GDA distributeFlow failed")
  let info : EpochInfo := ⟨s.staking.totalStaked, 0, usdcAmount, ratePerSec, env.timestamp⟩
  return { s with staking := { s.staking with
    lastEpochBlock := env.blockNumber
    currentEpoch := epoch
    epochs := Function.update s.staking.epochs epoch info } }

/-! ### Bonuses -/

/-- The sum of a batch, added up in order. -/
def sumAmounts : List ℕ → ℕ → Except Error ℕ
  | [], total                => .ok total
  | amount :: amounts, total => do
    let total ← addU 256 total amount
    sumAmounts amounts total

/-- The credits of a batch, entry by entry. -/
def creditBonuses : List (Address × ℕ) → (Address → ℕ) → Except Error (Address → ℕ)
  | [], claimable                         => .ok claimable
  | (staker, amount) :: batch, claimable => do
    let bonus ← addU 256 (claimable staker) amount
    creditBonuses batch (Function.update claimable staker bonus)

def distributeSuwpBonus (stakers : List Address) (amounts : List ℕ) : Except Error State := do
  onlyOwner s env
  guard (stakers.length = amounts.length) (.require "Length mismatch")
  guard (stakers.length > 0 ∧ stakers.length ≤ 500) (.require "Bad stakers length")
  let total ← sumAmounts amounts 0
  let owed ← addU 256 s.staking.totalStaked s.staking.totalPendingBonuses
  let owed ← addU 256 owed total
  guard (s.suwp.balanceOf C.self ≥ owed) (.require "Insufficient SUWP to fund bonus")
  let info := { s.staking.epochs s.staking.currentEpoch with suwpBonusPool := total }
  let claimable ← creditBonuses (stakers.zip amounts) s.staking.claimableSuwpBonus
  let pending ← addU 256 s.staking.totalPendingBonuses total
  return { s with staking := { s.staking with
    epochs := Function.update s.staking.epochs s.staking.currentEpoch info
    claimableSuwpBonus := claimable
    totalPendingBonuses := pending } }

def claimSuwpBonus : Except Error State := do
  let amount := s.staking.claimableSuwpBonus env.sender
  guard (amount > 0) (.require "No SUWP bonus to claim")
  let pending ← subU s.staking.totalPendingBonuses amount
  let suwp ← suwpCall (s.suwp.transfer C.self env.sender amount)
  return { staking := { s.staking with
             claimableSuwpBonus := Function.update s.staking.claimableSuwpBonus env.sender 0
             totalPendingBonuses := pending }
           suwp := suwp }

/-! ### The owner -/

def depositVaultYield (usdcAmount : ℕ) : Except Error State := do
  onlyOwner s env
  guard (usdcAmount > 0) (.require "Amount must be > 0")
  guard (env.succeeds (.usdcTransferFrom env.sender usdcAmount) = true) .FailedCall
  let yieldPool ← addU 256 s.staking.vaultYieldPool usdcAmount
  return { s with staking := { s.staking with vaultYieldPool := yieldPool } }

def pause : Except Error State := do
  onlyOwner s env
  guard (s.staking.paused = false) .EnforcedPause
  return { s with staking := { s.staking with paused := true } }

def unpause : Except Error State := do
  onlyOwner s env
  guard (s.staking.paused = true) .ExpectedPause
  return { s with staking := { s.staking with paused := false } }

def transferOwnership (newOwner : Address) : Except Error State := do
  onlyOwner s env
  guard (newOwner ≠ Address.zero) .OwnableInvalidOwner
  return { s with staking := { s.staking with owner := newOwner } }

def renounceOwnership : Except Error State := do
  onlyOwner s env
  return { s with staking := { s.staking with owner := Address.zero } }

/-- The SUWP that backs no stake and no bonus. -/
def surplus : Except Error ℕ := do
  let unstaked ← subU (s.suwp.balanceOf C.self) s.staking.totalStaked
  subU unstaked s.staking.totalPendingBonuses

def recoverToken (token : Address) (amount : ℕ) : Except Error State := do
  onlyOwner s env
  if token = C.suwp then
    let free ← surplus C s
    guard (amount ≤ free) (.require "Cannot recover staked/pending SUWP")
    let suwp ← suwpCall (s.suwp.transfer C.self s.staking.owner amount)
    return { s with suwp := suwp }
  else
    guard (env.succeeds (.transfer token s.staking.owner amount) = true) .FailedCall
    return s

end Calls

/-! ### Runs -/

inductive Op where
  | stake (amount : ℕ)
  | unstake (amount : ℕ)
  | emergencyUnstake
  | fundStream (usdcAmount durationSeconds : ℕ)
  | distributeSuwpBonus (stakers : List Address) (amounts : List ℕ)
  | claimSuwpBonus
  | depositVaultYield (usdcAmount : ℕ)
  | recoverToken (token : Address) (amount : ℕ)
  | pause
  | unpause
  | transferOwnership (newOwner : Address)
  | renounceOwnership

inductive Call (C : Contracts) where
  | staking (env : Env) (op : Op)
  /-- a call of SUWP by anyone else: a donation, an approval, a transfer between others -/
  | suwp (caller : Address) (other : caller ≠ C.self) (op : Erc20.Op Address)

def apply (C : Contracts) (env : Env) (s : State) : Op → Except Error State
  | .stake amount                          => stake C env s amount
  | .unstake amount                        => unstake C env s amount
  | .emergencyUnstake                      => emergencyUnstake C env s
  | .fundStream usdcAmount durationSeconds => fundStream env s usdcAmount durationSeconds
  | .distributeSuwpBonus stakers amounts   => distributeSuwpBonus C env s stakers amounts
  | .claimSuwpBonus                        => claimSuwpBonus C env s
  | .depositVaultYield usdcAmount          => depositVaultYield env s usdcAmount
  | .recoverToken token amount             => recoverToken C env s token amount
  | .pause                                 => pause env s
  | .unpause                               => unpause env s
  | .transferOwnership newOwner            => transferOwnership env s newOwner
  | .renounceOwnership                     => renounceOwnership env s

def step (C : Contracts) (s : State) : Call C → Except Error State
  | .staking env op    => apply C env s op
  | .suwp caller _ op => do
    let suwp ← suwpCall (s.suwp.apply caller op)
    return { s with suwp := suwp }

/-- The deployed contract and its token as a machine: a reverted call changes nothing. -/
def machine (C : Contracts) : Machine State (Call C) Error := ⟨step C⟩

/-- The contract right after deployment. -/
def Storage.init (owner : Address) : Storage where
  owner := owner
  paused := false
  totalStaked := 0
  stakedBalance _ := 0
  claimableSuwpBonus _ := 0
  currentEpoch := 0
  lastEpochBlock := 0
  epochs _ := ⟨0, 0, 0, 0, 0⟩
  totalPendingBonuses := 0
  vaultYieldPool := 0

/-- Nobody holds SUWP at first; what was minted before the contract existed is minted in the run. -/
def State.init (owner : Address) : State := ⟨.init owner, .empty⟩

end Suwappu.Staking
