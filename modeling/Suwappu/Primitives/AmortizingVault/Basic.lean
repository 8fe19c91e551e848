import Suwappu.Chain
import Suwappu.Lib.Checked
import Suwappu.Lib.Machine
import Suwappu.Primitives.MulDiv

/-!
# The self-repaying vault

`SuwappuAmortizingVault`: lenders supply an asset, borrowers draw it against shares of one ERC-4626
vault, and anybody may apply the yield of the collateral to the debt. The state carries the two
token balances of the contract; what the tokens and the ERC-4626 vault answer during a call are
arguments of it.
-/

namespace Suwappu.AmortizingVault

open Checked WideWord

inductive Error where
  | BadParams | NotOwner | ZeroAmount | ZeroShares | LtvExceeded | InsufficientCash
  | NotLiquidatable | TransferFailed | DeadlinePassed | NonStandardToken
  | DIV_ZERO | MULDIV_OVERFLOW
  | VaultReverted
  | Panic
deriving DecidableEq, Repr

instance : MulDivError Error where
  overflow := .Panic
  divZero := .DIV_ZERO
  mulDivOverflow := .MULDIV_OVERFLOW

/-- The virtual shares and assets of the lender pool. -/
def VIRTUAL : ℕ := 10 ^ 6

/-- The immutable parameters, with what the constructor checked of them. -/
structure Vault where
  borrowRate : ℕ
  maxLtv : ℕ
  liqLtv : ℕ
  liqBonus : ℕ
  startTime : BlockTime
  maxLtv_pos : 0 < maxLtv
  maxLtv_lt : maxLtv < liqLtv
  liqLtv_lt : liqLtv < WAD
  borrowRate_le : borrowRate ≤ 10 ^ 12
  liqBonus_le : liqBonus ≤ 5 * 10 ^ 17

def constructor (collateralVault : Address) (borrowRate maxLtv liqLtv liqBonus : ℕ)
    (now : BlockTime) : Except Error Vault :=
  if _ : collateralVault = Address.zero then .error .BadParams
  else if h₁ : maxLtv = 0 ∨ maxLtv ≥ liqLtv ∨ liqLtv ≥ WAD then .error .BadParams
  else if h₂ : borrowRate > 10 ^ 12 ∨ liqBonus > 5 * 10 ^ 17 then .error .BadParams
  else .ok {
    borrowRate := borrowRate, maxLtv := maxLtv, liqLtv := liqLtv, liqBonus := liqBonus,
    startTime := now, maxLtv_pos := by omega, maxLtv_lt := by omega, liqLtv_lt := by omega,
    borrowRate_le := by omega, liqBonus_le := by omega }

structure Position where
  owner : Address
  shares : ℕ
  baselineAssets : ℕ
  debtScaled : ℕ
deriving DecidableEq

/-- An untouched storage slot. -/
def Position.empty : Position := ⟨Address.zero, 0, 0, 0⟩

structure State where
  nextPositionId : ℕ
  positions : ℕ → Position
  totalLendShares : ℕ
  lendShares : Address → ℕ
  totalDebtScaled : ℕ
  totalCash : ℕ
  now : BlockTime
  /-- `asset.balanceOf(address(this))` -/
  assetBalance : ℕ
  /-- `collateralVault.balanceOf(address(this))` -/
  shareBalance : ℕ
  /-- not storage: whether a subtraction from `totalDebtScaled` ever had to stop at zero -/
  clamped : Bool

/-- The vault right after deployment. -/
def State.init (v : Vault) : State where
  nextPositionId := 0
  positions _ := Position.empty
  totalLendShares := 0
  lendShares _ := 0
  totalDebtScaled := 0
  totalCash := 0
  now := v.startTime
  assetBalance := 0
  shareBalance := 0
  clamped := false

def State.setPosition (s : State) (id : ℕ) (p : Position) : State :=
  { s with positions := Function.update s.positions id p }

/-- What the ERC-4626 vault answers at one moment; no shares are worth nothing. -/
structure Quote where
  convertToAssets : ℕ → ℕ
  convertToShares : ℕ → ℕ
  maxWithdraw : ℕ
  convertToAssets_zero : convertToAssets 0 = 0

/-- A collateral vault whose share is worth `price` assets. -/
def priced (price : ℕ) : Quote where
  convertToAssets shares := shares * price
  convertToShares assets := assets / price
  maxWithdraw := 1000000
  convertToAssets_zero := Nat.zero_mul _

/-! ### Math -/

def mulDivUp (x y d : ℕ) : Except Error ℕ := do
  let z ← mulDiv x y d
  if mulmod x y d ≠ 0 then addU 256 z 1 else pure z

/-- `_index` -/
def index (v : Vault) (s : State) : Except Error ℕ := do
  let elapsed ← subU s.now.val v.startTime.val
  let interest ← mulU 256 v.borrowRate elapsed
  addU 256 WAD interest

def debtOf (v : Vault) (s : State) (id : ℕ) : Except Error ℕ := do
  let i ← index v s
  mulDiv (s.positions id).debtScaled i WAD

def totalDebtAssets (v : Vault) (s : State) : Except Error ℕ := do
  let i ← index v s
  mulDiv s.totalDebtScaled i WAD

def poolAssets (v : Vault) (s : State) : Except Error ℕ := do
  let debt ← totalDebtAssets v s
  addU 256 s.totalCash debt

/-! ### Tokens -/

/-- `_pullExact`: `received` is what the pull added to the balance, `none` when the token
refused. -/
def pullExact (received : Option ℕ) (amount : ℕ) : Except Error Unit :=
  match received with
  | none   => .error .TransferFailed
  | some r => guard (r = amount) .NonStandardToken

/-- A transfer out of a balance. `paid` tells whether the token made it; no token moves more than
the balance. -/
def push (balance amount : ℕ) (paid : Bool) : Except Error ℕ := do
  guard (paid = true ∧ amount ≤ balance) .TransferFailed
  return balance - amount

/-! ### Lenders -/

def supply (v : Vault) (s : State) (sender : Address) (assets : ℕ) (received : Option ℕ) :
    Except Error State := do
  guard (assets ≠ 0) .ZeroAmount
  let pool ← poolAssets v s
  let supplyPlus ← addU 256 s.totalLendShares VIRTUAL
  let poolPlus ← addU 256 pool VIRTUAL
  let shares ← mulDiv assets supplyPlus poolPlus
  guard (shares ≠ 0) .ZeroShares
  let totalLendShares ← addU 256 s.totalLendShares shares
  let bal ← addU 256 (s.lendShares sender) shares
  let totalCash ← addU 256 s.totalCash assets
  pullExact received assets
  return { s with
    totalLendShares := totalLendShares
    lendShares := Function.update s.lendShares sender bal
    totalCash := totalCash
    assetBalance := s.assetBalance + assets }

def withdraw (v : Vault) (s : State) (sender : Address) (shares : ℕ) (paid : Bool) :
    Except Error State := do
  let bal := s.lendShares sender
  guard (¬ (shares = 0 ∨ shares > bal)) .ZeroAmount
  let pool ← poolAssets v s
  let poolPlus ← addU 256 pool VIRTUAL
  let supplyPlus ← addU 256 s.totalLendShares VIRTUAL
  let assets ← mulDiv shares poolPlus supplyPlus
  guard (assets ≤ s.totalCash) .InsufficientCash
  let totalLendShares ← subU s.totalLendShares shares
  let totalCash ← subU s.totalCash assets
  let assetBalance ← push s.assetBalance assets paid
  return { s with
    totalLendShares := totalLendShares
    lendShares := Function.update s.lendShares sender (bal - shares)
    totalCash := totalCash
    assetBalance := assetBalance }

/-! ### Debt -/

/-- `_reduceDebt` -/
def reduceDebt (v : Vault) (s : State) (id assets : ℕ) : Except Error State := do
  let p := s.positions id
  let i ← index v s
  let scaled ← mulDivUp assets WAD i
  let scaled := if scaled > p.debtScaled then p.debtScaled else scaled
  let debtScaled ← subU p.debtScaled scaled
  let total := s.totalDebtScaled
  return { s.setPosition id { p with debtScaled := debtScaled } with
    totalDebtScaled := total - (if scaled > total then total else scaled)
    clamped := s.clamped || decide (scaled > total) }

/-- The yield `_amortize` takes for a position with debt `d`, zero where it returns early. -/
def yieldOf (q : Quote) (p : Position) (d : ℕ) : ℕ :=
  if d = 0 ∨ p.shares = 0 then 0
  else
    let cur := q.convertToAssets p.shares
    if cur ≤ p.baselineAssets then 0
    else
      let surplus := cur - p.baselineAssets
      let applied := if surplus > d then d else surplus
      if applied > q.maxWithdraw then q.maxWithdraw else applied

/-- `_amortize`. `burned` is what the ERC-4626 withdrawal burned, `none` when it reverted; it
delivers the assets it is asked for and burns no more than the contract holds. -/
def amortizeDebt (v : Vault) (s : State) (id : ℕ) (q : Quote) (burned : Option ℕ) :
    Except Error State := do
  let p := s.positions id
  let d ← debtOf v s id
  let applied := yieldOf q p d
  if applied = 0 then
    return s
  match burned with
  | none        => .error .VaultReverted
  | some burned =>
    guard (burned ≤ s.shareBalance) .VaultReverted
    let shares ← subU p.shares burned
    let s ← reduceDebt v { s.setPosition id { p with shares := shares } with
      assetBalance := s.assetBalance + applied
      shareBalance := s.shareBalance - burned } id applied
    let totalCash ← addU 256 s.totalCash applied
    return { s with totalCash := totalCash }

/-! ### Positions -/

def openPosition (v : Vault) (s : State) (sender : Address) (shares borrowAssets deadline : ℕ)
    (q : Quote) (received : Option ℕ) (paid : Bool) : Except Error State := do
  guard (s.now.val ≤ deadline) .DeadlinePassed
  guard (shares ≠ 0) .ZeroAmount
  let value := q.convertToAssets shares
  let debtWad ← mulU 256 borrowAssets WAD
  let maxWad ← mulU 256 value v.maxLtv
  guard (debtWad ≤ maxWad) .LtvExceeded
  guard (borrowAssets ≤ s.totalCash) .InsufficientCash
  let i ← index v s
  let scaled ← mulDiv borrowAssets WAD i
  let id := s.nextPositionId
  let next ← addU 256 id 1
  let totalDebtScaled ← addU 256 s.totalDebtScaled scaled
  let totalCash ← subU s.totalCash borrowAssets
  pullExact received shares
  let assetBalance ←
    if borrowAssets > 0 then push s.assetBalance borrowAssets paid else pure s.assetBalance
  return { s.setPosition id ⟨sender, shares, value, scaled⟩ with
    nextPositionId := next
    totalDebtScaled := totalDebtScaled
    totalCash := totalCash
    assetBalance := assetBalance
    shareBalance := s.shareBalance + shares }

def addCollateral (s : State) (id shares : ℕ) (q : Quote) (received : Option ℕ) :
    Except Error State := do
  guard (shares ≠ 0) .ZeroAmount
  let p := s.positions id
  guard (p.owner ≠ Address.zero) .NotOwner
  let newShares ← addU 256 p.shares shares
  let baselineAssets ← addU 256 p.baselineAssets (q.convertToAssets shares)
  pullExact received shares
  return { s.setPosition id { p with shares := newShares, baselineAssets := baselineAssets } with
    shareBalance := s.shareBalance + shares }

def amortize (v : Vault) (s : State) (id : ℕ) (q : Quote) (burned : Option ℕ) :
    Except Error State :=
  amortizeDebt v s id q burned

def repay (v : Vault) (s : State) (id assets : ℕ) (received : Option ℕ) : Except Error State := do
  guard (assets ≠ 0) .ZeroAmount
  let d ← debtOf v s id
  guard (d ≠ 0) .ZeroAmount
  let assets := if assets > d then d else assets
  let s ← reduceDebt v s id assets
  let totalCash ← addU 256 s.totalCash assets
  pullExact received assets
  return { s with totalCash := totalCash, assetBalance := s.assetBalance + assets }

/-- The cost basis of the collateral that stays. -/
def scaleBaseline (p : Position) (remaining : ℕ) : Except Error ℕ :=
  if p.shares = 0 then pure 0 else mulDiv p.baselineAssets remaining p.shares

/-- `withdrawCollateral`. `q` is what the ERC-4626 vault answers before the yield is withdrawn and
`q'` what it answers afterwards. -/
def withdrawCollateral (v : Vault) (s : State) (sender : Address) (id shares deadline : ℕ)
    (q : Quote) (burned : Option ℕ) (q' : Quote) (paid : Bool) : Except Error State := do
  guard (s.now.val ≤ deadline) .DeadlinePassed
  guard ((s.positions id).owner = sender) .NotOwner
  guard (¬ (shares = 0 ∨ shares > (s.positions id).shares)) .ZeroAmount
  let s ← amortizeDebt v s id q burned
  let p := s.positions id
  let d ← debtOf v s id
  let remaining ← subU p.shares shares
  let remainingValue := q'.convertToAssets remaining
  if d > 0 then
    let debtWad ← mulU 256 d WAD
    let maxWad ← mulU 256 remainingValue v.maxLtv
    guard (debtWad ≤ maxWad) .LtvExceeded
  let baselineAssets ← scaleBaseline p remaining
  let shareBalance ← push s.shareBalance shares paid
  return { s.setPosition id { p with shares := remaining, baselineAssets := baselineAssets } with
    shareBalance := shareBalance }

/-- The write-off of what a position without collateral still owes. -/
def writeOff (v : Vault) (s : State) (id : ℕ) : Except Error State := do
  let p := s.positions id
  if p.shares = 0 ∧ p.debtScaled > 0 then
    let _ ← debtOf v s id
    let scaled := p.debtScaled
    let total := s.totalDebtScaled
    return { s.setPosition id { p with debtScaled := 0 } with
      totalDebtScaled := total - (if scaled > total then total else scaled)
      clamped := s.clamped || decide (scaled > total) }
  else
    return s

/-- `liquidate` up to the write-off: the new state, the repayment and the shares seized. -/
def seize (v : Vault) (s : State) (id repayAssets : ℕ) (q : Quote) (burned : Option ℕ)
    (q' : Quote) : Except Error (State × ℕ × ℕ) := do
  let s ← amortizeDebt v s id q burned
  let p := s.positions id
  let d ← debtOf v s id
  let value := q'.convertToAssets p.shares
  guard (d ≠ 0) .NotLiquidatable
  let debtWad ← mulU 256 d WAD
  let liqWad ← mulU 256 value v.liqLtv
  guard (debtWad > liqWad) .NotLiquidatable
  let repayAmt := if repayAssets > d then d else repayAssets
  guard (repayAmt ≠ 0) .ZeroAmount
  let bonusWad ← mulU 256 repayAmt v.liqBonus
  let seizeValue ← addU 256 repayAmt (bonusWad / WAD)
  let seizeShares := q'.convertToShares seizeValue
  let seizeShares := if seizeShares > p.shares then p.shares else seizeShares
  let s ← reduceDebt v s id repayAmt
  let totalCash ← addU 256 s.totalCash repayAmt
  let p := s.positions id
  let remaining ← subU p.shares seizeShares
  let baselineAssets ← scaleBaseline p remaining
  return ({ s.setPosition id { p with shares := remaining, baselineAssets := baselineAssets } with
    totalCash := totalCash }, repayAmt, seizeShares)

def liquidate (v : Vault) (s : State) (id repayAssets deadline : ℕ) (q : Quote)
    (burned : Option ℕ) (q' : Quote) (received : Option ℕ) (paid : Bool) :
    Except Error State := do
  guard (s.now.val ≤ deadline) .DeadlinePassed
  let (s, repayAmt, seizeShares) ← seize v s id repayAssets q burned q'
  let s ← writeOff v s id
  pullExact received repayAmt
  let shareBalance ← push s.shareBalance seizeShares paid
  return { s with assetBalance := s.assetBalance + repayAmt, shareBalance := shareBalance }

/-! ### Runs -/

/-- The calls of lenders, borrowers, keepers and liquidators. -/
inductive Op where
  | supply (sender : Address) (assets : ℕ) (received : Option ℕ)
  | withdraw (sender : Address) (shares : ℕ) (paid : Bool)
  | openPosition (sender : Address) (shares borrowAssets deadline : ℕ) (q : Quote)
      (received : Option ℕ) (paid : Bool)
  | addCollateral (id shares : ℕ) (q : Quote) (received : Option ℕ)
  | amortize (id : ℕ) (q : Quote) (burned : Option ℕ)
  | repay (id assets : ℕ) (received : Option ℕ)
  | withdrawCollateral (sender : Address) (id shares deadline : ℕ) (q : Quote)
      (burned : Option ℕ) (q' : Quote) (paid : Bool)
  | liquidate (id repayAssets deadline : ℕ) (q : Quote) (burned : Option ℕ) (q' : Quote)
      (received : Option ℕ) (paid : Bool)

def apply (v : Vault) (s : State) : Op → Except Error State
  | .supply sender assets received => supply v s sender assets received
  | .withdraw sender shares paid => withdraw v s sender shares paid
  | .openPosition sender shares borrowAssets deadline q received paid =>
    openPosition v s sender shares borrowAssets deadline q received paid
  | .addCollateral id shares q received => addCollateral s id shares q received
  | .amortize id q burned => amortize v s id q burned
  | .repay id assets received => repay v s id assets received
  | .withdrawCollateral sender id shares deadline q burned q' paid =>
    withdrawCollateral v s sender id shares deadline q burned q' paid
  | .liquidate id repayAssets deadline q burned q' received paid =>
    liquidate v s id repayAssets deadline q burned q' received paid

inductive Call where
  | op (op : Op)
  /-- asset units sent to the contract outside of the protocol -/
  | donateAssets (amount : ℕ)
  /-- collateral shares sent to the contract outside of the protocol -/
  | donateShares (amount : ℕ)
  /-- the clock of a later block -/
  | advance (time : BlockTime)

def step (v : Vault) (s : State) : Call → Except Error State
  | .op op => apply v s op
  | .donateAssets amount => return { s with assetBalance := s.assetBalance + amount }
  | .donateShares amount => return { s with shareBalance := s.shareBalance + amount }
  | .advance time => do
    guard (s.now ≤ time) .Panic
    return { s with now := time }

/-- The deployed vault as a machine: a reverted call changes nothing. -/
def machine (v : Vault) : Machine State Call Error := ⟨step v⟩

end Suwappu.AmortizingVault
