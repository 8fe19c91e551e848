import Suwappu.Chain
import Suwappu.Lib.Checked

/-!
# A swap on HyperCore

What `SuwappuCoreRouterMultiUser` and `SuwappuCoreRouterBoundUserImpl` share: the swap record, the
reads of HyperCore, and every step of a swap after it was paid for. A call returns the storage it
leaves and the effects it had on tokens and on HyperCore. External calls come after the storage
writes, so what a token does during a call amounts to further calls after it.
-/

namespace Suwappu.CoreRouter

open Checked

inductive Error where
  | Locked | BadStatus | TooEarly | NotLanded | NotDivisible | FeeTooHigh | BridgeNotLanded
  | ZeroAmount | BadTreasury | SzTooSmall | NotAuthorized
  | require (message : String)
  | Panic
deriving DecidableEq, Repr

instance : Overflow Error := ⟨.Panic⟩

def MAX_FEE_BPS : ℕ := 100
def SETTLE_DELAY_L1 : ℕ := 100
def RETRY_DELAY_L1 : ℕ := 2000
def RELEASE_DELAY_L1 : ℕ := 100000

/-- `CoreWriterLib.TIF_IOC` -/
def TIF_IOC : ℕ := 3

/-! ### The market -/

/-- The immutable parameters, with what the constructor checked of them. -/
structure Market where
  baseErc20 : Address
  quoteErc20 : Address
  baseToken : Uint64
  quoteToken : Uint64
  orderAsset : ℕ
  baseWeiDecimals : ℕ
  quoteWeiDecimals : ℕ
  baseExtraEvmDecimals : ℕ
  quoteExtraEvmDecimals : ℕ
  szDecimals : ℕ
  treasury : Address
  feeBps : ℕ
  feeBps_le : feeBps ≤ MAX_FEE_BPS
  szDecimals_le : szDecimals ≤ 8
  token_ne : baseToken ≠ quoteToken
  erc20_ne : baseErc20 ≠ quoteErc20

def constructor (baseErc20 quoteErc20 : Address) (baseToken quoteToken : Uint64)
    (orderAsset baseWeiDecimals quoteWeiDecimals baseExtraEvmDecimals quoteExtraEvmDecimals
      szDecimals : ℕ) (treasury : Address) (feeBps : ℕ) (coreUserExists : Address → Bool) :
    Except Error Market :=
  if h₁ : feeBps > MAX_FEE_BPS then .error .FeeTooHigh
  else if treasury = Address.zero ∨ !coreUserExists treasury then .error .BadTreasury
  else if h₂ : ¬ szDecimals ≤ 8 then .error (.require "szDecimals")
  else if h₃ : ¬ (baseToken ≠ quoteToken ∧ baseErc20 ≠ quoteErc20) then
    .error (.require "same token")
  else .ok {
    baseErc20 := baseErc20, quoteErc20 := quoteErc20
    baseToken := baseToken, quoteToken := quoteToken
    orderAsset := orderAsset
    baseWeiDecimals := baseWeiDecimals, quoteWeiDecimals := quoteWeiDecimals
    baseExtraEvmDecimals := baseExtraEvmDecimals, quoteExtraEvmDecimals := quoteExtraEvmDecimals
    szDecimals := szDecimals, treasury := treasury, feeBps := feeBps
    feeBps_le := not_lt.mp h₁
    szDecimals_le := not_not.mp h₂
    token_ne := (not_not.mp h₃).1
    erc20_ne := (not_not.mp h₃).2 }

/-- First byte 0x20, then the token index. -/
def systemAddress (token : Uint64) : Address :=
  Address.ofNat (0x2000000000000000000000000000000000000000 ||| token.val)

namespace Market

variable (M : Market)

def tokenIn (baseForQuote : Bool) : Uint64 := if baseForQuote then M.baseToken else M.quoteToken

def tokenOut (baseForQuote : Bool) : Uint64 := if baseForQuote then M.quoteToken else M.baseToken

def extraIn (baseForQuote : Bool) : ℕ :=
  if baseForQuote then M.baseExtraEvmDecimals else M.quoteExtraEvmDecimals

def extraOut (baseForQuote : Bool) : ℕ :=
  if baseForQuote then M.quoteExtraEvmDecimals else M.baseExtraEvmDecimals

/-- `_erc20For` -/
def erc20For (token : Uint64) : Address :=
  if token = M.baseToken then M.baseErc20 else M.quoteErc20

end Market

/-! ### Swaps -/

inductive Status where
  | None
  /-- deposit bridging to Core, awaiting `execute` -/
  | Funding
  /-- order placed, awaiting `settle` -/
  | Pending
  /-- reconciled on Core, awaiting EVM credits -/
  | Bridging
  | Done
  | Aborted
deriving DecidableEq, Repr

structure Swap where
  user : Address
  baseForQuote : Bool
  status : Status
  coreIn : ℕ
  minCoreOut : ℕ
  inSnapshot : ℕ
  initiatedL1Block : ℕ
  initiatedEvmBlock : ℕ
  outSnapshot : ℕ
  executedL1Block : ℕ
  limitPx : ℕ
  owedOut : ℕ
  owedIn : ℕ
  settledL1Block : ℕ
  retriedL1Block : ℕ
  evmOutSnapshot : ℕ
  evmInSnapshot : ℕ

/-- An untouched storage slot. -/
def Swap.empty : Swap := ⟨Address.zero, false, .None, 0, 0, 0, 0, 0, 0, 0, 0, 0, 0, 0, 0, 0, 0⟩

structure State where
  nextSwapId : ℕ
  /-- 0 when the lock is free, else the active swap -/
  inFlight : ℕ
  swaps : ℕ → Swap

def State.setSwap (s : State) (id : ℕ) (sw : Swap) : State :=
  { s with swaps := Function.update s.swaps id sw }

/-! ### Reads and effects -/

structure SpotBalance where
  total : Uint64
  hold : Uint64

/-- What a call sees: its sender, the block, HyperCore, and the token balances of the router. -/
structure Env where
  sender : Address
  blockNumber : ℕ
  l1BlockNumber : Uint64
  /-- `L1Read.spotBalance(address(this), token)` -/
  spotBalance : Uint64 → SpotBalance
  /-- `token.balanceOf(address(this))` -/
  balanceOf : Address → ℕ

inductive Effect where
  /-- `token.transferFrom(src, address(this), amount)` -/
  | pull (token src : Address) (amount : ℕ)
  /-- `token.transfer(to, amount)` -/
  | pay (token dst : Address) (amount : ℕ)
  /-- `CoreWriterLib.spotSend` -/
  | spotSend (dst : Address) (token : Uint64) (amount : ℕ)
  /-- `CoreWriterLib.limitOrder` -/
  | limitOrder (asset : ℕ) (isBuy : Bool) (limitPx sz : ℕ) (reduceOnly : Bool) (tif cloid : ℕ)
deriving DecidableEq

/-- `_free` -/
def free (env : Env) (token : Uint64) : ℕ :=
  let b := env.spotBalance token
  if b.total > b.hold then b.total.val - b.hold.val else 0

/-- A token transfer that the token accepts, or the call reverts. -/
def transfer (accepts : Effect → Bool) (e : Effect) (message : String) : Except Error Effect := do
  guard (accepts e) (.require message)
  return e

/-- `_evmToCore` -/
def evmToCore (evmAmount extra : ℕ) : Except Error ℕ := do
  let scale ← powU 256 10 extra
  guard (evmAmount % scale = 0) .NotDivisible
  guard (evmAmount / scale < 2 ^ 64) (.require "overflow")
  return evmAmount / scale

/-- `_coreToEvm` -/
def coreToEvm (coreAmount extra : ℕ) : Except Error ℕ := do
  let scale ← powU 256 10 extra
  mulU 256 coreAmount scale

/-- The size of an order before it is rounded to lots. -/
def rawSz (M : Market) (baseForQuote : Bool) (coreIn limitPx : ℕ) : Except Error ℕ :=
  if baseForQuote then do
    let amount ← mulU 256 coreIn (10 ^ 8)
    let unit ← powU 256 10 M.baseWeiDecimals
    divU amount unit
  else do
    let amount ← mulU 256 coreIn (10 ^ 16)
    let unit ← powU 256 10 M.quoteWeiDecimals
    let human ← divU amount unit
    divU human limitPx

/-- `_orderSz` -/
def orderSz (M : Market) (baseForQuote : Bool) (coreIn limitPx : ℕ) : Except Error ℕ := do
  let sz ← rawSz M baseForQuote coreIn limitPx
  let lot := 10 ^ (8 - M.szDecimals)
  let sz := sz - sz % lot
  guard (sz ≠ 0 ∧ sz < 2 ^ 64) .SzTooSmall
  return sz

/-- `_bridgeBack` -/
def bridgeBack (token : Uint64) (amount : ℕ) : List Effect :=
  if amount > 0 then [.spotSend (systemAddress token) token amount] else []

/-! ### The steps of a swap -/

section Steps

variable (M : Market) (env : Env) (accepts : Effect → Bool) (s : State)

/-- The end of `initiate`: the swap is recorded, its input pulled from `user` and bridged. -/
def fund (id next : ℕ) (user : Address) (baseForQuote : Bool) (evmAmountIn coreIn limitPx
    minCoreOut : ℕ) : Except Error (State × List Effect) := do
  let tokenIn := M.tokenIn baseForQuote
  let swap : Swap :=
    { user := user
      baseForQuote := baseForQuote
      status := .Funding
      coreIn := coreIn
      minCoreOut := minCoreOut
      inSnapshot := free env tokenIn
      initiatedL1Block := env.l1BlockNumber.val
      initiatedEvmBlock := env.blockNumber % 2 ^ 64
      outSnapshot := free env (M.tokenOut baseForQuote)
      executedL1Block := 0
      limitPx := limitPx
      owedOut := 0
      owedIn := 0
      settledL1Block := 0
      retriedL1Block := 0
      evmOutSnapshot := 0
      evmInSnapshot := 0 }
  let erc20 := M.erc20For tokenIn
  let pull ← transfer accepts (.pull erc20 user evmAmountIn) "pull"
  let bridge ← transfer accepts (.pay erc20 (systemAddress tokenIn) evmAmountIn) "bridge"
  return ({ nextSwapId := next
            inFlight := id
            swaps := Function.update s.swaps id swap }, [pull, bridge])

def execute (id : ℕ) : Except Error (State × List Effect) := do
  let sw := s.swaps id
  guard (sw.status = .Funding) .BadStatus
  let funded ← addU 64 sw.inSnapshot sw.coreIn
  guard (¬ free env (M.tokenIn sw.baseForQuote) < funded) .NotLanded
  let sz ← orderSz M sw.baseForQuote sw.coreIn sw.limitPx
  return (s.setSwap id { sw with
      outSnapshot := free env (M.tokenOut sw.baseForQuote)
      executedL1Block := env.l1BlockNumber.val
      status := .Pending },
    [.limitOrder M.orderAsset (!sw.baseForQuote) sw.limitPx sz false TIF_IOC id])

inductive Recon where
  | Held | Nothing | Reconciled
deriving DecidableEq

/-- What the in-token balance has grown by, capped by the deposit. -/
def inRemainder (sw : Swap) : ℕ :=
  let total := (env.spotBalance (M.tokenIn sw.baseForQuote)).total.val
  if total > sw.inSnapshot then min (total - sw.inSnapshot) sw.coreIn else 0

/-- What the free out-token balance has grown by, once an order was placed. -/
def outDelta (sw : Swap) (orderPlaced : Bool) : ℕ :=
  let outFree := free env (M.tokenOut sw.baseForQuote)
  if orderPlaced ∧ outFree > sw.outSnapshot then outFree - sw.outSnapshot else 0

/-- `_reconcile`, on the swap it rewrites. -/
def reconcile (sw : Swap) (orderPlaced : Bool) : Except Error (Recon × Swap × List Effect) :=
  let tokenOut := M.tokenOut sw.baseForQuote
  let tokenIn := M.tokenIn sw.baseForQuote
  let inRemainder := inRemainder M env sw
  let outDelta := outDelta M env sw orderPlaced
  if (env.spotBalance tokenIn).hold > 0 then .ok (.Held, sw, [])
  else if outDelta = 0 ∧ inRemainder = 0 then .ok (.Nothing, sw, [])
  else do
    let product ← mulU 256 outDelta M.feeBps
    let fee := product / 10000 % 2 ^ 64
    let owedOut ← subU outDelta fee
    let feeSend := if fee > 0 then [.spotSend M.treasury tokenOut fee] else []
    return (.Reconciled, { sw with
        owedOut := owedOut
        owedIn := inRemainder
        evmOutSnapshot := env.balanceOf (M.erc20For tokenOut)
        evmInSnapshot := env.balanceOf (M.erc20For tokenIn)
        settledL1Block := env.l1BlockNumber.val
        status := .Bridging },
      feeSend ++ bridgeBack tokenOut owedOut ++ bridgeBack tokenIn inRemainder)

def settle (id : ℕ) : Except Error (State × List Effect) := do
  let sw := s.swaps id
  guard (sw.status = .Pending) .BadStatus
  guard (s.inFlight = id) .BadStatus
  let ready ← addU 64 sw.executedL1Block SETTLE_DELAY_L1
  guard (¬ (env.blockNumber ≤ sw.initiatedEvmBlock ∨ env.l1BlockNumber.val < ready)) .TooEarly
  let (r, sw, effects) ← reconcile M env sw true
  guard (r ≠ .Held) .TooEarly
  guard (r ≠ .Nothing) .NotLanded
  return (s.setSwap id sw, effects)

/-- One leg of a claim; nothing is sent when nothing is owed. -/
def payOut (token user : Address) (amount : ℕ) (message : String) :
    Except Error (List Effect) :=
  if amount > 0 then do
    let e ← transfer accepts (.pay token user amount) message
    return [e]
  else .ok []

def claim (id : ℕ) : Except Error (State × List Effect) := do
  let sw := s.swaps id
  guard (sw.status = .Bridging) .BadStatus
  guard (¬ (sw.owedOut = 0 ∧ sw.owedIn = 0)) .ZeroAmount
  let evmOut ← coreToEvm sw.owedOut (M.extraOut sw.baseForQuote)
  let evmIn ← coreToEvm sw.owedIn (M.extraIn sw.baseForQuote)
  let tokenOut := M.erc20For (M.tokenOut sw.baseForQuote)
  let tokenIn := M.erc20For (M.tokenIn sw.baseForQuote)
  let needOut ← addU 256 sw.evmOutSnapshot evmOut
  guard (¬ env.balanceOf tokenOut < needOut) .BridgeNotLanded
  let needIn ← addU 256 sw.evmInSnapshot evmIn
  guard (¬ env.balanceOf tokenIn < needIn) .BridgeNotLanded
  let out ← payOut accepts tokenOut sw.user evmOut "pay out"
  let back ← payOut accepts tokenIn sw.user evmIn "pay in"
  return ({ s.setSwap id { sw with status := .Done } with
    inFlight := if s.inFlight = id then 0 else s.inFlight }, out ++ back)

def retry (id : ℕ) : Except Error (State × List Effect) := do
  let sw := s.swaps id
  guard (sw.status = .Bridging) .BadStatus
  guard (¬ (s.inFlight ≠ 0 ∧ s.inFlight ≠ id)) .Locked
  let lastTry := if sw.retriedL1Block = 0 then sw.settledL1Block else sw.retriedL1Block
  let ready ← addU 64 lastTry RETRY_DELAY_L1
  guard (¬ env.l1BlockNumber.val < ready) .TooEarly
  let tokenOut := M.tokenOut sw.baseForQuote
  let tokenIn := M.tokenIn sw.baseForQuote
  return (s.setSwap id { sw with retriedL1Block := env.l1BlockNumber.val },
    bridgeBack tokenOut (min sw.owedOut (free env tokenOut)) ++
      bridgeBack tokenIn (min sw.owedIn (free env tokenIn)))

def forceRelease (id : ℕ) : Except Error (State × List Effect) := do
  let sw := s.swaps id
  guard (s.inFlight = id) .BadStatus
  if sw.status = .Bridging then
    let ready ← addU 64 sw.settledL1Block RELEASE_DELAY_L1
    guard (¬ env.l1BlockNumber.val < ready) .TooEarly
    return ({ s with inFlight := 0 }, [])
  else
    guard (¬ (sw.status ≠ .Funding ∧ sw.status ≠ .Pending)) .BadStatus
    let since := if sw.status = .Funding then sw.initiatedL1Block else sw.executedL1Block
    let ready ← addU 64 since RELEASE_DELAY_L1
    guard (¬ env.l1BlockNumber.val < ready) .TooEarly
    let (r, sw', effects) ← reconcile M env sw (sw.status = .Pending)
    if r = .Reconciled then return (s.setSwap id sw', effects)
    else return ({ s.setSwap id { sw with status := .Aborted } with inFlight := 0 }, [])

end Steps

end Suwappu.CoreRouter
