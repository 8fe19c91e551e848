import Suwappu.Chain
import Suwappu.Lib.Machine
import Suwappu.Lib.Rounding
import Suwappu.Primitives.MulDiv

/-!
# The time-locked bonding curve

`SuwappuTimeCurve`: the curve token, its price `m(t) * (basePrice + slope * s)`, and the trades
against one reserve asset. The state carries the reserve balance of the curve; the answers of the
reserve token are arguments of `buy` and `sell`.
-/

namespace Suwappu.TimeCurve

open Checked

inductive Error where
  | ZeroAmount | SlippageExceeded | InsufficientReserve | BadParams | TransferFailed
  | DeadlinePassed | NonStandardToken
  | ALLOWANCE | ZERO_TO | BALANCE
  | DIV_ZERO | MULDIV_OVERFLOW | EXP_OVERFLOW
  | Panic
deriving DecidableEq, Repr

instance : MulDivError Error where
  overflow := .Panic
  divZero := .DIV_ZERO
  mulDivOverflow := .MULDIV_OVERFLOW

/-- The immutable parameters, with what the constructor checked of them. -/
structure Curve where
  reserveDecimals : ℕ
  deployTime : BlockTime
  basePrice : ℕ
  slope : ℕ
  rate : ℤ
  sinkRate : ℕ
  reserveDecimals_le : reserveDecimals ≤ 18
  basePrice_pos : 0 < basePrice
  slope_le : slope ≤ 10 ^ 24
  rate_nonpos : rate ≤ 0
  rate_ge : -10 ^ 24 ≤ rate
  sinkRate_lt : sinkRate < WAD

/-- `reserveScale = 10 ** (18 - dec)`. -/
def Curve.reserveScale (c : Curve) : ℕ := 10 ^ (18 - c.reserveDecimals)

/-- The constructor; `dec` is the answer of `reserve.decimals()`. -/
def constructor (reserve : Address) (basePrice slope : ℕ) (rate : ℤ) (sinkRate : ℕ) (dec : ℕ)
    (now : BlockTime) : Except Error Curve :=
  if h₁ : reserve = Address.zero ∨ basePrice = 0 ∨ sinkRate ≥ WAD then .error .BadParams
  else if h₂ : rate > 0 then .error .BadParams
  else if h₃ : rate < -10 ^ 24 ∨ slope > 10 ^ 24 then .error .BadParams
  else if h₄ : dec > 18 then .error .BadParams
  else .ok {
    reserveDecimals := dec, deployTime := now, basePrice := basePrice, slope := slope, rate := rate,
    sinkRate := sinkRate, reserveDecimals_le := by omega, basePrice_pos := by omega,
    slope_le := by omega, rate_nonpos := by omega, rate_ge := by omega, sinkRate_lt := by omega }

/-- The curves are exactly what the constructor admits. -/
lemma constructor_eq_ok (c : Curve) {reserve : Address} (h : reserve ≠ Address.zero) :
    constructor reserve c.basePrice c.slope c.rate c.sinkRate c.reserveDecimals c.deployTime
      = .ok c := by
  have h₁ := c.basePrice_pos
  have h₂ := c.sinkRate_lt
  have h₃ := c.rate_nonpos
  have h₄ := c.rate_ge
  have h₅ := c.slope_le
  have h₆ := c.reserveDecimals_le
  have hreserve : ¬ (reserve = Address.zero ∨ c.basePrice = 0 ∨ c.sinkRate ≥ WAD) := by
    simp only [h, false_or]
    omega
  rw [constructor, dif_neg hreserve, dif_neg (by omega), dif_neg (by omega), dif_neg (by omega)]

structure State where
  totalSupply : ℕ
  balanceOf : Address → ℕ
  allowance : Address → Address → ℕ
  totalSunk : ℕ
  /-- `reserve.balanceOf(address(this))` -/
  reserveBalance : ℕ
  now : BlockTime

/-- The curve right after deployment, when its address already held `reserve` units. -/
def State.init (c : Curve) (reserve : ℕ) : State where
  totalSupply := 0
  balanceOf _ := 0
  allowance _ _ := 0
  totalSunk := 0
  reserveBalance := reserve
  now := c.deployTime

/-! ### Math -/

/-- The two's complement reading of a 256-bit word. -/
def wrap (z : ℤ) : ℤ := z.bmod (2 ^ 256)

/-- `(a * b) >> 96` on signed words. -/
def mulShift (a b : ℤ) : ℤ := wrap (a * b) / 2 ^ 96

/-- `ln 2` in the 96-bit fixed point of `_wadExp`. -/
def LN2 : ℤ := 54916777467707473351141471128

/-- The number of halvings that `_wadExp` takes out of its argument. -/
def expHalvings (x : ℤ) : ℤ :=
  wrap (wrap ((wrap (x * 2 ^ 96)).tdiv LN2) + 2 ^ 95) / 2 ^ 96

/-- The numerator of the rational approximation. -/
def expP (x : ℤ) : ℤ :=
  let y := wrap (x + 1346386616545796478920950773328)
  let y := wrap (mulShift y x + 57155421227552351082224309758442)
  let p := wrap (wrap (y + x) - 94201549194550492254356042504812)
  let p := wrap (mulShift p y + 28719021644029726153956944680412240)
  wrap (wrap (p * x) + wrap (4385272521454847904659076985693276 * 2 ^ 96))

/-- The denominator of the rational approximation. -/
def expQ (x : ℤ) : ℤ :=
  let q := wrap (x - 2855989394907223263936484059900)
  let q := wrap (mulShift q x + 50020603652535783019961831881945)
  let q := wrap (mulShift q x - 533845033583426703283633433725380)
  let q := wrap (mulShift q x + 3604857256930695427073651918091429)
  let q := wrap (mulShift q x - 14423608567350463180887372962807573)
  wrap (mulShift q x + 26449188498355588339934803723976023)

/-- `v >> n` on unsigned words. -/
def shr (v n : ℕ) : ℕ := if n < 256 then v / 2 ^ n else 0

/-- `_wadExp`: `e ^ x` for a signed WAD `x`. -/
def wadExp (x : ℤ) : Except Error ℤ := do
  if x ≤ -42139678854452767551 then
    return 0
  guard (x < 135305999368893231589) .EXP_OVERFLOW
  let x := (wrap (x * 2 ^ 78)).tdiv (5 ^ 18)
  let k := expHalvings x
  let x := wrap (x - wrap (k * LN2))
  let r := wrap ((expP x).tdiv (expQ x))
  let word := (r % 2 ^ 256).toNat * 3822833074963236453042738258902158003155416615667 % 2 ^ 256
  return wrap (shr word ((wrap (195 - k)) % 2 ^ 256).toNat)

def mulWad (a b : ℕ) : Except Error ℕ := mulDiv a b WAD

/-- `_ceilDiv` -/
def ceilDiv (a b : ℕ) : ℕ := Rounding.ceilDiv a b

/-- Integral of `basePrice + slope * s` over `[s1, s2]`. -/
def integral (c : Curve) (s1 s2 : ℕ) : Except Error ℕ := do
  let width ← subU s2 s1
  let linear ← mulWad c.basePrice width
  if c.slope = 0 then
    return linear
  let hi ← mulDiv s2 s2 WAD
  let lo ← mulDiv s1 s1 WAD
  let sq ← subU hi lo
  let rise ← mulWad c.slope sq
  addU 256 linear (rise / 2)

/-! ### Quotes -/

/-- The time multiplier `m(t)`, floored above zero. -/
def multiplier (c : Curve) (s : State) : Except Error ℕ := do
  let elapsed ← subU s.now.val c.deployTime.val
  let x ← fitI 256 (c.rate * wrap elapsed)
  let x := if x < -(41 * 10 ^ 18) then -(41 * 10 ^ 18) else x
  let r ← wadExp x
  return (r % 2 ^ 256).toNat

/-- Reserve units required to buy `tokenAmount` now. -/
def quoteBuy (c : Curve) (s : State) (tokenAmount : ℕ) : Except Error ℕ := do
  let m ← multiplier c s
  let upper ← addU 256 s.totalSupply tokenAmount
  let area ← integral c s.totalSupply upper
  let costWad ← mulWad m area
  return ceilDiv costWad c.reserveScale

/-- `_sellQuote` up to its last check: gross proceeds and proceeds net of the sink. -/
def sellQuoteUnchecked (c : Curve) (s : State) (tokenAmount : ℕ) : Except Error (ℕ × ℕ) := do
  guard (¬ (tokenAmount = 0 ∨ tokenAmount > s.totalSupply)) .ZeroAmount
  let m ← multiplier c s
  let lower ← subU s.totalSupply tokenAmount
  let area ← integral c lower s.totalSupply
  let grossWad ← mulWad m area
  let grossOut := grossWad / c.reserveScale
  let sink ← mulU 256 grossOut c.sinkRate
  let netOut ← subU grossOut (sink / WAD)
  return (grossOut, netOut)

/-- `_sellQuote`, with the check against the reserve balance. -/
def sellQuote (c : Curve) (s : State) (tokenAmount : ℕ) : Except Error (ℕ × ℕ) := do
  let (grossOut, netOut) ← sellQuoteUnchecked c s tokenAmount
  guard (netOut ≤ s.reserveBalance) .InsufficientReserve
  return (grossOut, netOut)

def quoteSell (c : Curve) (s : State) (tokenAmount : ℕ) : Except Error ℕ := do
  let (_, netOut) ← sellQuote c s tokenAmount
  return netOut

/-! ### The curve token -/

def approve (s : State) (sender spender : Address) (amount : ℕ) : State :=
  let ownerAllowance := Function.update (s.allowance sender) spender amount
  { s with allowance := Function.update s.allowance sender ownerAllowance }

/-- `_transfer`; the two balance updates are unchecked. -/
def transferFromTo (s : State) (src dst : Address) (amount : ℕ) : Except Error State := do
  guard (dst ≠ Address.zero) .ZERO_TO
  guard (s.balanceOf src ≥ amount) .BALANCE
  let balances := Function.update s.balanceOf src (s.balanceOf src - amount)
  return { s with balanceOf := Function.update balances dst ((balances dst + amount) % 2 ^ 256) }

def transfer (s : State) (sender dst : Address) (amount : ℕ) : Except Error State :=
  transferFromTo s sender dst amount

def transferFrom (s : State) (sender src dst : Address) (amount : ℕ) : Except Error State := do
  let allowed := s.allowance src sender
  if allowed ≠ 2 ^ 256 - 1 then
    guard (allowed ≥ amount) .ALLOWANCE
    transferFromTo (approve s src sender (allowed - amount)) src dst amount
  else
    transferFromTo s src dst amount

def mint (s : State) (dst : Address) (amount : ℕ) : Except Error State := do
  let supply ← addU 256 s.totalSupply amount
  return { s with
    totalSupply := supply
    balanceOf := Function.update s.balanceOf dst ((s.balanceOf dst + amount) % 2 ^ 256) }

def burn (s : State) (src : Address) (amount : ℕ) : Except Error State := do
  guard (s.balanceOf src ≥ amount) .BALANCE
  return { s with
    totalSupply := (s.totalSupply + (2 ^ 256 - amount)) % 2 ^ 256
    balanceOf := Function.update s.balanceOf src (s.balanceOf src - amount) }

/-! ### Trading -/

/-- `buy`. `received` is what the pull from the buyer added to the reserve balance, `none` when the
reserve token refused it. -/
def buy (c : Curve) (s : State) (sender : Address) (tokenAmount maxReserveIn deadline : ℕ)
    (received : Option ℕ) : Except Error (State × ℕ) := do
  guard (s.now.val ≤ deadline) .DeadlinePassed
  guard (tokenAmount ≠ 0) .ZeroAmount
  let reserveIn ← quoteBuy c s tokenAmount
  guard (reserveIn ≠ 0) .ZeroAmount
  guard (reserveIn ≤ maxReserveIn) .SlippageExceeded
  match received with
  | none => .error .TransferFailed
  | some r =>
    guard (r = reserveIn) .NonStandardToken
    let s' ← mint { s with reserveBalance := s.reserveBalance + r } sender tokenAmount
    return (s', reserveIn)

/-- `sell`. `paid` tells whether the reserve token made the transfer. -/
def sell (c : Curve) (s : State) (sender : Address) (tokenAmount minReserveOut deadline : ℕ)
    (paid : Bool) : Except Error (State × ℕ) := do
  guard (s.now.val ≤ deadline) .DeadlinePassed
  guard (tokenAmount ≠ 0) .ZeroAmount
  let (grossOut, netOut) ← sellQuote c s tokenAmount
  guard (netOut ≥ minReserveOut) .SlippageExceeded
  guard (netOut ≤ s.reserveBalance) .InsufficientReserve
  let sunk ← subU grossOut netOut
  let totalSunk ← addU 256 s.totalSunk sunk
  let s' ← burn { s with totalSunk := totalSunk } sender tokenAmount
  guard (paid = true) .TransferFailed
  return ({ s' with reserveBalance := s'.reserveBalance - netOut }, netOut)

/-! ### Runs -/

inductive Call where
  | buy (sender : Address) (tokenAmount maxReserveIn deadline : ℕ) (received : Option ℕ)
  | sell (sender : Address) (tokenAmount minReserveOut deadline : ℕ) (paid : Bool)
  | transfer (sender dst : Address) (amount : ℕ)
  | transferFrom (sender src dst : Address) (amount : ℕ)
  | approve (sender spender : Address) (amount : ℕ)
  /-- reserve units sent to the curve outside of a trade -/
  | donate (amount : ℕ)
  /-- the clock of a later block -/
  | advance (time : BlockTime)

def step (c : Curve) (s : State) : Call → Except Error State
  | .buy sender amount maxIn deadline received => do
    let (s', _) ← buy c s sender amount maxIn deadline received
    return s'
  | .sell sender amount minOut deadline paid => do
    let (s', _) ← sell c s sender amount minOut deadline paid
    return s'
  | .transfer sender dst amount => transfer s sender dst amount
  | .transferFrom sender src dst amount => transferFrom s sender src dst amount
  | .approve sender spender amount => return approve s sender spender amount
  | .donate amount => return { s with reserveBalance := s.reserveBalance + amount }
  | .advance time => do
    guard (s.now ≤ time) .Panic
    return { s with now := time }

/-- The deployed curve as a machine: a reverted call changes nothing. -/
def machine (c : Curve) : Machine State Call Error := ⟨step c⟩

end Suwappu.TimeCurve
