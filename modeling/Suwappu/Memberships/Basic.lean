import Suwappu.Chain
import Suwappu.Lib.Erc721
import Suwappu.Lib.Machine

/-!
# Memberships

`SuwappuMembership`: subscriptions that are soulbound tokens, paid in USDG for thirty days at a
time. Whether USDG moves is an answer of its own, and so is whether it takes an authorization. The
machine also counts what has been credited to whom, and the authorizations that were settled.
-/

namespace Suwappu.Memberships

open Checked

inductive Error where
  | AlreadyMember | Soulbound | BadTier | BadPeriods | WrongPayment | ZeroAddress | GrantTooLong
  | GrantWouldShrinkTerm | PriceOutOfRange | TermCapReached | PriceMoved | IntentMismatch
  | OwnableUnauthorizedAccount | OwnableInvalidOwner | FailedCall
  | SafeCastOverflowedUintDowncast
  | Erc721 (e : Erc721.Error)
  | Panic
deriving DecidableEq, Repr

instance : Overflow Error := ⟨.Panic⟩

inductive Tier where
  | Free | Pro | Premium | Enterprise
deriving DecidableEq, Repr

/-- 30 days -/
def PERIOD : ℕ := 2592000

def MAX_PERIODS_PER_PURCHASE : ℕ := 24

/-- 365 days -/
def MAX_GRANT : ℕ := 31536000

/-- 3650 days -/
def MAX_TERM : ℕ := 315360000

/-- 0.10 USDG -/
def MIN_PRICE : ℕ := 100000

/-- 100,000 USDG -/
def MAX_PRICE : ℕ := 100000000000

structure Membership where
  tier : Tier
  /-- `0` for no expiry -/
  expiresAt : ℕ
  /-- the price per period that the current paid time was bought at -/
  pricePaidPerPeriod : ℕ
deriving DecidableEq, Repr

structure Storage where
  owner : Address
  treasury : Address
  totalSupply : ℕ
  pricePerPeriod : Tier → ℕ
  memberships : ℕ → Membership
  /-- `0` where there is no membership yet -/
  tokenOf : Address → ℕ
  subscriptionSeq : Address → ℕ
  token : Erc721.Ledger Address
  /-- `block.timestamp` -/
  now : BlockTime

structure Authorization (Digest : Type) where
  payer : Address
  value : ℕ
  nonce : Digest

/-- Calls of USDG. -/
inductive External (Digest : Type) where
  | transferFrom (src dst : Address) (amount : ℕ)
  | receiveWithAuthorization (auth : Authorization Digest)
  | transfer (dst : Address) (amount : ℕ)

structure Env (Digest : Type) where
  sender : Address
  /-- whether a call of USDG goes through -/
  succeeds : External Digest → Bool

/-- `keccak256` of the encoded payer, tier, periods and sequence number -/
abbrev Keccak (Digest : Type) := Address × Tier × ℕ × ℕ → Digest

section Calls

variable {Digest : Type} [DecidableEq Digest] (keccak : Keccak Digest) (env : Env Digest)
  (s : Storage)

def onlyOwner : Except Error Unit := guard (env.sender = s.owner) .OwnableUnauthorizedAccount

/-! ### Tokens -/

/-- `_update`: a token is minted, and moves no more. -/
def update (dst : Option Address) (tokenId : ℕ) (auth : Option Address) :
    Except Error (Storage × Option Address) := do
  guard (s.token.ownerOf tokenId = none ∨ dst = none) .Soulbound
  let (token, src) ← (s.token.update dst tokenId auth).mapError .Erc721
  return ({ s with token := token }, src)

/-- `_mint` -/
def mint (dst : Address) (tokenId : ℕ) : Except Error Storage := do
  guard (dst ≠ Address.zero) (.Erc721 .InvalidReceiver)
  let (s, previousOwner) ← update s (some dst) tokenId none
  guard (previousOwner = none) (.Erc721 .InvalidSender)
  return s

/-- `_mintTo` -/
def mintTo (dst : Address) : Except Error (Storage × ℕ) := do
  guard (s.tokenOf dst = 0) .AlreadyMember
  let tokenId ← addU 64 s.totalSupply 1
  let s ← mint { s with
    totalSupply := tokenId
    tokenOf := Function.update s.tokenOf dst tokenId } dst tokenId
  return (s, tokenId)

/-- `transferFrom`, and `safeTransferFrom` but for the receiver's check. -/
def transferFrom (src dst : Address) (tokenId : ℕ) : Except Error Storage := do
  guard (dst ≠ Address.zero) (.Erc721 .InvalidReceiver)
  let (s, previousOwner) ← update s (some dst) tokenId (some env.sender)
  guard (previousOwner = some src) (.Erc721 .IncorrectOwner)
  return s

/-- The token of a member, who becomes one. -/
def tokenFor (dst : Address) : Except Error (Storage × ℕ) :=
  if s.tokenOf dst = 0 then mintTo s dst else .ok (s, s.tokenOf dst)

/-! ### Time -/

/-- The unexpired time of a membership as time of `tier`, and its value. -/
def retained (m : Membership) (now : ℕ) (tier : Tier) (newPrice : ℕ) : Except Error (ℕ × ℕ) :=
  if m.tier ≠ .Free ∧ m.expiresAt > now then do
    let remaining := m.expiresAt - now
    let oldPrice := if m.pricePaidPerPeriod = 0 then newPrice else m.pricePaidPerPeriod
    let value ← mulU 256 remaining oldPrice
    if m.tier = tier then return (remaining, value)
    else do
      let seconds ← divU value newPrice
      let value ← mulU 256 seconds newPrice
      return (seconds, value)
  else .ok (0, 0)

/-- The seconds and their value under `MAX_TERM`. -/
def clamp (totalSeconds totalValue : ℕ) (allowClamp : Bool) : Except Error (ℕ × ℕ) :=
  if totalSeconds > MAX_TERM then do
    guard (allowClamp = true) .TermCapReached
    let product ← mulU 256 totalValue MAX_TERM
    let value ← divU product totalSeconds
    return (MAX_TERM, value)
  else .ok (totalSeconds, totalValue)

/-- `_creditTime`, on the membership itself. -/
def creditTime (m : Membership) (now : ℕ) (tier : Tier) (duration newPrice : ℕ)
    (allowClamp : Bool) : Except Error Membership := do
  let (retainedSeconds, retainedValue) ← retained m now tier newPrice
  let totalSeconds ← addU 256 retainedSeconds duration
  let bought ← mulU 256 duration newPrice
  let totalValue ← addU 256 retainedValue bought
  let (totalSeconds, totalValue) ← clamp totalSeconds totalValue allowClamp
  let expiry ← addU 256 now totalSeconds
  guard (expiry < 2 ^ 64) .SafeCastOverflowedUintDowncast
  let price ← divU totalValue totalSeconds
  guard (price < 2 ^ 96) .SafeCastOverflowedUintDowncast
  return ⟨tier, expiry, price⟩

def Storage.setMembership (tokenId : ℕ) (m : Membership) : Storage :=
  { s with memberships := Function.update s.memberships tokenId m }

/-! ### Members -/

def mintFree : Except Error Storage := do
  let (s, _) ← mintTo s env.sender
  return s

/-- The checks of a purchase, with the price. -/
def quote (tier : Tier) (periods maxPricePerPeriod : ℕ) : Except Error ℕ := do
  guard (tier ≠ .Free) .BadTier
  guard (¬ (periods = 0 ∨ periods > MAX_PERIODS_PER_PURCHASE)) .BadPeriods
  guard (s.pricePerPeriod tier ≤ maxPricePerPeriod) .PriceMoved
  return s.pricePerPeriod tier

/-- Time that has been paid for. -/
def purchase (member : Address) (tier : Tier) (periods price : ℕ) : Except Error Storage := do
  let (s, tokenId) ← tokenFor s member
  let m ← creditTime (s.memberships tokenId) s.now tier (periods * PERIOD) price false
  return s.setMembership tokenId m

def subscribe (tier : Tier) (periods maxPricePerPeriod : ℕ) : Except Error Storage := do
  let price ← quote s tier periods maxPricePerPeriod
  let cost ← mulU 256 price periods
  guard (env.succeeds (.transferFrom env.sender s.treasury cost) = true) .FailedCall
  purchase s env.sender tier periods price

def subscribeWithAuthorization (tier : Tier) (periods maxPricePerPeriod : ℕ)
    (auth : Authorization Digest) : Except Error Storage := do
  let price ← quote s tier periods maxPricePerPeriod
  let cost ← mulU 256 price periods
  guard (auth.value = cost) .WrongPayment
  let seq := s.subscriptionSeq auth.payer
  guard (auth.nonce = keccak (auth.payer, tier, periods, seq)) .IntentMismatch
  let s := { s with
    subscriptionSeq := Function.update s.subscriptionSeq auth.payer ((seq + 1) % 2 ^ 256) }
  guard (env.succeeds (.receiveWithAuthorization auth) = true) .FailedCall
  guard (env.succeeds (.transfer s.treasury auth.value) = true) .FailedCall
  purchase s auth.payer tier periods price

/-- `tierOf`: an expired subscription reads as free. -/
def Storage.tierOf (who : Address) : Tier × ℕ :=
  if s.tokenOf who = 0 then (.Free, 0)
  else
    let m := s.memberships (s.tokenOf who)
    if m.tier = .Free ∨ m.expiresAt ≤ s.now then (.Free, 0) else (m.tier, m.expiresAt)

/-! ### The owner -/

def grantTime (dst : Address) (tier : Tier) (duration : ℕ) : Except Error Storage := do
  onlyOwner env s
  guard (tier ≠ .Free) .BadTier
  guard (¬ (duration = 0 ∨ duration > MAX_GRANT)) .GrantTooLong
  let (s, tokenId) ← tokenFor s dst
  let m ← creditTime (s.memberships tokenId) s.now tier duration (s.pricePerPeriod tier) true
  guard ((s.memberships tokenId).expiresAt ≤ m.expiresAt) .GrantWouldShrinkTerm
  return s.setMembership tokenId m

def setTreasury (treasury : Address) : Except Error Storage := do
  onlyOwner env s
  guard (treasury ≠ Address.zero) .ZeroAddress
  return { s with treasury := treasury }

def setPrice (tier : Tier) (price : ℕ) : Except Error Storage := do
  onlyOwner env s
  guard (tier ≠ .Free) .BadTier
  guard (¬ (price < MIN_PRICE ∨ price > MAX_PRICE)) .PriceOutOfRange
  return { s with pricePerPeriod := Function.update s.pricePerPeriod tier price }

def transferOwnership (newOwner : Address) : Except Error Storage := do
  onlyOwner env s
  guard (newOwner ≠ Address.zero) .OwnableInvalidOwner
  return { s with owner := newOwner }

end Calls

/-! ### Runs -/

inductive Call (Digest : Type) where
  | mintFree (env : Env Digest)
  | subscribe (env : Env Digest) (tier : Tier) (periods maxPricePerPeriod : ℕ)
  | subscribeWithAuthorization (env : Env Digest) (tier : Tier) (periods maxPricePerPeriod : ℕ)
      (auth : Authorization Digest)
  | grantTime (env : Env Digest) (dst : Address) (tier : Tier) (duration : ℕ)
  | transferFrom (env : Env Digest) (src dst : Address) (tokenId : ℕ)
  | approve (env : Env Digest) (dst : Address) (tokenId : ℕ)
  | setApprovalForAll (env : Env Digest) (operator : Address) (approved : Bool)
  | setTreasury (env : Env Digest) (treasury : Address)
  | setPrice (env : Env Digest) (tier : Tier) (price : ℕ)
  | transferOwnership (env : Env Digest) (newOwner : Address)
  | renounceOwnership (env : Env Digest)
  /-- the clock of a later block -/
  | advance (time : BlockTime)

/-- An authorization that was settled, with what it bought. -/
structure Settled (Digest : Type) where
  payer : Address
  nonce : Digest
  tier : Tier
  periods : ℕ

/-- The contract, and what its calls did outside. -/
structure World (Digest : Type) where
  storage : Storage
  /-- USDG paid for the membership of an address -/
  paid : Address → ℕ
  /-- value of granted time, in USDG times seconds -/
  granted : Address → ℕ
  settled : List (Settled Digest)

variable {Digest : Type} [DecidableEq Digest] (keccak : Keccak Digest)

def World.pay (w : World Digest) (s : Storage) (member : Address) (cost : ℕ) : World Digest :=
  { w with storage := s, paid := Function.update w.paid member (w.paid member + cost) }

def step (w : World Digest) : Call Digest → Except Error (World Digest)
  | .mintFree env => do
    let s ← mintFree env w.storage
    return { w with storage := s }
  | .subscribe env tier periods maxPricePerPeriod => do
    let s ← subscribe env w.storage tier periods maxPricePerPeriod
    return w.pay s env.sender (w.storage.pricePerPeriod tier * periods)
  | .subscribeWithAuthorization env tier periods maxPricePerPeriod auth => do
    let s ← subscribeWithAuthorization keccak env w.storage tier periods maxPricePerPeriod auth
    return { w.pay s auth.payer auth.value with
      settled := w.settled ++ [⟨auth.payer, auth.nonce, tier, periods⟩] }
  | .grantTime env dst tier duration => do
    let s ← grantTime env w.storage dst tier duration
    return { w with
      storage := s
      granted := Function.update w.granted dst
        (w.granted dst + duration * w.storage.pricePerPeriod tier) }
  | .transferFrom env src dst tokenId => do
    let s ← transferFrom env w.storage src dst tokenId
    return { w with storage := s }
  | .approve _ _ _ => .error .Soulbound
  | .setApprovalForAll _ _ _ => .error .Soulbound
  | .setTreasury env treasury => do
    let s ← setTreasury env w.storage treasury
    return { w with storage := s }
  | .setPrice env tier price => do
    let s ← setPrice env w.storage tier price
    return { w with storage := s }
  | .transferOwnership env newOwner => do
    let s ← transferOwnership env w.storage newOwner
    return { w with storage := s }
  | .renounceOwnership _ => .error .Soulbound
  | .advance time => do
    guard (w.storage.now ≤ time) .Panic
    return { w with storage := { w.storage with now := time } }

/-- The deployed contract as a machine: a reverted call changes nothing. -/
def machine : Machine (World Digest) (Call Digest) Error := ⟨step keccak⟩

/-- USDG per period, matching the app's pricing. -/
def initialPrice : Tier → ℕ
  | .Free       => 0
  | .Pro        => 9990000
  | .Premium    => 29990000
  | .Enterprise => 99990000

/-- The contract right after deployment. -/
def Storage.init (treasury owner : Address) (now : BlockTime) : Storage where
  owner := owner
  treasury := treasury
  totalSupply := 0
  pricePerPeriod := initialPrice
  memberships _ := ⟨.Free, 0, 0⟩
  tokenOf _ := 0
  subscriptionSeq _ := 0
  token := .empty
  now := now

def World.init (treasury owner : Address) (now : BlockTime) : World Digest :=
  ⟨.init treasury owner now, fun _ => 0, fun _ => 0, []⟩

/-- Who a purchase is for, and what it buys. -/
def Call.buys : Call Digest → Option (Address × Tier × ℕ)
  | .subscribe env tier periods _                       => some (env.sender, tier, periods)
  | .subscribeWithAuthorization _ tier periods _ auth   => some (auth.payer, tier, periods)
  | _                                                   => none

/-- The membership of an address. -/
def Storage.membershipOf (s : Storage) (member : Address) : Membership :=
  s.memberships (s.tokenOf member)

/-- What the unexpired time is worth, in USDG times seconds. -/
def Membership.value (m : Membership) (now : ℕ) : ℕ :=
  if m.tier = .Free then 0 else (m.expiresAt - now) * m.pricePaidPerPeriod

end Suwappu.Memberships
