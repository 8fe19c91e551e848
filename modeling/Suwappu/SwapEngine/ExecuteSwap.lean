import Suwappu.Lib.Processes
import Suwappu.Lib.Window

/-!
# Swaps and the spending limit

Any number of calls of `execute_swap`, of any users, on any wallets and engine objects. Every
session of the database, every price lookup and the provider's execution is a step of its own, and
time passes in between. What concerns neither the lock, the idempotency key nor the limit is an
answer from outside: the guards on the quote, its freshness, the compliance screening, the balance
and the simulation.

Floating-point numbers are taken as exact, and the database does not fail. What follows the record
of the spend event is left out, as is the two-factor threshold.
-/

namespace Suwappu.SwapEngine

abbrev UserId := ℕ

abbrev WalletId := ℕ

/-- An engine object, with its own registry of locks. -/
abbrev EngineId := ℕ

abbrev LockId := ℕ

abbrev SwapId := ℕ

/-- Microseconds. -/
abbrev Time := ℕ

def hour : Time := 3600 * 1000000

def DEFAULT_PER_SWAP_LIMIT_USD : ℚ := 5000

def DEFAULT_DAILY_LIMIT_USD : ℚ := 50000

/-- `_wallet_locks_max` -/
def walletLocksMax : ℕ := 1000

structure UserSettings where
  perSwapLimitUsd : Option ℚ
  dailyLimitUsd : Option ℚ

structure UserLimits where
  perSwapUsd : ℚ
  dailyUsd : ℚ

def getLimits : Option UserSettings → UserLimits
  | none          => ⟨DEFAULT_PER_SWAP_LIMIT_USD, DEFAULT_DAILY_LIMIT_USD⟩
  | some settings => ⟨settings.perSwapLimitUsd.getD DEFAULT_PER_SWAP_LIMIT_USD,
    settings.dailyLimitUsd.getD DEFAULT_DAILY_LIMIT_USD⟩

/-- What the calls find in the database and none of them changes. -/
structure Accounts where
  settings : UserId → Option UserSettings
  owner : WalletId → Option UserId

def Accounts.limits (accounts : Accounts) (userId : UserId) : UserLimits :=
  getLimits (accounts.settings userId)

structure SpendEvent where
  userId : UserId
  amountUsd : ℚ≥0
  swapId : SwapId
  createdAt : Time
deriving DecidableEq

inductive SwapStatus where
  | EXECUTING | SUBMITTED | FAILED | CANCELLED
deriving DecidableEq, Repr

structure SwapTransaction where
  userId : UserId
  idempotencyKey : Option String
  status : SwapStatus
deriving DecidableEq

/-- A swap that has left for the chain. -/
structure Broadcast where
  userId : UserId
  amountUsd : Option ℚ≥0
  sentAt : Time
deriving DecidableEq

/-- An entry of the `_wallet_locks` of an engine. -/
structure WalletLock where
  engine : EngineId
  walletId : WalletId
  lockId : LockId
deriving DecidableEq

structure State where
  now : Time
  /-- by id -/
  swaps : List SwapTransaction
  events : List SpendEvent
  /-- the last one first -/
  broadcasts : List Broadcast
  walletLocks : List WalletLock
  locked : List LockId
  nextLock : LockId
deriving DecidableEq

/-- A call of `execute_swap`. -/
structure Swap where
  engine : EngineId
  walletId : WalletId
  userId : UserId
  idempotencyKey : Option String
  fromAmountHuman : ℚ≥0
deriving DecidableEq

inductive Proc where
  | start (c : Swap)
  | wait (c : Swap) (lock : LockId)
  | checkIdempotency (c : Swap) (lock : LockId)
  | getWallet (c : Swap) (lock : LockId)
  | priceFrom (c : Swap) (lock : LockId)
  | priceTo (c : Swap) (lock : LockId) (amountUsd : Option ℚ≥0)
  | checkPerSwap (c : Swap) (lock : LockId) (amountUsd : ℚ≥0)
  | checkDaily (c : Swap) (lock : LockId) (amountUsd : ℚ≥0) (cutoff : Time)
  | validate (c : Swap) (lock : LockId) (amountUsd : Option ℚ≥0)
  | createRecord (c : Swap) (lock : LockId) (amountUsd : Option ℚ≥0)
  | simulate (c : Swap) (lock : LockId) (amountUsd : Option ℚ≥0) (swapId : SwapId)
  | execute (c : Swap) (lock : LockId) (amountUsd : Option ℚ≥0) (swapId : SwapId)
  | updateTxHash (c : Swap) (lock : LockId) (amountUsd : Option ℚ≥0) (swapId : SwapId)
    (sentAt : Time)
  | record (c : Swap) (lock : LockId) (amountUsd : Option ℚ≥0) (swapId : SwapId) (sentAt : Time)
  | markFailed (lock : LockId) (swapId : SwapId)
  /-- the provider has raised after its broadcast -/
  | markLost (c : Swap) (lock : LockId) (amountUsd : Option ℚ≥0) (swapId : SwapId) (sentAt : Time)
  | returned
  | raised
  | lost (c : Swap) (amountUsd : Option ℚ≥0) (sentAt : Time)
deriving DecidableEq

/-- What a step gets from outside. -/
inductive Answer where
  | none
  /-- a check refuses the swap -/
  | raises
  | price (price : Option ℚ≥0)
  | sent
  /-- the simulation finds the swap not to be safe, or the provider refuses it -/
  | refused
  /-- the provider broadcasts, and raises -/
  | sentAndRaises
deriving DecidableEq

inductive Error where
  /-- the step waits for another answer or for the lock, or the call is over -/
  | NotNext
deriving DecidableEq, Repr

/-! ### The locks -/

/-- The lock of a wallet, made anew where there is none, after an eviction where there are too
many. -/
def State.walletLock (s : State) (engine : EngineId) (walletId : WalletId) : State × LockId :=
  let mine := s.walletLocks.filter fun l => l.engine = engine
  match mine.find? fun l => l.walletId = walletId with
  | some l => (s, l.lockId)
  | none   =>
    let unlocked := mine.filter fun l => l.lockId ∉ s.locked
    let toRemove := unlocked.take (unlocked.length / 2)
    let kept := if walletLocksMax ≤ mine.length then s.walletLocks.filter (· ∉ toRemove)
      else s.walletLocks
    ({ s with
        walletLocks := kept ++ [⟨engine, walletId, s.nextLock⟩]
        nextLock := s.nextLock + 1 }, s.nextLock)

def State.acquire (s : State) (lock : LockId) : State := { s with locked := lock :: s.locked }

def State.release (s : State) (lock : LockId) : State := { s with locked := s.locked.erase lock }

/-! ### The rows -/

/-- The row that stands for the attempt, unless it has failed. -/
def State.existing (s : State) (key : String) : Option SwapTransaction :=
  (s.swaps.find? fun t => t.idempotencyKey = some key).filter fun t =>
    t.status ≠ .FAILED ∧ t.status ≠ .CANCELLED

def State.setStatus (s : State) (swapId : SwapId) (status : SwapStatus) : State :=
  { s with swaps := s.swaps.modify swapId fun t => { t with status := status } }

/-- The recorded outflow of a user from a time on. -/
def State.spentUsd (s : State) (userId : UserId) (cutoff : Time) : ℚ≥0 :=
  Window.sumSince SpendEvent.createdAt SpendEvent.amountUsd
    (s.events.filter fun e => e.userId = userId) cutoff

def State.broadcast (s : State) (c : Swap) (amountUsd : Option ℚ≥0) : State :=
  { s with broadcasts := ⟨c.userId, amountUsd, s.now⟩ :: s.broadcasts }

def State.recordSpend (s : State) (c : Swap) (amountUsd : ℚ≥0) (swapId : SwapId) : State :=
  { s with events := s.events ++ [⟨c.userId, amountUsd, swapId, s.now⟩] }

/-- `usd_value`: nothing where the price is unknown or not positive. -/
def usdValue (amount : ℚ≥0) : Option ℚ≥0 → Option ℚ≥0
  | none       => none
  | some price => if price = 0 then none else some (amount * price)

/-! ### The calls -/

variable (accounts : Accounts)

/-- The next step of a call. -/
def step (s : State) : Proc → Answer → Except Error (State × Proc)
  | .start c, .none   =>
    let locks := s.walletLock c.engine c.walletId
    .ok (locks.1, .wait c locks.2)
  | .start _, .raises => .ok (s, .raised)
  | .wait c lock, .none =>
    if lock ∈ s.locked then .error .NotNext else .ok (s.acquire lock, .checkIdempotency c lock)
  | .checkIdempotency c lock, .none =>
    match (c.idempotencyKey.filter (· ≠ "")).bind s.existing with
    | .some _ => .ok (s.release lock, .returned)
    | .none   => .ok (s, .getWallet c lock)
  | .getWallet c lock, .none =>
    if accounts.owner c.walletId = .some c.userId then .ok (s, .priceFrom c lock)
    else .ok (s.release lock, .raised)
  | .getWallet _ lock, .raises => .ok (s.release lock, .raised)
  | .priceFrom c lock, .price price => .ok (s, .priceTo c lock (usdValue c.fromAmountHuman price))
  | .priceTo c lock amountUsd, .price _ =>
    match amountUsd with
    | .some amountUsd => .ok (s, .checkPerSwap c lock amountUsd)
    -- an unknown price must not brick all swaps
    | .none           => .ok (s, .validate c lock .none)
  | .checkPerSwap c lock amountUsd, .none =>
    if (accounts.limits c.userId).perSwapUsd < amountUsd then .ok (s.release lock, .raised)
    else .ok (s, .checkDaily c lock amountUsd (s.now - 24 * hour))
  | .checkDaily c lock amountUsd cutoff, .none =>
    if (accounts.limits c.userId).dailyUsd < s.spentUsd c.userId cutoff + amountUsd then
      .ok (s.release lock, .raised)
    else .ok (s, .validate c lock (.some amountUsd))
  | .validate c lock amountUsd, .none => .ok (s, .createRecord c lock amountUsd)
  | .validate _ lock _, .raises       => .ok (s.release lock, .raised)
  | .createRecord c lock amountUsd, .none =>
    -- the unique index on the key
    if ∃ t ∈ s.swaps, c.idempotencyKey ≠ .none ∧ t.idempotencyKey = c.idempotencyKey then
      .ok (s.release lock, .raised)
    else
      .ok ({ s with swaps := s.swaps ++ [⟨c.userId, c.idempotencyKey, .EXECUTING⟩] },
        .simulate c lock amountUsd s.swaps.length)
  | .simulate c lock amountUsd swapId, .none => .ok (s, .execute c lock amountUsd swapId)
  | .simulate _ lock _ swapId, .refused      => .ok (s, .markFailed lock swapId)
  -- the tier or the simulation cannot be had: the row stays as it is
  | .simulate _ lock _ _, .raises            => .ok (s.release lock, .raised)
  | .execute c lock amountUsd swapId, .sent =>
    .ok (s.broadcast c amountUsd, .updateTxHash c lock amountUsd swapId s.now)
  | .execute _ lock _ swapId, .refused => .ok (s, .markFailed lock swapId)
  | .execute c lock amountUsd swapId, .sentAndRaises =>
    .ok (s.broadcast c amountUsd, .markLost c lock amountUsd swapId s.now)
  | .updateTxHash c lock amountUsd swapId sentAt, .none =>
    .ok (s.setStatus swapId .SUBMITTED, .record c lock amountUsd swapId sentAt)
  | .record c lock amountUsd swapId _, .none =>
    match amountUsd with
    | .some amountUsd => .ok ((s.recordSpend c amountUsd swapId).release lock, .returned)
    | .none           => .ok (s.release lock, .returned)
  | .markFailed lock swapId, .none =>
    .ok ((s.setStatus swapId .FAILED).release lock, .raised)
  | .markLost c lock amountUsd swapId sentAt, .none =>
    .ok ((s.setStatus swapId .FAILED).release lock, .lost c amountUsd sentAt)
  | _, _ => .error .NotNext

/-- Time passes. -/
def elapse (s : State) (duration : Time) : Except Error State :=
  .ok { s with now := s.now + duration }

def program : Program State Proc Answer Time Error := ⟨step accounts, elapse⟩

/-! ### Batches -/

inductive Call where
  | executeSwap (c : Swap)
  | executeMultiSwap (engine : EngineId) (quotesWithWallets : List (ℚ≥0 × WalletId))
    (userId : UserId) (attemptId : String)

/-- `execute_multi_swap` starts a swap for each of its wallets, all at once. -/
def Call.swaps : Call → List Swap
  | .executeSwap c => [c]
  | .executeMultiSwap engine quotesWithWallets userId attemptId =>
    quotesWithWallets.mapIdx fun i quote =>
      ⟨engine, quote.2, userId,
        some s!"multi:{userId}:{quote.2}:{attemptId}:{i}", quote.1⟩

abbrev Config (n : ℕ) := Program.Config State Proc n

abbrev Action (n : ℕ) := Program.Action n Answer Time

def State.init (now : Time) : State := ⟨now, [], [], [], [], [], 0⟩

def swapsOf (calls : List Call) : List Swap := calls.flatMap Call.swaps

def initial (now : Time) (calls : List Call) : Config (swapsOf calls).length :=
  ⟨.init now, fun i => .start ((swapsOf calls).get i)⟩

end Suwappu.SwapEngine
