import Suwappu.Lib.Processes

/-!
# Copy trades

Any number of calls of the copy service, and what users do to their follows meanwhile. Every read
and every write of the database is a step, and so is every call to the outside. A session that reads
with `with_for_update` holds its rows until it is committed; a write waits until its row is free.
What a session changes is seen by the others once it is committed.

Floating-point numbers are taken as exact. Rows are known by their position. Prices, quotes, tiers
and wallets answer from outside; the profiles, the points and the counters of a follow are left out.
-/

namespace Suwappu.CopyService

abbrev UserId := ℕ

abbrev FollowId := ℕ

abbrev CopyId := ℕ

abbrev SwapId := ℕ

/-- Seconds. -/
abbrev Time := ℕ

/-- The midnight before. -/
def dayStart (now : Time) : Time := now / 86400 * 86400

inductive CopyMode where
  | notify | auto | paper
deriving DecidableEq, Repr

inductive CopyType where
  | fixed | percentage
deriving DecidableEq, Repr

structure CopyFollow where
  followerId : UserId
  traderId : UserId
  isActive : Bool
  copyMode : CopyMode
  copyType : CopyType
  copyAmountUsd : ℚ
  copyPercentage : ℚ
  maxTradeUsd : ℚ
  dailyLimitUsd : ℚ
  dailyCopiedUsd : ℚ
  lastDailyReset : Option Time
  minTradeUsd : Option ℚ
  minWalletPnlPct : Option ℚ
  maxSlippagePercent : ℚ
  /-- split at the commas, in lower case; empty where there is none -/
  chainsFilter : List String
deriving DecidableEq

inductive Status where
  | pending | auto_pending | notified | executing | copied | outcome_unknown | skipped | failed
deriving DecidableEq, Repr

/-- The statuses in which a copy may still be executed. -/
def Status.isOpen : Status → Bool
  | .pending | .auto_pending | .notified => true
  | _ => false

/-- The statuses in which a copy has been spent, or may have been. -/
def Status.isTaken : Status → Bool
  | .executing | .copied | .outcome_unknown => true
  | _ => false

structure CopyTrade where
  originalSwapId : SwapId
  copierId : UserId
  followId : FollowId
  fromChain : String
  toChain : String
  traderAmountUsd : ℚ
  copyAmountUsd : ℚ
  status : Status
  createdAt : Time
  copiedAt : Option Time
deriving DecidableEq

/-- A swap of a trader. -/
structure Swap where
  id : SwapId
  fromChain : String
  toChain : String
  amountUsd : ℚ

/-- What a claim has put down, and the daily limit at that moment. -/
structure Claim where
  copyId : CopyId
  followId : FollowId
  amount : ℚ
  time : Time
  limit : ℚ
deriving DecidableEq

structure State where
  now : Time
  follows : List CopyFollow
  copies : List CopyTrade
  lockedFollows : List FollowId
  lockedCopies : List CopyId
  /-- the claims that are committed -/
  claims : List Claim
  /-- the calls of `execute_swap` -/
  swaps : List CopyId

/-! ### Budgets -/

def CopyFollow.getCopyAmount (f : CopyFollow) (traderAmountUsd : ℚ) : ℚ :=
  min (match f.copyType with
    | .fixed      => f.copyAmountUsd
    | .percentage => traderAmountUsd * (f.copyPercentage / 100)) f.maxTradeUsd

def CopyFollow.checkDailyLimit (f : CopyFollow) (now : Time) (amountUsd : ℚ) : Bool :=
  let today : Bool := ∃ reset ∈ f.lastDailyReset, dayStart now ≤ reset
  (if today then f.dailyCopiedUsd else 0) + amountUsd ≤ f.dailyLimitUsd

/-- No slippage, and 0, mean the default. -/
def CopyFollow.slippage (f : CopyFollow) : ℚ :=
  if f.maxSlippagePercent = 0 then 1 else f.maxSlippagePercent

def CopyFollow.allowsChains (f : CopyFollow) (fromChain toChain : String) : Bool :=
  f.chainsFilter = [] ∨ fromChain ∈ f.chainsFilter ∧ toChain ∈ f.chainsFilter

/-- The filters of `record_trade`. -/
def CopyFollow.wants (f : CopyFollow) (swap : Swap) (walletPnlPct : Option ℚ) : Bool :=
  f.allowsChains swap.fromChain swap.toChain ∧
    (∀ minimum ∈ f.minTradeUsd, minimum ≤ swap.amountUsd) ∧
    ∀ minimum ∈ f.minWalletPnlPct, ∀ pnl ∈ walletPnlPct, minimum ≤ pnl

/-- The copy takes a part of the budget of the day that starts then. -/
def CopyTrade.reserves (c : CopyTrade) (start : Time) : Bool :=
  match c.status with
  | .copied | .executing | .outcome_unknown => ∃ copiedAt ∈ c.copiedAt, start ≤ copiedAt
  | .pending | .auto_pending                => start ≤ c.createdAt
  | .notified | .skipped | .failed          => false

/-- What the other copies of a follow reserve. -/
def State.reservedUsd (s : State) (followId : FollowId) (other : CopyId → Bool) (start : Time) :
    ℚ :=
  ((s.copies.zipIdx.filter fun row =>
    row.1.followId = followId ∧ other row.2 ∧ row.1.reserves start).map fun row =>
      row.1.copyAmountUsd).sum

/-! ### Calls -/

inductive Call where
  | executeCopy (copierId : UserId) (id : CopyId)
  | skipCopy (copierId : UserId) (id : CopyId)
  | markNotified (copierId : UserId) (id : CopyId)
  | executePaperCopy (id : CopyId) (copyAmount : ℚ)
  | recordTrade (traderId : UserId) (swap : Swap) (walletPnlPct : Option ℚ)

/-- What `execute_copy` goes on with. -/
structure Order where
  id : CopyId
  copierId : UserId
  automatic : Bool
  slippage : ℚ
  /-- once there is a quote -/
  amount : ℚ

inductive Proc where
  | idle
  /-- `execute_copy` has read the copy -/
  | readFollow (copierId : UserId) (id : CopyId) (copy : CopyTrade)
  | readWallets (order : Order)
  /-- the tier and the price -/
  | authorize (order : Order)
  | getQuote (order : Order)
  | reauthorize (order : Order)
  | markFailed (id : CopyId)
  /-- the status that an unlocked session is about to write -/
  | write (id : CopyId) (status : Status)
  | writePaper (id : CopyId) (copyAmount : ℚ)
  /-- the session of `_claim_copy_for_execution` -/
  | lockCopy (order : Order)
  | lockFollow (order : Order) (copy : CopyTrade)
  | readWallet (order : Order) (copy : CopyTrade) (follow : CopyFollow)
  | readReserved (order : Order) (copy : CopyTrade) (follow : CopyFollow)
  | reject (id : CopyId) (follows : List FollowId)
  | claim (order : Order) (copy : CopyTrade) (follow : CopyFollow)
  | executeSwap (id : CopyId)
  | writeCopied (id : CopyId)
  /-- the handler of an exception -/
  | handle (id : CopyId) (claimed : Bool)
  | writeUnknown (id : CopyId)
  /-- the session of `record_trade` -/
  | lockFollows (traderId : UserId) (swap : Swap) (walletPnlPct : Option ℚ)
  | record (swap : Swap) (walletPnlPct : Option ℚ) (lockedFollows todo : List FollowId)
      (inserts : List CopyTrade)
  | readExisting (swap : Swap) (walletPnlPct : Option ℚ) (lockedFollows : List FollowId)
      (insert : CopyTrade) (todo : List FollowId) (inserts : List CopyTrade)

inductive Answer where
  | ok
  | calls (call : Call)
  /-- a check fails -/
  | refused
  | raises
  /-- a quote, and what its input is worth -/
  | quoted (notionalUsd : ℚ)

inductive Event where
  | elapse (duration : Time)
  | followTrader (follow : CopyFollow)
  /-- the user unfollows, follows again or changes a setting -/
  | updateFollow (id : FollowId) (follow : CopyFollow)

inductive Error where
  /-- the step waits for another answer -/
  | NotNext
  /-- another session holds the row -/
  | Locked
  | NotFound
deriving DecidableEq, Repr

/-! ### Reads and writes -/

/-- The copy, if it is the user's. -/
def State.copyOf (s : State) (copierId : UserId) (id : CopyId) : Option CopyTrade :=
  s.copies[id]?.filter fun c => c.copierId = copierId

def State.update (s : State) (id : CopyId) (f : CopyTrade → CopyTrade) : State :=
  { s with copies := s.copies.modify id f }

def State.release (s : State) (copies : List CopyId) (follows : List FollowId) : State :=
  { s with
      lockedCopies := s.lockedCopies.diff copies
      lockedFollows := s.lockedFollows.diff follows }

/-- A write waits for the row. -/
def State.write (s : State) (id : CopyId) (f : CopyTrade → CopyTrade) (p : Proc) :
    Except Error (State × Proc) :=
  if id ∈ s.lockedCopies then .error .Locked else .ok (s.update id f, p)

/-- The write of the claim, with its commit. -/
def State.claim (s : State) (order : Order) (copy : CopyTrade) (follow : CopyFollow) : State :=
  { (s.update order.id fun c => { c with
        copyAmountUsd := order.amount
        status := .executing
        copiedAt := some s.now }).release [order.id] [copy.followId] with
      claims := s.claims ++ [⟨order.id, copy.followId, order.amount, s.now, follow.dailyLimitUsd⟩] }

/-- The active follows of a trader. -/
def State.followers (s : State) (traderId : UserId) : List FollowId :=
  (s.follows.zipIdx.filter fun row => row.1.traderId = traderId ∧ row.1.isActive).map Prod.snd

/-- Whether the mode is still the one the copy was made for. -/
def Order.modeHolds (order : Order) (copy : CopyTrade) (follow : CopyFollow) : Bool :=
  if order.automatic then follow.copyMode = .auto ∧ copy.status = .auto_pending
  else follow.copyMode ≠ .auto ∧ copy.status = .notified

/-- The chains, the limit of one trade and the slippage. -/
def Order.withinSettings (order : Order) (copy : CopyTrade) (follow : CopyFollow) : Bool :=
  follow.allowsChains copy.fromChain copy.toChain ∧
    order.amount ≤ follow.getCopyAmount copy.traderAmountUsd + 1 / 10 ^ 9 ∧
    order.slippage ≤ follow.slippage + 1 / 10 ^ 9

/-- The signal that `record_trade` adds for a follow, if the budget allows it. -/
def State.signal (s : State) (swap : Swap) (walletPnlPct : Option ℚ) (id : FollowId) :
    Option CopyTrade :=
  match s.follows[id]? with
  | some follow =>
    let copyAmount := follow.getCopyAmount swap.amountUsd
    let affordable : Bool := match follow.copyMode with
      | .auto => s.reservedUsd id (fun _ => true) (dayStart s.now) + copyAmount ≤
        follow.dailyLimitUsd
      | .notify | .paper => follow.checkDailyLimit s.now copyAmount
    if follow.wants swap walletPnlPct ∧ affordable then
      some {
        originalSwapId := swap.id
        copierId := follow.followerId
        followId := id
        fromChain := swap.fromChain
        toChain := swap.toChain
        traderAmountUsd := swap.amountUsd
        copyAmountUsd := copyAmount
        status := if follow.copyMode = .auto then .auto_pending else .pending
        createdAt := s.now
        copiedAt := none }
    else none
  | none => none

/-- The first step of a call. -/
def call (s : State) : Call → Proc
  | .executeCopy copierId id =>
    match s.copyOf copierId id with
    | some copy => if copy.status.isOpen then .readFollow copierId id copy else .idle
    | none      => .idle
  | .skipCopy copierId id =>
    match s.copyOf copierId id with
    | some copy => if copy.status ∈ [.pending, .notified] then .write id .skipped else .idle
    | none      => .idle
  | .markNotified copierId id =>
    match s.copyOf copierId id with
    | some copy => if copy.status = .pending then .write id .notified else .idle
    | none      => .idle
  | .executePaperCopy id copyAmount =>
    match s.copies[id]? with
    | some copy => if copy.status ∈ [.pending, .notified] then .writePaper id copyAmount else .idle
    | none      => .idle
  | .recordTrade traderId swap walletPnlPct =>
    -- without a price of the trade there are no signals
    if swap.amountUsd ≤ 0 then .idle else .lockFollows traderId swap walletPnlPct

def step (s : State) : Proc → Answer → Except Error (State × Proc)
  | .idle, .calls c                    => .ok (s, call s c)
  | .readFollow copierId id copy, .ok  =>
    .ok (s, match s.follows[copy.followId]? with
      | some follow =>
        if follow.isActive ∧ copy.status ≠ .pending then
          .readWallets ⟨id, copierId, copy.status = .auto_pending, follow.slippage, 0⟩
        else .write id .failed
      | none => .write id .failed)
  | .readWallets order, .ok            => .ok (s, .authorize order)
  | .readWallets order, .refused       => .ok (s, .write order.id .failed)
  | .authorize order, .ok              => .ok (s, .getQuote order)
  | .authorize order, .refused         => .ok (s, .markFailed order.id)
  | .authorize _, .raises              => .ok (s, .idle)
  | .getQuote order, .quoted notional  =>
    .ok (s, if notional ≤ 0 then .markFailed order.id
      else if order.automatic then .reauthorize { order with amount := notional }
      else .lockCopy { order with amount := notional })
  | .getQuote order, .refused          => .ok (s, .markFailed order.id)
  | .getQuote order, .raises           => .ok (s, .handle order.id false)
  | .reauthorize order, .ok            => .ok (s, .lockCopy order)
  | .reauthorize order, .refused       => .ok (s, .markFailed order.id)
  | .reauthorize order, .raises        => .ok (s, .handle order.id false)
  -- `_mark_copy_failed`
  | .markFailed id, .ok                =>
    .ok (s, if ∃ copy ∈ s.copies[id]?, copy.status.isOpen then .write id .failed else .idle)
  | .write id status, .ok              => s.write id (fun c => { c with status := status }) .idle
  | .writePaper id copyAmount, .ok     =>
    s.write id (fun c => { c with
      status := .copied
      copiedAt := some s.now
      copyAmountUsd := copyAmount }) .idle
  -- the claim
  | .lockCopy order, .ok               =>
    if order.id ∈ s.lockedCopies then .error .Locked
    else .ok (match s.copyOf order.copierId order.id with
      | some copy =>
        if copy.status.isOpen then
          ({ s with lockedCopies := order.id :: s.lockedCopies }, .lockFollow order copy)
        else (s, .idle)
      | none => (s, .idle))
  | .lockCopy order, .raises           => .ok (s, .handle order.id false)
  | .lockFollow order copy, .ok        =>
    if copy.followId ∈ s.lockedFollows then .error .Locked
    else .ok (match s.follows[copy.followId]? with
      | some follow =>
        ({ s with lockedFollows := copy.followId :: s.lockedFollows },
          if follow.isActive ∧ order.modeHolds copy follow then .readWallet order copy follow
          else .reject order.id [copy.followId])
      | none => (s, .reject order.id []))
  | .readWallet order copy follow, .ok =>
    .ok (s, if order.withinSettings copy follow then .readReserved order copy follow
      else .reject order.id [copy.followId])
  | .readWallet order copy _, .refused => .ok (s, .reject order.id [copy.followId])
  | .readReserved order copy follow, .ok =>
    let reserved := s.reservedUsd copy.followId (fun id => id ≠ order.id) (dayStart s.now)
    .ok (s, if follow.dailyLimitUsd < reserved + order.amount then .reject order.id [copy.followId]
      else .claim order copy follow)
  | .reject id follows, .ok            =>
    .ok ((s.update id fun c => { c with status := .failed }).release [id] follows, .idle)
  | .claim order copy follow, .ok      =>
    .ok (s.claim order copy follow, .executeSwap order.id)
  -- the outcome
  | .executeSwap id, .ok               =>
    .ok ({ s with swaps := s.swaps ++ [id] }, .writeCopied id)
  | .executeSwap id, .raises           =>
    .ok ({ s with swaps := s.swaps ++ [id] }, .handle id true)
  | .writeCopied id, .ok               =>
    s.write id (fun c => { c with status := .copied, copiedAt := some s.now }) .idle
  | .writeCopied id, .raises           => .ok (s, .handle id true)
  | .handle id claimed, .ok            =>
    .ok (s, match s.copies[id]? with
      | some copy =>
        if claimed then if copy.status = .executing then .writeUnknown id else .idle
        else .write id .failed
      | none => .idle)
  | .writeUnknown id, .ok              =>
    s.write id (fun c => { c with status := .outcome_unknown }) .idle
  -- `record_trade`
  | .lockFollows traderId swap walletPnlPct, .ok =>
    let followers := s.followers traderId
    if ∃ id ∈ followers, id ∈ s.lockedFollows then .error .Locked
    else .ok ({ s with lockedFollows := followers ++ s.lockedFollows },
      .record swap walletPnlPct followers followers [])
  | .record swap walletPnlPct locked (id :: todo) inserts, .ok =>
    .ok (s, match s.signal swap walletPnlPct id with
      | some insert => .readExisting swap walletPnlPct locked insert todo inserts
      | none        => .record swap walletPnlPct locked todo inserts)
  | .readExisting swap walletPnlPct locked insert todo inserts, .ok =>
    .ok (s, .record swap walletPnlPct locked todo
      (if ∃ c ∈ s.copies, c.originalSwapId = swap.id ∧ c.followId = insert.followId ∧
        c.copierId = insert.copierId then inserts
      else inserts ++ [{ insert with createdAt := s.now }]))
  | .record _ _ locked [] inserts, .ok =>
    .ok ({ s with copies := s.copies ++ inserts }.release [] locked, .idle)
  | _, _ => .error .NotNext

def environment (s : State) : Event → Except Error State
  | .elapse duration        => .ok { s with now := s.now + duration }
  | .followTrader follow    => .ok { s with follows := s.follows ++ [follow] }
  | .updateFollow id follow =>
    if id ∈ s.lockedFollows then .error .Locked
    else if id < s.follows.length then .ok { s with follows := s.follows.set id follow }
    else .error .NotFound

def program : Program State Proc Answer Event Error := ⟨step, environment⟩

def initial (n : ℕ) (now : Time) : Program.Config State Proc n :=
  ⟨⟨now, [], [], [], [], [], []⟩, fun _ => .idle⟩

end Suwappu.CopyService
