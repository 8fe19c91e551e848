import Suwappu.Lib.Machine

/-!
# Limit orders

The users cancel their limit orders while the loop of the order service reads the pending ones,
waits for their prices, marks what is triggered and executes it order by order. Every session of
the database and every call to the outside is a step; a crash ends an iteration.

Floating-point numbers are taken as exact. Rows are known by their position. Of an order the chains,
the amount and the slippage are left out, which only the quote reads.
-/

namespace Suwappu.OrderService

abbrev UserId := ℕ

abbrev OrderId := ℕ

abbrev Time := ℕ

inductive OrderType where
  | LIMIT_BUY | LIMIT_SELL | STOP_LOSS | TAKE_PROFIT | TRAILING_STOP
deriving DecidableEq, Repr

inductive OrderStatus where
  | PENDING | TRIGGERED | EXECUTED | CANCELLED | EXPIRED | FAILED
deriving DecidableEq, Repr

def OrderStatus.terminal : OrderStatus → Bool
  | .PENDING | .TRIGGERED => false
  | .EXECUTED | .CANCELLED | .EXPIRED | .FAILED => true

structure LimitOrder where
  userId : UserId
  orderType : OrderType
  fromToken : String
  toToken : String
  triggerPrice : ℚ
  trailingPercent : Option ℚ
  expiresAt : Option Time
  status : OrderStatus
  highestPriceSeen : Option ℚ
  executionPrice : Option ℚ
deriving DecidableEq

/-- The fields of a pending order that are read for the prices. -/
structure OrderData where
  id : OrderId
  orderType : OrderType
  fromToken : String
  toToken : String
  triggerPrice : ℚ
  trailingPercent : Option ℚ
  highestPriceSeen : Option ℚ
deriving DecidableEq

/-- `prices.get(token, 0)` -/
abbrev Prices := String → ℚ

inductive Stage where
  | idle
  | fetchPrices (orders : List OrderData)
  | markTriggered (triggered : List (OrderId × ℚ)) (peaks : List (OrderId × ℚ))
  /-- the wallet of the first order -/
  | getWallet (orders : List OrderId)
  | getQuote (id : OrderId) (orders : List OrderId)
  | executeSwap (id : OrderId) (orders : List OrderId)
  | markExecuted (id : OrderId) (orders : List OrderId)
  | markFailed (id : OrderId) (orders : List OrderId)

structure State where
  now : Time
  orders : List LimitOrder
  stage : Stage
  /-- the calls of `execute_swap` -/
  swaps : List OrderId
  /-- the terminal statuses that sessions have written -/
  closed : List (OrderId × OrderStatus)
  /-- the orders of iterations that have crashed -/
  crashed : List OrderId

inductive Answer where
  | ok
  | raises
  | timeout
  | prices (prices : Prices)
  | wallet (found : Bool)
  /-- the call returns, and says that the swap is submitted or completed -/
  | swapped (submitted : Bool)

inductive Action where
  | createLimitOrder (order : LimitOrder)
  | cancelOrder (id : OrderId) (userId : UserId)
  | checkLimitOrders
  | take (answer : Answer)
  | crash
  | elapse (duration : Time)

inductive Error where
  /-- the step waits for another answer, or no iteration is running, or one is -/
  | NotNext
  /-- `cancel_order` returns False -/
  | NotCancelled
deriving DecidableEq, Repr

/-! ### Triggers -/

def OrderData.price (od : OrderData) (prices : Prices) : ℚ :=
  match od.orderType with
  | .LIMIT_BUY => prices od.toToken
  | _          => prices od.fromToken

/-- The peak of a trailing stop with a price and a percentage. -/
def OrderData.newPeak (od : OrderData) (prices : Prices) : Option ℚ :=
  match od.orderType with
  | .TRAILING_STOP =>
    if od.price prices ≤ 0 ∨ od.trailingPercent.getD 0 ≤ 0 then none
    else some (od.highestPriceSeen.elim (od.price prices) (max (od.price prices)))
  | _ => none

def OrderData.shouldTrigger (od : OrderData) (prices : Prices) : Bool :=
  match od.orderType with
  | .LIMIT_BUY | .STOP_LOSS    => od.price prices ≤ od.triggerPrice
  | .LIMIT_SELL | .TAKE_PROFIT => od.triggerPrice ≤ od.price prices
  | .TRAILING_STOP => ∃ peak ∈ od.newPeak prices,
    od.price prices ≤ peak * (1 - od.trailingPercent.getD 0 / 100)

def triggered (orders : List OrderData) (prices : Prices) : List (OrderId × ℚ) :=
  (orders.filter fun od => od.shouldTrigger prices ∧ 0 < od.price prices).map fun od =>
    (od.id, od.price prices)

def trailingPeakUpdates (orders : List OrderData) (prices : Prices) : List (OrderId × ℚ) :=
  orders.filterMap fun od => (od.newPeak prices).map fun peak => (od.id, peak)

/-! ### Sessions -/

def State.setStatus (s : State) (id : OrderId) (status : OrderStatus) : State :=
  { s with
      orders := s.orders.modify id fun o => { o with status := status }
      closed := s.closed ++ [(id, status)] }

/-- Past its expiry. -/
def LimitOrder.expires (o : LimitOrder) (now : Time) : Bool :=
  o.status = .PENDING ∧ ∃ expiresAt ∈ o.expiresAt, expiresAt < now

def LimitOrder.data (o : LimitOrder) (id : OrderId) : OrderData :=
  ⟨id, o.orderType, o.fromToken, o.toToken, o.triggerPrice, o.trailingPercent, o.highestPriceSeen⟩

/-- `_fetch_pending`, what it returns -/
def State.pending (s : State) : List OrderData :=
  (s.orders.zipIdx.filter fun row => row.1.status = .PENDING ∧ ¬ row.1.expires s.now).map fun row =>
    row.1.data row.2

/-- `_fetch_pending`, what it writes -/
def State.markExpired (s : State) : State :=
  { s with
      orders := s.orders.map fun o => if o.expires s.now then { o with status := .EXPIRED } else o
      closed := s.closed ++ (s.orders.zipIdx.filter fun row => row.1.expires s.now).map fun row =>
        (row.2, .EXPIRED) }

/-- `_mark_triggered` -/
def State.markTriggered (s : State) (triggered peaks : List (OrderId × ℚ)) : State :=
  { s with orders := s.orders.mapIdx fun id o =>
      let seen := { o with highestPriceSeen := (peaks.lookup id).or o.highestPriceSeen }
      match triggered.lookup id with
      | some price => { seen with status := .TRIGGERED, executionPrice := some price }
      | none       => seen }

/-! ### The loop -/

/-- The orders that an iteration has marked and not finished. -/
def Stage.todo : Stage → List OrderId
  | .getWallet orders => orders
  | .getQuote id orders | .executeSwap id orders | .markExecuted id orders
  | .markFailed id orders => id :: orders
  | .idle | .fetchPrices _ | .markTriggered _ _ => []

/-- The next step of an iteration, and the state after it. -/
def advance (s : State) : Stage → Answer → Except Error (State × Stage)
  | .fetchPrices [], .ok                => .ok (s, .idle)
  | .fetchPrices _, .timeout            => .ok (s, .idle)
  | .fetchPrices _, .raises             => .ok (s, .idle)
  | .fetchPrices (od :: orders), .prices prices =>
    let triggered := triggered (od :: orders) prices
    let peaks := trailingPeakUpdates (od :: orders) prices
    if triggered = [] ∧ peaks = [] then .ok (s, .idle)
    else .ok (s, .markTriggered triggered peaks)
  | .markTriggered triggered peaks, .ok =>
    .ok (s.markTriggered triggered peaks, .getWallet (triggered.map Prod.fst))
  | .markTriggered _ _, .raises         => .ok (s, .idle)
  | .getWallet [], .ok                  => .ok (s, .idle)
  | .getWallet (id :: orders), .wallet found =>
    .ok (s, if found then .getQuote id orders else .getWallet orders)
  | .getWallet (id :: orders), .raises  => .ok (s, .markFailed id orders)
  | .getQuote id orders, .ok            => .ok (s, .executeSwap id orders)
  | .getQuote id orders, .raises        => .ok (s, .markFailed id orders)
  | .executeSwap id orders, .swapped submitted =>
    .ok ({ s with swaps := s.swaps ++ [id] },
      if submitted then .markExecuted id orders else .getWallet orders)
  | .executeSwap id orders, .raises     =>
    .ok ({ s with swaps := s.swaps ++ [id] }, .markFailed id orders)
  | .markExecuted id orders, .ok        => .ok (s.setStatus id .EXECUTED, .getWallet orders)
  | .markExecuted id orders, .raises    => .ok (s, .markFailed id orders)
  | .markFailed id orders, .ok          => .ok (s.setStatus id .FAILED, .getWallet orders)
  | .markFailed _ orders, .raises       => .ok (s, .getWallet orders)
  | _, _ => .error .NotNext

def step (s : State) : Action → Except Error State
  | .createLimitOrder order =>
    .ok { s with orders := s.orders ++ [{ order with
      status := .PENDING
      highestPriceSeen := none
      executionPrice := none }] }
  | .cancelOrder id userId =>
    match s.orders[id]? with
    | some order =>
      if order.userId = userId ∧ order.status = .PENDING then .ok (s.setStatus id .CANCELLED)
      else .error .NotCancelled
    | none => .error .NotCancelled
  | .checkLimitOrders =>
    match s.stage with
    | .idle => .ok { s.markExpired with stage := .fetchPrices s.pending }
    | _     => .error .NotNext
  | .take answer     => (advance s s.stage answer).map fun r => { r.1 with stage := r.2 }
  | .crash           => .ok { s with stage := .idle, crashed := s.crashed ++ s.stage.todo }
  | .elapse duration => .ok { s with now := s.now + duration }

def machine : Machine State Action Error := ⟨step⟩

def initial (now : Time) : State := ⟨now, [], .idle, [], [], []⟩

end Suwappu.OrderService
