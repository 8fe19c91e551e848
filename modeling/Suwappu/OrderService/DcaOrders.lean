import Suwappu.OrderService.LimitOrders

/-!
# DCA orders

The loop of the order service checks which orders are due and buys one installment of each, with
copies of the rows that it has read; the users pause, resume and cancel their orders meanwhile.
`execute_swap` starts at most one execution for an idempotency key, and may return a submitted swap,
raise without broadcasting, or broadcast and then raise.

Times are in seconds. Amounts are raw; where one is no integer the write of the statistics raises.
-/

namespace Suwappu.OrderService.Dca

inductive DcaStatus where
  | ACTIVE | PAUSED | COMPLETED | CANCELLED
deriving DecidableEq, Repr

structure DcaOrder where
  userId : UserId
  status : DcaStatus
  amountPerExecution : ℕ
  intervalHours : ℕ
  nextExecutionAt : Time
  maxExecutions : Option ℕ
  executionsCompleted : ℕ
  totalSpent : ℕ
  endsAt : Option Time
deriving DecidableEq, Repr

/-- A row and its copy of the check. -/
structure Due where
  id : OrderId
  order : DcaOrder

/-- `dca:{order.id}:{order.executions_completed}:{hour}` -/
structure IdempotencyKey where
  orderId : OrderId
  executionsCompleted : ℕ
  hour : ℕ
deriving DecidableEq, Repr

/-- What happens to an order. -/
inductive Event where
  /-- `execute_swap` is called -/
  | started
  | broadcast (time : Time)
  | paused
  | resumed
  | cancelled
deriving DecidableEq, Repr

inductive Stage where
  | idle
  /-- the wallet of the first order -/
  | getWallet (orders : List Due)
  | getQuote (order : Due) (orders : List Due)
  | executeSwap (key : IdempotencyKey) (order : Due) (orders : List Due)
  | writeStats (order : Due) (orders : List Due)

structure State where
  now : Time
  orders : List DcaOrder
  stage : Stage
  /-- the keys under which `execute_swap` has broadcast -/
  keys : List IdempotencyKey
  history : OrderId → List Event

inductive Answer where
  | ok
  | raises
  | wallet (found : Bool)
  /-- `execute_swap` returns, and says that the swap is submitted or completed -/
  | returned (submitted : Bool)
  /-- `execute_swap` raises after it has broadcast -/
  | broadcastRaises

inductive Action where
  | createDcaOrder (userId : UserId) (amountPerExecution intervalHours : ℕ)
      (maxExecutions endsInDays : Option ℕ)
  | pauseDca (id : OrderId) (userId : UserId)
  | resumeDca (id : OrderId) (userId : UserId)
  | cancelDca (id : OrderId) (userId : UserId)
  | checkDcaOrders
  | take (answer : Answer)
  | elapse (duration : Time)

inductive Error where
  /-- the step waits for another answer, or no iteration is running, or one is -/
  | NotNext
  /-- the call of the user returns False -/
  | NotFound
deriving DecidableEq, Repr

def State.record (s : State) (id : OrderId) (event : Event) : State :=
  { s with history := Function.update s.history id (s.history id ++ [event]) }

/-! ### Sessions -/

def hour : Time := 3600

def day : Time := 24 * hour

def State.createDcaOrder (s : State) (userId : UserId) (amountPerExecution intervalHours : ℕ)
    (maxExecutions endsInDays : Option ℕ) : State :=
  { s with orders := s.orders ++ [{
      userId := userId
      status := .ACTIVE
      amountPerExecution := amountPerExecution
      intervalHours := intervalHours
      nextExecutionAt := s.now
      maxExecutions := maxExecutions
      executionsCompleted := 0
      totalSpent := 0
      endsAt := (endsInDays.filter (0 < ·)).map fun days => s.now + days * day }] }

/-- A session of the user that finds the order in one of the statuses. -/
def State.userSession (s : State) (id : OrderId) (userId : UserId) (statuses : List DcaStatus)
    (update : DcaOrder → DcaOrder) (event : Event) : Except Error State :=
  match s.orders[id]? with
  | some order =>
    if order.userId = userId ∧ order.status ∈ statuses then
      .ok { s.record id event with orders := s.orders.modify id update }
    else .error .NotFound
  | none => .error .NotFound

def State.pauseDca (s : State) (id : OrderId) (userId : UserId) : Except Error State :=
  s.userSession id userId [.ACTIVE] (fun o => { o with status := .PAUSED }) .paused

def State.resumeDca (s : State) (id : OrderId) (userId : UserId) : Except Error State :=
  s.userSession id userId [.PAUSED]
    (fun o => { o with status := .ACTIVE, nextExecutionAt := s.now }) .resumed

def State.cancelDca (s : State) (id : OrderId) (userId : UserId) : Except Error State :=
  s.userSession id userId [.ACTIVE, .PAUSED] (fun o => { o with status := .CANCELLED })
    .cancelled

/-- Active, and its time has come. -/
def DcaOrder.listed (o : DcaOrder) (now : Time) : Bool :=
  o.status = .ACTIVE ∧ o.nextExecutionAt ≤ now

/-- Past its end, or all its executions are done; no maximum, and 0, mean that there is none. -/
def DcaOrder.ended (o : DcaOrder) (now : Time) : Bool :=
  (∃ endsAt ∈ o.endsAt, endsAt < now) ∨
    ∃ maximum ∈ o.maxExecutions, maximum ≠ 0 ∧ maximum ≤ o.executionsCompleted

/-- `check_dca_orders`, what it returns -/
def State.due (s : State) : List Due :=
  (s.orders.zipIdx.filter fun row => row.1.listed s.now ∧ ¬ row.1.ended s.now).map fun row =>
    ⟨row.2, row.1⟩

/-- `check_dca_orders`, what it writes -/
def State.complete (s : State) : State :=
  { s with orders := s.orders.map fun o =>
      if o.listed s.now ∧ o.ended s.now then { o with status := .COMPLETED } else o }

/-- The session that follows a submitted swap. -/
def State.writeStats (s : State) (d : Due) : State :=
  { s with orders := s.orders.modify d.id fun o =>
      { o with
          executionsCompleted := o.executionsCompleted + 1
          totalSpent := o.totalSpent + d.order.amountPerExecution
          nextExecutionAt := s.now + o.intervalHours * hour } }

/-! ### The loop -/

def State.idempotencyKey (s : State) (d : Due) : IdempotencyKey :=
  ⟨d.id, d.order.executionsCompleted, s.now / hour⟩

def State.broadcast (s : State) (key : IdempotencyKey) (d : Due) : State :=
  { s.record d.id (.broadcast s.now) with keys := key :: s.keys }

/-- The next step of an iteration, and the state after it. -/
def advance (s : State) : Stage → Answer → Except Error (State × Stage)
  | .getWallet [], .ok             => .ok (s, .idle)
  | .getWallet (d :: orders), .wallet found =>
    .ok (s, if found then .getQuote d orders else .getWallet orders)
  | .getWallet (_ :: orders), .raises => .ok (s, .getWallet orders)
  | .getQuote d orders, .ok        =>
    .ok (s.record d.id .started, .executeSwap (s.idempotencyKey d) d orders)
  | .getQuote _ orders, .raises    => .ok (s, .getWallet orders)
  | .executeSwap key d orders, .returned submitted =>
    -- under a key that is known the record of the other call is returned
    .ok (if submitted ∧ key ∉ s.keys then s.broadcast key d else s,
      if submitted then .writeStats d orders else .getWallet orders)
  | .executeSwap _ _ orders, .raises => .ok (s, .getWallet orders)
  | .executeSwap key d orders, .broadcastRaises =>
    if key ∈ s.keys then .error .NotNext else .ok (s.broadcast key d, .getWallet orders)
  | .writeStats d orders, .ok      => .ok (s.writeStats d, .getWallet orders)
  | .writeStats _ orders, .raises  => .ok (s, .getWallet orders)
  | _, _ => .error .NotNext

def step (s : State) : Action → Except Error State
  | .createDcaOrder userId amountPerExecution intervalHours maxExecutions endsInDays =>
    .ok (s.createDcaOrder userId amountPerExecution intervalHours maxExecutions endsInDays)
  | .pauseDca id userId  => s.pauseDca id userId
  | .resumeDca id userId => s.resumeDca id userId
  | .cancelDca id userId => s.cancelDca id userId
  | .checkDcaOrders      =>
    match s.stage with
    | .idle => .ok { s.complete with stage := .getWallet s.due }
    | _     => .error .NotNext
  | .take answer         => (advance s s.stage answer).map fun r => { r.1 with stage := r.2 }
  | .elapse duration     => .ok { s with now := s.now + duration }

def machine : Machine State Action Error := ⟨step⟩

def initial (now : Time) : State := ⟨now, [], .idle, [], fun _ => []⟩

end Suwappu.OrderService.Dca
