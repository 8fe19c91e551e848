import Suwappu.Lib.Processes

/-!
# Custodial withdrawals

Any number of requests of `terminal_wallet_withdraw` and of passes of the withdraw reconciler. Every
transaction is a step, and so is the broadcast; before each of them a call may crash, and each may
fail, or be committed and not be answered. A broadcast that fails may have reached the network.

A transaction of the chain is known by the withdrawal that signed it. What two moves of one balance
do to each other is left to the custodial balance; here each of them is one step.
-/

namespace Suwappu.HotWallet.Withdrawals

abbrev WithdrawalId := ℕ

/-- A user's balance of a token on a chain. -/
structure Account where
  userId : ℕ
  chain : ℕ
  tokenSymbol : ℕ
deriving DecidableEq

abbrev IdempotencyKey := ℕ

/-- Seconds. -/
abbrev Time := ℕ

def stale_after : Time := 3 * 60

def never_broadcast_after : Time := 30 * 60

inductive TransactionStatus where
  | PENDING | COMPLETED | FAILED
deriving DecidableEq, Repr

/-- A row of `custodial_transactions`. The hash, if there is one, is that of the transaction the
withdrawal has signed. -/
structure Row where
  status : TransactionStatus
  hasHash : Bool
deriving DecidableEq

/-- What became of the transaction of a withdrawal. -/
inductive Fate where
  | unsent | inFlight | landed | reverted
  /-- it can never be mined, say, as another one has its nonce -/
  | dropped
deriving DecidableEq, Repr

structure Withdrawal where
  account : Account
  idempotencyKey : IdempotencyKey
  amount : ℚ
  createdAt : Time
  /-- `none` once it is released -/
  row : Option Row
  fate : Fate
  /-- how often the amount was debited, and how often credited back -/
  debits : ℕ
  refunds : ℕ
deriving DecidableEq

structure State where
  now : Time
  balances : Account → ℚ
  withdrawals : List Withdrawal

/-- A request whose amount is cut to the digits of its token. -/
structure Request where
  account : Account
  idempotencyKey : IdempotencyKey
  amount : ℚ
deriving DecidableEq

/-- What the reconciler reads of a row. -/
structure Snapshot where
  id : WithdrawalId
  hasHash : Bool
  createdAt : Time
deriving DecidableEq

inductive Proc where
  | claim (request : Request)
  | reserve (id : WithdrawalId)
  /-- the switch, the screening, the gas and the signature -/
  | send (id : WithdrawalId)
  | stamp (id : WithdrawalId)
  | broadcast (id : WithdrawalId)
  | finalize (id : WithdrawalId)
  | recordHash (id : WithdrawalId)
  | refund (id : WithdrawalId)
  | release (id : WithdrawalId)
  | select
  | resolve (rows : List Snapshot)
  | complete (row : Snapshot) (rows : List Snapshot)
  | fail (row : Snapshot) (rows : List Snapshot)
  | credit (row : Snapshot) (rows : List Snapshot)
  | returned
deriving DecidableEq

inductive Answer where
  | ok
  | fails
  /-- committed, and the connection lost -/
  | lost
  /-- the balance was changed by others at every attempt -/
  | contended
  | accepted
  /-- the broadcast failed, and the network has the transaction or has not -/
  | ambiguous (propagated : Bool)
  /-- the node does not know -/
  | unknown
  /-- a receipt, or a confirmation status, of a transaction that may still turn out otherwise -/
  | unfinalised (succeeded : Bool)
  | crash
deriving DecidableEq

inductive Error where
  /-- the step waits for another answer, or the call is over -/
  | NotNext
deriving DecidableEq, Repr

/-! ### Writes -/

def State.update (s : State) (id : WithdrawalId) (f : Withdrawal → Withdrawal) : State :=
  { s with withdrawals := s.withdrawals.modify id f }

def Withdrawal.setRow (w : Withdrawal) (f : Row → Row) : Withdrawal :=
  { w with row := w.row.map f }

/-- The unique index on user and key. -/
def State.claimed (s : State) (request : Request) : Prop :=
  ∃ w ∈ s.withdrawals, w.row ≠ none ∧ w.account.userId = request.account.userId ∧
    w.idempotencyKey = request.idempotencyKey

instance State.decidableClaimed (s : State) (request : Request) :
    Decidable (s.claimed request) := by
  unfold State.claimed
  infer_instance

/-- `claim_idempotency_key` -/
def State.claim (s : State) (request : Request) : State :=
  { s with withdrawals := s.withdrawals ++ [⟨request.account, request.idempotencyKey,
    request.amount, s.now, some ⟨.PENDING, false⟩, .unsent, 0, 0⟩] }

/-- The debit of `reserve_custodial_balance`, and its counterpart. -/
def State.debit (s : State) (id : WithdrawalId) (w : Withdrawal) : State :=
  { s.update id fun w => { w with debits := w.debits + 1 } with
    balances := Function.update s.balances w.account (s.balances w.account - w.amount) }

def State.refund (s : State) (id : WithdrawalId) (w : Withdrawal) : State :=
  { s.update id fun w => { w with refunds := w.refunds + 1 } with
    balances := Function.update s.balances w.account (s.balances w.account + w.amount) }

/-- `stamp_pending_tx_hash` -/
def State.stamp (s : State) (id : WithdrawalId) : State :=
  s.update id fun w => w.setRow fun row => { row with hasHash := true }

/-- `record_pending_tx_hash` -/
def State.recordHash (s : State) (id : WithdrawalId) : State :=
  s.update id fun w => w.setRow fun row =>
    if row.status = .PENDING then { row with hasHash := true } else row

/-- `finalize_claimed_transaction`, whatever the status is -/
def State.finalize (s : State) (id : WithdrawalId) : State :=
  s.update id fun w => w.setRow fun _ => ⟨.COMPLETED, true⟩

/-- `release_claimed_transaction` -/
def State.release (s : State) (id : WithdrawalId) : State :=
  s.update id fun w => { w with row := none }

/-- The network has the transaction. -/
def State.propagate (s : State) (id : WithdrawalId) : State :=
  s.update id fun w => { w with fate := .inFlight }

def State.pending (s : State) (id : WithdrawalId) : Prop :=
  ∃ w ∈ s.withdrawals[id]?, ∃ row ∈ w.row, row.status = .PENDING

instance State.decidablePending (s : State) (id : WithdrawalId) : Decidable (s.pending id) := by
  unfold State.pending
  infer_instance

/-- `cas_transaction_status`, from PENDING -/
def State.cas (s : State) (id : WithdrawalId) (new_status : TransactionStatus) (hash : Bool) :
    State :=
  s.update id fun w => w.setRow fun row =>
    if row.status = .PENDING then ⟨new_status, row.hasHash || hash⟩ else row

/-- The rows that a pass of the reconciler reads. -/
def State.candidates (s : State) : List Snapshot :=
  s.withdrawals.zipIdx.filterMap fun entry => do
    let row ← entry.1.row
    if row.status = .PENDING ∧ entry.1.createdAt + stale_after < s.now then
      some ⟨entry.2, row.hasHash, entry.1.createdAt⟩
    else none

/-! ### The calls -/

/-- A request of `terminal_wallet_withdraw`. -/
def withdraw (s : State) : Proc → Answer → Except Error (State × Proc)
  | .claim request, answer =>
    if request.amount ≤ 0 then .ok (s, .returned)
    else match answer with
      | .ok    =>
        if s.claimed request then .ok (s, .returned)
        else .ok (s.claim request, .reserve s.withdrawals.length)
      | .lost  =>
        if s.claimed request then .ok (s, .returned) else .ok (s.claim request, .returned)
      | .fails => .ok (s, .returned)
      | _      => .error .NotNext
  | .reserve id, answer =>
    match s.withdrawals[id]?, answer with
    | some w, .ok   =>
      if s.balances w.account < w.amount then .ok (s, .release id) else .ok (s.debit id w, .send id)
    | some w, .lost =>
      if s.balances w.account < w.amount then .ok (s, .returned) else .ok (s.debit id w, .returned)
    | _, .contended => .ok (s, .release id)
    | _, .fails     => .ok (s, .returned)
    | _, _          => .error .NotNext
  | .send id, .ok             => .ok (s, .stamp id)
  | .send id, .fails          => .ok (s, .refund id)
  | .stamp id, .ok            => .ok (s.stamp id, .broadcast id)
  | .stamp id, .lost          => .ok (s.stamp id, .refund id)
  | .stamp id, .fails         => .ok (s, .refund id)
  | .broadcast id, .accepted  => .ok (s.propagate id, .finalize id)
  | .broadcast id, .ambiguous propagated =>
    .ok (if propagated then s.propagate id else s, .recordHash id)
  | .finalize id, .ok         => .ok (s.finalize id, .returned)
  | .finalize id, .lost       => .ok (s.finalize id, .returned)
  | .finalize _, .fails       => .ok (s, .returned)
  | .recordHash id, .ok       => .ok (s.recordHash id, .returned)
  | .recordHash id, .lost     => .ok (s.recordHash id, .returned)
  | .recordHash _, .fails     => .ok (s, .returned)
  | .refund id, answer        =>
    match s.withdrawals[id]?, answer with
    | some w, .ok   => .ok (s.refund id w, .release id)
    | some w, .lost => .ok (s.refund id w, .returned)
    | _, .fails     => .ok (s, .returned)
    | _, _          => .error .NotNext
  | .release id, .ok          => .ok (s.release id, .returned)
  | .release id, .lost        => .ok (s.release id, .returned)
  | .release _, .fails        => .ok (s, .returned)
  | _, _                      => .error .NotNext

/-- What the chain says of a transaction in the end. -/
def State.chainStatus (s : State) (id : WithdrawalId) : Option Bool :=
  (s.withdrawals[id]?).bind fun w =>
    match w.fate with
    | .landed   => some true
    | .reverted => some false
    | _         => none

/-- The network has, or has had, the transaction. -/
def State.sent (s : State) (id : WithdrawalId) : Prop :=
  ∃ w ∈ s.withdrawals[id]?, w.fate ≠ .unsent

instance State.decidableSent (s : State) (id : WithdrawalId) : Decidable (s.sent id) := by
  unfold State.sent
  infer_instance

/-- A pass of the reconciler. A receipt or a confirmation status counts, final or not. What
goes wrong with one row does not keep it from the others. -/
def reconcile (s : State) : Proc → Answer → Except Error (State × Proc)
  | .select, .ok              => .ok (s, .resolve s.candidates)
  | .select, .fails           => .ok (s, .returned)
  | .resolve [], .ok          => .ok (s, .returned)
  | .resolve (row :: rows), answer =>
    if row.hasHash = true then
      match s.chainStatus row.id, answer with
      | some true, .ok  => .ok (s, .complete row rows)
      | some false, .ok => .ok (s, .fail row rows)
      | none, .ok       => .ok (s, .resolve rows)
      | _, .unknown     => .ok (s, .resolve rows)
      | _, .unfinalised succeeded =>
        if s.sent row.id then .ok (s, if succeeded then .complete row rows else .fail row rows)
        else .error .NotNext
      | _, _ => .error .NotNext
    else if row.createdAt + never_broadcast_after ≤ s.now then .ok (s, .fail row rows)
    else .ok (s, .resolve rows)
  | .complete row rows, .ok   => .ok (s.cas row.id .COMPLETED true, .resolve rows)
  | .complete row rows, .lost => .ok (s.cas row.id .COMPLETED true, .resolve rows)
  | .complete _ rows, .fails  => .ok (s, .resolve rows)
  | .fail row rows, .ok       =>
    if s.pending row.id then .ok (s.cas row.id .FAILED false, .credit row rows)
    else .ok (s, .resolve rows)
  | .fail row rows, .lost     => .ok (s.cas row.id .FAILED false, .resolve rows)
  | .fail _ rows, .fails      => .ok (s, .resolve rows)
  | .credit row rows, answer  =>
    match s.withdrawals[row.id]?, answer with
    | some w, .ok   => .ok (s.refund row.id w, .resolve rows)
    | some w, .lost => .ok (s.refund row.id w, .resolve rows)
    | _, .fails     => .ok (s, .resolve rows)
    | _, _          => .error .NotNext
  | _, _                      => .error .NotNext

/-- The next step of a call. -/
def step (s : State) (p : Proc) (answer : Answer) : Except Error (State × Proc) :=
  if answer = .crash then .ok (s, .returned)
  else match p with
    | .select | .resolve _ | .complete _ _ | .fail _ _ | .credit _ _ => reconcile s p answer
    | _ => withdraw s p answer

/-- What happens by itself. -/
inductive Event where
  | elapse (duration : Time)
  | mined (id : WithdrawalId) (fate : Fate)
deriving DecidableEq

/-- A transaction of the network is mined or dropped; nothing else happens to it. -/
def environment (s : State) : Event → Except Error State
  | .elapse duration => .ok { s with now := s.now + duration }
  | .mined id fate   =>
    .ok (s.update id fun w =>
      if w.fate = .inFlight ∧ fate ≠ .unsent then { w with fate := fate } else w)

def program : Program State Proc Answer Event Error := ⟨step, environment⟩

inductive Call where
  | withdraw (request : Request)
  | reconcile

def Call.start : Call → Proc
  | .withdraw request => .claim request
  | .reconcile        => .select

abbrev Config (n : ℕ) := Program.Config State Proc n

abbrev Action (n : ℕ) := Program.Action n Answer Event

def initial {n : ℕ} (balances : Account → ℚ) (calls : Fin n → Call) : Config n :=
  ⟨⟨0, balances, []⟩, fun i => (calls i).start⟩

end Suwappu.HotWallet.Withdrawals
