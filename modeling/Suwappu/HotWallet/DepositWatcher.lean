import Suwappu.HotWallet.CustodialBalance

/-!
# The deposit watcher

Passes of `scan_chain`, one after another. Every call of the node and every transaction is a step,
and may fail; a pass may be cut off before any of them. In between chains grow and other operations
move balances. A block that has the confirmations of its chain does not change any more, so that
the transfers of a chain are given once for all.

The state also remembers where the scans of a chain started, the deposits that a pass gave up, and
what other operations moved.
-/

namespace Suwappu.HotWallet.DepositWatcher

open Checked

abbrev UserId := ℕ

abbrev Address := ℕ

abbrev Hash := ℕ

inductive Chain where
  | ethereum | bsc | polygon | arbitrum | optimism | base
deriving DecidableEq, Repr

inductive Symbol where
  | USDC | USDT
deriving DecidableEq, Repr

def CONFIRMATIONS : Chain → ℕ
  | .ethereum => 12
  | .bsc      => 15
  | .polygon  => 128
  | .arbitrum => 20
  | .optimism => 20
  | .base     => 20

def ALLOWLIST : Chain → List Symbol
  | .ethereum => [.USDC, .USDT]
  | .bsc      => [.USDC, .USDT]
  | .polygon  => [.USDC, .USDT]
  | .arbitrum => [.USDC, .USDT]
  | .optimism => [.USDC, .USDT]
  | .base     => [.USDC]

def MIN_DEPOSIT : Symbol → Decimal
  | .USDC => .ofNat 1
  | .USDT => .ofNat 1

def MAX_BLOCK_RANGE : ℕ := 2000

def ADDRESS_CHUNK : ℕ := 100

def COLD_START_LOOKBACK : ℕ := 500

/-- A Transfer log. -/
structure Log where
  address : Address
  toAddress : Address
  value : ℕ
  transactionHash : Hash
  logIndex : ℕ
  blockNumber : ℕ
deriving DecidableEq

/-- What identifies a log on its chain. -/
def Log.id (log : Log) : Hash × ℕ := (log.transactionHash, log.logIndex)

/-- The tokens of the chains, the addresses that are watched, and the transfers. -/
structure World where
  tokenAddress : Symbol → Chain → Option Address
  tokenDecimals : Symbol → Chain → ℕ
  watched : List (UserId × Address)
  transfers : Chain → List Log
  distinct : ∀ chain, ((transfers chain).map Log.id).Nodup

/-- `deposit:{chain}:{tx_hash}:{log_index}` -/
structure DepositKey where
  chain : Chain
  txHash : Hash
  logIndex : ℕ
deriving DecidableEq

def depositKey (chain : Chain) (log : Log) : DepositKey :=
  ⟨chain, log.transactionHash, log.logIndex⟩

structure BalanceKey where
  userId : UserId
  chain : Chain
  tokenSymbol : Symbol
deriving DecidableEq

/-- A row of `custodial_transactions`. -/
structure CustodialTransaction where
  balance : BalanceKey
  amount : Decimal
  idempotencyKey : DepositKey
deriving DecidableEq

/-- The blocks after `cursor` up to `toBlock`. -/
structure Window where
  cursor : ℕ
  toBlock : ℕ
deriving DecidableEq

inductive Stage where
  | wallets
  | blockNumber
  | cursor (safeHead : ℕ)
  | getLogs (window : Window) (addresses : List Address)
  /-- the logs that are left of a chunk, and the addresses that are left -/
  | handle (window : Window) (logs : List Log) (addresses : List Address)
  | setCursor (window : Window)
  | returned
  | raised
deriving DecidableEq

structure Pass where
  chain : Chain
  stage : Stage
  credited : ℕ
  /-- the deposits that this pass could not book -/
  missed : List CustodialTransaction
deriving DecidableEq

structure State where
  head : Chain → ℕ
  cursors : Chain → Option ℕ
  ledger : List CustodialTransaction
  balances : BalanceKey → Decimal
  pass : Option Pass
  /-- the cursor that the first finished scan of a chain started from -/
  since : Chain → Option ℕ
  /-- what other operations moved -/
  moved : BalanceKey → ℚ

inductive Answer where
  | ok
  | head (block : ℕ)
  | fails
  /-- a transaction is committed, and the connection lost -/
  | lost
deriving DecidableEq

inductive Action where
  | scan (chain : Chain)
  | take (answer : Answer)
  | crash
  | mine (chain : Chain) (blocks : ℕ)
  | setBalance (key : BalanceKey) (balance : Decimal)
deriving DecidableEq

inductive Error where
  /-- a pass is at work, or none is, or its step waits for another answer -/
  | NotNext
deriving DecidableEq, Repr

variable (W : World)

/-- `_token_map`: a later symbol takes the place of an earlier one. -/
def World.tokens (chain : Chain) (address : Address) : Option Symbol :=
  (ALLOWLIST chain).reverse.find? fun symbol => W.tokenAddress symbol chain = some address

/-- `by_address`: a later user takes the place of an earlier one. -/
def World.byAddress (address : Address) : Option UserId :=
  (W.watched.reverse.find? fun wallet => wallet.2 = address).map Prod.fst

/-- The keys of `by_address`. -/
def World.addresses : List Address := (W.watched.map Prod.snd).eraseDups

/-- `eth_getLogs` -/
def World.getLogs (chain : Chain) (window : Window) (chunk : List Address) : List Log :=
  (W.transfers chain).filter fun log =>
    window.cursor + 1 ≤ log.blockNumber ∧ log.blockNumber ≤ window.toBlock ∧ log.toAddress ∈ chunk

/-- `Decimal(value) / (Decimal(10) ** decimals)`, but for zeros at its end. -/
def World.amount (chain : Chain) (symbol : Symbol) (value : ℕ) : Decimal :=
  ⟨value, -W.tokenDecimals symbol chain⟩

/-- `_handle_log`, up to its call of `_credit`. -/
def World.handleLog (chain : Chain) (log : Log) : Except HotWallet.Error
    (Option CustodialTransaction) :=
  match W.tokens chain log.address, W.byAddress log.toAddress with
  | some symbol, some userId => do
    let amount ← trap (context.fix (W.amount chain symbol log.value))
    if amount.lt (MIN_DEPOSIT symbol) then return none
    else return some ⟨⟨userId, chain, symbol⟩, amount, depositKey chain log⟩
  | _, _ => .ok none

/-- The row is there. -/
def State.Booked (s : State) (row : CustodialTransaction) : Prop :=
  ∃ r ∈ s.ledger, r.balance.userId = row.balance.userId ∧ r.idempotencyKey = row.idempotencyKey

instance State.decidableBooked (s : State) (row : CustodialTransaction) :
    Decidable (s.Booked row) := by
  unfold State.Booked
  infer_instance

def State.book (s : State) (row : CustodialTransaction) (newBalance : Decimal) : State :=
  { s with
    ledger := s.ledger ++ [row]
    balances := Function.update s.balances row.balance newBalance }

/-- The transaction of `_credit`. A row that is there stands in its way, and so does the trap. -/
def State.credit (s : State) (row : CustodialTransaction) : State :=
  if s.Booked row then s
  else match applied .add (s.balances row.balance) row.amount with
    | .error _       => s
    | .ok newBalance => s.book row newBalance

/-- `_set_cursor` -/
def State.setCursor (s : State) (chain : Chain) (window : Window) : State :=
  { s with
    cursors := Function.update s.cursors chain (some window.toBlock)
    since := Function.update s.since chain (some ((s.since chain).getD window.cursor)) }

/-- A call of `_credit` is over: `s'` is what it left. -/
def Pass.after (p : Pass) (stage : Stage) (s s' : State) (row : CustodialTransaction)
    (answer : Answer) : Pass :=
  { p with
    stage := stage
    credited := if answer = .ok ∧ ¬ s.Booked row ∧ s'.Booked row then p.credited + 1 else p.credited
    missed := if s'.Booked row then p.missed else row :: p.missed }

/-- The next step of a pass. -/
def advance (s : State) (p : Pass) (answer : Answer) : Except Error (State × Pass) :=
  match p.stage, answer with
  | .wallets, .ok =>
    if W.watched = [] ∨ ∀ symbol ∈ ALLOWLIST p.chain, W.tokenAddress symbol p.chain = none then
      .ok (s, { p with stage := .returned })
    else .ok (s, { p with stage := .blockNumber })
  | .blockNumber, .head block =>
    -- a node may be behind
    if s.head p.chain < block then .error .NotNext
    else if block ≤ CONFIRMATIONS p.chain then .ok (s, { p with stage := .returned })
    else .ok (s, { p with stage := .cursor (block - CONFIRMATIONS p.chain) })
  | .cursor safeHead, .ok =>
    let cursor := (s.cursors p.chain).getD (safeHead - COLD_START_LOOKBACK)
    if safeHead ≤ cursor then .ok (s, { p with stage := .returned })
    else .ok (s, { p with
      stage := .getLogs ⟨cursor, min safeHead (cursor + MAX_BLOCK_RANGE)⟩ W.addresses })
  | .getLogs window addresses, .ok =>
    .ok (s, { p with
      stage := .handle window (W.getLogs p.chain window (addresses.take ADDRESS_CHUNK))
        (addresses.drop ADDRESS_CHUNK) })
  | .getLogs _ _, .fails => .ok (s, { p with stage := .returned })
  | .handle window [] [], .ok => .ok (s, { p with stage := .setCursor window })
  | .handle window [] (address :: addresses), .ok =>
    .ok (s, { p with stage := .getLogs window (address :: addresses) })
  | .handle window (log :: logs) addresses, answer =>
    match W.handleLog p.chain log, answer with
    | .error _, _          => .ok (s, { p with stage := .raised })
    | .ok none, _          => .ok (s, { p with stage := .handle window logs addresses })
    | .ok (some _), .head _ => .error .NotNext
    -- whatever went wrong, the pass goes on
    | .ok (some row), .fails =>
      .ok (s, p.after (.handle window logs addresses) s s row .fails)
    | .ok (some row), answer =>
      .ok (s.credit row, p.after (.handle window logs addresses) s (s.credit row) row answer)
  | .setCursor window, .ok =>
    .ok (s.setCursor p.chain window, { p with stage := .returned })
  | .setCursor window, .lost =>
    .ok (s.setCursor p.chain window, { p with stage := .raised })
  | .wallets, .fails | .blockNumber, .fails | .cursor _, .fails | .setCursor _, .fails =>
    .ok (s, { p with stage := .raised })
  | _, _ => .error .NotNext

def step (s : State) : Action → Except Error State
  | .scan chain =>
    match s.pass with
    | none   => .ok { s with pass := some ⟨chain, .wallets, 0, []⟩ }
    | some p =>
      if p.stage = .returned ∨ p.stage = .raised then
        .ok { s with pass := some ⟨chain, .wallets, 0, []⟩ }
      else .error .NotNext
  | .take answer =>
    match s.pass with
    | none   => .error .NotNext
    | some p => (advance W s p answer).map fun r => { r.1 with pass := some r.2 }
  | .crash => .ok { s with pass := none }
  | .mine chain blocks =>
    .ok { s with head := Function.update s.head chain (s.head chain + blocks) }
  | .setBalance key balance =>
    .ok { s with
      balances := Function.update s.balances key balance
      moved := Function.update s.moved key
        (s.moved key + (balance.value - (s.balances key).value)) }

def machine : Machine State Action Error := ⟨step W⟩

/-- A restart with some cursors and balances in the database. -/
def initial (head : Chain → ℕ) (cursors : Chain → Option ℕ) (balances : BalanceKey → Decimal) :
    State :=
  ⟨head, cursors, [], balances, none, cursors, fun _ => 0⟩

end Suwappu.HotWallet.DepositWatcher
