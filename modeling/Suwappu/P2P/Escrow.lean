import Suwappu.Lib.Processes

/-!
# A peer-to-peer trade and its escrow

One row of `p2p_trades`, the transfers its escrow has made on chain, and any number of calls of the
service that work on it. Every statement of the database and every answer of the escrow's executor
is a step of its own, so the calls overlap in any order. A guarded UPDATE looks at the row as it
is; everything else a call knows of the row it read at its start.

An executor may raise before it has sent anything, or after. What calls return is left out, and so
are the dates.
-/

namespace Suwappu.P2P

open Checked

abbrev Address := String

abbrev TxHash := String

abbrev UserId := ℕ

abbrev WalletId := ℕ

inductive P2PSource where
  | NATIVE | NOONES | P2P_ME
deriving DecidableEq, Repr

inductive P2PTradeStatus where
  | INITIATED | ESCROW_LOCKED | FIAT_PENDING | FIAT_SENT | RELEASED | COMPLETED | CANCELLED
  | DISPUTED | RESOLVING | EXPIRED
deriving DecidableEq, Repr

inductive Resolution where
  | release | refund
deriving DecidableEq, Repr

structure P2PTrade where
  source : P2PSource
  takerUserId : UserId
  makerUserId : Option UserId
  status : P2PTradeStatus
  cryptoAmount : String
  cryptoChain : String
  escrowLockTx : Option TxHash
  escrowReleaseTx : Option TxHash
  buyerAddress : Option Address
  sellerAddress : Option Address
  fiatPaymentRef : Option String
  disputeReason : Option String
  disputedBy : Option UserId
  disputeResolution : Option Resolution
  resolvedBy : Option UserId
  resolutionNote : Option String
deriving DecidableEq, Repr

inductive EscrowAction where
  | lock | release | refund
deriving DecidableEq, Repr

def Resolution.action : Resolution → EscrowAction
  | .release => .release
  | .refund  => .refund

/-- A transfer the executor has made. -/
structure Transfer where
  action : EscrowAction
  fromWalletId : Option WalletId
  toAddress : Option Address
  amount : String
  chain : String
deriving DecidableEq, Repr

structure State where
  trade : P2PTrade
  transfers : List Transfer
deriving DecidableEq, Repr

/-- The call and how far it has come. -/
inductive Proc where
  | lock (sellerWalletId : Option WalletId)
  | lockResolve (trade : P2PTrade) (sellerWalletId : Option WalletId)
  | lockExecute (trade : P2PTrade) (walletId : WalletId)
  | lockWrite (txHash : TxHash)
  | markFiatSent (paymentRef : Option String)
  | markedFiatSent
  | release (buyerAddress : Option Address)
  | releaseReserve (trade : P2PTrade) (payout : Address)
  | releaseExecute (trade : P2PTrade) (payout : Address)
  | releaseWrite (txHash : TxHash)
  | cancel (sellerAddress : Option Address)
  | cancelReserve (trade : P2PTrade) (payout : Address)
  | cancelExecute (trade : P2PTrade) (payout : Address)
  | cancelWrite
  | dispute (reason : String) (openedBy : Option UserId)
  | disputeCount (reason : String) (openedBy : UserId)
  | disputeReserve (reason : String) (openedBy : UserId)
  | disputeWrite (reason : String) (openedBy : UserId)
  | resolve (resolution : Resolution) (resolverId : UserId) (note : Option String)
  | resolveReserve (resolution : Resolution) (resolverId : UserId) (note : Option String)
    (trade : P2PTrade) (payout : Address)
  | resolveExecute (resolution : Resolution) (resolverId : UserId) (note : Option String)
    (trade : P2PTrade) (payout : Address)
  | resolveRevert
  | resolveWrite (resolution : Resolution) (resolverId : UserId) (note : Option String)
    (txHash : TxHash)
  | returned
  | raised
deriving DecidableEq, Repr

/-- What a step gets from outside of the row. -/
inductive Answer where
  | none
  /-- the wallet that holds the seller's crypto, by the offer or the taker's default -/
  | sellerWallet (walletId : Option WalletId)
  | sent (txHash : TxHash)
  /-- the executor raises, and nothing is sent -/
  | refused
  /-- the network has the transfer, and the executor raises: the node's answer or the receipt is
  missing -/
  | sentAndRaises
  | openDisputes (count : ℕ)
deriving DecidableEq, Repr

inductive Error where
  /-- the step waits for another answer, or the call is over -/
  | NotNext
deriving DecidableEq, Repr

def MAX_OPEN_DISPUTES_PER_USER : ℕ := 5

/-- A string that is there and not empty. -/
def truthy (s : Option String) : Prop := ∃ text, s = some text ∧ text ≠ ""

instance decidableTruthy : ∀ s, Decidable (truthy s)
  | .none      => .isFalse fun ⟨_, h, _⟩ => by cases h
  | .some text => decidable_of_iff (text ≠ "") (by simp [truthy])

/-! ### The row -/

def State.updateTrade (s : State) (f : P2PTrade → P2PTrade) : State := { s with trade := f s.trade }

def State.setStatus (s : State) (status : P2PTradeStatus) : State :=
  s.updateTrade fun trade => { trade with status := status }

/-- An UPDATE of the status that matches the row only under `guard`. -/
def State.reserve (s : State) (guard : Prop) [Decidable guard] (status : P2PTradeStatus) :
    Option State :=
  if guard then some (s.setStatus status) else none

def reserveForRelease (s : State) : Option State :=
  s.reserve (s.trade.source = .NATIVE ∧ s.trade.escrowLockTx ≠ none ∧
    s.trade.escrowReleaseTx = none ∧
    s.trade.status ∈ [.ESCROW_LOCKED, .FIAT_SENT, P2PTradeStatus.RELEASED]) .RELEASED

def reserveForCancel (s : State) : Option State :=
  s.reserve (s.trade.source = .NATIVE ∧ s.trade.status = .ESCROW_LOCKED) .CANCELLED

def reserveForDispute (s : State) : Option State :=
  s.reserve (s.trade.source = .NATIVE ∧ s.trade.escrowLockTx ≠ none ∧
    s.trade.escrowReleaseTx = none ∧
    s.trade.status ∈ [.ESCROW_LOCKED, P2PTradeStatus.FIAT_SENT]) .DISPUTED

def reserveFromDispute (s : State) : Option State :=
  s.reserve (s.trade.source = .NATIVE ∧ s.trade.status = .DISPUTED ∧
    s.trade.escrowReleaseTx = none) .RESOLVING

/-- The UPDATE of `mark_fiat_sent`. -/
def casFiatSent (s : State) (paymentRef : Option String) : Option State :=
  if s.trade.status ∈ [.INITIATED, .ESCROW_LOCKED, P2PTradeStatus.FIAT_PENDING] then
    some (s.updateTrade fun trade =>
      { trade with status := .FIAT_SENT, fiatPaymentRef := paymentRef })
  else none

/-- The executor moves the funds. -/
def State.transfer (s : State) (transfer : Transfer) : State :=
  { s with transfers := s.transfers ++ [transfer] }

/-! ### The calls -/

variable (checksum : String → Option Address)

/-- `_resolve_payout`: the recorded address, which an override has to match. -/
def resolvePayout (recorded override : Option String) : Option Address :=
  match recorded.bind checksum with
  | none         => none
  | some address =>
    if truthy override then
      if override.bind checksum = some address then some address else none
    else some address

/-- Go on from a guarded UPDATE, or raise. -/
def reserved (s : State) (result : Option State) (p : Proc) : State × Proc :=
  match result with
  | some s' => (s', p)
  | none    => (s, .raised)

/-- The next step of a call. -/
def step (s : State) : Proc → Answer → Except Error (State × Proc)
  | .lock sellerWalletId, .none =>
    .ok (s, if s.trade.source = .NATIVE then .lockResolve s.trade sellerWalletId else .raised)
  | .lockResolve trade sellerWalletId, .sellerWallet walletId =>
    match walletId with
    | .none          => .ok (s, .raised)
    | .some walletId =>
      .ok (s, if walletId = 0 ∨ sellerWalletId ≠ .none ∧ sellerWalletId ≠ .some walletId
        then .raised else .lockExecute trade walletId)
  | .lockExecute trade walletId, .sent txHash =>
    .ok (s.transfer ⟨.lock, .some walletId, .none, trade.cryptoAmount, trade.cryptoChain⟩,
      .lockWrite txHash)
  | .lockExecute _ _, .refused => .ok (s, .raised)
  | .lockExecute trade walletId, .sentAndRaises =>
    .ok (s.transfer ⟨.lock, .some walletId, .none, trade.cryptoAmount, trade.cryptoChain⟩, .raised)
  -- whatever has happened to the row since it was read
  | .lockWrite txHash, .none =>
    .ok (s.updateTrade fun trade =>
      { trade with status := .ESCROW_LOCKED, escrowLockTx := .some txHash }, .returned)
  | .markFiatSent paymentRef, .none =>
    .ok (reserved s (casFiatSent s paymentRef) .markedFiatSent)
  | .release buyerAddress, .none =>
    if s.trade.source ≠ .NATIVE ∨ ¬ truthy s.trade.escrowLockTx then .ok (s, .raised)
    else match resolvePayout checksum s.trade.buyerAddress buyerAddress with
      | .none        => .ok (s, .raised)
      | .some payout => .ok (s, .releaseReserve s.trade payout)
  | .releaseReserve trade payout, .none =>
    .ok (reserved s (reserveForRelease s) (.releaseExecute trade payout))
  | .releaseExecute trade payout, .sent txHash =>
    .ok (s.transfer ⟨.release, .none, .some payout, trade.cryptoAmount, trade.cryptoChain⟩,
      .releaseWrite txHash)
  | .releaseExecute _ _, .refused => .ok (s, .raised)
  | .releaseExecute trade payout, .sentAndRaises =>
    .ok (s.transfer ⟨.release, .none, .some payout, trade.cryptoAmount, trade.cryptoChain⟩, .raised)
  | .releaseWrite txHash, .none =>
    .ok (s.updateTrade fun trade =>
      { trade with status := .COMPLETED, escrowReleaseTx := .some txHash }, .returned)
  | .cancel sellerAddress, .none =>
    if s.trade.source = .NATIVE ∧ s.trade.status ∈ [.DISPUTED, .RESOLVING, .FIAT_SENT] then
      .ok (s, .raised)
    else if s.trade.source = .NATIVE ∧ s.trade.status = .ESCROW_LOCKED then
      match resolvePayout checksum s.trade.sellerAddress sellerAddress with
      | .none        => .ok (s, .raised)
      | .some payout => .ok (s, .cancelReserve s.trade payout)
    else .ok (s, .cancelWrite)
  | .cancelReserve trade payout, .none =>
    .ok (reserved s (reserveForCancel s) (.cancelExecute trade payout))
  -- the refund's hash is not kept
  | .cancelExecute trade payout, .sent _ =>
    .ok (s.transfer ⟨.refund, .none, .some payout, trade.cryptoAmount, trade.cryptoChain⟩,
      .returned)
  | .cancelExecute _ _, .refused => .ok (s, .raised)
  | .cancelExecute trade payout, .sentAndRaises =>
    .ok (s.transfer ⟨.refund, .none, .some payout, trade.cryptoAmount, trade.cryptoChain⟩, .raised)
  | .cancelWrite, .none => .ok (s.setStatus .CANCELLED, .returned)
  | .dispute reason openedBy, .none =>
    match openedBy with
    | .none          => .ok (s, .raised)
    | .some openedBy =>
      .ok (s, if s.trade.source ≠ .NATIVE ∨
          openedBy ≠ s.trade.takerUserId ∧ openedBy ≠ s.trade.makerUserId.getD 0
        then .raised else .disputeCount reason openedBy)
  | .disputeCount reason openedBy, .openDisputes count =>
    .ok (s, if MAX_OPEN_DISPUTES_PER_USER ≤ count then .raised
      else .disputeReserve reason openedBy)
  | .disputeReserve reason openedBy, .none =>
    .ok (reserved s (reserveForDispute s) (.disputeWrite reason openedBy))
  | .disputeWrite reason openedBy, .none =>
    .ok (s.updateTrade fun trade =>
      { trade with disputeReason := .some reason, disputedBy := .some openedBy }, .returned)
  | .resolve resolution resolverId note, .none =>
    if s.trade.source ≠ .NATIVE ∨ s.trade.status ≠ .DISPUTED ∨ ¬ truthy s.trade.escrowLockTx then
      .ok (s, .raised)
    else
      let recorded := match resolution with
        | .release => s.trade.buyerAddress
        | .refund  => s.trade.sellerAddress
      match resolvePayout checksum recorded .none with
      | .none        => .ok (s, .raised)
      | .some payout => .ok (s, .resolveReserve resolution resolverId note s.trade payout)
  | .resolveReserve resolution resolverId note trade payout, .none =>
    .ok (reserved s (reserveFromDispute s)
      (.resolveExecute resolution resolverId note trade payout))
  | .resolveExecute resolution resolverId note trade payout, .sent txHash =>
    .ok (s.transfer ⟨resolution.action, .none, .some payout, trade.cryptoAmount,
      trade.cryptoChain⟩, .resolveWrite resolution resolverId note txHash)
  | .resolveExecute _ _ _ _ _, .refused => .ok (s, .resolveRevert)
  -- taken for a move that has failed
  | .resolveExecute resolution _ _ trade payout, .sentAndRaises =>
    .ok (s.transfer ⟨resolution.action, .none, .some payout, trade.cryptoAmount,
      trade.cryptoChain⟩, .resolveRevert)
  | .resolveRevert, .none => .ok (s.setStatus .DISPUTED, .raised)
  | .resolveWrite resolution resolverId note txHash, .none =>
    let status := match resolution with
      | .release => .COMPLETED
      | .refund  => .CANCELLED
    .ok (s.updateTrade fun trade =>
      { trade with
        status := status
        escrowReleaseTx := .some txHash
        disputeResolution := .some resolution
        resolvedBy := .some resolverId
        resolutionNote := note }, .returned)
  | _, _ => .error .NotNext

/-- The calls on one trade. -/
def program : Program State Proc Answer Empty Error := ⟨step checksum, fun _ event => nomatch event⟩

/-- A trade as `create_trade` leaves it. -/
structure Terms where
  source : P2PSource
  takerUserId : UserId
  makerUserId : Option UserId
  cryptoAmount : String
  cryptoChain : String
  buyerAddress : Option Address
  sellerAddress : Option Address

def Terms.trade (terms : Terms) : P2PTrade where
  source := terms.source
  takerUserId := terms.takerUserId
  makerUserId := terms.makerUserId
  status := .INITIATED
  cryptoAmount := terms.cryptoAmount
  cryptoChain := terms.cryptoChain
  escrowLockTx := none
  escrowReleaseTx := none
  buyerAddress := terms.buyerAddress
  sellerAddress := terms.sellerAddress
  fiatPaymentRef := none
  disputeReason := none
  disputedBy := none
  disputeResolution := none
  resolvedBy := none
  resolutionNote := none

/-- A call of the service. -/
inductive Call where
  | lockEscrow (sellerWalletId : Option WalletId)
  | markFiatSent (paymentRef : Option String)
  | releaseEscrow (buyerAddress : Option Address)
  | cancelTrade (sellerAddress : Option Address)
  | openDispute (reason : String) (openedBy : Option UserId)
  | resolveDispute (resolution : Resolution) (resolverId : UserId) (note : Option String)

def Call.start : Call → Proc
  | .lockEscrow sellerWalletId                 => .lock sellerWalletId
  | .markFiatSent paymentRef                   => .markFiatSent paymentRef
  | .releaseEscrow buyerAddress                => .release buyerAddress
  | .cancelTrade sellerAddress                 => .cancel sellerAddress
  | .openDispute reason openedBy               => .dispute reason openedBy
  | .resolveDispute resolution resolverId note => .resolve resolution resolverId note

abbrev Config (n : ℕ) := Program.Config State Proc n

abbrev Action (n : ℕ) := Program.Action n Answer Empty

def initial {n : ℕ} (terms : Terms) (calls : Fin n → Call) : Config n :=
  ⟨⟨terms.trade, []⟩, fun i => (calls i).start⟩

end Suwappu.P2P
