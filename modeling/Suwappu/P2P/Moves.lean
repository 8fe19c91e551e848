import Suwappu.P2P.Escrow

/-!
# What the calls do to a trade

A call is at one of a few stages, and a step of it moves the trade in one of a few ways. What is
proved of a trade is proved of these moves.
-/

namespace Suwappu.P2P

open Checked

/-- How far a call is in what concerns the escrow. -/
inductive Stage where
  | outside
  /-- the crypto is locked, which the row does not say yet -/
  | locking
  /-- `mark_fiat_sent` has succeeded -/
  | marked
  /-- a release is about to be reserved -/
  | asking
  /-- it is reserved -/
  | releasing
  /-- it is made, which the row does not say yet -/
  | recording
  /-- a refund is reserved by `cancel_trade` -/
  | cancelling
  /-- the status is about to be overwritten by `cancel_trade` -/
  | dropping
  /-- a payout is reserved by `resolve_dispute` -/
  | resolving
  /-- it has failed -/
  | reverting
  /-- it is made -/
  | deciding
deriving DecidableEq, Repr

def Proc.stage : Proc → Stage
  | .lockWrite _              => .locking
  | .markedFiatSent           => .marked
  | .releaseReserve _ _       => .asking
  | .releaseExecute _ _       => .releasing
  | .releaseWrite _           => .recording
  | .cancelExecute _ _        => .cancelling
  | .cancelWrite              => .dropping
  | .resolveExecute _ _ _ _ _ => .resolving
  | .resolveRevert            => .reverting
  | .resolveWrite _ _ _ _     => .deciding
  | _                         => .outside

/-- The transfers out of the escrow. -/
def State.payouts (s : State) : ℕ := s.transfers.countP fun t => decide (t.action ≠ .lock)

def State.locks (s : State) : ℕ := s.transfers.countP fun t => decide (t.action = .lock)

/-- The transfers back to the seller. -/
def State.refunds (s : State) : ℕ := s.transfers.countP fun t => decide (t.action = .refund)

/-- Nothing that a reservation looks at has changed. -/
structure State.Same (s s' : State) : Prop where
  status : s'.trade.status = s.trade.status
  lockTx : s'.trade.escrowLockTx = s.trade.escrowLockTx
  payouts : s'.payouts = s.payouts
  locks : s'.locks = s.locks
  refunds : s'.refunds = s.refunds

/-- A new status and no transfer. -/
structure State.Sets (s s' : State) (status : P2PTradeStatus) : Prop where
  status : s'.trade.status = status
  lockTx : s'.trade.escrowLockTx = s.trade.escrowLockTx
  payouts : s'.payouts = s.payouts
  locks : s'.locks = s.locks
  refunds : s'.refunds = s.refunds

/-- A transfer by the executor, which leaves the row alone. -/
structure State.Pays (s s' : State) : Prop where
  trade : s'.trade = s.trade
  payouts : s'.payouts = s.payouts + 1
  locks : s'.locks = s.locks

/-- A step of a call, by its stage before and after it. -/
inductive Move (s : State) : Stage → Answer → State → Stage → Prop where
  | idle {s' : State} {answer : Answer} (h : s.Same s') : Move s .outside answer s' .outside
  | lock {s' : State} {answer : Answer} (htrade : s'.trade = s.trade)
      (hpayouts : s'.payouts = s.payouts) (hlocks : s'.locks = s.locks + 1)
      (hrefunds : s'.refunds = s.refunds) : Move s .outside answer s' .locking
  | lockUnrecorded {s' : State} (htrade : s'.trade = s.trade) (hpayouts : s'.payouts = s.payouts)
      (hlocks : s'.locks = s.locks + 1) (hrefunds : s'.refunds = s.refunds) :
      Move s .outside .sentAndRaises s' .outside
  | writeLock {s' : State} {answer : Answer} (hstatus : s'.trade.status = .ESCROW_LOCKED)
      (hlockTx : s'.trade.escrowLockTx ≠ none) (hpayouts : s'.payouts = s.payouts)
      (hlocks : s'.locks = s.locks) (hrefunds : s'.refunds = s.refunds) :
      Move s .locking answer s' .outside
  | mark {s' : State} {answer : Answer}
      (hstatus : s.trade.status ∈ [.INITIATED, .ESCROW_LOCKED, P2PTradeStatus.FIAT_PENDING])
      (h : s.Sets s' .FIAT_SENT) : Move s .outside answer s' .marked
  | ask {answer : Answer} : Move s .outside answer s .asking
  | refuseReserve {answer : Answer} : Move s .asking answer s .outside
  | reserveRelease {s' : State} {answer : Answer} (hlockTx : s.trade.escrowLockTx ≠ none)
      (hstatus : s.trade.status ∈ [.ESCROW_LOCKED, .FIAT_SENT, P2PTradeStatus.RELEASED])
      (h : s.Sets s' .RELEASED) : Move s .asking answer s' .releasing
  | release {s' : State} {answer : Answer} (h : s.Pays s') (hrefunds : s'.refunds = s.refunds) :
      Move s .releasing answer s' .recording
  | refuseRelease : Move s .releasing .refused s .outside
  | releaseUnrecorded {s' : State} (h : s.Pays s') (hrefunds : s'.refunds = s.refunds) :
      Move s .releasing .sentAndRaises s' .outside
  | recordRelease {s' : State} {answer : Answer} (h : s.Sets s' .COMPLETED) :
      Move s .recording answer s' .outside
  | beginDrop {answer : Answer} : Move s .outside answer s .dropping
  | drop {s' : State} {answer : Answer} (h : s.Sets s' .CANCELLED) :
      Move s .dropping answer s' .outside
  | reserveCancel {s' : State} {answer : Answer} (hstatus : s.trade.status = .ESCROW_LOCKED)
      (h : s.Sets s' .CANCELLED) : Move s .outside answer s' .cancelling
  | cancel {s' : State} {answer : Answer} (h : s.Pays s') : Move s .cancelling answer s' .outside
  | refuseCancel : Move s .cancelling .refused s .outside
  | reserveDispute {s' : State} {answer : Answer} (hlockTx : s.trade.escrowLockTx ≠ none)
      (hstatus : s.trade.status ∈ [.ESCROW_LOCKED, P2PTradeStatus.FIAT_SENT])
      (h : s.Sets s' .DISPUTED) : Move s .outside answer s' .outside
  | reserveResolve {s' : State} {answer : Answer} (hstatus : s.trade.status = .DISPUTED)
      (h : s.Sets s' .RESOLVING) : Move s .outside answer s' .resolving
  | resolve {s' : State} {answer : Answer} (h : s.Pays s') : Move s .resolving answer s' .deciding
  | refuseResolve : Move s .resolving .refused s .reverting
  | resolveUnrecorded {s' : State} (h : s.Pays s') :
      Move s .resolving .sentAndRaises s' .reverting
  | revert {s' : State} {answer : Answer} (h : s.Sets s' .DISPUTED) :
      Move s .reverting answer s' .outside
  | decide {s' : State} {answer : Answer} {status : P2PTradeStatus}
      (hstatus : status ∈ [.COMPLETED, P2PTradeStatus.CANCELLED]) (h : s.Sets s' status) :
      Move s .deciding answer s' .outside

variable {checksum : String → Option Address} {s s' : State} {p p' : Proc} {answer : Answer}

lemma payouts_transfer {t : Transfer} (h : t.action ≠ .lock) : s.Pays (s.transfer t) :=
  ⟨rfl, by simp [State.payouts, State.transfer, h], by simp [State.locks, State.transfer, h]⟩

lemma resolution_action_ne {resolution : Resolution} : resolution.action ≠ .lock := by
  cases resolution <;> nofun

lemma payouts_lock {t : Transfer} (h : t.action = .lock) :
    (s.transfer t).payouts = s.payouts ∧ (s.transfer t).locks = s.locks + 1 :=
  ⟨by simp [State.payouts, State.transfer, h], by simp [State.locks, State.transfer, h]⟩

lemma refunds_transfer {t : Transfer} (h : t.action ≠ .refund) :
    (s.transfer t).refunds = s.refunds := by
  simp [State.refunds, State.transfer, h]

lemma reserve_some {guard : Prop} [Decidable guard] {status : P2PTradeStatus}
    (h : s.reserve guard status = some s') : guard ∧ s.Sets s' status := by
  simp only [State.reserve, Option.ite_none_right_eq_some, Option.some.injEq] at h
  obtain ⟨hguard, rfl⟩ := h
  exact ⟨hguard, rfl, rfl, rfl, rfl, rfl⟩

/-- A guarded UPDATE matched, or the call has raised and changed nothing. -/
lemma reserved_cases {result : Option State} {next : Proc}
    (h : reserved s result next = (s', p')) :
    result = some s' ∧ p' = next ∨ s' = s ∧ p' = .raised := by
  cases result with
  | none =>
    cases h
    exact .inr ⟨rfl, rfl⟩
  | some t =>
    cases h
    exact .inl ⟨rfl, rfl⟩

lemma State.same_self (s : State) : s.Same s := ⟨rfl, rfl, rfl, rfl, rfl⟩

/-- A guarded UPDATE is a move as soon as its match is one. -/
lemma reserved_move {result : Option State} {next : Proc}
    (h : reserved s result next = (s', p'))
    (hsome : result = some s' → Move s .outside answer s' next.stage) :
    Move s .outside answer s' p'.stage := by
  rcases reserved_cases h with ⟨hresult, rfl⟩ | ⟨rfl, rfl⟩
  · exact hsome hresult
  · exact .idle (State.same_self _)

lemma idle_ite {c : Prop} [Decidable c] {p q : Proc} (hp : p.stage = .outside)
    (hq : q.stage = .outside) : Move s .outside answer s (if c then p else q).stage := by
  rw [apply_ite Proc.stage, hp, hq, ite_self]
  exact .idle s.same_self

/-- What a step of a call does to the trade. -/
lemma step_move (h : step checksum s p answer = .ok (s', p')) :
    Move s p.stage answer s' p'.stage := by
  cases p with
  | lock sellerWalletId =>
    cases answer with
    | none =>
      cases h
      exact idle_ite rfl rfl
    | _ => cases h
  | lockResolve trade sellerWalletId =>
    cases answer with
    | sellerWallet walletId =>
      cases walletId with
      | none =>
        cases h
        exact .idle s.same_self
      | some walletId =>
        cases h
        exact idle_ite rfl rfl
    | _ => cases h
  | lockExecute trade walletId =>
    obtain ⟨hpayouts, hlocks⟩ := payouts_lock (s := s)
      (t := ⟨.lock, some walletId, none, trade.cryptoAmount, trade.cryptoChain⟩) rfl
    cases answer with
    | sent txHash =>
      cases h
      exact .lock rfl hpayouts hlocks (refunds_transfer nofun)
    | refused =>
      cases h
      exact .idle s.same_self
    | sentAndRaises =>
      cases h
      exact .lockUnrecorded rfl hpayouts hlocks (refunds_transfer nofun)
    | _ => cases h
  | lockWrite txHash =>
    cases answer with
    | none =>
      cases h
      exact .writeLock rfl (by simp [State.updateTrade]) rfl rfl rfl
    | _ => cases h
  | markFiatSent paymentRef =>
    cases answer with
    | none =>
      refine reserved_move (Except.ok.inj h) fun hresult => ?_
      simp only [casFiatSent, Option.ite_none_right_eq_some, Option.some.injEq] at hresult
      obtain ⟨hstatus, rfl⟩ := hresult
      exact .mark hstatus ⟨rfl, rfl, rfl, rfl, rfl⟩
    | _ => cases h
  | release buyerAddress =>
    cases answer with
    | none =>
      dsimp only [step] at h
      split_ifs at h
      · cases h
        exact .idle s.same_self
      · split at h
        · cases h
          exact .idle s.same_self
        · cases h
          exact .ask
    | _ => cases h
  | releaseReserve trade payout =>
    cases answer with
    | none =>
      rcases reserved_cases (Except.ok.inj h) with ⟨hresult, rfl⟩ | ⟨rfl, rfl⟩
      · obtain ⟨⟨-, hlock, -, hstatus⟩, hsets⟩ := reserve_some hresult
        exact .reserveRelease hlock hstatus hsets
      · exact .refuseReserve
    | _ => cases h
  | releaseExecute trade payout =>
    cases answer with
    | sent txHash =>
      cases h
      exact .release (payouts_transfer nofun) (refunds_transfer nofun)
    | refused =>
      cases h
      exact .refuseRelease
    | sentAndRaises =>
      cases h
      exact .releaseUnrecorded (payouts_transfer nofun) (refunds_transfer nofun)
    | _ => cases h
  | releaseWrite txHash =>
    cases answer with
    | none =>
      cases h
      exact .recordRelease ⟨rfl, rfl, rfl, rfl, rfl⟩
    | _ => cases h
  | cancel sellerAddress =>
    cases answer with
    | none =>
      dsimp only [step] at h
      split_ifs at h
      · cases h
        exact .idle s.same_self
      · split at h
        · cases h
          exact .idle s.same_self
        · cases h
          exact .idle s.same_self
      · cases h
        exact .beginDrop
    | _ => cases h
  | cancelReserve trade payout =>
    cases answer with
    | none =>
      refine reserved_move (Except.ok.inj h) fun hresult => ?_
      obtain ⟨⟨-, hstatus⟩, hsets⟩ := reserve_some hresult
      exact .reserveCancel hstatus hsets
    | _ => cases h
  | cancelExecute trade payout =>
    cases answer with
    | sent | sentAndRaises =>
      cases h
      exact .cancel (payouts_transfer nofun)
    | refused =>
      cases h
      exact .refuseCancel
    | _ => cases h
  | cancelWrite =>
    cases answer with
    | none =>
      cases h
      exact .drop ⟨rfl, rfl, rfl, rfl, rfl⟩
    | _ => cases h
  | dispute reason openedBy =>
    cases answer with
    | none =>
      cases openedBy with
      | none =>
        cases h
        exact .idle s.same_self
      | some openedBy =>
        cases h
        exact idle_ite rfl rfl
    | _ => cases h
  | disputeCount reason openedBy =>
    cases answer with
    | openDisputes count =>
      cases h
      exact idle_ite rfl rfl
    | _ => cases h
  | disputeReserve reason openedBy =>
    cases answer with
    | none =>
      refine reserved_move (Except.ok.inj h) fun hresult => ?_
      obtain ⟨⟨-, hlock, -, hstatus⟩, hsets⟩ := reserve_some hresult
      exact .reserveDispute hlock hstatus hsets
    | _ => cases h
  | disputeWrite reason openedBy =>
    cases answer with
    | none =>
      cases h
      exact .idle ⟨rfl, rfl, rfl, rfl, rfl⟩
    | _ => cases h
  | resolve resolution resolverId note =>
    cases answer with
    | none =>
      dsimp only [step] at h
      split_ifs at h
      · cases h
        exact .idle s.same_self
      · split at h
        · cases h
          exact .idle s.same_self
        · cases h
          exact .idle s.same_self
    | _ => cases h
  | resolveReserve resolution resolverId note trade payout =>
    cases answer with
    | none =>
      refine reserved_move (Except.ok.inj h) fun hresult => ?_
      obtain ⟨⟨-, hstatus, -⟩, hsets⟩ := reserve_some hresult
      exact .reserveResolve hstatus hsets
    | _ => cases h
  | resolveExecute resolution resolverId note trade payout =>
    cases answer with
    | sent txHash =>
      cases h
      exact .resolve (payouts_transfer resolution_action_ne)
    | refused =>
      cases h
      exact .refuseResolve
    | sentAndRaises =>
      cases h
      exact .resolveUnrecorded (payouts_transfer resolution_action_ne)
    | _ => cases h
  | resolveRevert =>
    cases answer with
    | none =>
      cases h
      exact .revert ⟨rfl, rfl, rfl, rfl, rfl⟩
    | _ => cases h
  | resolveWrite resolution resolverId note txHash =>
    cases answer with
    | none =>
      cases h
      exact .decide (by cases resolution <;> simp [State.updateTrade]) ⟨rfl, rfl, rfl, rfl, rfl⟩
    | _ => cases h
  | markedFiatSent | returned | raised => cases answer <;> cases h

lemma program_step (s : State) (p : Proc) (answer : Answer) :
    (program checksum).step s p answer = step checksum s p answer := rfl

end Suwappu.P2P
