import Suwappu.P2P.Payouts

/-!
# A trade whose fiat is sent, or which is disputed

Once `mark_fiat_sent` has succeeded no refund is made but by `resolve_dispute`, and a disputed trade
is moved on by nothing else, in the runs in which no call writes a lock after either or while a
release or a refund is under way, and none cancels a disputed trade from an old read.
-/

namespace Suwappu.P2P

open Checked

def frozen : List P2PTradeStatus := [.DISPUTED, .RESOLVING]

/-- A call of `resolve_dispute`. -/
def Proc.Resolves : Proc → Prop
  | .resolve _ _ _ | .resolveReserve _ _ _ _ _ | .resolveExecute _ _ _ _ _ | .resolveRevert
  | .resolveWrite _ _ _ _ => True
  | _                     => False

variable (checksum : String → Option Address)

/-- What a step may do to a trade that is marked, and to one that is disputed. -/
structure Respects (c : Config n) (i : Fin n) (s' : State) : Prop where
  refund : 0 < c.total count .marked → s'.refunds ≠ c.shared.refunds →
    ∃ resolverId note trade payout,
      c.procs i = .resolveExecute .refund resolverId note trade payout
  leave : c.shared.trade.status ∈ frozen → s'.trade.status ∉ frozen → (c.procs i).Resolves

/-- The next step respects the trade. -/
def Protected {n : ℕ} (c : Config n) : Action n → Prop
  | .take i answer => ∀ s' p', step checksum c.shared (c.procs i) answer = .ok (s', p') →
    Respects c i s'
  | .environment _ => True

/-- The step neither writes a late lock nor cancels a disputed trade. -/
def Timely (s : State) (rest : Stage → ℕ) : Stage → Prop
  | .locking  => rest .marked = 0 ∧ rest .releasing + rest .recording + rest .cancelling = 0 ∧
    s.trade.status ∉ frozen
  | .dropping => s.trade.status ∉ frozen
  | _         => True

instance decidableTimely (s : State) (rest : Stage → ℕ) :
    ∀ stage, Decidable (Timely s rest stage) :=
  fun stage => by unfold Timely; split <;> infer_instance

structure Guarded (s : State) (m : Stage → ℕ) : Prop where
  leaving : 0 < m .releasing + m .recording + m .cancelling →
    s.trade.status ∈ [.RELEASED, .COMPLETED, P2PTradeStatus.CANCELLED]
  deciding : 0 < m .resolving + m .reverting + m .deciding → s.trade.status = .RESOLVING
  alone : m .resolving + m .reverting + m .deciding ≤ 1
  marked : 0 < m .marked → m .cancelling = 0 ∧
    s.trade.status ∉ [.INITIATED, .ESCROW_LOCKED, P2PTradeStatus.FIAT_PENDING]

variable {s s' : State} {m rest : Stage → ℕ} {stage stage' : Stage} {answer : Answer}

lemma Guarded.move (h : Guarded s (Pi.single stage 1 + rest)) (hc : Timely s rest stage)
    (hm : Move s stage answer s' stage') : Guarded s' (Pi.single stage' 1 + rest) := by
  obtain ⟨hleaving, hdeciding, halone, hmarked⟩ := h
  simp only [single_stage, List.mem_cons, List.not_mem_nil, or_false] at hleaving hmarked
  simp only [single_stage] at hdeciding halone
  cases hm with
  | idle hs | mark _ hs | reserveRelease _ _ hs | recordRelease hs | reserveCancel _ hs
  | reserveDispute _ _ hs | reserveResolve _ hs | revert hs | drop hs =>
    have hstatus := hs.status
    simp only [reduceCtorEq, if_true, if_false, zero_add, Timely, frozen, List.mem_cons,
      List.not_mem_nil, or_false] at *
    constructor <;>
      simp only [single_stage, reduceCtorEq, if_true, if_false, zero_add, List.mem_cons,
        List.not_mem_nil, or_false] <;> grind
  | decide hstatus hs =>
    have hstatus' := hs.status
    simp only [reduceCtorEq, if_true, if_false, zero_add, List.mem_cons, List.not_mem_nil,
      or_false] at *
    constructor <;>
      simp only [single_stage, reduceCtorEq, if_false, zero_add, List.mem_cons,
        List.not_mem_nil, or_false] <;> grind
  | lock htrade _ _ _ | lockUnrecorded htrade _ _ _ =>
    simp only [reduceCtorEq, if_false, zero_add] at *
    constructor <;>
      simp only [single_stage, reduceCtorEq, if_false, zero_add, List.mem_cons,
        List.not_mem_nil, or_false, htrade] <;> grind
  | writeLock hstatus hlockTx hpayouts _ _ =>
    simp only [reduceCtorEq, if_false, zero_add, Timely, frozen, List.mem_cons, List.not_mem_nil,
      or_false] at *
    constructor <;>
      simp only [single_stage, reduceCtorEq, if_false, zero_add, List.mem_cons,
        List.not_mem_nil, or_false] <;> grind
  | release hs _ | releaseUnrecorded hs _ | cancel hs | resolve hs | resolveUnrecorded hs =>
    have htrade := hs.trade
    simp only [reduceCtorEq, if_true, if_false, zero_add] at *
    constructor <;>
      simp only [single_stage, reduceCtorEq, if_true, if_false, zero_add, List.mem_cons,
        List.not_mem_nil, or_false, htrade] <;> grind
  | ask | refuseReserve | beginDrop | refuseRelease | refuseCancel | refuseResolve =>
    simp only [reduceCtorEq, if_true, if_false, zero_add] at *
    constructor <;>
      simp only [single_stage, reduceCtorEq, if_true, if_false, zero_add, List.mem_cons,
        List.not_mem_nil, or_false] <;> grind

/-! ### One step -/

variable {checksum} {p p' : Proc} {n : ℕ}

lemma Proc.resolves_of_stage (h : p.stage ∈ [.resolving, .reverting, Stage.deciding]) :
    p.Resolves := by
  cases p with
  | resolveExecute _ _ _ _ _ => trivial
  | resolveRevert => trivial
  | resolveWrite _ _ _ _ => trivial
  | _ => simp [Proc.stage] at h

/-- The resolution decides where a payout goes. -/
lemma resolve_refunds (h : step checksum s p answer = .ok (s', p')) (hstage : p.stage = .resolving)
    (hne : s'.refunds ≠ s.refunds) : ∃ resolverId note trade payout,
      p = .resolveExecute .refund resolverId note trade payout := by
  cases p with
  | resolveExecute resolution resolverId note trade payout =>
    cases resolution with
    | refund => exact ⟨resolverId, note, trade, payout, rfl⟩
    | release =>
      cases answer with
      | sent txHash =>
        cases h
        exact absurd (refunds_transfer (by decide : Resolution.release.action ≠ .refund)) hne
      | refused =>
        cases h
        exact absurd rfl hne
      | sentAndRaises =>
        cases h
        exact absurd (refunds_transfer (by decide : Resolution.release.action ≠ .refund)) hne
      | _ => cases h
  | _ => cases hstage

/-- Only two kinds of step refund. -/
lemma step_refunds (h : step checksum s p answer = .ok (s', p'))
    (hne : s'.refunds ≠ s.refunds) : p.stage = .cancelling ∨
      ∃ resolverId note trade payout,
        p = .resolveExecute .refund resolverId note trade payout := by
  have hm := step_move h
  generalize hstage : p.stage = stage at hm
  generalize p'.stage = stage' at hm
  cases hm with
  | cancel hs => exact .inl rfl
  | resolve hs | resolveUnrecorded hs => exact .inr (resolve_refunds h hstage hne)
  | idle hs | mark _ hs | reserveRelease _ _ hs | recordRelease hs | reserveCancel _ hs
  | reserveDispute _ _ hs | reserveResolve _ hs | revert hs | drop hs | decide _ hs =>
    exact absurd hs.refunds hne
  | lock _ _ _ hrefunds | lockUnrecorded _ _ _ hrefunds => exact absurd hrefunds hne
  | writeLock _ _ _ _ hrefunds => exact absurd hrefunds hne
  | release _ hrefunds | releaseUnrecorded _ hrefunds => exact absurd hrefunds hne
  | ask | refuseReserve | beginDrop | refuseRelease | refuseCancel | refuseResolve =>
    exact absurd rfl hne

/-- A call at a stage counts there. -/
lemma stage_pos {c : Config n} {i : Fin n} (h : (c.procs i).stage = stage) :
    0 < c.total count stage := by
  have hle := c.le_total count i stage
  rw [count, h, Pi.single_eq_same] at hle
  exact hle

lemma Guarded.respects {c : Config n} {i : Fin n} (h : Guarded c.shared (c.total count))
    (ht : Timely c.shared (c.others count i) (c.procs i).stage)
    (hstep : step checksum c.shared (c.procs i) answer = .ok (s', p')) : Respects c i s' where
  refund hmarked hne := by
    rcases step_refunds hstep hne with hstage | hresolve
    · have hcancelling := (h.marked hmarked).1
      have := stage_pos hstage
      omega
    · exact hresolve
  leave hfrozen hleft := by
    have hm := step_move hstep
    generalize hstage : (c.procs i).stage = stage at hm ht
    generalize p'.stage = stage' at hm
    cases hm with
    | idle hs => exact absurd (hs.status ▸ hfrozen) hleft
    | lock htrade | lockUnrecorded htrade => exact absurd (htrade ▸ hfrozen) hleft
    | release hs | releaseUnrecorded hs | cancel hs => exact absurd (hs.trade ▸ hfrozen) hleft
    | ask | refuseReserve | beginDrop | refuseRelease | refuseCancel => exact absurd hfrozen hleft
    | writeLock => exact absurd hfrozen ht.2.2
    | drop => exact absurd hfrozen ht
    | mark hstatus | reserveRelease _ hstatus | reserveCancel hstatus | reserveDispute _ hstatus =>
      simp only [frozen, List.mem_cons, List.not_mem_nil, or_false] at hfrozen hstatus
      rcases hfrozen with h' | h' <;> simp [h'] at hstatus
    | reserveResolve _ hs => exact absurd (by rw [hs.status]; decide) hleft
    | recordRelease =>
      have hstatus := h.leaving (by have := stage_pos hstage; omega)
      simp only [frozen, List.mem_cons, List.not_mem_nil, or_false] at hfrozen hstatus
      rcases hfrozen with h' | h' <;> simp [h'] at hstatus
    | resolve | resolveUnrecorded | refuseResolve | revert | decide =>
      exact Proc.resolves_of_stage (by rw [hstage]; decide)

/-! ### Runs -/

lemma guarded_initial (terms : Terms) (calls : Fin n → Call) :
    Guarded (initial terms calls).shared ((initial terms calls).total count) := by
  constructor <;> simp [initial_count]

lemma guarded_inductive (checksum : String → Option Address) :
    (program checksum).Inductive count Guarded (fun _ _ => True)
      (fun s rest p _ => Timely s rest p.stage) (fun _ _ _ => True) where
  step hI _ hC hstep := by
    rw [program_step] at hstep
    exact ⟨hI.move hC (step_move hstep), trivial⟩
  stable _ _ _ _ _ _ := trivial
  environment {_ _ event _} := nomatch event

/-- Whatever calls work on a trade, in any order: where no step writes a late lock or cancels a
disputed trade, every step respects that the fiat is sent and that the trade is disputed. -/
theorem protected_of_timely (checksum : String → Option Address) (terms : Terms)
    (calls : Fin n → Call) (acts : List (Action n))
    (h : ((program checksum).machine n).Along (Program.Meets count
      (fun s rest p _ => Timely s rest p.stage) fun _ _ _ => True) (initial terms calls) acts) :
    ((program checksum).machine n).Along (Protected checksum) (initial terms calls) acts := by
  have hinitial : Program.Invariant count Guarded (fun _ _ => True) (initial terms calls) :=
    ⟨guarded_initial terms calls, fun _ => trivial⟩
  refine h.mono (fun _ _ _ hI hC hstep => (guarded_inductive checksum).next hI hC hstep)
    (fun c a hI hC => ?_) hinitial
  cases a with
  | take i answer => exact fun _ _ hstep => hI.shared.respects hC hstep
  | environment event => trivial

/-! ### A late lock -/

/-- The seller locks, the buyer pays, and the seller cancels. -/
def lockPayCancel : Fin 3 → Call
  | 0 => .lockEscrow none
  | 1 => .markFiatSent (some "paid")
  | 2 => .cancelTrade none

/-- The buyer pays after the lock is recorded, and the cancellation is refused. -/
theorem paid_after_lock_protected :
    ((program some).machine 3).Along (Protected some) (initial nativeTerms lockPayCancel)
      (lockedBy 0 ++ [.take 1 .none, .take 2 .none]) :=
  protected_of_timely some nativeTerms lockPayCancel _ (by decide +kernel)

/-- The buyer pays before the lock is recorded, which puts the trade back, and the seller takes the
crypto as well. -/
theorem late_lock_refunds :
    ¬ ∀ (n : ℕ) (checksum : String → Option Address) (terms : Terms) (calls : Fin n → Call)
      (acts : List (Action n)), terms.source = .NATIVE →
      ((program checksum).machine n).Along (Protected checksum) (initial terms calls) acts := by
  intro h
  have hlast := (h 3 some nativeTerms lockPayCancel
    ([.take 0 .none, .take 0 (.sellerWallet (some 7)), .take 0 (.sent "lock"), .take 1 .none,
      .take 0 .none, .take 2 .none, .take 2 .none] ++ [.take 2 (.sent "refund")]) rfl).mid
  obtain ⟨_, _, _, _, hproc⟩ := (hlast _ _ rfl).refund (by decide +kernel) (by decide +kernel)
  have hstage : Proc.stage _ = .resolving := congrArg Proc.stage hproc
  revert hstage
  decide +kernel

end Suwappu.P2P
