import Suwappu.P2P.Moves

/-!
# The escrow pays once

What has been paid out and what is under way never exceed one payout, in the runs in which no call
writes a lock over a payout, takes up a release that another call still works on or has made, takes
a payout that was sent for one that has failed, cancels a locked trade from an old read, locks a
cancelled one without recording it, or has its refund refused.
-/

namespace Suwappu.P2P

open Checked

/-- The calls at each stage. -/
def count (p : Proc) : Stage → ℕ := Pi.single p.stage 1

/-- The payouts that are reserved and not made. -/
def underWay (m : Stage → ℕ) : ℕ := m .releasing + m .cancelling + m .resolving + m .reverting

structure PaysOnce (s : State) (m : Stage → ℕ) : Prop where
  once : s.payouts + underWay m ≤ 1
  unpaid : s.trade.status ∈ [.INITIATED, .FIAT_PENDING, .FIAT_SENT, .ESCROW_LOCKED,
    P2PTradeStatus.DISPUTED] → s.payouts + underWay m = 0
  settled : s.trade.status ∈ [.COMPLETED, P2PTradeStatus.CANCELLED] →
    s.trade.escrowLockTx ≠ none → s.payouts + underWay m = 1
  locked : s.trade.status ∈ [.ESCROW_LOCKED, .RELEASED, .DISPUTED, P2PTradeStatus.RESOLVING] →
    s.trade.escrowLockTx ≠ none
  reserved : 0 < s.payouts + underWay m → s.trade.escrowLockTx ≠ none
  releasing : 0 < m .releasing → s.trade.status = .RELEASED
  cancelling : 0 < m .cancelling → s.trade.status = .CANCELLED
  resolving : 0 < m .resolving + m .reverting → s.trade.status = .RESOLVING
  recorded : 0 < m .recording + m .deciding → 0 < s.payouts
  unlocked : s.trade.escrowLockTx = none →
    s.trade.status ∈ [.COMPLETED, P2PTradeStatus.CANCELLED] → s.locks ≤ m .locking

/-- The step is none of the six that pay twice or strand the escrow. -/
def Careful (s : State) (rest : Stage → ℕ) : Stage → Answer → Prop
  | .outside, a    => a = .sentAndRaises → s.trade.escrowLockTx = none →
    s.trade.status ∉ [.COMPLETED, P2PTradeStatus.CANCELLED]
  | .locking, _    => s.payouts + underWay rest = 0
  | .asking, _     => s.trade.status = .RELEASED → s.payouts + underWay rest = 0
  | .cancelling, a => a ≠ .refused
  | .resolving, a  => a ≠ .sentAndRaises
  | .dropping, _   => s.trade.escrowLockTx = none ∧ s.locks ≤ rest .locking ∨
    s.trade.status = .CANCELLED ∨ 0 < s.payouts
  | _, _           => True

instance decidableCareful (s : State) (rest : Stage → ℕ) :
    ∀ stage a, Decidable (Careful s rest stage a) :=
  fun stage a => by unfold Careful; split <;> infer_instance

variable {s s' : State} {m rest : Stage → ℕ} {stage stage' : Stage} {answer : Answer}

lemma single_stage (a b : Stage) :
    (Pi.single a 1 + rest : Stage → ℕ) b = (if b = a then 1 else 0) + rest b := by
  rw [Pi.add_apply, Pi.single_apply]

/-! ### The phases of a trade -/

/-- Nothing is paid or under way. -/
lemma PaysOnce.of_unpaid (hunpaid : s.payouts + underWay m = 0)
    (hrecorded : m .recording + m .deciding = 0)
    (hsettled : s.trade.status ∈ [.COMPLETED, P2PTradeStatus.CANCELLED] →
      s.trade.escrowLockTx = none)
    (hlocked : s.trade.status ∈ [.ESCROW_LOCKED, .RELEASED, .DISPUTED, P2PTradeStatus.RESOLVING] →
      s.trade.escrowLockTx ≠ none)
    (hunlocked : s.trade.escrowLockTx = none →
      s.trade.status ∈ [.COMPLETED, P2PTradeStatus.CANCELLED] → s.locks ≤ m .locking) :
    PaysOnce s m where
  once := by omega
  unpaid _ := hunpaid
  settled hstatus hlock := absurd (hsettled hstatus) hlock
  locked := hlocked
  reserved h := by omega
  releasing h := by simp only [underWay] at hunpaid; omega
  cancelling h := by simp only [underWay] at hunpaid; omega
  resolving h := by simp only [underWay] at hunpaid; omega
  recorded h := by omega
  unlocked := hunlocked

/-- A payout is reserved. -/
lemma PaysOnce.of_underWay (hpayouts : s.payouts = 0) (hway : underWay m = 1)
    (hrecorded : m .recording + m .deciding = 0) (hlock : s.trade.escrowLockTx ≠ none)
    (hstatus : s.trade.status = .RELEASED ∧ m .releasing = 1 ∨
      s.trade.status = .CANCELLED ∧ m .cancelling = 1 ∨
      s.trade.status = .RESOLVING ∧ m .resolving + m .reverting = 1) : PaysOnce s m := by
  have hsum : m .releasing + m .cancelling + m .resolving + m .reverting = 1 := hway
  exact {
    once := by omega
    unpaid := fun h => by rcases hstatus with h' | h' | h' <;> simp [h'.1] at h
    settled := fun _ _ => by omega
    locked := fun _ => hlock
    reserved := fun _ => hlock
    releasing := fun h => by rcases hstatus with h' | h' | h' <;> first | exact h'.1 | omega
    cancelling := fun h => by rcases hstatus with h' | h' | h' <;> first | exact h'.1 | omega
    resolving := fun h => by rcases hstatus with h' | h' | h' <;> first | exact h'.1 | omega
    recorded := fun h => by omega
    unlocked := fun h => absurd h hlock }

/-- The payout is made. -/
lemma PaysOnce.of_paid (hpayouts : s.payouts = 1) (hway : underWay m = 0)
    (hstatus : s.trade.status ∈ [.RELEASED, .RESOLVING, .COMPLETED, P2PTradeStatus.CANCELLED])
    (hlock : s.trade.escrowLockTx ≠ none) : PaysOnce s m := by
  have hsum : m .releasing + m .cancelling + m .resolving + m .reverting = 0 := hway
  simp only [List.mem_cons, List.not_mem_nil, or_false] at hstatus
  exact {
    once := by omega
    unpaid := fun h => by rcases hstatus with h' | h' | h' | h' <;> simp [h'] at h
    settled := fun _ _ => by omega
    locked := fun _ => hlock
    reserved := fun _ => hlock
    releasing := fun h => by omega
    cancelling := fun h => by omega
    resolving := fun h => by omega
    recorded := fun h => by omega
    unlocked := fun h => absurd h hlock }

/-- Only the stages that the invariant counts matter. -/
lemma PaysOnce.same (h : PaysOnce s m) (hs : s.Same s') {m' : Stage → ℕ}
    (hm : ∀ b ∉ [.outside, .marked, .asking, Stage.dropping], m' b = m b) : PaysOnce s' m' := by
  have hway : underWay m' = underWay m := by
    rw [underWay, underWay, hm _ (by decide), hm _ (by decide), hm _ (by decide),
      hm _ (by decide)]
  obtain ⟨hstatus, hlock, hpayouts, hlocks, -⟩ := hs
  constructor <;>
    simp only [hway, hstatus, hlock, hpayouts, hlocks, hm .locking (by decide),
      hm .releasing (by decide), hm .cancelling (by decide), hm .resolving (by decide),
      hm .reverting (by decide), hm .recording (by decide), hm .deciding (by decide)]
  exacts [h.once, h.unpaid, h.settled, h.locked, h.reserved, h.releasing, h.cancelling, h.resolving,
    h.recorded, h.unlocked]

/-! ### Steps -/

lemma underWay_single (a : Stage) : underWay (Pi.single a 1 + rest) =
    (if a ∈ [.releasing, .cancelling, .resolving, Stage.reverting] then 1 else 0) +
      underWay rest := by
  simp only [underWay, single_stage]
  cases a <;> simp <;> omega

lemma PaysOnce.unrecorded (h : PaysOnce s m) (hpayouts : s.payouts = 0) :
    m .recording + m .deciding = 0 := by
  by_contra hne
  have := h.recorded (Nat.pos_of_ne_zero hne)
  omega

/-- A call that has reserved a payout is the only one. -/
lemma PaysOnce.unpaid_of_underWay (h : PaysOnce s (Pi.single stage 1 + rest))
    (hstage : stage ∈ [.releasing, .cancelling, .resolving, Stage.reverting]) :
    s.payouts + underWay rest = 0 := by
  have honce := h.once
  rw [underWay_single, if_pos hstage] at honce
  omega

/-- Between stages at which a call has nothing to do with a payout. -/
lemma PaysOnce.pass (h : PaysOnce s (Pi.single stage 1 + rest))
    (hstage : stage ∈ [.outside, .marked, .asking, Stage.dropping])
    (hstage' : stage' ∈ [.outside, .marked, .asking, Stage.dropping]) :
    PaysOnce s (Pi.single stage' 1 + rest) := by
  refine h.same s.same_self fun b hb => ?_
  have hne : b ≠ stage := fun heq => hb (heq ▸ hstage)
  have hne' : b ≠ stage' := fun heq => hb (heq ▸ hstage')
  rw [single_stage, single_stage, if_neg hne, if_neg hne']

/-- A new status while nothing is paid or under way. -/
lemma PaysOnce.freeze (h : PaysOnce s (Pi.single stage 1 + rest)) {status : P2PTradeStatus}
    (hunpaid : s.payouts + underWay rest = 0) (hs : s.Sets s' status)
    (hstatus : status ∈ [.FIAT_SENT, .DISPUTED, P2PTradeStatus.CANCELLED])
    (hdisputed : status = .DISPUTED → s.trade.escrowLockTx ≠ none)
    (hcancelled : status = .CANCELLED →
      s.trade.escrowLockTx = none ∧ s.locks ≤ rest .locking)
    (hstage' : stage' ∈ [.outside, Stage.marked]) : PaysOnce s' (Pi.single stage' 1 + rest) := by
  have hrecorded := h.unrecorded (by omega)
  simp only [List.mem_cons, List.not_mem_nil, or_false] at hstatus hstage'
  simp only [single_stage] at hrecorded
  refine .of_unpaid ?_ ?_ ?_ ?_ ?_
  · rw [hs.payouts, underWay_single]
    rcases hstage' with rfl | rfl <;> simpa using hunpaid
  · simp only [single_stage]
    rcases hstage' with rfl | rfl <;> simp <;> omega
  · rw [hs.status, hs.lockTx]
    rcases hstatus with rfl | rfl | rfl
    · simp
    · simp
    · exact fun _ => (hcancelled rfl).1
  · rw [hs.status, hs.lockTx]
    rcases hstatus with rfl | rfl | rfl
    · simp
    · exact fun _ => hdisputed rfl
    · simp
  · rw [hs.status, hs.locks]
    rcases hstatus with rfl | rfl | rfl
    · simp
    · simp
    · exact fun _ _ => (hcancelled rfl).2.trans (Nat.le_add_left _ _)

/-- A payout is reserved while none is paid or under way. -/
lemma PaysOnce.reserve (h : PaysOnce s (Pi.single stage 1 + rest)) {status : P2PTradeStatus}
    (hunpaid : s.payouts + underWay rest = 0) (hs : s.Sets s' status)
    (hlock : s.trade.escrowLockTx ≠ none)
    (hstage' : status = .RELEASED ∧ stage' = .releasing ∨
      status = .CANCELLED ∧ stage' = .cancelling ∨ status = .RESOLVING ∧ stage' = .resolving) :
    PaysOnce s' (Pi.single stage' 1 + rest) := by
  have hrecorded := h.unrecorded (by omega)
  have hsum : rest .releasing + rest .cancelling + rest .resolving + rest .reverting = 0 := by
    simp only [underWay] at hunpaid
    omega
  simp only [single_stage] at hrecorded
  refine .of_underWay ?_ ?_ ?_ ?_ ?_
  · rw [hs.payouts]
    omega
  · rw [underWay_single]
    rcases hstage' with ⟨-, rfl⟩ | ⟨-, rfl⟩ | ⟨-, rfl⟩ <;> simp <;> omega
  · simp only [single_stage]
    rcases hstage' with ⟨-, rfl⟩ | ⟨-, rfl⟩ | ⟨-, rfl⟩ <;> simp <;> omega
  · rwa [hs.lockTx]
  · simp only [hs.status, single_stage]
    rcases hstage' with ⟨rfl, rfl⟩ | ⟨rfl, rfl⟩ | ⟨rfl, rfl⟩
    · exact .inl ⟨rfl, by simp; omega⟩
    · exact .inr (.inl ⟨rfl, by simp; omega⟩)
    · exact .inr (.inr ⟨rfl, by simp; omega⟩)

/-- The executor makes a reserved payout. -/
lemma PaysOnce.pay (h : PaysOnce s (Pi.single stage 1 + rest)) (hs : s.Pays s')
    (hstage : stage ∈ [.releasing, .cancelling, Stage.resolving])
    (hstage' : stage' ∈ [.recording, .outside, Stage.deciding]) :
    PaysOnce s' (Pi.single stage' 1 + rest) := by
  simp only [List.mem_cons, List.not_mem_nil, or_false] at hstage hstage'
  have hunpaid : s.payouts + underWay rest = 0 :=
    h.unpaid_of_underWay (by rcases hstage with rfl | rfl | rfl <;> decide)
  have hlock := h.reserved
  have hreleasing := h.releasing
  have hcancelling := h.cancelling
  have hresolving := h.resolving
  rw [underWay_single] at hlock
  simp only [single_stage] at hreleasing hcancelling hresolving
  have hpayouts := hs.payouts
  refine .of_paid (by omega) ?_ ?_ ?_
  · rw [underWay_single]
    rcases hstage' with rfl | rfl | rfl <;> simp <;> omega
  · rw [hs.trade]
    rcases hstage with rfl | rfl | rfl
    · simp [hreleasing (by simp)]
    · simp [hcancelling (by simp)]
    · simp [hresolving (by simp)]
  · rw [hs.trade]
    rcases hstage with rfl | rfl | rfl <;> exact hlock (by simp)

/-- A payout that is made settles the trade. -/
lemma PaysOnce.settle (h : PaysOnce s (Pi.single stage 1 + rest)) {status : P2PTradeStatus}
    (hpaid : 0 < s.payouts) (hs : s.Sets s' status)
    (hstatus : status ∈ [.COMPLETED, P2PTradeStatus.CANCELLED]) :
    PaysOnce s' (Pi.single .outside 1 + rest) := by
  have honce := h.once
  rw [underWay_single] at honce
  simp only [List.mem_cons, List.not_mem_nil, or_false] at hstatus
  refine .of_paid ?_ ?_ ?_ ?_
  · rw [hs.payouts]
    omega
  · rw [underWay_single]
    simp
    omega
  · rw [hs.status]
    rcases hstatus with rfl | rfl <;> simp
  · rw [hs.lockTx]
    exact h.reserved (by omega)

/-- The executor locks the crypto, which the row is told, or need not know. -/
lemma PaysOnce.lock (h : PaysOnce s (Pi.single .outside 1 + rest)) (htrade : s'.trade = s.trade)
    (hpayouts : s'.payouts = s.payouts) (hlocks : s'.locks = s.locks + 1)
    (hstage' : stage' = .locking ∨ stage' = .outside ∧ (s.trade.escrowLockTx = none →
      s.trade.status ∉ [.COMPLETED, P2PTradeStatus.CANCELLED])) :
    PaysOnce s' (Pi.single stage' 1 + rest) := by
  have hway : underWay (Pi.single stage' 1 + rest) = underWay (Pi.single .outside 1 + rest) := by
    rcases hstage' with rfl | ⟨rfl, -⟩ <;> simp [underWay_single]
  have hreleasing := h.releasing
  have hcancelling := h.cancelling
  have hresolving := h.resolving
  have hrecorded := h.recorded
  have hunlocked := h.unlocked
  simp only [single_stage, reduceCtorEq, if_false, zero_add] at hreleasing hcancelling hresolving
  simp only [single_stage, reduceCtorEq, if_false, zero_add] at hrecorded hunlocked
  rcases hstage' with rfl | ⟨rfl, hlate⟩
  · constructor <;>
      simp only [hway, htrade, hpayouts, hlocks, single_stage, reduceCtorEq, if_true, if_false,
        zero_add]
    exacts [h.once, h.unpaid, h.settled, h.locked, h.reserved, hreleasing, hcancelling, hresolving,
      hrecorded, fun hnone hstatus => by have := hunlocked hnone hstatus; omega]
  · constructor <;>
      simp only [htrade, hpayouts, hlocks, single_stage, reduceCtorEq, if_false, zero_add]
    exacts [h.once, h.unpaid, h.settled, h.locked, h.reserved, hreleasing, hcancelling, hresolving,
      hrecorded, fun hnone hstatus => absurd hstatus (hlate hnone)]

/-- Nothing is under way from a status in which nothing is reserved. -/
lemma PaysOnce.unpaid_rest (h : PaysOnce s (Pi.single stage 1 + rest))
    (hstatus : s.trade.status ∈ [.INITIATED, .FIAT_PENDING, .FIAT_SENT, .ESCROW_LOCKED,
      P2PTradeStatus.DISPUTED]) : s.payouts + underWay rest = 0 := by
  have hunpaid := h.unpaid hstatus
  rw [underWay_single] at hunpaid
  omega

theorem PaysOnce.move (h : PaysOnce s (Pi.single stage 1 + rest))
    (hc : Careful s rest stage answer) (hm : Move s stage answer s' stage') :
    PaysOnce s' (Pi.single stage' 1 + rest) := by
  cases hm with
  | idle hs           => exact h.same hs fun _ _ => rfl
  | ask               => exact h.pass (by decide) (by decide)
  | refuseReserve     => exact h.pass (by decide) (by decide)
  | beginDrop         => exact h.pass (by decide) (by decide)
  | lock htrade hpayouts hlocks _ => exact h.lock htrade hpayouts hlocks (.inl rfl)
  | lockUnrecorded htrade hpayouts hlocks _ =>
    exact h.lock htrade hpayouts hlocks (.inr ⟨rfl, hc rfl⟩)
  | writeLock hstatus hlockTx hpayouts _ _ =>
    have hunpaid : s.payouts + underWay rest = 0 := hc
    have hrecorded := h.unrecorded (by omega)
    simp only [single_stage] at hrecorded
    refine .of_unpaid ?_ ?_ ?_ (fun _ => hlockTx) fun hnone _ => absurd hnone hlockTx
    · simpa [underWay_single, hpayouts] using hunpaid
    · simpa [single_stage] using hrecorded
    · simp [hstatus]
  | mark hstatus hs =>
    have hunpaid := h.unpaid_rest (by
      simp only [List.mem_cons, List.not_mem_nil, or_false] at hstatus
      rcases hstatus with h' | h' | h' <;> simp [h'])
    exact h.freeze hunpaid hs (by decide) nofun nofun (by decide)
  | reserveDispute hlockTx hstatus hs =>
    have hunpaid := h.unpaid_rest (by
      simp only [List.mem_cons, List.not_mem_nil, or_false] at hstatus
      rcases hstatus with h' | h' <;> simp [h'])
    exact h.freeze hunpaid hs (by decide) (fun _ => hlockTx) nofun (by decide)
  | revert hs =>
    have hlockTx := h.reserved (by simp [underWay_single])
    exact h.freeze (h.unpaid_of_underWay (by decide)) hs (by decide) (fun _ => hlockTx) nofun
      (by decide)
  | reserveRelease hlockTx hstatus hs =>
    have hunpaid : s.payouts + underWay rest = 0 := by
      simp only [List.mem_cons, List.not_mem_nil, or_false] at hstatus
      rcases hstatus with h' | h' | h'
      · exact h.unpaid_rest (by simp [h'])
      · exact h.unpaid_rest (by simp [h'])
      · exact hc h'
    exact h.reserve hunpaid hs hlockTx (.inl ⟨rfl, rfl⟩)
  | reserveCancel hstatus hs =>
    exact h.reserve (h.unpaid_rest (by simp [hstatus])) hs (h.locked (by simp [hstatus]))
      (.inr (.inl ⟨rfl, rfl⟩))
  | reserveResolve hstatus hs =>
    exact h.reserve (h.unpaid_rest (by simp [hstatus])) hs (h.locked (by simp [hstatus]))
      (.inr (.inr ⟨rfl, rfl⟩))
  | release hs _ | releaseUnrecorded hs _ => exact h.pay hs (by decide) (by decide)
  | cancel hs         => exact h.pay hs (by decide) (by decide)
  | resolve hs        => exact h.pay hs (by decide) (by decide)
  | refuseCancel | resolveUnrecorded => exact absurd rfl hc
  | refuseRelease =>
    have hlockTx := h.reserved (by simp [underWay_single])
    have hstatus := h.releasing (by simp)
    have hunpaid := h.unpaid_of_underWay (by decide)
    have hrecorded := h.unrecorded (by omega)
    refine .of_unpaid ?_ ?_ ?_ (fun _ => hlockTx) fun hnone _ => absurd hnone hlockTx
    · simpa [underWay_single] using hunpaid
    · simpa [single_stage] using hrecorded
    · simp [hstatus]
  | refuseResolve =>
    have hlockTx := h.reserved (by simp [underWay_single])
    have hstatus := h.resolving (by simp)
    have hunpaid := h.unpaid_of_underWay (by decide)
    have hrecorded := h.unrecorded (by omega)
    have hsum : rest .releasing + rest .cancelling + rest .resolving + rest .reverting = 0 := by
      simp only [underWay] at hunpaid
      omega
    refine .of_underWay (by omega) ?_ ?_ hlockTx (.inr (.inr ⟨hstatus, ?_⟩))
    · simp [underWay_single]
      omega
    · simpa [single_stage] using hrecorded
    · simp
      omega
  | recordRelease hs  => exact h.settle (h.recorded (by simp)) hs (by decide)
  | decide hstatus hs => exact h.settle (h.recorded (by simp)) hs hstatus
  | drop hs =>
    rcases hc with ⟨hnone, hlocks⟩ | hcancelled | hpaid
    · have hzero : s.payouts + underWay (Pi.single .dropping 1 + rest) = 0 := by
        by_contra hne
        exact h.reserved (Nat.pos_of_ne_zero hne) hnone
      rw [underWay_single] at hzero
      exact h.freeze (by simpa using hzero) hs (by decide) nofun (fun _ => ⟨hnone, hlocks⟩)
        (by decide)
    · have hsame : s.Same s' := ⟨by rw [hs.status, hcancelled], hs.lockTx, hs.payouts, hs.locks,
        hs.refunds⟩
      exact (h.pass (by decide) (by decide)).same hsame fun _ _ => rfl
    · exact h.settle hpaid hs (by decide)

/-! ### Runs -/

variable {n : ℕ} {checksum : String → Option Address}

/-- At most one payout, and exactly one once what was locked is settled: unless the row does not
know of the lock yet, or the refund it speaks of is still under way. -/
structure Config.PaidOnce (c : Config n) : Prop where
  once : c.shared.payouts ≤ 1
  settled : c.total count .locking = 0 → c.total count .cancelling = 0 → 0 < c.shared.locks →
    c.shared.trade.status ∈ [.COMPLETED, P2PTradeStatus.CANCELLED] → c.shared.payouts = 1

lemma PaysOnce.paidOnce {c : Config n} (h : PaysOnce c.shared (c.total count)) : c.PaidOnce where
  once := by
    have := h.once
    omega
  settled hlocking hcancelling hlocks hstatus := by
    have hlockTx : c.shared.trade.escrowLockTx ≠ none := fun hnone => by
      have := h.unlocked hnone hstatus
      omega
    have hsettled := h.settled hstatus hlockTx
    have hreleasing : c.total count .releasing = 0 := by
      by_contra hne
      simp [h.releasing (Nat.pos_of_ne_zero hne)] at hstatus
    have hresolving : c.total count .resolving + c.total count .reverting = 0 := by
      by_contra hne
      simp [h.resolving (Nat.pos_of_ne_zero hne)] at hstatus
    simp only [underWay] at hsettled
    omega

/-- No call has begun. -/
lemma initial_count (terms : Terms) (calls : Fin n → Call) (b : Stage) :
    (initial terms calls).total count b = if b = .outside then n else 0 := by
  have hstage : ∀ i, ((initial terms calls).procs i).stage = .outside := by
    intro i
    dsimp only [initial]
    cases calls i <;> rfl
  simp [Program.Config.total, Finset.sum_apply, count, hstage, Pi.single_apply]

lemma paysOnce_initial (terms : Terms) (calls : Fin n → Call) :
    PaysOnce (initial terms calls).shared ((initial terms calls).total count) := by
  refine .of_unpaid ?_ ?_ (by simp [initial, Terms.trade]) (by simp [initial, Terms.trade])
    fun _ _ => Nat.zero_le _
  · simp only [underWay, initial_count, reduceCtorEq, if_false]
    rfl
  · simp [initial_count]

/-- Every careful step of a call keeps the invariant. -/
lemma paysOnce_inductive (checksum : String → Option Address) :
    (program checksum).Inductive count PaysOnce (fun _ _ => True)
      (fun s rest p answer => Careful s rest p.stage answer) (fun _ _ _ => True) where
  step hI _ hC hstep := by
    rw [program_step] at hstep
    exact ⟨hI.move hC (step_move hstep), trivial⟩
  stable _ _ _ _ _ _ := trivial
  environment {_ _ event _} := nomatch event

/-- Whatever calls work on a trade, in any order: where each step is careful, the escrow pays once,
in each state of the run. -/
theorem paidOnce_of_careful (checksum : String → Option Address) (terms : Terms)
    (calls : Fin n → Call) (acts : List (Action n))
    (h : ((program checksum).machine n).Along (Program.Meets count
      (fun s rest p answer => Careful s rest p.stage answer) fun _ _ _ => True)
      (initial terms calls) acts) :
    ∀ acts', acts' <+: acts →
      Config.PaidOnce (((program checksum).machine n).run (initial terms calls) acts') := by
  intro acts' hinit
  have hrun := (paysOnce_inductive checksum).run acts'
    ⟨paysOnce_initial terms calls, fun _ => trivial⟩ (h.of_initial hinit)
  exact hrun.shared.paidOnce

/-! ### Two releases -/

def nativeTerms : Terms where
  source := .NATIVE
  takerUserId := 1
  makerUserId := some 2
  cryptoAmount := "100"
  cryptoChain := "base"
  buyerAddress := some "buyer"
  sellerAddress := some "seller"

/-- The seller locks, and two operators release. -/
def lockAndTwoReleases : Fin 3 → Call
  | 0 => .lockEscrow none
  | _ => .releaseEscrow none

def lockedBy (i : Fin n) : List (Action n) :=
  [.take i .none, .take i (.sellerWallet (some 7)), .take i (.sent "lock"), .take i .none]

/-- The first release is over before the second one starts. -/
theorem one_release_after_another :
    Config.PaidOnce (((program some).machine 3).run (initial nativeTerms lockAndTwoReleases)
      (lockedBy 0 ++ [.take 1 .none, .take 1 .none, .take 1 (.sent "release"), .take 1 .none,
        .take 2 .none, .take 2 .none])) :=
  paidOnce_of_careful some nativeTerms lockAndTwoReleases _ (by decide +kernel) _
    (List.prefix_refl _)

/-- Both releases reserve the trade before either is recorded, and both pay. -/
theorem two_releases_pay_twice :
    ¬ ∀ (n : ℕ) (checksum : String → Option Address) (terms : Terms) (calls : Fin n → Call)
      (acts : List (Action n)), terms.source = .NATIVE →
      Config.PaidOnce (((program checksum).machine n).run (initial terms calls) acts) := by
  intro h
  have htwice := (h 3 some nativeTerms lockAndTwoReleases
    (lockedBy 0 ++ [.take 1 .none, .take 1 .none, .take 2 .none, .take 2 .none,
      .take 1 (.sent "first"), .take 2 (.sent "second")]) rfl).once
  revert htwice
  decide +kernel

end Suwappu.P2P
