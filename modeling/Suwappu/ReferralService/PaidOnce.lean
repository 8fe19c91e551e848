import Suwappu.Lib.Rows
import Suwappu.ReferralService.Payouts

/-!
# Referral rewards are paid once

`paid_once`: however claims, approvals and rejections interleave, no reward is credited twice, a
payout is credited with the sum of the rewards that bear its id, and a reward is part of a payout
that is not closed, or else claimable; those of a payout that fails or is rejected are claimable as
the call returns.
-/

namespace Suwappu.ReferralService

/-- The payout is over and was not paid. -/
def PayoutStatus.closed : PayoutStatus → Bool
  | .failed | .rejected => true
  | .processing | .pendingReview | .approving | .completed => false

/-- The payout is closed by a step between the states. -/
def Closes (s s' : State) (p : PayoutId) : Prop :=
  ∃ status, s'.status p = some status ∧ status.closed = true ∧ s.status p ≠ some status

/-- What the states and the steps of a run keep. -/
structure PaidOnce {n : ℕ} (c : Program.Config State Proc n) : Prop where
  once : ((c.shared.credits.flatMap Credit.rewards).map Prod.snd).Nodup
  payouts : (c.shared.credits.map Credit.payoutId).Nodup
  sum : ∀ credit ∈ c.shared.credits,
    (∀ row ∈ credit.rewards, row.1.payoutId = some credit.payoutId) ∧
      credit.amount = claimedUsd (credit.rewards.map Prod.fst)
  claimable : ∀ r ∈ c.shared.rewards, r.isPaid = false → ∀ p payout,
    c.shared.payouts[p]? = some payout → payout.status.closed = false → r.payoutId ≠ some p
  part : ∀ r ∈ c.shared.rewards, r.isPaid = true → ∃ p payout,
    r.payoutId = some p ∧ c.shared.payouts[p]? = some payout ∧ payout.status.closed = false
  released : ∀ {i answer c'}, (program.machine n).step c (.take i answer) = .ok c' →
    ∀ p, Closes c.shared c'.shared p → c'.procs i = .idle ∧
      ∀ row ∈ c.shared.stamped p, ∃ r, c'.shared.rewards[row.2]? = some r ∧ r.isPaid = false

variable {s s' : State} {p q : PayoutId} {pr pr' : Proc} {rest : PayoutId → ℕ}
  {status new : PayoutStatus} {userId : UserId} {amount : ℚ}

/-! ### Tables -/

lemma status_eq_some {payout : Payout} (h : s.payouts[p]? = some payout) :
    s.status p = some payout.status := by
  rw [State.status, h]
  rfl

@[simp] lemma stamped_setStatus : (s.setStatus p new).stamped q = s.stamped q := rfl

lemma status_setStatus : (s.setStatus p new).status q =
    if p = q then (s.status q).map fun _ => new else s.status q := by
  rw [State.status, State.setStatus, State.status]
  split_ifs with hpq
  · rw [hpq, List.getElem?_modify_eq]
    cases s.payouts[q]? <;> rfl
  · exact congrArg _ (List.getElem?_modify_ne _ _ hpq)

lemma getElem?_setStatus (h : p ≠ q) : (s.setStatus p new).payouts[q]? = s.payouts[q]? :=
  List.getElem?_modify_ne _ _ h

lemma stamped_fst : (s.stamped p).map Prod.fst =
    s.rewards.filter fun r => r.payoutId = some p :=
  Rows.map_fst_filter_zipIdx (p := fun r : Reward => decide (r.payoutId = some p)) _

/-! ### The invariant -/

/-- A call has the payout in hand. -/
def PayoutStatus.busy : PayoutStatus → Bool
  | .processing | .approving => true
  | .pendingReview | .completed | .failed | .rejected => false

/-- The payout may have been credited. -/
def PayoutStatus.credited : PayoutStatus → Bool
  | .processing | .approving | .completed => true
  | .pendingReview | .failed | .rejected => false

def Proc.payout : Proc → Option PayoutId
  | .idle                                   => none
  | .credit p _ _ | .restore p | .complete p => some p
  | .approveCredit p _ _ | .resetReview p | .completeApproval p => some p

def weight (pr : Proc) (p : PayoutId) : ℕ := if pr.payout = some p then 1 else 0

def State.creditedIds (s : State) : List PayoutId := s.credits.map Credit.payoutId

structure Sound (s : State) (total : PayoutId → ℕ) : Prop where
  paid : ∀ r ∈ s.rewards, r.isPaid = r.payoutId.isSome
  held : ∀ r ∈ s.rewards, ∀ p ∈ r.payoutId,
    ∃ status, s.status p = some status ∧ status.closed = false
  one : ∀ p, total p ≤ 1
  busy : ∀ p, 0 < total p → ∃ status, s.status p = some status ∧ status.busy = true
  amounts : ∀ p payout, s.payouts[p]? = some payout → payout.status.closed = false →
    payout.amountUsd = claimedUsd ((s.stamped p).map Prod.fst)
  credited : ∀ p ∈ s.creditedIds, ∃ status, s.status p = some status ∧ status.credited = true
  credits : ∀ credit ∈ s.credits, credit.rewards = s.stamped credit.payoutId ∧
    credit.amount = claimedUsd (credit.rewards.map Prod.fst)
  distinct : s.creditedIds.Nodup

def Knows (s : State) : Proc → Prop
  | .idle => True
  | .credit p userId amount =>
    s.payouts[p]? = some ⟨userId, amount, .processing⟩ ∧ p ∉ s.creditedIds
  | .restore p => s.status p = some .processing ∧ p ∉ s.creditedIds
  | .complete p => s.status p = some .processing
  | .approveCredit p userId amount =>
    s.payouts[p]? = some ⟨userId, amount, .approving⟩ ∧ p ∉ s.creditedIds
  | .resetReview p => s.status p = some .approving ∧ p ∉ s.creditedIds
  | .completeApproval p => s.status p = some .approving

/-- The payouts that others have in hand stay as they are. -/
structure Frame (s s' : State) (rest : PayoutId → ℕ) : Prop where
  payouts : ∀ p, 0 < rest p → s'.payouts[p]? = s.payouts[p]?
  credited : ∀ p, 0 < rest p → (p ∈ s'.creditedIds ↔ p ∈ s.creditedIds)

lemma Frame.refl (s : State) (rest : PayoutId → ℕ) : Frame s s rest :=
  ⟨fun _ _ => rfl, fun _ _ => Iff.rfl⟩

lemma Frame.knows (h : Frame s s' rest) (hpr : weight pr ≤ rest) (hknows : Knows s pr) :
    Knows s' pr := by
  have hpos : ∀ p, pr.payout = some p → 0 < rest p := by
    intro p hp
    have hle := hpr p
    rw [weight, if_pos hp] at hle
    exact hle
  have hstatus : ∀ p, 0 < rest p → s'.status p = s.status p := fun p hp => by
    rw [State.status, h.payouts p hp, State.status]
  cases pr with
  | idle => trivial
  | credit p | approveCredit p =>
    have hp := hpos p rfl
    exact ⟨(h.payouts p hp).trans hknows.1, fun hmem => hknows.2 ((h.credited p hp).mp hmem)⟩
  | restore p | resetReview p =>
    have hp := hpos p rfl
    exact ⟨(hstatus p hp).trans hknows.1, fun hmem => hknows.2 ((h.credited p hp).mp hmem)⟩
  | complete p | completeApproval p => exact (hstatus p (hpos p rfl)).trans hknows

/-- What a step keeps. -/
structure Kept (s : State) (rest : PayoutId → ℕ) (s' : State) (pr' : Proc) :
    Prop where
  sound : Sound s' (weight pr' + rest)
  knows : Knows s' pr'
  frame : Frame s s' rest

/-! ### A new payout -/

section

variable {payout : Payout} (hpaid : ∀ r ∈ s.rewards, r.isPaid = r.payoutId.isSome)

lemma getElem?_insertPayout_self (s : State) (payout : Payout) :
    (s.insertPayout payout).payouts[s.payouts.length]? = some payout :=
  List.getElem?_concat_length

lemma getElem?_insertPayout (h : s.payouts.length ≠ q) :
    (s.insertPayout payout).payouts[q]? = s.payouts[q]? := by
  change (s.payouts ++ [payout])[q]? = s.payouts[q]?
  rcases lt_or_gt_of_ne h with hlt | hlt
  · rw [List.getElem?_eq_none hlt.le, List.getElem?_eq_none]
    rw [List.length_append, List.length_singleton]
    exact hlt
  · exact List.getElem?_append_left hlt

/-- Its rewards are those that were claimable. -/
lemma claimedUsd_insertPayout (hfree : ∀ r ∈ s.rewards, r.payoutId ≠ some s.payouts.length) :
    claimedUsd (((s.insertPayout payout).stamped s.payouts.length).map Prod.fst) =
      claimedUsd (s.rewards.filter (s.claimable payout.userId)) := by
  rw [stamped_fst]
  change claimedUsd ((s.rewards.map _).filter _) = _
  have hchosen : ∀ r ∈ s.rewards,
      ((fun r : Reward => decide (r.payoutId = some s.payouts.length)) ∘ fun r =>
        if s.claimable payout.userId r then r.pay s.payouts.length else r) r =
          s.claimable payout.userId r := by
    intro r hr
    cases hclaim : s.claimable payout.userId r with
    | false => simpa [hclaim] using hfree r hr
    | true => simp [hclaim, Reward.pay]
  rw [List.filter_map, List.filter_congr hchosen, claimedUsd, List.map_map, claimedUsd]
  refine congrArg (fun l : List ℚ => float l.sum) (List.map_congr_left fun r hr => ?_)
  simp [(List.mem_filter.mp hr).2, Reward.pay]

include hpaid

lemma payoutId_of_claimable {r : Reward} (hr : r ∈ s.rewards)
    (hclaim : s.claimable userId r = true) : r.payoutId = none := by
  have hunpaid := hpaid r hr
  rw [(of_decide_eq_true hclaim).1] at hunpaid
  exact Option.not_isSome_iff_eq_none.mp fun hsome => Bool.false_ne_true (hunpaid.trans hsome)

lemma stamped_insertPayout (h : s.payouts.length ≠ q) :
    (s.insertPayout payout).stamped q = s.stamped q := by
  refine Rows.filter_zipIdx_map (p := fun r : Reward => decide (r.payoutId = some q))
    (fun r hr => ?_) fun r hr hchosen => ?_
  · split_ifs with hclaim
    · simp [Reward.pay, payoutId_of_claimable hpaid hr hclaim, h]
    · rfl
  · rw [if_neg]
    intro hclaim
    have hq := of_decide_eq_true hchosen
    rw [payoutId_of_claimable hpaid hr hclaim] at hq
    cases hq

end

namespace Sound

/-- No reward is part of a payout that there is not. -/
lemma payoutId_ne {total : PayoutId → ℕ} (h : Sound s total) (hnone : s.status p = none)
    (r : Reward) (hr : r ∈ s.rewards) : r.payoutId ≠ some p := by
  intro heq
  obtain ⟨status, hstatus, -⟩ := h.held r hr p heq
  rw [hnone] at hstatus
  cases hstatus

lemma not_credited {total : PayoutId → ℕ} (h : Sound s total)
    (hstatus : s.status p = some status) (hcredited : status.credited = false) :
    p ∉ s.creditedIds := by
  intro hmem
  obtain ⟨status', hstatus', hcredited'⟩ := h.credited p hmem
  obtain rfl := Option.some.inj (hstatus.symm.trans hstatus')
  rw [hcredited] at hcredited'
  cases hcredited'

lemma rest_eq_zero (h : Sound s (weight pr + rest)) (hp : pr.payout = some p) : rest p = 0 := by
  have hone := h.one p
  rw [Pi.add_apply, weight, if_pos hp] at hone
  omega

/-- Nobody has a payout in hand that is in no such status. -/
lemma rest_eq_zero_of_status (h : Sound s (weight pr + rest))
    (hstatus : ∀ status, s.status p = some status → status.busy = false) : rest p = 0 := by
  by_contra hne
  have hpos : 0 < (weight pr + rest) p := by
    rw [Pi.add_apply]
    omega
  obtain ⟨status, hs, hbusy⟩ := h.busy p hpos
  rw [hstatus status hs] at hbusy
  cases hbusy

/-- The call ends, or keeps the payout that it has. -/
lemma move (h : Sound s (weight pr + rest)) (hpr : pr'.payout = none ∨ pr'.payout = pr.payout)
    (hknows : Knows s pr') : Kept s rest s pr' := by
  have hle : ∀ p, (weight pr' + rest) p ≤ (weight pr + rest) p := by
    intro p
    rw [Pi.add_apply, Pi.add_apply]
    rcases hpr with hpr | hpr
    · simp [weight, hpr]
    · rw [weight, hpr, weight]
  exact ⟨⟨h.paid, h.held, fun p => (hle p).trans (h.one p),
    fun p hp => h.busy p (hp.trans_le (hle p)), h.amounts, h.credited, h.credits, h.distinct⟩,
    hknows, .refl s rest⟩

/-- A payout of which nobody else has hold changes from one status to another one that is not
closed either. -/
lemma setStatus (h : Sound s (weight pr + rest)) (hrest : rest p = 0)
    (hstatus : s.status p = some status) (hopen : status.closed = false) (hnew : new.closed = false)
    (hcredited : new.credited = true ∨ p ∉ s.creditedIds)
    (hpr : pr'.payout = none ∨ pr'.payout = some p ∧ new.busy = true)
    (hknows : Knows (s.setStatus p new) pr') : Kept s rest (s.setStatus p new) pr' where
  sound := by
    have hself : (s.setStatus p new).status p = some new := by
      rw [status_setStatus, if_pos rfl, hstatus]
      rfl
    have hother : ∀ q, p ≠ q → (s.setStatus p new).status q = s.status q := fun q hq => by
      rw [status_setStatus, if_neg hq]
    have htotal : ∀ q, p ≠ q → (weight pr' + rest) q ≤ (weight pr + rest) q := by
      intro q hq
      have hzero : weight pr' q = 0 := by
        rcases hpr with hnone | ⟨hsome, -⟩
        · simp [weight, hnone]
        · simp [weight, hsome, hq]
      rw [Pi.add_apply, Pi.add_apply, hzero]
      omega
    refine ⟨h.paid, fun r hr q hq => ?_, fun q => ?_, fun q hq => ?_, fun q payout hq hclosed => ?_,
      fun q hq => ?_, h.credits, h.distinct⟩
    · rcases eq_or_ne p q with rfl | hpq
      · exact ⟨new, hself, hnew⟩
      · rw [hother q hpq]
        exact h.held r hr q hq
    · rcases eq_or_ne p q with rfl | hpq
      · rw [Pi.add_apply, hrest, weight]
        split_ifs <;> omega
      · exact (htotal q hpq).trans (h.one q)
    · rcases eq_or_ne p q with rfl | hpq
      · rcases hpr with hnone | ⟨-, hbusy⟩
        · simp [weight, hnone, hrest] at hq
        · exact ⟨new, hself, hbusy⟩
      · rw [hother q hpq]
        exact h.busy q (hq.trans_le (htotal q hpq))
    · rcases eq_or_ne p q with rfl | hpq
      · obtain ⟨old, hold, rfl⟩ := Option.map_eq_some_iff.mp hstatus
        rw [State.setStatus, List.getElem?_modify_eq, hold] at hq
        obtain rfl := Option.some.inj hq
        exact h.amounts p old hold hopen
      · rw [getElem?_setStatus hpq] at hq
        exact h.amounts q payout hq hclosed
    · rcases eq_or_ne p q with rfl | hpq
      · exact ⟨new, hself, hcredited.resolve_right fun hmem => hmem hq⟩
      · rw [hother q hpq]
        exact h.credited q hq
  knows := hknows
  frame := by
    refine ⟨fun q hq => getElem?_setStatus ?_, fun _ _ => Iff.rfl⟩
    rintro rfl
    omega

/-- A payout that is in hand and not credited is credited. -/
lemma credit (h : Sound s (weight pr + rest)) {payout : Payout} (hpr : pr.payout = some p)
    (hnext : pr' = .complete p ∨ pr' = .completeApproval p) (hpayout : s.payouts[p]? = some payout)
    (hcredited : payout.status.credited = true) (hopen : payout.status.closed = false)
    (hnew : p ∉ s.creditedIds) (hknows : Knows s pr') :
    Kept s rest (s.credit p userId payout.amountUsd) pr' where
  sound := by
    have hweight : weight pr' = weight pr := by
      funext q
      rcases hnext with rfl | rfl <;> rw [weight, weight, hpr] <;> rfl
    have hids : (s.credit p userId payout.amountUsd).creditedIds = s.creditedIds ++ [p] :=
      List.map_append
    refine ⟨h.paid, h.held, hweight ▸ h.one, hweight ▸ h.busy, h.amounts, fun q hq => ?_,
      fun credit hcredit => ?_, ?_⟩
    · rw [hids] at hq
      rcases List.mem_append.mp hq with hq | hq
      · exact h.credited q hq
      · obtain rfl := List.mem_singleton.mp hq
        exact ⟨payout.status, status_eq_some hpayout, hcredited⟩
    · rcases List.mem_append.mp hcredit with hcredit | hcredit
      · exact h.credits credit hcredit
      · obtain rfl := List.mem_singleton.mp hcredit
        exact ⟨rfl, h.amounts p payout hpayout hopen⟩
    · rw [hids]
      exact List.nodup_append'.mpr ⟨h.distinct, List.nodup_singleton p,
        fun q hq hp => hnew (List.mem_singleton.mp hp ▸ hq)⟩
  knows := by rcases hnext with rfl | rfl <;> exact hknows
  frame := by
    refine ⟨fun _ _ => rfl, fun q hq => ?_⟩
    have hzero := h.rest_eq_zero hpr
    have hne : q ≠ p := by
      rintro rfl
      omega
    simp [State.creditedIds, State.credit, hne]

/-- The rewards of a payout become claimable as it is closed. -/
lemma release (h : Sound s (weight pr + rest)) {paid : Bool} (hrest : rest p = 0)
    (hstatus : s.status p = some status) (hclosed : new.closed = true) (hnew : p ∉ s.creditedIds) :
    Kept s rest ((s.release p paid).setStatus p new) .idle where
  sound := by
    have hother : ∀ q, p ≠ q → ((s.release p paid).setStatus p new).status q = s.status q :=
      fun q hq => by
        rw [status_setStatus, if_neg hq]
        rfl
    have hstamped : ∀ q, p ≠ q →
        ((s.release p paid).setStatus p new).stamped q = s.stamped q := by
      intro q hq
      refine Rows.filter_zipIdx_map (p := fun r : Reward => decide (r.payoutId = some q))
        (fun r hr => ?_) fun r hr hchosen => ?_
      · split_ifs with hp
        · simp [Reward.release, hp.1, hq]
        · rfl
      · have hr := of_decide_eq_true hchosen
        rw [if_neg]
        rintro ⟨hp, -⟩
        rw [hr] at hp
        exact hq (Option.some.inj hp).symm
    have hrows : ∀ r ∈ ((s.release p paid).setStatus p new).rewards,
        r ∈ s.rewards ∧ r.payoutId ≠ some p ∨ r.isPaid = false ∧ r.payoutId = none := by
      intro r hr
      obtain ⟨old, hold, rfl⟩ := List.mem_map.mp hr
      by_cases hp : old.payoutId = some p
      · have hpaid := h.paid old hold
        rw [hp] at hpaid
        rw [if_pos ⟨hp, fun _ => hpaid⟩]
        exact .inr ⟨rfl, rfl⟩
      · rw [if_neg fun hboth => hp hboth.1]
        exact .inl ⟨hold, hp⟩
    have hle : ∀ q, (weight .idle + rest) q ≤ (weight pr + rest) q := fun q => by
      simp [weight, Proc.payout]
    refine ⟨fun r hr => ?_, fun r hr q hq => ?_, fun q => (hle q).trans (h.one q), fun q hq => ?_,
      fun q payout hq hopen => ?_, fun q hq => ?_, fun credit hcredit => ?_, h.distinct⟩
    · rcases hrows r hr with ⟨hold, -⟩ | ⟨hpaid, hnone⟩
      · exact h.paid r hold
      · rw [hpaid, hnone]
        rfl
    · rcases hrows r hr with ⟨hold, hne⟩ | ⟨-, hnone⟩
      · rw [hother q fun heq => hne (heq ▸ hq)]
        exact h.held r hold q hq
      · rw [hnone] at hq
        cases hq
    · have hpq : p ≠ q := by
        rintro rfl
        simp [weight, Proc.payout, hrest] at hq
      rw [hother q hpq]
      exact h.busy q (hq.trans_le (hle q))
    · have hpq : p ≠ q := by
        rintro rfl
        have hself := status_eq_some hq
        rw [status_setStatus, if_pos rfl] at hself
        change (s.status p).map _ = _ at hself
        rw [hstatus] at hself
        rw [← Option.some.inj hself, hclosed] at hopen
        cases hopen
      rw [getElem?_setStatus hpq] at hq
      rw [hstamped q hpq]
      exact h.amounts q payout hq hopen
    · have hpq : p ≠ q := fun heq => hnew (heq ▸ hq)
      rw [hother q hpq]
      exact h.credited q hq
    · have hpq : p ≠ credit.payoutId := fun heq =>
        hnew (heq ▸ List.mem_map_of_mem hcredit)
      rw [hstamped _ hpq]
      exact h.credits credit hcredit
  knows := trivial
  frame := by
    refine ⟨fun q hq => getElem?_setStatus ?_, fun _ _ => Iff.rfl⟩
    rintro rfl
    omega

/-- A new payout with the rewards that it is the sum of. -/
lemma insertPayout (h : Sound s (weight .idle + rest)) {payout : Payout}
    (hamount : payout.amountUsd = claimedUsd (s.rewards.filter (s.claimable payout.userId)))
    (hopen : payout.status.closed = false)
    (hpr : pr' = .idle ∨ payout.status = .processing ∧
      pr' = .credit s.payouts.length payout.userId payout.amountUsd) :
    Kept s rest (s.insertPayout payout) pr' := by
  have hnone : s.status s.payouts.length = none := by
    rw [State.status, List.getElem?_eq_none le_rfl]
    rfl
  have hrest : rest s.payouts.length = 0 := h.rest_eq_zero_of_status (by simp [hnone])
  have hfree := h.payoutId_ne hnone
  have hcredited : s.payouts.length ∉ s.creditedIds := by
    intro hmem
    obtain ⟨status, hstatus, -⟩ := h.credited _ hmem
    rw [hnone] at hstatus
    cases hstatus
  have hself := status_eq_some (getElem?_insertPayout_self s payout)
  have hstatus : ∀ q, s.payouts.length ≠ q → (s.insertPayout payout).status q = s.status q :=
    fun q hq => by rw [State.status, getElem?_insertPayout hq, State.status]
  refine ⟨⟨fun r hr => ?_, fun r hr q hq => ?_, fun q => ?_, fun q hq => ?_,
    fun q payout' hq hclosed => ?_, fun q hq => ?_, fun credit hcredit => ?_, h.distinct⟩, ?_,
    ⟨fun q hq => getElem?_insertPayout ?_, fun _ _ => Iff.rfl⟩⟩
  · obtain ⟨old, hold, rfl⟩ := List.mem_map.mp hr
    split_ifs
    · rfl
    · exact h.paid old hold
  · rcases eq_or_ne s.payouts.length q with rfl | hpq
    · exact ⟨_, hself, hopen⟩
    · rw [hstatus q hpq]
      obtain ⟨old, hold, rfl⟩ := List.mem_map.mp hr
      split_ifs at hq
      · exact absurd (Option.some.inj hq) hpq
      · exact h.held old hold q hq
  · rcases eq_or_ne s.payouts.length q with rfl | hpq
    · rw [Pi.add_apply, hrest, weight]
      split_ifs <;> omega
    · refine le_trans ?_ (h.one q)
      rcases hpr with rfl | ⟨-, rfl⟩ <;> simp [weight, Proc.payout, hpq]
  · rcases eq_or_ne s.payouts.length q with rfl | hpq
    · rcases hpr with rfl | ⟨hprocessing, rfl⟩
      · simp [weight, Proc.payout, hrest] at hq
      · exact ⟨_, hself, by rw [hprocessing]; rfl⟩
    · rw [hstatus q hpq]
      refine h.busy q (hq.trans_le ?_)
      rcases hpr with rfl | ⟨-, rfl⟩ <;> simp [weight, Proc.payout, hpq]
  · rcases eq_or_ne s.payouts.length q with rfl | hpq
    · rw [getElem?_insertPayout_self] at hq
      obtain rfl := Option.some.inj hq
      rw [claimedUsd_insertPayout hfree, hamount]
    · rw [getElem?_insertPayout hpq] at hq
      rw [stamped_insertPayout h.paid hpq]
      exact h.amounts q payout' hq hclosed
  · rw [hstatus q fun heq => hcredited (heq ▸ hq)]
    exact h.credited q hq
  · rw [stamped_insertPayout h.paid fun heq => hcredited (heq ▸ List.mem_map_of_mem hcredit)]
    exact h.credits credit hcredit
  · rcases hpr with rfl | ⟨hprocessing, rfl⟩
    · trivial
    · refine ⟨?_, hcredited⟩
      rw [getElem?_insertPayout_self, ← hprocessing]
  · rintro rfl
    omega

end Sound

/-! ### Steps -/

theorem step_kept {answer : Answer} (h : Sound s (weight pr + rest)) (hknows : Knows s pr)
    (hstep : step s pr answer = .ok (s', pr')) : Kept s rest s' pr' := by
  cases pr with
  | idle =>
    cases answer with
    | claimRewards userId =>
      obtain ⟨rfl, rfl⟩ := Prod.ext_iff.mp (Except.ok.inj hstep)
      dsimp only [State.claimRewards]
      split_ifs with hnothing hheld
      · exact h.move (.inl rfl) trivial
      · exact h.insertPayout rfl rfl (.inl rfl)
      · exact h.insertPayout rfl rfl (.inr ⟨rfl, rfl⟩)
    | approveReferralClaim payoutId =>
      dsimp only [step] at hstep
      cases hpayout : s.payouts[payoutId]? with
      | none =>
        rw [hpayout] at hstep
        cases hstep
        exact h.move (.inl rfl) trivial
      | some payout =>
        rw [hpayout] at hstep
        dsimp only at hstep
        split_ifs at hstep with hpending
        · cases hstep
          have hstatus := status_eq_some hpayout
          rw [hpending] at hstatus
          have hnew := h.not_credited hstatus rfl
          refine h.setStatus (h.rest_eq_zero_of_status ?_) hstatus rfl rfl (.inl rfl)
            (.inr ⟨rfl, rfl⟩) ⟨?_, hnew⟩
          · intro status hs
            rw [hstatus] at hs
            exact Option.some.inj hs ▸ rfl
          · rw [State.setStatus, List.getElem?_modify_eq, hpayout]
            rfl
        · cases hstep
          exact h.move (.inl rfl) trivial
    | rejectReferralClaim payoutId =>
      dsimp only [step] at hstep
      split_ifs at hstep with hpending
      · cases hstep
        refine h.release (h.rest_eq_zero_of_status ?_) hpending rfl (h.not_credited hpending rfl)
        intro status hs
        rw [hpending] at hs
        exact Option.some.inj hs ▸ rfl
      · cases hstep
        exact h.move (.inl rfl) trivial
    | crash =>
      cases hstep
      exact h.move (.inl rfl) trivial
    | _ => cases hstep
  | credit payoutId userId claimedUsd =>
    cases answer with
    | ok =>
      cases hstep
      exact h.credit rfl (.inl rfl) hknows.1 rfl rfl hknows.2 (status_eq_some hknows.1)
    | raises =>
      cases hstep
      exact h.move (.inr rfl) ⟨status_eq_some hknows.1, hknows.2⟩
    | crash =>
      cases hstep
      exact h.move (.inl rfl) trivial
    | _ => cases hstep
  | restore payoutId =>
    cases answer with
    | ok =>
      cases hstep
      exact h.release (h.rest_eq_zero rfl) hknows.1 rfl hknows.2
    | crash =>
      cases hstep
      exact h.move (.inl rfl) trivial
    | _ => cases hstep
  | complete payoutId =>
    cases answer with
    | ok =>
      cases hstep
      exact h.setStatus (h.rest_eq_zero rfl) hknows rfl rfl (.inl rfl) (.inl rfl) trivial
    | crash =>
      cases hstep
      exact h.move (.inl rfl) trivial
    | _ => cases hstep
  | approveCredit payoutId userId amountUsd =>
    cases answer with
    | ok =>
      cases hstep
      exact h.credit rfl (.inr rfl) hknows.1 rfl rfl hknows.2 (status_eq_some hknows.1)
    | raises =>
      cases hstep
      exact h.move (.inr rfl) ⟨status_eq_some hknows.1, hknows.2⟩
    | crash =>
      cases hstep
      exact h.move (.inl rfl) trivial
    | _ => cases hstep
  | resetReview payoutId =>
    cases answer with
    | ok =>
      dsimp only [step] at hstep
      cases hstep
      rw [State.transition, if_pos hknows.1]
      exact h.setStatus (h.rest_eq_zero rfl) hknows.1 rfl rfl (.inr hknows.2) (.inl rfl) trivial
    | crash =>
      cases hstep
      exact h.move (.inl rfl) trivial
    | _ => cases hstep
  | completeApproval payoutId =>
    cases answer with
    | ok =>
      dsimp only [step] at hstep
      cases hstep
      rw [State.transition, if_pos (show s.status _ = some _ from hknows)]
      exact h.setStatus (h.rest_eq_zero rfl) hknows rfl rfl (.inl rfl) (.inl rfl) trivial
    | crash =>
      cases hstep
      exact h.move (.inl rfl) trivial
    | _ => cases hstep

lemma environment_sound {total : PayoutId → ℕ} {event : Event} (h : Sound s total)
    (hevent : environment s event = .ok s') : Sound s' total ∧ Frame s s' total := by
  cases event with
  | makeReferral referrerId =>
    cases hevent
    exact ⟨⟨h.paid, h.held, h.one, h.busy, h.amounts, h.credited, h.credits, h.distinct⟩,
      fun _ _ => rfl, fun _ _ => Iff.rfl⟩
  | deactivate referralId =>
    cases hevent
    exact ⟨⟨h.paid, h.held, h.one, h.busy, h.amounts, h.credited, h.credits, h.distinct⟩,
      fun _ _ => rfl, fun _ _ => Iff.rfl⟩
  | recordReward referralId rewardAmountUsd =>
    cases hevent
    have hstamped : ∀ q, State.stamped { s with
        rewards := s.rewards ++ [⟨referralId, rewardAmountUsd, false, none⟩] } q = s.stamped q :=
      fun q => Rows.filter_zipIdx_concat (p := fun r : Reward => decide (r.payoutId = some q)) rfl
    refine ⟨⟨fun r hr => ?_, fun r hr q hq => ?_, h.one, h.busy, fun q payout hq hclosed => ?_,
      h.credited, fun credit hcredit => ?_, h.distinct⟩, fun _ _ => rfl, fun _ _ => Iff.rfl⟩
    · rcases List.mem_append.mp hr with hr | hr
      · exact h.paid r hr
      · obtain rfl := List.mem_singleton.mp hr
        rfl
    · rcases List.mem_append.mp hr with hr | hr
      · exact h.held r hr q hq
      · obtain rfl := List.mem_singleton.mp hr
        cases hq
    · rw [hstamped]
      exact h.amounts q payout hq hclosed
    · rw [hstamped]
      exact h.credits credit hcredit

/-! ### Closing a payout -/

lemma not_closes_self : ¬ Closes s s p := fun ⟨_, hstatus, _, hne⟩ => hne hstatus

lemma not_closes_setStatus (hnew : new.closed = false) : ¬ Closes s (s.setStatus q new) p := by
  rintro ⟨status, hstatus, hclosed, hne⟩
  rw [status_setStatus] at hstatus
  split_ifs at hstatus
  · obtain ⟨-, -, rfl⟩ := Option.map_eq_some_iff.mp hstatus
    rw [hnew] at hclosed
    cases hclosed
  · exact hne hstatus

lemma not_closes_transition (hnew : new.closed = false) :
    ¬ Closes s (s.transition q status new) p := by
  unfold State.transition
  split_ifs
  · exact not_closes_setStatus hnew
  · exact not_closes_self

lemma not_closes_insertPayout {payout : Payout} (hopen : payout.status.closed = false) :
    ¬ Closes s (s.insertPayout payout) p := by
  rintro ⟨status, hstatus, hclosed, hne⟩
  rcases eq_or_ne s.payouts.length p with rfl | hp
  · rw [status_eq_some (getElem?_insertPayout_self s payout)] at hstatus
    rw [← Option.some.inj hstatus, hopen] at hclosed
    cases hclosed
  · rw [State.status, getElem?_insertPayout hp] at hstatus
    exact hne hstatus

/-- What closes a payout has its rewards released. -/
lemma released (hpaid : ∀ r ∈ s.rewards, r.isPaid = r.payoutId.isSome) {paid : Bool}
    (hcloses : Closes s ((s.release q paid).setStatus q new) p) :
    ∀ row ∈ s.stamped p, ∃ r, ((s.release q paid).setStatus q new).rewards[row.2]? = some r ∧
      r.isPaid = false := by
  obtain rfl : q = p := by
    by_contra hpq
    obtain ⟨status, hstatus, -, hne⟩ := hcloses
    rw [status_setStatus, if_neg hpq] at hstatus
    exact hne hstatus
  intro row hrow
  obtain ⟨hmem, hstamp⟩ := List.mem_filter.mp hrow
  have hstamp := of_decide_eq_true hstamp
  have hrow := List.mem_zipIdx_iff_getElem?.mp hmem
  have hpaid := hpaid row.1 (List.mem_of_getElem? hrow)
  rw [hstamp] at hpaid
  refine ⟨row.1.release, ?_, rfl⟩
  change (s.rewards.map _)[row.2]? = _
  rw [List.getElem?_map, hrow, Option.map_some, if_pos ⟨hstamp, fun _ => hpaid⟩]

lemma released_of_step {answer : Answer} (h : Sound s (weight pr + rest))
    (hstep : step s pr answer = .ok (s', pr')) (hcloses : Closes s s' p) :
    pr' = .idle ∧ ∀ row ∈ s.stamped p, ∃ r, s'.rewards[row.2]? = some r ∧ r.isPaid = false := by
  cases pr with
  | idle =>
    cases answer with
    | claimRewards userId =>
      obtain ⟨rfl, rfl⟩ := Prod.ext_iff.mp (Except.ok.inj hstep)
      dsimp only [State.claimRewards] at hcloses
      split_ifs at hcloses
      · exact absurd hcloses not_closes_self
      · exact absurd hcloses (not_closes_insertPayout rfl)
      · exact absurd hcloses (not_closes_insertPayout rfl)
    | approveReferralClaim payoutId =>
      dsimp only [step] at hstep
      cases hpayout : s.payouts[payoutId]? with
      | none =>
        rw [hpayout] at hstep
        cases hstep
        exact absurd hcloses not_closes_self
      | some payout =>
        rw [hpayout] at hstep
        dsimp only at hstep
        split_ifs at hstep
        · cases hstep
          exact absurd hcloses (not_closes_setStatus rfl)
        · cases hstep
          exact absurd hcloses not_closes_self
    | rejectReferralClaim payoutId =>
      dsimp only [step] at hstep
      split_ifs at hstep
      · cases hstep
        exact ⟨rfl, released h.paid hcloses⟩
      · cases hstep
        exact absurd hcloses not_closes_self
    | crash =>
      cases hstep
      exact absurd hcloses not_closes_self
    | _ => cases hstep
  | restore payoutId =>
    cases answer with
    | ok =>
      cases hstep
      exact ⟨rfl, released h.paid hcloses⟩
    | crash =>
      cases hstep
      exact absurd hcloses not_closes_self
    | _ => cases hstep
  | complete payoutId =>
    cases answer with
    | ok =>
      cases hstep
      exact absurd hcloses (not_closes_setStatus rfl)
    | crash =>
      cases hstep
      exact absurd hcloses not_closes_self
    | _ => cases hstep
  | credit | approveCredit =>
    cases answer with
    | ok | raises | crash =>
      cases hstep
      exact absurd hcloses not_closes_self
    | _ => cases hstep
  | resetReview payoutId | completeApproval payoutId =>
    cases answer with
    | ok =>
      dsimp only [step] at hstep
      cases hstep
      exact absurd hcloses (not_closes_transition rfl)
    | crash =>
      cases hstep
      exact absurd hcloses not_closes_self
    | _ => cases hstep

/-! ### Runs -/

theorem inductive_sound : program.Inductive weight Sound Knows
    (fun _ _ _ _ => True) fun _ _ _ => True where
  step h hknows _ hstep := ⟨(step_kept h hknows hstep).sound, (step_kept h hknows hstep).knows⟩
  stable h hknows _ hstep hq hknows' := (step_kept h hknows hstep).frame.knows hq hknows'
  environment h _ hevent :=
    ⟨(environment_sound h hevent).1, fun _ hq => (environment_sound h hevent).2.knows hq⟩

lemma initial_sound (n : ℕ) : Program.Invariant weight Sound Knows (initial n) where
  shared := by
    have htotal : (initial n).total weight = 0 := Finset.sum_eq_zero fun i _ => by
      funext p
      rfl
    rw [htotal]
    exact ⟨nofun, nofun, fun _ => Nat.zero_le _, fun _ h => absurd h (lt_irrefl _), nofun, nofun,
      nofun, List.nodup_nil⟩
  knows _ := trivial

lemma once_of_sound {total : PayoutId → ℕ} (h : Sound s total) :
    ((s.credits.flatMap Credit.rewards).map Prod.snd).Nodup := by
  rw [List.map_flatMap]
  refine List.nodup_flatMap.mpr ⟨fun credit hcredit => ?_, ?_⟩
  · rw [(h.credits credit hcredit).1]
    exact Rows.nodup_positions _ _
  · have hpairwise := List.pairwise_map.mp h.distinct
    refine hpairwise.imp_of_mem fun {a b} ha hb hne => ?_
    intro i hia hib
    obtain ⟨row, hrow, rfl⟩ := List.mem_map.mp hia
    obtain ⟨row', hrow', heq⟩ := List.mem_map.mp hib
    rw [(h.credits a ha).1] at hrow
    rw [(h.credits b hb).1] at hrow'
    obtain ⟨hmem, hstamp⟩ := List.mem_filter.mp hrow
    obtain ⟨hmem', hstamp'⟩ := List.mem_filter.mp hrow'
    have hget := List.mem_zipIdx_iff_getElem?.mp hmem
    have hget' := List.mem_zipIdx_iff_getElem?.mp hmem'
    rw [heq, hget] at hget'
    have hsame := Option.some.inj hget'
    have ha := of_decide_eq_true hstamp
    rw [hsame, of_decide_eq_true hstamp'] at ha
    exact hne (Option.some.inj ha).symm

/-- However the calls interleave, and wherever they crash, every reward is paid once at most. -/
theorem paid_once (n : ℕ) (as : List (Program.Action n Answer Event)) :
    PaidOnce ((program.machine n).run (initial n) as) := by
  have h := inductive_sound.run_always as (initial_sound n)
  have hsound := h.shared
  refine ⟨once_of_sound hsound, hsound.distinct, fun credit hcredit => ?_,
    fun r hr hunpaid p payout _ _ => ?_, fun r hr hpaid => ?_,
    fun {i answer c'} hstep p hcloses => ?_⟩
  · obtain ⟨hrewards, hamount⟩ := hsound.credits credit hcredit
    refine ⟨fun row hrow => ?_, hamount⟩
    rw [hrewards] at hrow
    exact of_decide_eq_true (List.mem_filter.mp hrow).2
  · have hsome := hsound.paid r hr
    rw [hunpaid] at hsome
    rw [Option.not_isSome_iff_eq_none.mp fun h => Bool.false_ne_true (hsome.trans h)]
    exact nofun
  · have hsome := hsound.paid r hr
    rw [hpaid] at hsome
    obtain ⟨p, hp⟩ := Option.isSome_iff_exists.mp hsome.symm
    obtain ⟨status, hstatus, hopen⟩ := hsound.held r hr p hp
    obtain ⟨payout, hpayout, rfl⟩ := Option.map_eq_some_iff.mp hstatus
    exact ⟨p, payout, hp, hpayout, hopen⟩
  · obtain ⟨s, pr, hpr, rfl⟩ := Program.take_ok hstep
    have htotal := hsound
    rw [Program.Config.total_eq weight _ i] at htotal
    obtain ⟨hidle, hreleased⟩ := released_of_step htotal hpr hcloses
    exact ⟨by simpa using hidle, hreleased⟩

end Suwappu.ReferralService
