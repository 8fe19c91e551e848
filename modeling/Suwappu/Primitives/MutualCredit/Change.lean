import Suwappu.Primitives.MutualCredit.NetCycle

/-!
# What a call does to a line

`Change` lists everything a successful call can do to one line, with what the call established
before. The properties of lines are read off it, one case for each way a line changes.
-/

namespace Suwappu.MutualCredit

open Checked

variable {s s' : State} {l l' : Line} {d c token sender : Address} {now : BlockTime} {m : ℕ}
  {legs : List (Address × Address)} {cycle : List Address} {key : LineKey} {call : Call}

/-- What `creditor` lets `debtor` owe. -/
def Line.extended (l : Line) (creditor debtor : Address) : ℕ :=
  if creditor < debtor then l.limitA else l.limitB

/-- The line with its interest added. -/
def Line.accruedTo (l : Line) (now : BlockTime) : Line :=
  { l with balance := l.accrued now, lastAccrual := now }

/-- The line at a new balance, its demand cleared if that is covered. -/
def Line.rebalanced (l : Line) (now : BlockTime) (key : LineKey) (z : ℤ) : Line :=
  clearDemandIfCovered { l with balance := z, lastAccrual := now } key.lo key.hi

section rebalanced

variable (l : Line) (now : BlockTime) (key : LineKey) (z : ℤ)

@[simp] lemma rebalanced_balance : (l.rebalanced now key z).balance = z :=
  clearDemandIfCovered_balance ..

@[simp] lemma rebalanced_lastAccrual : (l.rebalanced now key z).lastAccrual = now :=
  clearDemandIfCovered_lastAccrual ..

@[simp] lemma rebalanced_status : (l.rebalanced now key z).status = l.status :=
  clearDemandIfCovered_status ..

lemma rebalanced_cases : l.rebalanced now key z = { l with balance := z, lastAccrual := now } ∨
    l.rebalanced now key z = { l with balance := z, lastAccrual := now, demandTs := 0,
                                      demandBy := Address.zero } :=
  clearDemandIfCovered_cases ..

/-- The terms of a line outlive its payments. -/
lemma rebalanced_terms : (l.rebalanced now key z).limitA = l.limitA ∧
    (l.rebalanced now key z).limitB = l.limitB ∧ (l.rebalanced now key z).feeRate = l.feeRate ∧
    (l.rebalanced now key z).grace = l.grace := by
  rcases rebalanced_cases l now key z with h | h <;> rw [h] <;> exact ⟨rfl, rfl, rfl, rfl⟩

@[simp] lemma rebalanced_limitA : (l.rebalanced now key z).limitA = l.limitA :=
  (rebalanced_terms ..).1

@[simp] lemma rebalanced_limitB : (l.rebalanced now key z).limitB = l.limitB :=
  (rebalanced_terms ..).2.1

@[simp] lemma rebalanced_feeRate : (l.rebalanced now key z).feeRate = l.feeRate :=
  (rebalanced_terms ..).2.2.1

end rebalanced

/-- The line that `sender` proposes to `counterparty`. -/
def Line.proposed (now : BlockTime) (sender counterparty : Address) (myLimit feeRate : ℕ)
    (grace : BlockTime) : Line where
  limitA := if sender = (pair sender counterparty).1 then myLimit else 0
  limitB := if sender = (pair sender counterparty).1 then 0 else myLimit
  balance := 0
  feeRate := feeRate
  grace := grace
  lastAccrual := now
  demandTs := 0
  status := .Proposed
  demandBy := Address.zero
  proposer := sender

lemma proposed_balance (now : BlockTime) (sender counterparty : Address) (myLimit feeRate : ℕ)
    (grace : BlockTime) :
    (Line.proposed now sender counterparty myLimit feeRate grace).balance = 0 := rfl

/-- The line once `sender` accepts it. -/
def Line.accepted (l : Line) (now : BlockTime) (sender proposer : Address) (myLimit : ℕ) : Line :=
  { l with
    limitA := if sender = (pair sender proposer).1 then myLimit else l.limitA
    limitB := if sender = (pair sender proposer).1 then l.limitB else myLimit
    status := .Active
    lastAccrual := now }

lemma accepted_balance (l : Line) (now : BlockTime) (sender proposer : Address) (myLimit : ℕ) :
    (l.accepted now sender proposer myLimit).balance = l.balance := by
  rw [Line.accepted]

/-- The balance of the line once `debtor` owes `m` more. -/
def moreDebt (debtor creditor : Address) (m : ℕ) (bal : ℤ) : ℤ :=
  if debtor < creditor then bal - m else bal + m

/-- What `call` can do to the line of `key` at the time `now`. -/
inductive Change (now : BlockTime) (key : LineKey) : Call → Line → Line → Prop
  | keep {call : Call} {l : Line} : Change now key call l l
  | propose {sender counterparty token : Address} {myLimit feeRate : ℕ} {grace : BlockTime}
      {l : Line} (hkey : key = lineKey sender counterparty token) (hne : sender ≠ counterparty)
      (hfree : l.status = .None ∨ l.status = .Closed) :
      Change now key (.proposeLine sender counterparty token myLimit feeRate grace) l
        (.proposed now sender counterparty myLimit feeRate grace)
  | accept {sender proposer token : Address} {myLimit : ℕ} {l : Line}
      (hkey : key = lineKey sender proposer token) (hs : l.status = .Proposed)
      (hproposer : l.proposer = proposer) (hne : proposer ≠ sender) :
      Change now key (.acceptLine sender proposer token myLimit) l
        (l.accepted now sender proposer myLimit)
  | withdraw {call : Call} {l : Line} (hs : l.status = .Proposed) :
      Change now key call l { l with status := .Closed }
  | pay {sender dst token : Address} {amount : ℕ} {l : Line}
      (hkey : key = lineKey sender dst token) (hs : l.status = .Active)
      (hlimit : debt sender dst (moreDebt sender dst amount (l.accrued now)) ≤
        l.extended dst sender) :
      Change now key (.pay sender dst token amount) l
        (l.rebalanced now key (moreDebt sender dst amount (l.accrued now)))
  /-- netting and settlement -/
  | reduce {call : Call} {d c token : Address} {m : ℕ} {l : Line} (hkey : key = lineKey d c token)
      (hs : l.status = .Active ∨ l.status = .Defaulted) (hle : m ≤ debt d c (l.accrued now)) :
      Change now key call l (l.rebalanced now key (lessDebt d c m (l.accrued now)))
  | demand {sender debtor token : Address} {l : Line} (hkey : key = lineKey sender debtor token)
      (hs : l.status = .Active) (hpos : 0 < debt debtor sender (l.accrued now)) :
      Change now key (.demandSettlement sender debtor token) l
        { l.accruedTo now with demandTs := now, demandBy := sender }
  | default {sender debtor token : Address} {l : Line} (hkey : key = lineKey sender debtor token)
      (hs : l.status = .Active) (hby : l.demandBy = sender) (hts : l.demandTs ≠ 0)
      (hgrace : l.demandTs.val + l.grace.val ≤ now.val) :
      Change now key (.markDefault sender debtor token) l
        { l.accruedTo now with status := .Defaulted }
  | close {call : Call} {l : Line} (hs : l.status = .Active) (hzero : l.accrued now = 0) :
      Change now key call l { l.accruedTo now with status := .Closed }

/-! ### Lines in use have two parties -/

/-- Balances are words, and every line in use is between two parties. -/
structure Sound (s : State) : Prop where
  fits : BalancesFit s
  proper : ∀ key, (s.lines key).status ≠ .None → key.lo < key.hi

lemma lineKey_lo (d c token : Address) : (lineKey d c token).lo = (pair d c).1 := rfl

lemma lineKey_hi (d c token : Address) : (lineKey d c token).hi = (pair d c).2 := rfl

lemma lineKey_lt (hne : d ≠ c) (token : Address) :
    (lineKey d c token).lo < (lineKey d c token).hi := by
  rw [lineKey_lo, lineKey_hi]
  rcases lt_or_gt_of_ne hne with h | h
  · rwa [pair_of_lt h]
  · rwa [pair_of_gt h]

lemma ne_of_lineKey_lt (h : (lineKey d c token).lo < (lineKey d c token).hi) : d ≠ c := by
  rintro rfl
  rw [lineKey_lo, lineKey_hi, pair, if_neg (lt_irrefl d)] at h
  exact lt_irrefl d h

/-- A line in use is between different addresses. -/
lemma Sound.ne (hS : Sound s) (hs : (s.lines (lineKey d c token)).status = .Active ∨
    (s.lines (lineKey d c token)).status = .Defaulted) : d ≠ c := by
  refine ne_of_lineKey_lt (hS.proper (lineKey d c token) ?_)
  rcases hs with hs | hs <;> rw [hs] <;> simp

/-! ### The calls -/

/-- What a successful call does: each line changes in one of the ways above, and only `advance`
moves the clock. -/
structure Changed (s : State) (call : Call) (s' : State) : Prop where
  now : s'.now = s.now ∨ ∃ time, call = .advance time
  line : ∀ key, Change s.now key call (s.lines key) (s'.lines key)

lemma changed_setLine {key : LineKey} (h : Change s.now key call (s.lines key) l') :
    Changed s call (s.setLine key l') where
  now := .inl rfl
  line key' := by
    by_cases hkey : key' = key
    · subst hkey
      rwa [setLine_self]
    · rw [setLine_of_ne s l' hkey]
      exact .keep

lemma proposeLine_changed {counterparty : Address} {myLimit feeRate : ℕ} {grace : BlockTime}
    (h : proposeLine s sender counterparty token myLimit feeRate grace = .ok s') :
    Changed s (.proposeLine sender counterparty token myLimit feeRate grace) s' := by
  simp only [proposeLine, bind_ok_iff, guard_ok_iff, exists_const, pure_ok_iff] at h
  obtain ⟨hparams, -, hfree, rfl⟩ := h
  exact changed_setLine (.propose rfl (fun h => hparams (.inl h.symm)) hfree)

lemma acceptLine_changed {proposer : Address} {myLimit : ℕ}
    (h : acceptLine s sender proposer token myLimit = .ok s') :
    Changed s (.acceptLine sender proposer token myLimit) s' := by
  simp only [acceptLine, bind_ok_iff, guard_ok_iff, exists_const, pure_ok_iff] at h
  obtain ⟨⟨hs, hproposer, hne⟩, rfl⟩ := h
  have h : Change s.now (lineKey sender proposer token) (.acceptLine sender proposer token myLimit)
      (s.lines (lineKey sender proposer token))
      ((s.lines (lineKey sender proposer token)).accepted s.now sender proposer myLimit) :=
    .accept rfl hs hproposer hne
  refine changed_setLine ?_
  unfold Line.accepted at h
  split_ifs at h ⊢ with hlo
  · exact h
  · exact h

lemma cancelProposal_changed {counterparty : Address}
    (h : cancelProposal s sender counterparty token = .ok s') :
    Changed s (.cancelProposal sender counterparty token) s' := by
  simp only [cancelProposal, bind_ok_iff, guard_ok_iff, exists_const, pure_ok_iff] at h
  obtain ⟨⟨hs, -⟩, rfl⟩ := h
  exact changed_setLine (.withdraw hs)

lemma rejectProposal_changed {proposer : Address}
    (h : rejectProposal s sender proposer token = .ok s') :
    Changed s (.rejectProposal sender proposer token) s' := by
  simp only [rejectProposal, bind_ok_iff, guard_ok_iff, exists_const, pure_ok_iff] at h
  obtain ⟨⟨hs, -, -⟩, rfl⟩ := h
  exact changed_setLine (.withdraw hs)

/-- The payee's limit holds after a payment. -/
lemma pay_ok {dst : Address} {amount : ℕ} (hne : sender ≠ dst)
    (h : pay s sender dst token amount = .ok s') :
    (s.lines (lineKey sender dst token)).status = .Active ∧
      debt sender dst (moreDebt sender dst amount
        ((s.lines (lineKey sender dst token)).accrued s.now)) ≤
        (s.lines (lineKey sender dst token)).extended dst sender ∧
      s' = s.setLine (lineKey sender dst token)
        ((s.lines (lineKey sender dst token)).rebalanced s.now (lineKey sender dst token)
          (moreDebt sender dst amount ((s.lines (lineKey sender dst token)).accrued s.now))) := by
  simp only [pay, bind_ok_iff, guard_ok_iff, exists_const] at h
  obtain ⟨hs, hamount, l, hl, h⟩ := h
  obtain ⟨rfl, -⟩ := accrue_ok hl
  refine ⟨hs, ?_⟩
  rw [Line.rebalanced, lineKey_lo, lineKey_hi]
  rw [int256_eq (by omega)] at h
  generalize (s.lines (lineKey sender dst token)).accrued s.now = b at h ⊢
  rcases lt_or_gt_of_ne hne with hlt | hgt
  · rw [debt, moreDebt, Line.extended, if_pos hlt, if_pos hlt, if_neg hlt.asymm, pair_of_lt hlt]
    rw [pair_of_lt hlt, if_pos rfl] at h
    simp only [bind_ok_iff, fitI_ok_iff] at h
    obtain ⟨_, ⟨-, rfl⟩, h⟩ := h
    split at h
    · simp only [bind_ok_iff, guard_ok_iff, exists_const, negU_ok_iff, pure_ok_iff] at h
      obtain ⟨_, ⟨-, rfl⟩, hle, rfl⟩ := h
      exact ⟨hle, rfl⟩
    · rename_i hpos
      simp only [pure_ok_iff] at h
      exact ⟨by omega, h.symm⟩
  · rw [debt, moreDebt, Line.extended, if_neg hgt.asymm, if_neg hgt.asymm, if_pos hgt,
      pair_of_gt hgt]
    rw [pair_of_gt hgt, if_neg hne] at h
    simp only [bind_ok_iff, fitI_ok_iff] at h
    obtain ⟨_, ⟨-, rfl⟩, h⟩ := h
    split at h
    · simp only [bind_ok_iff, guard_ok_iff, exists_const, pure_ok_iff] at h
      exact ⟨h.1, h.2.symm⟩
    · rename_i hpos
      simp only [pure_ok_iff] at h
      exact ⟨by omega, h.symm⟩

lemma pay_changed (hS : Sound s) {dst : Address} {amount : ℕ}
    (h : pay s sender dst token amount = .ok s') :
    Changed s (.pay sender dst token amount) s' := by
  have hactive : (s.lines (lineKey sender dst token)).status = .Active := by
    simp only [pay, bind_ok_iff, guard_ok_iff, exists_const] at h
    exact h.1
  obtain ⟨-, hlimit, rfl⟩ := pay_ok (hS.ne (.inl hactive)) h
  exact changed_setLine (.pay rfl hactive hlimit)

/-- Both paths that take debt off a line compute the same balance. -/
lemma lessDebt_eq (hne : d ≠ c) (hm : m < 2 ^ 255) {bal : ℤ} :
    (if d = (pair d c).2 then bal - int256 m else bal + int256 m) = lessDebt d c m bal := by
  rw [lessDebt, int256_eq hm]
  rcases lt_or_gt_of_ne hne with hlt | hgt
  · rw [pair_of_lt hlt, if_pos hlt, if_neg hne]
  · rw [pair_of_gt hgt, if_neg hgt.asymm, if_pos rfl]

lemma change_reduce (hne : d ≠ c) (hs : l.status = .Active ∨ l.status = .Defaulted)
    (hle : m ≤ debt d c (l.accrued now)) (hm : m < 2 ^ 255) :
    Change now (lineKey d c token) call l (clearDemandIfCovered { l with
      balance := if d = (pair d c).2 then l.accrued now - int256 m else l.accrued now + int256 m
      lastAccrual := now } (pair d c).1 (pair d c).2) := by
  rw [lessDebt_eq hne hm]
  exact .reduce rfl hs hle

/-- The debt as it is read right after the accrual. -/
lemma owedBy_accrued (hI : BalancesFit s) (hne : d ≠ c)
    (hs : (s.lines (lineKey d c token)).status = .Active ∨
      (s.lines (lineKey d c token)).status = .Defaulted)
    (hl : accrue s.now (s.lines (lineKey d c token)) = .ok l') {n : ℕ} (hn : n ≠ 0)
    (h : owedBy (s.setLine (lineKey d c token) l') d c token = .ok n) :
    n = debt d c ((s.lines (lineKey d c token)).accrued s.now) ∧ n < 2 ^ 255 := by
  have hfits := hI.setLine (lineKey d c token) (accrue_fits (hI _) hl)
  obtain ⟨rfl, -⟩ := accrue_ok hl
  obtain ⟨-, -, howed, hlt⟩ := owedBy_pos hfits hne (by rwa [setLine_self]) hn h
  rw [setLine_self, setLine_now, accrued_of_accruedAt rfl] at howed
  exact ⟨howed, hlt⟩

lemma settle_changed (hS : Sound s) {creditor : Address} {amount : ℕ} {transferred : Bool}
    (h : settle s sender creditor token amount transferred = .ok s') :
    Changed s (.settle sender creditor token amount transferred) s' := by
  simp only [settle, bind_ok_iff, guard_ok_iff, exists_const, fitI_ok_iff, pure_ok_iff] at h
  obtain ⟨hs, l, hl, owed, howed, h0, balance, ⟨-, rfl⟩, -, rfl⟩ := h
  have hne : sender ≠ creditor := hS.ne hs
  obtain ⟨rfl, hlt⟩ := owedBy_accrued hS.fits hne hs hl h0 howed
  obtain ⟨rfl, -⟩ := accrue_ok hl
  have hle : (if amount > debt sender creditor
      ((s.lines (lineKey sender creditor token)).accrued s.now) then
        debt sender creditor ((s.lines (lineKey sender creditor token)).accrued s.now)
      else amount) ≤ debt sender creditor
        ((s.lines (lineKey sender creditor token)).accrued s.now) := by
    split <;> omega
  exact changed_setLine (change_reduce hne hs hle (hle.trans_lt hlt))

lemma netLine_change (hne : d ≠ c) (hm : m < 2 ^ 255) (h : netLine now m d c l = .ok l') :
    Change now (lineKey d c token) call l l' := by
  simp only [netLine, bind_ok_iff, guard_ok_iff, exists_const, fitI_ok_iff, pure_ok_iff] at h
  obtain ⟨hs, l₁, hl₁, legOwed, howed, hle, balance, ⟨-, rfl⟩, rfl⟩ := h
  obtain ⟨rfl, -⟩ := accrue_ok hl₁
  obtain rfl := debtOf_ok hne howed
  exact change_reduce hne (.inl hs) hle hm

lemma netCycle_changed (hS : Sound s) (h : netCycle s token cycle = .ok s') :
    Changed s (.netCycle token cycle) s' := by
  simp only [netCycle, bind_ok_iff, guard_ok_iff, exists_const, checkNodes_ok_iff] at h
  obtain ⟨hn, ⟨hd, -⟩, m, hmin, h⟩ := h
  obtain ⟨howed, -, -⟩ := minLeg_ok hmin
  obtain ⟨hnow, hothers, hlines⟩ := netLegs_ok (nodup_legKeys hd hn token) h
  refine ⟨.inl hnow, fun key => ?_⟩
  by_cases hkey : key ∈ (legsOf cycle).map (legKey token)
  · obtain ⟨leg, hleg, rfl⟩ := List.mem_map.mp hkey
    have hne : leg.1 ≠ leg.2 := Cycles.ne_of_mem_legs hd (by omega) hleg
    have hline := hlines leg hleg
    obtain ⟨owed, ho, h0, hle⟩ := howed leg hleg
    have hs : (s.lines (legKey token leg)).status = .Active := by
      simp only [netLine, bind_ok_iff, guard_ok_iff, exists_const] at hline
      exact hline.1
    exact netLine_change hne
      (hle.trans_lt (owedBy_pos hS.fits hne (.inl hs) h0 ho).2.2.2) hline
  · rw [hothers key hkey]
    exact .keep

lemma demandSettlement_changed (hS : Sound s) {debtor : Address}
    (h : demandSettlement s sender debtor token = .ok s') :
    Changed s (.demandSettlement sender debtor token) s' := by
  simp only [demandSettlement, bind_ok_iff, guard_ok_iff, exists_const, pure_ok_iff] at h
  obtain ⟨hs, l, hl, owed, howed, h0, rfl⟩ := h
  have hne : sender ≠ debtor := hS.ne (.inl hs)
  refine changed_setLine ?_
  rw [lineKey_comm] at hs hl howed
  obtain ⟨rfl, -⟩ := owedBy_accrued hS.fits hne.symm (.inl hs) hl h0 howed
  obtain ⟨rfl, -⟩ := accrue_ok hl
  rw [lineKey_comm]
  exact .demand (lineKey_comm ..) hs (Nat.pos_of_ne_zero h0)

lemma markDefault_changed {debtor : Address}
    (h : markDefault s sender debtor token = .ok s') :
    Changed s (.markDefault sender debtor token) s' := by
  simp only [markDefault, bind_ok_iff, guard_ok_iff, exists_const, pure_ok_iff] at h
  obtain ⟨⟨hs, hby, hts⟩, hgrace, l, hl, -, -, -, count, -, rfl⟩ := h
  obtain ⟨rfl, -⟩ := accrue_ok hl
  exact ⟨.inl rfl, (changed_setLine (.default rfl hs hby hts hgrace)).line⟩

lemma closeLine_changed {counterparty : Address}
    (h : closeLine s sender counterparty token = .ok s') :
    Changed s (.closeLine sender counterparty token) s' := by
  simp only [closeLine, bind_ok_iff, guard_ok_iff, exists_const, pure_ok_iff] at h
  obtain ⟨hs, l, hl, h0, rfl⟩ := h
  obtain ⟨rfl, -⟩ := accrue_ok hl
  exact changed_setLine (.close hs h0)

theorem changed_of_step (hS : Sound s) (h : step s call = .ok s') : Changed s call s' := by
  cases call with
  | proposeLine sender counterparty token myLimit feeRate grace => exact proposeLine_changed h
  | acceptLine sender proposer token myLimit => exact acceptLine_changed h
  | cancelProposal sender counterparty token => exact cancelProposal_changed h
  | rejectProposal sender proposer token => exact rejectProposal_changed h
  | pay sender dst token amount => exact pay_changed hS h
  | netCycle token cycle => exact netCycle_changed hS h
  | settle sender creditor token amount transferred => exact settle_changed hS h
  | demandSettlement sender debtor token => exact demandSettlement_changed hS h
  | markDefault sender debtor token => exact markDefault_changed h
  | closeLine sender counterparty token => exact closeLine_changed h
  | advance time =>
    simp only [step, bind_ok_iff, guard_ok_iff, exists_const, pure_ok_iff] at h
    obtain ⟨-, rfl⟩ := h
    exact ⟨.inr ⟨time, rfl⟩, fun _ => .keep⟩

/-! ### Runs -/

lemma Change.proper (h : Change now key call l l') (hl : l.status ≠ .None → key.lo < key.hi)
    (hl' : l'.status ≠ .None) : key.lo < key.hi := by
  cases h with
  | keep => exact hl hl'
  | propose hkey hne hfree => rw [hkey]; exact lineKey_lt hne _
  | accept hkey hs => exact hl (by rw [hs]; simp)
  | withdraw hs => exact hl (by rw [hs]; simp)
  | pay hkey hs => exact hl (by rw [hs]; simp)
  | reduce hkey hs => exact hl (by rcases hs with hs | hs <;> rw [hs] <;> simp)
  | demand hkey hs => exact hl (by rw [hs]; simp)
  | default hkey hs => exact hl (by rw [hs]; simp)
  | close hs => exact hl (by rw [hs]; simp)

lemma Sound.of_step (hS : Sound s) (h : step s call = .ok s') : Sound s' where
  fits := step_fits hS.fits h
  proper key := ((changed_of_step hS h).line key).proper (hS.proper key)

lemma sound_init (t₀ : BlockTime) : Sound (State.init t₀) where
  fits _ := by norm_num [Fits, State.init, Line.empty]
  proper _ h := absurd rfl h

lemma sound_of_run (t₀ : BlockTime) (calls : List Call) :
    Sound (machine.run (State.init t₀) calls) :=
  Machine.run_induction (M := machine) (fun _ _ _ hS h => hS.of_step h) (sound_init t₀) calls

end Suwappu.MutualCredit
