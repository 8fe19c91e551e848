import Suwappu.Primitives.MutualCredit.Change

/-!
# Credit limits

Without interest a balance never leaves the two limits of its line. With interest a payment still
leaves the payer within what the payee extends, and a debt grows by its own payments and by the
passing of time only.
-/

namespace Suwappu.MutualCredit

open Checked

variable {s s' : State} {l l' : Line} {d c x y token : Address} {now : BlockTime} {m : ℕ}
  {key : LineKey} {call : Call} {bal : ℤ}

/-! ### Balances move towards zero -/

/-- Taking debt off a line raises nobody's debt. -/
lemma debt_lessDebt_le (h : m ≤ debt d c bal) : debt x y (lessDebt d c m bal) ≤ debt x y bal := by
  unfold debt lessDebt at *
  split at h <;> rename_i hdc
  · rw [if_pos hdc]
    split <;> omega
  · rw [if_neg hdc]
    split <;> omega

/-- A payment lowers what the payee owes. -/
lemma debt_swap_moreDebt_le (hne : d ≠ c) : debt c d (moreDebt d c m bal) ≤ debt c d bal := by
  unfold debt moreDebt
  rcases lt_or_gt_of_ne hne with hlt | hgt
  · rw [if_pos hlt, if_neg hlt.asymm, if_neg hlt.asymm]
    omega
  · rw [if_neg hgt.asymm, if_pos hgt, if_pos hgt]
    omega

lemma debt_of_zero (h : l.balance = 0) : debt d c (l.accrued now) = 0 := by
  rw [accrued_of_zero (.inl h), h]
  simp [debt]

lemma debt_le_of_zero (h : l.balance = 0) (n : ℕ) : debt d c (l.accrued now) ≤ n :=
  (debt_of_zero h).trans_le n.zero_le

/-! ### What a change of a line keeps -/

/-- A line out of use has no balance, and without interest a balance respects both limits. -/
structure WithinLimits (l : Line) : Prop where
  idle : l.status ≠ .Active → l.status ≠ .Defaulted → l.balance = 0
  limits : l.feeRate = 0 → -(l.limitB : ℤ) ≤ l.balance ∧ l.balance ≤ l.limitA

lemma withinLimits_of_zero (h : l.balance = 0) : WithinLimits l where
  idle _ _ := h
  limits _ := by omega

lemma WithinLimits.accruedTo (hw : WithinLimits l) (status : Status)
    (demandTs : BlockTime) (demandBy : Address) (h : status = .Active ∨ status = .Defaulted) :
    WithinLimits { l.accruedTo now with status, demandTs, demandBy } where
  idle ha hd := absurd h (by tauto)
  limits hfee := by
    have haccrued : l.accrued now = l.balance := accrued_of_zero (.inr hfee)
    dsimp only [Line.accruedTo]
    rw [haccrued]
    exact hw.limits hfee

lemma WithinLimits.pay (hw : WithinLimits l) (hs : l.status = .Active)
    (hlimit : debt d c (moreDebt d c m (l.accrued now)) ≤ l.extended c d) (hne : d ≠ c) :
    WithinLimits (l.rebalanced now key (moreDebt d c m (l.accrued now))) where
  idle ha := by simp [hs] at ha
  limits hfee := by
    simp only [rebalanced_feeRate] at hfee
    obtain ⟨hB, hA⟩ := hw.limits hfee
    simp only [rebalanced_limitA, rebalanced_limitB, rebalanced_balance]
    rw [accrued_of_zero (.inr hfee)] at hlimit ⊢
    unfold debt moreDebt Line.extended at *
    rcases lt_or_gt_of_ne hne with hlt | hgt
    · rw [if_pos hlt, if_pos hlt, if_neg hlt.asymm] at hlimit
      rw [if_pos hlt]
      omega
    · rw [if_neg hgt.asymm, if_neg hgt.asymm, if_pos hgt] at hlimit
      rw [if_neg hgt.asymm]
      omega

lemma WithinLimits.reduce (hw : WithinLimits l) (hs : l.status = .Active ∨ l.status = .Defaulted)
    (hle : m ≤ debt d c (l.accrued now)) :
    WithinLimits (l.rebalanced now key (lessDebt d c m (l.accrued now))) where
  idle ha hd := by
    rw [rebalanced_status] at ha hd
    exact absurd hs (by tauto)
  limits hfee := by
    simp only [rebalanced_feeRate] at hfee
    obtain ⟨hB, hA⟩ := hw.limits hfee
    simp only [rebalanced_limitA, rebalanced_limitB, rebalanced_balance]
    rw [accrued_of_zero (.inr hfee)] at hle ⊢
    unfold debt lessDebt at *
    split at hle <;> rename_i hdc
    · rw [if_pos hdc]
      omega
    · rw [if_neg hdc]
      omega

lemma Change.withinLimits (h : Change now key call l l') (hw : WithinLimits l)
    (hproper : l.status ≠ .None → key.lo < key.hi) : WithinLimits l' := by
  cases h with
  | keep => exact hw
  | propose => exact withinLimits_of_zero rfl
  | accept hkey hs =>
    have h0 := hw.idle (by simp [hs]) (by simp [hs])
    exact withinLimits_of_zero ((accepted_balance ..).trans h0)
  | withdraw hs => exact withinLimits_of_zero (hw.idle (by simp [hs]) (by simp [hs]))
  | pay hkey hs hlimit =>
    exact hw.pay hs hlimit (ne_of_lineKey_lt (hkey ▸ hproper (by simp [hs])))
  | reduce hkey hs hle => exact hw.reduce hs hle
  | demand hkey hs => exact hw.accruedTo _ _ _ (.inl hs)
  | default hkey hs => exact hw.accruedTo _ _ _ (.inr rfl)
  | close hs hzero => exact withinLimits_of_zero hzero

/-- On one line a debt grows by a payment of its debtor only. -/
lemma Change.debt_le (h : Change now (lineKey x y token) call l l') (hw : WithinLimits l)
    (hproper : l.status ≠ .None → x ≠ y) :
    debt x y (l'.accrued now) ≤ debt x y (l.accrued now) ∨
      ∃ amount, call = .pay x y token amount := by
  cases h with
  | keep => exact .inl le_rfl
  | propose => exact .inl (debt_le_of_zero (proposed_balance ..) _)
  | accept hkey hs =>
    have h0 := hw.idle (by simp [hs]) (by simp [hs])
    exact .inl (debt_le_of_zero ((accepted_balance ..).trans h0) _)
  | withdraw hs => exact .inl (debt_le_of_zero (hw.idle (by simp [hs]) (by simp [hs])) _)
  | @pay sender dst token' amount _ hkey hs hlimit =>
    obtain ⟨rfl, ⟨rfl, rfl⟩ | ⟨rfl, rfl⟩⟩ := lineKey_eq_iff.mp hkey
    · exact .inr ⟨amount, rfl⟩
    · left
      rw [accrued_of_accruedAt (by simp), rebalanced_balance]
      exact debt_swap_moreDebt_le (hproper (by simp [hs])).symm
  | reduce hkey hs hle =>
    left
    rw [accrued_of_accruedAt (by simp), rebalanced_balance]
    exact debt_lessDebt_le hle
  | demand => exact .inl (congrArg (debt x y) (accrued_of_accruedAt rfl)).le
  | default => exact .inl (congrArg (debt x y) (accrued_of_accruedAt rfl)).le
  | close => exact .inl (congrArg (debt x y) (accrued_of_accruedAt rfl)).le

/-! ### Every run -/

structure Limited (s : State) : Prop where
  sound : Sound s
  within : ∀ key, WithinLimits (s.lines key)

lemma Limited.of_step (hL : Limited s) (h : step s call = .ok s') : Limited s' where
  sound := hL.sound.of_step h
  within key := ((changed_of_step hL.sound h).line key).withinLimits (hL.within key)
    (hL.sound.proper key)

lemma limited_of_run (t₀ : BlockTime) (calls : List Call) :
    Limited (machine.run (State.init t₀) calls) :=
  Machine.run_induction (M := machine) (fun _ _ _ hL h => hL.of_step h)
    ⟨sound_init t₀, fun _ => withinLimits_of_zero rfl⟩ calls

/-- A line out of use carries no balance, so what is owed is read off the balance alone. -/
lemma Limited.obligation_eq (hL : Limited s) (x y token : Address) :
    s.obligation x y token = debt x y ((s.lines (lineKey x y token)).accrued s.now) := by
  rw [State.obligation]
  split
  · rfl
  · rename_i hs
    exact (debt_of_zero ((hL.within _).idle (by tauto) (by tauto))).symm

/-- What a payment leaves owed, the payee extends. -/
lemma pay_obligation_le (hL : Limited s) {sender dst token : Address} {amount : ℕ}
    (h : pay s sender dst token amount = .ok s') :
    s'.obligation sender dst token ≤ (s.lines (lineKey sender dst token)).extended dst sender := by
  have hactive : (s.lines (lineKey sender dst token)).status = .Active := by
    simp only [pay, bind_ok_iff, guard_ok_iff, exists_const] at h
    exact h.1
  have hstep : step s (.pay sender dst token amount) = .ok s' := h
  have hL' : Limited s' := hL.of_step hstep
  obtain ⟨-, hlimit, rfl⟩ := pay_ok (hL.sound.ne (.inl hactive)) h
  rw [hL'.obligation_eq, setLine_self, setLine_now, accrued_of_accruedAt (by simp),
    rebalanced_balance]
  exact hlimit

lemma Limited.obligation_le (hL : Limited s) (h : step s call = .ok s') (x y token : Address) :
    s'.obligation x y token ≤ s.obligation x y token ∨
      (∃ amount, call = .pay x y token amount) ∨ ∃ time, call = .advance time := by
  have hchanged := changed_of_step hL.sound h
  rcases hchanged.now with hnow | htime
  · rw [hL.obligation_eq, (hL.of_step h).obligation_eq, hnow]
    rcases (hchanged.line (lineKey x y token)).debt_le (hL.within _)
      (fun hs => ne_of_lineKey_lt (hL.sound.proper _ hs)) with hle | hpay
    · exact .inl hle
    · exact .inr (.inl hpay)
  · exact .inr (.inr htime)

/-- In every reachable state: without interest the balance is within both limits; a payment leaves
the payer within the limit of the payee; and no other call than a payment of the debtor, or the
passing of time, raises a debt. -/
theorem limits_respected (t₀ : BlockTime) (calls : List Call) :
    let s := machine.run (State.init t₀) calls
    (∀ key, (s.lines key).feeRate = 0 →
      -((s.lines key).limitB : ℤ) ≤ (s.lines key).balance ∧
        (s.lines key).balance ≤ (s.lines key).limitA) ∧
    (∀ sender dst token amount s', pay s sender dst token amount = .ok s' →
      s'.obligation sender dst token ≤
        (s.lines (lineKey sender dst token)).extended dst sender) ∧
    ∀ call s', step s call = .ok s' → ∀ x y token,
      s'.obligation x y token ≤ s.obligation x y token ∨
        (∃ amount, call = .pay x y token amount) ∨ ∃ time, call = .advance time := by
  intro s
  have hL : Limited s := limited_of_run t₀ calls
  exact ⟨fun key => (hL.within key).limits, fun _ _ _ _ _ => pay_obligation_le hL,
    fun _ _ => hL.obligation_le⟩

end Suwappu.MutualCredit
