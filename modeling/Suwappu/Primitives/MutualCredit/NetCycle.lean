import Suwappu.Primitives.MutualCredit.Lines

/-!
# Netting a cycle

`netCycle` takes the same amount off every leg. The nodes of the cycle are distinct, so its legs
lie on distinct lines: the apply pass meets every line as the read-only pass saw it, every leg
loses exactly the minimum, and what a node gains on the leg into it it loses on the leg out of it.
-/

namespace Suwappu.MutualCredit

open Checked

variable {s s' : State} {l l' : Line} {d c token : Address} {now : BlockTime} {m : ℕ}
  {legs : List (Address × Address)} {cycle : List Address}

/-! ### One leg -/

/-- The balance of the line once `debtor` owes `m` less. -/
def lessDebt (debtor creditor : Address) (m : ℕ) (bal : ℤ) : ℤ :=
  if debtor < creditor then bal + m else bal - m

lemma debt_lessDebt (hm : 0 < m) {bal : ℤ} (h : m ≤ debt d c bal) :
    debt d c (lessDebt d c m bal) = debt d c bal - m := by
  unfold debt lessDebt at *
  split <;> simp_all only [if_true, if_false]
  · omega
  · omega

/-- The other side owes nothing, before and after. -/
lemma debt_swap_of_debt_pos (hne : d ≠ c) {bal : ℤ} (h : 0 < debt d c bal) : debt c d bal = 0 := by
  unfold debt at *
  rcases lt_or_gt_of_ne hne with hlt | hgt
  · rw [if_neg hlt.asymm]
    rw [if_pos hlt] at h
    omega
  · rw [if_pos hgt]
    rw [if_neg hgt.asymm] at h
    omega

lemma debt_swap_lessDebt (hne : d ≠ c) (hm : 0 < m) {bal : ℤ} (h : m ≤ debt d c bal) :
    debt c d (lessDebt d c m bal) = 0 := by
  unfold debt lessDebt at *
  rcases lt_or_gt_of_ne hne with hlt | hgt
  · rw [if_neg hlt.asymm, if_pos hlt]
    rw [if_pos hlt] at h
    omega
  · rw [if_pos hgt, if_neg hgt.asymm]
    rw [if_neg hgt.asymm] at h
    omega

/-- A line after one leg was netted on it. -/
structure NettedLine (now : BlockTime) (m : ℕ) (d c : Address) (l l' : Line) : Prop where
  active : l.status = .Active
  active' : l'.status = .Active
  accruedAt : l'.lastAccrual = now
  le_debt : m ≤ debt d c (l.accrued now)
  balance : l'.balance = lessDebt d c m (l.accrued now)
  fits : Fits l'.balance

lemma netLine_ok (hne : d ≠ c) (hm : m < 2 ^ 255) (h : netLine now m d c l = .ok l') :
    NettedLine now m d c l l' := by
  have hfits := netLine_fits h
  simp only [netLine, bind_ok_iff, guard_ok_iff, exists_const, fitI_ok_iff, pure_ok_iff] at h
  obtain ⟨hstatus, l₁, hl₁, legOwed, howed, hle, balance, ⟨-, rfl⟩, rfl⟩ := h
  obtain ⟨rfl, -⟩ := accrue_ok hl₁
  obtain rfl := debtOf_ok hne howed
  refine ⟨hstatus, by simpa using hstatus, by simp, hle, ?_, hfits⟩
  rw [clearDemandIfCovered_balance, lessDebt, int256_eq hm]
  rcases lt_or_gt_of_ne hne with hlt | hgt
  · simp [pair_of_lt hlt, hlt, hlt.ne]
  · simp [pair_of_gt hgt, hgt.asymm]

/-! ### What is owed on the line of a leg -/

/-- What `debtor` owes `creditor`, with the interest up to now. -/
def State.obligation (s : State) (debtor creditor token : Address) : ℕ :=
  let l := s.lines (lineKey debtor creditor token)
  if l.status = .Active ∨ l.status = .Defaulted then debt debtor creditor (l.accrued s.now) else 0

/-- What is owed to `x` less what `x` owes, over all its lines in `token`. -/
def State.position (s : State) (token x : Address) : ℤ :=
  ∑ y, ((s.obligation y x token : ℤ) - s.obligation x y token)

lemma owedBy_ok (hne : d ≠ c) {n : ℕ} (h : owedBy s d c token = .ok n) :
    n = s.obligation d c token := by
  unfold owedBy at h
  dsimp only at h
  split at h
  · rename_i hstatus
    simp only [pure_ok_iff] at h
    rw [State.obligation, if_neg (by tauto), h]
  · rename_i hstatus
    simp only [bind_ok_iff] at h
    obtain ⟨b, hb, h⟩ := h
    obtain rfl := (accruedBalance_ok hb).1
    rw [State.obligation, if_pos (by tauto)]
    exact debtOf_ok hne h

/-- `owedBy` on a line whose accrual and negation do not overflow. -/
lemma owedBy_eq (hne : d ≠ c) {b : ℤ} (hstatus : (s.lines (lineKey d c token)).status = .Active)
    (hb : accruedBalance s.now (s.lines (lineKey d c token)) = .ok b) (hfit : Fits (-b)) :
    owedBy s d c token = .ok (debt d c b) := by
  unfold owedBy
  dsimp only
  rw [if_neg (by simp [hstatus]), hb]
  exact debtOf_eq hne hfit

/-- A successful read of a positive debt on a line in use: what it read. -/
lemma owedBy_pos (hI : BalancesFit s) (hne : d ≠ c)
    (hstatus : (s.lines (lineKey d c token)).status = .Active ∨
      (s.lines (lineKey d c token)).status = .Defaulted) {n : ℕ} (hn : n ≠ 0)
    (h : owedBy s d c token = .ok n) :
    accruedBalance s.now (s.lines (lineKey d c token))
        = .ok ((s.lines (lineKey d c token)).accrued s.now) ∧
      Fits (-(s.lines (lineKey d c token)).accrued s.now) ∧
      n = debt d c ((s.lines (lineKey d c token)).accrued s.now) ∧ n < 2 ^ 255 := by
  unfold owedBy at h
  dsimp only at h
  rw [if_neg (by tauto)] at h
  simp only [bind_ok_iff] at h
  obtain ⟨b, hb, h⟩ := h
  obtain rfl := (accruedBalance_ok hb).1
  have hfit := accruedBalance_fits (hI _) hb
  generalize (s.lines (lineKey d c token)).accrued s.now = b at *
  have hdebt := debtOf_ok hne h
  unfold Fits at *
  refine ⟨hb, ?_, hdebt, ?_⟩
  · rcases lt_or_gt_of_ne hne with hlt | hgt
    · rw [debt, if_pos hlt] at hdebt
      simp only [debtOf, pair_of_lt hlt, hne, false_and, if_false, true_and] at h
      rw [if_pos (by omega), negU_ok_iff] at h
      exact h.1
    · rw [debt, if_neg hgt.asymm] at hdebt
      omega
  · rcases lt_or_gt_of_ne hne with hlt | hgt
    · rw [debt, if_pos hlt] at hdebt
      simp only [debtOf, pair_of_lt hlt, hne, false_and, if_false, true_and] at h
      rw [if_pos (by omega), negU_ok_iff] at h
      have := h.1
      unfold Fits at this
      omega
    · rw [debt, if_neg hgt.asymm] at hdebt
      omega

/-! ### The two passes -/

lemma checkNodes_ok_iff {u : Unit} : checkNodes cycle = .ok u ↔
    cycle.Nodup ∧ Address.zero ∉ cycle := by
  induction cycle with
  | nil => simp [checkNodes]
  | cons node rest ih =>
    simp only [checkNodes, bind_ok_iff, guard_ok_iff, exists_const, ih, List.nodup_cons,
      List.mem_cons, not_or, ne_comm (a := node)]
    tauto

/-- The read-only pass returns a lower bound of what the legs owe, and one of its arguments. -/
lemma minLeg_ok {acc : ℕ} (h : minLeg s token legs acc = .ok m) :
    (∀ leg ∈ legs, ∃ owed, owedBy s leg.1 leg.2 token = .ok owed ∧ owed ≠ 0 ∧ m ≤ owed) ∧
      m ≤ acc ∧ (m = acc ∨ ∃ leg ∈ legs, owedBy s leg.1 leg.2 token = .ok m) := by
  induction legs generalizing acc with
  | nil =>
    simp only [minLeg, pure_ok_iff] at h
    simp [h]
  | cons leg legs ih =>
    simp only [minLeg, bind_ok_iff, guard_ok_iff, exists_const] at h
    obtain ⟨owed, howed, hne, h⟩ := h
    obtain ⟨hlegs, hle, hmin⟩ := ih h
    refine ⟨?_, ?_, ?_⟩
    · intro leg' hleg'
      rcases List.mem_cons.mp hleg' with rfl | hleg'
      · exact ⟨owed, howed, hne, by split at hle <;> omega⟩
      · exact hlegs leg' hleg'
    · split at hle <;> omega
    · rcases hmin with rfl | ⟨leg', hleg', hmin⟩
      · split
        · exact .inr ⟨leg, List.mem_cons_self, howed⟩
        · exact .inl rfl
      · exact .inr ⟨leg', List.mem_cons_of_mem _ hleg', hmin⟩

/-- The line a leg lies on. -/
def legKey (token : Address) (leg : Address × Address) : LineKey := lineKey leg.1 leg.2 token

/-- On distinct lines the apply pass nets every line as it found it, and touches no other. -/
lemma netLegs_ok (hkeys : (legs.map (legKey token)).Nodup) (h : netLegs token m s legs = .ok s') :
    s'.now = s.now ∧ (∀ key ∉ legs.map (legKey token), s'.lines key = s.lines key) ∧
      ∀ leg ∈ legs, netLine s.now m leg.1 leg.2 (s.lines (legKey token leg))
        = .ok (s'.lines (legKey token leg)) := by
  induction legs generalizing s with
  | nil =>
    simp only [netLegs, pure_ok_iff] at h
    simp [h]
  | cons leg legs ih =>
    simp only [netLegs, bind_ok_iff] at h
    obtain ⟨l, hl, h⟩ := h
    rw [List.map_cons, List.nodup_cons] at hkeys
    obtain ⟨hnow, hothers, hlegs⟩ := ih hkeys.2 h
    refine ⟨hnow, ?_, ?_⟩
    · intro key hkey
      rw [List.map_cons, List.mem_cons, not_or] at hkey
      rw [hothers key hkey.2]
      exact setLine_of_ne s l hkey.1
    · intro leg' hleg'
      rcases List.mem_cons.mp hleg' with rfl | hleg'
      · rw [hothers _ hkeys.1, legKey, setLine_self]
        exact hl
      · have hne : legKey token leg' ≠ legKey token leg := by
          rintro e
          exact hkeys.1 (e ▸ List.mem_map_of_mem hleg')
        have hsame : (s.setLine (lineKey leg.1 leg.2 token) l).lines (legKey token leg')
            = s.lines (legKey token leg') := setLine_of_ne s l hne
        have hline := hlegs leg' hleg'
        rwa [setLine_now, hsame] at hline

/-- The legs of a cycle of three or more distinct nodes lie on distinct lines. -/
lemma nodup_legKeys (hd : cycle.Nodup) (hn : 3 ≤ cycle.length) (token : Address) :
    ((legsOf cycle).map (legKey token)).Nodup := by
  refine (Cycles.nodup_legs hd).map_on ?_
  rintro ⟨x, y⟩ hx ⟨x', y'⟩ hx' e
  obtain ⟨-, ⟨rfl, rfl⟩ | ⟨rfl, rfl⟩⟩ := lineKey_eq_iff.mp e
  · rfl
  · exact absurd hx' (Cycles.not_mem_legs_swap hd hn hx)

/-! ### Conservation -/

/-- What a successful call does: every leg owes `m` less, `m` is what the smallest leg owed, no
other line changes, and nobody's net position does. -/
structure Netted (s s' : State) (token : Address) (cycle : List Address) (m : ℕ) : Prop where
  pos : 0 < m
  attained : ∃ leg ∈ legsOf cycle, owedBy s leg.1 leg.2 token = .ok m
  legs : ∀ leg ∈ legsOf cycle, ∃ owed, m ≤ owed ∧ owedBy s leg.1 leg.2 token = .ok owed ∧
    owedBy s' leg.1 leg.2 token = .ok (owed - m)
  signs : ∀ leg ∈ legsOf cycle,
    owedBy s leg.2 leg.1 token = .ok 0 ∧ owedBy s' leg.2 leg.1 token = .ok 0
  positions : ∀ x, s'.position token x = s.position token x
  others : ∀ key, (∀ leg ∈ legsOf cycle, key ≠ lineKey leg.1 leg.2 token) →
    s'.lines key = s.lines key

/-- What one leg owes, in both directions, before and after. -/
structure NettedLeg (s s' : State) (token : Address) (m : ℕ) (d c : Address) : Prop where
  owed : ∃ owed, m ≤ owed ∧ owedBy s d c token = .ok owed ∧ owedBy s' d c token = .ok (owed - m)
  swap : owedBy s c d token = .ok 0 ∧ owedBy s' c d token = .ok 0

lemma nettedLeg_of_line (hI : BalancesFit s) (hnow : s'.now = s.now) (hne : d ≠ c) (hm : 0 < m)
    {owed : ℕ} (hle : m ≤ owed) (howed : owedBy s d c token = .ok owed)
    (hline : NettedLine s.now m d c (s.lines (lineKey d c token)) (s'.lines (lineKey d c token))) :
    NettedLeg s s' token m d c := by
  obtain ⟨hb, hfit, rfl, -⟩ := owedBy_pos hI hne (.inl hline.active) (by omega) howed
  have hb' : accruedBalance s'.now (s'.lines (lineKey d c token))
      = .ok (s'.lines (lineKey d c token)).balance :=
    accruedBalance_of_accruedAt (hline.accruedAt.trans hnow.symm)
  have hbal := hline.balance
  have hle' := hline.le_debt
  have hfits := hline.fits
  generalize (s.lines (lineKey d c token)).accrued s.now = b at *
  generalize (s'.lines (lineKey d c token)).balance = b' at *
  subst hbal
  -- the new balance lies between the old one and zero
  have hfit' : Fits (-lessDebt d c m b) := by
    unfold Fits lessDebt debt at *
    split <;> simp_all only [if_true, if_false] <;> omega
  have hstatus : (s.lines (lineKey c d token)).status = .Active := by
    rw [lineKey_comm]
    exact hline.active
  have hstatus' : (s'.lines (lineKey c d token)).status = .Active := by
    rw [lineKey_comm]
    exact hline.active'
  refine ⟨⟨_, hle, howed, ?_⟩, ?_, ?_⟩
  · rw [owedBy_eq hne hline.active' hb' hfit', debt_lessDebt hm hle']
  · rw [owedBy_eq hne.symm hstatus (by rw [lineKey_comm, hb]) hfit,
      debt_swap_of_debt_pos hne (by omega)]
  · rw [owedBy_eq hne.symm hstatus' (by rw [lineKey_comm, hb']) hfit',
      debt_swap_lessDebt hne hm hle']

/-- Every directed debt of the token after the call. -/
lemma obligation_netted (hd : cycle.Nodup) (hn : 3 ≤ cycle.length) (hnow : s'.now = s.now)
    (hothers : ∀ key ∉ (legsOf cycle).map (legKey token), s'.lines key = s.lines key)
    (hlegs : ∀ leg ∈ legsOf cycle, NettedLeg s s' token m leg.1 leg.2) (y x : Address) :
    (s'.obligation y x token : ℤ)
      = s.obligation y x token - if (y, x) ∈ Cycles.legs cycle then (m : ℤ) else 0 := by
  by_cases hyx : (y, x) ∈ Cycles.legs cycle
  · have hne : y ≠ x := Cycles.ne_of_mem_legs hd (by omega) hyx
    obtain ⟨owed, hle, h, h'⟩ := (hlegs _ hyx).owed
    rw [if_pos hyx, ← owedBy_ok hne h, ← owedBy_ok hne h']
    omega
  · rw [if_neg hyx, sub_zero]
    by_cases hxy : (x, y) ∈ Cycles.legs cycle
    · have hne : x ≠ y := Cycles.ne_of_mem_legs hd (by omega) hxy
      obtain ⟨h, h'⟩ := (hlegs _ hxy).swap
      rw [← owedBy_ok hne.symm h, ← owedBy_ok hne.symm h']
    · have hkey : lineKey y x token ∉ (legsOf cycle).map (legKey token) := by
        rintro hmem
        obtain ⟨⟨d, c⟩, hleg, e⟩ := List.mem_map.mp hmem
        obtain ⟨-, ⟨rfl, rfl⟩ | ⟨rfl, rfl⟩⟩ := lineKey_eq_iff.mp e
        · exact hyx hleg
        · exact hxy hleg
      simp only [State.obligation, hothers _ hkey, hnow]

lemma netCycle_ok (hI : BalancesFit s) (h : netCycle s token cycle = .ok s') :
    ∃ m, Netted s s' token cycle m := by
  simp only [netCycle, bind_ok_iff, guard_ok_iff, exists_const, checkNodes_ok_iff] at h
  obtain ⟨hn, ⟨hd, -⟩, m, hmin, h⟩ := h
  obtain ⟨howed, -, hattained⟩ := minLeg_ok hmin
  obtain ⟨hnow, hothers, hlines⟩ := netLegs_ok (nodup_legKeys hd hn token) h
  have hne : ∀ leg ∈ legsOf cycle, leg.1 ≠ leg.2 := fun leg hleg =>
    Cycles.ne_of_mem_legs hd (by omega) hleg
  -- the start value of the minimum is above every debt, so some leg attains the minimum
  obtain ⟨leg₀, hleg₀⟩ : ∃ leg, leg ∈ legsOf cycle :=
    List.exists_mem_of_length_pos (by rw [legsOf, Cycles.length_legs]; omega)
  have hlt : m < 2 ^ 255 := by
    obtain ⟨owed, ho, h0, hle⟩ := howed leg₀ hleg₀
    have hactive := (hlines leg₀ hleg₀)
    simp only [netLine, bind_ok_iff, guard_ok_iff, exists_const] at hactive
    exact hle.trans_lt (owedBy_pos hI (hne _ hleg₀) (.inl hactive.1) h0 ho).2.2.2
  obtain ⟨leg, hleg, hm⟩ := hattained.resolve_left (by omega)
  have hpos : 0 < m := by
    obtain ⟨owed, ho, h0, -⟩ := howed leg hleg
    rw [hm, Except.ok.injEq] at ho
    omega
  have hnetted : ∀ leg ∈ legsOf cycle, NettedLeg s s' token m leg.1 leg.2 := by
    intro leg hleg
    obtain ⟨owed, ho, -, hle⟩ := howed leg hleg
    exact nettedLeg_of_line hI hnow (hne _ hleg) hpos hle ho
      (netLine_ok (hne _ hleg) hlt (hlines leg hleg))
  refine ⟨m, hpos, ⟨leg, hleg, hm⟩, fun leg hleg => (hnetted leg hleg).owed,
    fun leg hleg => (hnetted leg hleg).swap, fun x => ?_, fun key hkey => ?_⟩
  · simp only [State.position, obligation_netted hd hn hnow hothers hnetted]
    rw [Finset.sum_sub_distrib, Finset.sum_sub_distrib, Finset.sum_sub_distrib,
      Finset.sum_sub_distrib, Cycles.sum_legs_into hd x (m : ℤ)]
    ring
  · refine hothers key fun hmem => ?_
    obtain ⟨leg, hleg, e⟩ := List.mem_map.mp hmem
    exact hkey leg hleg e.symm

/-- In every reachable state a successful `netCycle` conserves, and a failing one does nothing. -/
theorem netCycle_conserves (t₀ : BlockTime) (calls : List Call) (token : Address)
    (cycle : List Address) :
    let s := machine.run (State.init t₀) calls
    match netCycle s token cycle with
    | .ok s'   => ∃ m, Netted s s' token cycle m
    | .error _ => machine.exec s (.netCycle token cycle) = s := by
  intro s
  cases h : netCycle s token cycle with
  | ok s'   => exact netCycle_ok (run_fits t₀ calls) h
  | error e => exact Machine.exec_error (M := machine) h

/-- Open a line between `x` and `y` in token 9 and let `x` run up a debt on it. -/
def opened (x y : Address) (debt : ℕ) : List Call :=
  [.proposeLine x y 9 100 0 60, .acceptLine y x 9 100, .pay x y 9 debt]

example : owedBy (machine.run (State.init 0)
    (opened 1 2 7 ++ opened 2 3 5 ++ opened 3 1 6 ++ [.netCycle 9 [1, 2, 3]])) 1 2 9 = .ok 2 := by
  decide +kernel

end Suwappu.MutualCredit
