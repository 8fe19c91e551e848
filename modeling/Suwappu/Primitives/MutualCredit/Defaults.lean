import Suwappu.Primitives.MutualCredit.Change

/-!
# Defaults

A demand outlives neither the debt it was made for nor a change of sides: every path that lets a
balance reach zero or flip clears it. So a default is always preceded by a demand of the same
creditor, a grace period earlier, and by a debt in every state since.
-/

namespace Suwappu.MutualCredit

open Checked

variable {s s' : State} {l l' : Line} {d c x token : Address} {now : BlockTime} {m : ℕ}
  {key : LineKey} {call : Call} {z : ℤ}

/-! ### Balances in favour of a party -/

/-- The balance is strictly in favour of `x`. -/
def Favours (key : LineKey) (z : ℤ) (x : Address) : Prop :=
  (x = key.lo ∧ 0 < z) ∨ (x = key.hi ∧ z < 0)

lemma favours_iff_debt_pos (hne : d ≠ c) : Favours (lineKey d c token) z c ↔ 0 < debt d c z := by
  rw [Favours, lineKey_lo, lineKey_hi, debt]
  rcases lt_or_gt_of_ne hne with hlt | hgt
  · rw [pair_of_lt hlt, if_pos hlt]
    simp [hne.symm]
  · rw [pair_of_gt hgt, if_neg hgt.asymm]
    simp [hne.symm]

lemma accrued_pos_iff : 0 < l.accrued now ↔ 0 < l.balance := by
  unfold Line.accrued
  split <;> omega

lemma accrued_neg_iff : l.accrued now < 0 ↔ l.balance < 0 := by
  rcases eq_or_ne l.balance 0 with h0 | h0
  · rw [accrued_of_zero (.inl h0)]
  · unfold Line.accrued
    split <;> omega

/-- Interest takes no side. -/
lemma favours_accrued_iff (now : BlockTime) :
    Favours key (l.accrued now) x ↔ Favours key l.balance x := by
  rw [Favours, Favours, accrued_pos_iff, accrued_neg_iff]

lemma Favours.ne_zero (h : Favours key z x) : z ≠ 0 := by
  rcases h with ⟨-, h⟩ | ⟨-, h⟩
  · exact h.ne'
  · exact h.ne

/-! ### A pending demand -/

/-- A line with a demand is in use, and its balance favours the demandant. -/
def Owing (key : LineKey) (l : Line) : Prop :=
  l.demandTs ≠ 0 → (l.status = .Active ∨ l.status = .Defaulted) ∧ Favours key l.balance l.demandBy

/-- A demand that a new balance does not clear is still owed. -/
lemma Owing.rebalanced (ho : Owing key l) (hlt : key.lo < key.hi) :
    Owing key (l.rebalanced now key z) := by
  intro hts
  have h0 : l.demandTs ≠ 0 := by
    intro h0
    rcases rebalanced_cases l now key z with h | h <;> rw [h] at hts
    · exact hts h0
    · exact hts rfl
  obtain ⟨hs, hfavours⟩ := ho h0
  refine ⟨by rwa [rebalanced_status], ?_⟩
  unfold Line.rebalanced clearDemandIfCovered at hts ⊢
  dsimp only at hts ⊢
  rw [if_neg h0] at hts ⊢
  rcases hfavours with ⟨hby, -⟩ | ⟨hby, -⟩
  · rw [if_pos hby] at hts ⊢
    split at hts <;> rename_i howed
    · rw [if_pos howed]
      exact .inl ⟨hby, (howed.resolve_right fun h => hlt.ne h.1.symm).2⟩
    · exact absurd rfl hts
  · have hnot : l.demandBy ≠ key.lo := by
      rw [hby]
      exact hlt.ne'
    rw [if_neg hnot] at hts ⊢
    split at hts <;> rename_i howed
    · rw [if_pos howed]
      exact .inr ⟨hby, (howed.resolve_left fun h => hlt.ne h.1).2⟩
    · exact absurd rfl hts

lemma Change.owing (h : Change now key call l l') (ho : Owing key l)
    (hproper : l.status ≠ .None → key.lo < key.hi) : Owing key l' := by
  cases h with
  | keep => exact ho
  | propose => exact fun hts => absurd rfl hts
  | accept hkey hs => exact fun hts => absurd (ho hts).1 (by simp [hs])
  | withdraw hs => exact fun hts => absurd (ho hts).1 (by simp [hs])
  | pay hkey hs => exact ho.rebalanced (hproper (by simp [hs]))
  | reduce hkey hs =>
    exact ho.rebalanced (hproper (by rcases hs with hs | hs <;> simp [hs]))
  | @demand sender debtor token _ hkey hs hpos =>
    have hne : debtor ≠ sender := (ne_of_lineKey_lt (hkey ▸ hproper (by simp [hs]))).symm
    rw [lineKey_comm] at hkey
    subst hkey
    exact fun _ => ⟨.inl hs, (favours_iff_debt_pos hne).mpr hpos⟩
  | default hkey hs => exact fun hts => ⟨.inr rfl, (favours_accrued_iff now).mpr (ho hts).2⟩
  | close hs hzero =>
    exact fun hts => absurd hzero ((favours_accrued_iff now).mpr (ho hts).2).ne_zero

/-- A demand that is pending after a change was pending before, or the change made it. -/
lemma Change.demanded (h : Change now key call l l') (hts : l'.demandTs ≠ 0) :
    (l.demandTs = l'.demandTs ∧ l.demandBy = l'.demandBy) ∨
      ∃ debtor token, key = lineKey l'.demandBy debtor token ∧
        call = .demandSettlement l'.demandBy debtor token ∧ l'.demandTs = now := by
  cases h with
  | keep => exact .inl ⟨rfl, rfl⟩
  | propose => exact absurd rfl hts
  | accept => exact .inl ⟨rfl, rfl⟩
  | withdraw => exact .inl ⟨rfl, rfl⟩
  | pay =>
    rcases rebalanced_cases l now key _ with h | h <;> rw [h] at hts ⊢
    · exact .inl ⟨rfl, rfl⟩
    · exact absurd rfl hts
  | reduce =>
    rcases rebalanced_cases l now key _ with h | h <;> rw [h] at hts ⊢
    · exact .inl ⟨rfl, rfl⟩
    · exact absurd rfl hts
  | demand hkey => exact .inr ⟨_, _, hkey, rfl, rfl⟩
  | default => exact .inl ⟨rfl, rfl⟩
  | close => exact .inl ⟨rfl, rfl⟩

/-! ### Every run -/

structure Demanded (s : State) : Prop where
  sound : Sound s
  owing : ∀ key, Owing key (s.lines key)

lemma Demanded.of_step (hD : Demanded s) (h : step s call = .ok s') : Demanded s' where
  sound := hD.sound.of_step h
  owing key := ((changed_of_step hD.sound h).line key).owing (hD.owing key) (hD.sound.proper key)

lemma demanded_of_run (t₀ : BlockTime) (calls : List Call) :
    Demanded (machine.run (State.init t₀) calls) :=
  Machine.run_induction (M := machine) (fun _ _ _ hD h => hD.of_step h)
    ⟨sound_init t₀, fun _ hts => absurd rfl hts⟩ calls

/-- Under a demand the debtor owes. -/
lemma Demanded.obligation_pos (hD : Demanded s)
    (hts : (s.lines (lineKey c d token)).demandTs ≠ 0)
    (hby : (s.lines (lineKey c d token)).demandBy = c) : 0 < s.obligation d c token := by
  obtain ⟨hs, hfavours⟩ := hD.owing _ hts
  have hne : d ≠ c := (hD.sound.ne hs).symm
  rw [hby, lineKey_comm, ← favours_accrued_iff s.now, favours_iff_debt_pos hne]
    at hfavours
  rw [State.obligation, lineKey_comm d c, if_pos hs, lineKey_comm c d]
  exact hfavours

/-- The demand of `creditor` made at `ts` is pending. -/
def Pending (creditor debtor token : Address) (ts : BlockTime) (s : State) : Prop :=
  ts ≠ 0 ∧ (s.lines (lineKey creditor debtor token)).demandTs = ts ∧
    (s.lines (lineKey creditor debtor token)).demandBy = creditor

/-- The demand of `creditor`, made successfully at `ts`. -/
def Demands (creditor debtor token : Address) (ts : BlockTime) (s : State) (call : Call) : Prop :=
  call = .demandSettlement creditor debtor token ∧
    (demandSettlement s creditor debtor token).isOk = true ∧ s.now = ts

lemma pending_of_step {ts : BlockTime} (hS : Sound s) (h : step s call = .ok s')
    (hp : Pending c d token ts s') :
    Pending c d token ts s ∨ Demands c d token ts s call := by
  obtain ⟨h0, hts, hby⟩ := hp
  have hline := (changed_of_step hS h).line (lineKey c d token)
  rcases hline.demanded (by rwa [hts]) with ⟨hts', hby'⟩ | ⟨debtor, token', hkey, hcall, hnow⟩
  · exact .inl ⟨h0, hts'.trans hts, hby'.trans hby⟩
  · rw [hby] at hkey hcall
    obtain ⟨rfl, ⟨-, rfl⟩ | ⟨rfl, rfl⟩⟩ := lineKey_eq_iff.mp hkey <;> subst hcall <;>
      exact .inr ⟨rfl, by rw [show demandSettlement s _ _ _ = .ok s' from h]; rfl,
        hnow.symm.trans hts⟩

/-- In every reachable state a demand goes with a balance in favour of the demandant. A default
succeeds only a grace period after a demand of the same creditor that succeeded, with the debtor
owing in every state from that demand on. -/
theorem defaults_earned (t₀ : BlockTime) (calls : List Call) :
    let s := machine.run (State.init t₀) calls
    (∀ key, (s.lines key).demandTs ≠ 0 →
      Favours key (s.lines key).balance (s.lines key).demandBy) ∧
    ∀ creditor debtor token s', markDefault s creditor debtor token = .ok s' →
      ∃ pre mid, calls = pre ++ .demandSettlement creditor debtor token :: mid ∧
        (demandSettlement (machine.run (State.init t₀) pre) creditor debtor token).isOk = true ∧
        (machine.run (State.init t₀) pre).now.val +
          (s.lines (lineKey creditor debtor token)).grace.val ≤ s.now.val ∧
        ∀ mid', mid' <+: mid → 0 < (machine.run (State.init t₀)
          (pre ++ .demandSettlement creditor debtor token :: mid')).obligation
            debtor creditor token := by
  intro s
  refine ⟨fun key hts => ((demanded_of_run t₀ calls).owing key hts).2, ?_⟩
  intro creditor debtor token s' h
  simp only [markDefault, bind_ok_iff, guard_ok_iff, exists_const] at h
  obtain ⟨⟨-, hby, hts⟩, hgrace, -⟩ := h
  obtain ⟨pre, a, mid, hcalls, ⟨rfl, hok, hnow⟩, hmid⟩ := Machine.run_since (M := machine)
    (P := Pending creditor debtor token (s.lines (lineKey creditor debtor token)).demandTs)
    (fun h => h.1 h.2.1.symm)
    (fun bs _ _ => pending_of_step (sound_of_run t₀ bs)) ⟨hts, rfl, hby⟩
  refine ⟨pre, mid, hcalls, hok, by rwa [hnow], fun mid' hmid' => ?_⟩
  obtain ⟨h0, hts', hby'⟩ := hmid mid' hmid'
  exact (demanded_of_run t₀ _).obligation_pos (by rwa [hts']) hby'

end Suwappu.MutualCredit
