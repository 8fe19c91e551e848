import Suwappu.Bonds.Basic
import Suwappu.Lib.Totals

/-!
# The accounts of the bonds

The two counters against the bonds they count: `Accounted` is what every call and every tick of the
clock keeps. Nothing is ever clamped, and a bond that was not cancelled pays by any time what its
terms say, however often it was redeemed before.
-/

namespace Suwappu.Bonds

open Checked

variable {C : Contracts} {env : Env} {s s' : State} {w w' : World} {b b' : Bond} {id t t' : ℕ}

/-! ### Vesting -/

/-- What a bond has vested by time `t`. -/
def vestedBy (b : Bond) (t : ℕ) : ℕ :=
  if t ≥ b.endTime then b.suwpTotal else b.suwpTotal * (t - b.startTime) / VESTING_DURATION

/-- The times of a bond that exists. -/
structure Dated (b : Bond) (now : ℕ) : Prop where
  started : b.startTime ≤ now
  ends : b.endTime = b.startTime + VESTING_DURATION

lemma vestedAmount_ok {vested : ℕ} (h : vestedAmount t b = .ok vested) :
    vested = vestedBy b t := by
  unfold vestedAmount at h
  unfold vestedBy
  split at h
  · rename_i hend
    cases h
    rw [if_pos hend]
  · rename_i hend
    simp only [bind_ok_iff, subU_ok_iff, mulU_ok_iff, pure_ok_iff] at h
    obtain ⟨_, ⟨-, rfl⟩, _, ⟨-, rfl⟩, rfl⟩ := h
    rw [if_neg hend]

lemma vestedBy_le_total (hends : b.endTime = b.startTime + VESTING_DURATION) (t : ℕ) :
    vestedBy b t ≤ b.suwpTotal := by
  unfold vestedBy
  split
  · exact le_rfl
  · refine Nat.div_le_of_le_mul ?_
    rw [Nat.mul_comm VESTING_DURATION]
    exact Nat.mul_le_mul_left _ (by omega)

lemma vestedBy_mono (hends : b.endTime = b.startTime + VESTING_DURATION) (h : t ≤ t') :
    vestedBy b t ≤ vestedBy b t' := by
  by_cases hend : t' ≥ b.endTime
  · rw [vestedBy.eq_1 b t', if_pos hend]
    exact vestedBy_le_total hends t
  · rw [vestedBy, vestedBy, if_neg hend, if_neg (by omega)]
    exact Nat.div_le_div_right (Nat.mul_le_mul_left _ (by omega))

/-- The terms of a bond, which no call changes. -/
def Bond.terms (b : Bond) : ℕ × ℕ × ℕ := (b.suwpTotal, b.startTime, b.endTime)

lemma vestedBy_of_terms (h : b'.terms = b.terms) (t : ℕ) : vestedBy b' t = vestedBy b t := by
  simp only [Bond.terms, Prod.mk.injEq] at h
  rw [vestedBy, vestedBy, h.1, h.2.1, h.2.2]

/-! ### The accounts -/

/-- What a bond counts for among the SUWP issued. -/
def Bond.issued (b : Bond) : ℕ := if b.active then b.suwpTotal else b.suwpClaimed

def Bond.live (b : Bond) : ℕ := if b.active then 1 else 0

structure Accounted (w : World) : Prop where
  fresh : ∀ id, w.state.nextBondId ≤ id → w.state.bonds id = .empty
  dated : ∀ id < w.state.nextBondId, w.state.bonds id = .empty ∨
    Dated (w.state.bonds id) w.state.now.val
  issued : w.state.totalSuwpIssued = ∑ id ∈ Finset.range w.state.nextBondId,
    (w.state.bonds id).issued
  cap : w.state.totalSuwpIssued ≤ w.state.globalBondCap
  minted : ∀ id, w.minted id = (w.state.bonds id).suwpClaimed
  lpBonded : w.state.totalLpBonded + w.cancelled.length = w.lpBonded
  live : ∑ id ∈ Finset.range w.state.nextBondId, (w.state.bonds id).live ≤ w.state.totalLpBonded
  vested : ∀ id, (w.state.bonds id).suwpClaimed ≤ vestedBy (w.state.bonds id) w.state.now.val
  done : ∀ id, (w.state.bonds id).active = false → id ∉ w.cancelled →
    (w.state.bonds id).suwpClaimed = (w.state.bonds id).suwpTotal

/-- No bond, no counter and no clock differs, and no cap is below what was issued. -/
structure SameBonds (s s' : State) : Prop where
  nextBondId : s'.nextBondId = s.nextBondId
  bonds : s'.bonds = s.bonds
  totalSuwpIssued : s'.totalSuwpIssued = s.totalSuwpIssued
  totalLpBonded : s'.totalLpBonded = s.totalLpBonded
  now : s'.now = s.now
  cap : s'.globalBondCap = s.globalBondCap ∨ s'.totalSuwpIssued ≤ s'.globalBondCap

namespace Accounted

lemma of_init (owner : Address) (now : BlockTime) : Accounted (.init owner now) where
  fresh _ _ := rfl
  dated _ _ := .inl rfl
  issued := rfl
  cap := Nat.zero_le _
  minted _ := rfl
  lpBonded := rfl
  live := le_rfl
  vested _ := Nat.zero_le _
  done _ _ _ := rfl

lemma lt_next (hA : Accounted w) (h : (w.state.bonds id).active = true) :
    id < w.state.nextBondId := by
  by_contra hle
  rw [hA.fresh id (not_lt.mp hle)] at h
  cases h

lemma dated_of_active (hA : Accounted w) (h : (w.state.bonds id).active = true) :
    Dated (w.state.bonds id) w.state.now.val := by
  rcases hA.dated id (hA.lt_next h) with he | hd
  · rw [he] at h
    cases h
  · exact hd

lemma claimed_le_total (hA : Accounted w) (h : (w.state.bonds id).active = true) :
    (w.state.bonds id).suwpClaimed ≤ (w.state.bonds id).suwpTotal :=
  (hA.vested id).trans (vestedBy_le_total (hA.dated_of_active h).ends _)

/-- An active bond is among those counted. -/
lemma total_le_issued (hA : Accounted w) (h : (w.state.bonds id).active = true) :
    (w.state.bonds id).suwpTotal ≤ w.state.totalSuwpIssued := by
  have hmem := Finset.mem_range.mpr (hA.lt_next h)
  have hone : (w.state.bonds id).issued = (w.state.bonds id).suwpTotal := if_pos h
  rw [hA.issued, ← hone]
  exact Finset.single_le_sum_of_canonicallyOrdered (f := fun id => (w.state.bonds id).issued) hmem

lemma lp_pos (hA : Accounted w) (h : (w.state.bonds id).active = true) :
    0 < w.state.totalLpBonded := by
  have hmem := Finset.mem_range.mpr (hA.lt_next h)
  have hone : (w.state.bonds id).live = 1 := if_pos h
  have hle := Finset.single_le_sum_of_canonicallyOrdered
    (f := fun id => (w.state.bonds id).live) hmem
  rw [hone] at hle
  exact hle.trans hA.live

/-- A call rewrites one active bond: the counters follow. -/
lemma update (hA : Accounted w) (h : (w.state.bonds id).active = true)
    (hterms : b.terms = (w.state.bonds id).terms)
    (hclaimed : b.suwpClaimed ≤ vestedBy (w.state.bonds id) w.state.now.val)
    {issued lp : ℕ} {minted : ℕ → ℕ} {bonded : ℕ} {cancelled : List ℕ}
    (hissued : issued + (w.state.bonds id).issued = w.state.totalSuwpIssued + b.issued)
    (hcap : issued ≤ w.state.totalSuwpIssued)
    (hlp : lp + cancelled.length = bonded)
    (hlive : w.state.totalLpBonded + b.live ≤ lp + 1)
    (hminted : ∀ j, minted j = (Function.update w.state.bonds id b j).suwpClaimed)
    (hcancelled : ∀ j, j ∉ cancelled → j ∉ w.cancelled)
    (hdone : b.active = false → id ∉ cancelled → b.suwpClaimed = b.suwpTotal) :
    Accounted ⟨{ w.state.setBond id b with totalSuwpIssued := issued, totalLpBonded := lp },
      minted, bonded, cancelled⟩ where
  fresh j hj := by
    dsimp only [State.setBond] at hj ⊢
    have hlt := hA.lt_next h
    rw [Function.update_of_ne (by omega)]
    exact hA.fresh j hj
  dated j hj := by
    dsimp only [State.setBond] at hj ⊢
    by_cases hne : j = id
    · subst hne
      have hd := hA.dated_of_active h
      simp only [Bond.terms, Prod.mk.injEq] at hterms
      rw [Function.update_self]
      exact .inr ⟨hterms.2.1 ▸ hd.started, by rw [hterms.2.1, hterms.2.2, hd.ends]⟩
    · rw [Function.update_of_ne hne]
      exact hA.dated j hj
  issued := by
    dsimp only [State.setBond]
    have hsum := Totals.sum_update_add (Finset.mem_range.mpr (hA.lt_next h)) w.state.bonds b
      Bond.issued
    rw [← hA.issued] at hsum
    omega
  cap := hcap.trans hA.cap
  minted := hminted
  lpBonded := hlp
  live := by
    dsimp only [State.setBond]
    have hsum := Totals.sum_update_add (Finset.mem_range.mpr (hA.lt_next h)) w.state.bonds b
      Bond.live
    have hone : (w.state.bonds id).live = 1 := if_pos h
    have hle := hA.live
    omega
  vested j := by
    dsimp only [State.setBond]
    by_cases hne : j = id
    · subst hne
      rw [Function.update_self, vestedBy_of_terms hterms]
      exact hclaimed
    · rw [Function.update_of_ne hne]
      exact hA.vested j
  done j hj hnot := by
    dsimp only [State.setBond] at hj hnot ⊢
    by_cases hne : j = id
    · subst hne
      rw [Function.update_self] at hj ⊢
      exact hdone hj hnot
    · rw [Function.update_of_ne hne] at hj ⊢
      exact hA.done j hj (hcancelled j hnot)

/-- A bond is added to those counted. -/
lemma push (hA : Accounted w) (hlow : b.startTime = w.state.now.val)
    (hends : b.endTime = b.startTime + VESTING_DURATION) (hclaimed : b.suwpClaimed = 0)
    (hactive : b.active = true) {userBonds : Address → List ℕ}
    (hcap : w.state.totalSuwpIssued + b.suwpTotal ≤ w.state.globalBondCap) :
    Accounted { w with
      state := { w.state.setBond w.state.nextBondId b with
        nextBondId := w.state.nextBondId + 1
        userBonds := userBonds
        totalLpBonded := w.state.totalLpBonded + 1
        totalSuwpIssued := w.state.totalSuwpIssued + b.suwpTotal }
      lpBonded := w.lpBonded + 1 } where
  fresh j hj := by
    dsimp only [State.setBond] at hj ⊢
    rw [Function.update_of_ne (by omega)]
    exact hA.fresh j (by omega)
  dated j hj := by
    dsimp only [State.setBond] at hj ⊢
    by_cases hne : j = w.state.nextBondId
    · rw [hne, Function.update_self]
      exact .inr ⟨hlow.le, hends⟩
    · rw [Function.update_of_ne hne]
      exact hA.dated j (by omega)
  issued := by
    dsimp only [State.setBond]
    rw [Finset.sum_range_succ, Totals.sum_update_of_notMem Finset.notMem_range_self,
      Function.update_self, ← hA.issued, Bond.issued, if_pos hactive]
  cap := hcap
  minted j := by
    dsimp only [State.setBond]
    by_cases hne : j = w.state.nextBondId
    · rw [hne, Function.update_self, hA.minted, hA.fresh _ le_rfl, hclaimed]
      rfl
    · rw [Function.update_of_ne hne]
      exact hA.minted j
  lpBonded := by
    have hlp := hA.lpBonded
    dsimp only
    omega
  live := by
    dsimp only [State.setBond]
    rw [Finset.sum_range_succ, Totals.sum_update_of_notMem Finset.notMem_range_self,
      Function.update_self, Bond.live, if_pos hactive]
    exact Nat.add_le_add_right hA.live 1
  vested j := by
    dsimp only [State.setBond]
    by_cases hne : j = w.state.nextBondId
    · rw [hne, Function.update_self, hclaimed]
      exact Nat.zero_le _
    · rw [Function.update_of_ne hne]
      exact hA.vested j
  done j hj hnot := by
    dsimp only [State.setBond] at hj hnot ⊢
    by_cases hne : j = w.state.nextBondId
    · rw [hne, Function.update_self, hactive] at hj
      cases hj
    · rw [Function.update_of_ne hne] at hj ⊢
      exact hA.done j hj hnot

lemma of_settings (hA : Accounted w) (h : SameBonds w.state s) :
    Accounted { w with state := s } where
  fresh := by
    dsimp only
    rw [h.nextBondId, h.bonds]
    exact hA.fresh
  dated := by
    dsimp only
    rw [h.nextBondId, h.bonds, h.now]
    exact hA.dated
  issued := by
    dsimp only
    rw [h.nextBondId, h.bonds, h.totalSuwpIssued]
    exact hA.issued
  cap := by
    rcases h.cap with hcap | hcap
    · dsimp only
      rw [h.totalSuwpIssued, hcap]
      exact hA.cap
    · exact hcap
  minted := by
    dsimp only
    rw [h.bonds]
    exact hA.minted
  lpBonded := by
    dsimp only
    rw [h.totalLpBonded]
    exact hA.lpBonded
  live := by
    dsimp only
    rw [h.nextBondId, h.bonds, h.totalLpBonded]
    exact hA.live
  vested := by
    dsimp only
    rw [h.bonds, h.now]
    exact hA.vested
  done := by
    dsimp only
    rw [h.bonds]
    exact hA.done

/-- Time only lets bonds vest. -/
lemma advance (hA : Accounted w) {time : BlockTime} (h : w.state.now ≤ time) :
    Accounted { w with state := { w.state with now := time } } where
  fresh := hA.fresh
  dated j hj := (hA.dated j hj).imp_right fun hd => ⟨hd.started.trans h, hd.ends⟩
  issued := hA.issued
  cap := hA.cap
  minted := hA.minted
  lpBonded := hA.lpBonded
  live := hA.live
  vested j := by
    by_cases hj : j < w.state.nextBondId
    · rcases hA.dated j hj with he | hd
      · dsimp only
        rw [he]
        exact Nat.zero_le _
      · exact (hA.vested j).trans (vestedBy_mono hd.ends h)
    · dsimp only
      rw [hA.fresh j (not_lt.mp hj)]
      exact Nat.zero_le _
  done := hA.done

end Accounted

/-! ### Calls -/

lemma computePayout_ok {lpTokenId payout : ℕ} (h : computePayout env s lpTokenId = .ok payout) :
    payout ≤ s.maxSuwpPerBond ∧ s.totalSuwpIssued + payout ≤ s.globalBondCap := by
  simp only [computePayout, bind_ok_iff, guard_ok_iff, exists_const, addU_ok_iff,
    pure_ok_iff] at h
  obtain ⟨amounts, -, price, -, value, -, _, -, -, base, -, product, -, hmax, _, ⟨-, rfl⟩, hcap,
    rfl⟩ := h
  exact ⟨hmax, hcap⟩

lemma bond_ok {lpTokenId : ℕ} (h : bond C env s lpTokenId = .ok s') :
    ∃ b : Bond, b.startTime = s.now.val ∧ b.endTime = b.startTime + VESTING_DURATION ∧
      b.suwpClaimed = 0 ∧ b.active = true ∧
      s.totalSuwpIssued + b.suwpTotal ≤ s.globalBondCap ∧
      s' = { s.setBond s.nextBondId b with
        nextBondId := s.nextBondId + 1
        userBonds := Function.update s.userBonds env.sender
          (s.userBonds env.sender ++ [s.nextBondId])
        totalLpBonded := s.totalLpBonded + 1
        totalSuwpIssued := s.totalSuwpIssued + b.suwpTotal } := by
  simp only [bond, bind_ok_iff, guard_ok_iff, exists_const, addU_ok_iff, pure_ok_iff] at h
  obtain ⟨-, -, -, -, payout, hpayout, _, ⟨-, rfl⟩, _, ⟨-, rfl⟩, _, ⟨-, rfl⟩, _, ⟨-, rfl⟩, -,
    rfl⟩ := h
  exact ⟨⟨env.sender, lpTokenId, payout, 0, s.now.val, s.now.val + VESTING_DURATION, true⟩, rfl,
    rfl, rfl, rfl, (computePayout_ok hpayout).2, rfl⟩

/-- The bond after a redemption at time `t`. -/
def redeemed (b : Bond) (t : ℕ) : Bond :=
  { b with
    suwpClaimed := vestedBy b t
    active := if vestedBy b t ≥ b.suwpTotal then false else b.active }

lemma redeem_ok {claimed : ℕ} (h : redeem env s id = .ok (s', claimed)) :
    (s.bonds id).active = true ∧
      (s.bonds id).suwpClaimed + claimed = vestedBy (s.bonds id) s.now.val ∧
      s' = s.setBond id (redeemed (s.bonds id) s.now.val) := by
  simp only [redeem, bind_ok_iff, guard_ok_iff, exists_const, subU_ok_iff, addU_ok_iff,
    pure_ok_iff, Prod.mk.injEq] at h
  obtain ⟨-, hactive, vested, hvested, _, ⟨hle, rfl⟩, -, _, ⟨-, rfl⟩, -, rfl, rfl⟩ := h
  have hsum : (s.bonds id).suwpClaimed + (vested - (s.bonds id).suwpClaimed) = vested := by omega
  rw [hsum, redeemed, vestedAmount_ok hvested]
  exact ⟨hactive, rfl, rfl⟩

lemma cancelBond_ok (h : cancelBond env s id = .ok s') :
    (s.bonds id).active = true ∧
      s' = { s.setBond id { s.bonds id with active := false } with
        totalSuwpIssued :=
          if s.totalSuwpIssued ≥ (s.bonds id).suwpTotal - (s.bonds id).suwpClaimed then
            s.totalSuwpIssued - ((s.bonds id).suwpTotal - (s.bonds id).suwpClaimed) else 0
        totalLpBonded :=
          if s.totalLpBonded > 0 then s.totalLpBonded - 1 else s.totalLpBonded } := by
  simp only [cancelBond, bind_ok_iff, guard_ok_iff, exists_const, subU_ok_iff, pure_ok_iff] at h
  obtain ⟨-, -, hactive, _, ⟨-, rfl⟩, -, rfl⟩ := h
  exact ⟨hactive, rfl⟩

lemma redeemed_inactive (hends : b.endTime = b.startTime + VESTING_DURATION)
    (hactive : b.active = true) (h : (redeemed b t).active = false) :
    (redeemed b t).suwpClaimed = b.suwpTotal := by
  dsimp only [redeemed] at h ⊢
  split at h
  · rename_i hfull
    exact le_antisymm (vestedBy_le_total hends t) hfull
  · rw [hactive] at h
    cases h

/-- A redemption mints what the bond counted for all along. -/
lemma redeemed_issued (hends : b.endTime = b.startTime + VESTING_DURATION)
    (hactive : b.active = true) : (redeemed b t).issued = b.suwpTotal := by
  rw [Bond.issued]
  split
  · rfl
  · rename_i hinactive
    exact redeemed_inactive hends hactive (Bool.eq_false_iff.mpr hinactive)

lemma Bond.live_le (b : Bond) : b.live ≤ 1 := by
  unfold Bond.live
  split <;> omega

lemma redeem_accounted (hA : Accounted w) {claimed : ℕ}
    (h : redeem env w.state id = .ok (s', claimed)) :
    Accounted { w with
      state := s'
      minted := Function.update w.minted id (w.minted id + claimed) } := by
  obtain ⟨hactive, hclaimed, rfl⟩ := redeem_ok h
  have hends := (hA.dated_of_active hactive).ends
  refine hA.update (b := redeemed (w.state.bonds id) w.state.now.val) hactive rfl le_rfl ?_ le_rfl
    hA.lpBonded ?_ (fun j => ?_) (fun _ h => h) (fun h _ => redeemed_inactive hends hactive h)
  · rw [redeemed_issued hends hactive, Bond.issued, if_pos hactive]
  · exact Nat.add_le_add_left (Bond.live_le _) _
  · by_cases hne : j = id
    · rw [hne, Function.update_self, Function.update_self, hA.minted, hclaimed]
      rfl
    · rw [Function.update_of_ne hne, Function.update_of_ne hne]
      exact hA.minted j

lemma cancelBond_accounted (hA : Accounted w) (h : cancelBond env w.state id = .ok s') :
    Accounted { w with state := s', cancelled := id :: w.cancelled } := by
  obtain ⟨hactive, rfl⟩ := cancelBond_ok h
  have hclaimed := hA.claimed_le_total hactive
  have htotal := hA.total_le_issued hactive
  have hpos := hA.lp_pos hactive
  have hlp := hA.lpBonded
  rw [if_pos (by omega), if_pos (by omega)]
  refine hA.update (b := { w.state.bonds id with active := false }) hactive rfl (hA.vested id) ?_
    (Nat.sub_le _ _) ?_ ?_ (fun j => ?_) (fun j h => fun hj => h (List.mem_cons_of_mem _ hj))
    (fun _ h => ?_)
  · rw [Bond.issued, Bond.issued, if_pos hactive, if_neg (by simp)]
    dsimp only
    omega
  · rw [List.length_cons]
    omega
  · rw [Bond.live, if_neg (by simp)]
    omega
  · rw [hA.minted]
    by_cases hne : j = id
    · rw [hne, Function.update_self]
    · rw [Function.update_of_ne hne]
  · exact absurd List.mem_cons_self h

/-! ### Steps -/

/-- What a step does: a call about a bond, a change of settings, or a tick of the clock. -/
inductive Change (C : Contracts) (w : World) : World → Prop
  | bond {env : Env} {lpTokenId : ℕ} {s : State} (h : bond C env w.state lpTokenId = .ok s) :
      Change C w { w with state := s, lpBonded := w.lpBonded + 1 }
  | redeem {env : Env} {bondId claimed : ℕ} {s : State}
      (h : redeem env w.state bondId = .ok (s, claimed)) :
      Change C w { w with
        state := s
        minted := Function.update w.minted bondId (w.minted bondId + claimed) }
  | cancelBond {env : Env} {bondId : ℕ} {s : State} (h : cancelBond env w.state bondId = .ok s) :
      Change C w { w with state := s, cancelled := bondId :: w.cancelled }
  | settings {s : State} (h : SameBonds w.state s) : Change C w { w with state := s }
  | advance {time : BlockTime} (h : w.state.now ≤ time) :
      Change C w { w with state := { w.state with now := time } }

lemma change_of_step {c : Call} (h : step C w c = .ok w') : Change C w w' := by
  cases c with
  | bond env lpTokenId =>
    simp only [step, bind_ok_iff, pure_ok_iff] at h
    obtain ⟨s, h, rfl⟩ := h
    exact .bond h
  | redeem env bondId =>
    simp only [step, bind_ok_iff, pure_ok_iff] at h
    obtain ⟨⟨s, claimed⟩, h, rfl⟩ := h
    exact .redeem h
  | cancelBond env bondId =>
    simp only [step, bind_ok_iff, pure_ok_iff] at h
    obtain ⟨s, h, rfl⟩ := h
    exact .cancelBond h
  | setSuwpUsdcPool env pool =>
    simp only [step, setSuwpUsdcPool, bind_ok_iff, pure_ok_iff] at h
    obtain ⟨s, ⟨-, -, -, -, -, -, rfl⟩, rfl⟩ := h
    exact .settings ⟨rfl, rfl, rfl, rfl, rfl, .inl rfl⟩
  | setBondCaps env maxSuwpPerBond globalBondCap =>
    simp only [step, setBondCaps, bind_ok_iff, guard_ok_iff, exists_const, pure_ok_iff] at h
    obtain ⟨s, ⟨-, -, -, hcap, rfl⟩, rfl⟩ := h
    exact .settings ⟨rfl, rfl, rfl, rfl, rfl, .inr hcap⟩
  | pause env =>
    simp only [step, pause, bind_ok_iff, pure_ok_iff] at h
    obtain ⟨s, ⟨-, -, -, -, rfl⟩, rfl⟩ := h
    exact .settings ⟨rfl, rfl, rfl, rfl, rfl, .inl rfl⟩
  | unpause env =>
    simp only [step, unpause, bind_ok_iff, pure_ok_iff] at h
    obtain ⟨s, ⟨-, -, -, -, rfl⟩, rfl⟩ := h
    exact .settings ⟨rfl, rfl, rfl, rfl, rfl, .inl rfl⟩
  | transferOwnership env newOwner =>
    simp only [step, transferOwnership, bind_ok_iff, pure_ok_iff] at h
    obtain ⟨s, ⟨-, -, -, -, rfl⟩, rfl⟩ := h
    exact .settings ⟨rfl, rfl, rfl, rfl, rfl, .inl rfl⟩
  | renounceOwnership env =>
    simp only [step, renounceOwnership, bind_ok_iff, pure_ok_iff] at h
    obtain ⟨s, ⟨-, -, rfl⟩, rfl⟩ := h
    exact .settings ⟨rfl, rfl, rfl, rfl, rfl, .inl rfl⟩
  | advance time =>
    simp only [step, Bonds.advance, bind_ok_iff, guard_ok_iff, exists_const, pure_ok_iff] at h
    obtain ⟨s, ⟨hle, rfl⟩, rfl⟩ := h
    exact .advance hle

lemma Change.accounted (h : Change C w w') (hA : Accounted w) : Accounted w' := by
  cases h with
  | bond h =>
    obtain ⟨b, hstart, hends, hclaimed, hactive, hcap, rfl⟩ := bond_ok h
    exact hA.push hstart hends hclaimed hactive hcap
  | redeem h => exact redeem_accounted hA h
  | cancelBond h => exact cancelBond_accounted hA h
  | settings h => exact hA.of_settings h
  | advance h => exact hA.advance h

lemma accounted_of_run (C : Contracts) (calls : List Call) (hA : Accounted w) :
    Accounted ((machine C).run w calls) :=
  Machine.run_induction (M := machine C) (fun _ _ _ hA h => (change_of_step h).accounted hA) hA
    calls

/-! ### What a bond pays -/

/-- A bond keeps its terms. -/
structure Kept (id : ℕ) (b : Bond) (w : World) : Prop where
  accounted : Accounted w
  opened : id < w.state.nextBondId
  terms : (w.state.bonds id).terms = b.terms

lemma terms_update (b' : Bond) (h : b'.terms = (s.bonds id).terms) (j : ℕ) :
    (Function.update s.bonds id b' j).terms = (s.bonds j).terms := by
  by_cases hne : j = id
  · rw [hne, Function.update_self, h]
  · rw [Function.update_of_ne hne]

lemma Change.kept (h : Change C w w') (hK : Kept id b w) : Kept id b w' := by
  have hA := h.accounted hK.accounted
  have hid := hK.opened
  cases h with
  | bond h =>
    obtain ⟨b₀, -, -, -, -, -, rfl⟩ := bond_ok h
    refine ⟨hA, Nat.lt_succ_of_lt hid, ?_⟩
    dsimp only [State.setBond]
    rw [Function.update_of_ne hid.ne, hK.terms]
  | redeem h =>
    obtain ⟨-, -, rfl⟩ := redeem_ok h
    exact ⟨hA, hid, (terms_update (redeemed _ _) rfl id).trans hK.terms⟩
  | @cancelBond _ bondId _ h =>
    obtain ⟨-, rfl⟩ := cancelBond_ok h
    exact ⟨hA, hid, (terms_update { w.state.bonds bondId with active := false } rfl id).trans
      hK.terms⟩
  | settings h =>
    refine ⟨hA, ?_, ?_⟩
    · dsimp only
      rwa [h.nextBondId]
    · dsimp only
      rw [h.bonds, hK.terms]
  | advance h => exact ⟨hA, hid, hK.terms⟩

/-- What was minted for a bond and what it can still claim make up what it has vested. -/
lemma minted_add_claimable (hK : Kept id b w) (hnot : id ∉ w.cancelled) {claim : ℕ}
    (h : claimable w.state id = .ok claim) :
    w.minted id + claim = vestedBy b w.state.now.val := by
  have hA := hK.accounted
  rw [← vestedBy_of_terms hK.terms, hA.minted]
  unfold claimable at h
  dsimp only at h
  split at h
  · rename_i hinactive
    cases h
    have hdone := hA.done id hinactive hnot
    have hvested := hA.vested id
    rcases hA.dated id hK.opened with he | hd
    · rw [he]
      simp [vestedBy, Bond.empty]
    · have hle := vestedBy_le_total hd.ends w.state.now.val
      omega
  · simp only [bind_ok_iff, subU_ok_iff] at h
    obtain ⟨vested, hvested, hle, rfl⟩ := h
    rw [← vestedAmount_ok hvested]
    exact Nat.add_sub_cancel' hle

/-- The counters count what they say and never clamp, no redemption underflows, and a bond that was
not cancelled pays by any time the same, however often it was redeemed before. -/
theorem bonds_accounted (C : Contracts) (owner : Address) (now : BlockTime)
    (calls : List Call) :
    let w := (machine C).run (.init owner now) calls
    let ids := Finset.range w.state.nextBondId
    w.state.totalSuwpIssued =
      ∑ id ∈ ids.filter (fun id => (w.state.bonds id).active = true), (w.state.bonds id).suwpTotal +
      ∑ id ∈ ids.filter (fun id => ¬ (w.state.bonds id).active = true),
        (w.state.bonds id).suwpClaimed ∧
    w.state.totalSuwpIssued ≤ w.state.globalBondCap ∧
    ∑ id ∈ ids, w.minted id ≤ w.state.totalSuwpIssued ∧
    w.state.totalLpBonded + w.cancelled.length = w.lpBonded ∧
    (∀ id, (w.state.bonds id).active = true →
      (w.state.bonds id).suwpClaimed ≤ (w.state.bonds id).suwpTotal ∧
      (w.state.bonds id).suwpTotal - (w.state.bonds id).suwpClaimed ≤ w.state.totalSuwpIssued ∧
      0 < w.state.totalLpBonded ∧
      ∀ vested, vestedAmount w.state.now.val (w.state.bonds id) = .ok vested →
        (w.state.bonds id).suwpClaimed ≤ vested) ∧
    ∀ id ∈ ids, ∀ more₁ more₂ claim₁ claim₂,
      let w₁ := (machine C).run w more₁
      let w₂ := (machine C).run w more₂
      w₁.state.now = w₂.state.now → id ∉ w₁.cancelled → id ∉ w₂.cancelled →
      claimable w₁.state id = .ok claim₁ → claimable w₂.state id = .ok claim₂ →
        w₁.minted id + claim₁ = w₂.minted id + claim₂ := by
  intro w ids
  have hA : Accounted w := accounted_of_run C calls (.of_init owner now)
  refine ⟨?_, hA.cap, ?_, hA.lpBonded, fun id hactive => ?_, fun id hid more₁ more₂ claim₁ claim₂ =>
    fun hnow hnot₁ hnot₂ h₁ h₂ => ?_⟩
  · rw [hA.issued]
    exact Finset.sum_ite _ _
  · rw [hA.issued]
    refine Finset.sum_le_sum fun id _ => ?_
    rw [hA.minted, Bond.issued]
    split
    · rename_i hactive
      exact hA.claimed_le_total hactive
    · exact le_rfl
  · refine ⟨hA.claimed_le_total hactive, (Nat.sub_le _ _).trans (hA.total_le_issued hactive),
      hA.lp_pos hactive, fun vested h => ?_⟩
    rw [vestedAmount_ok h]
    exact hA.vested id
  · have hK : Kept id (w.state.bonds id) w := ⟨hA, Finset.mem_range.mp hid, rfl⟩
    have hrun (more : List Call) : Kept id (w.state.bonds id) ((machine C).run w more) :=
      Machine.run_induction (M := machine C) (fun _ _ _ hK h => (change_of_step h).kept hK) hK more
    rw [minted_add_claimable (hrun more₁) hnot₁ h₁, minted_add_claimable (hrun more₂) hnot₂ h₂,
      hnow]

/-! ### A cancelled bond -/

def exampleContracts : Contracts := ⟨Address.ofNat 1, Address.ofNat 2, Address.ofNat 3⟩

/-- A position worth 1000 USDC units, at one SUWP unit each. -/
def exampleEnv : Env where
  sender := Address.ofNat 9
  ownerOf _ := Address.ofNat 9
  tokensOf _ := (Address.ofNat 2, Address.ofNat 3)
  poolTokens _ := (Address.ofNat 2, Address.ofNat 3)
  positionAmounts _ := .ok (1000, 0)
  suwpPrice := .ok (10 ^ 18)
  transfers := true
  mints := true

/-- A bond halfway through its vesting. -/
def halfVested : World :=
  (machine exampleContracts).run (.init (Address.ofNat 9) 0)
    [.setSuwpUsdcPool exampleEnv (Address.ofNat 5), .bond exampleEnv 7,
      .advance (BlockTime.ofNat 302400)]

/-- Whoever redeemed before the bond was cancelled got more than who did not. -/
theorem cancelled_bond_pays_the_eager :
    let w₁ := (machine exampleContracts).run halfVested
      [.redeem exampleEnv 1, .cancelBond exampleEnv 1]
    let w₂ := (machine exampleContracts).run halfVested [.cancelBond exampleEnv 1]
    w₁.state.now = w₂.state.now ∧ (claimable w₁.state 1).toOption = some 0 ∧
      (claimable w₂.state 1).toOption = some 0 ∧ w₁.minted 1 = 525 ∧ w₂.minted 1 = 0 := by
  decide +kernel

end Suwappu.Bonds
