import Mathlib.Algebra.Order.Monoid.Prod
import Suwappu.SwapEngine.ExecuteSwap

/-!
# What a user's swaps may spend

The swaps a user broadcasts within a day stay within the daily limit, in the runs in which each
check would also have passed if it had counted what other calls have checked and not yet broadcast,
and broadcast and not yet recorded.
-/

namespace Suwappu.SwapEngine

open Checked

/-- What a call has spent or may spend, and the spend events do not say. -/
inductive Account where
  | settled
  | checked (amountUsd : ℚ≥0)
  | unrecorded (amountUsd : ℚ≥0) (sentAt : Time)

def Account.of (amountUsd : Option ℚ≥0) (sentAt : Time) : Account :=
  amountUsd.elim .settled fun amountUsd => .unrecorded amountUsd sentAt

def Account.ofChecked (amountUsd : Option ℚ≥0) : Account := amountUsd.elim .settled .checked

variable (accounts : Accounts) (u : UserId)

/-- The account of a call of the user. -/
def Proc.account : Proc → Account
  | .validate c _ amountUsd | .createRecord c _ amountUsd | .simulate c _ amountUsd _
  | .execute c _ amountUsd _ => if c.userId = u then .ofChecked amountUsd else .settled
  | .updateTxHash c _ amountUsd _ sentAt | .record c _ amountUsd _ sentAt
  | .markLost c _ amountUsd _ sentAt | .lost c amountUsd sentAt =>
    if c.userId = u then .of amountUsd sentAt else .settled
  | _ => .settled

/-- What is checked and not broadcast, and what is broadcast and not recorded from a time on. -/
def Account.weight : Account → ℚ≥0 × (Time → ℚ≥0)
  | .settled                     => 0
  | .checked amountUsd           => (amountUsd, 0)
  | .unrecorded amountUsd sentAt => (0, fun t => if t ≤ sentAt then amountUsd else 0)

def weight (p : Proc) : ℚ≥0 × (Time → ℚ≥0) := (p.account u).weight

/-- What the user's broadcasts come to from a time on. -/
def State.sentUsd (s : State) (t : Time) : ℚ≥0 :=
  Window.sumSince Broadcast.sentAt (fun b => b.amountUsd.getD 0)
    (s.broadcasts.filter fun b => b.userId = u) t

/-- Each broadcast within the limits at the moment it was made, the last one first. -/
inductive Within (limits : UserLimits) : List Broadcast → Prop where
  | nil : Within limits []
  | cons {b : Broadcast} {bs : List Broadcast} {amountUsd : ℚ≥0}
      (hknown : b.amountUsd = some amountUsd)
      (hswap : amountUsd ≤ limits.perSwapUsd)
      (hdaily : (amountUsd + Window.sumSince Broadcast.sentAt (fun b => b.amountUsd.getD 0) bs
        (b.sentAt - 24 * hour) : ℚ≥0) ≤ limits.dailyUsd)
      (h : Within limits bs) : Within limits (b :: bs)

lemma within_cons_iff {limits : UserLimits} {b : Broadcast} {bs : List Broadcast} :
    Within limits (b :: bs) ↔ (∃ amountUsd ∈ b.amountUsd, amountUsd ≤ limits.perSwapUsd ∧
      (amountUsd + Window.sumSince Broadcast.sentAt (fun b => b.amountUsd.getD 0) bs
        (b.sentAt - 24 * hour) : ℚ≥0) ≤ limits.dailyUsd) ∧ Within limits bs := by
  constructor
  · rintro (_ | ⟨hknown, hswap, hdaily, h⟩)
    exact ⟨⟨_, hknown, hswap, hdaily⟩, h⟩
  · rintro ⟨⟨amountUsd, hknown, hswap, hdaily⟩, h⟩
    exact .cons hknown hswap hdaily h

instance decidableWithin (limits : UserLimits) : ∀ bs, Decidable (Within limits bs)
  | []      => .isTrue .nil
  | _ :: bs =>
    have := decidableWithin limits bs
    decidable_of_iff' _ within_cons_iff

structure Holds (s : State) (m : ℚ≥0 × (Time → ℚ≥0)) : Prop where
  recorded : ∀ t, s.sentUsd u t ≤ s.spentUsd u t + m.2 t
  fits : ∀ t, s.now - 24 * hour ≤ t →
    ((s.sentUsd u t + m.1 : ℚ≥0) : ℚ) ≤ max (accounts.limits u).dailyUsd 0
  within : Within (accounts.limits u) (s.broadcasts.filter fun b => b.userId = u)

/-- What a call has found out. -/
def Knows (s : State) : Proc → Prop
  | .priceTo _ _ amountUsd => amountUsd ≠ none
  | .checkDaily c _ amountUsd cutoff => c.userId = u →
    amountUsd ≤ (accounts.limits u).perSwapUsd ∧ cutoff ≤ s.now - 24 * hour
  | .validate c _ amountUsd | .createRecord c _ amountUsd | .simulate c _ amountUsd _
  | .execute c _ amountUsd _ => ∃ amount, amountUsd = some amount ∧ (c.userId = u →
    amount ≤ (accounts.limits u).perSwapUsd ∧ 0 ≤ (accounts.limits u).dailyUsd)
  | .updateTxHash _ _ _ _ sentAt | .record _ _ _ _ sentAt | .markLost _ _ _ _ sentAt
  | .lost _ _ sentAt => sentAt ≤ s.now
  | _ => True

/-- The check of the daily limit would also pass if it counted what is on its way. -/
def Counted (s : State) (rest : ℚ≥0 × (Time → ℚ≥0)) : Proc → Prop
  | .checkDaily c _ amountUsd cutoff => c.userId = u →
    s.spentUsd u cutoff + amountUsd ≤ (accounts.limits u).dailyUsd →
    (s.spentUsd u cutoff + amountUsd + rest.1 + rest.2 cutoff : ℚ≥0) ≤ (accounts.limits u).dailyUsd
  | _ => True

instance decidableCounted (s : State) (rest : ℚ≥0 × (Time → ℚ≥0)) :
    ∀ p, Decidable (Counted accounts u s rest p) :=
  fun p => by unfold Counted; split <;> infer_instance

/-- A price that is looked up is known. -/
def Known : Answer → Prop
  | .price (some price) => price ≠ 0
  | .price none         => False
  | _                   => True

def KnownPrice {n : ℕ} : Action n → Prop
  | .take _ answer => Known answer
  | .environment _ => True

instance decidableKnown : ∀ a, Decidable (Known a) :=
  fun a => by unfold Known; split <;> infer_instance

instance decidableKnownPrice {n : ℕ} : ∀ act : Action n, Decidable (KnownPrice act)
  | .take _ answer => inferInstanceAs (Decidable (Known answer))
  | .environment _ => .isTrue trivial

variable {accounts u} {s s' : State} {m rest : ℚ≥0 × (Time → ℚ≥0)} {c : Swap} {amountUsd : ℚ≥0}
  {sentAt t cutoff : Time}

/-! ### What moves the sums -/

/-- Nothing that the limit looks at has changed. -/
structure Same (u : UserId) (s s' : State) : Prop where
  now : s'.now = s.now
  spent : ∀ t, s'.spentUsd u t = s.spentUsd u t
  sent : (s'.broadcasts.filter fun b => b.userId = u) = s.broadcasts.filter fun b => b.userId = u

lemma Same.rfl (s : State) : Same u s s := ⟨.refl _, fun _ => .refl _, .refl _⟩

lemma Holds.same (h : Holds accounts u s m) (hs : Same u s s') : Holds accounts u s' m := by
  have hsent : ∀ t, s'.sentUsd u t = s.sentUsd u t := fun t => by
    rw [State.sentUsd, State.sentUsd, hs.sent]
  refine ⟨fun t => ?_, fun t ht => ?_, ?_⟩
  · rw [hsent, hs.spent]
    exact h.recorded t
  · rw [hsent]
    exact h.fits t (hs.now ▸ ht)
  · rw [hs.sent]
    exact h.within

/-- A checked amount that is given up. -/
lemma Holds.drop (h : Holds accounts u s ((Account.checked amountUsd).weight + rest)) :
    Holds accounts u s (Account.settled.weight + rest) := by
  refine ⟨fun t => ?_, fun t ht => ?_, h.within⟩
  · simpa [Account.weight] using h.recorded t
  · refine le_trans ?_ (h.fits t ht)
    simp only [Account.weight, Prod.fst_add, zero_add, NNRat.coe_le_coe]
    exact add_le_add le_rfl (le_add_of_nonneg_left zero_le)

/-- A check that counts the rest. -/
lemma Holds.check (h : Holds accounts u s (Account.settled.weight + rest))
    (hcutoff : cutoff ≤ s.now - 24 * hour)
    (hfits : (s.spentUsd u cutoff + amountUsd + rest.1 + rest.2 cutoff : ℚ≥0) ≤
      (accounts.limits u).dailyUsd) :
    Holds accounts u s ((Account.checked amountUsd).weight + rest) := by
  refine ⟨fun t => ?_, fun t ht => ?_, h.within⟩
  · simpa [Account.weight] using h.recorded t
  · have hsent : s.sentUsd u t ≤ s.sentUsd u cutoff := Window.sumSince_anti (hcutoff.trans ht)
    have hrecorded : s.sentUsd u cutoff ≤ s.spentUsd u cutoff + rest.2 cutoff := by
      simpa [Account.weight] using h.recorded cutoff
    have hle : s.sentUsd u t + (amountUsd + rest.1) ≤
        s.spentUsd u cutoff + amountUsd + rest.1 + rest.2 cutoff := by
      calc s.sentUsd u t + (amountUsd + rest.1)
          ≤ s.spentUsd u cutoff + rest.2 cutoff + (amountUsd + rest.1) :=
            add_le_add (hsent.trans hrecorded) le_rfl
        _ = s.spentUsd u cutoff + amountUsd + rest.1 + rest.2 cutoff := by ring
    exact (NNRat.coe_le_coe.mpr hle).trans (hfits.trans (le_max_left _ _))

lemma sentUsd_broadcast (hu : c.userId = u) : (s.broadcast c (some amountUsd)).sentUsd u t =
    (if t ≤ s.now then amountUsd else 0) + s.sentUsd u t := by
  simp [State.sentUsd, State.broadcast, hu]

/-- A checked amount leaves for the chain. -/
lemma Holds.send (h : Holds accounts u s ((Account.checked amountUsd).weight + rest))
    (hu : c.userId = u) (hamount : amountUsd ≤ (accounts.limits u).perSwapUsd)
    (hdaily : 0 ≤ (accounts.limits u).dailyUsd) :
    Holds accounts u (s.broadcast c (some amountUsd))
      ((Account.unrecorded amountUsd s.now).weight + rest) := by
  refine ⟨fun t => ?_, fun t ht => ?_, ?_⟩
  · have hrecorded := h.recorded t
    rw [sentUsd_broadcast hu]
    simp only [Account.weight, Prod.snd_add, Pi.add_apply, Pi.zero_apply, zero_add] at hrecorded ⊢
    calc (if t ≤ s.now then amountUsd else 0) + s.sentUsd u t
        ≤ (if t ≤ s.now then amountUsd else 0) + (s.spentUsd u t + rest.2 t) :=
          add_le_add le_rfl hrecorded
      _ = s.spentUsd u t + ((if t ≤ s.now then amountUsd else 0) + rest.2 t) := by ring
  · have hfits := h.fits t ht
    refine le_trans ?_ hfits
    rw [sentUsd_broadcast hu]
    simp only [Account.weight, Prod.fst_add, zero_add, NNRat.coe_le_coe]
    calc (if t ≤ s.now then amountUsd else 0) + s.sentUsd u t + rest.1
        ≤ amountUsd + s.sentUsd u t + rest.1 := by
          gcongr
          split_ifs <;> simp
      _ = s.sentUsd u t + (amountUsd + rest.1) := by ring
  · have hfits := h.fits _ le_rfl
    rw [max_eq_left hdaily] at hfits
    simp only [State.broadcast, hu, List.filter_cons, decide_true, if_true]
    refine .cons rfl hamount (le_trans ?_ hfits) h.within
    simp only [Account.weight, Prod.fst_add, NNRat.coe_le_coe]
    calc amountUsd + s.sentUsd u (s.now - 24 * hour)
        ≤ amountUsd + s.sentUsd u (s.now - 24 * hour) + rest.1 := le_add_of_nonneg_right zero_le
      _ = s.sentUsd u (s.now - 24 * hour) + (amountUsd + rest.1) := by ring

lemma spentUsd_recordSpend {swapId : SwapId} (hu : c.userId = u) :
    (s.recordSpend c amountUsd swapId).spentUsd u t =
      s.spentUsd u t + if t ≤ s.now then amountUsd else 0 := by
  simp [State.spentUsd, State.recordSpend, hu]

/-- A broadcast is recorded. -/
lemma Holds.record {swapId : SwapId}
    (h : Holds accounts u s ((Account.unrecorded amountUsd sentAt).weight + rest))
    (hu : c.userId = u) (hsent : sentAt ≤ s.now) :
    Holds accounts u (s.recordSpend c amountUsd swapId) (Account.settled.weight + rest) := by
  refine ⟨fun t => ?_, fun t ht => ?_, h.within⟩
  · have hrecorded := h.recorded t
    rw [spentUsd_recordSpend hu]
    simp only [Account.weight, Prod.snd_add, zero_add, Pi.add_apply] at hrecorded ⊢
    calc s.sentUsd u t
        ≤ s.spentUsd u t + ((if t ≤ sentAt then amountUsd else 0) + rest.2 t) := hrecorded
      _ ≤ s.spentUsd u t + ((if t ≤ s.now then amountUsd else 0) + rest.2 t) := by
          gcongr
          split_ifs with h1 h2
          · exact le_rfl
          · exact absurd (h1.trans hsent) h2
          · exact zero_le
          · exact le_rfl
      _ = s.spentUsd u t + (if t ≤ s.now then amountUsd else 0) + rest.2 t := by ring
  · exact h.fits t ht

lemma Holds.elapse (h : Holds accounts u s m) (duration : Time) :
    Holds accounts u { s with now := s.now + duration } m :=
  ⟨h.recorded, fun t ht => h.fits t ((Nat.sub_le_sub_right (Nat.le_add_right _ _) _).trans ht),
    h.within⟩

/-! ### Steps -/

variable {p p' : Proc} {answer : Answer} {lock : LockId}

lemma same_walletLock (engine : EngineId) (walletId : WalletId) :
    Same u s (s.walletLock engine walletId).1 := by
  unfold State.walletLock
  dsimp only
  split <;> exact ⟨rfl, fun _ => rfl, rfl⟩

lemma same_release (lock : LockId) : Same u s (s.release lock) := ⟨rfl, fun _ => rfl, rfl⟩

lemma same_setStatus (swapId : SwapId) (status : SwapStatus) :
    Same u s (s.setStatus swapId status) := ⟨rfl, fun _ => rfl, rfl⟩

lemma Same.trans {s'' : State} (h : Same u s s') (h' : Same u s' s'') : Same u s s'' :=
  ⟨h'.now.trans h.now, fun t => (h'.spent t).trans (h.spent t), h'.sent.trans h.sent⟩

lemma same_broadcast (hu : c.userId ≠ u) (amount : Option ℚ≥0) :
    Same u s (s.broadcast c amount) :=
  ⟨rfl, fun _ => rfl, by simp [State.broadcast, hu]⟩

lemma same_recordSpend (hu : c.userId ≠ u) (swapId : SwapId) :
    Same u s (s.recordSpend c amountUsd swapId) :=
  ⟨rfl, fun t => by simp [State.spentUsd, State.recordSpend, hu], rfl⟩

/-- A swap that is given up before it leaves. -/
lemma Holds.giveUp {amount : Option ℚ≥0}
    (h : Holds accounts u s
      ((if c.userId = u then Account.ofChecked amount else .settled).weight + rest)) :
    Holds accounts u s (Account.settled.weight + rest) := by
  split_ifs at h
  · cases amount with
    | none => exact h
    | some amountUsd => exact h.drop
  · exact h

/-- The provider broadcasts. -/
lemma Holds.execute {amount : Option ℚ≥0}
    (h : Holds accounts u s
      ((if c.userId = u then Account.ofChecked amount else .settled).weight + rest))
    (hknows : ∃ amountUsd, amount = some amountUsd ∧ (c.userId = u →
      amountUsd ≤ (accounts.limits u).perSwapUsd ∧ 0 ≤ (accounts.limits u).dailyUsd)) :
    Holds accounts u (s.broadcast c amount)
      ((if c.userId = u then Account.of amount s.now else .settled).weight + rest) := by
  obtain ⟨amountUsd, rfl, hlimits⟩ := hknows
  by_cases hu : c.userId = u
  · rw [if_pos hu] at h ⊢
    exact h.send hu (hlimits hu).1 (hlimits hu).2
  · rw [if_neg hu] at h ⊢
    exact h.same (same_broadcast hu _)

/-- The limit lets a swap pass. -/
lemma Holds.pass (h : Holds accounts u s (Account.settled.weight + rest))
    (hcutoff : c.userId = u → cutoff ≤ s.now - 24 * hour)
    (hfits : c.userId = u → (s.spentUsd u cutoff + amountUsd + rest.1 + rest.2 cutoff : ℚ≥0) ≤
      (accounts.limits u).dailyUsd) :
    Holds accounts u s
      ((if c.userId = u then Account.ofChecked (some amountUsd) else .settled).weight + rest) := by
  split_ifs with hu
  · exact h.check (hcutoff hu) (hfits hu)
  · exact h

/-- The record of the spend. -/
lemma Holds.finish {swapId : SwapId} (h : Holds accounts u s
      ((if c.userId = u then Account.of (some amountUsd) sentAt else .settled).weight + rest))
    (hsent : sentAt ≤ s.now) :
    Holds accounts u (s.recordSpend c amountUsd swapId) (Account.settled.weight + rest) := by
  by_cases hu : c.userId = u
  · rw [if_pos hu] at h
    exact h.record hu hsent
  · rw [if_neg hu] at h
    exact h.same (same_recordSpend hu _)

theorem Holds.step (hI : Holds accounts u s (weight u p + rest)) (hK : Knows accounts u s p)
    (hC : Counted accounts u s rest p) (hprice : Known answer)
    (h : SwapEngine.step accounts s p answer = .ok (s', p')) :
    Holds accounts u s' (weight u p' + rest) ∧ Knows accounts u s' p' := by
  cases p with
  | start c =>
    cases answer with
    | none =>
      cases h
      exact ⟨hI.same (same_walletLock _ _), trivial⟩
    | raises =>
      cases h
      exact ⟨hI, trivial⟩
    | _ => cases h
  | wait c lock =>
    cases answer with
    | none =>
      dsimp only [SwapEngine.step] at h
      split_ifs at h
      cases h
      exact ⟨hI.same ⟨rfl, fun _ => rfl, rfl⟩, trivial⟩
    | _ => cases h
  | checkIdempotency c lock =>
    cases answer with
    | none =>
      dsimp only [SwapEngine.step] at h
      split at h
      · cases h
        exact ⟨hI.same (same_release _), trivial⟩
      · cases h
        exact ⟨hI, trivial⟩
    | _ => cases h
  | getWallet c lock =>
    cases answer with
    | none =>
      dsimp only [SwapEngine.step] at h
      split_ifs at h
      · cases h
        exact ⟨hI, trivial⟩
      · cases h
        exact ⟨hI.same (same_release _), trivial⟩
    | raises =>
      cases h
      exact ⟨hI.same (same_release _), trivial⟩
    | _ => cases h
  | priceFrom c lock =>
    cases answer with
    | price price =>
      cases h
      refine ⟨hI, ?_⟩
      cases price with
      | none => exact hprice.elim
      | some price =>
        have hpositive : price ≠ 0 := hprice
        simp [Knows, usdValue, hpositive]
    | _ => cases h
  | priceTo c lock amountUsd =>
    cases answer with
    | price _ =>
      cases amountUsd with
      | none => exact absurd rfl hK
      | some amountUsd =>
        cases h
        exact ⟨hI, trivial⟩
    | _ => cases h
  | checkPerSwap c lock amountUsd =>
    cases answer with
    | none =>
      dsimp only [SwapEngine.step] at h
      split_ifs at h with hlimit
      · cases h
        exact ⟨hI.same (same_release _), trivial⟩
      · cases h
        exact ⟨hI, fun hu => ⟨not_lt.mp (hu ▸ hlimit), le_rfl⟩⟩
    | _ => cases h
  | checkDaily c lock amountUsd cutoff =>
    cases answer with
    | none =>
      dsimp only [SwapEngine.step] at h
      split_ifs at h with hlimit
      · cases h
        exact ⟨hI.same (same_release _), trivial⟩
      · cases h
        have hallowed := not_lt.mp hlimit
        refine ⟨hI.pass (fun hu => (hK hu).2) fun hu => ?_, _, rfl, fun hu => ⟨(hK hu).1, ?_⟩⟩
        · subst hu
          exact hC rfl hallowed
        · subst hu
          exact (add_nonneg (NNRat.cast_nonneg _) (NNRat.cast_nonneg _)).trans hallowed
    | _ => cases h
  | validate c lock amountUsd =>
    cases answer with
    | none =>
      cases h
      exact ⟨hI, hK⟩
    | raises =>
      cases h
      exact ⟨hI.giveUp.same (same_release _), trivial⟩
    | _ => cases h
  | createRecord c lock amountUsd =>
    cases answer with
    | none =>
      dsimp only [SwapEngine.step] at h
      split_ifs at h
      · cases h
        exact ⟨hI.giveUp.same (same_release _), trivial⟩
      · cases h
        exact ⟨hI.same ⟨rfl, fun _ => rfl, rfl⟩, hK⟩
    | _ => cases h
  | simulate c lock amountUsd swapId =>
    cases answer with
    | none =>
      cases h
      exact ⟨hI, hK⟩
    | refused =>
      cases h
      exact ⟨hI.giveUp, trivial⟩
    | raises =>
      cases h
      exact ⟨hI.giveUp.same (same_release _), trivial⟩
    | _ => cases h
  | execute c lock amountUsd swapId =>
    cases answer with
    | sent =>
      cases h
      exact ⟨hI.execute hK, le_rfl⟩
    | refused =>
      cases h
      exact ⟨hI.giveUp, trivial⟩
    | sentAndRaises =>
      cases h
      exact ⟨hI.execute hK, le_rfl⟩
    | _ => cases h
  | updateTxHash c lock amountUsd swapId sentAt =>
    cases answer with
    | none =>
      cases h
      exact ⟨hI.same (same_setStatus _ _), hK⟩
    | _ => cases h
  | record c lock amountUsd swapId sentAt =>
    cases answer with
    | none =>
      cases amountUsd with
      | some amountUsd =>
        cases h
        exact ⟨(hI.finish hK).same (same_release _), trivial⟩
      | none =>
        cases h
        refine ⟨Holds.same ?_ (same_release _), trivial⟩
        simpa only [weight, Proc.account, Account.of, Option.elim_none, ite_self] using hI
    | _ => cases h
  | markFailed lock swapId =>
    cases answer with
    | none =>
      cases h
      exact ⟨hI.same ((same_setStatus _ _).trans (same_release _)), trivial⟩
    | _ => cases h
  | markLost c lock amountUsd swapId sentAt =>
    cases answer with
    | none =>
      cases h
      exact ⟨hI.same ((same_setStatus _ _).trans (same_release _)), hK⟩
    | _ => cases h
  | returned | raised | lost => cases answer <;> cases h

lemma Knows.stable {q : Proc} (h : Knows accounts u s q) (hnow : s.now ≤ s'.now) :
    Knows accounts u s' q := by
  cases q with
  | checkDaily c lock amountUsd cutoff =>
    exact fun hu => ⟨(h hu).1, (h hu).2.trans (Nat.sub_le_sub_right hnow _)⟩
  | updateTxHash | record | markLost | lost => exact le_trans h hnow
  | _ => exact h

lemma step_now (h : SwapEngine.step accounts s p answer = .ok (s', p')) : s'.now = s.now := by
  unfold SwapEngine.step at h
  split at h
  · cases h
    exact (same_walletLock (u := 0) _ _).now
  all_goals first
    | (cases h; rfl)
    | (split at h <;> first | (cases h; rfl) | cases h)
    | cases h

/-! ### Runs -/

lemma holds_inductive (accounts : Accounts) (u : UserId) :
    (program accounts).Inductive (weight u) (Holds accounts u) (Knows accounts u)
      (fun s rest p answer => Counted accounts u s rest p ∧ Known answer) (fun _ _ _ => True) where
  step hI hK hC hstep := hI.step hK hC.1 hC.2 hstep
  stable _ _ _ hstep _ hq := hq.stable (step_now hstep).ge
  environment hI _ hstep := by
    cases hstep
    exact ⟨hI.elapse _, fun _ _ hq => hq.stable (Nat.le_add_right _ _)⟩

lemma holds_initial (now : Time) (calls : List Call) :
    Program.Invariant (weight u) (Holds accounts u) (Knows accounts u) (initial now calls) := by
  have htotal : (initial now calls).total (weight u) = 0 := Finset.sum_eq_zero fun _ _ => rfl
  refine ⟨?_, fun _ => trivial⟩
  rw [htotal]
  exact ⟨fun _ => zero_le, fun _ _ => by simp [State.sentUsd, initial, State.init], .nil⟩

/-- Whatever calls run, in any order: the swaps of a user stay within the limits, where prices are
known and every check of the daily limit counts what is on its way. -/
theorem within_of_counted (accounts : Accounts) (u : UserId) (now : Time) (calls : List Call)
    (acts : List (Action (swapsOf calls).length))
    (hprices : ∀ act ∈ acts, KnownPrice act)
    (h : ((program accounts).machine _).Along
      (Program.Meets (weight u) (fun s rest p _ => Counted accounts u s rest p) fun _ _ _ => True)
      (initial now calls) acts) :
    Within (accounts.limits u)
      ((((program accounts).machine _).run (initial now calls) acts).shared.broadcasts.filter
        fun b => b.userId = u) := by
  have hboth := (h.and_forall hprices).mono (I := fun _ => True)
    (D := Program.Meets (weight u)
      (fun s rest p answer => Counted accounts u s rest p ∧ Known answer) fun _ _ _ => True)
    (fun _ _ _ _ _ _ => trivial) (fun c act _ hact => ?_) trivial
  · exact ((holds_inductive accounts u).run acts (holds_initial now calls) hboth).shared.within
  · cases act with
    | take i answer => exact hact
    | environment _ => trivial

/-! ### Two wallets -/

/-- A user who may spend 6000 a day, 5000 at once, and owns every wallet. -/
def smallAccounts : Accounts where
  settings := fun _ => some ⟨some 5000, some 6000⟩
  owner := fun _ => some 7

/-- 4000 on each of two wallets. -/
def twoWallets : List Call := [.executeMultiSwap 0 [(4000, 1), (4000, 2)] 7 "batch"]

/-- A swap up to its check of the limit. -/
def checkedBy {n : ℕ} (i : Fin n) : List (Action n) :=
  [.take i .none, .take i .none, .take i .none, .take i .none, .take i (.price (some 1)),
    .take i (.price (some 1)), .take i .none, .take i .none]

/-- And from there to the record of its spend. -/
def sentBy {n : ℕ} (i : Fin n) : List (Action n) :=
  [.take i .none, .take i .none, .take i .none, .take i .sent, .take i .none, .take i .none]

def first : Fin (swapsOf twoWallets).length := ⟨0, by decide⟩

def second : Fin (swapsOf twoWallets).length := ⟨1, by decide⟩

/-- One after the other, the second swap is refused. -/
theorem one_wallet_after_another :
    Within (smallAccounts.limits 7)
      ((((program smallAccounts).machine _).run (initial 0 twoWallets)
        (checkedBy first ++ sentBy first ++ checkedBy second)).shared.broadcasts.filter
          fun b => b.userId = 7) :=
  within_of_counted smallAccounts 7 0 twoWallets _ (by decide +kernel) (by decide +kernel)

/-- Both swaps are checked before either is recorded, and both are broadcast. -/
theorem two_wallets_overspend :
    ¬ ∀ (accounts : Accounts) (u : UserId) (now : Time) (calls : List Call)
      (acts : List (Action (swapsOf calls).length)), (∀ act ∈ acts, KnownPrice act) →
      Within (accounts.limits u)
        ((((program accounts).machine _).run (initial now calls) acts).shared.broadcasts.filter
          fun b => b.userId = u) := by
  intro h
  have hboth := (h smallAccounts 7 0 twoWallets
    (checkedBy first ++ checkedBy second ++ sentBy first ++ sentBy second)
    (by decide +kernel))
  revert hboth
  decide +kernel

end Suwappu.SwapEngine
