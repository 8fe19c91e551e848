import Suwappu.PointsService.Redemptions

/-!
# Replays

`replay_faithful_iff`: whatever happens after a call has committed, the same call with the same key
changes nothing. It tells the same outcome just in case the original was refunded, or the key is not
empty, the checks before it pass again and the redemption is still completed.
-/

namespace Suwappu.PointsService.Redemptions

variable {s s' : State} {user : UserId} {key : String} {call : Call} {r r' : PointRedemption}
  {fulfill : Option FulfillResult}

/-! ### Calls -/

/-- What a call can do: it is refused, it is a replay, or it adds a redemption with its key. -/
inductive Outcome (s : State) (user : UserId) (key : Option String) (call : Call) :
    State × Reply → Prop where
  | refused {message : Message} (hchecks : ¬ s.Passes user call) :
    Outcome s user key call (s, .refuse message)
  | replayed {reply : Reply} (hchecks : s.Passes user call)
    (hreply : reply.success = (s.replayIdempotentRedemption user key call.expectedAmount).1) :
    Outcome s user key call (s, reply)
  | committed {t : State} {reply : Reply} {r : PointRedemption}
    (hconflicts : s.conflicts user key = false) (hrows : t.redemptions = s.redemptions ++ [r])
    (huser : r.userId = user) (hkey : r.idempotencyKey = key)
    (hamount : ∀ amount ∈ call.expectedAmount, r.pointsSpent = amount)
    (hreply : reply.success = true ↔ r.status = .completed) : Outcome s user key call (t, reply)

lemma outcome_spendPoints {key : Option String} {amount : ℤ} {rewardType rewardValue : String}
    {durationDays : Option ℤ} :
    Outcome s user key (.spendPoints amount rewardType rewardValue durationDays)
      (s.spendPoints user amount rewardType rewardValue durationDays key) := by
  unfold State.spendPoints
  cases hcheck : s.checkSpend user amount rewardType with
  | error message => exact .refused (by rw [State.Passes, hcheck]; exact Bool.false_ne_true)
  | ok account =>
    dsimp only
    split_ifs with hconflicts
    · exact .replayed (by rw [State.Passes, hcheck]; rfl) rfl
    · exact .committed (Bool.eq_false_iff.mpr hconflicts) rfl rfl rfl
        (fun _ h => Option.some.inj h) (iff_of_true rfl rfl)

lemma outcome_redeemSubscriptionReward {key : Option String} {rewardId : RewardId} :
    Outcome s user key (.redeemSubscriptionReward rewardId)
      (s.redeemSubscriptionReward user rewardId key) := by
  unfold State.redeemSubscriptionReward
  cases hcheck : s.checkSubscription user rewardId with
  | error message => exact .refused (by rw [State.Passes, hcheck]; exact Bool.false_ne_true)
  | ok checked =>
    dsimp only
    split_ifs with hconflicts hsuccess
    · exact .replayed (by rw [State.Passes, hcheck]; rfl) rfl
    · exact .replayed (by rw [State.Passes, hcheck]; rfl) rfl
    · exact .committed (Bool.eq_false_iff.mpr hconflicts) rfl rfl rfl
        (fun _ h => absurd h (Option.not_mem_none _)) (iff_of_true rfl rfl)

lemma success_replayOrder {key : Option String} :
    (s.replayOrder user key).success = (s.replayIdempotentRedemption user key none).1 := by
  unfold State.replayOrder
  rcases s.replayIdempotentRedemption user key none with ⟨success, message, _ | existing⟩
  · rfl
  · dsimp only
    cases s.orders.findIdx? (fun o => o.idempotencyKey = key) <;> rfl

lemma outcome_redeemMarketplaceReward {key : Option String} {rewardId : RewardId} :
    Outcome s user key (.redeemMarketplaceReward rewardId)
      (s.redeemMarketplaceReward user rewardId key fulfill) := by
  unfold State.redeemMarketplaceReward
  cases hcheck : s.checkMarketplace user rewardId with
  | error message => exact .refused (by rw [State.Passes, hcheck]; exact Bool.false_ne_true)
  | ok checked =>
    dsimp only
    split_ifs with hconflicts hfulfilled
    · exact .replayed (by rw [State.Passes, hcheck]; rfl)
        success_replayOrder
    all_goals
      rw [not_or, Bool.not_eq_true] at hconflicts
    · exact .committed hconflicts.1 rfl rfl rfl (fun _ h => absurd h (Option.not_mem_none _))
        (iff_of_true rfl rfl)
    · exact .committed hconflicts.1 rfl rfl rfl (fun _ h => absurd h (Option.not_mem_none _))
        (iff_of_false Bool.false_ne_true nofun)

lemma outcome (s : State) (user : UserId) (key : Option String) (fulfill : Option FulfillResult)
    (call : Call) : Outcome s user key call (s.redeem user key fulfill call) := by
  cases call with
  | spendPoints amount rewardType rewardValue durationDays => exact outcome_spendPoints
  | redeemSubscriptionReward rewardId => exact outcome_redeemSubscriptionReward
  | redeemMarketplaceReward rewardId  => exact outcome_redeemMarketplaceReward

/-! ### The row of a key -/

/-- The row is the only one that has the key. -/
def Only (user : UserId) (key : String) (r : PointRedemption) (s : State) : Prop :=
  s.redemptions.filter (PointRedemption.Keyed user (some key) ·) = [r]

lemma Only.mem_iff (h : Only user key r s) :
    r' ∈ s.redemptions ∧ r'.Keyed user (some key) ↔ r' = r := by
  rw [← List.mem_singleton, ← h, List.mem_filter, decide_eq_true_iff]

lemma Only.conflicts (h : Only user key r s) : s.conflicts user (some key) = true :=
  List.any_eq_true.mpr ⟨r, (h.mem_iff.mpr rfl).1, decide_eq_true (h.mem_iff.mpr rfl).2⟩

lemma Only.stillCompleted_iff (h : Only user key r s) :
    s.StillCompleted user key ↔ r.status = .completed := by
  constructor
  · rintro ⟨r', hmem, hkeyed, hstatus⟩
    rwa [← h.mem_iff.mp ⟨hmem, hkeyed⟩]
  · exact fun hstatus => ⟨r, (h.mem_iff.mpr rfl).1, (h.mem_iff.mpr rfl).2, hstatus⟩

/-- The first row with the key is that of a commit. -/
lemma only_of_append (hconflicts : s.conflicts user (some key) = false) (huser : r.userId = user)
    (hkey : r.idempotencyKey = some key) (hrows : s'.redemptions = s.redemptions ++ [r]) :
    Only user key r s' := by
  have hnone : s.redemptions.filter (PointRedemption.Keyed user (some key) ·) = [] :=
    List.filter_eq_nil_iff.mpr fun r hr => List.any_eq_false.mp hconflicts r hr
  have hkeyed : r.Keyed user (some key) := ⟨huser, hkey, Option.some_ne_none _⟩
  rw [Only, hrows, List.filter_append, hnone, List.filter_singleton, decide_eq_true hkeyed]
  rfl

lemma Only.append (h : Only user key r s) {rows : List PointRedemption}
    (hrows : s'.redemptions = s.redemptions ++ rows)
    (hkeys : ∀ r ∈ rows, ¬ r.Keyed user (some key)) : Only user key r s' := by
  have hnone : rows.filter (PointRedemption.Keyed user (some key) ·) = [] :=
    List.filter_eq_nil_iff.mpr fun r hr => by simpa using hkeys r hr
  rw [Only, hrows, List.filter_append, hnone, List.append_nil]
  exact h

/-- The row is what it was, but that a gas rebate may have been consumed. -/
structure Follows (r r' : PointRedemption) : Prop where
  pointsSpent : r'.pointsSpent = r.pointsSpent
  status : r'.status = .completed → r.status = .completed

lemma Follows.refl (r : PointRedemption) : Follows r r := ⟨rfl, id⟩

lemma Follows.trans {r'' : PointRedemption} (h : Follows r r') (h' : Follows r' r'') :
    Follows r r'' := ⟨h'.pointsSpent.trans h.pointsSpent, h.status ∘ h'.status⟩

/-- The one row that has the key is kept, where every row is. -/
lemma Only.of_forall₂ (h : Only user key r s)
    (hrows : List.Forall₂ (fun r r' => Follows r r' ∧
      (r.Keyed user (some key) ↔ r'.Keyed user (some key))) s.redemptions s'.redemptions) :
    ∃ r', Only user key r' s' ∧ Follows r r' := by
  have hfilter := List.rel_filter (p := (PointRedemption.Keyed user (some key) ·))
    (q := (PointRedemption.Keyed user (some key) ·)) (fun r r' h => by simpa using h.2) hrows
  rw [show s.redemptions.filter _ = [r] from h] at hfilter
  obtain ⟨r', rows, hfollows, hnil, hrows'⟩ := List.forall₂_cons_left_iff.mp hfilter
  rw [List.forall₂_nil_left_iff.mp hnil] at hrows'
  exact ⟨r', hrows', hfollows.1⟩

/-! ### Runs -/

lemma Only.consumeGasRebate (h : Only user key r s) (user' : UserId) (worth : String → Bool) :
    ∃ r', Only user key r' (s.consumeGasRebate user' worth) ∧ Follows r r' := by
  unfold State.consumeGasRebate
  split
  · exact ⟨r, h, .refl r⟩
  · refine h.of_forall₂ (List.forall₂_iff_get.mpr ⟨(List.length_modify _ _ _).symm, ?_⟩)
    intro i hi hi'
    simp only [List.get_eq_getElem, List.getElem_modify]
    split_ifs
    · exact ⟨⟨rfl, nofun⟩, Iff.rfl⟩
    · exact ⟨.refl _, Iff.rfl⟩
    · exact ⟨.refl _, Iff.rfl⟩

lemma Only.step (h : Only user key r s) (step : Step) :
    ∃ r', Only user key r' (s.step step) ∧ Follows r r' := by
  cases step with
  | consumeGasRebate user' worth => exact h.consumeGasRebate user' worth
  | elsewhere s' =>
    refine ⟨r, h.append rfl ?_, .refl r⟩
    intro r' hr' hkeyed
    obtain ⟨r'', -, rfl⟩ := List.mem_map.mp hr'
    exact Option.some_ne_none _ hkeyed.2.1.symm
  | redeem user' key' fulfill call =>
    have houtcome := outcome s user' key' fulfill call
    change ∃ r', Only user key r' (s.redeem user' key' fulfill call).1 ∧ Follows r r'
    generalize s.redeem user' key' fulfill call = result at houtcome ⊢
    cases houtcome with
    | refused  => exact ⟨r, h, .refl r⟩
    | replayed => exact ⟨r, h, .refl r⟩
    | committed hconflicts hrows huser hkey =>
      refine ⟨r, h.append hrows ?_, .refl r⟩
      intro r' hr' hkeyed
      rw [List.mem_singleton.mp hr'] at hkeyed
      have hsame : s.conflicts user' key' = true := by
        rw [← huser, ← hkey, hkeyed.1, hkeyed.2.1]
        exact h.conflicts
      exact Bool.false_ne_true (hconflicts.symm.trans hsame)

lemma Only.run (h : Only user key r s) (steps : List Step) :
    ∃ r', Only user key r' (s.run steps) ∧ Follows r r' := by
  induction steps generalizing r s with
  | nil => exact ⟨r, h, .refl r⟩
  | cons step steps ih =>
    obtain ⟨r', honly, hfollows⟩ := h.step step
    obtain ⟨r'', honly', hfollows'⟩ := ih honly
    exact ⟨r'', honly', hfollows.trans hfollows'⟩

/-! ### Replays -/

/-- What a replay finds. -/
lemma Only.replay (h : Only user key r s) {expectedAmount : Option ℤ}
    (hamount : ∀ amount ∈ expectedAmount, r.pointsSpent = amount) :
    (s.replayIdempotentRedemption user (some key) expectedAmount).1 = true ↔
      key ≠ "" ∧ r.status = .completed := by
  have hfind : s.redemptions.reverse.find? (PointRedemption.Keyed user (some key) ·) = some r := by
    rw [← List.head?_filter, List.filter_reverse, show s.redemptions.filter _ = [r] from h]
    rfl
  have hsame : ¬ ∃ amount ∈ expectedAmount, r.pointsSpent ≠ amount :=
    fun ⟨amount, hmem, hne⟩ => hne (hamount amount hmem)
  unfold State.replayIdempotentRedemption
  rw [Option.getD_some, hfind]
  dsimp only
  rw [if_neg hsame]
  split_ifs with hempty hstatus
  · exact iff_of_false not_false fun h => h.1 hempty
  · exact iff_of_true rfl ⟨hempty, hstatus⟩
  · exact iff_of_false not_false fun h => hstatus h.2

theorem replay_faithful_iff (hcommits : s.Commits user (some key) fulfill call) (steps : List Step)
    (fulfill' : Option FulfillResult) :
    let original := s.redeem user (some key) fulfill call
    let later := original.1.run steps
    let replay := later.redeem user (some key) fulfill' call
    replay.1 = later ∧
      (replay.2.success = original.2.success ↔
        original.2.success = false ∨
          key ≠ "" ∧ later.Passes user call ∧ later.StillCompleted user key) := by
  obtain ⟨r, hadded⟩ := hcommits
  intro original later replay
  have hadds : s.redemptions ≠ s.redemptions ++ [r] := by simp
  have horiginal : Outcome s user (some key) call original := outcome s user (some key) fulfill call
  change original.1.redemptions = s.redemptions ++ [r] at hadded
  clear_value original
  cases horiginal with
  | refused  => exact absurd hadded hadds
  | replayed => exact absurd hadded hadds
  | @committed t reply _ hconflicts hrows huser hkey hamount hreply =>
    obtain ⟨r', honly, hfollows⟩ := (only_of_append hconflicts huser hkey hrows).run steps
    have hlater : Outcome later user (some key) call replay :=
      outcome later user (some key) fulfill' call
    clear_value replay
    rw [honly.stillCompleted_iff]
    dsimp only
    cases hlater with
    | refused hchecks =>
      refine ⟨rfl, ⟨fun h => .inl h.symm, ?_⟩⟩
      rintro (h | ⟨-, hpasses, -⟩)
      · exact h.symm
      · exact absurd hpasses hchecks
    | replayed hchecks hsuccess =>
      refine ⟨rfl, ?_⟩
      have hreplay := honly.replay fun amount hmem =>
        hfollows.pointsSpent.trans (hamount amount hmem)
      rw [hsuccess]
      cases horiginal : reply.success with
      | false =>
        refine iff_of_true (Bool.eq_false_iff.mpr fun h => ?_) (.inl rfl)
        have hcompleted := hreply.mpr (hfollows.status (hreplay.mp h).2)
        exact Bool.false_ne_true (horiginal.symm.trans hcompleted)
      | true =>
        rw [hreplay]
        constructor
        · exact fun h => .inr ⟨h.1, hchecks, h.2⟩
        · rintro (h | ⟨hne, -, hstatus⟩)
          · cases h
          · exact ⟨hne, hstatus⟩
    | committed hfree => exact absurd (honly.conflicts.symm.trans hfree) (Bool.false_ne_true ·.symm)

/-- A user who has some points and nothing else. -/
def funded (points : ℤ) : State :=
  ⟨0, fun _ => some ((Account.new).credit points), [], [], fun _ => none, [], fun _ => none⟩

/-- A gas rebate that 40 points buy. -/
def rebate : Call := .spendPoints 40 "gas_rebate" "5" none

/-- The user buys again under another key and without one, and another user buys too. -/
def boughtMeanwhile : List Step := [
  .redeem 7 (some "other") none (.spendPoints 10 "gas_rebate" "1" none),
  .redeem 7 none none (.spendPoints 5 "gas_rebate" "1" none),
  .redeem 8 (some "k") none rebate]

theorem replay_faithful_iff_rebate :
    let original := (funded 100).redeem 7 (some "k") none rebate
    let later := original.1.run boughtMeanwhile
    (later.redeem 7 (some "k") none rebate).2.success = original.2.success := by
  have hcommits : (funded 100).Commits 7 (some "k") none rebate := ⟨_, rfl⟩
  exact (replay_faithful_iff hcommits boughtMeanwhile none).2.mpr
    (.inr ⟨by decide, by decide +kernel, by decide +kernel⟩)

/-- A replay fails where the balance pays once, or where the gas rebate has been consumed. -/
theorem replay_unfaithful :
    (¬ ∀ (s : State) user key fulfill call, s.Commits user (some key) fulfill call →
      let original := s.redeem user (some key) fulfill call
      (original.1.redeem user (some key) fulfill call).2.success = original.2.success) ∧
    ¬ ∀ (s : State) user key fulfill call, s.Commits user (some key) fulfill call →
      let original := s.redeem user (some key) fulfill call
      let later := original.1.run [.consumeGasRebate user fun _ => true]
      (later.redeem user (some key) fulfill call).2.success = original.2.success := by
  constructor
  · intro h
    exact absurd (h (funded 50) 7 "k" none rebate ⟨_, rfl⟩) (by decide)
  · intro h
    exact absurd (h (funded 100) 7 "k" none rebate ⟨_, rfl⟩) (by decide)

end Suwappu.PointsService.Redemptions
