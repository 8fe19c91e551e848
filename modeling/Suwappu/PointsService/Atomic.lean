import Suwappu.PointsService.Calls

/-!
# Awards are atomic

`sound_of_careful`: where nothing fails between the row of a milestone and its entry, and where no
milestone reaches a level, every call leaves the points, the level, the ledger and the milestones in
step.
-/

namespace Suwappu.PointsService.Calls

variable {db w w' : Db} {d p : ℤ} {m : Milestone} {extra : List (MilestoneId × ℤ)} {e : Entry}
  {s s' : State} {stage stage' : Stage}

/-! ### Books -/

/-- An account whose points have their entries, but for some points and some milestones. -/
structure Books (db : Db) (d : ℤ) (extra : List (MilestoneId × ℤ)) : Prop where
  account : ∃ a, db.account = some a ∧ a.level = levelFromXp a.xp ∧ a.xp = a.totalPointsEarned ∧
    a.totalPointsEarned = (db.ledger.map Entry.amount).sum + d
  milestones : db.milestones = db.credited ++ extra
  references : (references db.ledger).Nodup

lemma Books.of_eq {d' : ℤ} (h : Books db d extra) (hd : d = d') : Books db d' extra := hd ▸ h

lemma Books.sound (h : Books db 0 []) : Sound db := by
  obtain ⟨a, ha, hlevel, hxp, hearned⟩ := h.account
  refine ⟨?_, ?_, ?_, by rw [h.milestones, List.append_nil], h.references⟩
  · intro b hb
    cases ha.symm.trans hb
    exact hlevel
  · intro b hb
    cases ha.symm.trans hb
    exact hxp
  · rw [Db.earned, ha, Option.map_some, Option.getD_some, hearned, add_zero]

lemma Sound.books (h : Sound db) {a : Account} (ha : db.account = some a) : Books db 0 [] where
  account := by
    have hearned := h.earned
    rw [Db.earned, ha, Option.map_some, Option.getD_some] at hearned
    exact ⟨a, ha, h.level a ha, h.xp a ha, by rw [hearned, add_zero]⟩
  milestones := by rw [h.milestones, List.append_nil]
  references := h.references

/-- The account of a user who had none. -/
lemma Sound.create (h : Sound db) (hnone : db.account = none) :
    Books { db with account := some .new } 0 [] where
  account := by
    have hearned := h.earned
    rw [Db.earned, hnone, Option.map_none, Option.getD_none] at hearned
    exact ⟨.new, rfl, rfl, rfl, by rw [← hearned]; rfl⟩
  milestones := by
    rw [List.append_nil]
    exact h.milestones
  references := h.references

/-- An update that adds points and leaves the level in step. -/
lemma Books.update (h : Books db d extra) {f : Account → Account}
    (hlevel : ∀ a, db.account = some a → a.level = levelFromXp a.xp →
      (f a).level = levelFromXp (f a).xp)
    (hxp : ∀ a, (f a).xp = a.xp + p)
    (hearned : ∀ a, (f a).totalPointsEarned = a.totalPointsEarned + p) :
    Books (db.update f) (d + p) extra where
  account := by
    obtain ⟨a, ha, hlevel', hxp', hearned'⟩ := h.account
    refine ⟨f a, congrArg (Option.map f) ha, hlevel a ha hlevel', ?_, ?_⟩
    · rw [hxp, hearned, hxp']
    · rw [hearned, hearned']
      exact add_assoc _ _ _
  milestones := h.milestones
  references := h.references

lemma Books.relevel (h : Books db d extra) {f : Account → Account}
    (hlevel : ∀ a, (f a).level = levelFromXp (f a).xp) (hxp : ∀ a, (f a).xp = a.xp + p)
    (hearned : ∀ a, (f a).totalPointsEarned = a.totalPointsEarned + p) :
    Books (db.update f) (d + p) extra :=
  h.update (fun a _ _ => hlevel a) hxp hearned

lemma references_insert : references (db.insert e).ledger =
    references db.ledger ++ e.reference.toList := by
  unfold references Db.insert
  rw [List.filterMap_append]
  cases hreference : e.reference with
  | none   => simp [hreference]
  | some r => simp [hreference]

lemma nodup_insert (h : (references db.ledger).Nodup)
    (hconflict : db.conflicts e.reference = false) :
    (references (db.insert e).ledger).Nodup := by
  rw [references_insert]
  cases hreference : e.reference with
  | none => simpa using h
  | some r =>
    refine List.nodup_append.mpr ⟨h, List.nodup_singleton r, ?_⟩
    rintro r' hr' _ hr rfl
    cases List.mem_singleton.mp hr
    rw [hreference] at hconflict
    exact of_decide_eq_false hconflict ⟨r, rfl, hr'⟩

lemma sum_insert : ((db.insert e).ledger.map Entry.amount).sum =
    (db.ledger.map Entry.amount).sum + e.amount := by
  rw [Db.insert, List.map_append, List.sum_append, List.map_singleton, List.sum_singleton]

lemma Books.insert_of_credited (h : Books db d extra) {extra' : List (MilestoneId × ℤ)}
    (hconflict : db.conflicts e.reference = false)
    (hcredited : (db.insert e).credited ++ extra' = db.credited ++ extra) :
    Books (db.insert e) (d - e.amount) extra' where
  account := by
    obtain ⟨a, ha, hlevel, hxp, hearned⟩ := h.account
    refine ⟨a, ha, hlevel, hxp, ?_⟩
    rw [sum_insert, hearned]
    ring
  milestones := h.milestones.trans hcredited.symm
  references := nodup_insert h.references hconflict

lemma credited_insert : (db.insert e).credited = db.credited ++ (milestoneOf e).toList := by
  unfold Db.credited Db.insert
  rw [List.filterMap_append]
  cases hmilestone : milestoneOf e with
  | none   => simp [hmilestone]
  | some r => simp [hmilestone]

lemma Books.insert (h : Books db d extra) (hplain : milestoneOf e = none)
    (hconflict : db.conflicts e.reference = false) : Books (db.insert e) (d - e.amount) extra :=
  h.insert_of_credited hconflict
    (by rw [credited_insert, hplain, Option.toList_none, List.append_nil])

lemma Books.record (h : Books db d [(m.id, (m.pointsReward : ℤ))]) :
    Books (db.insert m.entry) (d - m.pointsReward) [] :=
  h.insert_of_credited (e := m.entry) rfl (by rw [credited_insert, List.append_nil]; rfl)

/-- The row of a milestone, which waits for its points and its entry. -/
lemma Books.award (h : Books db d extra) (entry : MilestoneId × ℤ) :
    Books { db with milestones := db.milestones ++ [entry] } d (extra ++ [entry]) where
  account := h.account
  milestones := by
    rw [← List.append_assoc]
    exact congrArg (· ++ [entry]) h.milestones
  references := h.references

/-! ### Transactions -/

/-- A stage of a transaction, also one that begins it. -/
def Stage.transacting : Stage → Bool
  | .award _ _ | .firstSwap _ _ _ _ | .insertVolume _ _ _ _ | .creditVolume _ _ _ | .checkin _ _
  | .insertEntries _ _ _ _ | .levelUp _ _ _ | .creditLevel _ | .commit _ => true
  | _ => false

/-- The entries that a transaction still has to insert. -/
def Stage.pending : Stage → List Entry
  | .insertVolume _ _ dailyBonus _ | .creditVolume _ dailyBonus _ => dailyBonus
  | .insertEntries pending _ _ _ => pending
  | _ => []

/-- The points that have been credited and have no entry yet. -/
def Stage.owed : Stage → ℤ
  | .creditVolume swapAmountUsd dailyBonus _ =>
    (dailyBonus.map Entry.amount).sum - volumePoints swapAmountUsd
  | .creditLevel _ => -100
  | stage          => (stage.pending.map Entry.amount).sum

/-- What a transaction keeps on its rows. -/
structure Transacting (w : Db) (stage : Stage) : Prop where
  books : Books w stage.owed []
  plain : ∀ e ∈ stage.pending, milestoneOf e = none ∧ e.reference = none

lemma Transacting.transact (h : Transacting w stage)
    (hstep : transact w stage = some (w', stage')) :
    stage'.transacting = true ∧ Transacting w' stage' := by
  obtain ⟨hbooks, hplain⟩ := h
  cases stage with
  | award pointAmount current =>
    cases hstep
    refine ⟨rfl, ?_, ?_⟩
    · have hcredit := hbooks.relevel (p := pointAmount)
        (f := fun a => (a.credit pointAmount).relevel)
        (fun _ => rfl) (fun _ => rfl) fun _ => rfl
      rwa [add_comm] at hcredit
    · intro e he
      cases List.mem_singleton.mp he
      exact ⟨rfl, rfl⟩
  | firstSwap swapAmountUsd swapId now current =>
    rw [Calls.transact] at hstep
    split_ifs at hstep
    · cases hstep
      refine ⟨rfl, ?_, ?_⟩
      · exact hbooks.relevel (p := 50)
          (f := fun a => { (a.credit 50).relevel with lastSwapDate := some now })
          (fun _ => rfl) (fun _ => rfl) fun _ => rfl
      · intro e he
        cases List.mem_singleton.mp he
        exact ⟨rfl, rfl⟩
    · cases hstep
      exact ⟨rfl, hbooks, hplain⟩
  | insertVolume swapAmountUsd swapId dailyBonus current =>
    rw [Calls.transact] at hstep
    split_ifs at hstep with hskip
    · cases hstep
      exact ⟨rfl, hbooks, hplain⟩
    · cases hstep
      rw [not_or, Bool.not_eq_true] at hskip
      exact ⟨rfl, hbooks.insert rfl hskip.2, hplain⟩
  | creditVolume swapAmountUsd dailyBonus current =>
    cases hstep
    refine ⟨rfl, ?_, hplain⟩
    have hcredit := hbooks.relevel (p := volumePoints swapAmountUsd)
      (f := fun a => { (a.credit (volumePoints swapAmountUsd)).relevel with
        totalSwaps := a.totalSwaps + 1
        totalVolumeUsd := a.totalVolumeUsd + swapAmountUsd })
      (fun _ => rfl) (fun _ => rfl) fun _ => rfl
    rwa [Stage.owed, sub_add_cancel] at hcredit
  | checkin now current =>
    rw [Calls.transact] at hstep
    dsimp only at hstep
    have hcredit := hbooks.relevel (p := 10 + (streakBonus (current.newStreak now) : ℤ))
      (f := fun a => ((a.checkin now (current.newStreak now)).credit
        (10 + (streakBonus (current.newStreak now) : ℤ))).relevel)
      (fun _ => rfl) (fun _ => rfl) fun _ => rfl
    split_ifs at hstep with hallowed hbonus
    all_goals cases hstep
    · refine ⟨rfl, hcredit.of_eq ?_, ?_⟩
      · change 0 + (10 + _) = 10 + (_ + 0)
        rw [zero_add, add_zero]
      · intro e he
        rcases List.mem_cons.mp he with rfl | he
        · exact ⟨rfl, rfl⟩
        · cases List.mem_singleton.mp he
          exact ⟨rfl, rfl⟩
    · have hzero : (streakBonus (current.newStreak now) : ℤ) = 0 :=
        le_antisymm (not_lt.mp hbonus) (Int.natCast_nonneg _)
      refine ⟨rfl, hcredit.of_eq ?_, ?_⟩
      · change 0 + (10 + _) = 10 + 0
        rw [zero_add, hzero]
      · intro e he
        cases List.mem_singleton.mp he
        exact ⟨rfl, rfl⟩
  | insertEntries pending newXp current milestones =>
    cases pending with
    | nil =>
      cases hstep
      exact ⟨rfl, hbooks, hplain⟩
    | cons e pending =>
      cases hstep
      obtain ⟨⟨hmilestone, hreference⟩, hplain⟩ := List.forall_mem_cons.mp hplain
      have hinsert := hbooks.insert hmilestone (by rw [hreference]; rfl)
      refine ⟨rfl, hinsert.of_eq ?_, hplain⟩
      exact add_sub_cancel_left _ _
  | levelUp newXp current milestones =>
    rw [Calls.transact] at hstep
    split_ifs at hstep with hskip
    · cases hstep
      exact ⟨rfl, hbooks, hplain⟩
    · cases hstep
      rw [not_or, Bool.not_eq_true] at hskip
      exact ⟨rfl, hbooks.insert rfl hskip.2, hplain⟩
  | creditLevel milestones =>
    cases hstep
    refine ⟨rfl, ?_, hplain⟩
    exact hbooks.relevel (p := 100) (f := fun a => (a.credit 100).relevel)
      (fun _ => rfl) (fun _ => rfl) fun _ => rfl
  | _ => cases hstep

/-! ### Stages -/

/-- What is kept at each stage of a call. -/
def Inv (s : State) : Prop :=
  if s.stage.transacting then Sound s.db ∧ Transacting (s.tx.getD s.db) s.stage
  else s.tx = none ∧ match s.stage with
    | .createAccount _ _   => Sound s.db ∧ s.db.account = none
    | .getMilestones _ | .getAchieved _ _ | .insertMilestone _ => Books s.db 0 []
    | .creditMilestone m _ => Books s.db 0 [(m.id, (m.pointsReward : ℤ))]
    | .recordMilestone m _ => Books s.db m.pointsReward [(m.id, (m.pointsReward : ℤ))]
    | _                    => Sound s.db

lemma inv_of_transacting (hstage : s.stage.transacting = true) (hsound : Sound s.db)
    (h : Transacting (s.tx.getD s.db) s.stage) : Inv s := by
  unfold Inv
  rw [if_pos hstage]
  exact ⟨hsound, h⟩

/-- What a call begins with. -/
lemma inv_begin (hbooks : Books s.db 0 []) (htx : s.tx = none) (call : Call) {current : Account}
    {now : Time} (hstage : s.stage = begin current now call) : Inv s := by
  have hrows : s.tx.getD s.db = s.db := by rw [htx, Option.getD_none]
  cases call with
  | checkMilestones =>
    unfold Inv
    rw [hstage]
    exact ⟨htx, hbooks⟩
  | _ =>
    refine inv_of_transacting (by rw [hstage]; rfl) hbooks.sound ?_
    rw [hrows, hstage]
    exact ⟨hbooks, fun e he => absurd he List.not_mem_nil⟩

/-- A failure rolls back to rows that are sound, but between a milestone's row and its entry. -/
lemma Inv.sound (h : Inv s) (hcareful : Careful s .fails) : Sound s.db := by
  unfold Inv at h
  split_ifs at h with hstage
  · exact h.1
  · obtain ⟨-, h⟩ := h
    unfold Careful at hcareful
    cases hcase : s.stage with
    | createAccount call now =>
      rw [hcase] at h
      exact h.1
    | getMilestones current =>
      rw [hcase] at h
      exact Books.sound h
    | getAchieved current active =>
      rw [hcase] at h
      exact Books.sound h
    | insertMilestone todo =>
      rw [hcase] at h
      exact Books.sound h
    | creditMilestone m todo =>
      rw [hcase] at hcareful
      exact absurd rfl hcareful.1
    | recordMilestone m todo =>
      rw [hcase] at hcareful
      exact absurd rfl hcareful
    | _ =>
      rw [hcase] at h
      exact h

lemma Inv.transact (h : Inv s) (hstage : s.stage.transacting = true) :
    Inv (match Calls.transact (s.tx.getD s.db) s.stage with
      | some (db, stage) => { s with tx := some db, stage := stage }
      | none             => { s with tx := none, stage := .idle }) := by
  unfold Inv at h
  rw [if_pos hstage] at h
  cases hstep : Calls.transact (s.tx.getD s.db) s.stage with
  | none => exact ⟨rfl, h.1⟩
  | some next =>
    obtain ⟨w, stage⟩ := next
    obtain ⟨hstage', htransacting⟩ := h.2.transact hstep
    exact inv_of_transacting hstage' h.1 htransacting

lemma Inv.advance (h : Inv s) (hcareful : Careful s .ok) (hstep : advance s s.stage = some s') :
    Inv s' := by
  obtain ⟨now, db, tx, stage⟩ := s
  cases stage with
  | idle => cases hstep
  | getMilestones current => cases hstep
  | getOrCreate call now' =>
    obtain ⟨htx, hsound⟩ := h
    cases hstep
    cases haccount : db.account with
    | none   => exact ⟨htx, hsound, haccount⟩
    | some a => exact inv_begin (Sound.books hsound haccount) htx call rfl
  | createAccount call now' =>
    obtain ⟨htx, hsound, hnone⟩ := h
    cases hstep
    exact inv_begin (hsound.create hnone) htx call rfl
  | commit milestones =>
    obtain ⟨-, hbooks, -⟩ := h
    cases hstep
    have hsound : Sound (tx.getD db) := hbooks.sound
    cases milestones with
    | false => exact ⟨rfl, hsound⟩
    | true  => exact ⟨rfl, hsound⟩
  | getAchieved current active =>
    obtain ⟨htx, hbooks⟩ := h
    cases hstep
    exact ⟨htx, hbooks⟩
  | insertMilestone todo =>
    obtain ⟨htx, hbooks⟩ := h
    have hbooks : Books db 0 [] := hbooks
    cases todo with
    | nil =>
      cases hstep
      exact ⟨htx, hbooks.sound⟩
    | cons m todo =>
      rw [Calls.advance] at hstep
      split_ifs at hstep
      · cases hstep
        exact ⟨htx, hbooks.sound⟩
      · cases hstep
        exact ⟨htx, hbooks.award (m.id, (m.pointsReward : ℤ))⟩
  | creditMilestone m todo =>
    obtain ⟨htx, hbooks⟩ := h
    have hbooks : Books db 0 [(m.id, (m.pointsReward : ℤ))] := hbooks
    cases hstep
    have hcredit := hbooks.update (p := m.pointsReward) (f := fun a => a.credit m.pointsReward)
      (fun a ha hlevel => hlevel.trans (hcareful.2 a ha).symm) (fun _ => rfl) fun _ => rfl
    exact ⟨htx, hcredit.of_eq (zero_add _)⟩
  | recordMilestone m todo =>
    obtain ⟨htx, hbooks⟩ := h
    cases hstep
    exact ⟨htx, (Books.record hbooks).of_eq (sub_self _)⟩
  | _ =>
    cases hstep
    exact h.transact rfl

lemma Inv.step {action : Step} (h : Inv s) (hcareful : Careful s action)
    (hstep : step s action = .ok s') : Inv s' := by
  cases action with
  | call call =>
    dsimp only [Calls.step] at hstep
    split at hstep
    · rename_i hidle
      cases hstep
      unfold Inv at h ⊢
      rw [hidle] at h
      exact h
    · cases hstep
  | ok =>
    dsimp only [Calls.step] at hstep
    split at hstep
    · rename_i hadvance
      cases hstep
      exact h.advance hcareful hadvance
    · cases hstep
  | milestones active =>
    dsimp only [Calls.step] at hstep
    split at hstep
    · rename_i hstage
      cases hstep
      unfold Inv at h ⊢
      rw [hstage] at h
      exact h
    · cases hstep
  | fails =>
    have hsound := h.sound hcareful
    dsimp only [Calls.step] at hstep
    split at hstep
    · cases hstep
    · cases hstep
      exact ⟨rfl, hsound⟩
  | elapse duration =>
    cases hstep
    exact h

/-- After every call of a run in which no milestone is left half awarded or reaches a level. -/
theorem sound_of_careful (now : Time) (actions : List Step)
    (hcareful : machine.Along Careful (initial now) actions)
    (hidle : (machine.run (initial now) actions).stage = .idle) :
    Sound (machine.run (initial now) actions).db := by
  have hinitial : Inv (initial now) := ⟨rfl, fun _ ha => (Option.not_mem_none _ ha).elim,
    fun _ ha => (Option.not_mem_none _ ha).elim, rfl, rfl, List.nodup_nil⟩
  have hinv := Machine.run_induction_along (fun s a s' hs hC hstep => hs.step hC hstep) actions
    hinitial hcareful
  unfold Inv at hinv
  rw [hidle] at hinv
  exact hinv.2

/-- An award, a check-in and the milestone of a first day. -/
def firstDay (pointAmount : ℤ) (pointsReward : ℕ) : List Step :=
  .call (.awardPoints pointAmount) :: List.replicate 7 .ok ++
    .call .dailyCheckin :: List.replicate 8 .ok ++
    [.milestones [⟨1, .streak, 1, pointsReward⟩], .ok, .ok]

theorem sound_of_careful_firstDay :
    Sound (machine.run (initial 0) (firstDay 100 50 ++ List.replicate 3 .ok)).db :=
  sound_of_careful 0 _ (by decide +kernel) (by decide +kernel)

/-- A milestone that reaches a level leaves the old one; one whose points fail stays without. -/
theorem milestone_out_of_step :
    (¬ ∀ now actions, (machine.run (initial now) actions).stage = .idle →
      ∀ a ∈ (machine.run (initial now) actions).db.account, a.level = levelFromXp a.xp) ∧
    ¬ ∀ now actions, (machine.run (initial now) actions).stage = .idle →
      (machine.run (initial now) actions).db.milestones =
        (machine.run (initial now) actions).db.credited := by
  constructor
  · intro h
    have hlevel := h 0 (firstDay 900 100 ++ List.replicate 3 .ok) (by decide +kernel)
    revert hlevel
    decide +kernel
  · intro h
    have hmilestones := h 0 (firstDay 100 50 ++ [.fails]) (by decide +kernel)
    revert hmilestones
    decide +kernel

end Suwappu.PointsService.Calls
