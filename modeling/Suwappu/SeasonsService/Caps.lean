import Suwappu.SeasonsService.Accrual

/-!
# Caps of the season points

`capsHold_of_careful`: the caps hold and the points are the sum of the credits, along every run in
which a call writes the row only as it has read it, and on the day that it began. `cap_exceeded`:
two calls at once exceed the daily cap.
-/

namespace Suwappu.SeasonsService

def sumOf (credits : List Credit) : ℚ := (credits.map Credit.amount).sum

def creditedOn (credits : List Credit) (day : Day) : ℚ :=
  sumOf (credits.filter fun c => c.day = day)

def referralCredits (credits : List Credit) : ℚ := sumOf (credits.filter Credit.referral)

/-- The caps are those of both services. -/
structure CapsHold (s : State) : Prop where
  daily : ∀ day, creditedOn s.credits day ≤ Bot.DAILY_SEASON_POINT_CAP
  referral : referralCredits s.credits ≤ Bot.REFERRAL_SEASON_POINT_CAP
  stored : s.row.elim 0 SeasonPoints.points = sumOf s.credits

/-- The row is still the one that was read, and the day the one on which the call began. -/
def Careful (s : State) : Proc → Answer → Bool
  | .botUpdate c row _ inserted, .ok => (inserted ∨ s.row = some row) ∧ day s.now = c.today
  | .apiUpdate c row _, .ok          => s.row = some row ∧ day s.now = c.today
  | _, _                             => true

/-! ### Sums -/

variable {credits : List Credit} {credit : Credit} {d : Day}

@[simp] lemma sumOf_nil : sumOf [] = 0 := rfl

@[simp] lemma sumOf_concat : sumOf (credits ++ [credit]) = sumOf credits + credit.amount := by
  simp [sumOf]

lemma creditedOn_concat : creditedOn (credits ++ [credit]) d =
    creditedOn credits d + if credit.day = d then credit.amount else 0 := by
  by_cases h : credit.day = d <;> simp [creditedOn, h]

lemma referralCredits_concat : referralCredits (credits ++ [credit]) =
    referralCredits credits + if credit.referral then credit.amount else 0 := by
  cases h : credit.referral <;> simp [referralCredits, h]

/-- No credit, no sum. -/
lemma creditedOn_eq_zero (h : ∀ c ∈ credits, c.day < d) : creditedOn credits d = 0 := by
  rw [creditedOn, List.filter_eq_nil_iff.mpr]
  · rfl
  · intro c hc
    simpa using (h c hc).ne

/-! ### The invariant -/

/-- The row is what the credits add up to. -/
structure SeasonPoints.Recorded (row : SeasonPoints) (credits : List Credit) (today : Day) :
    Prop where
  points : row.points = sumOf credits
  referralPoints : row.referralPoints = referralCredits credits
  referral : row.referralPoints ≤ Bot.REFERRAL_SEASON_POINT_CAP
  dailyPointsAwarded : row.dailyPointsAwarded = creditedOn credits row.dailyWindowDate
  days : ∀ c ∈ credits, c.day ≤ row.dailyWindowDate
  window : row.dailyWindowDate ≤ today

/-- What the clamps leave of a credit. -/
structure Accrual.Fits (c : Accrual) (row : SeasonPoints) (credit : ℚ) : Prop where
  nonneg : 0 ≤ credit
  daily : 0 < credit → Api.dailyAwarded row c.today + credit ≤ Bot.DAILY_SEASON_POINT_CAP
  referral : c.referral = true → 0 < credit →
    row.referralPoints + credit ≤ Bot.REFERRAL_SEASON_POINT_CAP

def weight (p : Proc) : ℕ :=
  match p with
  | .botLevel _ _ inserted | .botUpdate _ _ _ inserted => inserted.toNat
  | .botCommit _ _ _ _ _ => 1
  | _ => 0

structure Sound (s : State) (total : ℕ) : Prop where
  locked : total = s.locked.toNat
  row : ∀ row ∈ s.row, row.Recorded s.credits (day s.now)
  none : s.row = none → s.credits = []
  daily : ∀ day, creditedOn s.credits day ≤ Bot.DAILY_SEASON_POINT_CAP

/-- The row of a transaction that has inserted it. -/
def Inserted (s : State) (c : Accrual) (row : SeasonPoints) (inserted : Bool) : Prop :=
  inserted = true → s.row = none ∧ row = .new c.today

def Knows (s : State) : Proc → Prop
  | .idle | .apiSeason _ => True
  | .botSeason c | .botRow c | .botInsert c | .apiInsert c | .apiRow c | .apiLevel c _ =>
    c.today ≤ day s.now
  | .botLevel c row inserted => c.today ≤ day s.now ∧ Inserted s c row inserted
  | .botUpdate c row credit inserted =>
    c.today ≤ day s.now ∧ Inserted s c row inserted ∧ c.Fits row credit
  | .botCommit c row credit inserted written =>
    c.today ≤ day s.now ∧ Inserted s c row inserted ∧ c.Fits row credit ∧ written = c.today ∧
      (inserted = false → s.row = some row ∧ row.dailyWindowDate ≤ c.today)
  | .apiUpdate c row credit => c.today ≤ day s.now ∧ c.Fits row credit

variable {s s' : State} {p p' q : Proc} {rest total : ℕ} {c : Accrual} {row : SeasonPoints}
  {amount : ℚ}

/-- While a transaction has the row, it stays. -/
structure Frame (s s' : State) (rest : ℕ) : Prop where
  row : 0 < rest → s'.row = s.row
  now : s.now ≤ s'.now

lemma day_mono {t t' : Time} (h : t ≤ t') : day t ≤ day t' := Nat.div_le_div_right h

lemma Frame.knows (h : Frame s s' rest) (hq : weight q ≤ rest) (hknows : Knows s q) :
    Knows s' q := by
  have hday := day_mono h.now
  cases q with
  | idle | apiSeason => trivial
  | botSeason | botRow | botInsert | apiInsert | apiRow | apiLevel => exact le_trans hknows hday
  | apiUpdate => exact ⟨hknows.1.trans hday, hknows.2⟩
  | botLevel c row inserted =>
    refine ⟨hknows.1.trans hday, fun hinserted => ?_⟩
    rw [h.row (by rw [weight, hinserted] at hq; exact hq)]
    exact hknows.2 hinserted
  | botUpdate c row credit inserted =>
    refine ⟨hknows.1.trans hday, fun hinserted => ?_, hknows.2.2⟩
    rw [h.row (by rw [weight, hinserted] at hq; exact hq)]
    exact hknows.2.1 hinserted
  | botCommit c row credit inserted written =>
    have hrow := h.row hq
    obtain ⟨htoday, hinserted, hfits, hwritten, hread⟩ := hknows
    refine ⟨htoday.trans hday, ?_, hfits, hwritten, ?_⟩
    · rw [Inserted, hrow]
      exact hinserted
    · rw [hrow]
      exact hread

/-- What a step keeps. -/
structure Kept (s : State) (rest : ℕ) (s' : State) (p' : Proc) : Prop where
  sound : Sound s' (weight p' + rest)
  knows : Knows s' p'
  frame : Frame s s' rest

lemma Sound.move (h : Sound s (weight p + rest)) (hweight : weight p' = weight p)
    (hknows : Knows s p') : Kept s rest s p' :=
  ⟨hweight ▸ h, hknows, fun _ => rfl, le_rfl⟩

/-- Where only the lock changes. -/
lemma Sound.relock (h : Sound s (weight p + rest)) (locked : Bool)
    (hlocked : weight p' + s.locked.toNat = weight p + locked.toNat)
    (hknows : Knows { s with locked := locked } p') :
    Kept s rest { s with locked := locked } p' where
  sound := by
    have hold := h.locked
    exact ⟨by simp only; omega, h.row, h.none, h.daily⟩
  knows := hknows
  frame := ⟨fun _ => rfl, le_rfl⟩

/-! ### Credits -/

namespace SeasonPoints

lemma credit_le_daily (row : SeasonPoints) (c : Accrual) (multiplier : ℚ) :
    Api.credit row c multiplier ≤
      max 0 (Bot.DAILY_SEASON_POINT_CAP - Api.dailyAwarded row c.today) := by
  unfold Api.credit
  dsimp only
  split_ifs
  · exact (min_le_left _ _).trans (min_le_right _ _)
  · exact min_le_right _ _

lemma credit_le_referral (row : SeasonPoints) {c : Accrual} (multiplier : ℚ)
    (h : c.referral = true) :
    Api.credit row c multiplier ≤
      max 0 (Bot.REFERRAL_SEASON_POINT_CAP - row.referralPoints) := by
  unfold Api.credit
  rw [if_pos h]
  exact min_le_right _ _

/-- What is positive and at most the rest of a cap, or nothing, fits under the cap. -/
lemma add_le_of_le_max {credit cap used : ℚ} (hpos : 0 < credit) (h : credit ≤ max 0 (cap - used)) :
    used + credit ≤ cap := by
  rcases le_max_iff.mp h with hzero | hrest
  · exact absurd hpos (not_lt.mpr hzero)
  · linarith

lemma fits_credit (row : SeasonPoints) (c : Accrual) (multiplier : ℚ) :
    c.Fits row (max 0 (Api.credit row c multiplier)) where
  nonneg := le_max_left _ _
  daily hpos := add_le_of_le_max hpos (max_le (le_max_left _ _) (row.credit_le_daily c multiplier))
  referral hreferral hpos :=
    add_le_of_le_max hpos (max_le (le_max_left _ _) (row.credit_le_referral multiplier hreferral))

lemma fits_botCredit (row : SeasonPoints) (c : Accrual) (multiplier : ℚ) :
    c.Fits row (max 0 (Bot.credit (Bot.rollover row c.today) c multiplier)) := by
  rw [Bot.credit_rollover]
  exact row.fits_credit c multiplier

lemma write_self (read new : SeasonPoints) : read.write read new = new := by
  unfold write
  congr <;> split_ifs with h <;> first | exact h.symm | rfl

lemma Recorded.new {today today' : Day} (h : today ≤ today') :
    (SeasonPoints.new today).Recorded [] today' :=
  ⟨rfl, rfl, by norm_num [SeasonPoints.new, Bot.REFERRAL_SEASON_POINT_CAP], rfl, nofun, h⟩

/-- The counter of a day is what was credited on it. -/
lemma Recorded.dailyAwarded {today : Day} (h : row.Recorded credits today)
    (hwindow : row.dailyWindowDate ≤ d) : Api.dailyAwarded row d = creditedOn credits d := by
  unfold Api.dailyAwarded
  split_ifs with hd
  · rw [← hd, h.dailyPointsAwarded]
  · refine (creditedOn_eq_zero fun c hc => ?_).symm
    exact (h.days c hc).trans_lt (lt_of_le_of_ne hwindow hd)

lemma Recorded.award {today : Day} (h : row.Recorded credits today) (hfits : c.Fits row amount)
    (hwindow : row.dailyWindowDate ≤ c.today) (htoday : c.today ≤ today) :
    (Bot.award row c amount).Recorded (credits ++ [⟨c.today, amount, c.referral⟩]) today := by
  rw [Bot.award_eq]
  exact
  { points := by rw [sumOf_concat, Api.increment, h.points]
    referralPoints := by rw [referralCredits_concat, Api.increment, h.referralPoints]
    referral := by
      change row.referralPoints + (if c.referral then amount else 0) ≤ _
      split_ifs with hreferral
      · rcases hfits.nonneg.eq_or_lt with hzero | hpos
        · rw [← hzero, add_zero]
          exact h.referral
        · exact hfits.referral hreferral hpos
      · rw [add_zero]
        exact h.referral
    dailyPointsAwarded := by
      unfold Api.increment
      rw [creditedOn_concat, if_pos rfl, h.dailyAwarded hwindow]
    days := by
      intro credit hcredit
      rcases List.mem_append.mp hcredit with hcredit | hcredit
      · exact (h.days credit hcredit).trans hwindow
      · rw [List.mem_singleton.mp hcredit]
        rfl
    window := htoday }

end SeasonPoints

lemma creditedOn_award {today : Day} (h : row.Recorded credits today)
    (hdaily : ∀ day, creditedOn credits day ≤ Bot.DAILY_SEASON_POINT_CAP)
    (hfits : c.Fits row amount)
    (hwindow : row.dailyWindowDate ≤ c.today) (day : Day) :
    creditedOn (credits ++ [⟨c.today, amount, c.referral⟩]) day ≤ Bot.DAILY_SEASON_POINT_CAP := by
  rw [creditedOn_concat]
  split_ifs with hday
  · rcases hfits.nonneg.eq_or_lt with hzero | hpos
    · rw [← hzero, add_zero]
      exact hdaily day
    · rw [← hday, ← h.dailyAwarded hwindow]
      exact hfits.daily hpos
  · rw [add_zero]
    exact hdaily day

/-- The row is written, and the credit recorded with it. -/
lemma Sound.award (h : Sound s (weight p + rest)) (hrow : row.Recorded s.credits (day s.now))
    (hfits : c.Fits row amount) (hwindow : row.dailyWindowDate ≤ c.today)
    (htoday : c.today ≤ day s.now) (hrest : rest = 0) :
    Kept s rest { s with
      row := some (Bot.award row c amount)
      locked := false
      credits := s.credits ++ [⟨c.today, amount, c.referral⟩] } .idle where
  sound := by
    refine ⟨by rw [hrest]; rfl, fun row' hrow' => ?_, nofun,
      creditedOn_award hrow h.daily hfits hwindow⟩
    obtain rfl := Option.some.inj hrow'
    exact hrow.award hfits hwindow htoday
  knows := trivial
  frame := ⟨fun hpos => by omega, le_rfl⟩

/-! ### Steps -/

theorem step_kept {answer : Answer} (h : Sound s (weight p + rest)) (hknows : Knows s p)
    (hcareful : Careful s p answer = true) (hstep : step s p answer = .ok (s', p')) :
    Kept s rest s' p' := by
  have hlocked := h.locked
  have hle := Bool.toNat_le s.locked
  cases p with
  | idle =>
    cases answer with
    | accrueSeasonPoints award =>
      cases hstep
      cases hbase : Bot.baseAmount award with
      | none => exact h.move rfl trivial
      | some baseAmount => exact h.move rfl (le_refl (day s.now))
    | accrueSeasonPointsRaw award =>
      cases hstep
      exact h.move rfl trivial
    | _ => cases hstep
  | botSeason c =>
    cases answer with
    | ok =>
      cases hstep
      cases hactive : s.active with
      | true => exact h.move rfl hknows
      | false => exact h.move rfl trivial
    | raises =>
      cases hstep
      exact h.move rfl trivial
    | _ => cases hstep
  | botRow c =>
    cases answer with
    | ok =>
      cases hstep
      cases hrow : s.row with
      | none => exact h.move rfl hknows
      | some row => exact h.move rfl ⟨hknows, nofun⟩
    | raises =>
      cases hstep
      exact h.move rfl trivial
    | _ => cases hstep
  | botInsert c =>
    cases answer with
    | ok =>
      dsimp only [step] at hstep
      split_ifs at hstep with hsome hbusy
      · cases hstep
        exact h.move rfl trivial
      · cases hstep
        refine h.relock true ?_ ⟨hknows, fun _ => ⟨?_, rfl⟩⟩
        · rw [Bool.eq_false_of_not_eq_true hbusy]
          rfl
        · exact Option.not_isSome_iff_eq_none.mp hsome
    | raises =>
      cases hstep
      exact h.move rfl trivial
    | _ => cases hstep
  | botLevel c row inserted =>
    cases answer with
    | level level dailyStreak =>
      dsimp only [step] at hstep
      cases hstep
      split_ifs with hsame
      · rw [hsame.2] at h
        exact h.move rfl trivial
      · exact h.move rfl ⟨hknows.1, hknows.2, SeasonPoints.fits_botCredit row c _⟩
    | raises =>
      cases hstep
      refine h.relock _ ?_ trivial
      cases inserted <;> cases hl : s.locked <;> simp [weight, hl] at hlocked ⊢
    | _ => cases hstep
  | botUpdate c row credit inserted =>
    cases answer with
    | ok =>
      dsimp only [step] at hstep
      split_ifs at hstep with hbusy
      cases hstep
      obtain ⟨htoday, hinserted, hfits⟩ := hknows
      obtain ⟨hread, hday⟩ := of_decide_eq_true hcareful
      refine h.relock true ?_ ⟨htoday, hinserted, hfits, hday, fun hnot => ?_⟩
      · cases inserted with
        | true =>
          have hheld : s.locked.toNat = 1 := by
            simp only [weight, Bool.toNat_true] at hlocked
            omega
          rw [hheld]
          rfl
        | false =>
          have hfree : s.locked = false := Bool.eq_false_of_not_eq_true fun hl => hbusy ⟨rfl, hl⟩
          rw [hfree]
          rfl
      · have hrow := hread.resolve_left (by rw [hnot]; exact Bool.false_ne_true)
        exact ⟨hrow, hday ▸ (h.row row hrow).window⟩
    | raises =>
      cases hstep
      refine h.relock _ ?_ trivial
      cases inserted <;> cases hl : s.locked <;> simp [weight, hl] at hlocked ⊢
    | _ => cases hstep
  | botCommit c row credit inserted written =>
    cases answer with
    | ok =>
      dsimp only [step] at hstep
      cases hstep
      obtain ⟨htoday, hinserted, hfits, rfl, hread⟩ := hknows
      have hrest : rest = 0 := by
        simp only [weight] at hlocked
        omega
      cases inserted with
      | true =>
        obtain ⟨hnone, rfl⟩ := hinserted rfl
        have hnew : (SeasonPoints.new c.today).Recorded s.credits (day s.now) := by
          rw [h.none hnone]
          exact .new htoday
        exact h.award hnew hfits le_rfl htoday hrest
      | false =>
        obtain ⟨hrow, hwindow⟩ := hread rfl
        have hwrite : (s.row.map fun current => current.write row (Bot.award row c credit)) =
            some (Bot.award row c credit) := by
          rw [hrow, Option.map_some, SeasonPoints.write_self]
        rw [if_neg Bool.false_ne_true, hwrite]
        exact h.award (h.row row hrow) hfits hwindow htoday hrest
    | raises =>
      cases hstep
      refine h.relock false ?_ trivial
      simp only [weight, Bool.toNat_false] at hlocked ⊢
      omega
    | _ => cases hstep
  | apiSeason award =>
    cases answer with
    | ok =>
      cases hstep
      cases hactive : s.active with
      | true =>
        cases hbase : Api.effectiveBase award with
        | none => exact h.move rfl trivial
        | some effectiveBase => exact h.move rfl (le_refl (day s.now))
      | false => exact h.move rfl trivial
    | raises =>
      cases hstep
      exact h.move rfl trivial
    | _ => cases hstep
  | apiInsert c =>
    cases answer with
    | ok =>
      dsimp only [step] at hstep
      split_ifs at hstep with hsome hbusy
      · cases hstep
        exact h.move rfl hknows
      · cases hstep
        have hnone := Option.not_isSome_iff_eq_none.mp hsome
        have hfree := Bool.eq_false_of_not_eq_true hbusy
        have hcredits := h.none hnone
        refine ⟨⟨hlocked, fun row hrow => ?_, nofun, h.daily⟩, hknows, fun hpos => ?_, le_rfl⟩
        · obtain rfl := Option.some.inj hrow
          rw [hcredits]
          exact .new hknows
        · rw [hfree, Bool.toNat_false] at hlocked
          omega
    | raises =>
      cases hstep
      exact h.move rfl trivial
    | _ => cases hstep
  | apiRow c =>
    cases answer with
    | ok =>
      cases hstep
      cases hrow : s.row with
      | none => exact h.move rfl trivial
      | some row => exact h.move rfl hknows
    | raises =>
      cases hstep
      exact h.move rfl trivial
    | _ => cases hstep
  | apiLevel c row =>
    cases answer with
    | level level dailyStreak =>
      dsimp only [step] at hstep
      cases hstep
      split_ifs with hnothing
      · exact h.move rfl trivial
      · have hfits := row.fits_credit c (Api.combinedMultiplier level dailyStreak)
        rw [max_eq_right (not_le.mp hnothing).le] at hfits
        exact h.move rfl ⟨hknows, hfits⟩
    | raises =>
      cases hstep
      exact h.move rfl trivial
    | _ => cases hstep
  | apiUpdate c row credit =>
    cases answer with
    | ok =>
      dsimp only [step] at hstep
      split_ifs at hstep with hbusy
      cases hstep
      obtain ⟨hrow, hday⟩ := of_decide_eq_true hcareful
      have hfree := Bool.eq_false_of_not_eq_true hbusy
      have hrest : rest = 0 := by
        rw [hfree, Bool.toNat_false] at hlocked
        omega
      have hwrite : (s.row.map fun current => Api.increment current row c credit) =
          some (Bot.award row c credit) := by
        rw [hrow, Bot.award_eq]
        rfl
      have hkept :=
        h.award (h.row row hrow) hknows.2 (hday ▸ (h.row row hrow).window) hknows.1 hrest
      rw [hwrite, hday]
      refine ⟨⟨?_, hkept.sound.row, hkept.sound.none, hkept.sound.daily⟩, trivial, ?_⟩
      · rw [hrest, hfree]
        rfl
      · exact ⟨fun hpos => by omega, le_rfl⟩
    | raises =>
      cases hstep
      exact h.move rfl trivial
    | _ => cases hstep

/-! ### Runs -/

lemma environment_sound {event : Event} (h : Sound s total)
    (hevent : environment s event = .ok s') :
    Sound s' total ∧ Frame s s' total := by
  cases event with
  | elapse duration =>
    cases hevent
    have hnow : s.now ≤ s.now + duration := Nat.le_add_right _ _
    refine ⟨⟨h.locked, fun row hrow => ?_, h.none, h.daily⟩, fun _ => rfl, hnow⟩
    have hrecorded := h.row row hrow
    exact { hrecorded with window := hrecorded.window.trans (day_mono hnow) }
  | setActive active =>
    cases hevent
    exact ⟨⟨h.locked, h.row, h.none, h.daily⟩, fun _ => rfl, le_rfl⟩

theorem inductive_sound : program.Inductive weight Sound Knows
    (fun s _ p answer => Careful s p answer = true) fun _ _ _ => True where
  step h hknows hcareful hstep :=
    let hkept := step_kept h hknows hcareful hstep
    ⟨hkept.sound, hkept.knows⟩
  stable h hknows hcareful hstep hq hknows' :=
    (step_kept h hknows hcareful hstep).frame.knows hq hknows'
  environment h _ hevent :=
    ⟨(environment_sound h hevent).1, fun _ hq => (environment_sound h hevent).2.knows hq⟩

lemma initial_sound (n : ℕ) (now : Time) :
    Program.Invariant weight Sound Knows (initial n now) where
  shared := by
    have htotal : (initial n now).total weight = 0 := Finset.sum_eq_zero fun _ _ => rfl
    rw [htotal]
    exact ⟨rfl, nofun, fun _ => rfl, fun _ => by
      norm_num [creditedOn, sumOf, initial, Bot.DAILY_SEASON_POINT_CAP]⟩
  knows _ := trivial

lemma Sound.capsHold (h : Sound s total) : CapsHold s where
  daily := h.daily
  referral := by
    cases hrow : s.row with
    | none =>
      rw [h.none hrow]
      norm_num [referralCredits, sumOf, Bot.REFERRAL_SEASON_POINT_CAP]
    | some row =>
      have hrecorded := h.row row hrow
      rw [← hrecorded.referralPoints]
      exact hrecorded.referral
  stored := by
    cases hrow : s.row with
    | none =>
      rw [h.none hrow]
      rfl
    | some row => exact (h.row row hrow).points

/-- Along a run in which the row is written as it was read, on the day on which the call began. -/
theorem capsHold_of_careful (n : ℕ) (now : Time) (as : List (Program.Action n Answer Event))
    (hcareful : (program.machine n).Along
      (Program.Meets weight (fun s _ p answer => Careful s p answer = true) fun _ _ _ => True)
      (initial n now) as) :
    CapsHold ((program.machine n).run (initial n now) as).shared :=
  (inductive_sound.run as (initial_sound n now) hcareful).shared.capsHold

/-- A milestone of 4000 points, up to the last read of the API. -/
def apiRead {n : ℕ} (i : Fin n) : List (Program.Action n Answer Event) :=
  List.map (.take i) [.accrueSeasonPointsRaw ⟨.milestone, 4000, none, none⟩, .ok, .ok, .ok,
    .level (some .bronze) 0]

/-- The same by the bot. -/
def botRead {n : ℕ} (i : Fin n) : List (Program.Action n Answer Event) :=
  List.map (.take i) [.accrueSeasonPoints ⟨.milestone, 4000, none, none⟩, .ok, .ok,
    .level (some .bronze) 0]

theorem two_milestones_capsHold : CapsHold ((program.machine 2).run (initial 2 0)
    (apiRead 0 ++ [.take 0 .ok] ++ botRead 1 ++ [.take 1 .ok, .take 1 .ok])).shared :=
  capsHold_of_careful 2 0 _ (by decide +kernel)

/-- Two calls of the API that have read the same row credit 8000 points on one day. -/
theorem cap_exceeded : ¬ ∀ (n : ℕ) (now : Time) (as : List (Program.Action n Answer Event)),
    CapsHold ((program.machine n).run (initial n now) as).shared := by
  intro h
  have hdaily := (h 2 0 (apiRead 0 ++ apiRead 1 ++ [.take 0 .ok, .take 1 .ok])).daily 0
  revert hdaily
  decide +kernel

end Suwappu.SeasonsService
