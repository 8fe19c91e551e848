import Suwappu.LlmBudget.Bucket

/-!
# The rate of a bucket

As long as a key expires only when its bucket has refilled, expiry gives nothing away, and what is
granted in an interval is bounded by the capacity and what refills. `rate_iff`: the calls that leave
a deeper debt than refills before the key expires are those that break this.
-/

namespace Suwappu.LlmBudget

open Machine

variable {limit : Limit} {stored : Option Bucket} {b : Bucket} {now clock : ℤ}

/-! ### Refilling -/

section Refill

variable (hcapacity : 0 < limit.capacity)
include hcapacity

lemma rate_nonneg : (0 : ℚ) ≤ limit.capacity / limit.window :=
  div_nonneg (Int.cast_nonneg hcapacity.le) (Nat.cast_nonneg _)

lemma refill_nonneg (elapsed : ℤ) : 0 ≤ limit.refill elapsed := by
  have h : (0 : ℚ) ≤ (max 0 elapsed : ℤ) := Int.cast_nonneg (le_max_left 0 elapsed)
  exact mul_nonneg (div_nonneg h (by norm_num)) (rate_nonneg hcapacity)

lemma refill_mono {elapsed elapsed' : ℤ} (h : elapsed ≤ elapsed') :
    limit.refill elapsed ≤ limit.refill elapsed' := by
  have hmax : ((max 0 elapsed : ℤ) : ℚ) ≤ (max 0 elapsed' : ℤ) :=
    Int.cast_le.mpr (max_le_max_left 0 h)
  exact mul_le_mul_of_nonneg_right (div_le_div_of_nonneg_right hmax (by norm_num))
    (rate_nonneg hcapacity)

omit hcapacity in
lemma refill_add {elapsed elapsed' : ℤ} (h : 0 ≤ elapsed) (h' : 0 ≤ elapsed') :
    limit.refill (elapsed + elapsed') = limit.refill elapsed + limit.refill elapsed' := by
  unfold Limit.refill
  rw [max_eq_right h, max_eq_right h', max_eq_right (add_nonneg h h'), Int.cast_add]
  ring

omit hcapacity in
lemma refill_max (elapsed : ℤ) : limit.refill (max 0 elapsed) = limit.refill elapsed := by
  rw [Limit.refill, max_eq_right (le_max_left 0 elapsed), Limit.refill]

omit hcapacity in
@[simp] lemma refill_zero : limit.refill 0 = 0 := by simp [Limit.refill]

omit hcapacity in
lemma refill_windows (hwindow : 0 < limit.window) :
    limit.refill (1000 * (2 * limit.window)) = 2 * limit.capacity := by
  have hne : (limit.window : ℚ) ≠ 0 := Nat.cast_ne_zero.mpr hwindow.ne'
  unfold Limit.refill
  rw [max_eq_right (by positivity)]
  push_cast
  field_simp

/-- Two windows refill the capacity, and one more millisecond some of it. -/
lemma capacity_le_refill (hwindow : 0 < limit.window) :
    (limit.capacity : ℚ) ≤ limit.refill (1000 * (2 * limit.window) + 1) := by
  have hcap : (0 : ℚ) < limit.capacity := Int.cast_pos.mpr hcapacity
  have hmono : limit.refill (1000 * (2 * limit.window)) ≤
      limit.refill (1000 * (2 * limit.window) + 1) :=
    refill_mono hcapacity (le_add_of_nonneg_right zero_le_one)
  rw [refill_windows hwindow] at hmono
  linarith

end Refill

/-! ### What a call finds -/

/-- The tokens that refilling alone makes of what is stored, whether it has expired or not. -/
def continuous (limit : Limit) (now : ℤ) (stored : Option Bucket) : ℚ :=
  match stored with
  | none   => limit.capacity
  | some b => min (b.tokens + limit.refill (now - b.ts)) limit.capacity

lemma live_eq_some_iff : live stored now = some b ↔ stored = some b ∧ now ≤ b.expiresAt := by
  unfold live
  rw [Option.filter_eq_some_iff]
  exact and_congr_right fun _ => decide_eq_true_iff

lemma level_of_live (h : live stored now = some b) :
    level limit now stored = min (b.tokens + limit.refill (now - b.ts)) limit.capacity := by
  unfold level opened
  rw [h]

lemma level_of_expired (h : live stored now = none) :
    level limit now stored = limit.capacity := by
  unfold level opened
  rw [h]
  simp

lemma level_le : level limit now stored ≤ limit.capacity := min_le_right _ _

lemma continuous_le_level : continuous limit now stored ≤ level limit now stored := by
  cases hlive : live stored now with
  | none =>
    rw [level_of_expired hlive]
    unfold continuous
    split
    · exact le_rfl
    · exact min_le_right _ _
  | some b =>
    obtain ⟨rfl, -⟩ := live_eq_some_iff.mp hlive
    exact (level_of_live hlive).ge

/-- From some time on, no call finds more than refilling makes of what is stored. -/
def NeverMore (limit : Limit) (stored : Option Bucket) (clock : ℤ) : Prop :=
  ∀ now, clock ≤ now → level limit now stored ≤ continuous limit now stored

lemma NeverMore.later (h : NeverMore limit stored clock) (hnow : clock ≤ now) :
    NeverMore limit stored now :=
  fun later hlater => h later (hnow.trans hlater)

lemma neverMore_none : NeverMore limit none clock := fun _ _ => level_le

/-- The bucket is full when its key is gone, one millisecond after its expiry. -/
lemma neverMore_some_iff (hcapacity : 0 < limit.capacity) (hclock : clock ≤ b.expiresAt) :
    NeverMore limit (some b) clock ↔
      (limit.capacity : ℚ) ≤ b.tokens + limit.refill (b.expiresAt + 1 - b.ts) := by
  constructor
  · intro h
    have hexpired : live (some b) (b.expiresAt + 1) = none := by simp [live]
    have hle := h (b.expiresAt + 1) (hclock.trans (Int.le.intro 1 rfl))
    rw [level_of_expired hexpired] at hle
    exact hle.trans (min_le_left _ _)
  · intro h now _
    cases hlive : live (some b) now with
    | some b' =>
      obtain ⟨⟨⟩, -⟩ := live_eq_some_iff.mp hlive
      exact (level_of_live hlive).le
    | none =>
      have hexpired : b.expiresAt + 1 ≤ now :=
        Int.add_one_le_of_lt (not_le.mp fun hle =>
          nomatch hlive.symm.trans (live_eq_some_iff.mpr ⟨rfl, hle⟩))
      rw [level_of_expired hlive]
      refine le_min (h.trans ?_) le_rfl
      exact add_le_add_right (refill_mono hcapacity (sub_le_sub_right hexpired _)) _

/-- Waiting gains no more than it refills. -/
lemma level_wait (hcapacity : 0 < limit.capacity) (h : NeverMore limit stored clock)
    (hnow : clock ≤ now) :
    level limit now stored ≤ level limit clock stored + limit.refill (now - clock) := by
  refine (h now hnow).trans (le_trans ?_ (add_le_add_left continuous_le_level _))
  have hrefill := refill_nonneg hcapacity (now - clock)
  unfold continuous
  cases stored with
  | none => exact le_add_of_nonneg_right hrefill
  | some b =>
    have hsplit : limit.refill (now - b.ts) ≤
        limit.refill (clock - b.ts) + limit.refill (now - clock) := by
      rw [← refill_max (clock - b.ts), ← refill_add (le_max_left _ _) (sub_nonneg.mpr hnow)]
      exact refill_mono hcapacity (by omega)
    dsimp only
    rw [← min_add_add_right]
    refine min_le_min ?_ (le_add_of_nonneg_right hrefill)
    linarith

/-! ### Debts -/

/-- What the call leaves refills to the capacity by the first millisecond without the key. -/
def Careful (limit : Limit) (s : State) (call : Call) : Prop :=
  let now := s.clock + call.wait
  match call.operation with
  | .tryConsume _        =>
    (limit.capacity : ℚ) ≤ level limit now s.stored + limit.refill (1000 * (2 * limit.window) + 1)
  | .forceConsume amount => 0 < amount →
    (limit.capacity + amount : ℚ) ≤ (opened limit now s.stored).1 +
      limit.refill (now + 1000 * 172800 + 1 - (opened limit now s.stored).2)
  | .refund amount       => ∀ b ∈ live s.stored now,
    (limit.capacity : ℚ) ≤ b.tokens + amount + limit.refill (b.expiresAt + 1 - b.ts)

instance decidableCareful (limit : Limit) (s : State) :
    (call : Call) → Decidable (Careful limit s call)
  | ⟨_, .tryConsume _⟩   => inferInstanceAs (Decidable (_ ≤ _))
  | ⟨_, .forceConsume _⟩ => inferInstanceAs (Decidable (_ → _ ≤ _))
  | ⟨wait, .refund _⟩    =>
    inferInstanceAs (Decidable (∀ b ∈ live s.stored (s.clock + wait), _ ≤ _))

/-- The tokens stay within the capacity, and nothing has happened later than now. -/
structure Sound (limit : Limit) (s : State) : Prop where
  tokens_le : ∀ b ∈ s.stored, b.tokens ≤ limit.capacity
  time_le : ∀ e ∈ s.log, e.time ≤ s.clock

variable (limit) in
lemma clock_le_step (s : State) (call : Call) : s.clock ≤ (step limit s call).clock := by
  have hclock : (step limit s call).clock = s.clock + call.wait := by
    unfold step
    cases call.operation <;> rfl
  rw [hclock]
  exact le_add_of_nonneg_right (Int.natCast_nonneg _)

section Operations

variable (hcapacity : 0 < limit.capacity)
include hcapacity

/-- A consuming call takes its cost off the level if that covers it. -/
lemma tryConsume_cases (amount : ℤ) : ∃ tokens : ℚ,
    (tryConsume limit amount now stored).2 =
      some ⟨tokens, now, now + 1000 * (2 * limit.window)⟩ ∧
    ((tryConsume limit amount now stored).1.1 = true ∧
        tokens = level limit now stored - (max 0 amount : ℤ) ∧ 0 ≤ tokens ∨
      (tryConsume limit amount now stored).1.1 = false ∧ tokens = level limit now stored) := by
  unfold tryConsume consumeScript
  rw [if_neg (not_le.mpr hcapacity)]
  dsimp only
  refine ⟨_, rfl, ?_⟩
  by_cases hallowed : ((max 0 amount : ℤ) : ℚ) ≤ level limit now stored
  · rw [decide_eq_true hallowed, if_pos rfl]
    exact .inl ⟨rfl, rfl, sub_nonneg.mpr hallowed⟩
  · rw [decide_eq_false hallowed]
    exact .inr ⟨rfl, rfl⟩

lemma forceConsume_of_pos {amount : ℤ} (h : 0 < amount) :
    forceConsume limit amount now stored =
      some ⟨(opened limit now stored).1 - amount, (opened limit now stored).2,
        now + 1000 * 172800⟩ :=
  if_neg (not_or.mpr ⟨not_le.mpr h, not_le.mpr hcapacity⟩)

omit hcapacity in
lemma forceConsume_of_nonpos {amount : ℤ} (h : ¬ 0 < amount) :
    forceConsume limit amount now stored = stored :=
  if_pos (.inl (not_lt.mp h))

/-- A refund changes the tokens of a bucket that has not expired. -/
lemma refund_cases (hstored : ∀ b ∈ stored, b.tokens ≤ limit.capacity) (amount : ℤ) :
    live stored now = none ∧ refund limit amount now stored = stored ∨
    ∃ b, live stored now = some b ∧ refund limit amount now stored =
      some { b with tokens := min (b.tokens + amount) limit.capacity } := by
  cases hlive : live stored now with
  | none =>
    refine .inl ⟨rfl, ?_⟩
    unfold refund refundScript
    rw [hlive]
    exact ite_self _
  | some b =>
    refine .inr ⟨b, rfl, ?_⟩
    obtain ⟨rfl, -⟩ := live_eq_some_iff.mp hlive
    unfold refund refundScript
    rw [hlive]
    split_ifs with hnone
    · obtain rfl := hnone.resolve_right (not_le.mpr hcapacity)
      rw [Int.cast_zero, add_zero, min_eq_left (hstored b rfl)]
    · rfl

omit hcapacity in
lemma level_some (h : now ≤ b.expiresAt) :
    level limit now (some b) = min (b.tokens + limit.refill (now - b.ts)) limit.capacity :=
  level_of_live (live_eq_some_iff.mpr ⟨rfl, h⟩)

omit hcapacity in
lemma opened_le (hstored : ∀ b ∈ stored, b.tokens ≤ limit.capacity) :
    (opened limit now stored).1 ≤ limit.capacity := by
  unfold opened
  cases hlive : live stored now with
  | none   => exact le_rfl
  | some b => exact hstored b (live_eq_some_iff.mp hlive).1

lemma tokens_le_step {s : State} (h : Sound limit s) (call : Call) :
    ∀ b ∈ (step limit s call).stored, b.tokens ≤ limit.capacity := by
  obtain ⟨wait, operation⟩ := call
  cases operation with
  | tryConsume cost =>
    obtain ⟨tokens, hstored, hcases⟩ :=
      tryConsume_cases hcapacity cost
    have hcost : (0 : ℚ) ≤ (max 0 cost : ℤ) := Int.cast_nonneg (le_max_left 0 cost)
    have hlevel : level limit (s.clock + wait) s.stored ≤ limit.capacity := level_le
    rintro b hb
    obtain rfl := Option.some.inj (hstored.symm.trans hb)
    rcases hcases with ⟨-, rfl, -⟩ | ⟨-, rfl⟩
    · exact (sub_le_self _ hcost).trans hlevel
    · exact hlevel
  | forceConsume amount =>
    by_cases hpos : 0 < amount
    · rintro b hb
      obtain rfl := Option.some.inj ((forceConsume_of_pos hcapacity hpos).symm.trans hb)
      exact (sub_le_self _ (Int.cast_nonneg hpos.le)).trans (opened_le h.tokens_le)
    · intro b hb
      exact h.tokens_le b ((forceConsume_of_nonpos hpos).symm.trans hb)
  | refund amount =>
    rintro b hb
    rcases refund_cases hcapacity h.tokens_le amount with
      ⟨-, heq⟩ | ⟨b', -, heq⟩
    · exact h.tokens_le b (heq.symm.trans hb)
    · obtain rfl := Option.some.inj (heq.symm.trans hb)
      exact min_le_right _ _

/-- What a call is granted comes out of the level, and what it gives back goes into it. -/
lemma exists_entry (hwindow : 0 < limit.window) {s : State} (h : Sound limit s) (call : Call) :
    ∃ e, (step limit s call).log = s.log ++ [e] ∧ e.time = (step limit s call).clock ∧
      (e.granted - e.refunded : ℚ) + max 0 (level limit e.time (step limit s call).stored) ≤
        max 0 (level limit e.time s.stored) := by
  obtain ⟨wait, operation⟩ := call
  cases operation with
  | tryConsume cost =>
    obtain ⟨tokens, hstored, hcases⟩ :=
      tryConsume_cases hcapacity cost
    refine ⟨⟨s.clock + wait, if (tryConsume limit cost (s.clock + wait) s.stored).1.1 = true
      then max 0 cost else 0, 0, 0⟩, rfl, rfl, ?_⟩
    dsimp only
    rw [show (step limit s ⟨wait, .tryConsume cost⟩).stored = _ from hstored,
      level_some (by dsimp only; omega), sub_self, refill_zero, add_zero]
    rcases hcases with ⟨hallowed, rfl, hnonneg⟩ | ⟨hallowed, rfl⟩
    · rw [if_pos hallowed, Int.cast_zero, sub_zero]
      have hle := max_le_max_left 0 (min_le_left (level limit (s.clock + wait) s.stored -
        (max 0 cost : ℤ)) limit.capacity)
      rw [max_eq_right hnonneg] at hle
      have hlevel := le_max_right 0 (level limit (s.clock + wait) s.stored)
      linarith
    · rw [if_neg (by rw [hallowed]; exact Bool.false_ne_true), Int.cast_zero, sub_zero, zero_add]
      exact max_le_max_left 0 (min_le_left _ _)
  | forceConsume amount =>
    refine ⟨⟨s.clock + wait, 0, max 0 amount, 0⟩, rfl, rfl, ?_⟩
    dsimp only [step]
    rw [Int.cast_zero, sub_zero, zero_add]
    refine max_le_max_left 0 ?_
    by_cases hpos : 0 < amount
    · have hamount : (0 : ℚ) ≤ amount := Int.cast_nonneg hpos.le
      rw [forceConsume_of_pos hcapacity hpos, level_some (by dsimp only; omega)]
      refine min_le_min_right _ (add_le_add_left (sub_le_self _ hamount) _)
    · rw [forceConsume_of_nonpos hpos]
  | refund amount =>
    refine ⟨⟨s.clock + wait, 0, max 0 (-amount), max 0 amount⟩, rfl, rfl, ?_⟩
    have hrefunded : (0 : ℚ) ≤ (max 0 amount : ℤ) := Int.cast_nonneg (le_max_left 0 amount)
    have hamount : (amount : ℚ) ≤ (max 0 amount : ℤ) := Int.cast_le.mpr (le_max_right 0 amount)
    dsimp only [step]
    rw [Int.cast_zero, zero_sub, neg_add_le_iff_le_add]
    rcases refund_cases hcapacity h.tokens_le amount with
      ⟨-, heq⟩ | ⟨b, hlive, heq⟩
    · rw [heq]
      exact le_add_of_nonneg_left hrefunded
    · have hexpires : s.clock + wait ≤ b.expiresAt := (live_eq_some_iff.mp hlive).2
      have hlevel : level limit (s.clock + wait)
          (some { b with tokens := min (b.tokens + amount) limit.capacity }) =
          min (min (b.tokens + amount) limit.capacity + limit.refill (s.clock + wait - b.ts))
            limit.capacity := level_some hexpires
      rw [heq, level_of_live hlive, hlevel]
      refine max_le (add_nonneg hrefunded (le_max_left _ _)) ?_
      refine le_trans ?_ (add_le_add_right (le_max_right _ _) _)
      rw [← min_add_add_left]
      refine le_min ((min_le_left _ _).trans ?_)
        ((min_le_right _ _).trans (le_add_of_nonneg_left hrefunded))
      have hmin := min_le_left (b.tokens + amount) (limit.capacity : ℚ)
      linarith

lemma sound_step (hwindow : 0 < limit.window) {s : State} (h : Sound limit s) (call : Call) :
    Sound limit (step limit s call) := by
  obtain ⟨e, hlog, htime, -⟩ := exists_entry hcapacity hwindow h call
  refine ⟨tokens_le_step hcapacity h call, fun e' he' => ?_⟩
  rw [hlog] at he'
  rcases List.mem_append.mp he' with hold | hnew
  · exact (h.time_le e' hold).trans (clock_le_step limit s call)
  · exact (List.mem_singleton.mp hnew ▸ htime).le

/-- A call is careful if and only if no later call finds more than refilling makes of what it
leaves. -/
lemma careful_iff (hwindow : 0 < limit.window) {s : State} (h : Sound limit s)
    (hnever : NeverMore limit s.stored s.clock) (call : Call) :
    Careful limit s call ↔
      NeverMore limit (step limit s call).stored (step limit s call).clock := by
  have hlater := hnever.later (clock_le_step limit s call)
  obtain ⟨wait, operation⟩ := call
  cases operation with
  | tryConsume cost =>
    obtain ⟨tokens, hstored, hcases⟩ :=
      tryConsume_cases hcapacity cost
    rw [show (step limit s ⟨wait, .tryConsume cost⟩).stored = _ from hstored,
      neverMore_some_iff hcapacity (by dsimp only [step]; omega)]
    dsimp only [Careful]
    rw [add_assoc, add_sub_cancel_left]
    have hrefill := capacity_le_refill hcapacity hwindow
    rcases hcases with ⟨-, rfl, hnonneg⟩ | ⟨-, rfl⟩
    · have hcost : (0 : ℚ) ≤ (max 0 cost : ℤ) := Int.cast_nonneg (le_max_left 0 cost)
      exact iff_of_true (by linarith) (by linarith)
    · exact Iff.rfl
  | forceConsume amount =>
    dsimp only [Careful]
    by_cases hpos : 0 < amount
    · rw [show (step limit s ⟨wait, .forceConsume amount⟩).stored = _ from
        forceConsume_of_pos hcapacity hpos,
        neverMore_some_iff hcapacity (by dsimp only [step]; omega)]
      dsimp only
      constructor
      · intro hle
        have := hle hpos
        linarith
      · intro hle _
        linarith
    · rw [show (step limit s ⟨wait, .forceConsume amount⟩).stored = _ from
        forceConsume_of_nonpos hpos]
      exact iff_of_true (fun hlt => absurd hlt hpos) hlater
  | refund amount =>
    dsimp only [Careful]
    rcases refund_cases hcapacity h.tokens_le amount with
      ⟨hlive, heq⟩ | ⟨b, hlive, heq⟩
    · rw [show (step limit s ⟨wait, .refund amount⟩).stored = _ from heq, hlive]
      exact iff_of_true (fun b hb => nomatch hb) hlater
    · have hexpires : s.clock + wait ≤ b.expiresAt := (live_eq_some_iff.mp hlive).2
      rw [show (step limit s ⟨wait, .refund amount⟩).stored = _ from heq, hlive]
      refine Iff.trans ?_ (neverMore_some_iff hcapacity
        (b := { b with tokens := min (b.tokens + amount) limit.capacity }) hexpires).symm
      simp only [Option.mem_some_iff, forall_eq']
      rw [← min_add_add_right, le_min_iff]
      have hrefill := refill_nonneg hcapacity (b.expiresAt + 1 - b.ts)
      exact (and_iff_left (le_add_of_nonneg_right hrefill)).symm

end Operations

/-! ### Intervals -/

/-- What the calls in an interval add up to. -/
def total (amount : Entry → ℤ) (since upTo : ℤ) (log : List Entry) : ℤ :=
  ((log.filter fun e => since ≤ e.time ∧ e.time ≤ upTo).map amount).sum

/-- What is granted and not given back in an interval, with what the bucket holds after it. -/
structure Backed (limit : Limit) (s : State) : Prop where
  neverMore : NeverMore limit s.stored s.clock
  held : ∀ since ≤ s.clock,
    (total Entry.granted since s.clock s.log - total Entry.refunded since s.clock s.log : ℚ) +
      max 0 (level limit s.clock s.stored) ≤ limit.capacity + limit.refill (s.clock - since)
  rate : ∀ since upTo, since ≤ upTo →
    (total Entry.granted since upTo s.log - total Entry.refunded since upTo s.log : ℚ) ≤
      limit.capacity + limit.refill (upTo - since)

lemma total_concat (amount : Entry → ℤ) (since upTo : ℤ) (log : List Entry) (e : Entry) :
    total amount since upTo (log ++ [e]) = total amount since upTo log +
      if since ≤ e.time ∧ e.time ≤ upTo then amount e else 0 := by
  unfold total
  rw [List.filter_append, List.map_append, List.sum_append]
  by_cases h : since ≤ e.time ∧ e.time ≤ upTo <;> simp [h]

/-- Nothing has happened after the last call. -/
lemma total_later {s : State} (h : Sound limit s) (amount : Entry → ℤ) {since upTo : ℤ}
    (hupTo : s.clock ≤ upTo) :
    total amount since upTo s.log = total amount since s.clock s.log := by
  unfold total
  rw [List.filter_congr fun e he => ?_]
  have htime := h.time_le e he
  exact decide_eq_decide.mpr (and_congr_right fun _ => iff_of_true (by omega) htime)

lemma total_of_lt {s : State} (h : Sound limit s) (amount : Entry → ℤ) {since upTo : ℤ}
    (hsince : s.clock < since) : total amount since upTo s.log = 0 := by
  unfold total
  rw [List.filter_eq_nil_iff.mpr, List.map_nil, List.sum_nil]
  intro e he
  have htime := h.time_le e he
  simp only [decide_eq_true_eq, not_and]
  omega

section Intervals

variable (hcapacity : 0 < limit.capacity)
include hcapacity

lemma Backed.wait {s : State} (h : Backed limit s) (hsound : Sound limit s) (hnow : s.clock ≤ now)
    (since : ℤ) :
    (total Entry.granted since now s.log - total Entry.refunded since now s.log : ℚ) +
      max 0 (level limit now s.stored) ≤ limit.capacity + limit.refill (now - since) := by
  rcases le_or_gt since s.clock with hold | hnew
  · have hheld := h.held since hold
    have hlevel := level_wait hcapacity h.neverMore hnow
    have hsplit : limit.refill (now - since) =
        limit.refill (s.clock - since) + limit.refill (now - s.clock) := by
      rw [← refill_add (sub_nonneg.mpr hold) (sub_nonneg.mpr hnow)]
      exact congrArg _ (by omega)
    have hmax : max 0 (level limit now s.stored) ≤
        max 0 (level limit s.clock s.stored) + limit.refill (now - s.clock) :=
      max_le (add_nonneg (le_max_left _ _) (refill_nonneg hcapacity _))
        (hlevel.trans (add_le_add_left (le_max_right _ _) _))
    rw [total_later hsound _ hnow, total_later hsound _ hnow]
    linarith
  · have hcap : (0 : ℚ) ≤ limit.capacity := Int.cast_nonneg hcapacity.le
    rw [total_of_lt hsound _ hnew, total_of_lt hsound _ hnew, Int.cast_zero, sub_zero, zero_add]
    exact (max_le hcap level_le).trans (le_add_of_nonneg_right (refill_nonneg hcapacity _))

lemma Backed.kept (hwindow : 0 < limit.window) {s : State} (h : Backed limit s)
    (hsound : Sound limit s) {call : Call} (hcareful : Careful limit s call) :
    Backed limit (step limit s call) := by
  have hclock := clock_le_step limit s call
  have hsound' := sound_step hcapacity hwindow hsound call
  obtain ⟨e, hlog, htime, hentry⟩ := exists_entry hcapacity hwindow hsound call
  have hheld : ∀ since ≤ e.time,
      (total Entry.granted since e.time (step limit s call).log -
          total Entry.refunded since e.time (step limit s call).log : ℚ) +
        max 0 (level limit e.time (step limit s call).stored) ≤
        limit.capacity + limit.refill (e.time - since) := by
    intro since hsince
    have hwait := h.wait hcapacity hsound (htime ▸ hclock) since
    rw [hlog, total_concat, total_concat, if_pos ⟨hsince, le_rfl⟩, if_pos ⟨hsince, le_rfl⟩]
    push_cast
    linarith
  refine ⟨(careful_iff hcapacity hwindow hsound h.neverMore call).mp hcareful, ?_, ?_⟩
  · rw [← htime]
    exact hheld
  · intro since upTo hle
    rcases lt_or_ge upTo e.time with hbefore | hafter
    · -- the call lies behind the interval
      rw [hlog, total_concat, total_concat, if_neg (fun hin => by omega),
        if_neg (fun hin => by omega), add_zero, add_zero]
      exact h.rate since upTo hle
    · have hclock' : (step limit s call).clock ≤ upTo := htime.symm.trans_le hafter
      rw [total_later hsound' _ hclock', total_later hsound' _ hclock', ← htime]
      rcases le_or_gt since e.time with hsince | hsince
      · have hmono : limit.refill (e.time - since) ≤ limit.refill (upTo - since) :=
          refill_mono hcapacity (by omega)
        have hmax := le_max_left 0 (level limit e.time (step limit s call).stored)
        have := hheld since hsince
        linarith
      · have hcap : (0 : ℚ) ≤ limit.capacity := Int.cast_nonneg hcapacity.le
        have hrefill := refill_nonneg hcapacity (upTo - since)
        rw [total_of_lt hsound' _ (htime ▸ hsince), total_of_lt hsound' _ (htime ▸ hsince),
          Int.cast_zero, sub_zero]
        exact add_nonneg hcap hrefill

end Intervals

/-! ### Runs -/

/-- The bucket holds no more than its capacity, no later call finds more than refilling makes of it,
and what an interval was granted is bounded. -/
structure Bounded (limit : Limit) (s : State) : Prop where
  tokens_le : ∀ b ∈ s.stored, b.tokens ≤ limit.capacity
  neverMore : NeverMore limit s.stored s.clock
  rate : ∀ since upTo, since ≤ upTo →
    (total Entry.granted since upTo s.log + total Entry.forced since upTo s.log -
        total Entry.refunded since upTo s.log : ℚ) ≤
      limit.capacity + (upTo - since : ℤ) / 1000 * limit.capacity / limit.window +
        total Entry.forced since upTo s.log

lemma refill_eq {elapsed : ℤ} (h : 0 ≤ elapsed) :
    limit.refill elapsed = elapsed / 1000 * limit.capacity / limit.window := by
  rw [Limit.refill, max_eq_right h, mul_div_assoc]

lemma Backed.bounded {s : State} (h : Backed limit s) (hsound : Sound limit s) :
    Bounded limit s := by
  refine ⟨hsound.tokens_le, h.neverMore, fun since upTo hle => ?_⟩
  have hrate := h.rate since upTo hle
  rw [refill_eq (sub_nonneg.mpr hle)] at hrate
  linarith

lemma sound_initial (clock : ℤ) : Sound limit (State.initial clock) :=
  ⟨fun _ hb => (nomatch hb), fun _ he => (nomatch he)⟩

lemma backed_initial (hcapacity : 0 < limit.capacity) (clock : ℤ) :
    Backed limit (State.initial clock) := by
  have hcap : (0 : ℚ) ≤ limit.capacity := Int.cast_nonneg hcapacity.le
  refine ⟨neverMore_none, fun since _ => ?_, fun since upTo _ => ?_⟩
  · have hrefill := refill_nonneg hcapacity (clock - since)
    have hlevel : max 0 (level limit clock none) ≤ limit.capacity := max_le hcap level_le
    simp only [State.initial, total, List.filter_nil, List.map_nil, List.sum_nil, Int.cast_zero,
      sub_zero, zero_add]
    linarith
  · have hrefill := refill_nonneg hcapacity (upTo - since)
    simp only [State.initial, total, List.filter_nil, List.map_nil, List.sum_nil, Int.cast_zero,
      sub_zero]
    linarith

/-- The bounds hold in every state of a run if and only if each of its calls is careful. -/
theorem rate_iff (limit : Limit) (hcapacity : 0 < limit.capacity) (hwindow : 0 < limit.window)
    (clock : ℤ) (calls : List Call) :
    (∀ earlier, earlier <+: calls →
      Bounded limit ((machine limit).run (State.initial clock) earlier)) ↔
      (machine limit).Along (Careful limit) (State.initial clock) calls := by
  have hexact := along_iff_forall_initial (M := machine limit) (I := Sound limit)
    (G := fun s => NeverMore limit s.stored s.clock) (C := Careful limit)
    (fun s call hs => sound_step hcapacity hwindow hs call)
    (fun s call hs hnever => careful_iff hcapacity hwindow hs hnever call) calls
    (sound_initial clock) neverMore_none
  refine ⟨fun h => hexact.mpr fun earlier hearlier => (h earlier hearlier).neverMore, fun h => ?_⟩
  intro earlier hearlier
  have hrun : Sound limit ((machine limit).run (State.initial clock) earlier) ∧
      Backed limit ((machine limit).run (State.initial clock) earlier) := by
    refine run_induction_along (I := fun s => Sound limit s ∧ Backed limit s) ?_ earlier
      ⟨sound_initial clock, backed_initial hcapacity clock⟩ (h.of_initial hearlier)
    rintro s call s' ⟨hsound, hbacked⟩ hcareful hstep
    obtain rfl := Except.ok.inj hstep
    exact ⟨sound_step hcapacity hwindow hsound call,
      hbacked.kept hcapacity hwindow hsound hcareful⟩
  exact hrun.2.bounded hrun.1

/-- A limit of ten micro-dollars a day. -/
def daily : Limit := ⟨10, 86400⟩

theorem overrun_bounded : ∃ s, Bounded daily s ∧ s.log.map Entry.granted = [8, 0, 0, 0, 9] := by
  have hall := (rate_iff daily (by decide) (by decide) 0
    [⟨0, .tryConsume 8⟩, ⟨500, .forceConsume 7⟩, ⟨500, .tryConsume 1⟩, ⟨500, .refund 2⟩,
      ⟨172800000, .tryConsume 9⟩]).mpr (by decide +kernel)
  exact ⟨_, hall _ (List.prefix_refl _), by decide +kernel⟩

/-- The key of a bucket in debt for more than a day's refill expires, and the debt with it. -/
theorem debt_expires : ¬ ∀ (limit : Limit) (clock : ℤ) (calls : List Call), 0 < limit.capacity →
    0 < limit.window → ∀ earlier, earlier <+: calls →
      Bounded limit ((machine limit).run (State.initial clock) earlier) := by
  intro hall
  have hbounded := hall daily 0 [⟨0, .forceConsume 40⟩] (by decide) (by decide) _
    (List.prefix_refl _)
  exact absurd (hbounded.neverMore 172801000 (by decide)) (by decide +kernel)

end Suwappu.LlmBudget
