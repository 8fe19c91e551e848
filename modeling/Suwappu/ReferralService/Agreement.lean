import Suwappu.ReferralService.Commissions

/-!
# The ledgers of the referrals agree

`recorded`: in every run, no swap, perp order or milestone is credited twice, the rewards are the
earnings of the swaps, and those of a referee never exceed the cap in thirty days.

`agrees_of_careful`: the totals are the sum of the earnings too, as long as what is written over a
total was computed from it. `earning_lost`: two referees are enough for another run.
-/

namespace Suwappu.ReferralService.Commissions

def Stream.isSwap : Stream → Bool
  | .swap _                  => true
  | .perps _ | .milestone _ => false

def Stream.milestoneCount : Stream → Option ℕ
  | .milestone count  => some count
  | .swap _ | .perps _ => none

/-- The earning that a reward is to go with. -/
def Reward.earning (r : Reward) : Earning := ⟨some r.referral, .swap r.swapId, r.rewardAmountUsd⟩

def Ledger.total (l : Ledger) : ℚ≥0 := (l.earnings.map Earning.amountUsd).sum

/-- The rewards of a referee in thirty days. -/
def Ledger.window (l : Ledger) (referee : RefereeId) (start : Time) : ℚ≥0 :=
  ((l.rewards.filter fun r => r.referral = referee ∧ start ≤ r.createdAt ∧
    r.createdAt ≤ start + thirtyDays).map Reward.rewardAmountUsd).sum

structure Ledger.Recorded (l : Ledger) : Prop where
  once : (l.earnings.map Earning.stream).Nodup
  agree : l.rewards.map Reward.earning = l.earnings.filter fun e => e.stream.isSwap
  cap : ∀ referee start, l.window referee start ≤ MAX_REWARD_PER_REFEREE_PER_30D_USD

structure Agrees {n : ℕ} (c : Program.Config State Proc n) : Prop where
  recorded : c.shared.ledger.Recorded
  totals : (∀ i, c.procs i = .idle) → c.shared.totalReferralRewards = c.shared.ledger.total ∧
    c.shared.code.totalRewardsEarned = c.shared.ledger.total

/-- What is written over a total was computed from it. -/
def Careful (s : State) : Proc → Answer → Bool
  | .session tx (.updateUser :: _) _, .ok =>
    tx.amount = 0 ∨ tx.totalReferralRewards = s.totalReferralRewards
  | .session tx (.updateCode :: _) _, .ok =>
    tx.amount = 0 ∨ tx.code.totalRewardsEarned = s.code.totalRewardsEarned
  | _, _ => true

/-! ### Ledgers -/

section

variable {l l' : Ledger} {k : Key} {r : RefereeId} {start start' : Time}

@[simp] lemma count_empty : Ledger.empty.count k = 0 := by
  cases k <;> rfl

@[simp] lemma count_append : (l.append l').count k = l.count k + l'.count k := by
  cases k <;> simp [Ledger.count, Ledger.append]

lemma append_nil : l.append ⟨[], [], []⟩ = l := by
  simp only [Ledger.append, List.append_nil]

@[simp] lemma total_append : (l.append l').total = l.total + l'.total := by
  simp [Ledger.total, Ledger.append]

@[simp] lemma rewardsSince_append : (l.append l').rewardsSince r start =
    l.rewardsSince r start + l'.rewardsSince r start := by
  simp [Ledger.rewardsSince, Ledger.append]

@[simp] lemma window_append : (l.append l').window r start =
    l.window r start + l'.window r start := by
  simp [Ledger.window, Ledger.append]

lemma window_le_rewardsSince (h : start' ≤ start) : l.window r start ≤ l.rewardsSince r start' := by
  refine List.Sublist.sum_le_sum (List.Sublist.map _ (List.monotone_filter_right _ ?_))
    fun _ _ => zero_le
  intro row hrow
  obtain ⟨hreferral, hstart, -⟩ := of_decide_eq_true hrow
  exact decide_eq_true ⟨hreferral, h.trans hstart⟩

end

/-! ### The invariant -/

/-- What the processes have among them: rows, and keys of rows that are not committed. -/
inductive Share where
  | referral (referee : RefereeId)
  | user
  | code
  | key (key : Key)

def Proc.transaction : Proc → Option Transaction
  | .totalReferredVolume tx | .session tx _ _ => some tx
  | _ => none

/-- The referee whose referral is locked. -/
def Proc.referee : Proc → Option RefereeId
  | .existingReward referee _ _ | .refereeVolume referee _ _ | .selectTier referee _ _ =>
    some referee
  | .existing30dReward referee _ _ _ | .existingPerps referee _ _ _ => some referee
  | .commitVerified referee _ _               => some referee
  | .totalReferredVolume tx | .session tx _ _ => tx.referee
  | _                                         => none

def weight (p : Proc) : Share → ℕ
  | .referral r => if p.referee = some r then 1 else 0
  | .user       => (p.transaction.any fun tx => tx.newTotal.isSome).toNat
  | .code       => (p.transaction.any fun tx => tx.codeLocked).toNat
  | .key k      => p.transaction.elim 0 fun tx => tx.ledger.count k

/-- Rows and keys are held by one process. -/
structure Locks (s : State) (total : Share → ℕ) : Prop where
  referrals : ∀ r, total (.referral r) = s.lockedReferrals.count r
  nodup : s.lockedReferrals.Nodup
  user : total .user = s.userLocked.toNat
  code : total .code = s.codeLocked.toNat
  keys : ∀ k, total (.key k) = s.uncommitted.count k

structure Sound (careful : Bool) (s : State) (total : Share → ℕ) : Prop where
  locks : Locks s total
  unique : ∀ k, s.ledger.count k + s.uncommitted.count k ≤ 1
  milestones : s.ledger.milestones = s.ledger.earnings.filterMap fun e => e.stream.milestoneCount
  agree : s.ledger.rewards.map Reward.earning = s.ledger.earnings.filter fun e => e.stream.isSwap
  cap : ∀ r start, s.ledger.window r start ≤ MAX_REWARD_PER_REFEREE_PER_30D_USD
  totals : careful = true → s.totalReferralRewards = s.ledger.total ∧
    s.code.totalRewardsEarned = s.ledger.total

def Transaction.rewardRows (tx : Transaction) (createdAt : Time) : List Reward :=
  match tx.referee, tx.stream with
  | some referee, .swap id => [⟨referee, id, tx.amount, createdAt⟩]
  | _, _                   => []

/-- What a session has written, and what it has read for the cap: the rewards that it adds to are
those of thirty days before. -/
structure Transaction.Sound (careful : Bool) (tx : Transaction) (s : State)
    (todo : List Statement) : Prop where
  nodup : todo.Nodup
  swap : tx.stream.isSwap = true → tx.referee.isSome = true
  rewards : ∃ since createdAt, since ≤ createdAt ∧ createdAt ≤ s.now ∧
    tx.ledger.rewards = (if .insertReward ∈ todo then [] else tx.rewardRows createdAt) ∧
    ∀ r ∈ tx.referee, tx.stream.isSwap = true →
      s.ledger.rewardsSince r (since - thirtyDays) + tx.amount ≤ MAX_REWARD_PER_REFEREE_PER_30D_USD
  earnings : tx.ledger.earnings = if .insertEarning ∈ todo then [] else [tx.earning]
  milestones : tx.ledger.milestones =
    if .insertMilestone ∈ todo then [] else tx.stream.milestoneCount.toList
  user : .updateUser ∈ todo → tx.newTotal = none
  code : .updateCode ∈ todo → tx.codeLocked = false ∧ tx.newEarned = none
  locked : tx.newEarned.isSome = true → tx.codeLocked = true
  total : careful = true → tx.newTotal.getD s.totalReferralRewards =
    s.totalReferralRewards + if .updateUser ∈ todo then 0 else tx.amount
  earned : careful = true → tx.newEarned.getD s.code.totalRewardsEarned =
    s.code.totalRewardsEarned + if .updateCode ∈ todo then 0 else tx.amount

def Knows (careful : Bool) (s : State) : Proc → Prop
  | .totalReferredVolume tx => tx.Sound careful s swapStatements
  | .session tx todo _      => tx.Sound careful s todo
  | _                       => True

variable {careful : Bool} {s s' : State} {p p' q : Proc} {rest total : Share → ℕ} {tx : Transaction}
  {todo : List Statement} {tasks : List Task} {referee : RefereeId}

/-- What others have locked stays as it is. -/
structure Frame (s s' : State) (rest : Share → ℕ) : Prop where
  now : s.now ≤ s'.now
  rewards : ∀ r, 0 < rest (.referral r) → ∀ start,
    s'.ledger.rewardsSince r start = s.ledger.rewardsSince r start
  user : 0 < rest .user → s'.totalReferralRewards = s.totalReferralRewards
  code : 0 < rest .code → s'.code.totalRewardsEarned = s.code.totalRewardsEarned

/-- A value that is to be written, and stays right while the row is locked, or is none. -/
lemma written_congr {written : Option ℚ≥0} {old new amount : ℚ≥0}
    (h : written.getD old = old + amount) (hsame : written.isSome = true → new = old) :
    written.getD new = new + amount := by
  cases written with
  | none =>
    have hzero : amount = 0 := left_eq_add.mp h
    rw [hzero, add_zero]
    rfl
  | some x =>
    rw [hsame rfl]
    exact h

lemma Transaction.Sound.frame (h : tx.Sound careful s todo) (hnow : s.now ≤ s'.now)
    (hrewards : ∀ r ∈ tx.referee, ∀ start,
      s'.ledger.rewardsSince r start = s.ledger.rewardsSince r start)
    (huser : tx.newTotal.isSome = true → s'.totalReferralRewards = s.totalReferralRewards)
    (hcode : tx.codeLocked = true → s'.code.totalRewardsEarned = s.code.totalRewardsEarned) :
    tx.Sound careful s' todo where
  nodup := h.nodup
  swap := h.swap
  rewards := by
    obtain ⟨since, createdAt, hsince, hcreated, hrows, hcap⟩ := h.rewards
    refine ⟨since, createdAt, hsince, hcreated.trans hnow, hrows, fun r hr hswap => ?_⟩
    rw [hrewards r hr]
    exact hcap r hr hswap
  earnings := h.earnings
  milestones := h.milestones
  user := h.user
  code := h.code
  locked := h.locked
  total hcareful := written_congr (h.total hcareful) huser
  earned hcareful := written_congr (h.earned hcareful) fun hsome => hcode (h.locked hsome)

lemma Frame.knows (h : Frame s s' rest) (hq : weight q ≤ rest) (hknows : Knows careful s q) :
    Knows careful s' q := by
  have htx : ∀ {tx todo}, q.transaction = some tx → q.referee = tx.referee →
      tx.Sound careful s todo → tx.Sound careful s' todo := by
    intro tx todo heq hreferee hsound
    refine hsound.frame h.now (fun r hr => h.rewards r ?_) (fun hsome => h.user ?_)
      fun hlocked => h.code ?_
    · have hle := hq (.referral r)
      rw [weight, if_pos (hreferee.trans hr)] at hle
      exact hle
    · have hle := hq .user
      rw [weight, heq, Option.any_some, hsome] at hle
      exact hle
    · have hle := hq .code
      rw [weight, heq, Option.any_some, hlocked] at hle
      exact hle
  cases q with
  | totalReferredVolume tx => exact htx rfl rfl hknows
  | session tx todo rest => exact htx rfl rfl hknows
  | _ => trivial

/-- What a step keeps. -/
structure Kept (careful : Bool) (s : State) (rest : Share → ℕ) (s' : State) (p' : Proc) : Prop where
  sound : Sound careful s' (weight p' + rest)
  knows : Knows careful s' p'
  frame : Frame s s' rest

/-! ### Locks -/

lemma weight_congr (hreferee : p'.referee = p.referee) (htx : p'.transaction = p.transaction) :
    weight p' = weight p := by
  funext share
  cases share <;> simp only [weight, hreferee, htx]

lemma weight_eq_zero (hreferee : p.referee = none) (htx : p.transaction = none) : weight p = 0 := by
  funext share
  cases share <;> simp [weight, hreferee, htx]

lemma weight_start (tasks : List Task) : weight (.start tasks) = 0 := by
  funext share
  rcases tasks with _ | ⟨_ | _ | _, _⟩ <;> cases share <;> rfl

lemma weight_afterFailure (tx : Transaction) (tasks : List Task) :
    weight (.afterFailure tx tasks) = 0 := by
  rw [Proc.afterFailure]
  split
  · exact weight_start tasks
  · exact weight_start []

lemma count_filterMap_key (earnings : List Earning) (stream : Stream) {k : Key}
    (h : ∀ st : Stream, st.key = some k ↔ st = stream) :
    (earnings.filterMap fun e => e.stream.key).count k =
      (earnings.map Earning.stream).count stream := by
  rw [List.count_filterMap, List.count, List.countP_map]
  exact List.countP_congr fun e _ => by simp [h]

lemma keys_count (tx : Transaction) (k : Key) : tx.keys.count k = tx.ledger.count k := by
  have hreward : ∀ k, (tx.ledger.rewards.map fun r => Key.reward r.swapId).count k =
      (tx.ledger.rewards.map Reward.swapId).countP fun id => Key.reward id = k := by
    intro k
    rw [List.countP_map, List.count, List.countP_map]
    rfl
  have hmilestone : ∀ k, (tx.ledger.milestones.map Key.milestone).count k =
      tx.ledger.milestones.countP fun count => Key.milestone count = k := by
    intro k
    rw [List.count, List.countP_map]
    rfl
  have hearning : ∀ {k : Key}, (∀ st : Stream, st.key ≠ some k) →
      (tx.ledger.earnings.filterMap fun e => e.stream.key).count k = 0 := by
    intro k hk
    refine List.count_eq_zero.mpr fun hmem => ?_
    obtain ⟨e, -, he⟩ := List.mem_filterMap.mp hmem
    exact hk e.stream he
  rw [Transaction.keys, List.count_append, List.count_append, hreward, hmilestone]
  cases k with
  | reward id =>
    rw [hearning fun st => by cases st <;> simp [Stream.key]]
    simp [Ledger.count, List.count, beq_eq_decide]
  | swap id =>
    rw [count_filterMap_key _ (.swap id) fun st => by cases st <;> simp [Stream.key]]
    simp [Ledger.count]
  | perps id =>
    rw [count_filterMap_key _ (.perps id) fun st => by cases st <;> simp [Stream.key]]
    simp [Ledger.count]
  | milestone count =>
    rw [hearning fun st => by cases st <;> simp [Stream.key]]
    simp [Ledger.count, List.count, beq_eq_decide]

namespace Locks

lemma lockReferral (h : Locks s (weight p + rest)) (hp : p.referee = none)
    (hp' : p'.referee = some referee) (htx : p'.transaction = p.transaction)
    (hfree : referee ∉ s.lockedReferrals) :
    Locks { s with lockedReferrals := referee :: s.lockedReferrals } (weight p' + rest) where
  referrals r := by
    have hr := h.referrals r
    simp only [Pi.add_apply, weight, hp, hp', reduceCtorEq, if_false, zero_add, Option.some.injEq]
      at hr ⊢
    rw [hr, List.count_cons, add_comm]
    simp
  nodup := h.nodup.cons hfree
  user := by simpa only [Pi.add_apply, weight, htx] using h.user
  code := by simpa only [Pi.add_apply, weight, htx] using h.code
  keys k := by simpa only [Pi.add_apply, weight, htx] using h.keys k

lemma unlockReferral (h : Locks s (weight p + rest)) (hp : p.referee = some referee)
    (htx : p.transaction = none) (hp' : weight p' = 0) :
    Locks (s.unlockReferral referee) (weight p' + rest) where
  referrals r := by
    have hr := h.referrals r
    simp only [Pi.add_apply, weight, hp, Option.some.injEq] at hr
    rw [hp', zero_add, State.unlockReferral, List.count_erase, ← hr]
    by_cases heq : referee = r
    · rw [if_pos heq, if_pos (beq_iff_eq.mpr heq)]
      omega
    · rw [if_neg heq, if_neg fun hbeq => heq (beq_iff_eq.mp hbeq)]
      omega
  nodup := h.nodup.erase referee
  user := by
    have huser := h.user
    simp only [Pi.add_apply, weight, htx, Option.any_none, Bool.toNat_false, zero_add] at huser
    rw [hp', zero_add, huser]
    rfl
  code := by
    have hcode := h.code
    simp only [Pi.add_apply, weight, htx, Option.any_none, Bool.toNat_false, zero_add] at hcode
    rw [hp', zero_add, hcode]
    rfl
  keys k := by
    have hkeys := h.keys k
    simp only [Pi.add_apply, weight, htx, Option.elim_none, zero_add] at hkeys
    rw [hp', zero_add, hkeys]
    rfl

/-- What a transaction holds becomes free. -/
lemma release (h : Locks s (weight p + rest)) (hp : p.referee = tx.referee)
    (htx : p.transaction = some tx) (hp' : weight p' = 0) :
    Locks (s.release tx) (weight p' + rest) where
  referrals r := by
    have hr := h.referrals r
    simp only [Pi.add_apply, weight, hp] at hr
    rw [hp', zero_add, State.release, List.count_diff, ← hr]
    cases tx.referee with
    | none => simp
    | some r' => by_cases heq : r' = r <;> simp [heq]
  nodup := h.nodup.diff
  user := by
    have huser := h.user
    simp only [Pi.add_apply, weight, htx, Option.any_some] at huser
    have hle := Bool.toNat_le s.userLocked
    rw [hp', zero_add, State.release]
    cases hnew : tx.newTotal with
    | none => simpa [hnew] using huser
    | some x =>
      simp only [hnew, Option.isSome_some, Bool.toNat_true] at huser
      simp only [Option.isNone_some, Bool.and_false, Bool.toNat_false]
      omega
  code := by
    have hcode := h.code
    simp only [Pi.add_apply, weight, htx, Option.any_some] at hcode
    have hle := Bool.toNat_le s.codeLocked
    rw [hp', zero_add, State.release]
    cases hlocked : tx.codeLocked with
    | false => simpa [hlocked] using hcode
    | true =>
      simp only [hlocked, Bool.toNat_true] at hcode
      simp only [Bool.not_true, Bool.and_false, Bool.toNat_false]
      omega
  keys k := by
    have hkeys := h.keys k
    simp only [Pi.add_apply, weight, htx, Option.elim_some] at hkeys
    rw [hp', zero_add, State.release, List.count_diff, keys_count, ← hkeys]
    omega

end Locks

lemma Frame.of_eq (hnow : s'.now = s.now) (hledger : s'.ledger = s.ledger)
    (huser : s'.totalReferralRewards = s.totalReferralRewards) (hcode : s'.code = s.code) :
    Frame s s' rest :=
  ⟨hnow.ge, fun _ _ _ => by rw [hledger], fun _ => huser, fun _ => by rw [hcode]⟩

lemma knows_congr (hnow : s'.now = s.now) (hledger : s'.ledger = s.ledger)
    (huser : s'.totalReferralRewards = s.totalReferralRewards) (hcode : s'.code = s.code)
    (h : Knows careful s p) : Knows careful s' p :=
  (Frame.of_eq hnow hledger huser hcode).knows (le_refl (weight p)) h

namespace Sound

/-- Where only locks change. -/
lemma relock (h : Sound careful s total) {total' : Share → ℕ} (hlocks : Locks s' total')
    (hledger : s'.ledger = s.ledger) (huser : s'.totalReferralRewards = s.totalReferralRewards)
    (hcode : s'.code = s.code)
    (hunique : ∀ k, s.ledger.count k + s'.uncommitted.count k ≤ 1) : Sound careful s' total' := by
  refine ⟨hlocks, hledger ▸ hunique, hledger ▸ h.milestones, hledger ▸ h.agree, hledger ▸ h.cap, ?_⟩
  rw [huser, hcode, hledger]
  exact h.totals

/-- Where only the process moves on. -/
lemma move (h : Sound careful s (weight p + rest)) (hweight : weight p' = weight p)
    (hknows : Knows careful s p') : Kept careful s rest s p' :=
  ⟨hweight ▸ h, hknows, .of_eq rfl rfl rfl rfl⟩

lemma unlock (h : Sound careful s (weight p + rest)) (hp : p.referee = some referee)
    (htx : p.transaction = none) (hp' : weight p' = 0) (hknows : Knows careful s p') :
    Kept careful s rest (s.unlockReferral referee) p' where
  sound := h.relock (h.locks.unlockReferral hp htx hp') rfl rfl rfl h.unique
  knows := knows_congr (s := s) rfl rfl rfl rfl hknows
  frame := .of_eq rfl rfl rfl rfl

lemma lockReferral {next : Proc} (h : Sound careful s (weight p + rest)) (hp : weight p = 0)
    (hreferee : p.referee = none) (htx : p.transaction = none)
    (hnext : next.referee = some referee) (hnexttx : next.transaction = none)
    (hlock : s.lockReferral referee next = .ok (s', p')) (hknows : ∀ s, Knows careful s next) :
    Kept careful s rest s' p' := by
  unfold State.lockReferral at hlock
  split_ifs at hlock with hnone hlocked
  · cases hlock
    exact h.move (hp.symm ▸ weight_start []) trivial
  · cases hlock
    have hlocks := h.locks.lockReferral hreferee hnext (hnexttx.trans htx.symm) hlocked
    exact ⟨h.relock hlocks rfl rfl rfl h.unique, hknows _, .of_eq rfl rfl rfl rfl⟩

/-- A session that fails. -/
lemma release (h : Sound careful s (weight p + rest)) (hp : p.referee = tx.referee)
    (htx : p.transaction = some tx) (hp' : weight p' = 0) (hknows : ∀ s, Knows careful s p') :
    Kept careful s rest (s.release tx) p' where
  sound := by
    refine h.relock (h.locks.release hp htx hp') rfl rfl rfl fun k => ?_
    rw [State.release, List.count_diff]
    have hunique := h.unique k
    omega
  knows := hknows _
  frame := .of_eq rfl rfl rfl rfl

end Sound

lemma knows_start (tasks : List Task) : Knows careful s (.start tasks) := by
  rcases tasks with _ | ⟨_ | _ | _, _⟩ <;> trivial

lemma knows_afterFailure (tx : Transaction) (tasks : List Task) :
    Knows careful s (.afterFailure tx tasks) := by
  rw [Proc.afterFailure]
  split
  · exact knows_start tasks
  · trivial

/-! ### Sessions -/

lemma Transaction.Sound.begin {locked : Option RefereeId} {stream : Stream} {amount : ℚ≥0}
    {code : Code} {since : Time} (hnodup : todo.Nodup) (huser : .updateUser ∈ todo)
    (hcode : .updateCode ∈ todo) (hearning : .insertEarning ∈ todo)
    (hreward : stream.isSwap = true → .insertReward ∈ todo ∧ locked.isSome = true)
    (hmilestone : stream.milestoneCount.isSome = true → .insertMilestone ∈ todo)
    (hsince : since ≤ s.now)
    (hcap : ∀ r ∈ locked, stream.isSwap = true →
      s.ledger.rewardsSince r (since - thirtyDays) + amount ≤ MAX_REWARD_PER_REFEREE_PER_30D_USD) :
    (Transaction.begin locked stream amount code).Sound careful s todo where
  nodup := hnodup
  swap hswap := (hreward hswap).2
  rewards := by
    refine ⟨since, since, le_rfl, hsince, ?_, hcap⟩
    split_ifs with htodo
    · rfl
    · cases stream with
      | swap id => exact absurd (hreward rfl).1 htodo
      | perps | milestone => cases locked <;> rfl
  earnings := (if_pos hearning).symm
  milestones := by
    split_ifs with htodo
    · rfl
    · cases stream with
      | milestone count => exact absurd (hmilestone rfl) htodo
      | swap | perps => rfl
  user _ := rfl
  code _ := ⟨rfl, rfl⟩
  locked := nofun
  total _ := by
    rw [if_pos huser, add_zero]
    rfl
  earned _ := by
    rw [if_pos hcode, add_zero]
    rfl

/-- A statement that writes nothing. -/
lemma Transaction.Sound.skip {st : Statement} (h : tx.Sound careful s (st :: todo))
    (hst : st = .selectUser ∨ st = .selectCode ∨ st = .updateReferral) :
    tx.Sound careful s todo := by
  have hmem : ∀ other, st ≠ other → (other ∈ st :: todo ↔ other ∈ todo) := fun other hne => by
    simp [hne.symm]
  have huser := hmem .updateUser (by rcases hst with rfl | rfl | rfl <;> nofun)
  have hcode := hmem .updateCode (by rcases hst with rfl | rfl | rfl <;> nofun)
  have hreward := hmem .insertReward (by rcases hst with rfl | rfl | rfl <;> nofun)
  have hearning := hmem .insertEarning (by rcases hst with rfl | rfl | rfl <;> nofun)
  have hmilestone := hmem .insertMilestone (by rcases hst with rfl | rfl | rfl <;> nofun)
  obtain ⟨hnodup, hswap, hrewards, hearnings, hmilestones, hu, hc, hlocked, htotal, hearned⟩ := h
  simp only [huser, hcode, hreward, hearning, hmilestone] at *
  exact ⟨hnodup.of_cons, hswap, hrewards, hearnings, hmilestones, hu, hc, hlocked, htotal, hearned⟩

namespace Transaction.Sound

lemma updateUser (h : tx.Sound careful s (.updateUser :: todo)) (hzero : tx.amount = 0) :
    tx.Sound careful s todo := by
  obtain ⟨hnodup, hswap, hrewards, hearnings, hmilestones, huser, hcode, hlocked, htotal,
    hearned⟩ := h
  obtain ⟨hnot, hnodup⟩ := List.nodup_cons.mp hnodup
  simp only [List.mem_cons, reduceCtorEq, false_or, true_or, if_true]
    at hrewards hearnings hmilestones hcode htotal hearned
  refine ⟨hnodup, hswap, hrewards, hearnings, hmilestones, fun hmem => absurd hmem hnot, hcode,
    hlocked, ?_, hearned⟩
  rw [if_neg hnot, hzero]
  exact htotal

/-- The new total is that of the row and the commission. -/
lemma writeTotal (h : tx.Sound careful s (.updateUser :: todo))
    (hread : careful = true → tx.totalReferralRewards = s.totalReferralRewards) :
    Transaction.Sound careful
      { tx with newTotal := some (tx.totalReferralRewards + tx.amount) } s todo := by
  obtain ⟨hnodup, hswap, hrewards, hearnings, hmilestones, huser, hcode, hlocked, htotal,
    hearned⟩ := h
  obtain ⟨hnot, hnodup⟩ := List.nodup_cons.mp hnodup
  simp only [List.mem_cons, reduceCtorEq, false_or] at hrewards hearnings hmilestones hcode hearned
  refine ⟨hnodup, hswap, hrewards, hearnings, hmilestones, fun hmem => absurd hmem hnot, hcode,
    hlocked, fun hcareful => ?_, hearned⟩
  rw [if_neg hnot, ← hread hcareful]
  rfl

lemma updateCode (h : tx.Sound careful s (.updateCode :: todo)) (hzero : tx.amount = 0) :
    tx.Sound careful s todo := by
  obtain ⟨hnodup, hswap, hrewards, hearnings, hmilestones, huser, hcode, hlocked, htotal,
    hearned⟩ := h
  obtain ⟨hnot, hnodup⟩ := List.nodup_cons.mp hnodup
  simp only [List.mem_cons, reduceCtorEq, false_or, true_or, if_true]
    at hrewards hearnings hmilestones huser htotal hearned
  refine ⟨hnodup, hswap, hrewards, hearnings, hmilestones, huser, fun hmem => absurd hmem hnot,
    hlocked, htotal, ?_⟩
  rw [if_neg hnot, hzero]
  exact hearned

lemma writeEarned (h : tx.Sound careful s (.updateCode :: todo))
    (hread : careful = true → tx.amount = 0 ∨
      tx.code.totalRewardsEarned = s.code.totalRewardsEarned) :
    Transaction.Sound careful { tx with
      codeLocked := true
      newEarned := if tx.amount = 0 then none else some (tx.code.totalRewardsEarned + tx.amount) }
      s todo := by
  obtain ⟨hnodup, hswap, hrewards, hearnings, hmilestones, huser, hcode, hlocked, htotal,
    hearned⟩ := h
  obtain ⟨hnot, hnodup⟩ := List.nodup_cons.mp hnodup
  simp only [List.mem_cons, reduceCtorEq, false_or] at hrewards hearnings hmilestones huser htotal
  refine ⟨hnodup, hswap, hrewards, hearnings, hmilestones, huser, fun hmem => absurd hmem hnot,
    fun _ => rfl, htotal, fun hcareful => ?_⟩
  rw [if_neg hnot]
  split_ifs with hzero
  · rw [hzero, add_zero]
    rfl
  · rw [← (hread hcareful).resolve_left hzero]
    rfl

lemma insertReward (h : tx.Sound careful s (.insertReward :: todo)) :
    Transaction.Sound careful { tx with
      ledger := tx.ledger.append ⟨tx.rewardRows s.now, [], []⟩ } s todo := by
  obtain ⟨hnodup, hswap, hrewards, hearnings, hmilestones, huser, hcode, hlocked, htotal,
    hearned⟩ := h
  obtain ⟨hnot, hnodup⟩ := List.nodup_cons.mp hnodup
  simp only [List.mem_cons, reduceCtorEq, false_or, true_or, if_true]
    at hrewards hearnings hmilestones huser hcode htotal hearned
  refine ⟨hnodup, hswap, ?_, ?_, ?_, huser, hcode, hlocked, htotal, hearned⟩
  · obtain ⟨since, createdAt, hsince, hcreated, hrows, hcap⟩ := hrewards
    refine ⟨since, s.now, hsince.trans hcreated, le_rfl, ?_, hcap⟩
    rw [if_neg hnot, Ledger.append, hrows]
    rfl
  · exact (List.append_nil _).trans hearnings
  · exact (List.append_nil _).trans hmilestones

lemma insertEarning (h : tx.Sound careful s (.insertEarning :: todo)) :
    Transaction.Sound careful { tx with
      ledger := tx.ledger.append ⟨[], [tx.earning], []⟩ } s todo := by
  obtain ⟨hnodup, hswap, hrewards, hearnings, hmilestones, huser, hcode, hlocked, htotal,
    hearned⟩ := h
  obtain ⟨hnot, hnodup⟩ := List.nodup_cons.mp hnodup
  simp only [List.mem_cons, reduceCtorEq, false_or, true_or, if_true]
    at hrewards hearnings hmilestones huser hcode htotal hearned
  refine ⟨hnodup, hswap, ?_, ?_, ?_, huser, hcode, hlocked, htotal, hearned⟩
  · obtain ⟨since, createdAt, hsince, hcreated, hrows, hcap⟩ := hrewards
    exact ⟨since, createdAt, hsince, hcreated, (List.append_nil _).trans hrows, hcap⟩
  · rw [if_neg hnot, Ledger.append, hearnings]
    rfl
  · exact (List.append_nil _).trans hmilestones

lemma insertMilestone (h : tx.Sound careful s (.insertMilestone :: todo)) :
    Transaction.Sound careful { tx with
      ledger := tx.ledger.append ⟨[], [], tx.stream.milestoneCount.toList⟩ } s todo := by
  obtain ⟨hnodup, hswap, hrewards, hearnings, hmilestones, huser, hcode, hlocked, htotal,
    hearned⟩ := h
  obtain ⟨hnot, hnodup⟩ := List.nodup_cons.mp hnodup
  simp only [List.mem_cons, reduceCtorEq, false_or, true_or, if_true]
    at hrewards hearnings hmilestones huser hcode htotal hearned
  refine ⟨hnodup, hswap, ?_, ?_, ?_, huser, hcode, hlocked, htotal, hearned⟩
  · obtain ⟨since, createdAt, hsince, hcreated, hrows, hcap⟩ := hrewards
    exact ⟨since, createdAt, hsince, hcreated, (List.append_nil _).trans hrows, hcap⟩
  · exact (List.append_nil _).trans hearnings
  · rw [if_neg hnot, Ledger.append, hmilestones]
    rfl

end Transaction.Sound

/-! ### Statements -/

variable {tx' : Transaction} {st : Statement}

lemma weight_referral {r : RefereeId} (h : p'.referee = p.referee) :
    weight p' (.referral r) = weight p (.referral r) := by
  rw [weight, weight, h]

lemma weight_session (hreferee : tx'.referee = tx.referee)
    (hnewTotal : tx'.newTotal.isSome = tx.newTotal.isSome)
    (hcodeLocked : tx'.codeLocked = tx.codeLocked) (hledger : tx'.ledger = tx.ledger) :
    weight (.session tx' todo tasks) = weight (.session tx (st :: todo) tasks) := by
  funext share
  cases share with
  | referral r => exact weight_referral hreferee
  | user | code | key => simp only [weight, Proc.transaction, Option.any_some, Option.elim_some,
      hnewTotal, hcodeLocked, hledger]

lemma lockUser_kept (h : Sound careful s (weight (.session tx (st :: todo) tasks) + rest))
    (hreferee : tx'.referee = tx.referee) (hold : tx.newTotal = none)
    (hnew : tx'.newTotal.isSome = true) (hcodeLocked : tx'.codeLocked = tx.codeLocked)
    (hledger : tx'.ledger = tx.ledger) (hfree : s.userLocked = false)
    (hknows : tx'.Sound careful s todo) :
    Kept careful s rest { s with userLocked := true } (.session tx' todo tasks) where
  sound := by
    obtain ⟨hreferrals, hnodup, huser, hcode, hkeys⟩ := h.locks
    refine h.relock ⟨fun r => ?_, hnodup, ?_, ?_, fun k => ?_⟩ rfl rfl rfl h.unique
    · have hsame : weight (.session tx' todo tasks) (.referral r) =
          weight (.session tx (st :: todo) tasks) (.referral r) := weight_referral hreferee
      rw [Pi.add_apply, hsame]
      exact hreferrals r
    · simp only [Pi.add_apply, weight, Proc.transaction, Option.any_some, hold, hnew, hfree,
        Option.isSome_none, Bool.toNat_false, zero_add, Bool.toNat_true] at huser ⊢
      omega
    · simpa only [Pi.add_apply, weight, Proc.transaction, Option.any_some, hcodeLocked] using hcode
    · simpa only [Pi.add_apply, weight, Proc.transaction, Option.elim_some, hledger] using hkeys k
  knows := knows_congr (s := s) rfl rfl rfl rfl hknows
  frame := .of_eq rfl rfl rfl rfl

lemma lockCode_kept (h : Sound careful s (weight (.session tx (st :: todo) tasks) + rest))
    (hreferee : tx'.referee = tx.referee) (hnewTotal : tx'.newTotal = tx.newTotal)
    (hold : tx.codeLocked = false) (hnew : tx'.codeLocked = true)
    (hledger : tx'.ledger = tx.ledger) (hfree : s.codeLocked = false)
    (hknows : tx'.Sound careful s todo) :
    Kept careful s rest { s with codeLocked := true } (.session tx' todo tasks) where
  sound := by
    obtain ⟨hreferrals, hnodup, huser, hcode, hkeys⟩ := h.locks
    refine h.relock ⟨fun r => ?_, hnodup, ?_, ?_, fun k => ?_⟩ rfl rfl rfl h.unique
    · have hsame : weight (.session tx' todo tasks) (.referral r) =
          weight (.session tx (st :: todo) tasks) (.referral r) := weight_referral hreferee
      rw [Pi.add_apply, hsame]
      exact hreferrals r
    · simpa only [Pi.add_apply, weight, Proc.transaction, Option.any_some, hnewTotal] using huser
    · simp only [Pi.add_apply, weight, Proc.transaction, Option.any_some, hold, hnew, hfree,
        Bool.toNat_false, zero_add, Bool.toNat_true] at hcode ⊢
      omega
    · simpa only [Pi.add_apply, weight, Proc.transaction, Option.elim_some, hledger] using hkeys k
  knows := knows_congr (s := s) rfl rfl rfl rfl hknows
  frame := .of_eq rfl rfl rfl rfl

/-- An insert of a row with the key, if it has one. -/
lemma insertRow_kept {key : Option Key} {row : Ledger} {written : Option Transaction}
    (h : Sound careful s (weight (.session tx (st :: todo) tasks) + rest))
    (hrow : ∀ k, row.count k = if key = some k then 1 else 0)
    (hknows : Transaction.Sound careful { tx with ledger := tx.ledger.append row } s todo)
    (hinsert : s.insertRow tx key row = .ok (s', written)) :
    written = none ∨
      ∃ tx', written = some tx' ∧ Kept careful s rest s' (.session tx' todo tasks) := by
  obtain ⟨hreferrals, hnodup, huser, hcode, hkeys⟩ := h.locks
  unfold State.insertRow at hinsert
  dsimp only at hinsert
  split at hinsert
  · cases hinsert
    refine .inr ⟨_, rfl, h.relock ⟨hreferrals, hnodup, huser, hcode, fun k => ?_⟩ rfl rfl rfl
      h.unique, hknows, .of_eq rfl rfl rfl rfl⟩
    have hk := hkeys k
    simp only [Pi.add_apply, weight, Proc.transaction, Option.elim_some, count_append, hrow,
      reduceCtorEq, if_false, add_zero] at hk ⊢
    exact hk
  · rename_i key
    split at hinsert
    · cases hinsert
    · cases hinsert
      exact .inl rfl
    · rename_i hinserts
      cases hinsert
      unfold State.insert at hinserts
      split_ifs at hinserts with hviolates hwaits
      refine .inr ⟨_, rfl, h.relock ⟨hreferrals, hnodup, huser, hcode, fun k => ?_⟩ rfl rfl rfl
        fun k => ?_, knows_congr (s := s) rfl rfl rfl rfl hknows, .of_eq rfl rfl rfl rfl⟩
      · have hk := hkeys k
        simp only [Pi.add_apply, weight, Proc.transaction, Option.elim_some, count_append, hrow,
          Option.some.injEq] at hk ⊢
        rw [List.count_cons, ← hk]
        by_cases heq : key = k
        · rw [if_pos heq, if_pos (beq_iff_eq.mpr heq)]
          omega
        · rw [if_neg heq, if_neg fun hbeq => heq (beq_iff_eq.mp hbeq)]
          omega
      · have hunique := h.unique k
        change _ + List.count k (key :: s.uncommitted) ≤ 1
        rw [List.count_cons]
        by_cases heq : key = k
        · subst heq
          have hcount := List.count_eq_zero.mpr hwaits
          rw [if_pos (beq_iff_eq.mpr rfl), hcount]
          omega
        · rw [if_neg fun hbeq => heq (beq_iff_eq.mp hbeq)]
          omega

theorem execute_kept {written : Option Transaction}
    (h : Sound careful s (weight (.session tx (st :: todo) tasks) + rest))
    (htx : tx.Sound careful s (st :: todo))
    (hcareful : careful = true → Careful s (.session tx (st :: todo) tasks) .ok = true)
    (hexecute : s.execute tx st = .ok (s', written)) :
    written = none ∨
      ∃ tx', written = some tx' ∧ Kept careful s rest s' (.session tx' todo tasks) := by
  cases st with
  | selectUser =>
    cases hexecute
    have hskip := htx.skip (.inl rfl)
    exact .inr ⟨_, rfl, h.move (weight_session rfl rfl rfl rfl) ⟨hskip.nodup, hskip.swap,
      hskip.rewards, hskip.earnings, hskip.milestones, hskip.user, hskip.code, hskip.locked,
      hskip.total, hskip.earned⟩⟩
  | selectCode =>
    cases hexecute
    have hskip := htx.skip (.inr (.inl rfl))
    exact .inr ⟨_, rfl, h.move (weight_session rfl rfl rfl rfl) ⟨hskip.nodup, hskip.swap,
      hskip.rewards, hskip.earnings, hskip.milestones, hskip.user, hskip.code, hskip.locked,
      hskip.total, hskip.earned⟩⟩
  | updateReferral =>
    cases hexecute
    have hskip := htx.skip (.inr (.inr rfl))
    exact .inr ⟨_, rfl, h.move (weight_session rfl rfl rfl rfl) ⟨hskip.nodup, hskip.swap,
      hskip.rewards, hskip.earnings, hskip.milestones, hskip.user, hskip.code, hskip.locked,
      hskip.total, hskip.earned⟩⟩
  | updateUser =>
    rw [State.execute] at hexecute
    split_ifs at hexecute with hzero hlocked
    · cases hexecute
      exact .inr ⟨tx, rfl, h.move (weight_session rfl rfl rfl rfl) (htx.updateUser hzero)⟩
    · cases hexecute
      have hread : careful = true → tx.totalReferralRewards = s.totalReferralRewards :=
        fun hc => (of_decide_eq_true (hcareful hc)).resolve_left hzero
      exact .inr ⟨_, rfl, lockUser_kept h rfl (htx.user List.mem_cons_self) rfl rfl rfl
        (Bool.eq_false_of_not_eq_true hlocked) (htx.writeTotal hread)⟩
  | updateCode =>
    rw [State.execute] at hexecute
    split at hexecute
    · rename_i hzero
      cases hexecute
      exact .inr ⟨tx, rfl, h.move (weight_session rfl rfl rfl rfl) (htx.updateCode hzero.1)⟩
    · split at hexecute
      · cases hexecute
      rename_i hlocked
      cases hexecute
      exact .inr ⟨_, rfl, lockCode_kept h rfl rfl (htx.code List.mem_cons_self).1 rfl rfl
        (Bool.eq_false_of_not_eq_true hlocked)
        (htx.writeEarned fun hc => of_decide_eq_true (hcareful hc))⟩
  | insertReward =>
    have hinserted := htx.insertReward
    rw [State.execute] at hexecute
    cases hreferee : tx.referee with
    | none =>
      rw [hreferee] at hexecute
      cases hexecute
      have hrows : tx.rewardRows s.now = [] := by rw [Transaction.rewardRows, hreferee]
      rw [hrows, append_nil] at hinserted
      exact .inr ⟨tx, rfl, h.move (weight_session rfl rfl rfl rfl) hinserted⟩
    | some referee =>
      rw [hreferee] at hexecute
      cases hstream : tx.stream with
      | swap id =>
        rw [hstream] at hexecute
        have hrows : tx.rewardRows s.now = [⟨referee, id, tx.amount, s.now⟩] := by
          rw [Transaction.rewardRows, hreferee, hstream]
        rw [hrows] at hinserted
        refine insertRow_kept h (fun k => ?_) hinserted hexecute
        cases k <;> simp [Ledger.count, List.count_cons]
      | perps id | milestone count =>
        rw [hstream] at hexecute
        cases hexecute
        have hrows : tx.rewardRows s.now = [] := by rw [Transaction.rewardRows, hreferee, hstream]
        rw [hrows, append_nil] at hinserted
        exact .inr ⟨tx, rfl, h.move (weight_session rfl rfl rfl rfl) hinserted⟩
  | insertEarning =>
    refine insertRow_kept h (fun k => ?_) htx.insertEarning hexecute
    cases hstream : tx.stream <;> cases k <;>
      simp [Ledger.count, List.count_cons, Transaction.earning, Stream.key, hstream]
  | insertMilestone =>
    have hinserted := htx.insertMilestone
    rw [State.execute] at hexecute
    cases hstream : tx.stream with
    | milestone count =>
      rw [hstream] at hexecute
      have hrows : tx.stream.milestoneCount.toList = [count] := by rw [hstream]; rfl
      rw [hrows] at hinserted
      refine insertRow_kept h (fun k => ?_) hinserted hexecute
      cases k <;> simp [Ledger.count, List.count_cons]
    | swap id | perps id =>
      rw [hstream] at hexecute
      cases hexecute
      have hrows : tx.stream.milestoneCount.toList = [] := by rw [hstream]; rfl
      rw [hrows, append_nil] at hinserted
      exact .inr ⟨tx, rfl, h.move (weight_session rfl rfl rfl rfl) hinserted⟩

/-! ### Commits -/

lemma rewardRows_earning (hswap : tx.stream.isSwap = true → tx.referee.isSome = true)
    (createdAt : Time) : (tx.rewardRows createdAt).map Reward.earning =
      [tx.earning].filter fun e => e.stream.isSwap := by
  cases hstream : tx.stream with
  | swap id =>
    obtain ⟨r, hr⟩ := Option.isSome_iff_exists.mp (hswap (by rw [hstream]; rfl))
    simp [Transaction.rewardRows, Transaction.earning, Reward.earning, hr, hstream, Stream.isSwap]
  | perps id | milestone count =>
    cases hreferee : tx.referee <;>
      simp [Transaction.rewardRows, Transaction.earning, hreferee, hstream, Stream.isSwap]

/-- The rows of a session are no one else's. -/
lemma rewardsSince_of_ne {createdAt : Time} (hrows : tx.ledger.rewards = tx.rewardRows createdAt)
    {r : RefereeId} (hne : tx.referee ≠ some r) (start : Time) :
    tx.ledger.rewardsSince r start = 0 := by
  rw [Ledger.rewardsSince, hrows, Transaction.rewardRows]
  split
  · rename_i referee id hreferee hstream
    have hne : referee ≠ r := fun heq => hne (heq ▸ hreferee)
    simp [hne]
  · rfl

lemma window_le_of_sound (h : tx.Sound careful s []) {r : RefereeId} {start : Time}
    (hcap : s.ledger.window r start ≤ MAX_REWARD_PER_REFEREE_PER_30D_USD) :
    s.ledger.window r start + tx.ledger.window r start ≤ MAX_REWARD_PER_REFEREE_PER_30D_USD := by
  obtain ⟨since, createdAt, hsince, -, hrows, hread⟩ := h.rewards
  rw [if_neg List.not_mem_nil] at hrows
  cases hreferee : tx.referee with
  | none =>
    have hnone : tx.rewardRows createdAt = [] := by rw [Transaction.rewardRows, hreferee]
    rw [Ledger.window.eq_def tx.ledger, hrows, hnone]
    simpa using hcap
  | some referee =>
    cases hstream : tx.stream with
    | swap id =>
      have hone : tx.rewardRows createdAt = [⟨referee, id, tx.amount, createdAt⟩] := by
        rw [Transaction.rewardRows, hreferee, hstream]
      rw [Ledger.window.eq_def tx.ledger, hrows, hone]
      by_cases hin : referee = r ∧ start ≤ createdAt ∧ createdAt ≤ start + thirtyDays
      · obtain ⟨rfl, hstart, hend⟩ := hin
        have hle : s.ledger.window referee start ≤
            s.ledger.rewardsSince referee (since - thirtyDays) :=
          window_le_rewardsSince (Nat.sub_le_of_le_add (hsince.trans hend))
        have hsum := hread referee hreferee (by rw [hstream]; rfl)
        simp only [hstart, hend, and_self, decide_true, List.filter_cons_of_pos, List.filter_nil,
          List.map_cons, List.map_nil, List.sum_cons, List.sum_nil, add_zero]
        exact (add_le_add_left hle _).trans hsum
      · simpa [hin] using hcap
    | perps id | milestone count =>
      have hnone : tx.rewardRows createdAt = [] := by
        rw [Transaction.rewardRows, hreferee, hstream]
      rw [Ledger.window.eq_def tx.ledger, hrows, hnone]
      simpa using hcap

theorem commit_kept (h : Sound careful s (weight (.session tx [] tasks) + rest))
    (htx : tx.Sound careful s []) : Kept careful s rest (s.commit tx) (.start tasks) := by
  obtain ⟨since, createdAt, hsince, hcreated, hrows, hread⟩ := htx.rewards
  rw [if_neg List.not_mem_nil] at hrows
  have hearnings := htx.earnings
  have hmilestones := htx.milestones
  rw [if_neg List.not_mem_nil] at hearnings hmilestones
  have hlocks := h.locks.release rfl rfl (weight_start tasks)
  refine ⟨⟨⟨hlocks.referrals, hlocks.nodup, hlocks.user, hlocks.code, hlocks.keys⟩, fun k => ?_,
    ?_, ?_, fun r start => ?_, fun hcareful => ?_⟩, knows_start tasks,
    ⟨le_rfl, fun r hr start => ?_, fun hr => ?_, fun hr => ?_⟩⟩
  · have hunique := h.unique k
    have hkeys := h.locks.keys k
    simp only [Pi.add_apply, weight, Proc.transaction, Option.elim_some] at hkeys
    simp only [State.commit, State.release, count_append, List.count_diff, keys_count]
    omega
  · change s.ledger.milestones ++ tx.ledger.milestones = List.filterMap _ (_ ++ tx.ledger.earnings)
    rw [List.filterMap_append, h.milestones, hmilestones, hearnings]
    cases hcount : tx.stream.milestoneCount <;> simp [Transaction.earning, hcount]
  · change (s.ledger.rewards ++ tx.ledger.rewards).map _ = List.filter _ (_ ++ tx.ledger.earnings)
    rw [List.map_append, List.filter_append, h.agree, hrows, hearnings, rewardRows_earning htx.swap]
  · change (s.ledger.append tx.ledger).window r start ≤ _
    rw [window_append]
    exact window_le_of_sound htx (h.cap r start)
  · obtain ⟨htotal, hearned⟩ := h.totals hcareful
    have hnew := htx.total hcareful
    have hnewEarned := htx.earned hcareful
    rw [if_neg List.not_mem_nil] at hnew hnewEarned
    have hamount : tx.ledger.total = tx.amount := by
      rw [Ledger.total, hearnings]
      exact add_zero _
    change tx.newTotal.getD _ = (s.ledger.append tx.ledger).total ∧
      tx.newEarned.getD _ = (s.ledger.append tx.ledger).total
    rw [hnew, hnewEarned, total_append, hamount, ← htotal, hearned, htotal]
    exact ⟨rfl, rfl⟩
  · change (s.ledger.append tx.ledger).rewardsSince r start = _
    have hne : tx.referee ≠ some r := by
      intro hreferee
      have hreferrals := h.locks.referrals r
      have hone := List.nodup_iff_count_le_one.mp h.locks.nodup r
      rw [Pi.add_apply, weight,
        if_pos (show (Proc.session tx [] tasks).referee = some r from hreferee)]
        at hreferrals
      omega
    rw [rewardsSince_append, rewardsSince_of_ne hrows hne, add_zero]
  · have huser := h.locks.user
    have hle := Bool.toNat_le s.userLocked
    rw [State.commit]
    cases hnew : tx.newTotal with
    | none => rfl
    | some x =>
      simp only [Pi.add_apply, weight, Proc.transaction, Option.any_some, hnew, Option.isSome_some,
        Bool.toNat_true] at huser
      omega
  · have hcode := h.locks.code
    have hle := Bool.toNat_le s.codeLocked
    rw [State.commit]
    cases hnew : tx.newEarned with
    | none => rfl
    | some x =>
      have hlocked := htx.locked (by rw [hnew]; rfl)
      simp only [Pi.add_apply, weight, Proc.transaction, Option.any_some, hlocked,
        Bool.toNat_true] at hcode
      omega

/-! ### Steps -/

lemma weight_begin {locked : Option RefereeId} {stream : Stream} {amount : ℚ≥0} {code : Code}
    (htx : p'.transaction = some (.begin locked stream amount code)) (hp' : p'.referee = locked)
    (hp : p.referee = locked) (hnone : p.transaction = none) : weight p' = weight p := by
  funext share
  cases share with
  | referral r => exact weight_referral (hp'.trans hp.symm)
  | user | code | key =>
    simp [weight, htx, hnone, Transaction.begin]

theorem step_kept {answer : Answer} (h : Sound careful s (weight p + rest))
    (hknows : Knows careful s p) (hcareful : careful = true → Careful s p answer = true)
    (hstep : step s p answer = .ok (s', p')) : Kept careful s rest s' p' := by
  cases p with
  | idle =>
    cases answer with
    | recordReward | verifyReferral | checkMilestones =>
      cases hstep
      exact h.move (weight_congr rfl rfl) trivial
    | creditPerpsCommission referee perpOrderId builderFeeUsd tradeNotionalUsd =>
      dsimp only [step] at hstep
      cases hstep
      split_ifs
      · exact h.move rfl trivial
      · exact h.move (weight_congr rfl rfl) trivial
    | _ => cases hstep
  -- `record_reward`
  | recordReward referee swapId feeAmountUsd =>
    cases answer with
    | ok => exact h.lockReferral (weight_start []) rfl rfl rfl rfl hstep fun _ => trivial
    | raises =>
      cases hstep
      exact h.move (weight_congr rfl rfl) trivial
    | _ => cases hstep
  | existingReward referee swapId feeAmountUsd =>
    cases answer with
    | ok =>
      dsimp only [step] at hstep
      split_ifs at hstep
      · cases hstep
        exact h.unlock rfl rfl (weight_start []) trivial
      · cases hstep
        exact h.move (weight_congr rfl rfl) trivial
    | raises =>
      cases hstep
      exact h.unlock rfl rfl (weight_start []) trivial
    | _ => cases hstep
  | refereeVolume referee swapId feeAmountUsd =>
    cases answer with
    | volume usd =>
      dsimp only [step] at hstep
      split_ifs at hstep
      · cases hstep
        exact h.unlock rfl rfl (weight_start []) trivial
      · cases hstep
        exact h.move (weight_congr rfl rfl) trivial
    | raises =>
      cases hstep
      exact h.unlock rfl rfl (weight_start []) trivial
    | _ => cases hstep
  | selectTier referee swapId feeAmountUsd =>
    cases answer with
    | ok =>
      cases hstep
      exact h.move (weight_congr rfl rfl) trivial
    | raises =>
      cases hstep
      exact h.unlock rfl rfl (weight_start []) trivial
    | _ => cases hstep
  | existing30dReward referee swapId feeAmountUsd code =>
    cases answer with
    | ok =>
      dsimp only [step] at hstep
      split_ifs at hstep with hexhausted
      · cases hstep
        exact h.unlock rfl rfl (weight_start []) trivial
      · cases hstep
        refine h.move (weight_begin rfl rfl rfl rfl) (.begin (by decide) (by decide) (by decide)
          (by decide) (fun _ => ⟨by decide, rfl⟩) nofun le_rfl fun r hr _ => ?_)
        obtain rfl := Option.some.inj hr
        calc _ ≤ _ + (MAX_REWARD_PER_REFEREE_PER_30D_USD - _) := by
              gcongr
              exact min_le_right _ _
          _ = _ := add_tsub_cancel_of_le (not_le.mp hexhausted).le
    | raises =>
      cases hstep
      exact h.unlock rfl rfl (weight_start []) trivial
    | _ => cases hstep
  | totalReferredVolume tx =>
    cases answer with
    | volume usd =>
      cases hstep
      refine h.move (funext fun share => by cases share <;> rfl) ?_
      exact ⟨hknows.nodup, hknows.swap, hknows.rewards, hknows.earnings, hknows.milestones,
        hknows.user, hknows.code, hknows.locked, hknows.total, hknows.earned⟩
    | raises =>
      cases hstep
      exact h.release rfl rfl (weight_start []) fun _ => trivial
    | _ => cases hstep
  -- `credit_perps_commission`
  | creditPerps referee perpOrderId builderFeeUsd tradeNotionalUsd =>
    cases answer with
    | ok => exact h.lockReferral (weight_start []) rfl rfl rfl rfl hstep fun _ => trivial
    | raises =>
      cases hstep
      exact h.move (weight_congr rfl rfl) trivial
    | _ => cases hstep
  | existingPerps referee perpOrderId builderFeeUsd tradeNotionalUsd =>
    cases answer with
    | ok =>
      dsimp only [step] at hstep
      split_ifs at hstep
      · cases hstep
        exact h.unlock rfl rfl (weight_start []) trivial
      · cases hstep
        refine h.move (funext fun share => ?_) ?_
        · cases share with
          | key k => exact count_empty
          | _ => rfl
        have hbegin : (Transaction.begin referee (.perps perpOrderId)
            (builderFeeUsd * getPerpsTierRate
              ((s.referrals[referee]?.map Referral.perpsVolume14dUsd).getD 0)) s.code).Sound
            careful s perpsStatements :=
          .begin (by decide) (by decide) (by decide) (by decide) nofun nofun le_rfl nofun
        exact ⟨hbegin.nodup, hbegin.swap, hbegin.rewards, hbegin.earnings, hbegin.milestones,
          hbegin.user, hbegin.code, hbegin.locked, hbegin.total, hbegin.earned⟩
    | raises =>
      cases hstep
      exact h.unlock rfl rfl (weight_start []) trivial
    | _ => cases hstep
  -- the sessions
  | session tx statements tasks =>
    cases answer with
    | ok =>
      cases statements with
      | nil =>
        cases hstep
        exact commit_kept h hknows
      | cons statement todo =>
        obtain ⟨⟨s₁, written⟩, hexecute, heq⟩ := Program.map_ok_iff.mp hstep
        rcases execute_kept h hknows hcareful hexecute with rfl | ⟨tx', rfl, hkept⟩
        · cases heq
          exact h.release rfl rfl (weight_afterFailure _ _) fun _ => knows_afterFailure _ _
        · cases heq
          exact hkept
    | raises =>
      have hraised : step s (.session tx statements tasks) .raises =
          .ok (s.release tx, .afterFailure tx tasks) := by
        cases statements <;> rfl
      rw [hraised] at hstep
      cases hstep
      exact h.release rfl rfl (weight_afterFailure _ _) fun _ => knows_afterFailure _ _
    | _ => cases statements <;> cases hstep
  -- `verify_referral`
  | verifyReferral referee tasks =>
    cases answer with
    | ok =>
      dsimp only [step] at hstep
      cases hstep
      split_ifs
      · exact h.move (weight_congr rfl rfl) trivial
      · exact h.move ((weight_start _).trans (weight_eq_zero rfl rfl).symm) (knows_start _)
    | raises =>
      cases hstep
      exact h.move ((weight_start _).trans (weight_eq_zero rfl rfl).symm) (knows_start _)
    | _ => cases hstep
  | stampVerified referee tasks =>
    cases answer with
    | ok =>
      dsimp only [step] at hstep
      split_ifs at hstep with hlocked
      cases hstep
      exact ⟨h.relock (h.locks.lockReferral rfl rfl rfl hlocked) rfl rfl rfl h.unique, trivial,
        .of_eq rfl rfl rfl rfl⟩
    | raises =>
      cases hstep
      exact h.move ((weight_start _).trans (weight_eq_zero rfl rfl).symm) (knows_start _)
    | _ => cases hstep
  | commitVerified referee verifiedAt tasks =>
    cases answer with
    | ok =>
      cases hstep
      obtain ⟨hreferrals, hnodup, huser, hcode, hkeys⟩ :=
        h.locks.unlockReferral rfl rfl (weight_start (.checkMilestones :: tasks))
      exact ⟨h.relock ⟨hreferrals, hnodup, huser, hcode, hkeys⟩ rfl rfl rfl h.unique, trivial,
        .of_eq rfl rfl rfl rfl⟩
    | raises =>
      cases hstep
      exact h.unlock rfl rfl (weight_start _) (knows_start _)
    | _ => cases hstep
  -- `_check_and_award_milestones`
  | verifiedCount tasks =>
    cases answer with
    | ok | raises =>
      cases hstep
      exact h.move ((weight_start _).trans (weight_eq_zero rfl rfl).symm) (knows_start _)
    | _ => cases hstep
  | existingMilestone count bonusUsd tasks =>
    cases answer with
    | ok =>
      dsimp only [step] at hstep
      cases hstep
      split_ifs
      · exact h.move ((weight_start _).trans (weight_eq_zero rfl rfl).symm) (knows_start _)
      · exact h.move (weight_begin rfl rfl rfl rfl) (.begin (by decide) (by decide) (by decide)
          (by decide) nofun (fun _ => by decide) le_rfl nofun)
    | raises =>
      cases hstep
      exact h.move ((weight_start _).trans (weight_eq_zero rfl rfl).symm) (knows_start _)
    | _ => cases hstep

/-! ### Runs -/

lemma environment_sound {event : Event} (h : Sound careful s total)
    (hevent : environment s event = .ok s') : Sound careful s' total ∧ Frame s s' total := by
  obtain ⟨hreferrals, hnodup, huser, hcode, hkeys⟩ := h.locks
  cases event with
  | elapse duration =>
    cases hevent
    exact ⟨h.relock ⟨hreferrals, hnodup, huser, hcode, hkeys⟩ rfl rfl rfl h.unique,
      Nat.le_add_right _ _, fun _ _ _ => rfl, fun _ => rfl, fun _ => rfl⟩
  | makeReferral =>
    cases hevent
    exact ⟨h.relock ⟨hreferrals, hnodup, huser, hcode, hkeys⟩ rfl rfl rfl h.unique,
      .of_eq rfl rfl rfl rfl⟩
  | deactivate referee =>
    unfold environment at hevent
    dsimp only at hevent
    split_ifs at hevent
    cases hevent
    exact ⟨h.relock ⟨hreferrals, hnodup, huser, hcode, hkeys⟩ rfl rfl rfl h.unique,
      .of_eq rfl rfl rfl rfl⟩

theorem inductive_sound (careful : Bool) {C : State → (Share → ℕ) → Proc → Answer → Prop}
    (hC : ∀ s rest p answer, C s rest p answer → careful = true → Careful s p answer = true) :
    program.Inductive weight (Sound careful) (Knows careful) C fun _ _ _ => True where
  step h hknows hc hstep :=
    let hkept := step_kept h hknows (hC _ _ _ _ hc) hstep
    ⟨hkept.sound, hkept.knows⟩
  stable h hknows hc hstep hq hknows' :=
    (step_kept h hknows (hC _ _ _ _ hc) hstep).frame.knows hq hknows'
  environment h _ hevent :=
    ⟨(environment_sound h hevent).1, fun _ hq => (environment_sound h hevent).2.knows hq⟩

lemma initial_sound (careful : Bool) (n : ℕ) (now : Time) :
    Program.Invariant weight (Sound careful) (Knows careful) (initial n now) where
  shared := by
    have htotal : (initial n now).total weight = 0 :=
      Finset.sum_eq_zero fun _ _ => weight_start []
    rw [htotal]
    refine ⟨⟨fun _ => rfl, List.nodup_nil, rfl, rfl, fun _ => rfl⟩, fun k => ?_, rfl, rfl,
      fun _ _ => zero_le, fun _ => ⟨rfl, rfl⟩⟩
    cases k <;> exact Nat.zero_le 1
  knows _ := trivial

/-- The indexes leave no two earnings of a stream. -/
lemma Sound.recorded (h : Sound careful s total) : s.ledger.Recorded where
  once := by
    refine List.nodup_iff_count_le_one.mpr fun stream => ?_
    have hunique : ∀ k, s.ledger.count k ≤ 1 := fun k => (Nat.le_add_right _ _).trans (h.unique k)
    cases stream with
    | swap id => exact hunique (.swap id)
    | perps id => exact hunique (.perps id)
    | milestone count =>
      refine le_trans (le_of_eq ?_) (hunique (.milestone count))
      rw [Ledger.count, h.milestones, List.count_filterMap, List.count, List.countP_map]
      exact List.countP_congr fun e _ => by
        cases hstream : e.stream <;> simp [Stream.milestoneCount, hstream]
  agree := h.agree
  cap := h.cap

/-- In every run, whatever is written over the totals. -/
theorem recorded (n : ℕ) (now : Time) (as : List (Program.Action n Answer Event)) :
    ((program.machine n).run (initial n now) as).shared.ledger.Recorded :=
  ((inductive_sound false fun _ _ _ _ _ => nofun).run_always as
    (initial_sound false n now)).shared.recorded

/-- Along a run in which what is written over a total was computed from it. -/
theorem agrees_of_careful (n : ℕ) (now : Time) (as : List (Program.Action n Answer Event))
    (hcareful : (program.machine n).Along
      (Program.Meets weight (fun s _ p answer => Careful s p answer = true) fun _ _ _ => True)
      (initial n now) as) :
    Agrees ((program.machine n).run (initial n now) as) :=
  have h := ((inductive_sound true fun _ _ _ _ hcareful _ => hcareful).run as
    (initial_sound true n now) hcareful).shared
  ⟨h.recorded, fun _ => h.totals rfl⟩

/-- `record_reward` up to its last read. -/
def readReward {n : ℕ} (i : Fin n) (referee : RefereeId) (swapId : SwapId) :
    List (Program.Action n Answer Event) :=
  List.map (.take i) [.recordReward referee swapId 1, .ok, .ok,
    .volume MIN_VOLUME_BEFORE_PAYOUT_USD, .ok, .ok, .volume MIN_VOLUME_BEFORE_PAYOUT_USD, .ok]

/-- And from there on. -/
def writeReward {n : ℕ} (i : Fin n) : List (Program.Action n Answer Event) :=
  List.replicate 9 (.take i .ok)

theorem two_rewards_agree : Agrees ((program.machine 2).run (initial 2 0)
    ([.environment .makeReferral, .environment .makeReferral] ++ readReward 0 0 1 ++
      writeReward 0 ++
      readReward 1 1 2 ++ writeReward 1)) :=
  agrees_of_careful 2 0 _ (by decide +kernel)

/-- The swaps of two referees are rewarded at once, and one of the rewards is missing from the
totals. -/
theorem earning_lost : ¬ ∀ (n : ℕ) (now : Time) (as : List (Program.Action n Answer Event)),
    Agrees ((program.machine n).run (initial n now) as) := by
  intro h
  have htotals := (h 2 0 ([.environment .makeReferral, .environment .makeReferral] ++
    readReward 0 0 1 ++ readReward 1 1 2 ++ writeReward 0 ++ writeReward 1)).totals
  revert htotals
  decide +kernel

end Suwappu.ReferralService.Commissions
