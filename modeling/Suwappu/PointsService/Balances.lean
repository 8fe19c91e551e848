import Suwappu.PointsService.Operations

/-!
# Points balance

`consistent`: however the operations of the two services interleave, the points are those earned
less those spent and never negative, no check-in and no milestone is credited twice, and whenever no
operation is in progress the points are the sum of the ledger.
-/

namespace Suwappu.PointsService

def State.account (s : State) : Account := s.row.getD .new

def sumOf (entries : List Entry) : ℤ := (entries.map Entry.amount).sum

def Action.day : Action → Option ℕ
  | .checkin day => some day
  | _            => none

def Action.milestoneId : Action → Option MilestoneId
  | .milestone id => some id
  | _             => none

def checkins (entries : List Entry) : List ℕ := entries.filterMap fun e => e.action.day

def milestoneIds (entries : List Entry) : List MilestoneId :=
  entries.filterMap fun e => e.action.milestoneId

structure Account.Sane (a : Account) : Prop where
  earned : a.currentPoints = a.totalPointsEarned - a.pointsSpent
  nonneg : 0 ≤ a.currentPoints

structure Consistent {n : ℕ} (c : Program.Config State Proc n) : Prop where
  balance : (∀ i, c.procs i = .idle) → c.shared.account.currentPoints = sumOf c.shared.ledger
  sane : c.shared.account.Sane
  checkins : (checkins c.shared.ledger).Nodup
  milestones : (milestoneIds c.shared.ledger).Nodup

/-! ### Sums -/

variable {entries : List Entry} {e : Entry} {a : Account} {points : ℤ} {cost : ℕ}

@[simp] lemma sumOf_nil : sumOf [] = 0 := rfl

@[simp] lemma sumOf_cons : sumOf (e :: entries) = e.amount + sumOf entries := by
  simp [sumOf]

@[simp] lemma sumOf_append (l : List Entry) : sumOf (l ++ entries) = sumOf l + sumOf entries := by
  simp [sumOf]

@[simp] lemma checkins_append (l : List Entry) :
    checkins (l ++ entries) = checkins l ++ checkins entries :=
  List.filterMap_append

@[simp] lemma milestoneIds_append (l : List Entry) :
    milestoneIds (l ++ entries) = milestoneIds l ++ milestoneIds entries :=
  List.filterMap_append

lemma sumOf_ite (n : ℕ) (action : Action) :
    sumOf (if 0 < n then [⟨action, n, none⟩] else []) = n := by
  rcases Nat.eq_zero_or_pos n with rfl | hn
  · rfl
  · rw [if_pos hn, sumOf_cons, sumOf_nil, add_zero]

lemma Account.Sane.new : Account.new.Sane := ⟨rfl, le_rfl⟩

lemma Account.Sane.credit (h : a.Sane) (hpoints : 0 ≤ points) : (a.credit points).Sane where
  earned := by
    simp only [Account.credit, h.earned]
    ring
  nonneg := add_nonneg h.nonneg hpoints

lemma Account.Sane.debit (h : a.Sane) {cost : ℤ} (hcost : cost ≤ a.currentPoints) :
    (a.debit cost).Sane where
  earned := by
    simp only [Account.debit, h.earned]
    ring
  nonneg := sub_nonneg.mpr hcost

lemma Account.Sane.relevel (h : a.Sane) : a.relevel.Sane := ⟨h.earned, h.nonneg⟩

lemma Account.Sane.countSwap (h : a.Sane) {now : Time} {usd : ℚ} : (a.countSwap now usd).Sane :=
  ⟨h.earned, h.nonneg⟩

lemma Account.Sane.checkin (h : a.Sane) {now : Time} {streak : ℕ} : (a.checkin now streak).Sane :=
  ⟨h.earned, h.nonneg⟩

/-! ### The invariant -/

/-- What the processes have among them: the row, points that are credited and not yet recorded,
and milestones that are taken and not yet recorded. -/
inductive Share where
  | lock
  | owed
  | milestone (id : MilestoneId)

def Proc.transaction : Proc → Option Transaction
  | .perform _ a _ | .readAchieved a _ _ _ => some ⟨some a, [], []⟩
  | .fulfill _ tx _                        => some tx
  | .insertVolume _ _ _ tx _               => some tx
  | .creditVolume _ _ tx _                 => some tx
  | .insertEntries tx _ _ _                => some tx
  | .levelUp _ tx _                        => some tx
  | .creditLevel tx _                      => some tx
  | .commit tx _                           => some tx
  | _                                      => none

/-- The milestone under way, and whether its points are credited. -/
def Proc.milestone : Proc → Option (Milestone × Bool)
  | .creditMilestone m _ => some (m, false)
  | .recordMilestone m _ => some (m, true)
  | _                    => none

def weight (p : Proc) : Share → ℕ
  | .lock         => (p.transaction.any fun tx => tx.account.isSome).toNat
  | .owed         => p.milestone.elim 0 fun m => if m.2 then m.1.pointsReward else 0
  | .milestone id => p.milestone.elim 0 fun m => if m.1.id = id then 1 else 0

structure Sound (s : State) (total : Share → ℕ) : Prop where
  locked : total .lock = s.locked.toNat
  balance : s.account.currentPoints = sumOf s.ledger + total .owed
  sane : s.account.Sane
  checkins : (checkins s.ledger).Nodup
  last : ∀ d ∈ PointsService.checkins s.ledger, ∃ t ∈ s.account.lastCheckin, d ≤ day t
  past : ∀ t ∈ s.account.lastCheckin, t ≤ s.now
  milestones : ∀ id,
    (milestoneIds s.ledger).count id + total (.milestone id) = s.milestones.count id
  distinct : s.milestones.Nodup

def Transaction.gain (tx : Transaction) (s : State) : ℤ :=
  tx.account.elim 0 fun a => a.currentPoints - s.account.currentPoints

/-- What a transaction has written to the account are its entries, less what it is about to credit;
it credits one check-in at most, of a day after all others. -/
structure Transaction.Sound (tx : Transaction) (s : State) (entries : List Entry) (credit : ℤ) :
    Prop where
  gain : tx.gain s + credit = sumOf entries
  sane : ∀ a ∈ tx.account, a.Sane
  checkin : PointsService.checkins entries = [] ∧
      (∀ a ∈ tx.account, a.lastCheckin = s.account.lastCheckin) ∨
    ∃ a t, tx.account = some a ∧ a.lastCheckin = some t ∧
      PointsService.checkins entries = [day t] ∧ t ≤ s.now ∧ isBefore s.account.lastCheckin t = true
  milestones : milestoneIds entries = tx.milestones

def Knows (s : State) : Proc → Prop
  | .perform _ a _ | .readAchieved a _ _ _    => a = s.account
  | .fulfill _ tx _                           =>
    tx.Sound s (tx.entries ++ []) 0 ∧ tx.account.isSome = true
  | .commit tx _                              => tx.Sound s tx.entries 0
  | .getOrCreate _ now | .createAccount _ now => now ≤ s.now
  | .checkin now _                            => now ≤ s.now
  | .award _ _                                => s.row.isSome = true
  | .insertVolume _ _ _ tx pending            =>
    tx.Sound s (tx.entries ++ pending) 0 ∧ s.row.isSome = true
  | .creditVolume swapAmountUsd _ tx pending  =>
    tx.Sound s (tx.entries ++ pending) (volumePoints swapAmountUsd) ∧ s.row.isSome = true ∧
      0 < volumePoints swapAmountUsd
  | .insertEntries tx pending _ _             =>
    tx.Sound s (tx.entries ++ pending) 0 ∧ s.row.isSome = true
  | .levelUp _ tx _                           => tx.Sound s tx.entries 0 ∧ s.row.isSome = true
  | .creditLevel tx _                         => tx.Sound s tx.entries 100 ∧ s.row.isSome = true
  | .firstSwap _ _ _ _ | .getMilestones _ | .getAchieved _ _ => s.row.isSome = true
  | .insertMilestone _                        => s.row.isSome = true
  | .creditMilestone _ _                      => s.row.isSome = true
  | .recordMilestone _ _                      => s.row.isSome = true
  | _                                         => True

variable {s s' : State} {p p' q : Proc} {rest : Share → ℕ} {tx : Transaction} {credit : ℤ}

/-- The row stays, and while another transaction has it, as it is. -/
structure Frame (s s' : State) (rest : Share → ℕ) : Prop where
  row : 0 < rest .lock → s'.row = s.row
  isSome : s.row.isSome = true → s'.row.isSome = true
  now : s.now ≤ s'.now

lemma Transaction.Sound.frame (h : tx.Sound s entries credit) (hnow : s.now ≤ s'.now)
    (hrow : tx.account.isSome = true → s'.row = s.row) : tx.Sound s' entries credit := by
  cases haccount : tx.account with
  | none =>
    refine ⟨?_, h.sane, ?_, h.milestones⟩
    · simpa [Transaction.gain, haccount] using h.gain
    · rcases h.checkin with ⟨hcheckins, -⟩ | ⟨a, t, ha, -⟩
      · exact .inl ⟨hcheckins, by simp [haccount]⟩
      · rw [haccount] at ha
        cases ha
  | some a =>
    have haccount' : s'.account = s.account := by
      rw [State.account, hrow (by rw [haccount]; rfl), State.account]
    refine ⟨?_, h.sane, ?_, h.milestones⟩
    · rw [Transaction.gain, haccount']
      exact h.gain
    · rw [haccount']
      rcases h.checkin with hcheckin | ⟨b, t, hb, hlast, hcheckins, ht, hbefore⟩
      · exact .inl hcheckin
      · exact .inr ⟨b, t, hb, hlast, hcheckins, ht.trans hnow, hbefore⟩

lemma lock_pos (hq : weight q ≤ rest) (htx : q.transaction = some tx)
    (haccount : tx.account.isSome = true) : 0 < rest .lock := by
  have hle := hq .lock
  simp only [weight, htx, Option.any_some, haccount, Bool.toNat_true] at hle
  omega

/-- What a process knows stays true while others work. -/
lemma Frame.knows (h : Frame s s' rest) (hq : weight q ≤ rest) (hknows : Knows s q) :
    Knows s' q := by
  have htx : ∀ {tx entries credit}, q.transaction = some tx → tx.Sound s entries credit →
      tx.Sound s' entries credit :=
    fun heq hsound => hsound.frame h.now fun hsome => h.row (lock_pos hq heq hsome)
  cases q with
  | perform op a rest' | readAchieved a active count rest' =>
    have hrow := h.row (lock_pos hq rfl rfl)
    simpa [Knows, State.account, hrow] using hknows
  | fulfill => exact ⟨htx rfl hknows.1, hknows.2⟩
  | commit => exact htx rfl hknows
  | getOrCreate | createAccount | checkin => exact le_trans hknows h.now
  | award | firstSwap | getMilestones | getAchieved | insertMilestone | creditMilestone
  | recordMilestone => exact h.isSome hknows
  | insertVolume | insertEntries | levelUp | creditLevel =>
    exact ⟨htx rfl hknows.1, h.isSome hknows.2⟩
  | creditVolume => exact ⟨htx rfl hknows.1, h.isSome hknows.2.1, hknows.2.2⟩
  | _ => trivial

lemma knows_congr (hrow : s'.row = s.row) (hnow : s.now ≤ s'.now) (h : Knows s p) : Knows s' p :=
  Frame.knows ⟨fun _ => hrow, fun hsome => hrow ▸ hsome, hnow⟩ (le_refl (weight p)) h

/-- What a step keeps. -/
structure Kept (s : State) (rest : Share → ℕ) (s' : State) (p' : Proc) : Prop where
  sound : Sound s' (weight p' + rest)
  knows : Knows s' p'
  frame : Frame s s' rest

lemma weight_congr (htx : p'.transaction = p.transaction)
    (hmilestone : p'.milestone = p.milestone) :
    weight p' = weight p := by
  funext share
  cases share <;> simp only [weight, htx, hmilestone]

/-! ### Statements of a transaction -/

variable {f : Account → Account} {d : ℤ}

lemma Transaction.Sound.account_sane (h : tx.Sound s entries credit) (hsane : s.account.Sane) :
    (tx.account.getD s.account).Sane := by
  cases haccount : tx.account with
  | none   => exact hsane
  | some a => exact h.sane a haccount

/-- A transaction that has only been begun. -/
lemma Transaction.Sound.begin (hcheckins : PointsService.checkins entries = [])
    (hmilestones : milestoneIds entries = []) :
    Transaction.empty.Sound s entries (sumOf entries) where
  gain := zero_add _
  sane a h := absurd h (Option.some_ne_none a).symm
  checkin := .inl ⟨hcheckins, fun a h => absurd h (Option.some_ne_none a).symm⟩
  milestones := hmilestones

/-- An update that credits what is to be credited. -/
lemma Transaction.Sound.update (h : tx.Sound s entries d)
    (hpoints : (f (tx.account.getD s.account)).currentPoints =
      (tx.account.getD s.account).currentPoints + d)
    (hsane : (f (tx.account.getD s.account)).Sane)
    (hlast : (f (tx.account.getD s.account)).lastCheckin =
      (tx.account.getD s.account).lastCheckin) :
    Transaction.Sound { tx with account := some (f (tx.account.getD s.account)) } s entries
      0 where
  gain := by
    have hgain := h.gain
    simp only [Transaction.gain, Option.elim_some, hpoints] at hgain ⊢
    cases haccount : tx.account with
    | none =>
      rw [haccount, Option.elim_none] at hgain
      rw [Option.getD_none, ← hgain]
      ring
    | some a =>
      rw [haccount, Option.elim_some] at hgain
      rw [Option.getD_some, ← hgain]
      ring
  sane a ha := Option.some.inj ha ▸ hsane
  checkin := by
    rcases h.checkin with ⟨hcheckins, hsame⟩ | ⟨a, t, haccount, ht, hcheckins, hnow, hbefore⟩
    · refine .inl ⟨hcheckins, fun b hb => ?_⟩
      rw [← Option.some.inj hb, hlast]
      cases haccount : tx.account with
      | none   => rfl
      | some a => exact hsame a haccount
    · rw [haccount, Option.getD_some] at hlast
      refine .inr ⟨_, t, rfl, ?_, hcheckins, hnow, hbefore⟩
      rw [haccount, Option.getD_some, hlast, ht]
  milestones := h.milestones

/-- An entry that is no check-in and no milestone, inserted before its points are credited. -/
lemma Transaction.Sound.insert {pending : List Entry}
    (h : tx.Sound s (tx.entries ++ pending) 0) (hday : e.action.day = none)
    (hmilestone : e.action.milestoneId = none) :
    Transaction.Sound { tx with entries := tx.entries ++ [e] } s ((tx.entries ++ [e]) ++ pending)
      e.amount := by
  have hcheckins : PointsService.checkins ((tx.entries ++ [e]) ++ pending) =
      PointsService.checkins (tx.entries ++ pending) := by
    simp [PointsService.checkins, hday]
  have hids : milestoneIds ((tx.entries ++ [e]) ++ pending) =
      milestoneIds (tx.entries ++ pending) := by
    simp [milestoneIds, hmilestone]
  refine ⟨?_, h.sane, ?_, hids ▸ h.milestones⟩
  · have hgain := h.gain
    simp only [Transaction.gain, sumOf_append, sumOf_cons, sumOf_nil] at hgain ⊢
    omega
  · rw [hcheckins]
    exact h.checkin

lemma Transaction.Sound.record {pending : List Entry}
    (h : tx.Sound s (tx.entries ++ e :: pending) credit) :
    Transaction.Sound { tx with entries := tx.entries ++ [e] } s ((tx.entries ++ [e]) ++ pending)
      credit := by
  rw [List.append_assoc]
  exact ⟨h.gain, h.sane, h.checkin, h.milestones⟩

lemma update_ok {r : State × Transaction} (h : s.update tx f = .ok r)
    (hrow : s.row.isSome = true) :
    r.2 = { tx with account := some (f (tx.account.getD s.account)) } ∧
      (tx.account.isSome = true ∧ r.1 = s ∨
        tx.account = none ∧ s.locked = false ∧ r.1 = { s with locked := true }) := by
  obtain ⟨a, ha⟩ := Option.isSome_iff_exists.mp hrow
  unfold State.update at h
  split at h
  · rename_i b hb
    cases h
    exact ⟨by rw [hb]; rfl, .inl ⟨by rw [hb]; rfl, rfl⟩⟩
  · rename_i hnone
    split_ifs at h with hlocked
    split at h
    · rename_i b hb
      cases h
      refine ⟨?_, .inr ⟨hnone, Bool.eq_false_of_not_eq_true hlocked, rfl⟩⟩
      rw [hnone, State.account, hb]
      rfl
    · rename_i hrow'
      rw [hrow'] at ha
      cases ha

lemma insert_ok {r : State × Transaction × Bool} (h : s.insert tx e = .ok r) :
    ∃ uncommitted, r.1 = { s with uncommitted := uncommitted } ∧
      (r.2 = ({ tx with entries := tx.entries ++ [e] }, true) ∨ r.2 = (tx, false)) := by
  unfold State.insert at h
  split at h
  · cases h
    exact ⟨s.uncommitted, rfl, .inl rfl⟩
  · split_ifs at h
    · cases h
      exact ⟨s.uncommitted, rfl, .inr rfl⟩
    · cases h
      exact ⟨_, rfl, .inl rfl⟩

namespace Sound

/-- Only the lock changes hands. -/
lemma relock (h : Sound s (weight p + rest)) (locked : Bool) (uncommitted : List Reference)
    (hlocked : weight p' .lock + s.locked.toNat = weight p .lock + locked.toNat)
    (hmilestone : p'.milestone = p.milestone)
    (hknows : Knows { s with locked := locked, uncommitted := uncommitted } p') :
    Kept s rest { s with locked := locked, uncommitted := uncommitted } p' where
  sound := by
    have hold := h.locked
    refine ⟨?_, ?_, h.sane, h.checkins, h.last, h.past, fun id => ?_, h.distinct⟩
    · simp only [Pi.add_apply] at hold ⊢
      omega
    · have hbalance := h.balance
      simp only [Pi.add_apply, weight, hmilestone] at hbalance ⊢
      exact hbalance
    · have hmilestones := h.milestones id
      simpa only [Pi.add_apply, weight, hmilestone] using hmilestones
  knows := hknows
  frame := ⟨fun _ => rfl, fun h => h, le_rfl⟩

/-- Only the process moves on. -/
lemma move (h : Sound s (weight p + rest))
    (hlock : weight p' .lock = weight p .lock) (hmilestone : p'.milestone = p.milestone)
    (hknows : Knows s p') : Kept s rest s p' :=
  h.relock s.locked s.uncommitted (by rw [hlock]) hmilestone hknows

/-- The end of a transaction without its commit. -/
lemma finish (h : Sound s (weight p + rest)) (htx : p.transaction = some tx)
    (hmilestone : p.milestone = none) : Kept s rest (s.finish tx) .idle := by
  refine h.relock _ _ ?_ (by rw [hmilestone]; rfl) trivial
  have hlocked := h.locked
  simp only [Pi.add_apply, weight, htx, Option.any_some] at hlocked ⊢
  change 0 + s.locked.toNat = _
  cases haccount : tx.account with
  | none => simp
  | some a =>
    rw [haccount] at hlocked
    cases hs : s.locked with
    | true => rfl
    | false =>
      rw [hs] at hlocked
      simp at hlocked

/-- The row is free for the one that has it. -/
lemma rest_lock (h : Sound s (weight p + rest)) (hp : weight p .lock = 1) : rest .lock = 0 := by
  have hlocked := h.locked
  have hle := Bool.toNat_le s.locked
  simp only [Pi.add_apply, hp] at hlocked
  omega

lemma commit {next : Next} (h : Sound s (weight (.commit tx next) + rest))
    (htx : tx.Sound s tx.entries 0) (hdistinct : (s.milestones ++ tx.milestones).Nodup) :
    Kept s rest (s.commit tx) (.start next) := by
  have hstart : ∀ share, weight (.start next) share = 0 := by
    intro share
    cases next with
    | operations ops => cases ops <;> cases share <;> rfl
    | milestones check => cases check <;> cases share <;> rfl
  have hlocked := h.locked
  have hbalance := h.balance
  simp only [Pi.add_apply, weight, Proc.transaction, Proc.milestone, Option.any_some,
    Option.elim_none, zero_add] at hlocked hbalance
  have haccount : (s.commit tx).account = tx.account.getD s.account := by
    rw [State.commit, State.account, State.account]
    cases tx.account <;> rfl
  have hgain : (tx.account.getD s.account).currentPoints =
      s.account.currentPoints + sumOf tx.entries := by
    have hgain := htx.gain
    rw [Transaction.gain, add_zero] at hgain
    cases htxa : tx.account with
    | none =>
      rw [htxa, Option.elim_none] at hgain
      rw [← hgain, Option.getD_none, add_zero]
    | some a =>
      rw [htxa, Option.elim_some] at hgain
      rw [← hgain, Option.getD_some]
      ring
  refine ⟨⟨?_, ?_, ?_, ?_, fun d hd => ?_, fun t ht => ?_, fun id => ?_, hdistinct⟩, ?_,
    ⟨fun hrest => ?_, fun hsome => ?_, le_rfl⟩⟩
  · simp only [Pi.add_apply, hstart, zero_add, State.commit, State.finish]
    cases htxa : tx.account with
    | none =>
      rw [htxa] at hlocked
      simpa using hlocked
    | some a =>
      rw [htxa] at hlocked
      have hle := Bool.toNat_le s.locked
      simp only [Option.isSome_some, Bool.toNat_true] at hlocked
      simp only [Option.isNone_some, Bool.and_false, Bool.toNat_false]
      omega
  · rw [haccount, hgain]
    simp only [Pi.add_apply, hstart, zero_add, State.commit, sumOf_append]
    omega
  · rw [haccount]
    cases htxa : tx.account with
    | none => exact h.sane
    | some a => exact htx.sane a htxa
  · simp only [State.commit, checkins_append]
    rcases htx.checkin with ⟨hnone, -⟩ | ⟨a, t, -, -, hone, -, hbefore⟩
    · rw [hnone, List.append_nil]
      exact h.checkins
    · rw [hone]
      refine List.nodup_append'.mpr ⟨h.checkins, List.nodup_singleton _, fun d hd hnew => ?_⟩
      obtain ⟨t', ht', hle⟩ := h.last d hd
      have hlt := of_decide_eq_true hbefore t' ht'
      rw [List.mem_singleton] at hnew
      omega
  · rw [haccount]
    simp only [State.commit, checkins_append, List.mem_append] at hd
    rcases htx.checkin with ⟨hnone, hlast⟩ | ⟨a, t, htxa, hlast, hone, -, hbefore⟩
    · rw [hnone] at hd
      obtain ⟨t', ht', hle⟩ := h.last d (hd.resolve_right List.not_mem_nil)
      refine ⟨t', ?_, hle⟩
      cases htxa : tx.account with
      | none => exact ht'
      | some a => rwa [Option.getD_some, hlast a htxa]
    · rw [htxa, Option.getD_some, hlast]
      refine ⟨t, rfl, ?_⟩
      rcases hd with hd | hd
      · obtain ⟨t', ht', hle⟩ := h.last d hd
        have hlt := of_decide_eq_true hbefore t' ht'
        omega
      · rw [hone, List.mem_singleton] at hd
        exact hd.le
  · rw [haccount] at ht
    rcases htx.checkin with ⟨-, hlast⟩ | ⟨a, t', htxa, hlast, -, hnow, -⟩
    · refine h.past t ?_
      cases htxa : tx.account with
      | none =>
        rw [htxa] at ht
        exact ht
      | some a =>
        rw [htxa, Option.getD_some, hlast a htxa] at ht
        exact ht
    · rw [htxa, Option.getD_some, hlast, Option.mem_some_iff] at ht
      exact ht ▸ hnow
  · have hmilestones := h.milestones id
    simp only [Pi.add_apply, weight, Proc.milestone, Option.elim_none, zero_add] at hmilestones
    simp only [Pi.add_apply, hstart, zero_add, State.commit, milestoneIds_append, htx.milestones,
      List.count_append]
    omega
  · cases next with
    | operations ops => cases ops <;> trivial
    | milestones check =>
      cases check
      · trivial
      · exact Nat.zero_le _
  · cases htxa : tx.account with
    | none => rw [State.commit, htxa, Option.none_or]
    | some a =>
      have hzero := h.rest_lock (by simp [weight, Proc.transaction, htxa])
      omega
  · rw [State.commit]
    cases tx.account with
    | none => exact hsome
    | some a => rfl

/-- An update takes the row, if the transaction does not have it. -/
lemma update {r : State × Transaction} (h : Sound s (weight p + rest))
    (hp : weight p .lock = tx.account.isSome.toNat) (hp' : p'.transaction = some r.2)
    (hmilestone : p'.milestone = p.milestone) (hrow : s.row.isSome = true)
    (hupdate : s.update tx f = .ok r) (hknows : Knows s p') : Kept s rest r.1 p' := by
  obtain ⟨htx, ⟨hsome, hs⟩ | ⟨hnone, hfree, hs⟩⟩ := update_ok hupdate hrow
  · rw [hs]
    refine h.move ?_ hmilestone hknows
    rw [hp, hsome]
    simp [weight, hp', htx]
  · rw [hs]
    refine h.relock true s.uncommitted ?_ hmilestone ?_
    · rw [hp, hnone, hfree]
      simp [weight, hp', htx]
    · exact knows_congr (s := s) rfl le_rfl hknows

/-- A reference that is not committed yet changes nothing. -/
lemma reserve (h : Sound s (weight p + rest)) (uncommitted : List Reference)
    (hlock : weight p' .lock = weight p .lock) (hmilestone : p'.milestone = p.milestone)
    (hknows : Knows s p') : Kept s rest { s with uncommitted := uncommitted } p' :=
  h.relock s.locked uncommitted (by rw [hlock]) hmilestone
    (knows_congr (s := s) rfl le_rfl hknows)

/-- The API makes the account. -/
lemma createAccount (h : Sound s (weight p + rest)) (hfree : s.locked = false)
    (hrow : s.row = none) (hlock : weight p' .lock = weight p .lock)
    (hmilestone : p'.milestone = p.milestone) (hknows : Knows { s with row := some .new } p') :
    Kept s rest { s with row := some .new } p' where
  sound := by
    have haccount : State.account { s with row := some .new } = s.account := by
      rw [State.account, State.account, hrow]
      rfl
    refine ⟨?_, ?_, haccount ▸ h.sane, h.checkins, haccount ▸ h.last, haccount ▸ h.past,
      fun id => ?_, h.distinct⟩
    · have hlocked := h.locked
      rwa [Pi.add_apply, ← hlock] at hlocked
    · have hbalance := h.balance
      rw [haccount]
      simp only [Pi.add_apply, weight, hmilestone] at hbalance ⊢
      exact hbalance
    · have hmilestones := h.milestones id
      simpa only [Pi.add_apply, weight, hmilestone] using hmilestones
  knows := hknows
  frame := by
    refine ⟨fun hrest => ?_, fun _ => rfl, le_rfl⟩
    have hlocked := h.locked
    rw [hfree] at hlocked
    simp only [Pi.add_apply, Bool.toNat_false] at hlocked
    omega

/-- A milestone of the API, taken. -/
lemma takeMilestone {m : Milestone} {todo : List Milestone}
    (h : Sound s (weight (.insertMilestone (m :: todo)) + rest)) (hnew : m.id ∉ s.milestones)
    (hrow : s.row.isSome = true) :
    Kept s rest { s with milestones := s.milestones ++ [m.id] } (.creditMilestone m todo) where
  sound := by
    refine ⟨h.locked, ?_, h.sane, h.checkins, h.last, h.past, fun id => ?_, ?_⟩
    · have hbalance := h.balance
      simp only [Pi.add_apply, weight, Proc.milestone, Option.elim_none, Option.elim_some, if_false,
        Bool.false_eq_true] at hbalance ⊢
      exact hbalance
    · have hmilestones := h.milestones id
      simp only [Pi.add_apply, weight, Proc.milestone, Option.elim_none, Option.elim_some,
        zero_add, List.count_append, List.count_singleton, beq_iff_eq] at hmilestones ⊢
      omega
    · exact List.nodup_append'.mpr ⟨h.distinct, List.nodup_singleton _,
        fun id hid hm => hnew (List.mem_singleton.mp hm ▸ hid)⟩
  knows := hrow
  frame := ⟨fun _ => rfl, fun h => h, le_rfl⟩

/-- Credited. -/
lemma creditMilestone {m : Milestone} {todo : List Milestone}
    (h : Sound s (weight (.creditMilestone m todo) + rest)) (hfree : s.locked = false)
    (hrow : s.row.isSome = true) :
    Kept s rest { s with row := s.row.map fun a => a.credit m.pointsReward }
      (.recordMilestone m todo) := by
  obtain ⟨a, ha⟩ := Option.isSome_iff_exists.mp hrow
  have haccount : State.account { s with row := s.row.map fun a => a.credit m.pointsReward } =
      s.account.credit m.pointsReward := by
    rw [State.account, State.account, ha]
    rfl
  refine ⟨⟨h.locked, ?_, ?_, h.checkins, ?_, ?_, h.milestones, h.distinct⟩, ?_,
    ⟨fun hrest => ?_, fun _ => ?_, le_rfl⟩⟩
  · have hbalance := h.balance
    rw [haccount]
    simp only [Account.credit, hbalance, Pi.add_apply, weight, Proc.milestone, Option.elim_some,
      if_true, if_false, Bool.false_eq_true]
    push_cast
    ring
  · rw [haccount]
    exact h.sane.credit (Int.natCast_nonneg _)
  · rw [haccount]
    exact h.last
  · rw [haccount]
    exact h.past
  · simp [Knows, ha]
  · have hlocked := h.locked
    rw [hfree] at hlocked
    simp only [Pi.add_apply, Bool.toNat_false] at hlocked
    omega
  · simp [ha]

/-- And recorded. -/
lemma recordMilestone {m : Milestone} {todo : List Milestone}
    (h : Sound s (weight (.recordMilestone m todo) + rest)) (hrow : s.row.isSome = true) :
    Kept s rest { s with ledger := s.ledger ++ [m.entry] } (.insertMilestone todo) where
  sound := by
    have hcheckins : PointsService.checkins (s.ledger ++ [m.entry]) =
        PointsService.checkins s.ledger := by
      simp [PointsService.checkins, Milestone.entry, Action.day]
    refine ⟨h.locked, ?_, h.sane, hcheckins ▸ h.checkins, hcheckins ▸ h.last, h.past,
      fun id => ?_, h.distinct⟩
    · have hbalance := h.balance
      change s.account.currentPoints = _
      rw [hbalance]
      simp only [Pi.add_apply, weight, Proc.milestone, Option.elim_some, Option.elim_none, if_true,
        sumOf_append, sumOf_cons, sumOf_nil, Milestone.entry]
      push_cast
      ring
    · have hmilestones := h.milestones id
      simp only [Pi.add_apply, weight, Proc.milestone, Option.elim_some, Option.elim_none]
        at hmilestones ⊢
      rw [milestoneIds_append, List.count_append]
      change _ + List.count id [m.id] + _ = _
      simp only [List.count_singleton, beq_iff_eq]
      omega
  knows := hrow
  frame := ⟨fun _ => rfl, fun h => h, le_rfl⟩

end Sound

/-! ### What the operations write -/

lemma Transaction.Sound.of_account (hsane : a.Sane)
    (hpoints : a.currentPoints = s.account.currentPoints + sumOf entries)
    (hlast : a.lastCheckin = s.account.lastCheckin)
    (hcheckins : PointsService.checkins entries = []) {ids : List MilestoneId}
    (hids : milestoneIds entries = ids) :
    Transaction.Sound ⟨some a, entries, ids⟩ s entries 0 where
  gain := by
    rw [Transaction.gain, Option.elim_some, hpoints]
    ring
  sane _ hb := Option.some.inj hb ▸ hsane
  checkin := .inl ⟨hcheckins, fun _ hb => Option.some.inj hb ▸ hlast⟩
  milestones := hids

lemma unchanged_sound (h : s.account.Sane) :
    Transaction.Sound ⟨some s.account, [], []⟩ s [] 0 :=
  .of_account h (add_zero _).symm rfl rfl rfl

lemma debit_sound (h : s.account.Sane) (hcost : (cost : ℤ) ≤ s.account.currentPoints) :
    Transaction.Sound ⟨some (s.account.debit cost), [⟨.redemption, -cost, none⟩], []⟩ s
      [⟨.redemption, -cost, none⟩] 0 :=
  .of_account (h.debit hcost) (by simp [Account.debit, sub_eq_add_neg]) rfl rfl rfl

lemma checkin_sound {total : Share → ℕ} (h : Sound s total)
    (hnew : ¬ ∃ t ∈ s.account.lastCheckin, day t = day s.now) (streak points : ℕ) :
    Transaction.Sound ⟨some ((s.account.checkin s.now streak).credit points).relevel,
      [⟨.checkin (day s.now), points, none⟩], []⟩ s [⟨.checkin (day s.now), points, none⟩] 0 where
  gain := by simp [Transaction.gain, Account.relevel, Account.credit, Account.checkin]
  sane _ hb := by
    obtain rfl := Option.some.inj hb
    exact (h.sane.checkin.credit (Int.natCast_nonneg points)).relevel
  checkin := by
    refine .inr ⟨_, s.now, rfl, rfl, rfl, le_rfl, decide_eq_true fun t ht => ?_⟩
    have hle : day t ≤ day s.now := Nat.div_le_div_right (h.past t ht)
    exact lt_of_le_of_ne hle fun heq => hnew ⟨t, ht, heq⟩
  milestones := rfl

lemma row_isSome {P : Account → Prop} (h : ∃ a ∈ s.row, P a) : s.row.isSome = true := by
  obtain ⟨a, ha, -⟩ := h
  rw [Option.mem_def.mp ha]
  rfl

lemma account_of_row {P : Account → Prop} (h : ∃ a ∈ s.row, P a) : P s.account := by
  obtain ⟨a, ha, hP⟩ := h
  rwa [State.account, Option.mem_def.mp ha]

/-- The check-in of the API, whose guard compares with the day of the call. -/
lemma dailyCheckin_sound {total : Share → ℕ} {now : Time} (h : Sound s total) (hnow : now ≤ s.now)
    (hguard : ∃ a ∈ s.row, isBefore a.lastCheckin now = true) (streak bonus : ℕ) :
    Transaction.Sound { Transaction.empty with
        account := some ((s.account.checkin now streak).credit (10 + bonus)).relevel } s
      ([⟨.checkin (day now), 10, none⟩] ++
        if 0 < bonus then [⟨.streakBonus, bonus, none⟩] else []) 0 where
  gain := by
    rw [sumOf_append, sumOf_ite]
    simp [Transaction.gain, Account.relevel, Account.credit, Account.checkin]
  sane _ hb := by
    obtain rfl := Option.some.inj hb
    exact (h.sane.checkin.credit (by positivity)).relevel
  checkin := by
    refine .inr ⟨_, now, rfl, rfl, ?_, hnow, account_of_row hguard⟩
    split_ifs <;> rfl
  milestones := by split_ifs <;> rfl

lemma perform_sound {total : Share → ℕ} (h : Sound s total) (op : Operation) :
    Transaction.Sound (perform s.now s.account op).1 s
      (perform s.now s.account op).1.entries 0 := by
  cases op with
  | awardPoints points =>
    refine .of_account (h.sane.credit (Int.natCast_nonneg points)).relevel ?_ rfl rfl rfl
    simp [Account.relevel, Account.credit]
  | countSwap swapAmountUsd tickerBoostBps =>
    exact .of_account h.sane.countSwap (add_zero _).symm rfl rfl rfl
  | dailyCheckin =>
    simp only [perform]
    split_ifs with hdone
    · exact unchanged_sound h.sane
    · exact checkin_sound h hdone _ _
  | spendPoints amount | redeemMarketplaceReward amount =>
    simp only [perform]
    split_ifs with hshort
    · exact unchanged_sound h.sane
    · exact debit_sound h.sane (not_lt.mp hshort)
  | checkMilestones => exact unchanged_sound h.sane

lemma perform_account (now : Time) (a : Account) (op : Operation) :
    (perform now a op).1.account.isSome = true := by
  cases op with
  | awardPoints | countSwap | checkMilestones => rfl
  | dailyCheckin | spendPoints | redeemMarketplaceReward =>
    simp only [perform]
    split_ifs <;> rfl

lemma sumOf_milestones (new : List Milestone) :
    sumOf (new.map Milestone.entry) = (new.map fun m => (m.pointsReward : ℤ)).sum := by
  rw [sumOf, List.map_map]
  rfl

lemma awardMilestones_sound (h : s.account.Sane) (new : List Milestone) :
    Transaction.Sound (awardMilestones s.account new) s
      (awardMilestones s.account new).entries 0 := by
  have hnonneg : 0 ≤ (new.map fun m => (m.pointsReward : ℤ)).sum :=
    List.sum_nonneg fun x hx => by
      obtain ⟨m, -, rfl⟩ := List.mem_map.mp hx
      exact Int.natCast_nonneg _
  have hcheckins : PointsService.checkins (new.map Milestone.entry) = [] := by
    rw [PointsService.checkins, List.filterMap_map]
    exact List.filterMap_eq_nil_iff.mpr fun m _ => rfl
  have hids : milestoneIds (new.map Milestone.entry) = new.map Milestone.id := by
    rw [milestoneIds, List.filterMap_map, ← List.filterMap_eq_map]
    rfl
  exact .of_account (h.credit hnonneg) (by rw [sumOf_milestones]; rfl) rfl hcheckins hids

lemma refund_sound (h : tx.Sound s (tx.entries ++ []) 0) (hsane : s.account.Sane)
    (haccount : tx.account.isSome = true) :
    Transaction.Sound (tx.refund cost) s (tx.refund cost).entries 0 := by
  obtain ⟨a, ha⟩ := Option.isSome_iff_exists.mp haccount
  have hinsert := h.insert (e := ⟨.redemptionRefund, cost, none⟩) rfl rfl
  have hcost : -(cost : ℤ) ≤ (tx.account.getD s.account).currentPoints :=
    (neg_nonpos.mpr (Int.natCast_nonneg cost)).trans (h.account_sane hsane).nonneg
  have hupdate := hinsert.update (f := fun a => a.debit (-cost)) (sub_neg_eq_add _ _)
    ((h.account_sane hsane).debit hcost) rfl
  rw [List.append_nil] at hupdate
  rw [Transaction.refund, ha]
  rwa [ha] at hupdate

/-- The first update of a transaction, with the entries that it is for. -/
lemma begin_sound {pending : List Entry} (hsane : (f s.account).Sane)
    (hpoints : (f s.account).currentPoints = s.account.currentPoints + sumOf pending)
    (hlast : (f s.account).lastCheckin = s.account.lastCheckin)
    (hcheckins : PointsService.checkins pending = []) (hids : milestoneIds pending = []) :
    Transaction.Sound { Transaction.empty with account := some (f s.account) } s pending 0 :=
  Transaction.Sound.update (Transaction.Sound.begin hcheckins hids) hpoints hsane hlast

/-! ### Steps -/

/-- The process has one transaction and no milestone under way. -/
lemma update_kept {r : State × Transaction} {pending : List Entry}
    (h : Sound s (weight p + rest)) (hp : p.transaction = none) (hmilestone : p.milestone = none)
    (hrow : s.row.isSome = true) (hupdate : s.update .empty f = .ok r)
    (hsound :
      Transaction.Sound { Transaction.empty with account := some (f s.account) } s pending 0)
    (htx : p'.transaction = some r.2) (hmilestone' : p'.milestone = none)
    (hknows : r.2.Sound s (r.2.entries ++ pending) 0 → Knows s p') : Kept s rest r.1 p' := by
  have hlock : weight p .lock = Transaction.empty.account.isSome.toNat := by
    simp only [weight, hp, Option.any_none]
    rfl
  refine h.update hlock htx (hmilestone'.trans hmilestone.symm) hrow hupdate (hknows ?_)
  rw [(update_ok hupdate hrow).1]
  exact hsound

theorem step_kept {answer : Answer} (h : Sound s (weight p + rest)) (hknows : Knows s p)
    (hstep : step s p answer = .ok (s', p')) : Kept s rest s' p' := by
  cases p with
  | idle =>
    cases answer with
    | operation op =>
      dsimp only [step] at hstep
      cases hstep
      split
      · exact h.move rfl rfl trivial
      · exact h.move rfl rfl trivial
    | request request =>
      cases hstep
      exact h.move rfl rfl le_rfl
    | _ => cases hstep
  -- the bot
  | lockAccount op ops =>
    cases answer with
    | ok =>
      dsimp only [step] at hstep
      split at hstep
      · rename_i a hrow
        split_ifs at hstep with hlocked
        cases hstep
        refine h.relock true s.uncommitted ?_ rfl ?_
        · rw [Bool.eq_false_of_not_eq_true hlocked]
          rfl
        · rw [Knows, State.account, hrow]
          rfl
      · cases hstep
        split_ifs
        · exact h.move rfl rfl trivial
        · exact h.move rfl rfl trivial
    | _ => cases hstep
  | insertAccount op ops =>
    cases answer with
    | ok =>
      dsimp only [step] at hstep
      split_ifs at hstep with hlocked
      split at hstep
      · cases hstep
        exact h.move rfl rfl trivial
      · rename_i hrow
        cases hstep
        refine h.relock true s.uncommitted ?_ rfl ?_
        · rw [Bool.eq_false_of_not_eq_true hlocked]
          rfl
        · rw [Knows, State.account, hrow]
          rfl
    | _ => cases hstep
  | perform op a ops =>
    cases answer with
    | milestones active referralCount =>
      cases op with
      | checkMilestones =>
        cases hstep
        exact h.move rfl rfl hknows
      | _ => cases hstep
    | ok =>
      obtain rfl := hknows
      cases op with
      | redeemMarketplaceReward cost =>
        dsimp only [step] at hstep
        cases hstep
        split_ifs with hshort
        · exact h.move rfl rfl (unchanged_sound h.sane)
        · have hperform := perform_sound h (.redeemMarketplaceReward cost)
          have haccount := perform_account s.now s.account (.redeemMarketplaceReward cost)
          refine h.move ?_ rfl ⟨by rwa [List.append_nil], haccount⟩
          simp only [weight, Proc.transaction, Option.any_some, haccount]
          rfl
      | _ =>
        cases hstep
        refine h.move ?_ rfl (perform_sound h _)
        simp only [weight, Proc.transaction, Option.any_some, perform_account]
        rfl
    | _ => cases op <;> cases hstep
  | readAchieved a active referralCount ops =>
    cases answer with
    | ok =>
      cases hstep
      obtain rfl := hknows
      exact h.move rfl rfl (awardMilestones_sound h.sane _)
    | _ => cases hstep
  | fulfill cost tx ops =>
    cases answer with
    | fulfilled success =>
      cases hstep
      cases success with
      | true =>
        have hsound := hknows.1
        rw [List.append_nil] at hsound
        exact h.move rfl rfl hsound
      | false =>
        refine h.move ?_ rfl (refund_sound hknows.1 h.sane hknows.2)
        simp only [weight, Proc.transaction, Option.any_some, Transaction.refund,
          Bool.false_eq_true, if_false, Option.isSome_map]
    | _ => cases hstep
  -- the account of the API
  | getOrCreate request now =>
    cases answer with
    | ok =>
      dsimp only [step] at hstep
      split at hstep
      · rename_i a hrow
        cases hstep
        have hsome : s.row.isSome = true := by rw [hrow]; rfl
        cases request with
        | redeemReward cost =>
          simp only [Proc.begin]
          split_ifs
          · exact h.move rfl rfl trivial
          · exact h.move rfl rfl trivial
        | awardPoints | awardSwapPoints | checkMilestones => exact h.move rfl rfl hsome
        | dailyCheckin => exact h.move rfl rfl hknows
      · cases hstep
        exact h.move rfl rfl hknows
    | _ => cases hstep
  | createAccount request now =>
    cases answer with
    | ok =>
      dsimp only [step] at hstep
      split_ifs at hstep with hlocked
      split at hstep
      · cases hstep
        exact h.move rfl rfl trivial
      · rename_i hrow
        cases hstep
        have hfree := Bool.eq_false_of_not_eq_true hlocked
        cases request with
        | redeemReward cost =>
          simp only [Proc.begin]
          split_ifs
          · exact h.createAccount hfree hrow rfl rfl trivial
          · exact h.createAccount hfree hrow rfl rfl trivial
        | awardPoints | awardSwapPoints | checkMilestones =>
          exact h.createAccount hfree hrow rfl rfl rfl
        | dailyCheckin => exact h.createAccount hfree hrow rfl rfl hknows
    | _ => cases hstep
  -- the transactions of the API
  | award points snapshot =>
    cases answer with
    | ok =>
      obtain ⟨r, hupdate, heq⟩ := Program.map_ok_iff.mp hstep
      cases heq
      have hpending : Transaction.Sound { Transaction.empty with
          account := some (s.account.credit points).relevel } s [⟨.award, points, none⟩] 0 :=
        begin_sound (f := fun a => (a.credit points).relevel)
          (h.sane.credit (Int.natCast_nonneg points)).relevel
          (by simp [Account.relevel, Account.credit]) rfl rfl rfl
      exact update_kept h rfl rfl hknows hupdate hpending rfl rfl fun hsound => ⟨hsound, hknows⟩
    | _ => cases hstep
  | checkin now snapshot =>
    cases answer with
    | ok =>
      dsimp only [step] at hstep
      by_cases hguard : ∃ a ∈ s.row, isBefore a.lastCheckin now
      · rw [if_pos hguard] at hstep
        obtain ⟨r, hupdate, heq⟩ := Program.map_ok_iff.mp hstep
        cases heq
        have hsome := row_isSome hguard
        exact update_kept h rfl rfl hsome hupdate (dailyCheckin_sound h hknows hguard _ _) rfl rfl
          fun hsound => ⟨hsound, hsome⟩
      · rw [if_neg hguard] at hstep
        cases hstep
        exact h.move rfl rfl trivial
    | _ => cases hstep
  | firstSwap now swapAmountUsd swapId snapshot =>
    cases answer with
    | ok =>
      dsimp only [step] at hstep
      split_ifs at hstep with hguard
      · obtain ⟨r, hupdate, heq⟩ := Program.map_ok_iff.mp hstep
        cases heq
        have hsane := h.sane.credit (show (0 : ℤ) ≤ 50 by norm_num)
        have hpending : Transaction.Sound { Transaction.empty with
            account := some { (s.account.credit 50).relevel with lastSwapDate := some now } } s
            [⟨.firstSwapDaily, 50, none⟩] 0 :=
          begin_sound (f := fun a => { (a.credit 50).relevel with lastSwapDate := some now })
            ⟨hsane.earned, hsane.nonneg⟩ rfl rfl rfl rfl
        exact update_kept h rfl rfl hknows hupdate hpending rfl rfl fun hsound => ⟨hsound, hknows⟩
      · cases hstep
        exact h.move rfl rfl ⟨.begin rfl rfl, hknows⟩
    | _ => cases hstep
  | insertVolume swapAmountUsd swapId snapshot tx pending =>
    cases answer with
    | ok =>
      dsimp only [step] at hstep
      split_ifs at hstep with hsmall
      · cases hstep
        exact h.move rfl rfl hknows
      · obtain ⟨⟨s₁, tx₁, inserted⟩, hinsert, heq⟩ := Program.map_ok_iff.mp hstep
        cases heq
        obtain ⟨uncommitted, rfl, hr | hr⟩ := insert_ok hinsert
        · cases hr
          exact h.reserve uncommitted rfl rfl ⟨hknows.1.insert rfl rfl, hknows.2, not_le.mp hsmall⟩
        · cases hr
          exact h.reserve uncommitted rfl rfl hknows
    | _ => cases hstep
  | creditVolume swapAmountUsd snapshot tx pending =>
    cases answer with
    | ok =>
      obtain ⟨r, hupdate, heq⟩ := Program.map_ok_iff.mp hstep
      cases heq
      obtain ⟨hsound, hrow, hpoints⟩ := hknows
      have hsane := (hsound.account_sane h.sane).credit hpoints.le
      have hcredited := hsound.update (f := fun a =>
        { (a.credit (volumePoints swapAmountUsd)).relevel with
          totalSwaps := a.totalSwaps + 1
          totalVolumeUsd := a.totalVolumeUsd + swapAmountUsd })
        rfl ⟨hsane.earned, hsane.nonneg⟩ rfl
      refine h.update rfl rfl rfl hrow hupdate ⟨?_, hrow⟩
      rw [(update_ok hupdate hrow).1]
      exact hcredited
    | _ => cases hstep
  | debit cost =>
    cases answer with
    | ok =>
      dsimp only [step] at hstep
      split_ifs at hstep with hguard
      · obtain ⟨r, hupdate, heq⟩ := Program.map_ok_iff.mp hstep
        cases heq
        have hrow := row_isSome hguard
        have hpending : Transaction.Sound { Transaction.empty with
            account := some (s.account.debit cost) } s [⟨.redemption, -cost, none⟩] 0 :=
          begin_sound (f := fun a => a.debit cost) (h.sane.debit (account_of_row hguard))
            (by simp [Account.debit, sub_eq_add_neg]) rfl rfl rfl
        exact update_kept h rfl rfl hrow hupdate hpending rfl rfl fun hsound => ⟨hsound, hrow⟩
      · cases hstep
        exact h.move rfl rfl trivial
    | _ => cases hstep
  | insertEntries tx pending snapshot check =>
    cases answer with
    | ok =>
      cases pending with
      | cons e pending =>
        have hnext : step s (.insertEntries tx (e :: pending) snapshot check) .ok =
            .ok (s, .insertEntries { tx with entries := tx.entries ++ [e] } pending snapshot
              check) := by
          cases snapshot <;> rfl
        rw [hnext] at hstep
        cases hstep
        exact h.move rfl rfl ⟨hknows.1.record, hknows.2⟩
      | nil =>
        have hsound := hknows.1
        rw [List.append_nil] at hsound
        cases snapshot with
        | none =>
          cases hstep
          exact h.move rfl rfl hsound
        | some a =>
          cases hstep
          exact h.move rfl rfl ⟨hsound, hknows.2⟩
    | outOfStock =>
      cases snapshot with
      | none =>
        have hfinish : step s (.insertEntries tx pending none check) .outOfStock =
            .ok (s.finish tx, .idle) := by
          cases pending <;> rfl
        rw [hfinish] at hstep
        cases hstep
        exact h.finish rfl rfl
      | some a => cases pending <;> cases hstep
    | _ => cases pending <;> cases snapshot <;> cases hstep
  | levelUp snapshot tx check =>
    cases answer with
    | ok =>
      dsimp only [step] at hstep
      split_ifs at hstep with hsame
      · cases hstep
        exact h.move rfl rfl hknows.1
      · obtain ⟨⟨s₁, tx₁, inserted⟩, hinsert, heq⟩ := Program.map_ok_iff.mp hstep
        cases heq
        obtain ⟨uncommitted, rfl, hr | hr⟩ := insert_ok hinsert
        · cases hr
          refine h.reserve uncommitted rfl rfl ⟨?_, hknows.2⟩
          have hsound := hknows.1
          rw [← tx.entries.append_nil] at hsound
          have hinserted := hsound.insert
            (e := ⟨.levelUp, 100, some (.levelUp (levelFromXp (snapshot.xp +
              (tx.entries.map Entry.amount).sum)))⟩) rfl rfl
          rwa [List.append_nil] at hinserted
        · cases hr
          exact h.reserve uncommitted rfl rfl hknows.1
    | _ => cases hstep
  | creditLevel tx check =>
    cases answer with
    | ok =>
      obtain ⟨r, hupdate, heq⟩ := Program.map_ok_iff.mp hstep
      cases heq
      obtain ⟨hsound, hrow⟩ := hknows
      have hcredited := hsound.update (f := fun a => (a.credit 100).relevel) rfl
        ((hsound.account_sane h.sane).credit (by norm_num)).relevel rfl
      refine h.update rfl rfl rfl hrow hupdate ?_
      rw [(update_ok hupdate hrow).1]
      exact hcredited
    | _ => cases hstep
  | commit tx next =>
    cases answer with
    | ok =>
      dsimp only [step] at hstep
      split_ifs at hstep with hdistinct
      · cases hstep
        exact h.commit hknows hdistinct
      · cases hstep
        exact h.finish rfl rfl
    | raises =>
      cases hstep
      exact h.finish rfl rfl
    | _ => cases hstep
  -- the milestones of the API
  | getMilestones snapshot =>
    cases answer with
    | milestones active referralCount =>
      cases hstep
      exact h.move rfl rfl hknows
    | _ => cases hstep
  | getAchieved snapshot active =>
    cases answer with
    | ok =>
      cases hstep
      exact h.move rfl rfl hknows
    | _ => cases hstep
  | insertMilestone todo =>
    cases answer with
    | ok =>
      cases todo with
      | nil =>
        cases hstep
        exact h.move rfl rfl trivial
      | cons m todo =>
        dsimp only [step] at hstep
        split_ifs at hstep with htaken
        · cases hstep
          exact h.move rfl rfl trivial
        · cases hstep
          exact h.takeMilestone htaken hknows
    | _ => cases todo <;> cases hstep
  | creditMilestone m todo =>
    cases answer with
    | ok =>
      dsimp only [step] at hstep
      split_ifs at hstep with hlocked
      cases hstep
      exact h.creditMilestone (Bool.eq_false_of_not_eq_true hlocked) hknows
    | _ => cases hstep
  | recordMilestone m todo =>
    cases answer with
    | ok =>
      cases hstep
      exact h.recordMilestone hknows
    | _ => cases hstep

/-! ### Runs -/

lemma environment_sound {total : Share → ℕ} {event : Event} (h : Sound s total)
    (hevent : environment s event = .ok s') : Sound s' total ∧ Frame s s' total := by
  cases event with
  | elapse duration =>
    cases hevent
    exact ⟨⟨h.locked, h.balance, h.sane, h.checkins, h.last,
      fun t ht => (h.past t ht).trans (Nat.le_add_right _ _), h.milestones, h.distinct⟩,
      fun _ => rfl, fun h => h, Nat.le_add_right _ _⟩

theorem inductive_sound :
    program.Inductive weight Sound Knows (fun _ _ _ _ => True) fun _ _ _ => True where
  step h hknows _ hstep := ⟨(step_kept h hknows hstep).sound, (step_kept h hknows hstep).knows⟩
  stable h hknows _ hstep hq hknows' := (step_kept h hknows hstep).frame.knows hq hknows'
  environment h _ hevent :=
    ⟨(environment_sound h hevent).1, fun _ hq => (environment_sound h hevent).2.knows hq⟩

variable {n : ℕ}

lemma total_idle {c : Program.Config State Proc n} (h : ∀ i, c.procs i = .idle) :
    c.total weight = 0 :=
  Finset.sum_eq_zero fun i _ => by
    rw [h i]
    funext share
    cases share <;> rfl

lemma initial_sound (n : ℕ) (now : Time) :
    Program.Invariant weight Sound Knows (initial n now) where
  shared := by
    rw [total_idle fun _ => rfl]
    exact ⟨rfl, rfl, .new, List.nodup_nil, nofun, nofun, fun _ => rfl, List.nodup_nil⟩
  knows _ := trivial

/-- However the operations interleave, the ledger balances. -/
theorem consistent (n : ℕ) (now : Time) (as : List (Program.Action n Answer Event)) :
    Consistent ((program.machine n).run (initial n now) as) := by
  have h := (inductive_sound.run_always as (initial_sound n now)).shared
  refine ⟨fun hidle => ?_, h.sane, h.checkins, List.nodup_iff_count_le_one.mpr fun id => ?_⟩
  · rw [h.balance, total_idle hidle]
    exact add_zero _
  · have hcount := h.milestones id
    have hle := List.nodup_iff_count_le_one.mp h.distinct id
    omega

end Suwappu.PointsService
