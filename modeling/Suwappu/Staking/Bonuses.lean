import Suwappu.Staking.Solvency

/-!
# The bonus record of an epoch

A batch of bonuses is written into the record of the current epoch. The record is what the epoch
got as long as the epoch got one batch.
-/

namespace Suwappu.Staking

open Checked

variable {C : Contracts} {env : Env} {s s' : State} {call : Call C}

/-- `epochs[e].suwpBonusPool` -/
def bonusRecord (s : State) (e : ℕ) : ℕ := (s.staking.epochs e).suwpBonusPool

/-- The bonuses that a call credits in epoch `e`. -/
def credited (s : State) : Call C → ℕ → ℕ
  | .staking env (.distributeSuwpBonus stakers amounts), e =>
    if (distributeSuwpBonus C env s stakers amounts).isOk ∧ e = s.staking.currentEpoch then
      amounts.sum
    else 0
  | _, _ => 0

/-- A batch is accepted in an epoch whose record is not empty. -/
def Overwrites (s : State) : Call C → Bool
  | .staking env (.distributeSuwpBonus stakers amounts) =>
    (distributeSuwpBonus C env s stakers amounts).isOk
      && bonusRecord s s.staking.currentEpoch ≠ 0
  | _ => false

/-- Epochs that have not begun have no bonuses. -/
def Ahead (s : State) : Prop := ∀ e, s.staking.currentEpoch < e → bonusRecord s e = 0

/-! ### One call -/

lemma bonusRecord_of_epochs {k : ℕ} {info : EpochInfo}
    (h : s'.staking.epochs = Function.update s.staking.epochs k info) :
    bonusRecord s' = Function.update (bonusRecord s) k info.suwpBonusPool := by
  ext e
  rw [bonusRecord, h]
  by_cases he : e = k
  · subst he
    rw [Function.update_self, Function.update_self]
  · rw [Function.update_of_ne he, Function.update_of_ne he, bonusRecord]

lemma distributeSuwpBonus_epochs {stakers : List Address} {amounts : List ℕ}
    (h : distributeSuwpBonus C env s stakers amounts = .ok s') :
    s'.staking.currentEpoch = s.staking.currentEpoch ∧
      bonusRecord s' = Function.update (bonusRecord s) s.staking.currentEpoch amounts.sum := by
  simp only [distributeSuwpBonus, bind_ok_iff, guard_ok_iff, exists_const, addU_ok_iff,
    pure_ok_iff] at h
  obtain ⟨-, -, -, -, total, htotal, _, -, _, -, -, claimable, -, _, -, rfl⟩ := h
  refine ⟨rfl, ?_⟩
  have hsum := sumAmounts_ok htotal
  rw [Nat.zero_add] at hsum
  rw [bonusRecord_of_epochs rfl, hsum]

lemma fundStream_epochs {usdcAmount durationSeconds : ℕ}
    (h : fundStream env s usdcAmount durationSeconds = .ok s') :
    s'.staking.currentEpoch = s.staking.currentEpoch + 1 ∧
      bonusRecord s' = Function.update (bonusRecord s) (s.staking.currentEpoch + 1) 0 := by
  simp only [fundStream, bind_ok_iff, guard_ok_iff, exists_const, addU_ok_iff, mulU_ok_iff,
    pure_ok_iff] at h
  obtain ⟨-, -, -, -, -, -, _, ⟨-, rfl⟩, -, _, -, -, -, -, -, rfl⟩ := h
  refine ⟨rfl, ?_⟩
  rw [bonusRecord_of_epochs rfl]

/-- A call says what it does to the record: it keeps epochs to come empty, it raises no epoch by
more than it credits there, and only an overwriting batch by less. -/
structure Records (s s' : State) (call : Call C) : Prop where
  ahead : Ahead s → Ahead s'
  le : ∀ e, bonusRecord s' e ≤ bonusRecord s e + credited s call e
  exact_iff : Overwrites s call = false ↔
    ∀ e, bonusRecord s' e = bonusRecord s e + credited s call e

/-- What neither begins an epoch nor writes a record. -/
lemma Records.of_same (hcredit : credited s call = fun _ => 0) (hkeep : Overwrites s call = false)
    (hcur : s'.staking.currentEpoch = s.staking.currentEpoch)
    (hepochs : s'.staking.epochs = s.staking.epochs) : Records s s' call := by
  have hrecord : bonusRecord s' = bonusRecord s := by
    ext e
    rw [bonusRecord, hepochs, bonusRecord]
  refine ⟨fun hA e he => ?_, fun e => ?_, ?_⟩
  · rw [hrecord]
    exact hA e (hcur ▸ he)
  · rw [hrecord]
    exact Nat.le_add_right _ _
  · rw [hrecord, hcredit]
    exact iff_of_true hkeep fun _ => rfl

lemma fundStream_records (hA : Ahead s) {usdcAmount durationSeconds : ℕ}
    (h : fundStream env s usdcAmount durationSeconds = .ok s') :
    Records s s' (.staking env (.fundStream usdcAmount durationSeconds) : Call C) := by
  obtain ⟨hcur, hrecord⟩ := fundStream_epochs h
  have hsame : bonusRecord s' = bonusRecord s := by
    rw [hrecord, ← hA (s.staking.currentEpoch + 1) (Nat.lt_succ_self _), Function.update_eq_self]
  refine ⟨fun _ e he => ?_, fun e => ?_, ?_⟩
  · rw [hsame]
    exact hA e (by omega)
  · rw [hsame]
    exact Nat.le_add_right _ _
  · rw [hsame]
    exact iff_of_true rfl fun _ => rfl

lemma distributeSuwpBonus_records {stakers : List Address} {amounts : List ℕ}
    (h : distributeSuwpBonus C env s stakers amounts = .ok s') :
    Records s s' (.staking env (.distributeSuwpBonus stakers amounts) : Call C) := by
  obtain ⟨hcur, hrecord⟩ := distributeSuwpBonus_epochs h
  have hisOk : (distributeSuwpBonus C env s stakers amounts).isOk = true := by
    rw [h]
    rfl
  have hcredit : ∀ e, credited s (.staking env (.distributeSuwpBonus stakers amounts) : Call C) e
      = if e = s.staking.currentEpoch then amounts.sum else 0 := by
    intro e
    rw [credited, hisOk]
    simp only [true_and]
  refine ⟨fun hA e he => ?_, fun e => ?_, ?_⟩
  · rw [hrecord, Function.update_of_ne (by omega)]
    exact hA e (by omega)
  · rw [hcredit, hrecord, Function.update_apply]
    split <;> omega
  · rw [Overwrites, hisOk, Bool.true_and, decide_eq_false_iff_not, not_not]
    constructor
    · intro hempty e
      rw [hcredit, hrecord, Function.update_apply]
      split
      · rename_i he
        rw [he, hempty, Nat.zero_add]
      · rfl
    · intro hexact
      have hcurrent := hexact s.staking.currentEpoch
      rw [hcredit, hrecord, Function.update_self, if_pos rfl] at hcurrent
      omega

lemma apply_records (hA : Ahead s) {op : Op} (h : apply C env s op = .ok s') :
    Records s s' (.staking env op : Call C) := by
  cases op with
  | fundStream usdcAmount durationSeconds => exact fundStream_records hA h
  | distributeSuwpBonus stakers amounts => exact distributeSuwpBonus_records h
  | stake amount =>
    simp only [apply, stake, bind_ok_iff, pure_ok_iff] at h
    obtain ⟨-, -, -, -, suwp, -, _, -, _, -, -, -, rfl⟩ := h
    exact .of_same rfl rfl rfl rfl
  | unstake amount =>
    simp only [apply, unstake, bind_ok_iff, pure_ok_iff] at h
    obtain ⟨-, -, -, -, _, -, _, -, -, -, suwp, -, rfl⟩ := h
    exact .of_same rfl rfl rfl rfl
  | emergencyUnstake =>
    simp only [apply, emergencyUnstake, bind_ok_iff, pure_ok_iff] at h
    obtain ⟨-, -, -, -, _, -, suwp, -, rfl⟩ := h
    exact .of_same rfl rfl rfl rfl
  | claimSuwpBonus =>
    simp only [apply, claimSuwpBonus, bind_ok_iff, pure_ok_iff] at h
    obtain ⟨-, -, _, -, suwp, -, rfl⟩ := h
    exact .of_same rfl rfl rfl rfl
  | recoverToken token amount =>
    simp only [apply, recoverToken, bind_ok_iff] at h
    obtain ⟨-, -, h⟩ := h
    split at h
    · simp only [bind_ok_iff, pure_ok_iff] at h
      obtain ⟨_, -, -, -, suwp, -, rfl⟩ := h
      exact .of_same rfl rfl rfl rfl
    · simp only [bind_ok_iff, pure_ok_iff] at h
      obtain ⟨-, -, rfl⟩ := h
      exact .of_same rfl rfl rfl rfl
  | depositVaultYield usdcAmount =>
    simp only [apply, depositVaultYield, bind_ok_iff, pure_ok_iff] at h
    obtain ⟨-, -, -, -, -, -, yieldPool, -, rfl⟩ := h
    exact .of_same rfl rfl rfl rfl
  | pause =>
    simp only [apply, pause, bind_ok_iff, pure_ok_iff] at h
    obtain ⟨-, -, -, -, rfl⟩ := h
    exact .of_same rfl rfl rfl rfl
  | unpause =>
    simp only [apply, unpause, bind_ok_iff, pure_ok_iff] at h
    obtain ⟨-, -, -, -, rfl⟩ := h
    exact .of_same rfl rfl rfl rfl
  | transferOwnership newOwner =>
    simp only [apply, transferOwnership, bind_ok_iff, pure_ok_iff] at h
    obtain ⟨-, -, -, -, rfl⟩ := h
    exact .of_same rfl rfl rfl rfl
  | renounceOwnership =>
    simp only [apply, renounceOwnership, bind_ok_iff, pure_ok_iff] at h
    obtain ⟨-, -, rfl⟩ := h
    exact .of_same rfl rfl rfl rfl

/-- A call that is refused credits nothing. -/
lemma records_of_error {e : Error} (h : step C s call = .error e) : Records s s call := by
  cases call with
  | suwp caller other op => exact .of_same rfl rfl rfl rfl
  | staking env op =>
    cases op with
    | distributeSuwpBonus stakers amounts =>
      change distributeSuwpBonus C env s stakers amounts = .error e at h
      refine .of_same ?_ ?_ rfl rfl
      · ext e
        rw [credited, h]
        rfl
      · rw [Overwrites, h]
        rfl
    | _ => exact .of_same rfl rfl rfl rfl

lemma exec_records (hA : Ahead s) (call : Call C) : Records s ((machine C).exec s call) call := by
  cases hstep : step C s call with
  | error e =>
    rw [Machine.exec_error (M := machine C) hstep]
    exact records_of_error hstep
  | ok s' =>
    rw [Machine.exec_ok (M := machine C) hstep]
    cases call with
    | staking env op => exact apply_records hA hstep
    | suwp caller other op =>
      simp only [step, bind_ok_iff, suwpCall_ok_iff, pure_ok_iff] at hstep
      obtain ⟨suwp, -, rfl⟩ := hstep
      exact .of_same rfl rfl rfl rfl

/-! ### Runs -/

/-- After any run, the record of every epoch is the sum of the bonuses credited in it, if and only
if no batch was accepted in an epoch whose record was not empty. -/
theorem bonusRecord_eq_iff (C : Contracts) (owner : Address) (calls : List (Call C)) :
    (∀ e, bonusRecord ((machine C).run (.init owner) calls) e
      = (machine C).tally credited e (.init owner) calls) ↔
    (machine C).Along (fun s call => Overwrites s call = false) (.init owner) calls := by
  have hA : Ahead (.init owner) := fun _ _ => rfl
  rw [Machine.along_iff_tally (M := machine C) (r := bonusRecord) (w := credited) (I := Ahead)
    (fun s call hs => (exec_records hs call).ahead hs)
    (fun s call e hs => (exec_records hs call).le e)
    (fun s call hs => (exec_records hs call).exact_iff) calls hA]
  refine forall_congr' fun e => ?_
  have hempty : bonusRecord (.init owner) e = 0 := rfl
  rw [hempty, Nat.zero_add]

def bonusContracts : Contracts := ⟨1, 2, 3, by decide⟩

/-- Everything that the owner calls goes through. -/
def obliging (owner : Address) : Env where
  sender := owner
  blockNumber := 1
  timestamp := 1
  succeeds _ := true
  updateMemberUnits _ _ := .returns true

/-- The staking contract gets 15 SUWP, and the owner hands them out in two batches. -/
def twoBatches : List (Call bonusContracts) :=
  [.suwp 9 (by decide) (.mint 1 15),
    .staking (obliging 9) (.distributeSuwpBonus [4] [10]),
    .staking (obliging 9) (.distributeSuwpBonus [5] [5])]

/-- Of the 15 that were credited the record of the epoch has 5. -/
theorem second_batch_overwrites : ¬ ∀ e,
    bonusRecord ((machine bonusContracts).run (.init 9) twoBatches) e
      = (machine bonusContracts).tally credited e (.init 9) twoBatches := by
  intro h
  have hepoch := h 0
  revert hepoch
  decide +kernel

end Suwappu.Staking
