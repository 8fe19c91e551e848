import Suwappu.SwapEngine.Attempts

/-!
# What follows a broadcast

A call whose executor has returned a transaction hash, with any of its later steps failing.
`submitted_iff`: it keeps the swap from FAILED and returns just in case neither the session that
stores the hash nor the one that reads the record again fails.
-/

namespace Suwappu.SwapEngine.Attempts

/-- Which stages fail, and whether what they write is applied nevertheless. -/
abbrev Faults := Stage → Option Bool

def Faults.answer (faults : Faults) (stage : Stage) : Answer :=
  match faults stage with
  | none         => .ok
  | some applied => .fails applied false

/-- The call goes on for so many steps, or to its end. -/
def settle (faults : Faults) : ℕ → State → Proc → State × Proc
  | 0, s, p     => (s, p)
  | n + 1, s, p =>
    match step s p (faults.answer p.stage) with
    | .ok (s', p') => settle faults n s' p'
    | .error _     => (s, p)

/-- What a limit order makes of the end of its call: it becomes EXECUTED, stays as it is, or is
FAILED. -/
inductive LimitOutcome where
  | EXECUTED | TRIGGERED | FAILED
deriving DecidableEq, Repr

/-- `_execute_limit_order`, after the call -/
def limitOutcome (s : State) : Stage → LimitOutcome
  | .returned swapId =>
    if ∃ t ∈ s.swaps[swapId]?, t.status = .SUBMITTED then .EXECUTED else .TRIGGERED
  | _ => .FAILED

/-- The call has ended with its swap, which is not recorded as failed, and its limit order has not
either. -/
structure Submitted (s : State) (p : Proc) (id : SwapId) : Prop where
  returned : p.stage = .returned id
  status : ∃ t ∈ s.swaps[id]?, t.status ≠ .FAILED
  order : limitOutcome s p.stage ≠ .FAILED

variable {faults : Faults} {s : State} {p : Proc} {id : SwapId}

lemma settle_ok (n : ℕ) (hended : p.stage.ended = false) (hfault : faults p.stage = none) :
    settle faults (n + 1) s p = settle faults n (complete s p).1 (complete s p).2 := by
  simp only [settle, step, Faults.answer, hended, hfault, Bool.false_eq_true, if_false]

lemma settle_fails (n : ℕ) (hended : p.stage.ended = false) (hstarted : p.started = true)
    {applied : Bool} (hfault : faults p.stage = some applied) :
    settle faults (n + 1) s p =
      settle faults n (if applied then (complete s p).1 else s) (p.enter p.stage.onException) := by
  simp only [settle, step, Faults.answer, hended, hfault, hstarted, Proc.enter, Bool.false_eq_true,
    if_false, Bool.true_or]

lemma settle_ended (n : ℕ) (hended : p.stage.ended = true) : settle faults n s p = (s, p) := by
  cases n with
  | zero   => rfl
  | succ n => simp only [settle, step, hended, if_true]

/-- What is guarded by itself goes on in any case. -/
lemma settle_guarded (n : ℕ) {next : Stage} (hended : p.stage.ended = false)
    (hstarted : p.started = true) (hcomplete : complete s p = (s, p.enter next))
    (hexception : p.stage.onException = next) :
    settle faults (n + 1) s p = settle faults n s (p.enter next) := by
  cases hfault : faults p.stage with
  | none => rw [settle_ok n hended hfault, hcomplete]
  | some applied =>
    rw [settle_fails n hended hstarted hfault, hcomplete, hexception, ite_self]

/-- The five steps between the two sessions on the record. -/
lemma settle_recordSpend (n : ℕ) (hstage : p.stage = .recordSpend) (hstarted : p.started = true) :
    settle faults (n + 5) s p = settle faults n s (p.enter .refetch) := by
  obtain ⟨userId, idempotencyKey, stage, swapId, started⟩ := p
  subst hstage hstarted
  rw [settle_guarded _ rfl rfl rfl rfl, settle_guarded _ rfl rfl rfl rfl,
    settle_guarded _ rfl rfl rfl rfl, settle_guarded _ rfl rfl rfl rfl,
    settle_guarded _ rfl rfl rfl rfl]
  rfl

/-- The failure path raises, whatever becomes of its writes. -/
lemma settle_markFailed (n : ℕ) (hstage : p.stage = .markFailed) (hstarted : p.started = true) :
    (settle faults (n + 2) s p).2.stage = .raised := by
  obtain ⟨userId, idempotencyKey, stage, swapId, started⟩ := p
  subst hstage hstarted
  cases hfault : faults .markFailed with
  | none =>
    rw [settle_ok _ rfl hfault, settle_guarded _ rfl rfl rfl rfl, settle_ended _ rfl]
    rfl
  | some applied =>
    rw [settle_fails _ rfl rfl hfault, settle_ended _ rfl]
    rfl

/-- With a record of its own, after the executor has returned a hash. -/
theorem submitted_iff (faults : Faults) (s : State) (p : Proc) (id : SwapId)
    (hstage : p.stage = .updateTxHash) (hstarted : p.started = true) (hid : p.swapId = some id)
    (hrow : id < s.swaps.length) :
    Submitted (settle faults 9 s p).1 (settle faults 9 s p).2 id ↔
      faults .updateTxHash = none ∧ faults .refetch = none := by
  obtain ⟨userId, idempotencyKey, stage, swapId, started⟩ := p
  subst hstage hstarted hid
  cases hfault : faults .updateTxHash with
  | some applied =>
    refine ⟨fun h => ?_, nofun⟩
    have hreturned := h.returned
    rw [settle_fails _ rfl rfl hfault, settle_markFailed _ rfl rfl] at hreturned
    cases hreturned
  | none =>
    have hstatus : ∃ t ∈ (s.setStatus (some id) .SUBMITTED).swaps[id]?, t.status = .SUBMITTED := by
      simp [State.setStatus, hrow]
    rw [settle_ok _ rfl hfault, settle_recordSpend 3 rfl rfl]
    cases hfault' : faults .refetch with
    | some applied =>
      refine ⟨fun h => ?_, fun h => absurd h.2 (Option.some_ne_none applied)⟩
      have hreturned := h.returned
      rw [settle_fails _ rfl rfl hfault', settle_markFailed _ rfl rfl] at hreturned
      cases hreturned
    | none =>
      rw [settle_ok _ rfl hfault', settle_ended _ rfl]
      refine ⟨fun _ => ⟨rfl, rfl⟩, fun _ => ⟨rfl, ?_, ?_⟩⟩
      · obtain ⟨t, ht, hsubmitted⟩ := hstatus
        exact ⟨t, ht, by simp [hsubmitted]⟩
      · change limitOutcome (s.setStatus (some id) .SUBMITTED) (.returned id) ≠ .FAILED
        rw [limitOutcome, if_pos hstatus]
        exact LimitOutcome.noConfusion

/-- A call that has just broadcast. -/
def broadcastCall : Proc := ⟨7, some "swap-1", .updateTxHash, some 0, true⟩

def executingRow : State := ⟨[⟨7, some "swap-1", .EXECUTING⟩]⟩

/-- Only what is guarded fails. -/
def bestEffortFails : Faults := fun stage =>
  if stage = .recordSpend ∨ stage = .copyHook then some false else none

theorem best_effort_submitted :
    Submitted (settle bestEffortFails 9 executingRow broadcastCall).1
      (settle bestEffortFails 9 executingRow broadcastCall).2 0 :=
  (submitted_iff bestEffortFails executingRow broadcastCall 0 rfl rfl rfl (by decide)).mpr
    ⟨rfl, rfl⟩

/-- The record cannot be read again, and is set to FAILED. -/
theorem refetch_fails_swap :
    ¬ ∀ (faults : Faults) (s : State) (p : Proc) (id : SwapId), p.stage = .updateTxHash →
      p.started = true → p.swapId = some id → id < s.swaps.length → faults .markFailed = none →
      Submitted (settle faults 9 s p).1 (settle faults 9 s p).2 id := by
  intro h
  have hstatus := (h (fun stage => if stage = .refetch then some false else none) executingRow
    broadcastCall 0 rfl rfl rfl (by decide) rfl).status
  revert hstatus
  decide

end Suwappu.SwapEngine.Attempts
