import Suwappu.HotWallet.CustodialBalance

/-!
# Lost updates

A reservation swaps the balance only while the row still holds the string it read. An update reads,
computes and writes whatever it computed, and so undoes what others committed in between.
`accounted_of_fresh`: a balance is the sum of its moves along every run in which each update
commits on the balance it read, and no balance needs more digits than the context has.
-/

namespace Suwappu.HotWallet

open Checked

variable {n : ℕ} {s s' : State n} {i j : Fin n} {d newBalance current : Decimal}
  {initial : Amount} {calls : Fin n → Call}

/-! ### Moves -/

/-- What a call that returned did to the balance. -/
def Proc.moved : Proc → ℚ
  | .updated .add amount      => amount.val.value
  | .updated .subtract amount => -amount.val.value
  | .reserved amount true     => -amount.value
  | _                         => 0

/-- The balance is what it was at first and what the completed calls moved, and not negative. -/
def Accounted (initial : Amount) (s : State n) : Prop :=
  s.balance.value = initial.val.value + ∑ i, (s.procs i).moved ∧ 0 ≤ s.balance.value

/-- The balance an operation would compute with unlimited digits. -/
def Operation.exact : Operation → Decimal → Decimal → Decimal
  | .add      => Decimal.exactAdd
  | .subtract => Decimal.exactSub

/-- What an operation moves. -/
def Operation.moved : Operation → Decimal → ℚ
  | .add, amount      => amount.value
  | .subtract, amount => -amount.value

/-- Before an update commits, the balance is still what it read; and a balance that is about to be
committed was not rounded. -/
def Fresh (s : State n) : Action n → Prop
  | .abort _   => True
  | .advance i =>
    match s.procs i with
    | .updateCommit operation amount current =>
      s.balance.value = current.value ∧ context.Fits (operation.exact current amount)
    | .reserveCommit amount _ current true => context.Fits (current.exactSub amount)
    | _ => True

instance decidableFresh (s : State n) : ∀ a, Decidable (Fresh s a)
  | .abort _   => .isTrue trivial
  | .advance i => by
    dsimp only [Fresh]
    split <;> infer_instance

lemma trap_ok_iff {x : Option Decimal} : trap x = .ok d ↔ x = some d := by
  cases x <;> simp [trap]

lemma applied_nonneg {operation : Operation} {amount : Amount}
    (h : applied operation current amount = .ok newBalance) (hcurrent : 0 ≤ current.value) :
    0 ≤ newBalance.value := by
  cases operation with
  | add => exact Decimal.Context.nonneg_of_add (trap_ok_iff.mp h) hcurrent amount.property
  | subtract =>
    simp only [applied, bind_ok_iff, guard_ok_iff, exists_const, pure_ok_iff] at h
    obtain ⟨_, -, hneg, rfl⟩ := h
    exact Decimal.value_nonneg_iff.mpr (not_lt.mp hneg)

lemma applied_value {operation : Operation} {amount : Amount}
    (h : applied operation current amount = .ok newBalance)
    (hfits : context.Fits (operation.exact current amount)) :
    newBalance.value = current.value + operation.moved amount := by
  cases operation with
  | add => exact Decimal.Context.add_value (trap_ok_iff.mp h) hfits
  | subtract =>
    simp only [applied, bind_ok_iff, guard_ok_iff, exists_const, pure_ok_iff, trap_ok_iff] at h
    obtain ⟨_, hsub, -, rfl⟩ := h
    rw [Decimal.Context.sub_value hsub hfits, Operation.moved, sub_eq_add_neg]

/-! ### The row -/

@[simp] lemma set_balance {p : Proc} : (s.set i p).balance = s.balance := rfl

@[simp] lemma set_lock {p : Proc} : (s.set i p).lock = s.lock := rfl

@[simp] lemma set_procs_self {p : Proc} : (s.set i p).procs i = p := Function.update_self ..

lemma set_procs_of_ne {p : Proc} (h : j ≠ i) : (s.set i p).procs j = s.procs j :=
  Function.update_of_ne h ..

lemma commit_of_lock (h : s.lock = some (i, newBalance)) :
    s.commit i = { s with balance := newBalance, lock := none } := by
  simp only [State.commit, h, if_true]

lemma commit_of_no_lock (h : ∀ d, s.lock ≠ some (i, d)) : s.commit i = s := by
  unfold State.commit
  split
  · rfl
  · rename_i j d hlock
    split
    · rename_i hj
      exact absurd (hj ▸ hlock) (h d)
    · rfl

lemma rollback_of_lock (h : s.lock = some (i, newBalance)) :
    s.rollback i = { s with lock := none } := by
  simp only [State.rollback, h, if_true]

lemma rollback_of_no_lock (h : ∀ d, s.lock ≠ some (i, d)) : s.rollback i = s := by
  unfold State.rollback
  split
  · rfl
  · rename_i j d hlock
    split
    · rename_i hj
      exact absurd (hj ▸ hlock) (h d)
    · rfl

lemma write_ok_iff : s.write i newBalance = .ok s' ↔
    s.lock = none ∧ { s with lock := some (i, newBalance) } = s' := by
  simp only [State.write, bind_ok_iff, guard_ok_iff, exists_const, pure_ok_iff]

/-! ### What holds of the calls in every run -/

/-- The call holds the row lock for a balance it computed. -/
def Proc.Holds (newBalance : Decimal) : Proc → Prop
  | .updateCommit operation amount current => applied operation current amount = .ok newBalance
  | .reserveCommit amount _ current true   => context.sub current amount = some newBalance
  | _ => False

/-- What a call knows of the balance it read, of the one it computed, and of the lock. -/
def Proc.Sound (s : State n) (i : Fin n) : Proc → Prop
  | .updateFlush operation amount current newBalance =>
    applied operation current amount = .ok newBalance ∧ 0 ≤ newBalance.value
  | .updateCommit operation amount current =>
    ∃ newBalance, applied operation current amount = .ok newBalance ∧ 0 ≤ newBalance.value ∧
      (newBalance = current ∨ s.lock = some (i, newBalance))
  | .reserveSwap amount _ current newBalance =>
    context.sub current amount = some newBalance ∧ 0 ≤ newBalance.value
  | .reserveCommit amount _ current true =>
    ∃ newBalance, context.sub current amount = some newBalance ∧ 0 ≤ newBalance.value ∧
      s.lock = some (i, newBalance) ∧ s.balance = current
  | _ => True

structure Coherent (s : State n) : Prop where
  nonneg : 0 ≤ s.balance.value
  sound : ∀ i, (s.procs i).Sound s i
  holds : ∀ i newBalance, s.lock = some (i, newBalance) → (s.procs i).Holds newBalance

lemma Coherent.of_init (initial : Amount) (calls : Fin n → Call) :
    Coherent (.init initial calls) where
  nonneg := initial.property
  sound i := by
    dsimp only [State.init]
    cases calls i with
    | updateCustodialBalance operation amount => trivial
    | reserveCustodialBalance amount maxRetries =>
      dsimp only [Call.start]
      split <;> trivial
  holds i newBalance h := by cases h

/-- What a call knows survives the steps of others that leave its lock and its balance alone. -/
lemma Proc.Sound.mono {p : Proc} (hp : p.Sound s i)
    (h : ∀ d, s.lock = some (i, d) → s'.lock = s.lock ∧ s'.balance = s.balance) :
    p.Sound s' i := by
  cases p with
  | updateCommit operation amount current =>
    obtain ⟨newBalance, happlied, hnonneg, hlock⟩ := hp
    refine ⟨newBalance, happlied, hnonneg, hlock.imp_right fun hlock => ?_⟩
    rw [(h _ hlock).1, hlock]
  | reserveCommit amount retries current updated =>
    cases updated with
    | false => trivial
    | true =>
      obtain ⟨newBalance, hsub, hnonneg, hlock, hbalance⟩ := hp
      obtain ⟨hlock', hbalance'⟩ := h _ hlock
      exact ⟨newBalance, hsub, hnonneg, hlock'.trans hlock, hbalance'.trans hbalance⟩
  | updateFlush _ _ _ _ => exact hp
  | reserveSwap _ _ _ _ => exact hp
  | _ => trivial

/-- A step of call `i`: it gets to `p`, and the row to `t`. -/
lemma Coherent.set {t : State n} {p : Proc} (hs : Coherent s) (hprocs : t.procs = s.procs)
    (hnonneg : 0 ≤ t.balance.value) (hp : p.Sound t i)
    (hother : ∀ j d, j ≠ i → s.lock = some (j, d) → t.lock = s.lock ∧ t.balance = s.balance)
    (hlock : ∀ d, t.lock = some (i, d) → p.Holds d)
    (hlock' : ∀ j d, j ≠ i → t.lock = some (j, d) → s.lock = some (j, d)) :
    Coherent (t.set i p) := by
  refine ⟨hnonneg, fun j => ?_, fun j d hd => ?_⟩
  · by_cases hj : j = i
    · subst hj
      rw [set_procs_self]
      exact hp.mono fun _ _ => ⟨rfl, rfl⟩
    · rw [set_procs_of_ne hj, hprocs]
      exact (hs.sound j).mono fun d hd => hother j d hj hd
  · by_cases hj : j = i
    · subst hj
      rw [set_procs_self]
      exact hlock d hd
    · rw [set_procs_of_ne hj, hprocs]
      exact hs.holds j d (hlock' j d hj hd)

/-- A step that leaves the row alone. -/
lemma Coherent.set_same {p : Proc} (hs : Coherent s) (hp : p.Sound s i)
    (hlock : ∀ d, s.lock = some (i, d) → p.Holds d) : Coherent (s.set i p) :=
  hs.set rfl hs.nonneg hp (fun _ _ _ _ => ⟨rfl, rfl⟩) hlock fun _ _ _ h => h

/-- Rolling back, or committing, a call that holds no lock does nothing to the row. -/
lemma Coherent.no_lock (hs : Coherent s) (h : ∀ d, ¬ (s.procs i).Holds d) (d : Decimal) :
    s.lock ≠ some (i, d) := fun hlock => h d (hs.holds i d hlock)

/-- Giving the lock back. -/
lemma Coherent.set_unlocked {p : Proc} (hs : Coherent s) (hlock : s.lock = some (i, newBalance))
    {balance : Decimal} (hnonneg : 0 ≤ balance.value)
    (hp : ∀ t : State n, p.Sound t i) :
    Coherent (State.set { s with balance := balance, lock := none } i p) := by
  refine hs.set rfl hnonneg (hp _) (fun j d hj hd => ?_) (fun d hd => ?_) fun j d _ hd => ?_
  · rw [hlock] at hd
    cases hd
    exact absurd rfl hj
  · cases hd
  · cases hd

lemma Coherent.commit {p : Proc} (hs : Coherent s)
    (hnonneg : ∀ d, s.lock = some (i, d) → 0 ≤ d.value) (hp : ∀ t : State n, p.Sound t i) :
    Coherent ((s.commit i).set i p) := by
  by_cases h : ∃ d, s.lock = some (i, d)
  · obtain ⟨d, hd⟩ := h
    rw [commit_of_lock hd]
    exact hs.set_unlocked hd (hnonneg d hd) hp
  · rw [commit_of_no_lock fun d hd => h ⟨d, hd⟩]
    exact hs.set_same (hp s) fun d hd => absurd ⟨d, hd⟩ h

lemma Coherent.rollback (hs : Coherent s) : Coherent ((s.rollback i).set i .failed) := by
  by_cases h : ∃ d, s.lock = some (i, d)
  · obtain ⟨d, hd⟩ := h
    rw [rollback_of_lock hd]
    exact hs.set_unlocked hd hs.nonneg fun _ => trivial
  · rw [rollback_of_no_lock fun d hd => h ⟨d, hd⟩]
    exact hs.set_same trivial fun d hd => absurd ⟨d, hd⟩ h

/-- An UPDATE takes the lock. -/
lemma Coherent.write {p : Proc} (hs : Coherent s) (hlock : s.lock = none)
    (hp : p.Sound { s with lock := some (i, newBalance) } i) (hholds : p.Holds newBalance) :
    Coherent (State.set { s with lock := some (i, newBalance) } i p) := by
  refine hs.set rfl hs.nonneg hp (fun j d _ hd => ?_) (fun d hd => ?_) fun j d hj hd => ?_
  · rw [hlock] at hd
    cases hd
  · cases hd
    exact hholds
  · cases hd
    exact absurd rfl hj

/-! ### Steps -/

/-- Everything the completed calls moved. -/
def State.total (s : State n) : ℚ := ∑ i, (s.procs i).moved

lemma total_set {t : State n} {p : Proc} (h : t.procs = s.procs) :
    (t.set i p).total + (s.procs i).moved = s.total + p.moved := by
  rw [State.total, State.total, ← Finset.add_sum_erase _ _ (Finset.mem_univ i),
    ← Finset.add_sum_erase (a := i) _ (fun j => (s.procs j).moved) (Finset.mem_univ i),
    set_procs_self]
  have hrest : ∑ j ∈ Finset.univ.erase i, ((t.set i p).procs j).moved =
      ∑ j ∈ Finset.univ.erase i, (s.procs j).moved :=
    Finset.sum_congr rfl fun j hj => by rw [set_procs_of_ne (Finset.ne_of_mem_erase hj), h]
  rw [hrest]
  ring

/-- A step keeps the balance in line with what was moved. -/
def Balanced (s s' : State n) : Prop := s'.balance.value - s'.total = s.balance.value - s.total

lemma balanced_set {t : State n} {p : Proc} (h : t.procs = s.procs)
    (hbalance : t.balance.value + (s.procs i).moved = s.balance.value + p.moved) :
    Balanced s (t.set i p) := by
  have htotal := total_set (i := i) (p := p) h
  rw [Balanced, set_balance]
  linarith

/-- A step that commits nothing. -/
lemma balanced_set_same {t : State n} {p : Proc} (h : t.procs = s.procs)
    (hbalance : t.balance = s.balance) (hold : (s.procs i).moved = 0) (hnew : p.moved = 0) :
    Balanced s (t.set i p) :=
  balanced_set h (by rw [hbalance, hold, hnew])

lemma commit_procs : (s.commit i).procs = s.procs := by
  by_cases h : ∃ d, s.lock = some (i, d)
  · obtain ⟨d, hd⟩ := h
    rw [commit_of_lock hd]
  · rw [commit_of_no_lock fun d hd => h ⟨d, hd⟩]

lemma rollback_procs : (s.rollback i).procs = s.procs := by
  by_cases h : ∃ d, s.lock = some (i, d)
  · obtain ⟨d, hd⟩ := h
    rw [rollback_of_lock hd]
  · rw [rollback_of_no_lock fun d hd => h ⟨d, hd⟩]

lemma rollback_balance : (s.rollback i).balance = s.balance := by
  by_cases h : ∃ d, s.lock = some (i, d)
  · obtain ⟨d, hd⟩ := h
    rw [rollback_of_lock hd]
  · rw [rollback_of_no_lock fun d hd => h ⟨d, hd⟩]

section UpdateSteps

variable {operation : Operation} {amount : Amount}

lemma updateSelect_step (hs : Coherent s) (hi : s.procs i = .updateSelect operation amount)
    (h : advance s i = .ok s') : Coherent s' ∧ Balanced s s' := by
  have hunlocked := hs.no_lock (i := i) fun d => by rw [hi]; exact id
  simp only [advance, hi] at h
  split at h
  · cases h
    exact ⟨hs.set_same trivial fun d hd => absurd hd (hunlocked d),
      balanced_set_same rfl rfl (by rw [hi]; rfl) rfl⟩
  · rename_i newBalance happlied
    cases h
    exact ⟨hs.set_same ⟨happlied, applied_nonneg happlied hs.nonneg⟩
        fun d hd => absurd hd (hunlocked d),
      balanced_set_same rfl rfl (by rw [hi]; rfl) rfl⟩

lemma updateFlush_step (hs : Coherent s)
    (hi : s.procs i = .updateFlush operation amount current newBalance)
    (h : advance s i = .ok s') : Coherent s' ∧ Balanced s s' := by
  have hunlocked := hs.no_lock (i := i) fun d => by rw [hi]; exact id
  have hsound := hs.sound i
  rw [hi] at hsound
  obtain ⟨happlied, hnonneg⟩ := hsound
  simp only [advance, hi] at h
  split at h
  · rename_i hsame
    cases h
    exact ⟨hs.set_same ⟨newBalance, happlied, hnonneg, .inl hsame⟩
        fun d hd => absurd hd (hunlocked d),
      balanced_set_same rfl rfl (by rw [hi]; rfl) rfl⟩
  · simp only [bind_ok_iff, write_ok_iff, pure_ok_iff] at h
    obtain ⟨_, ⟨hfree, rfl⟩, rfl⟩ := h
    exact ⟨hs.write hfree ⟨newBalance, happlied, hnonneg, .inr rfl⟩ happlied,
      balanced_set_same rfl rfl (by rw [hi]; rfl) rfl⟩

lemma updateCommit_step (hs : Coherent s)
    (hi : s.procs i = .updateCommit operation amount current) (h : advance s i = .ok s') :
    Coherent s' ∧ (Fresh s (.advance i) → Balanced s s') := by
  have hsound := hs.sound i
  rw [hi] at hsound
  obtain ⟨newBalance, happlied, hnonneg, hlock⟩ := hsound
  have hwrote : ∀ d, s.lock = some (i, d) → d = newBalance := fun d hd => by
    have hholds := hs.holds i d hd
    rw [hi] at hholds
    exact Except.ok.inj (hholds.symm.trans happlied)
  simp only [advance, hi, Except.ok.injEq] at h
  subst h
  refine ⟨hs.commit (fun d hd => hwrote d hd ▸ hnonneg) fun _ => trivial, fun hfresh => ?_⟩
  simp only [Fresh, hi] at hfresh
  obtain ⟨hcurrent, hfits⟩ := hfresh
  have hvalue := applied_value happlied hfits
  have hcommitted : (s.commit i).balance.value = newBalance.value := by
    by_cases hd : ∃ d, s.lock = some (i, d)
    · obtain ⟨d, hd⟩ := hd
      rw [commit_of_lock hd, hwrote d hd]
    · rw [commit_of_no_lock fun d h => hd ⟨d, h⟩, hcurrent,
        hlock.resolve_right fun h => hd ⟨_, h⟩]
  refine balanced_set commit_procs ?_
  rw [hcommitted, hvalue, hi, hcurrent]
  cases operation <;> simp [Proc.moved, Operation.moved]

end UpdateSteps

section ReserveSteps

variable {amount : Decimal} {retries : ℕ} {updated : Bool}

lemma reserveSelect_step (hs : Coherent s) (hi : s.procs i = .reserveSelect amount retries)
    (h : advance s i = .ok s') : Coherent s' ∧ Balanced s s' := by
  have hunlocked := hs.no_lock (i := i) fun d => by rw [hi]; exact id
  have hquiet : ∀ p : Proc, p.Sound s i → p.moved = 0 →
      Coherent (s.set i p) ∧ Balanced s (s.set i p) := fun p hp hmoved =>
    ⟨hs.set_same hp fun d hd => absurd hd (hunlocked d),
      balanced_set_same rfl rfl (by rw [hi]; rfl) hmoved⟩
  cases retries with
  | zero =>
    simp only [advance, hi, Except.ok.injEq] at h
    subst h
    exact hquiet _ trivial rfl
  | succ retries =>
    simp only [advance, hi] at h
    split at h
    · cases h
      exact hquiet _ trivial rfl
    · rename_i hcovers
      have hle := Decimal.lt_eq_false_iff.mp (Bool.eq_false_iff.mpr hcovers)
      split at h
      · cases h
        exact hquiet _ trivial rfl
      · rename_i newBalance hsub
        cases h
        exact hquiet _ ⟨hsub, Decimal.Context.nonneg_of_sub hsub hle⟩ rfl

lemma reserveSwap_step (hs : Coherent s)
    (hi : s.procs i = .reserveSwap amount retries current newBalance)
    (h : advance s i = .ok s') : Coherent s' ∧ Balanced s s' := by
  have hunlocked := hs.no_lock (i := i) fun d => by rw [hi]; exact id
  have hsound := hs.sound i
  rw [hi] at hsound
  obtain ⟨hsub, hnonneg⟩ := hsound
  simp only [advance, hi] at h
  split at h
  · cases h
    exact ⟨hs.set_same trivial fun d hd => absurd hd (hunlocked d),
      balanced_set_same rfl rfl (by rw [hi]; rfl) rfl⟩
  · rename_i hcurrent
    simp only [bind_ok_iff, write_ok_iff, pure_ok_iff] at h
    obtain ⟨_, ⟨hfree, rfl⟩, rfl⟩ := h
    exact ⟨hs.write hfree ⟨newBalance, hsub, hnonneg, rfl, not_not.mp hcurrent⟩ hsub,
      balanced_set_same rfl rfl (by rw [hi]; rfl) rfl⟩

lemma reserveCommit_step (hs : Coherent s)
    (hi : s.procs i = .reserveCommit amount retries current updated)
    (h : advance s i = .ok s') : Coherent s' ∧ (Fresh s (.advance i) → Balanced s s') := by
  cases updated with
  | false =>
    have hunlocked := hs.no_lock (i := i) fun d => by rw [hi]; exact id
    simp only [advance, hi, Except.ok.injEq] at h
    subst h
    rw [commit_of_no_lock hunlocked]
    exact ⟨hs.set_same trivial fun d hd => absurd hd (hunlocked d),
      fun _ => balanced_set_same rfl rfl (by rw [hi]; rfl) rfl⟩
  | true =>
    have hsound := hs.sound i
    rw [hi] at hsound
    obtain ⟨newBalance, hsub, hnonneg, hlock, hcurrent⟩ := hsound
    simp only [advance, hi, Except.ok.injEq, if_true] at h
    subst h
    rw [commit_of_lock hlock]
    refine ⟨hs.set_unlocked hlock hnonneg fun _ => trivial, fun hfresh => ?_⟩
    simp only [Fresh, hi] at hfresh
    refine balanced_set rfl ?_
    rw [hi, Decimal.Context.sub_value hsub hfresh, hcurrent]
    simp [Proc.moved, sub_eq_add_neg]

end ReserveSteps

lemma advance_step (hs : Coherent s) (h : advance s i = .ok s') :
    Coherent s' ∧ (Fresh s (.advance i) → Balanced s s') := by
  cases hi : s.procs i with
  | updateSelect operation amount =>
    exact (updateSelect_step hs hi h).imp_right fun h _ => h
  | updateFlush operation amount current newBalance =>
    exact (updateFlush_step hs hi h).imp_right fun h _ => h
  | updateCommit operation amount current => exact updateCommit_step hs hi h
  | reserveSelect amount retries => exact (reserveSelect_step hs hi h).imp_right fun h _ => h
  | reserveSwap amount retries current newBalance =>
    exact (reserveSwap_step hs hi h).imp_right fun h _ => h
  | reserveCommit amount retries current updated => exact reserveCommit_step hs hi h
  | updated operation amount => simp only [advance, hi, reduceCtorEq] at h
  | reserved amount success => simp only [advance, hi, reduceCtorEq] at h
  | failed => simp only [advance, hi, reduceCtorEq] at h

lemma abort_step (hs : Coherent s) (h : abort s i = .ok s') : Coherent s' ∧ Balanced s s' := by
  have hmoved : (s.procs i).moved = 0 ∧ (s.rollback i).set i .failed = s' := by
    unfold abort at h
    split at h
    · cases h
    · cases h
    · cases h
    · rename_i hupdated hreserved _
      refine ⟨?_, Except.ok.inj h⟩
      cases hi : s.procs i with
      | updated operation amount => exact absurd hi (hupdated _ _)
      | reserved amount success => exact absurd hi (hreserved _ _)
      | _ => rfl
  obtain ⟨hmoved, rfl⟩ := hmoved
  exact ⟨hs.rollback, balanced_set_same rollback_procs rollback_balance hmoved rfl⟩

theorem coherent_of_step {a : Action n} (hs : Coherent s) (h : step s a = .ok s') :
    Coherent s' ∧ (Fresh s a → Balanced s s') := by
  cases a with
  | advance i => exact advance_step hs h
  | abort i => exact (abort_step hs h).imp_right fun h _ => h

/-! ### Runs -/

/-- No run makes the balance negative, whatever it loses. -/
theorem balance_nonneg (initial : Amount) (calls : Fin n → Call) (acts : List (Action n)) :
    0 ≤ ((machine n).run (.init initial calls) acts).balance.value :=
  (Machine.run_induction (M := machine n) (I := Coherent)
    (fun _ _ _ hs h => (coherent_of_step hs h).1) (.of_init initial calls) acts).nonneg

lemma init_total : (State.init initial calls).total = 0 := by
  refine Finset.sum_eq_zero fun i _ => ?_
  dsimp only [State.init]
  cases calls i with
  | updateCustodialBalance operation amount => rfl
  | reserveCustodialBalance amount maxRetries =>
    dsimp only [Call.start]
    split <;> rfl

/-- However the calls are interleaved: where every update commits on the balance it read, and no
committed balance was rounded, the balance is never negative and accounts for every completed
call, in each state of the run. -/
theorem accounted_of_fresh (initial : Amount) (calls : Fin n → Call) (acts : List (Action n))
    (h : (machine n).Along Fresh (.init initial calls) acts) :
    ∀ acts', acts' <+: acts →
      Accounted initial ((machine n).run (.init initial calls) acts') := by
  intro acts' hinit
  have hrun := Machine.run_induction_along (M := machine n)
    (I := fun s => Coherent s ∧ s.balance.value - s.total = initial.val.value) (C := Fresh)
    (fun s a s' hs hfresh hstep => by
      obtain ⟨hcoherent, hbalanced⟩ := coherent_of_step hs.1 hstep
      exact ⟨hcoherent, (hbalanced hfresh).trans hs.2⟩) acts'
    (s := .init initial calls) ⟨.of_init initial calls, by rw [init_total, sub_zero]; rfl⟩
    (h.of_initial hinit)
  refine ⟨?_, hrun.1.nonneg⟩
  exact sub_eq_iff_eq_add.mp hrun.2

/-! ### A deposit and a withdrawal -/

def wholeAmount (k : ℕ) : Amount :=
  ⟨.ofNat k, Decimal.value_nonneg_iff.mpr (Int.natCast_nonneg k)⟩

/-- A deposit of 5 is credited while 3 are reserved for a withdrawal. -/
def depositAndWithdrawal : Fin 2 → Call
  | 0 => .updateCustodialBalance .add (wholeAmount 5)
  | 1 => .reserveCustodialBalance (.ofNat 3) 5

/-- The reservation loses the race, and tries again. -/
theorem deposit_first_accounted :
    Accounted (wholeAmount 10) ((machine 2).run (.init (wholeAmount 10) depositAndWithdrawal)
      [.advance 1, .advance 0, .advance 0, .advance 0, .advance 1, .advance 1, .advance 1,
        .advance 1, .advance 1]) :=
  accounted_of_fresh (wholeAmount 10) depositAndWithdrawal _ (by decide +kernel) _
    (List.prefix_refl _)

/-- The credit was computed before the reservation committed, and undoes it. -/
theorem deposit_loses_withdrawal :
    ¬ ∀ (n : ℕ) (initial : Amount) (calls : Fin n → Call) (acts : List (Action n)),
      Accounted initial ((machine n).run (.init initial calls) acts) := by
  intro h
  have hlost := (h 2 (wholeAmount 10) depositAndWithdrawal
    [.advance 0, .advance 1, .advance 1, .advance 1, .advance 0, .advance 0]).1
  revert hlost
  decide +kernel

end Suwappu.HotWallet
