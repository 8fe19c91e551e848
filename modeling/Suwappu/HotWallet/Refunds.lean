import Suwappu.HotWallet.Withdrawals
import Suwappu.Lib.Rows

/-!
# Refunds

A withdrawal that is resolved has cost its user the amount if its transaction landed, and nothing
otherwise, in the runs in which the reconciler refunds by age only what a dead request has left
debited, a row that is marked FAILED gets its refund, what a request or a node reports as done
lands, and what a node reports as failed does not.
-/

namespace Suwappu.HotWallet.Withdrawals

open Checked

/-- What a call may hold of a withdrawal. -/
inductive Token where
  /-- its request is at work -/
  | request
  /-- its row is FAILED, and the refund is to come -/
  | credit
deriving DecidableEq

abbrev Tokens := WithdrawalId × Token → ℕ

def Proc.token : Proc → Option (WithdrawalId × Token)
  | .reserve id | .send id | .stamp id | .broadcast id | .finalize id | .recordHash id | .refund id
  | .release id => some (id, .request)
  | .credit row _ => some (row.id, .credit)
  | _ => none

def tokens (p : Proc) : Tokens := p.token.elim 0 fun token => Pi.single token 1

/-- What a withdrawal did to its account. -/
def Withdrawal.net (w : Withdrawal) : ℚ := w.amount * (w.refunds - w.debits)

def State.net (s : State) (account : Account) : ℚ :=
  (s.withdrawals.map fun w => if w.account = account then w.net else 0).sum

/-- The row is COMPLETED or FAILED, or gone. -/
def Withdrawal.terminal (w : Withdrawal) : Prop := ∀ row ∈ w.row, row.status ≠ .PENDING

/-- No withdrawal is refunded twice, or without a debit, or when its transaction has landed; what is
resolved costs the amount or nothing; and the balances are what the withdrawals left. -/
structure Conserved {n : ℕ} (balances : Account → ℚ) (c : Config n) : Prop where
  once : ∀ w ∈ c.shared.withdrawals, w.refunds ≤ w.debits ∧ w.debits ≤ 1
  landed : ∀ w ∈ c.shared.withdrawals, w.fate = .landed → w.refunds = 0
  resolved : ∀ (id : WithdrawalId) (w : Withdrawal), c.shared.withdrawals[id]? = some w →
    w.terminal → (∀ i, ∀ token ∈ (c.procs i).token, token.1 ≠ id) →
      (w.fate = .landed → w.net = -w.amount) ∧
        (w.fate ∈ [.unsent, .reverted, .dropped] → w.net = 0)
  balances : ∀ account, c.shared.balances account = balances account + c.shared.net account

/-! ### The condition -/

/-- A dead request has left its amount debited, and no transaction. -/
def Stranded (s : State) (rest : Tokens) (id : WithdrawalId) : Prop :=
  ∃ w ∈ s.withdrawals[id]?, w.refunds < w.debits ∧ (∀ row ∈ w.row, row.hasHash = false) ∧
    rest (id, .request) = 0

instance decidableStranded (s : State) (rest : Tokens) (id : WithdrawalId) :
    Decidable (Stranded s rest id) := by
  unfold Stranded
  infer_instance

/-- The transaction will never land. -/
def State.lost (s : State) (id : WithdrawalId) : Prop :=
  ∃ w ∈ s.withdrawals[id]?, w.fate ∈ [.reverted, .dropped]

instance State.decidableLost (s : State) (id : WithdrawalId) : Decidable (s.lost id) := by
  unfold State.lost
  infer_instance

def State.landed (s : State) (id : WithdrawalId) : Prop :=
  ∃ w ∈ s.withdrawals[id]?, w.fate = .landed

instance State.decidableLanded (s : State) (id : WithdrawalId) : Decidable (s.landed id) := by
  unfold State.landed
  infer_instance

/-- The step of a call is none of those that lose or give away an amount. -/
def Careful (s : State) (rest : Tokens) : Proc → Answer → Prop
  | .fail row _, .ok    => s.pending row.id →
    if row.hasHash = true then ¬ s.landed row.id else Stranded s rest row.id
  | .fail row _, .lost  => ¬ s.pending row.id
  | .complete row _, .ok | .complete row _, .lost => s.lost row.id → ¬ s.pending row.id
  | .credit _ _, answer => answer ≠ .fails ∧ answer ≠ .crash
  | .finalize id, .ok   => s.lost id → ¬ s.pending id
  | .finalize id, .lost => s.lost id → ¬ s.pending id
  | _, _                => True

instance decidableCareful (s : State) (rest : Tokens) : ∀ p a, Decidable (Careful s rest p a) :=
  fun p a => by unfold Careful; split <;> infer_instance

/-- What is completed lands, and what is refunded, or is about to be, does not. -/
def AsReported (s : State) (total : Tokens) : Event → Prop
  | .mined id fate => ∀ w ∈ s.withdrawals[id]?, w.fate = .inFlight →
    (fate ∈ [.reverted, .dropped] → ∀ row ∈ w.row, row.status ≠ .COMPLETED) ∧
      (fate = .landed → w.refunds + total (id, .credit) = 0)
  | .elapse _      => True

instance decidableAsReported (s : State) (total : Tokens) : ∀ e, Decidable (AsReported s total e) :=
  fun e => by unfold AsReported; split <;> infer_instance

/-! ### One withdrawal -/

/-- What holds of a withdrawal with so many calls at its request and at its refund. -/
structure Good (w : Withdrawal) (requests credits : ℕ) : Prop where
  alone : requests ≤ 1
  once : w.debits ≤ 1
  refunded : w.refunds + credits ≤ w.debits
  sent : w.fate ≠ .unsent → w.debits = 1
  kept : w.fate = .landed → w.refunds + credits = 0
  unstamped : ∀ row, w.row = some row → row.status = .PENDING → row.hasHash = false →
    w.fate = .unsent
  pending : ∀ row, w.row = some row → row.status = .PENDING →
    credits = 0 ∧ (w.fate ≠ .unsent → w.refunds = 0)
  completed : ∀ row, w.row = some row → row.status = .COMPLETED →
    w.fate ≠ .unsent ∧ (w.fate = .reverted ∨ w.fate = .dropped → w.refunds + credits = 1)
  failed : ∀ row, w.row = some row → row.status = .FAILED →
    w.fate ≠ .landed ∧ w.refunds + credits = w.debits
  released : w.row = none → w.fate = .unsent ∧ w.refunds = w.debits

/-- The transaction of a withdrawal is still to come. -/
structure Open (w : Withdrawal) (hasHash : Bool) (debits refunds : ℕ) : Prop where
  row : w.row = some ⟨.PENDING, hasHash⟩
  unsent : w.fate = .unsent
  debits : w.debits = debits
  refunds : w.refunds = refunds

variable {w : Withdrawal} {requests credits : ℕ} {hasHash : Bool}

lemma Open.debit (h : Open w false 0 0) : Open { w with debits := w.debits + 1 } false 1 0 :=
  ⟨h.row, h.unsent, by rw [h.debits], h.refunds⟩

lemma Open.refund (h : Open w hasHash 1 0) :
    Open { w with refunds := w.refunds + 1 } hasHash 1 1 :=
  ⟨h.row, h.unsent, h.debits, by rw [h.refunds]⟩

lemma Open.stamp (h : Open w hasHash 1 0) :
    Open (w.setRow fun row => { row with hasHash := true }) true 1 0 :=
  ⟨by rw [Withdrawal.setRow, h.row]; rfl, h.unsent, h.debits, h.refunds⟩

/-- A request is over, one way or the other. -/
lemma Good.leave (h : Good w (requests + 1) credits) : Good w requests credits where
  __ := h
  alone := (Nat.le_succ _).trans h.alone

lemma Good.claim (row : Row) (hrow : row = ⟨.PENDING, false⟩) (hw : w.row = some row)
    (hfate : w.fate = .unsent) (hdebits : w.debits = 0) (hrefunds : w.refunds = 0)
    (hrequests : requests ≤ 1) : Good w requests 0 := by
  subst hrow
  constructor <;> grind

lemma Good.debit (h : Good w requests credits) (ho : Open w false 0 0) :
    Good { w with debits := w.debits + 1 } requests credits := by
  obtain ⟨hrow, hfate, hdebits, hrefunds⟩ := ho
  constructor <;> grind [Good]

lemma Good.refund (h : Good w requests credits) (ho : Open w hasHash 1 0) :
    Good { w with refunds := w.refunds + 1 } requests credits := by
  obtain ⟨hrow, hfate, hdebits, hrefunds⟩ := ho
  constructor <;> grind [Good]

lemma Good.stamp (h : Good w requests credits) (ho : Open w hasHash 1 0) :
    Good (w.setRow fun row => { row with hasHash := true }) requests credits := by
  obtain ⟨hrow, hfate, hdebits, hrefunds⟩ := ho
  constructor <;> grind [Good, Withdrawal.setRow]

lemma Good.propagate (h : Good w requests credits) (ho : Open w true 1 0) :
    Good { w with fate := .inFlight } requests credits := by
  obtain ⟨hrow, hfate, hdebits, hrefunds⟩ := ho
  constructor <;> grind [Good]

lemma Good.recordHash (h : Good w requests credits) :
    Good (w.setRow fun row => if row.status = .PENDING then { row with hasHash := true } else row)
      requests credits := by
  obtain ⟨_, _, _, _, row, _, _, _⟩ := w
  cases row <;> constructor <;> grind [Good, Withdrawal.setRow]

/-- A request completes what it has sent. -/
lemma Good.finalize (h : Good w requests credits) (hsent : w.fate ≠ .unsent)
    (hlands : w.fate = .reverted ∨ w.fate = .dropped →
      ∀ row, w.row = some row → row.status ≠ .PENDING) :
    Good (w.setRow fun _ => ⟨.COMPLETED, true⟩) requests credits := by
  obtain ⟨_, _, _, _, row, fate, _, _⟩ := w
  cases row with
  | none => exact absurd (h.released rfl).1 hsent
  | some row =>
    obtain ⟨status, _⟩ := row
    cases status <;> constructor <;> grind [Good, Withdrawal.setRow]

/-- A request releases what it has not sent. -/
lemma Good.release (h : Good w requests credits) {debits : ℕ} (ho : Open w hasHash debits debits) :
    Good { w with row := none } requests credits := by
  obtain ⟨hrow, hfate, hdebits, hrefunds⟩ := ho
  constructor <;> grind [Good]

/-- The reconciler completes what has landed, or may still land. -/
lemma Good.complete (h : Good w requests credits) (hsent : w.fate ≠ .unsent)
    (hlands : w.fate = .reverted ∨ w.fate = .dropped →
      ∀ row, w.row = some row → row.status ≠ .PENDING) :
    Good (w.setRow fun row => if row.status = .PENDING then ⟨.COMPLETED, row.hasHash || true⟩
      else row) requests credits := by
  obtain ⟨_, _, _, _, row, fate, _, _⟩ := w
  cases row with
  | none => exact absurd (h.released rfl).1 hsent
  | some row =>
    obtain ⟨status, _⟩ := row
    cases status <;> constructor <;> grind [Good, Withdrawal.setRow]

/-- The reconciler gives up what has not landed, or what a dead request has left. -/
lemma Good.fail (h : Good w requests credits) {row : Row} (hrow : w.row = some row)
    (hpending : row.status = .PENDING)
    (hlost : w.fate ≠ .unsent ∧ w.fate ≠ .landed ∨ row.hasHash = false ∧ w.refunds < w.debits) :
    Good (w.setRow fun row => if row.status = .PENDING then ⟨.FAILED, row.hasHash || false⟩
      else row) requests (credits + 1) := by
  constructor <;> grind [Good, Withdrawal.setRow]

/-- The reconciler refunds what it has given up. -/
lemma Good.credit (h : Good w requests (credits + 1)) :
    Good { w with refunds := w.refunds + 1 } requests credits := by
  constructor <;> grind [Good]

lemma Good.mined {fate : Fate} (h : Good w requests credits) (hflight : w.fate = .inFlight)
    (hsent : fate ≠ .unsent)
    (hlands : fate = .reverted ∨ fate = .dropped →
      ∀ row, w.row = some row → row.status ≠ .COMPLETED)
    (hkept : fate = .landed → w.refunds + credits = 0) :
    Good { w with fate := fate } requests credits := by
  constructor <;> grind [Good]

/-! ### The table -/

structure Sound (balances : Account → ℚ) (s : State) (m : Tokens) : Prop where
  good : ∀ (id : WithdrawalId) (w : Withdrawal), s.withdrawals[id]? = some w →
    Good w (m (id, .request)) (m (id, .credit))
  none : ∀ id token, s.withdrawals.length ≤ id → m (id, token) = 0
  balances : ∀ account, s.balances account = balances account + s.net account

def State.Has (s : State) (id : WithdrawalId) (P : Withdrawal → Prop) : Prop :=
  ∃ w, s.withdrawals[id]? = some w ∧ P w

/-- What a call knows of its withdrawal. -/
def Knows (s : State) : Proc → Prop
  | .reserve id             => s.Has id fun w => Open w false 0 0
  | .send id | .stamp id    => s.Has id fun w => Open w false 1 0
  | .broadcast id           => s.Has id fun w => Open w true 1 0
  | .finalize id            => s.Has id fun w => w.fate ≠ .unsent
  | .recordHash id          => s.Has id fun _ => True
  | .refund id              => s.Has id fun w => ∃ hasHash, Open w hasHash 1 0
  | .release id             => s.Has id fun w => ∃ hasHash debits, Open w hasHash debits debits
  | .complete row _         => s.Has row.id fun w => w.fate ≠ .unsent
  | .fail row _             => row.hasHash = true → s.Has row.id fun w => w.fate ≠ .unsent
  | _                       => True

variable {s s' : State} {balances : Account → ℚ} {m m' rest : Tokens} {id : WithdrawalId}
  {f : Withdrawal → Withdrawal} {p p' q : Proc} {answer : Answer}

lemma tokens_apply (p : Proc) (x : WithdrawalId × Token) :
    tokens p x = if p.token = some x then 1 else 0 := by
  unfold tokens
  cases p.token with
  | none => simp
  | some token => simp [Pi.single_apply, eq_comm]

lemma getElem?_update (s : State) (id i : WithdrawalId) (f : Withdrawal → Withdrawal) :
    (s.update id f).withdrawals[i]? =
      if id = i then (s.withdrawals[i]?).map f else s.withdrawals[i]? := by
  rw [State.update, List.getElem?_modify]
  by_cases h : id = i <;> simp [h]

lemma getElem?_update_self (hw : s.withdrawals[id]? = some w) (f : Withdrawal → Withdrawal) :
    (s.update id f).withdrawals[id]? = some (f w) := by
  rw [getElem?_update, if_pos rfl, hw, Option.map_some]

lemma Has.mono {P Q : Withdrawal → Prop} (h : s.Has id P)
    (hPQ : ∀ w, s.withdrawals[id]? = some w → P w → Q w) : s.Has id Q := by
  obtain ⟨w, hw, hP⟩ := h
  exact ⟨w, hw, hPQ w hw hP⟩

lemma Has.update {P Q : Withdrawal → Prop} {i : WithdrawalId} (h : s.Has i P)
    (hsame : ∀ w, s.withdrawals[i]? = some w → P w → id = i → Q (f w))
    (hother : ∀ w, P w → id ≠ i → Q w) : (s.update id f).Has i Q := by
  obtain ⟨w, hw, hP⟩ := h
  rw [State.Has, getElem?_update, hw]
  by_cases hi : id = i
  · exact ⟨f w, by simp [hi], hsame w hw hP hi⟩
  · exact ⟨w, by simp [hi], hother w hP hi⟩

/-- The new state of one withdrawal, and the tokens that are held of it. -/
lemma Sound.update (h : Sound balances s m) (hs' : s'.withdrawals = (s.update id f).withdrawals)
    (hother : ∀ i token, i ≠ id → m' (i, token) = m (i, token))
    (hnone : s.withdrawals.length ≤ id → ∀ token, m' (id, token) = 0)
    (hgood : ∀ w, s.withdrawals[id]? = some w → Good w (m (id, .request)) (m (id, .credit)) →
      Good (f w) (m' (id, .request)) (m' (id, .credit)))
    (hbalances : ∀ account, s'.balances account - s'.net account =
      s.balances account - s.net account) : Sound balances s' m' where
  good i w hw := by
    rw [hs', getElem?_update] at hw
    by_cases hi : id = i
    · subst hi
      rw [if_pos rfl] at hw
      obtain ⟨w', hw', rfl⟩ := Option.map_eq_some_iff.mp hw
      exact hgood w' hw' (h.good _ w' hw')
    · rw [if_neg hi] at hw
      rw [hother i _ (Ne.symm hi), hother i _ (Ne.symm hi)]
      exact h.good i w hw
  none i token hi := by
    rw [hs', State.update, List.length_modify] at hi
    by_cases heq : i = id
    · subst heq
      exact hnone hi token
    · rw [hother i token heq]
      exact h.none i token hi
  balances account := by
    have hold := h.balances account
    have hnew := hbalances account
    linarith

lemma net_update {w : Withdrawal} (hw : s.withdrawals[id]? = some w)
    (hs' : s'.withdrawals = (s.update id f).withdrawals) (account : Account) :
    s'.net account = s.net account - (if w.account = account then w.net else 0) +
      (if (f w).account = account then (f w).net else 0) := by
  rw [State.net, hs', State.update]
  exact Rows.sum_map_modify hw

/-- A write that moves no balance. -/
lemma net_quiet (hf : ∀ w, (f w).account = w.account ∧ (f w).net = w.net) (account : Account) :
    (s.update id f).net account = s.net account := by
  cases hw : s.withdrawals[id]? with
  | none =>
    have hlength : s.withdrawals.length ≤ id := List.getElem?_eq_none_iff.mp hw
    rw [State.net, State.update, List.modify_eq_self hlength]
    rfl
  | some w =>
    rw [net_update hw rfl, (hf w).1, (hf w).2]
    ring

lemma net_debit {w : Withdrawal} (hw : s.withdrawals[id]? = some w) (account : Account) :
    (s.debit id w).balances account - (s.debit id w).net account =
      s.balances account - s.net account := by
  rw [net_update hw (show (s.debit id w).withdrawals = (s.update id _).withdrawals from rfl),
    State.debit]
  dsimp only
  by_cases haccount : w.account = account
  · subst haccount
    rw [Function.update_self, if_pos rfl, if_pos rfl, Withdrawal.net, Withdrawal.net]
    push_cast
    ring
  · rw [Function.update_of_ne (Ne.symm haccount), if_neg haccount, if_neg haccount]
    ring

lemma net_refund {w : Withdrawal} (hw : s.withdrawals[id]? = some w) (account : Account) :
    (s.refund id w).balances account - (s.refund id w).net account =
      s.balances account - s.net account := by
  rw [net_update hw (show (s.refund id w).withdrawals = (s.update id _).withdrawals from rfl),
    State.refund]
  dsimp only
  by_cases haccount : w.account = account
  · subst haccount
    rw [Function.update_self, if_pos rfl, if_pos rfl, Withdrawal.net, Withdrawal.net]
    push_cast
    ring
  · rw [Function.update_of_ne (Ne.symm haccount), if_neg haccount, if_neg haccount]
    ring

/-- A new withdrawal, with its request at work or not. -/
lemma Sound.claim (h : Sound balances s m) {request : Request}
    (hother : ∀ i token, i ≠ s.withdrawals.length → m' (i, token) = m (i, token))
    (hrequest : m' (s.withdrawals.length, .request) ≤ 1)
    (hcredit : m' (s.withdrawals.length, .credit) = 0) : Sound balances (s.claim request) m' where
  good i w hw := by
    rw [State.claim, List.getElem?_append] at hw
    split_ifs at hw with hi
    · rw [hother i _ hi.ne, hother i _ hi.ne]
      exact h.good i w hw
    · obtain ⟨hlength, hw⟩ := List.getElem?_eq_some_iff.mp hw
      rw [List.length_singleton] at hlength
      obtain rfl : i = s.withdrawals.length :=
        (Nat.sub_eq_zero_iff_le.mp (Nat.lt_one_iff.mp hlength)).antisymm (not_lt.mp hi)
      simp only [Nat.sub_self, List.getElem_cons_zero] at hw
      subst hw
      rw [hcredit]
      exact Good.claim ⟨.PENDING, false⟩ rfl rfl rfl rfl rfl hrequest
  none i token hi := by
    rw [State.claim, List.length_append, List.length_singleton] at hi
    rw [hother i token (by omega)]
    exact h.none i token (by omega)
  balances account := by
    change s.balances account = _
    rw [h.balances account, State.net, State.net, State.claim]
    simp [Withdrawal.net]

/-- A request has ended. -/
lemma Sound.leave (h : Sound balances s (tokens p + rest))
    (hp : ∀ token, p.token = some token → token.2 = .request) :
    Sound balances s (tokens .returned + rest) where
  good i w hw := by
    have hgood := h.good i w hw
    have hcredit : tokens p (i, .credit) = 0 := by
      rw [tokens_apply, if_neg]
      intro htoken
      cases hp _ htoken
    rw [Pi.add_apply, Pi.add_apply, hcredit] at hgood
    have hreturned : ∀ x, tokens .returned x = 0 := fun x => rfl
    rw [Pi.add_apply, Pi.add_apply, hreturned, hreturned, zero_add]
    rw [tokens_apply] at hgood
    split_ifs at hgood
    · rw [add_comm 1] at hgood
      exact hgood.leave
    · rwa [zero_add] at hgood
  none i token hi := by
    have hzero := h.none i token hi
    rw [Pi.add_apply] at hzero ⊢
    exact Nat.eq_zero_of_le_zero (by
      rw [show tokens .returned (i, token) = 0 from rfl, zero_add]
      omega)
  balances := h.balances

/-- What the other calls know is still so. -/
lemma Knows.update (h : Knows s q)
    (hfate : ∀ w, s.withdrawals[id]? = some w → (f w).fate = w.fate ∨ w.fate = .unsent ∨
      w.fate = .inFlight ∧ (f w).fate ≠ .unsent)
    (hopen : q.token = some (id, .request) → ∀ w, s.withdrawals[id]? = some w →
      ∀ hasHash debits refunds, Open w hasHash debits refunds →
        Open (f w) hasHash debits refunds) :
    Knows (s.update id f) q := by
  have hstays : ∀ {i hasHash debits refunds}, q.token = some (i, .request) →
      s.Has i (fun w => Open w hasHash debits refunds) →
      (s.update id f).Has i (fun w => Open w hasHash debits refunds) := by
    intro i hasHash debits refunds htoken hhas
    refine Has.update hhas (fun w hw ho hi => ?_) fun _ ho _ => ho
    subst hi
    exact hopen htoken w hw _ _ _ ho
  have hsent : ∀ {i}, s.Has i (fun w => w.fate ≠ .unsent) →
      (s.update id f).Has i (fun w => w.fate ≠ .unsent) := by
    intro i hhas
    refine Has.update hhas (fun w hw hsent hi => ?_) fun _ hsent _ => hsent
    subst hi
    rcases hfate w hw with heq | hunsent | ⟨-, hne⟩
    · rwa [heq]
    · exact absurd hunsent hsent
    · exact hne
  cases q with
  | reserve i | send i | stamp i | broadcast i => exact hstays rfl h
  | refund i =>
    refine Has.update h (fun w hw ho hi => ?_) fun _ ho _ => ho
    subst hi
    obtain ⟨hasHash, ho⟩ := ho
    exact ⟨hasHash, hopen rfl w hw _ _ _ ho⟩
  | release i =>
    refine Has.update h (fun w hw ho hi => ?_) fun _ ho _ => ho
    subst hi
    obtain ⟨hasHash, debits, ho⟩ := ho
    exact ⟨hasHash, debits, hopen rfl w hw _ _ _ ho⟩
  | recordHash i => exact Has.update h (fun _ _ _ _ => trivial) fun _ _ _ => trivial
  | finalize i => exact hsent h
  | complete row rows => exact hsent h
  | fail row rows => exact fun hhash => hsent (h hhash)
  | _ => trivial

/-! ### Steps -/

/-- What a step leaves: a sound table, and calls that know what they knew. -/
structure Goes (balances : Account → ℚ) (s : State) (rest : Tokens) (s' : State) (p' : Proc) :
    Prop where
  sound : Sound balances s' (tokens p' + rest)
  knows : Knows s' p'
  others : ∀ q, tokens q ≤ rest → Knows s q → Knows s' q

lemma Knows.of_withdrawals (h : Knows s q) (hs : s'.withdrawals = s.withdrawals) :
    Knows s' q := by
  unfold Knows at h ⊢
  unfold State.Has at h ⊢
  rwa [hs]

lemma Sound.alone {w : Withdrawal} (hI : Sound balances s (tokens p + rest))
    (hp : p.token = some (id, .request)) (hq : tokens q ≤ rest)
    (hw : s.withdrawals[id]? = some w) : q.token ≠ some (id, .request) := by
  intro htoken
  have halone := (hI.good id w hw).alone
  have hle : tokens q (id, .request) ≤ rest (id, .request) := hq _
  rw [tokens_apply, if_pos htoken] at hle
  rw [Pi.add_apply, tokens_apply, if_pos hp] at halone
  omega

/-- A request writes its withdrawal. -/
lemma Sound.write {w : Withdrawal} (hI : Sound balances s (tokens p + rest))
    (hp : p.token = some (id, .request)) (hw : s.withdrawals[id]? = some w)
    (hs' : s'.withdrawals = (s.update id f).withdrawals)
    (hbalances : ∀ account, s'.balances account - s'.net account =
      s.balances account - s.net account)
    (hgood : ∀ requests credits, Good w requests credits → Good (f w) requests credits)
    (hfate : (f w).fate = w.fate ∨ w.fate = .unsent) :
    Sound balances s' (tokens p + rest) ∧ ∀ q, tokens q ≤ rest → Knows s q → Knows s' q := by
  have hfrom : ∀ w', s.withdrawals[id]? = some w' → w' = w := fun w' hw' =>
    Option.some.inj (hw'.symm.trans hw)
  refine ⟨hI.update hs' (fun _ _ _ => rfl) (fun hid _ => hI.none _ _ hid) (fun w' hw' hg => ?_)
    hbalances, fun q hq hK => ?_⟩
  · cases hfrom w' hw'
    exact hgood _ _ hg
  · have hupdate : Knows (s.update id f) q := by
      refine hK.update (fun w' hw' => ?_) fun htoken w' hw' => absurd htoken (hI.alone hp hq hw')
      cases hfrom w' hw'
      exact hfate.imp_right .inl
    exact hupdate.of_withdrawals hs'

/-- A request writes its withdrawal, and moves no balance. -/
lemma Sound.mark {w : Withdrawal} (hI : Sound balances s (tokens p + rest))
    (hp : p.token = some (id, .request)) (hw : s.withdrawals[id]? = some w)
    (hf : ∀ w, (f w).account = w.account ∧ (f w).net = w.net)
    (hgood : ∀ requests credits, Good w requests credits → Good (f w) requests credits)
    (hfate : (f w).fate = w.fate ∨ w.fate = .unsent) :
    Sound balances (s.update id f) (tokens p + rest) ∧
      ∀ q, tokens q ≤ rest → Knows s q → Knows (s.update id f) q :=
  hI.write hp hw rfl (fun account => by rw [net_quiet hf]; rfl) hgood hfate

lemma Goes.same (hI : Sound balances s (tokens p' + rest)) (hK : Knows s p') :
    Goes balances s rest s p' :=
  ⟨hI, hK, fun _ _ h => h⟩

/-- The call is over, and its request with it. -/
lemma Goes.done (hI : Sound balances s (tokens p + rest))
    (hp : ∀ token, p.token = some token → token.2 = .request) :
    Goes balances s rest s .returned :=
  ⟨hI.leave hp, trivial, fun _ _ h => h⟩

lemma token_of_request {token : WithdrawalId × Token} (hp : p.token = some (id, .request))
    (h : p.token = some token) : token.2 = .request := by
  rw [hp] at h
  cases h
  rfl

lemma Knows.claim (h : Knows s q) (request : Request) : Knows (s.claim request) q := by
  have hhas : ∀ {i P}, s.Has i P → (s.claim request).Has i P := by
    rintro i P ⟨w, hw, hP⟩
    exact ⟨w, by
      rw [State.claim, List.getElem?_append_left (List.getElem?_eq_some_iff.mp hw).1, hw], hP⟩
  cases q with
  | reserve | send | stamp | broadcast | finalize | recordHash | refund | release | complete =>
    exact hhas h
  | fail => exact fun hhash => hhas (h hhash)
  | _ => trivial

lemma Goes.claim {request : Request} (hI : Sound balances s (tokens (.claim request) + rest))
    (hp' : p' = .reserve s.withdrawals.length ∨ p' = .returned) :
    Goes balances s rest (s.claim request) p' := by
  have hzero : ∀ token, rest (s.withdrawals.length, token) = 0 := fun token => by
    have hnone := hI.none _ token le_rfl
    rwa [Pi.add_apply, tokens_apply, if_neg (by simp [Proc.token]), zero_add] at hnone
  refine ⟨hI.claim ?_ ?_ ?_, ?_, fun q _ hq => hq.claim request⟩
  · intro i token hi
    rw [Pi.add_apply, Pi.add_apply, tokens_apply, tokens_apply, if_neg, if_neg]
    · simp [Proc.token]
    · rcases hp' with rfl | rfl <;> simp [Proc.token, Ne.symm hi]
  · rw [Pi.add_apply, hzero, tokens_apply]
    split_ifs <;> simp
  · rw [Pi.add_apply, hzero, tokens_apply, if_neg]
    rcases hp' with rfl | rfl <;> simp [Proc.token]
  · rcases hp' with rfl | rfl
    · have hnew : (s.claim request).withdrawals[s.withdrawals.length]? =
          some ⟨request.account, request.idempotencyKey, request.amount, s.now,
            some ⟨.PENDING, false⟩, .unsent, 0, 0⟩ := by
        rw [State.claim, List.getElem?_append_right le_rfl, Nat.sub_self]
        rfl
      exact ⟨_, hnew, rfl, rfl, rfl, rfl⟩
    · trivial

/-- A step of a request. -/
theorem Goes.withdraw (hI : Sound balances s (tokens p + rest)) (hK : Knows s p)
    (hC : Careful s rest p answer)
    (h : Withdrawals.withdraw s p answer = .ok (s', p')) : Goes balances s rest s' p' := by
  unfold Withdrawals.withdraw at h
  cases p with
  | claim request =>
    dsimp only at h
    split at h
    · cases h
      exact .same hI trivial
    · cases answer with
      | ok =>
        dsimp only at h
        split_ifs at h
        · cases h
          exact .same hI trivial
        · cases h
          exact .claim hI (.inl rfl)
      | lost =>
        dsimp only at h
        split_ifs at h
        · cases h
          exact .same hI trivial
        · cases h
          exact .claim hI (.inr rfl)
      | fails =>
        cases h
        exact .same hI trivial
      | _ => cases h
  | reserve id =>
    obtain ⟨w, hw, ho⟩ := hK
    obtain ⟨hsound, hothers⟩ := hI.write rfl hw
      (show (s.debit id w).withdrawals = (s.update id _).withdrawals from rfl) (net_debit hw)
      (fun _ _ hg => hg.debit ho) (.inl rfl)
    dsimp only at h
    rw [hw] at h
    cases answer with
    | ok =>
      dsimp only at h
      split_ifs at h
      · cases h
        exact .same hI ⟨w, hw, false, 0, ho⟩
      · cases h
        exact ⟨hsound, ⟨_, getElem?_update_self hw _, ho.debit⟩, hothers⟩
    | lost =>
      dsimp only at h
      split_ifs at h
      · cases h
        exact .done hI fun _ => token_of_request rfl
      · cases h
        exact ⟨hsound.leave fun _ => token_of_request rfl, trivial, hothers⟩
    | contended =>
      cases h
      exact .same hI ⟨w, hw, false, 0, ho⟩
    | fails =>
      cases h
      exact .done hI fun _ => token_of_request rfl
    | _ => cases h
  | send id =>
    obtain ⟨w, hw, ho⟩ := hK
    cases answer with
    | ok =>
      cases h
      exact .same hI ⟨w, hw, ho⟩
    | fails =>
      cases h
      exact .same hI ⟨w, hw, false, ho⟩
    | _ => cases h
  | stamp id =>
    obtain ⟨w, hw, ho⟩ := hK
    obtain ⟨hsound, hothers⟩ :=
      hI.mark (f := fun w => w.setRow fun row => { row with hasHash := true })
      rfl hw (fun _ => ⟨rfl, rfl⟩) (fun _ _ hg => hg.stamp ho) (.inl rfl)
    cases answer with
    | ok =>
      cases h
      exact ⟨hsound, ⟨_, getElem?_update_self hw _, ho.stamp⟩, hothers⟩
    | lost =>
      cases h
      exact ⟨hsound, ⟨_, getElem?_update_self hw _, true, ho.stamp⟩, hothers⟩
    | fails =>
      cases h
      exact .same hI ⟨w, hw, false, ho⟩
    | _ => cases h
  | broadcast id =>
    obtain ⟨w, hw, ho⟩ := hK
    obtain ⟨hsound, hothers⟩ := hI.mark (f := fun w => { w with fate := .inFlight }) rfl hw
      (fun _ => ⟨rfl, rfl⟩) (fun _ _ hg => hg.propagate ho) (.inr ho.unsent)
    cases answer with
    | accepted =>
      cases h
      exact ⟨hsound, ⟨_, getElem?_update_self hw _, by simp⟩, hothers⟩
    | ambiguous propagated =>
      cases h
      cases propagated with
      | true  => exact ⟨hsound, ⟨_, getElem?_update_self hw _, trivial⟩, hothers⟩
      | false => exact .same hI ⟨w, hw, trivial⟩
    | _ => cases h
  | finalize id =>
    obtain ⟨w, hw, hsent⟩ := hK
    have hfinalize : (s.lost id → ¬ s.pending id) →
        Goes balances s rest (s.finalize id) .returned := fun hlands => by
      obtain ⟨hsound, hothers⟩ := hI.mark (f := fun w => w.setRow fun _ => ⟨.COMPLETED, true⟩)
        rfl hw (fun _ => ⟨rfl, rfl⟩)
        (fun _ _ hg => hg.finalize hsent fun hlost row hrow hstatus =>
          hlands ⟨w, hw, by simpa using hlost⟩ ⟨w, hw, row, hrow, hstatus⟩) (.inl rfl)
      exact ⟨hsound.leave fun _ => token_of_request rfl, trivial, hothers⟩
    cases answer with
    | ok =>
      cases h
      exact hfinalize hC
    | lost =>
      cases h
      exact hfinalize hC
    | fails =>
      cases h
      exact .done hI fun _ => token_of_request rfl
    | _ => cases h
  | recordHash id =>
    obtain ⟨w, hw, -⟩ := hK
    obtain ⟨hsound, hothers⟩ := hI.mark (f := fun w => w.setRow fun row =>
        if row.status = .PENDING then { row with hasHash := true } else row)
      rfl hw (fun _ => ⟨rfl, rfl⟩) (fun _ _ hg => hg.recordHash) (.inl rfl)
    cases answer with
    | fails =>
      cases h
      exact .done hI fun _ => token_of_request rfl
    | ok =>
      cases h
      exact ⟨hsound.leave fun _ => token_of_request rfl, trivial, hothers⟩
    | lost =>
      cases h
      exact ⟨hsound.leave fun _ => token_of_request rfl, trivial, hothers⟩
    | _ => cases h
  | refund id =>
    obtain ⟨w, hw, hasHash, ho⟩ := hK
    obtain ⟨hsound, hothers⟩ := hI.write rfl hw
      (show (s.refund id w).withdrawals = (s.update id _).withdrawals from rfl) (net_refund hw)
      (fun _ _ hg => hg.refund ho) (.inl rfl)
    dsimp only at h
    rw [hw] at h
    cases answer with
    | ok =>
      cases h
      exact ⟨hsound, ⟨_, getElem?_update_self hw _, hasHash, 1, ho.refund⟩, hothers⟩
    | lost =>
      cases h
      exact ⟨hsound.leave fun _ => token_of_request rfl, trivial, hothers⟩
    | fails =>
      cases h
      exact .done hI fun _ => token_of_request rfl
    | _ => cases h
  | release id =>
    obtain ⟨w, hw, hasHash, debits, ho⟩ := hK
    obtain ⟨hsound, hothers⟩ := hI.mark (f := fun w => { w with row := none }) rfl hw
      (fun _ => ⟨rfl, rfl⟩) (fun _ _ hg => hg.release ho) (.inl rfl)
    cases answer with
    | fails =>
      cases h
      exact .done hI fun _ => token_of_request rfl
    | ok =>
      cases h
      exact ⟨hsound.leave fun _ => token_of_request rfl, trivial, hothers⟩
    | lost =>
      cases h
      exact ⟨hsound.leave fun _ => token_of_request rfl, trivial, hothers⟩
    | _ => cases h
  | _ => cases h

lemma sent_of_chainStatus {landed : Bool} (h : s.chainStatus id = some landed) :
    s.Has id fun w => w.fate ≠ .unsent := by
  obtain ⟨w, hw, hfate⟩ := Option.bind_eq_some_iff.mp h
  refine ⟨w, hw, ?_⟩
  split at hfate <;> simp_all

lemma exists_of_pending (h : s.pending id) :
    ∃ w row, s.withdrawals[id]? = some w ∧ w.row = some row ∧ row.status = .PENDING := by
  obtain ⟨w, hw, row, hrow, hstatus⟩ := h
  exact ⟨w, row, hw, hrow, hstatus⟩

/-- A row that is not pending is left alone. -/
lemma cas_of_not_pending (h : ¬ s.pending id) (new_status : TransactionStatus) (hash : Bool) :
    s.cas id new_status hash = s := by
  have hsame : (s.cas id new_status hash).withdrawals = s.withdrawals := by
    refine List.ext_getElem? fun i => ?_
    rw [State.cas, getElem?_update]
    split_ifs with hi
    · subst hi
      cases hw : s.withdrawals[id]? with
      | none => rfl
      | some w =>
        rw [Option.map_some, Withdrawal.setRow]
        cases hrow : w.row with
        | none => rw [Option.map_none, ← hrow]
        | some row =>
          have hstatus : row.status ≠ .PENDING := fun hstatus => h ⟨w, hw, row, hrow, hstatus⟩
          rw [Option.map_some, if_neg hstatus, ← hrow]
    · rfl
  exact congrArg (fun withdrawals => State.mk s.now s.balances withdrawals) hsame

lemma net_cas (new_status : TransactionStatus) (hash : Bool) (account : Account) :
    (s.cas id new_status hash).net account = s.net account := by
  rw [State.cas]
  refine net_quiet ?_ account
  exact fun _ => ⟨rfl, rfl⟩

lemma Goes.complete {row : Snapshot} {rows : List Snapshot}
    (hI : Sound balances s (tokens (.complete row rows) + rest)) {w : Withdrawal}
    (hw : s.withdrawals[row.id]? = some w) (hsent : w.fate ≠ .unsent)
    (hC : s.lost row.id → ¬ s.pending row.id) :
    Goes balances s rest (s.cas row.id .COMPLETED true) (.resolve rows) := by
  have hfrom : ∀ w', s.withdrawals[row.id]? = some w' → w' = w := fun w' hw' =>
    Option.some.inj (hw'.symm.trans hw)
  refine ⟨hI.update rfl (fun _ _ _ => rfl) (fun hid _ => hI.none _ _ hid) (fun w' hw' hg => ?_)
    (fun account => ?_), trivial, fun q _ hq => hq.update (fun _ _ => .inl rfl)
      fun _ w' hw' hasHash debits refunds ho => ?_⟩
  · cases hfrom w' hw'
    exact hg.complete hsent fun hlost row' hrow hstatus =>
      hC ⟨_, hw, by simpa using hlost⟩ ⟨_, hw, row', hrow, hstatus⟩
  · rw [net_cas]
    rfl
  · cases hfrom w' hw'
    exact absurd ho.unsent hsent

lemma Goes.fail {row : Snapshot} {rows : List Snapshot}
    (hI : Sound balances s (tokens (.fail row rows) + rest)) (hpending : s.pending row.id)
    (hsent : row.hasHash = true → s.Has row.id fun w => w.fate ≠ .unsent)
    (hC : if row.hasHash = true then ¬ s.landed row.id else Stranded s rest row.id) :
    Goes balances s rest (s.cas row.id .FAILED false) (.credit row rows) := by
  obtain ⟨w, row', hw, hrow, hstatus⟩ := exists_of_pending hpending
  have hfrom : ∀ w', s.withdrawals[row.id]? = some w' → w' = w := fun w' hw' =>
    Option.some.inj (hw'.symm.trans hw)
  have hlost : w.fate ≠ .unsent ∧ w.fate ≠ .landed ∨
      (row'.hasHash = false ∧ w.refunds < w.debits) ∧ rest (row.id, .request) = 0 := by
    split_ifs at hC with hhash
    · obtain ⟨w', hw', hfate⟩ := hsent hhash
      exact .inl ⟨hfrom w' hw' ▸ hfate, fun hlanded => hC ⟨w, hw, hlanded⟩⟩
    · obtain ⟨w', hw', hlt, hnone, hdead⟩ := hC
      cases hfrom w' hw'
      exact .inr ⟨⟨hnone row' hrow, hlt⟩, hdead⟩
  refine ⟨hI.update rfl (fun i token hi => ?_) (fun hid _ => ?_) (fun w' hw' hg => ?_)
    (fun account => ?_), trivial, fun q hq hK => hK.update (fun _ _ => .inl rfl)
      fun htoken w' hw' hasHash debits refunds ho => ?_⟩
  · rw [Pi.add_apply, Pi.add_apply, tokens_apply, tokens_apply, if_neg, if_neg]
    · simp [Proc.token]
    · simp [Proc.token, Ne.symm hi]
  · exact absurd (List.getElem?_eq_some_iff.mp hw).1 (not_lt.mpr hid)
  · cases hfrom w' hw'
    simp only [Pi.add_apply, tokens_apply, Proc.token, reduceCtorEq, if_false, zero_add,
      Option.some.injEq, Prod.mk.injEq, and_false, if_true] at hg ⊢
    rw [add_comm 1]
    exact hg.fail hrow hstatus (hlost.imp_right And.left)
  · rw [net_cas]
    rfl
  · cases hfrom w' hw'
    rcases hlost with ⟨hfate, -⟩ | ⟨-, hdead⟩
    · exact absurd ho.unsent hfate
    · have hle : tokens q (row.id, .request) ≤ rest (row.id, .request) := hq _
      rw [tokens_apply, if_pos htoken, hdead] at hle
      exact absurd hle (by decide)

lemma Goes.credit {row : Snapshot} {rows : List Snapshot} {w : Withdrawal}
    (hI : Sound balances s (tokens (.credit row rows) + rest))
    (hw : s.withdrawals[row.id]? = some w) :
    Goes balances s rest (s.refund row.id w) (.resolve rows) := by
  have hfrom : ∀ w', s.withdrawals[row.id]? = some w' → w' = w := fun w' hw' =>
    Option.some.inj (hw'.symm.trans hw)
  have hgood := hI.good row.id w hw
  simp only [Pi.add_apply, tokens_apply, Proc.token, Option.some.injEq, Prod.mk.injEq,
    reduceCtorEq, and_false, if_false, zero_add, if_true] at hgood
  rw [add_comm 1] at hgood
  have hs' : (s.refund row.id w).withdrawals = (s.update row.id _).withdrawals := rfl
  refine ⟨hI.update hs' (fun i token hi => ?_) (fun hid _ => ?_)
    (fun w' hw' hg => ?_) (net_refund hw), trivial, fun q _ hK => ?_⟩
  · rw [Pi.add_apply, Pi.add_apply, tokens_apply, tokens_apply, if_neg, if_neg]
    · simp [Proc.token, Ne.symm hi]
    · simp [Proc.token]
  · exact absurd (List.getElem?_eq_some_iff.mp hw).1 (not_lt.mpr hid)
  · cases hfrom w' hw'
    simp only [Pi.add_apply, tokens_apply, Proc.token, reduceCtorEq, if_false, zero_add]
    exact hgood.credit
  · have hupdate : Knows (s.update row.id fun w => { w with refunds := w.refunds + 1 }) q := by
      refine hK.update (fun _ _ => .inl rfl) fun _ w' hw' hasHash debits refunds ho => ?_
      cases hfrom w' hw'
      exact absurd (hgood.pending _ ho.row rfl).1 (Nat.succ_ne_zero _)
    exact hupdate.of_withdrawals rfl

/-- A step of the reconciler. -/
theorem Goes.reconcile (hI : Sound balances s (tokens p + rest)) (hK : Knows s p)
    (hC : Careful s rest p answer)
    (h : Withdrawals.reconcile s p answer = .ok (s', p')) : Goes balances s rest s' p' := by
  unfold Withdrawals.reconcile at h
  cases p with
  | select =>
    cases answer with
    | ok =>
      cases h
      exact .same hI trivial
    | fails =>
      cases h
      exact .same hI trivial
    | _ => cases h
  | resolve rows =>
    cases rows with
    | nil =>
      cases answer with
      | ok =>
        cases h
        exact .same hI trivial
      | _ => cases h
    | cons row rows =>
      dsimp only at h
      split at h
      · split at h
        · rename_i hstatus
          cases h
          exact .same hI (sent_of_chainStatus hstatus)
        · rename_i hstatus
          cases h
          exact .same hI fun _ => sent_of_chainStatus hstatus
        · cases h
          exact .same hI trivial
        · cases h
          exact .same hI trivial
        · rename_i succeeded
          split_ifs at h with hsent hsucceeded
          · cases h
            exact .same hI hsent
          · cases h
            exact .same hI fun _ => hsent
        · cases h
      · rename_i hhash
        split_ifs at h
        · cases h
          exact .same hI fun hhas => absurd hhas hhash
        · cases h
          exact .same hI trivial
  | complete row rows =>
    obtain ⟨w, hw, hsent⟩ := hK
    cases answer with
    | ok =>
      cases h
      exact .complete hI hw hsent hC
    | lost =>
      cases h
      exact .complete hI hw hsent hC
    | fails =>
      cases h
      exact .same hI trivial
    | _ => cases h
  | fail row rows =>
    cases answer with
    | ok =>
      dsimp only at h
      split_ifs at h with hpending
      · cases h
        exact .fail hI hpending hK (hC hpending)
      · cases h
        exact .same hI trivial
    | lost =>
      cases h
      rw [cas_of_not_pending hC]
      exact .same hI trivial
    | fails =>
      cases h
      exact .same hI trivial
    | _ => cases h
  | credit row rows =>
    dsimp only at h
    split at h
    · rename_i hw
      cases h
      exact .credit hI hw
    · rename_i hw
      cases h
      exact .credit hI hw
    · exact absurd rfl hC.1
    · cases h
  | _ => cases h

theorem Goes.step (hI : Sound balances s (tokens p + rest)) (hK : Knows s p)
    (hC : Careful s rest p answer) (h : Withdrawals.step s p answer = .ok (s', p')) :
    Goes balances s rest s' p' := by
  unfold Withdrawals.step at h
  split at h
  · rename_i hcrash
    subst hcrash
    cases h
    refine .done hI fun token htoken => ?_
    cases p with
    | credit => exact absurd rfl hC.2
    | select | resolve | complete | fail | claim | returned => cases htoken
    | _ =>
      cases htoken
      rfl
  · split at h
    · exact .reconcile hI hK hC h
    · exact .reconcile hI hK hC h
    · exact .reconcile hI hK hC h
    · exact .reconcile hI hK hC h
    · exact .reconcile hI hK hC h
    · exact .withdraw hI hK hC h

lemma Sound.mined {fate : Fate} (hI : Sound balances s m) (hE : AsReported s m (.mined id fate))
    (hs' : environment s (.mined id fate) = .ok s') :
    Sound balances s' m ∧ ∀ q, Knows s q → Knows s' q := by
  cases hs'
  refine ⟨hI.update rfl (fun _ _ _ => rfl) (fun hid _ => hI.none _ _ hid) (fun w hw hg => ?_)
    (fun account => ?_), fun q hq => hq.update (fun w hw => ?_)
      fun _ w hw hasHash debits refunds ho => ?_⟩
  · split_ifs with hflight
    · obtain ⟨hlands, hkept⟩ := hE w hw hflight.1
      exact hg.mined hflight.1 hflight.2 (fun hlost => hlands (by simpa using hlost)) hkept
    · exact hg
  · rw [net_quiet fun w => ⟨?_, ?_⟩]
    · rfl
    · split_ifs <;> rfl
    · split_ifs <;> rfl
  · split_ifs with hflight
    · exact .inr (.inr hflight)
    · exact .inl rfl
  · have hflight : ¬ (w.fate = .inFlight ∧ fate ≠ .unsent) := fun h => by
      cases h.1.symm.trans ho.unsent
    rwa [if_neg hflight]

/-! ### Runs -/

variable {n : ℕ}

lemma sound_inductive (balances : Account → ℚ) :
    program.Inductive tokens (Sound balances) Knows Careful AsReported where
  step hI hK hC hstep :=
    have hgoes := Goes.step hI hK hC hstep
    ⟨hgoes.sound, hgoes.knows⟩
  stable hI hK hC hstep hle hq := (Goes.step hI hK hC hstep).others _ hle hq
  environment := by
    intro s s' event total hI hE hstep
    cases event with
    | elapse duration =>
      cases hstep
      exact ⟨⟨hI.good, hI.none, hI.balances⟩, fun q _ hq => Knows.of_withdrawals hq rfl⟩
    | mined id fate =>
      obtain ⟨hsound, hknows⟩ := hI.mined hE hstep
      exact ⟨hsound, fun q _ hq => hknows q hq⟩

lemma sound_initial (balances : Account → ℚ) (calls : Fin n → Call) :
    Program.Invariant tokens (Sound balances) Knows (initial balances calls) where
  shared := by
    have htotal : (initial balances calls).total tokens = 0 :=
      Finset.sum_eq_zero fun i _ => by cases h : calls i <;> simp [initial, h, Call.start]; rfl; rfl
    rw [htotal]
    exact ⟨nofun, fun _ _ _ => rfl, fun account => by simp [initial, State.net]⟩
  knows i := by
    cases h : calls i <;> simp [initial, h, Call.start, Knows]

/-- Nobody works on the withdrawal. -/
lemma total_eq_zero {c : Config n} (h : ∀ i, ∀ token ∈ (c.procs i).token, token.1 ≠ id)
    (token : Token) : c.total tokens (id, token) = 0 := by
  rw [Program.Config.total, Finset.sum_apply]
  refine Finset.sum_eq_zero fun i _ => ?_
  have hi : (c.procs i).token ≠ some (id, token) := fun htoken => h i _ htoken rfl
  rw [tokens_apply, if_neg hi]

/-- What is resolved and has no transaction is refunded, or was never debited. -/
lemma Good.refunds_eq (h : Good w requests 0) (hterminal : w.terminal)
    (hlost : w.fate = .unsent ∨ w.fate = .reverted ∨ w.fate = .dropped) :
    w.refunds = w.debits := by
  cases hrow : w.row with
  | none => exact (h.released hrow).2
  | some row =>
    have hstatus := hterminal row hrow
    cases hcase : row.status with
    | PENDING => exact absurd hcase hstatus
    | FAILED => exact (h.failed row hrow hcase).2
    | COMPLETED =>
      obtain ⟨hsent, hrefunded⟩ := h.completed row hrow hcase
      rw [h.sent hsent, ← hrefunded (hlost.resolve_left hsent), add_zero]

lemma Sound.conserved {c : Config n} (h : Sound balances c.shared (c.total tokens)) :
    Conserved balances c where
  once w hw := by
    obtain ⟨id, hid⟩ := List.mem_iff_getElem?.mp hw
    have hgood := h.good id w hid
    exact ⟨(Nat.le_add_right _ _).trans hgood.refunded, hgood.once⟩
  landed w hw hlanded := by
    obtain ⟨id, hid⟩ := List.mem_iff_getElem?.mp hw
    exact Nat.eq_zero_of_add_eq_zero_right ((h.good id w hid).kept hlanded)
  resolved id w hw hterminal hfree := by
    have hgood := h.good id w hw
    rw [total_eq_zero hfree, total_eq_zero hfree] at hgood
    refine ⟨fun hlanded => ?_, fun hlost => ?_⟩
    · have hrefunds := hgood.kept hlanded
      rw [add_zero] at hrefunds
      rw [Withdrawal.net, hrefunds, hgood.sent (by simp [hlanded])]
      norm_num
    · rw [Withdrawal.net, hgood.refunds_eq hterminal (by simpa using hlost), sub_self, mul_zero]
  balances := h.balances

/-- Where the reconciler refunds by age only what a dead request has left debited, each row that it
marks FAILED gets its refund, and transactions turn out as they were reported, a withdrawal that is
resolved costs its amount if its transaction landed and nothing otherwise. -/
theorem conserved_of_careful (balances : Account → ℚ) (calls : Fin n → Call)
    (acts : List (Action n))
    (h : (program.machine n).Along (Program.Meets tokens Careful AsReported)
      (initial balances calls) acts) :
    Conserved balances ((program.machine n).run (initial balances calls) acts) :=
  ((sound_inductive balances).run acts (sound_initial balances calls) h).shared.conserved

/-- Two requests for ten of a balance of fifteen, and two passes of the reconciler. -/
def twoRequests : Fin 4 → Call
  | 0 => .withdraw ⟨⟨1, 8453, 0⟩, 7, 10⟩
  | 1 => .withdraw ⟨⟨1, 8453, 0⟩, 8, 10⟩
  | 2 => .reconcile
  | 3 => .reconcile

/-- The first broadcast is ambiguous, is reported and lands; the second request finds too little. -/
def ambiguousLands : List (Action 4) :=
  [.take 0 .ok, .take 0 .ok, .take 0 .ok, .take 0 .ok, .take 0 (.ambiguous true), .take 0 .ok,
    .take 1 .ok, .take 1 .ok, .take 1 .ok, .environment (.elapse 200), .take 2 .ok,
    .take 2 (.unfinalised true), .environment (.mined 0 .landed), .take 2 .ok, .take 2 .ok]

theorem ambiguous_withdrawal_conserved :
    Conserved (fun _ => 15) ((program.machine 4).run (initial (fun _ => 15) twoRequests)
      ambiguousLands) :=
  conserved_of_careful _ _ _ (by decide +kernel)

/-- The request crashes between its claim and its debit, and half an hour later the reconciler
credits what was never debited. -/
theorem undebited_amount_refunded :
    ¬ ∀ (n : ℕ) (balances : Account → ℚ) (calls : Fin n → Call) (acts : List (Action n)),
      Conserved balances ((program.machine n).run (initial balances calls) acts) := by
  intro h
  have honce := (h 4 (fun _ => 15) twoRequests [.take 0 .ok, .take 0 .crash,
    .environment (.elapse 1800), .take 2 .ok, .take 2 .ok, .take 2 .ok, .take 2 .ok]).once
    ⟨⟨1, 8453, 0⟩, 7, 10, 0, some ⟨.FAILED, false⟩, .unsent, 0, 1⟩ (by decide +kernel)
  exact absurd honce.1 (by decide)

end Suwappu.HotWallet.Withdrawals
