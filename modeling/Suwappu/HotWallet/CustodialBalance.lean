import Suwappu.Lib.Checked
import Suwappu.Lib.Decimal
import Suwappu.Lib.Machine

/-!
# The custodial balance

One row of `custodial_balances` under READ COMMITTED, and any number of calls that move it. A call
is a transaction of single statements: a SELECT sees the committed row, an UPDATE takes the row
lock and waits for it, and only COMMIT shows the new balance to others. The calls take their steps
in any order, and every transaction may be rolled back at any point, as its session's owner or the
database decides.

The column holds `str` of a decimal. Strings and decimals correspond one to one, so that comparing
the strings compares coefficient and exponent.
-/

namespace Suwappu.HotWallet

open Checked

/-- The context in which Python's `Decimal` computes. -/
def context : Decimal.Context := ⟨28, -999999, 999999⟩

/-- A balance or an amount that is not negative. -/
abbrev Amount := { d : Decimal // 0 ≤ d.value }

inductive Operation where
  | add | subtract
deriving DecidableEq, Repr

inductive Error where
  /-- "Insufficient balance" -/
  | ValueError
  /-- the context's trap -/
  | Overflow
  /-- another transaction holds the row lock -/
  | Blocked
  /-- the call has returned -/
  | Finished
deriving DecidableEq, Repr

inductive Call where
  /-- `update_custodial_balance`, in its own session or in that of a caller such as `_credit` -/
  | updateCustodialBalance (operation : Operation) (amount : Amount)
  | reserveCustodialBalance (amount : Decimal) (maxRetries : ℕ)

/-- Where a call stands. -/
inductive Proc where
  | updateSelect (operation : Operation) (amount : Amount)
  | updateFlush (operation : Operation) (amount : Amount) (current newBalance : Decimal)
  | updateCommit (operation : Operation) (amount : Amount) (current : Decimal)
  | updated (operation : Operation) (amount : Amount)
  | reserveSelect (amount : Decimal) (retries : ℕ)
  | reserveSwap (amount : Decimal) (retries : ℕ) (current newBalance : Decimal)
  | reserveCommit (amount : Decimal) (retries : ℕ) (current : Decimal) (updated : Bool)
  | reserved (amount : Decimal) (success : Bool)
  | failed
deriving DecidableEq

/-- The start of a call. Reserving nothing, or less, fails at once. -/
def Call.start : Call → Proc
  | .updateCustodialBalance operation amount => .updateSelect operation amount
  | .reserveCustodialBalance amount maxRetries =>
    if amount.coeff ≤ 0 then .reserved amount false else .reserveSelect amount maxRetries

structure State (n : ℕ) where
  /-- the committed balance -/
  balance : Decimal
  /-- the transaction that holds the row lock, and the balance it wrote -/
  lock : Option (Fin n × Decimal)
  procs : Fin n → Proc

variable {n : ℕ}

def State.init (initial : Amount) (calls : Fin n → Call) : State n where
  balance := initial
  lock := none
  procs i := (calls i).start

def State.set (s : State n) (i : Fin n) (p : Proc) : State n :=
  { s with procs := Function.update s.procs i p }

/-- The UPDATE of the row by a transaction that gets its lock. -/
def State.write (s : State n) (i : Fin n) (newBalance : Decimal) : Except Error (State n) := do
  guard (s.lock = none) .Blocked
  return { s with lock := some (i, newBalance) }

/-- COMMIT: what the transaction wrote is the balance from now on. -/
def State.commit (s : State n) (i : Fin n) : State n :=
  match s.lock with
  | none                 => s
  | some (j, newBalance) => if j = i then { s with balance := newBalance, lock := none } else s

/-- ROLLBACK: what the transaction wrote is gone. -/
def State.rollback (s : State n) (i : Fin n) : State n :=
  match s.lock with
  | none        => s
  | some (j, _) => if j = i then { s with lock := none } else s

/-- A result in the context, or its trap. -/
def trap : Option Decimal → Except Error Decimal
  | none   => .error .Overflow
  | some d => .ok d

/-- The new balance of `_apply_custodial_balance`. -/
def applied (operation : Operation) (current amount : Decimal) : Except Error Decimal :=
  match operation with
  | .add      => trap (context.add current amount)
  | .subtract => do
    let newBalance ← trap (context.sub current amount)
    guard (¬ newBalance.coeff < 0) .ValueError
    return newBalance

/-- The next statement of a call. -/
def advance (s : State n) (i : Fin n) : Except Error (State n) :=
  match s.procs i with
  | .updateSelect operation amount =>
    match applied operation s.balance amount with
    | .error _       => .ok (s.set i .failed)
    | .ok newBalance => .ok (s.set i (.updateFlush operation amount s.balance newBalance))
  | .updateFlush operation amount current newBalance => do
    -- an attribute without net change emits no UPDATE
    let s ← if newBalance = current then .ok s else s.write i newBalance
    return s.set i (.updateCommit operation amount current)
  | .updateCommit operation amount _ => .ok ((s.commit i).set i (.updated operation amount))
  | .reserveSelect amount 0 => .ok (s.set i (.reserved amount false))
  | .reserveSelect amount (retries + 1) =>
    if s.balance.lt amount then .ok (s.set i (.reserved amount false))
    else match context.sub s.balance amount with
      | none            => .ok (s.set i .failed)
      | some newBalance => .ok (s.set i (.reserveSwap amount retries s.balance newBalance))
  | .reserveSwap amount retries current newBalance =>
    -- a committed row that no longer matches is passed over without waiting for its lock
    if s.balance ≠ current then .ok (s.set i (.reserveCommit amount retries current false))
    else do
      let s ← s.write i newBalance
      return s.set i (.reserveCommit amount retries current true)
  | .reserveCommit amount retries _ updated =>
    .ok ((s.commit i).set i
      (if updated = true then .reserved amount true else .reserveSelect amount retries))
  | .updated _ _ | .reserved _ _ | .failed => .error .Finished

/-- A call that has not returned is rolled back. -/
def abort (s : State n) (i : Fin n) : Except Error (State n) :=
  match s.procs i with
  | .updated _ _ | .reserved _ _ | .failed => .error .Finished
  | _ => .ok ((s.rollback i).set i .failed)

inductive Action (n : ℕ) where
  | advance (i : Fin n)
  | abort (i : Fin n)

def step (s : State n) : Action n → Except Error (State n)
  | .advance i => advance s i
  | .abort i   => abort s i

/-- The calls on the row as a machine. A call that has to wait leaves everything as it is. -/
def machine (n : ℕ) : Machine (State n) (Action n) Error := ⟨step⟩

end Suwappu.HotWallet
