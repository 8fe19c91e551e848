import Suwappu.Chain
import Suwappu.Lib.Checked
import Suwappu.Lib.Cycles
import Suwappu.Lib.Machine
import Suwappu.Primitives.MulDiv

/-!
# The mutual credit network

`SuwappuMutualCredit`: bilateral credit lines between any two addresses in any token, with
interest, limits, multilateral netting and settlement. A line is stored under the hash of its
sorted pair and token; here the key is that triple itself.
-/

namespace Suwappu.MutualCredit

open Checked

inductive Error where
  | BadParams | BadStatus | LimitExceeded | NothingOwed | GraceNotElapsed | BadCycle
  | TransferFailed
  | Panic
deriving DecidableEq, Repr

instance : Overflow Error := ⟨.Panic⟩

/-- `MAX_FEE_RATE` -/
def MAX_FEE_RATE : ℕ := 16 * 10 ^ 9

inductive Status where
  | None | Proposed | Active | Closed | Defaulted
deriving DecidableEq, Repr

structure LineKey where
  lo : Address
  hi : Address
  token : Address
deriving DecidableEq

structure Line where
  limitA : ℕ
  limitB : ℕ
  /-- positive: the higher address owes the lower one; negative: the other way round -/
  balance : ℤ
  feeRate : ℕ
  grace : BlockTime
  lastAccrual : BlockTime
  demandTs : BlockTime
  status : Status
  demandBy : Address
  proposer : Address
deriving DecidableEq

/-- An untouched storage slot. -/
def Line.empty : Line where
  limitA := 0
  limitB := 0
  balance := 0
  feeRate := 0
  grace := 0
  lastAccrual := 0
  demandTs := 0
  status := .None
  demandBy := Address.zero
  proposer := Address.zero

structure State where
  lines : LineKey → Line
  defaults : Address → ℕ
  now : BlockTime

/-- The network right after deployment. -/
def State.init (now : BlockTime) : State where
  lines _ := Line.empty
  defaults _ := 0
  now := now

def State.setLine (s : State) (key : LineKey) (l : Line) : State :=
  { s with lines := Function.update s.lines key l }

/-- `_pair`: the lower and the higher of two addresses. -/
def pair (x y : Address) : Address × Address := if x < y then (x, y) else (y, x)

def lineKey (x y token : Address) : LineKey :=
  let (lo, hi) := pair x y
  ⟨lo, hi, token⟩

/-! ### Interest -/

/-- `uint256(-z)` of a negative `z`. -/
def negU (z : ℤ) : Except Error ℕ := do
  let n ← fitI 256 (-z)
  return n.toNat

/-- `bal > 0 ? uint256(bal) : uint256(-bal)` -/
def magnitude (bal : ℤ) : Except Error ℕ := if bal > 0 then pure bal.toNat else negU bal

/-- `_accruedBalance` -/
def accruedBalance (now : BlockTime) (l : Line) : Except Error ℤ := do
  let bal := l.balance
  if bal = 0 ∨ l.feeRate = 0 then
    return bal
  let dt ← subU now.val l.lastAccrual.val
  if dt = 0 then
    return bal
  let mag ← magnitude bal
  let perSecond ← mulU 256 mag l.feeRate
  let accrued ← mulU 256 perSecond dt
  let interest := accrued / WAD
  if bal > 0 then fitI 256 (bal + int256 interest) else fitI 256 (bal - int256 interest)

/-- `_accrue` -/
def accrue (now : BlockTime) (l : Line) : Except Error Line := do
  let balance ← accruedBalance now l
  return { l with balance := balance, lastAccrual := now }

/-- What `debtor` owes on a line between `lo` and `hi` with balance `bal`. -/
def debtOf (debtor lo hi : Address) (bal : ℤ) : Except Error ℕ :=
  if debtor = hi ∧ bal > 0 then pure bal.toNat
  else if debtor = lo ∧ bal < 0 then negU bal
  else pure 0

def owedBy (s : State) (debtor creditor token : Address) : Except Error ℕ := do
  let l := s.lines (lineKey debtor creditor token)
  if l.status ≠ .Active ∧ l.status ≠ .Defaulted then
    return 0
  let bal ← accruedBalance s.now l
  let (lo, hi) := pair debtor creditor
  debtOf debtor lo hi bal

/-- `_clearDemandIfCovered` -/
def clearDemandIfCovered (l : Line) (lo hi : Address) : Line :=
  if l.demandTs = 0 then l
  else
    let debtor := if l.demandBy = lo then hi else lo
    let stillOwed := (debtor = hi ∧ l.balance > 0) ∨ (debtor = lo ∧ l.balance < 0)
    if stillOwed then l else { l with demandTs := 0, demandBy := Address.zero }

/-! ### Opening -/

def proposeLine (s : State) (sender counterparty token : Address) (myLimit feeRate : ℕ)
    (grace : BlockTime) : Except Error State := do
  guard (¬ (counterparty = sender ∨ counterparty = Address.zero ∨ token = Address.zero)) .BadParams
  guard (feeRate ≤ MAX_FEE_RATE) .BadParams
  let key := lineKey sender counterparty token
  let l := s.lines key
  guard (l.status = .None ∨ l.status = .Closed) .BadStatus
  let (lo, _) := pair sender counterparty
  return s.setLine key {
    limitA := if sender = lo then myLimit else 0
    limitB := if sender = lo then 0 else myLimit
    balance := 0
    feeRate := feeRate
    grace := grace
    lastAccrual := s.now
    demandTs := 0
    status := .Proposed
    demandBy := Address.zero
    proposer := sender }

def acceptLine (s : State) (sender proposer token : Address) (myLimit : ℕ) :
    Except Error State := do
  let key := lineKey sender proposer token
  let l := s.lines key
  guard (l.status = .Proposed ∧ l.proposer = proposer ∧ proposer ≠ sender) .BadStatus
  let (lo, _) := pair sender proposer
  let l := if sender = lo then { l with limitA := myLimit } else { l with limitB := myLimit }
  return s.setLine key { l with status := .Active, lastAccrual := s.now }

def cancelProposal (s : State) (sender counterparty token : Address) : Except Error State := do
  let key := lineKey sender counterparty token
  let l := s.lines key
  guard (l.status = .Proposed ∧ l.proposer = sender) .BadStatus
  return s.setLine key { l with status := .Closed }

def rejectProposal (s : State) (sender proposer token : Address) : Except Error State := do
  let key := lineKey sender proposer token
  let l := s.lines key
  guard (l.status = .Proposed ∧ l.proposer = proposer ∧ proposer ≠ sender) .BadStatus
  return s.setLine key { l with status := .Closed }

/-! ### Credit -/

def pay (s : State) (sender dst token : Address) (amount : ℕ) : Except Error State := do
  let key := lineKey sender dst token
  let l := s.lines key
  guard (l.status = .Active) .BadStatus
  guard (amount ≤ 2 ^ 255 - 1) .BadParams
  let l ← accrue s.now l
  let (lo, hi) := pair sender dst
  if sender = lo then
    let newBal ← fitI 256 (l.balance - int256 amount)
    if newBal < 0 then
      let debt ← negU newBal
      guard (debt ≤ l.limitB) .LimitExceeded
    return s.setLine key (clearDemandIfCovered { l with balance := newBal } lo hi)
  else
    let newBal ← fitI 256 (l.balance + int256 amount)
    if newBal > 0 then
      guard (newBal.toNat ≤ l.limitA) .LimitExceeded
    return s.setLine key (clearDemandIfCovered { l with balance := newBal } lo hi)

/-! ### Netting -/

/-- The check of the nodes: no zero address and none twice. -/
def checkNodes : List Address → Except Error Unit
  | []           => pure ()
  | node :: rest => do
    guard (node ≠ Address.zero) .BadCycle
    guard (node ∉ rest) .BadCycle
    checkNodes rest

/-- The legs `(cycle[i], cycle[(i + 1) % n])`. -/
def legsOf (cycle : List Address) : List (Address × Address) := Cycles.legs cycle

/-- The read-only pass: the minimum owed along the legs, from `minOwed` on. -/
def minLeg (s : State) (token : Address) : List (Address × Address) → ℕ → Except Error ℕ
  | [], minOwed                          => pure minOwed
  | (debtor, creditor) :: legs, minOwed => do
    let owed ← owedBy s debtor creditor token
    guard (owed ≠ 0) .BadCycle
    minLeg s token legs (if owed < minOwed then owed else minOwed)

/-- The line of one leg after `minOwed` is netted. -/
def netLine (now : BlockTime) (minOwed : ℕ) (debtor creditor : Address) (l : Line) :
    Except Error Line := do
  guard (l.status = .Active) .BadCycle
  let l ← accrue now l
  let (lo, hi) := pair debtor creditor
  let legOwed ← debtOf debtor lo hi l.balance
  guard (minOwed ≤ legOwed) .BadCycle
  let balance ← fitI 256
    (if debtor = hi then l.balance - int256 minOwed else l.balance + int256 minOwed)
  return clearDemandIfCovered { l with balance := balance } lo hi

/-- The apply pass. -/
def netLegs (token : Address) (minOwed : ℕ) : State → List (Address × Address) → Except Error State
  | s, []                         => pure s
  | s, (debtor, creditor) :: legs => do
    let key := lineKey debtor creditor token
    let l ← netLine s.now minOwed debtor creditor (s.lines key)
    netLegs token minOwed (s.setLine key l) legs

def netCycle (s : State) (token : Address) (cycle : List Address) : Except Error State := do
  guard (3 ≤ cycle.length) .BadCycle
  checkNodes cycle
  let minOwed ← minLeg s token (legsOf cycle) (2 ^ 256 - 1)
  netLegs token minOwed s (legsOf cycle)

/-! ### Settlement -/

/-- `settle`. `transferred` tells whether the token moved the amount; the transfer is the last
thing the call does. -/
def settle (s : State) (sender creditor token : Address) (amount : ℕ) (transferred : Bool) :
    Except Error State := do
  let key := lineKey sender creditor token
  let l := s.lines key
  guard (l.status = .Active ∨ l.status = .Defaulted) .BadStatus
  let l ← accrue s.now l
  let owed ← owedBy (s.setLine key l) sender creditor token
  guard (owed ≠ 0) .NothingOwed
  let amount := if amount > owed then owed else amount
  let (lo, hi) := pair sender creditor
  let balance ← fitI 256
    (if sender = hi then l.balance - int256 amount else l.balance + int256 amount)
  guard (transferred = true) .TransferFailed
  return s.setLine key (clearDemandIfCovered { l with balance := balance } lo hi)

def demandSettlement (s : State) (sender debtor token : Address) : Except Error State := do
  let key := lineKey sender debtor token
  let l := s.lines key
  guard (l.status = .Active) .BadStatus
  let l ← accrue s.now l
  let owed ← owedBy (s.setLine key l) debtor sender token
  guard (owed ≠ 0) .NothingOwed
  return s.setLine key { l with demandTs := s.now, demandBy := sender }

def markDefault (s : State) (sender debtor token : Address) : Except Error State := do
  let key := lineKey sender debtor token
  let l := s.lines key
  guard (l.status = .Active ∧ l.demandBy = sender ∧ l.demandTs ≠ 0) .BadStatus
  guard (l.demandTs.val + l.grace.val ≤ s.now.val) .GraceNotElapsed
  let l ← accrue s.now l
  let owed ← owedBy (s.setLine key l) debtor sender token
  guard (owed ≠ 0) .NothingOwed
  let count ← addU 256 (s.defaults debtor) 1
  return { s.setLine key { l with status := .Defaulted } with
    defaults := Function.update s.defaults debtor count }

def closeLine (s : State) (sender counterparty token : Address) : Except Error State := do
  let key := lineKey sender counterparty token
  let l := s.lines key
  guard (l.status = .Active) .BadStatus
  let l ← accrue s.now l
  guard (l.balance = 0) .NothingOwed
  return s.setLine key { l with status := .Closed }

/-! ### Runs -/

inductive Call where
  | proposeLine (sender counterparty token : Address) (myLimit feeRate : ℕ) (grace : BlockTime)
  | acceptLine (sender proposer token : Address) (myLimit : ℕ)
  | cancelProposal (sender counterparty token : Address)
  | rejectProposal (sender proposer token : Address)
  | pay (sender dst token : Address) (amount : ℕ)
  | netCycle (token : Address) (cycle : List Address)
  | settle (sender creditor token : Address) (amount : ℕ) (transferred : Bool)
  | demandSettlement (sender debtor token : Address)
  | markDefault (sender debtor token : Address)
  | closeLine (sender counterparty token : Address)
  /-- the clock of a later block -/
  | advance (time : BlockTime)

def step (s : State) : Call → Except Error State
  | .proposeLine sender counterparty token myLimit feeRate grace =>
    proposeLine s sender counterparty token myLimit feeRate grace
  | .acceptLine sender proposer token myLimit => acceptLine s sender proposer token myLimit
  | .cancelProposal sender counterparty token => cancelProposal s sender counterparty token
  | .rejectProposal sender proposer token => rejectProposal s sender proposer token
  | .pay sender dst token amount => pay s sender dst token amount
  | .netCycle token cycle => netCycle s token cycle
  | .settle sender creditor token amount transferred =>
    settle s sender creditor token amount transferred
  | .demandSettlement sender debtor token => demandSettlement s sender debtor token
  | .markDefault sender debtor token => markDefault s sender debtor token
  | .closeLine sender counterparty token => closeLine s sender counterparty token
  | .advance time => do
    guard (s.now ≤ time) .Panic
    return { s with now := time }

/-- The deployed network as a machine: a reverted call changes nothing. -/
def machine : Machine State Call Error := ⟨step⟩

end Suwappu.MutualCredit
