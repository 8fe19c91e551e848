import Suwappu.Lib.AverageCost

/-!
# The cost basis of swaps

`_settle_pnl` of the copy service and `_settle_user_position` of the swap engine, which settle the
swaps of one trader one after another. Rows are found by token and chain. What a session deletes is
found by its queries until it is committed.

Arithmetic is exact; prices answer from outside.
-/

namespace Suwappu.CopyService.CostBasis

open AverageCost

/-- A token and its chain. -/
abbrev Key := String × String

structure TraderPosition where
  qty : ℚ
  costUsd : ℚ
deriving DecidableEq

structure UserPosition extends TraderPosition where
  realizedPnlUsd : ℚ
deriving DecidableEq

/-- The rows of one trader. -/
abbrev Table (Row : Type) := Key → Option Row

structure SwapTransaction where
  fromToken : String
  fromChain : String
  toToken : String
  toChain : String
  fromAmount : String
  fromAmountUsd : Option ℚ
  toAmount : Option String
  toAmountUsd : Option ℚ

structure SwapQuote where
  fromToken : String
  fromChain : String
  toToken : String
  toChain : String
  fromAmountHuman : ℚ
  toAmountHuman : ℚ

/-- `float` of a text, where it raises nothing -/
abbrev ParseFloat := String → Option ℚ

/-- What is read off a swap: the two sides, their quantities and their values. -/
structure Figures where
  source : Key
  target : Key
  fromQty : ℚ
  fromUsd : ℚ
  toQty : ℚ
  toUsd : ℚ
deriving DecidableEq

/-- `_f(x) or amount_usd` -/
def usdOr (usd : Option ℚ) (amountUsd : ℚ) : ℚ :=
  if usd.getD 0 = 0 then amountUsd else usd.getD 0

def SwapTransaction.figures (parse : ParseFloat) (swap : SwapTransaction) (amountUsd : ℚ) :
    Figures where
  source := (swap.fromToken, swap.fromChain)
  target := (swap.toToken, swap.toChain)
  fromQty := (parse swap.fromAmount).getD 0
  fromUsd := usdOr swap.fromAmountUsd amountUsd
  toQty := (swap.toAmount.bind parse).getD 0
  toUsd := usdOr swap.toAmountUsd amountUsd

def SwapQuote.figures (quote : SwapQuote) (swapUsd : ℚ) : Figures where
  source := (quote.fromToken, quote.fromChain)
  target := (quote.toToken, quote.toChain)
  fromQty := quote.fromAmountHuman
  fromUsd := swapUsd
  toQty := quote.toAmountHuman
  toUsd := swapUsd

/-! ### The two sides -/

/-- What the sell side has come to; nothing where nothing is sold. -/
structure Sale where
  qtySold : ℚ
  costOfSold : ℚ
  proceeds : ℚ
  pnl : ℚ
deriving DecidableEq

def Sale.none : Sale := ⟨0, 0, 0, 0⟩

/-- The position from which is sold, without what is sold. -/
def sell (pos : TraderPosition) (x : Figures) : Option (TraderPosition × Sale) :=
  if 0 < x.fromQty ∧ 0 < pos.qty then
    let avgCost := pos.costUsd / pos.qty
    let qtySold := min x.fromQty pos.qty
    let costOfSold := avgCost * qtySold
    let proceeds := x.fromUsd * (qtySold / x.fromQty)
    some (⟨pos.qty - qtySold, max 0 (pos.costUsd - costOfSold)⟩,
      ⟨qtySold, costOfSold, proceeds, proceeds - costOfSold⟩)
  else none

def DUST : ℚ := 1 / 10 ^ 12

def TraderPosition.empty : TraderPosition := ⟨0, 0⟩

def TraderPosition.add (pos : TraderPosition) (x : Figures) : TraderPosition :=
  ⟨pos.qty + x.toQty, pos.costUsd + x.toUsd⟩

/-- The row that is found, or a new one, with what is bought. -/
def TraderPosition.acquire (x : Figures) (row : Option TraderPosition) : TraderPosition :=
  (row.getD .empty).add x

def UserPosition.acquire (x : Figures) (row : Option UserPosition) : UserPosition :=
  let row := row.getD ⟨.empty, 0⟩
  { row with toTraderPosition := row.toTraderPosition.add x }

/-- The buy side -/
def buy {Row : Type} (acquire : Option Row → Row) (positions : Table Row) (x : Figures) :
    Table Row :=
  if 0 < x.toQty then Function.update positions x.target (some (acquire (positions x.target)))
  else positions

/-- `_settle_pnl` -/
def settlePnl (positions : Table TraderPosition) (x : Figures) : Table TraderPosition × Sale :=
  match (positions x.source).bind (sell · x) with
  | some (pos, sale) =>
    let positions := buy (.acquire x) (Function.update positions x.source (some pos)) x
    -- the buy side finds the row that is deleted here, and adds to it
    (if pos.qty ≤ DUST then Function.update positions x.source none else positions, sale)
  | none => (buy (.acquire x) positions x, .none)

/-- An emptied row stays, for its profit. -/
def UserPosition.sell (row : UserPosition) (x : Figures) : Option (UserPosition × Sale) :=
  (CostBasis.sell row.toTraderPosition x).map fun (pos, sale) =>
    (⟨if pos.qty ≤ DUST then .empty else pos, row.realizedPnlUsd + sale.pnl⟩, sale)

/-- `_settle_user_position` -/
def settleUserPosition (positions : Table UserPosition) (x : Figures) : Table UserPosition × Sale :=
  if x.fromUsd ≤ 0 then (positions, .none) else
  match (positions x.source).bind (UserPosition.sell · x) with
  | some (row, sale) => (buy (.acquire x) (Function.update positions x.source (some row)) x, sale)
  | none             => (buy (.acquire x) positions x, .none)

/-! ### Runs -/

section Runs

variable {Row : Type}

/-- One settlement after another: the rows in the end, and the sales. -/
def run (settle : Table Row → Figures → Table Row × Sale) (positions : Table Row) :
    List Figures → Table Row × List Sale
  | []      => (positions, [])
  | x :: xs =>
    let (positions, sale) := settle positions x
    let (positions, sales) := run settle positions xs
    (positions, sale :: sales)

/-- A property of each settlement of a run and of the rows it begins with. -/
def Along (P : Table Row → Figures → Prop) (settle : Table Row → Figures → Table Row × Sale)
    (positions : Table Row) : List Figures → Prop
  | []      => True
  | x :: xs => P positions x ∧ Along P settle (settle positions x).1 xs

instance Along.decidable (P : Table Row → Figures → Prop) [∀ positions x, Decidable (P positions x)]
    (settle : Table Row → Figures → Table Row × Sale) :
    ∀ positions xs, Decidable (Along P settle positions xs)
  | _, []              => .isTrue trivial
  | positions, x :: xs =>
    have := Along.decidable P settle (settle positions x).1 xs
    inferInstanceAs (Decidable (_ ∧ _))

/-- The position that a row holds, if there is one. -/
def held (position : Row → TraderPosition) (positions : Table Row) (key : Key) : TraderPosition :=
  ((positions key).map position).getD .empty

end Runs

/-- No quantity is below zero, and no value is zero. -/
structure Figures.Valid (x : Figures) : Prop where
  fromQty : 0 ≤ x.fromQty
  toQty : 0 ≤ x.toQty
  fromUsd : 0 < x.fromUsd
  toUsd : 0 < x.toUsd

instance (x : Figures) : Decidable x.Valid :=
  decidable_of_iff (0 ≤ x.fromQty ∧ 0 ≤ x.toQty ∧ 0 < x.fromUsd ∧ 0 < x.toUsd)
    ⟨fun ⟨h₁, h₂, h₃, h₄⟩ => ⟨h₁, h₂, h₃, h₄⟩, fun ⟨h₁, h₂, h₃, h₄⟩ => ⟨h₁, h₂, h₃, h₄⟩⟩

/-- What the sell side leaves of a quantity is nothing or more than dust. -/
def NoDust (pos : TraderPosition) (x : Figures) : Prop :=
  pos.qty - min x.fromQty pos.qty = 0 ∨ DUST < pos.qty - min x.fromQty pos.qty

instance (pos : TraderPosition) (x : Figures) : Decidable (NoDust pos x) :=
  inferInstanceAs (Decidable (_ ∨ _))

/-- All that is held is exchanged for more of the same. -/
def Emptied (pos : TraderPosition) (x : Figures) : Prop :=
  x.source = x.target ∧ 0 < x.toQty ∧ 0 < pos.qty ∧ pos.qty ≤ x.fromQty

instance (pos : TraderPosition) (x : Figures) : Decidable (Emptied pos x) :=
  inferInstanceAs (Decidable (_ ∧ _))

end Suwappu.CopyService.CostBasis
