import Suwappu.Lib.Totals

/-!
# Average cost

Holdings with what they have cost. A sale takes the cost out in proportion to the quantity that is
sold, and what it yields beyond that is a profit. Over any exchanges of holdings the profit is the
proceeds without the costs of acquisition, and with the cost of what is left.
-/

namespace AverageCost

variable {α κ : Type*} [Field α] [LinearOrder α]

/-- A quantity and its cost; of nothing there is no cost. -/
@[ext]
structure Holding (α : Type*) [Field α] [LinearOrder α] where
  qty : α
  cost : α
  qty_nonneg : 0 ≤ qty
  cost_nonneg : 0 ≤ cost
  cost_eq_zero : qty = 0 → cost = 0

namespace Holding

variable (h : Holding α) {q usd : α}

def empty : Holding α := ⟨0, 0, le_rfl, le_rfl, fun _ => rfl⟩

/-- What is sold of a quantity: the part of it that is held. -/
def sold (q : α) : α := min q h.qty

/-- Its cost, at the average. -/
def costOfSold (q : α) : α := h.cost / h.qty * h.sold q

/-- Its part of the value that the whole quantity is exchanged for. -/
def proceeds (q usd : α) : α := usd * (h.sold q / q)

variable {h}

/-- The whole holding goes with the whole cost. -/
lemma costOfSold_of_sold (hsold : h.sold q = h.qty) : h.costOfSold q = h.cost := by
  rw [costOfSold, hsold]
  by_cases hzero : h.qty = 0
  · rw [hzero, mul_zero, h.cost_eq_zero hzero]
  · exact div_mul_cancel₀ _ hzero

/-- Where nothing is held, nothing is sold. -/
lemma sold_of_qty_eq_zero (hq : 0 ≤ q) (hzero : h.qty = 0) : h.sold q = 0 := by
  rw [sold, hzero, min_eq_right hq]

variable [IsStrictOrderedRing α]

lemma costOfSold_le : h.costOfSold q ≤ h.cost := by
  rcases h.qty_nonneg.eq_or_lt with hzero | hpos
  · rw [costOfSold, ← hzero, div_zero, zero_mul]
    exact h.cost_nonneg
  · calc h.cost / h.qty * min q h.qty
      _ ≤ h.cost / h.qty * h.qty :=
        mul_le_mul_of_nonneg_left (min_le_right _ _) (div_nonneg h.cost_nonneg hpos.le)
      _ = h.cost := div_mul_cancel₀ _ hpos.ne'

variable (h)

def sell (q : α) : Holding α where
  qty := h.qty - h.sold q
  cost := h.cost - h.costOfSold q
  qty_nonneg := sub_nonneg.mpr (min_le_right _ _)
  cost_nonneg := sub_nonneg.mpr costOfSold_le
  cost_eq_zero hzero := by
    rw [costOfSold_of_sold (sub_eq_zero.mp hzero).symm, sub_self]

def buy (q usd : α) (hq : 0 < q) (husd : 0 ≤ usd) : Holding α where
  qty := h.qty + q
  cost := h.cost + usd
  qty_nonneg := add_nonneg h.qty_nonneg hq.le
  cost_nonneg := add_nonneg h.cost_nonneg husd
  cost_eq_zero hzero := absurd hzero (add_pos_of_nonneg_of_pos h.qty_nonneg hq).ne'

@[simp] lemma sell_qty : (h.sell q).qty = h.qty - h.sold q := rfl

@[simp] lemma sell_cost : (h.sell q).cost = h.cost - h.costOfSold q := rfl

@[simp] lemma buy_qty (hq : 0 < q) (husd : 0 ≤ usd) : (h.buy q usd hq husd).qty = h.qty + q := rfl

@[simp] lemma buy_cost (hq : 0 < q) (husd : 0 ≤ usd) : (h.buy q usd hq husd).cost = h.cost + usd :=
  rfl

end Holding

/-! ### Exchanges -/

/-- One quantity for another, each with its value. -/
structure Exchange (κ α : Type*) [Field α] [LinearOrder α] where
  source : κ
  target : κ
  given : α
  taken : α
  givenUsd : α
  takenUsd : α
  given_nonneg : 0 ≤ given
  taken_nonneg : 0 ≤ taken
  takenUsd_nonneg : 0 ≤ takenUsd

abbrev Book (κ α : Type*) [Field α] [LinearOrder α] := κ → Holding α

variable (book : Book κ α) (x : Exchange κ α)

/-- What is acquired costs its value. -/
def Exchange.acquisition : α := if 0 < x.taken then x.takenUsd else 0

namespace Book

def proceeds : α := (book x.source).proceeds x.given x.givenUsd

def profit : α := proceeds book x - (book x.source).costOfSold x.given

variable [IsStrictOrderedRing α] [DecidableEq κ]

def give : Book κ α :=
  Function.update book x.source ((book x.source).sell x.given)

def take : Book κ α :=
  if h : 0 < x.taken then
    Function.update book x.target ((book x.target).buy x.taken x.takenUsd h x.takenUsd_nonneg)
  else book

lemma take_of_pos (h : 0 < x.taken) : take book x =
    Function.update book x.target ((book x.target).buy x.taken x.takenUsd h x.takenUsd_nonneg) :=
  dif_pos h

lemma take_of_not_pos (h : ¬ 0 < x.taken) : take book x = book := dif_neg h

/-- The source is sold, then the target is bought. -/
def exchange : Book κ α := take (give book x) x

/-- A sale takes its cost out. -/
lemma sum_cost_give {S : Finset κ} (hsource : x.source ∈ S) :
    ∑ k ∈ S, (give book x k).cost + (book x.source).costOfSold x.given =
      ∑ k ∈ S, (book k).cost := by
  have h := Totals.sum_update_add hsource book ((book x.source).sell x.given) Holding.cost
  rw [Holding.sell_cost] at h
  rw [give]
  linear_combination h

lemma sum_cost_take {S : Finset κ} (htarget : x.target ∈ S) :
    ∑ k ∈ S, (take book x k).cost = ∑ k ∈ S, (book k).cost + x.acquisition := by
  unfold Exchange.acquisition
  split_ifs with htaken
  · rw [take_of_pos book x htaken]
    have h := Totals.sum_update_add htarget book
      ((book x.target).buy x.taken x.takenUsd htaken x.takenUsd_nonneg) Holding.cost
    rw [Holding.buy_cost] at h
    linear_combination h
  · rw [take_of_not_pos book x htaken, add_zero]

theorem profit_eq {S : Finset κ} (hsource : x.source ∈ S) (htarget : x.target ∈ S) :
    profit book x = proceeds book x - x.acquisition +
      (∑ k ∈ S, (exchange book x k).cost - ∑ k ∈ S, (book k).cost) := by
  have hgive := sum_cost_give book x hsource
  rw [exchange, sum_cost_take _ x htarget, profit]
  linear_combination -hgive

end Book

end AverageCost
