import Suwappu.CopyService.CostBasis

/-!
# Profit is conserved

`profit_conserved`: both settlements keep the books of an average cost, so that all profit is the
proceeds without what was paid, and with the cost of what is left.
-/

namespace Suwappu.CopyService.CostBasis

open AverageCost

variable {Row : Type} {position : Row → TraderPosition} {positions : Table Row}
  {book : Book Key ℚ} {x : Figures} {xs : List Figures} {key : Key} {S : Finset Key}

def Figures.exchange (x : Figures) (hx : x.Valid) : Exchange Key ℚ where
  source := x.source
  target := x.target
  given := x.fromQty
  taken := x.toQty
  givenUsd := x.fromUsd
  takenUsd := x.toUsd
  given_nonneg := hx.fromQty
  taken_nonneg := hx.toQty
  takenUsd_nonneg := hx.toUsd.le

/-- The position of a holding. -/
def ofHolding (h : Holding ℚ) : TraderPosition := ⟨h.qty, h.cost⟩

/-- The rows hold what is in the book. -/
def Represents (position : Row → TraderPosition) (positions : Table Row) (book : Book Key ℚ) :
    Prop :=
  ∀ key, held position positions key = ofHolding (book key)

/-! ### A sale -/

/-- The sale of a holding. -/
def saleOf (h : Holding ℚ) (x : Figures) : Sale where
  qtySold := h.sold x.fromQty
  costOfSold := h.costOfSold x.fromQty
  proceeds := h.proceeds x.fromQty x.fromUsd
  pnl := h.proceeds x.fromQty x.fromUsd - h.costOfSold x.fromQty

variable {h : Holding ℚ}

/-- The clamp on the cost takes no effect. -/
lemma sell_some (hsold : 0 < x.fromQty ∧ 0 < h.qty) :
    sell (ofHolding h) x = some (ofHolding (h.sell x.fromQty), saleOf h x) := by
  have hcost : max 0 (h.cost - h.costOfSold x.fromQty) = h.cost - h.costOfSold x.fromQty :=
    max_eq_right (sub_nonneg.mpr Holding.costOfSold_le)
  unfold sell
  rw [ofHolding, if_pos hsold]
  exact congrArg some (Prod.ext (congrArg (TraderPosition.mk _) hcost) rfl)

lemma sell_none (hnot : ¬ (0 < x.fromQty ∧ 0 < h.qty)) : sell (ofHolding h) x = none :=
  if_neg hnot

/-- Where nothing is sold, the holding stays as it is. -/
lemma saleOf_none (hq : 0 ≤ x.fromQty) (hnot : ¬ (0 < x.fromQty ∧ 0 < h.qty)) :
    saleOf h x = .none ∧ h.sell x.fromQty = h := by
  have hsold : h.sold x.fromQty = 0 := by
    rcases hq.eq_or_lt with hzero | hpos
    · rw [Holding.sold, ← hzero, min_eq_left h.qty_nonneg]
    · have hqty : h.qty = 0 := le_antisymm (not_lt.mp fun hqty => hnot ⟨hpos, hqty⟩) h.qty_nonneg
      exact Holding.sold_of_qty_eq_zero hq hqty
  have hcost : h.costOfSold x.fromQty = 0 := by rw [Holding.costOfSold, hsold, mul_zero]
  have hproceeds : h.proceeds x.fromQty x.fromUsd = 0 := by
    rw [Holding.proceeds, hsold, zero_div, mul_zero]
  constructor
  · rw [saleOf, hsold, hcost, hproceeds, sub_zero, Sale.none]
  · ext
    · rw [Holding.sell_qty, hsold, sub_zero]
    · rw [Holding.sell_cost, hcost, sub_zero]

/-! ### Rows and books -/

lemma Represents.update (hrep : Represents position positions book) {row : Option Row}
    (hrow : (row.map position).getD .empty = ofHolding h) :
    Represents position (Function.update positions key row) (Function.update book key h) := by
  intro key'
  by_cases hkey : key' = key
  · subst hkey
    rw [held, Function.update_self, Function.update_self, hrow]
  · rw [held, Function.update_of_ne hkey, Function.update_of_ne hkey]
    exact hrep key'

lemma Represents.buy (hrep : Represents position positions book) (hx : x.Valid)
    {acquire : Option Row → Row}
    (hacquire : ∀ row, position (acquire row) = ((row.map position).getD .empty).add x) :
    Represents position (buy acquire positions x) (book.take (x.exchange hx)) := by
  unfold CostBasis.buy
  by_cases htaken : 0 < x.toQty
  · rw [if_pos htaken, Book.take_of_pos book (x.exchange hx) htaken]
    refine hrep.update ?_
    have hheld := hrep x.target
    rw [held] at hheld
    rw [Option.map_some, Option.getD_some, hacquire, hheld]
    rfl
  · rw [if_neg htaken, Book.take_of_not_pos book (x.exchange hx) htaken]
    exact hrep

/-- Where nothing is sold, the book gives nothing. -/
lemma give_eq (hx : x.Valid) (hnot : ¬ (0 < x.fromQty ∧ 0 < (book x.source).qty)) :
    book.give (x.exchange hx) = book := by
  unfold Book.give
  rw [Function.update_eq_self_iff]
  exact (saleOf_none hx.fromQty hnot).2

/-- What is left of the source, where no more of it is bought. -/
lemma exchange_source (hx : x.Valid) (hnot : ¬ (x.source = x.target ∧ 0 < x.toQty)) :
    book.exchange (x.exchange hx) x.source = (book x.source).sell x.fromQty := by
  have hgive : book.give (x.exchange hx) x.source = (book x.source).sell x.fromQty :=
    Function.update_self _ _ _
  rw [Book.exchange]
  by_cases htaken : 0 < x.toQty
  · rw [Book.take_of_pos _ (x.exchange hx) htaken]
    exact (Function.update_of_ne (fun heq => hnot ⟨heq, htaken⟩) _ _).trans hgive
  · rw [Book.take_of_not_pos _ (x.exchange hx) htaken, hgive]

/-- What counts as dust has been sold with its cost. -/
lemma sell_eq_empty (hclean : NoDust (ofHolding h) x) (hdust : (h.sell x.fromQty).qty ≤ DUST) :
    h.qty ≤ x.fromQty ∧ ofHolding (h.sell x.fromQty) = .empty := by
  rcases hclean with hzero | hmore
  · have hqty : (h.sell x.fromQty).qty = 0 := hzero
    have hcost := (h.sell x.fromQty).cost_eq_zero hqty
    refine ⟨?_, by rw [ofHolding, hqty, hcost, TraderPosition.empty]⟩
    exact min_eq_right_iff.mp (sub_eq_zero.mp hzero).symm
  · exact absurd hdust (not_le.mpr hmore)

/-! ### One settlement -/

/-- A settlement keeps the book, where the rows are as it wants them. -/
def Refines (position : Row → TraderPosition) (settle : Table Row → Figures → Table Row × Sale)
    (P : Table Row → Figures → Prop) : Prop :=
  ∀ positions book x (hx : x.Valid), Represents position positions book → P positions x →
    Represents position (settle positions x).1 (book.exchange (x.exchange hx)) ∧
      (settle positions x).2 = saleOf (book x.source) x

/-- What `_settle_pnl` wants: it loses what an emptied position buys of itself. -/
def PnlClean (positions : Table TraderPosition) (x : Figures) : Prop :=
  NoDust (held id positions x.source) x ∧ ¬ Emptied (held id positions x.source) x

def UserClean (positions : Table UserPosition) (x : Figures) : Prop :=
  NoDust (held UserPosition.toTraderPosition positions x.source) x

instance (positions : Table TraderPosition) (x : Figures) : Decidable (PnlClean positions x) :=
  inferInstanceAs (Decidable (_ ∧ _))

instance (positions : Table UserPosition) (x : Figures) : Decidable (UserClean positions x) :=
  inferInstanceAs (Decidable (NoDust _ _))

lemma TraderPosition.acquire_eq (row : Option TraderPosition) :
    id (TraderPosition.acquire x row) = ((row.map id).getD .empty).add x := by
  rw [Option.map_id_fun, id, id, TraderPosition.acquire]

lemma UserPosition.acquire_eq (row : Option UserPosition) :
    (UserPosition.acquire x row).toTraderPosition =
      ((row.map UserPosition.toTraderPosition).getD .empty).add x := by
  cases row <;> rfl

lemma bind_sell (positions : Table TraderPosition) :
    (positions key).bind (sell · x) = sell (held id positions key) x := by
  unfold held
  cases positions key with
  | none     => exact (if_neg fun hsold => lt_irrefl _ hsold.2).symm
  | some pos => rfl

lemma settlePnl_refines : Refines id settlePnl PnlClean := by
  intro positions book x hx hrep ⟨hclean, hkept⟩
  unfold settlePnl
  rw [bind_sell, hrep x.source]
  rw [hrep x.source] at hclean hkept
  by_cases hsold : 0 < x.fromQty ∧ 0 < (book x.source).qty
  · rw [sell_some hsold]
    have hgive : Represents id
        (Function.update positions x.source (some (ofHolding ((book x.source).sell x.fromQty))))
        (book.give (x.exchange hx)) := hrep.update rfl
    have htake := hgive.buy hx TraderPosition.acquire_eq
    dsimp only
    refine ⟨?_, rfl⟩
    split_ifs with hdust
    · obtain ⟨hwhole, hempty⟩ := sell_eq_empty hclean hdust
      have hnot : ¬ (x.source = x.target ∧ 0 < x.toQty) := fun hself =>
        hkept ⟨hself.1, hself.2, hsold.2, hwhole⟩
      have hnone : ((none : Option TraderPosition).map id).getD .empty =
          ofHolding (book.exchange (x.exchange hx) x.source) := by
        rw [exchange_source hx hnot, hempty]
        rfl
      suffices hdeleted : Represents id (Function.update _ x.source none)
          (Function.update (book.exchange (x.exchange hx)) x.source _) by
        rwa [Function.update_eq_self] at hdeleted
      exact htake.update hnone
    · exact htake
  · rw [sell_none hsold, Book.exchange, give_eq hx hsold]
    exact ⟨hrep.buy hx TraderPosition.acquire_eq, (saleOf_none hx.fromQty hsold).1.symm⟩

/-- The row of a user, without what is sold. -/
lemma UserPosition.sell_some {row : UserPosition} (hrow : row.toTraderPosition = ofHolding h)
    (hclean : NoDust (ofHolding h) x) (hsold : 0 < x.fromQty ∧ 0 < h.qty) :
    row.sell x = some (⟨ofHolding (h.sell x.fromQty), row.realizedPnlUsd + (saleOf h x).pnl⟩,
      saleOf h x) := by
  rw [UserPosition.sell, hrow, CostBasis.sell_some hsold, Option.map_some]
  dsimp only
  split_ifs with hdust
  · rw [(sell_eq_empty hclean hdust).2]
  · rfl

lemma settleUserPosition_refines :
    Refines UserPosition.toTraderPosition settleUserPosition UserClean := by
  intro positions book x hx hrep hclean
  have hheld := hrep x.source
  rw [UserClean, hheld] at hclean
  rw [held] at hheld
  unfold settleUserPosition
  rw [if_neg (not_le.mpr hx.fromUsd)]
  by_cases hsold : 0 < x.fromQty ∧ 0 < (book x.source).qty
  · cases hrow : positions x.source with
    | none =>
      -- what is not there is not sold
      rw [hrow] at hheld
      exact absurd (congrArg TraderPosition.qty hheld) hsold.2.ne
    | some row =>
      rw [hrow] at hheld
      rw [Option.bind_some, UserPosition.sell_some hheld hclean hsold]
      have hgive : Represents UserPosition.toTraderPosition
          (Function.update positions x.source (some ⟨ofHolding ((book x.source).sell x.fromQty),
            row.realizedPnlUsd + (saleOf (book x.source) x).pnl⟩))
          (book.give (x.exchange hx)) := hrep.update rfl
      exact ⟨hgive.buy hx UserPosition.acquire_eq, rfl⟩
  · have hnone : (positions x.source).bind (UserPosition.sell · x) = none := by
      cases hrow : positions x.source with
      | none => rfl
      | some row =>
        rw [hrow] at hheld
        have hheld : row.toTraderPosition = ofHolding (book x.source) := hheld
        rw [Option.bind_some, UserPosition.sell, hheld, sell_none hsold, Option.map_none]
    rw [hnone, Book.exchange, give_eq hx hsold]
    exact ⟨hrep.buy hx UserPosition.acquire_eq, (saleOf_none hx.fromQty hsold).1.symm⟩

/-! ### Runs -/

variable {Row' : Type} {position' : Row' → TraderPosition} {positions' : Table Row'}
  {settle : Table Row → Figures → Table Row × Sale}
  {settle' : Table Row' → Figures → Table Row' × Sale}
  {P : Table Row → Figures → Prop} {P' : Table Row' → Figures → Prop}

/-- What is acquired costs its value. -/
def Figures.acquisition (x : Figures) : ℚ := if 0 < x.toQty then x.toUsd else 0

/-- That the cost is kept above zero takes no effect. -/
def Unclamped (position : Row → TraderPosition) (positions : Table Row) (x : Figures) : Prop :=
  ∀ pos sale, sell (held position positions x.source) x = some (pos, sale) →
    pos.costUsd = (held position positions x.source).costUsd - sale.costOfSold

lemma unclamped_of_represents (hrep : Represents position positions book) :
    Unclamped position positions x := by
  intro pos sale hsale
  rw [hrep x.source] at hsale ⊢
  by_cases hsold : 0 < x.fromQty ∧ 0 < (book x.source).qty
  · rw [sell_some hsold] at hsale
    cases hsale
    rfl
  · rw [sell_none hsold] at hsale
    cases hsale

/-- All profit is the proceeds, without what was paid and with what has been kept of it. -/
lemma run_represents (hrefines : Refines position settle P)
    (hrep : Represents position positions book)
    (hvalid : ∀ x ∈ xs, x.Valid ∧ x.source ∈ S ∧ x.target ∈ S)
    (hclean : Along P settle positions xs) :
    ∃ book', Represents position (run settle positions xs).1 book' ∧
      ((run settle positions xs).2.map Sale.pnl).sum =
        ((run settle positions xs).2.map Sale.proceeds).sum - (xs.map Figures.acquisition).sum +
          (∑ key ∈ S, (book' key).cost - ∑ key ∈ S, (book key).cost) ∧
      Along (Unclamped position) settle positions xs := by
  induction xs generalizing positions book with
  | nil =>
    refine ⟨book, hrep, ?_, trivial⟩
    rw [run, List.map_nil, List.map_nil, List.map_nil, sub_self, List.sum_nil]
    norm_num
  | cons x xs ih =>
    obtain ⟨⟨hx, hsource, htarget⟩, hvalid⟩ := List.forall_mem_cons.mp hvalid
    obtain ⟨hrep', hsale⟩ := hrefines positions book x hx hrep hclean.1
    obtain ⟨book', hend, hsum, halong⟩ := ih hrep' hvalid hclean.2
    refine ⟨book', hend, ?_, unclamped_of_represents hrep, halong⟩
    have hprofit : (settle positions x).2.pnl = (settle positions x).2.proceeds - x.acquisition +
        (∑ key ∈ S, (book.exchange (x.exchange hx) key).cost - ∑ key ∈ S, (book key).cost) := by
      rw [hsale]
      exact Book.profit_eq book (x.exchange hx) hsource htarget
    simp only [run, List.map_cons, List.sum_cons]
    rw [hsum, hprofit]
    ring

/-- Two settlements of the same swaps keep the same book, and sell the same. -/
lemma run_agree (hrefines : Refines position settle P) (hrefines' : Refines position' settle' P')
    (hrep : Represents position positions book) (hrep' : Represents position' positions' book)
    (hvalid : ∀ x ∈ xs, x.Valid) (hclean : Along P settle positions xs)
    (hclean' : Along P' settle' positions' xs) :
    (∃ book', Represents position (run settle positions xs).1 book' ∧
      Represents position' (run settle' positions' xs).1 book') ∧
    (run settle positions xs).2 = (run settle' positions' xs).2 := by
  induction xs generalizing positions positions' book with
  | nil => exact ⟨⟨book, hrep, hrep'⟩, rfl⟩
  | cons x xs ih =>
    obtain ⟨hx, hvalid⟩ := List.forall_mem_cons.mp hvalid
    obtain ⟨hnext, hsale⟩ := hrefines positions book x hx hrep hclean.1
    obtain ⟨hnext', hsale'⟩ := hrefines' positions' book x hx hrep' hclean'.1
    obtain ⟨hbook, hsales⟩ := ih hnext hnext' hvalid hclean.2 hclean'.2
    exact ⟨hbook, congrArg₂ List.cons (hsale.trans hsale'.symm) hsales⟩

/-- The profit that a row of a user has recorded. -/
def realized (positions : Table UserPosition) (key : Key) : ℚ :=
  ((positions key).map UserPosition.realizedPnlUsd).getD 0

lemma sum_realized_update (hkey : key ∈ S) (positions : Table UserPosition) (row : UserPosition) :
    ∑ k ∈ S, realized (Function.update positions key (some row)) k =
      ∑ k ∈ S, realized positions k + (row.realizedPnlUsd - realized positions key) := by
  have h := Totals.sum_update_add hkey positions (some row)
    fun row => (row.map UserPosition.realizedPnlUsd).getD 0
  simp only [Option.map_some, Option.getD_some] at h
  unfold realized
  linear_combination h

lemma sum_realized_buy (htarget : x.target ∈ S) (positions : Table UserPosition) :
    ∑ k ∈ S, realized (buy (.acquire x) positions x) k = ∑ k ∈ S, realized positions k := by
  unfold buy
  split_ifs
  · rw [sum_realized_update htarget, UserPosition.acquire, realized]
    cases positions x.target <;> simp
  · rfl

lemma sum_realized_settle (hsource : x.source ∈ S) (htarget : x.target ∈ S)
    (positions : Table UserPosition) :
    ∑ k ∈ S, realized (settleUserPosition positions x).1 k =
      ∑ k ∈ S, realized positions k + (settleUserPosition positions x).2.pnl := by
  unfold settleUserPosition
  split_ifs
  · exact (add_zero _).symm
  · cases hsale : (positions x.source).bind (UserPosition.sell · x) with
    | none =>
      dsimp only
      rw [sum_realized_buy htarget, Sale.none, add_zero]
    | some sold =>
      obtain ⟨row, sale⟩ := sold
      obtain ⟨old, hold, hsell⟩ := Option.bind_eq_some_iff.mp hsale
      obtain ⟨⟨pos, sale'⟩, -, heq⟩ := Option.map_eq_some_iff.mp hsell
      obtain ⟨rfl, rfl⟩ := Prod.mk.inj heq
      dsimp only
      rw [sum_realized_buy htarget, sum_realized_update hsource, realized, hold]
      simp

lemma sum_realized_run (hkeys : ∀ x ∈ xs, x.source ∈ S ∧ x.target ∈ S)
    (positions : Table UserPosition) :
    ∑ k ∈ S, realized (run settleUserPosition positions xs).1 k =
      ∑ k ∈ S, realized positions k +
        ((run settleUserPosition positions xs).2.map Sale.pnl).sum := by
  induction xs generalizing positions with
  | nil => exact (add_zero _).symm
  | cons x xs ih =>
    obtain ⟨⟨hsource, htarget⟩, hkeys⟩ := List.forall_mem_cons.mp hkeys
    simp only [run, List.map_cons, List.sum_cons]
    rw [ih hkeys, sum_realized_settle hsource htarget]
    ring

/-! ### Histories from the beginning -/

def initial : Table Row := fun _ => none

/-- What `_settle_pnl` reads off the swaps and their values. -/
def swapFigures (parse : ParseFloat) (swaps : List (SwapTransaction × ℚ)) : List Figures :=
  swaps.map fun swap => swap.1.figures parse swap.2

def quoteFigures (quotes : List (SwapQuote × ℚ)) : List Figures :=
  quotes.map fun quote => quote.1.figures quote.2

structure Conserved (position : Row → TraderPosition) (result : Table Row × List Sale)
    (xs : List Figures) (S : Finset Key) : Prop where
  profit : (result.2.map Sale.pnl).sum = (result.2.map Sale.proceeds).sum -
    (xs.map Figures.acquisition).sum + ∑ key ∈ S, (held position result.1 key).costUsd
  qty_nonneg : ∀ key, 0 ≤ (held position result.1 key).qty
  cost_nonneg : ∀ key, 0 ≤ (held position result.1 key).costUsd
  cost_eq_zero : ∀ key, (held position result.1 key).qty = 0 →
    (held position result.1 key).costUsd = 0

lemma represents_initial : Represents position initial fun _ => Holding.empty :=
  fun _ => rfl

lemma run_conserved (hrefines : Refines position settle P)
    (hvalid : ∀ x ∈ xs, x.Valid ∧ x.source ∈ S ∧ x.target ∈ S)
    (hclean : Along P settle initial xs) :
    Conserved position (run settle initial xs) xs S ∧
      Along (Unclamped position) settle initial xs := by
  obtain ⟨book, hrep, hsum, halong⟩ := run_represents hrefines represents_initial hvalid hclean
  refine ⟨⟨?_, fun key => ?_, fun key => ?_, fun key => ?_⟩, halong⟩
  · have hcost : ∑ key ∈ S, (held position (run settle initial xs).1 key).costUsd =
        ∑ key ∈ S, (book key).cost := Finset.sum_congr rfl fun key _ => by rw [hrep key]; rfl
    have hempty : ∑ key ∈ S, (Holding.empty : Holding ℚ).cost = 0 := Finset.sum_const_zero
    rw [hsum, hcost, hempty, sub_zero]
  · rw [hrep key]
    exact (book key).qty_nonneg
  · rw [hrep key]
    exact (book key).cost_nonneg
  · rw [hrep key]
    exact (book key).cost_eq_zero

/-- Of one trader, whose swaps leave no dust, and for `_settle_pnl` exchange no whole position for
more of itself. -/
theorem profit_conserved (parse : ParseFloat) (swaps : List (SwapTransaction × ℚ))
    (quotes : List (SwapQuote × ℚ)) (S : Finset Key)
    (hswaps : ∀ x ∈ swapFigures parse swaps, x.Valid ∧ x.source ∈ S ∧ x.target ∈ S)
    (hquotes : ∀ x ∈ quoteFigures quotes, x.Valid ∧ x.source ∈ S ∧ x.target ∈ S)
    (hpnl : Along PnlClean settlePnl initial (swapFigures parse swaps))
    (huser : Along UserClean settleUserPosition initial (quoteFigures quotes)) :
    (Conserved id (run settlePnl initial (swapFigures parse swaps)) (swapFigures parse swaps) S ∧
      Along (Unclamped id) settlePnl initial (swapFigures parse swaps)) ∧
    (Conserved UserPosition.toTraderPosition
        (run settleUserPosition initial (quoteFigures quotes)) (quoteFigures quotes) S ∧
      Along (Unclamped UserPosition.toTraderPosition) settleUserPosition initial
        (quoteFigures quotes) ∧
      ∑ key ∈ S, realized (run settleUserPosition initial (quoteFigures quotes)).1 key =
        ((run settleUserPosition initial (quoteFigures quotes)).2.map Sale.pnl).sum) ∧
    (swapFigures parse swaps = quoteFigures quotes →
      (∀ key, held id (run settlePnl initial (swapFigures parse swaps)).1 key =
        held UserPosition.toTraderPosition
          (run settleUserPosition initial (quoteFigures quotes)).1 key) ∧
      (run settlePnl initial (swapFigures parse swaps)).2 =
        (run settleUserPosition initial (quoteFigures quotes)).2) := by
  have hrealized := sum_realized_run (fun x hx => (hquotes x hx).2) initial
  have hnone : ∑ key ∈ S, realized initial key = 0 := Finset.sum_const_zero
  rw [hnone, zero_add] at hrealized
  obtain ⟨hconserved, hunclamped⟩ := run_conserved settleUserPosition_refines hquotes huser
  refine ⟨run_conserved settlePnl_refines hswaps hpnl, ⟨hconserved, hunclamped, hrealized⟩, ?_⟩
  intro hsame
  rw [← hsame] at huser ⊢
  obtain ⟨⟨book, hbook, hbook'⟩, hsales⟩ := run_agree settlePnl_refines settleUserPosition_refines
    represents_initial represents_initial (fun x hx => (hswaps x hx).1) hpnl huser
  exact ⟨fun key => (hbook key).trans (hbook' key).symm, hsales⟩

/-- The texts of some amounts. -/
def floats : ParseFloat := fun s => [("1", 1), ("100", 100)].lookup s

def usdc : Key := ("USDC", "base")

def eth : Key := ("ETH", "base")

/-- An exchange at 100 dollars. -/
def swapOf (source target : Key) (fromAmount toAmount : String) : SwapTransaction × ℚ :=
  (⟨source.1, source.2, target.1, target.2, fromAmount, none, some toAmount, none⟩, 100)

def quoteOf (source target : Key) (fromAmount toAmount : ℚ) : SwapQuote × ℚ :=
  (⟨source.1, source.2, target.1, target.2, fromAmount, toAmount⟩, 100)

theorem profit_conserved_roundTrip :
    let swaps := [swapOf usdc eth "100" "1", swapOf eth usdc "1" "100"]
    let quotes := [quoteOf usdc eth 100 1, quoteOf eth usdc 1 100]
    (Conserved id (run settlePnl initial (swapFigures floats swaps)) (swapFigures floats swaps)
        {usdc, eth} ∧
      Along (Unclamped id) settlePnl initial (swapFigures floats swaps)) ∧
    (Conserved UserPosition.toTraderPosition
        (run settleUserPosition initial (quoteFigures quotes)) (quoteFigures quotes) {usdc, eth} ∧
      Along (Unclamped UserPosition.toTraderPosition) settleUserPosition initial
        (quoteFigures quotes) ∧
      ∑ key ∈ {usdc, eth}, realized (run settleUserPosition initial (quoteFigures quotes)).1 key =
        ((run settleUserPosition initial (quoteFigures quotes)).2.map Sale.pnl).sum) ∧
    (swapFigures floats swaps = quoteFigures quotes →
      (∀ key, held id (run settlePnl initial (swapFigures floats swaps)).1 key =
        held UserPosition.toTraderPosition
          (run settleUserPosition initial (quoteFigures quotes)).1 key) ∧
      (run settlePnl initial (swapFigures floats swaps)).2 =
        (run settleUserPosition initial (quoteFigures quotes)).2) :=
  profit_conserved floats _ _ {usdc, eth} (by decide +kernel) (by decide +kernel)
    (by decide +kernel) (by decide +kernel)

/-- What is left is dust, and less than the threshold. -/
def Crumb (pos : TraderPosition) (x : Figures) : Prop :=
  0 < pos.qty - min x.fromQty pos.qty ∧ pos.qty - min x.fromQty pos.qty < DUST

instance (pos : TraderPosition) (x : Figures) : Decidable (Crumb pos x) :=
  inferInstanceAs (Decidable (_ ∧ _))

/-- `_settle_pnl` loses what a whole position is exchanged for of itself, and the cost of a rest of
just the threshold is lost. -/
theorem profit_lost :
    (¬ ∀ (parse : ParseFloat) (swaps : List (SwapTransaction × ℚ)) (S : Finset Key),
      (∀ x ∈ swapFigures parse swaps, x.Valid ∧ x.source ∈ S ∧ x.target ∈ S) →
      Along (fun positions x => ¬ Crumb (held id positions x.source) x) settlePnl initial
        (swapFigures parse swaps) →
      Conserved id (run settlePnl initial (swapFigures parse swaps)) (swapFigures parse swaps) S) ∧
    ¬ ∀ (quotes : List (SwapQuote × ℚ)) (S : Finset Key),
      (∀ x ∈ quoteFigures quotes, x.Valid ∧ x.source ∈ S ∧ x.target ∈ S) →
      Along (fun positions x => ¬ Crumb (held UserPosition.toTraderPosition positions x.source) x)
        settleUserPosition initial (quoteFigures quotes) →
      Conserved UserPosition.toTraderPosition
        (run settleUserPosition initial (quoteFigures quotes)) (quoteFigures quotes) S := by
  constructor
  · intro h
    have hprofit := (h floats [swapOf usdc eth "100" "1", swapOf eth eth "1" "1"] {usdc, eth}
      (by decide +kernel) (by decide +kernel)).profit
    revert hprofit
    decide +kernel
  · intro h
    have hprofit := (h [quoteOf usdc eth 100 (2 * DUST), quoteOf eth usdc DUST 100] {usdc, eth}
      (by decide +kernel) (by decide +kernel)).profit
    revert hprofit
    decide +kernel

end Suwappu.CopyService.CostBasis
