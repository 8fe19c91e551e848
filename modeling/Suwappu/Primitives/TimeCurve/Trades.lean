import Suwappu.Primitives.TimeCurve.Solvency

/-!
# Trades against each other

A holder who sells what he bought gets back at most what he paid. A sell that is split pays at most
what one sell pays as long as the sink forgives less than a unit by its rounding.
-/

namespace Suwappu.TimeCurve

open Checked

variable {c : Curve} {s s' : State} {sender : Address} {amount minOut maxIn deadline : ℕ}

/-! ### What a sell pays -/

/-- The gross proceeds of the top `amount` of a supply at multiplier `m`, in reserve units. -/
def Curve.grossOf (c : Curve) (m supply amount : ℕ) : ℕ :=
  m * c.area (supply - amount) supply / WAD / c.reserveScale

/-- What the sink leaves of gross proceeds. -/
def Curve.netOf (c : Curve) (gross : ℕ) : ℕ := gross - gross * c.sinkRate / WAD

lemma Curve.netOf_le (c : Curve) (gross : ℕ) : c.netOf gross ≤ gross := Nat.sub_le _ _

/-- What a trade moved, where it did not revert. -/
def moved (result : Except Error (State × ℕ)) : Option ℕ := result.toOption.map Prod.snd

lemma moved_eq_some {result : Except Error (State × ℕ)} {n : ℕ} (h : moved result = some n) :
    ∃ s, result = .ok (s, n) := by
  rw [moved, Option.map_eq_some_iff] at h
  obtain ⟨⟨s, n'⟩, hresult, rfl⟩ := h
  exact ⟨s, toOption_eq_some_iff.mp hresult⟩

/-- Only a deployed curve has a multiplier. -/
lemma deployed_of_multiplier {m : ℕ} (h : multiplier c s = .ok m) : c.deployTime ≤ s.now := by
  simp only [multiplier, bind_ok_iff, subU_ok_iff] at h
  obtain ⟨_, ⟨hle, -⟩, -⟩ := h
  exact hle

lemma sellQuoteUnchecked_eq {gross net : ℕ}
    (h : sellQuoteUnchecked c s amount = .ok (gross, net)) :
    c.deployTime ≤ s.now ∧ amount ≤ s.totalSupply ∧
      gross = c.grossOf (c.mul s) s.totalSupply amount ∧ net = c.netOf gross := by
  simp only [sellQuoteUnchecked, bind_ok_iff, guard_ok_iff, exists_const, subU_ok_iff,
    mulU_ok_iff, pure_ok_iff, Prod.mk.injEq] at h
  obtain ⟨-, m, hm, lower, ⟨hle, rfl⟩, area, harea, grossWad, hgross, sink, ⟨-, rfl⟩, net',
    ⟨-, rfl⟩, rfl, rfl⟩ := h
  have hd := deployed_of_multiplier hm
  obtain rfl := multiplier_ok hd hm
  rw [mulWad_ok hgross, (integral_ok harea).2]
  exact ⟨hd, hle, rfl, rfl⟩

/-- A sell pays what the sink leaves of the top slice, and takes the slice off the supply. -/
lemma sell_eq {paid : Bool} {net : ℕ} (hw : s.totalSupply < 2 ^ 256)
    (h : sell c s sender amount minOut deadline paid = .ok (s', net)) :
    amount ≤ s.totalSupply ∧ net = c.netOf (c.grossOf (c.mul s) s.totalSupply amount) ∧
      s'.totalSupply = s.totalSupply - amount ∧ c.mul s' = c.mul s := by
  obtain ⟨gross, hquote, -, hsupply, -, hnow⟩ := sell_ok hw h
  obtain ⟨-, hle, rfl, hnet⟩ := sellQuoteUnchecked_eq hquote
  exact ⟨hle, hnet, hsupply hle, by rw [Curve.mul, hnow, Curve.mul]⟩

/-! ### Buying and selling again -/

/-- A call that buys or sells. -/
def Call.isTrade : Call → Bool
  | .buy _ _ _ _ _  => true
  | .sell _ _ _ _ _ => true
  | _               => false

/-- The supply stays, and the clock is not turned back. -/
structure Idle (s s' : State) : Prop where
  supply : s'.totalSupply = s.totalSupply
  now : s.now ≤ s'.now

lemma step_idle {call : Call} (hcall : call.isTrade = false) (h : step c s call = .ok s') :
    Idle s s' := by
  cases call with
  | buy => exact absurd hcall (Bool.false_ne_true ·.symm)
  | sell => exact absurd hcall (Bool.false_ne_true ·.symm)
  | transfer src dst amount =>
    obtain ⟨hsupply, -, hnow⟩ := transferFromTo_ok h
    exact ⟨hsupply, hnow.ge⟩
  | transferFrom sender src dst amount =>
    obtain ⟨hsupply, -, hnow⟩ := transferFrom_ok h
    exact ⟨hsupply, hnow.ge⟩
  | approve sender spender amount =>
    simp only [step, pure_ok_iff] at h
    subst h
    exact ⟨rfl, le_rfl⟩
  | donate amount =>
    simp only [step, pure_ok_iff] at h
    subst h
    exact ⟨rfl, le_rfl⟩
  | advance time =>
    simp only [step, bind_ok_iff, guard_ok_iff, exists_const, pure_ok_iff] at h
    obtain ⟨hle, rfl⟩ := h
    exact ⟨rfl, hle⟩

lemma run_idle {calls : List Call} (hcalls : ∀ call ∈ calls, call.isTrade = false) :
    Idle s ((machine c).run s calls) := by
  have hstep : ∀ t call t', Idle s t → call.isTrade = false → step c t call = .ok t' →
      Idle s t' := by
    intro t call t' ht hcall h
    obtain ⟨hsupply, hnow⟩ := step_idle hcall h
    exact ⟨hsupply.trans ht.supply, ht.now.trans hnow⟩
  exact Machine.run_induction_along (M := machine c) hstep calls ⟨rfl, le_rfl⟩
    (Machine.along_of_forall hcalls)

/-- Whoever buys and sells again, with no trade in between, receives at most what he paid. -/
theorem sell_le_buy {buyer seller : Address} {deadline' cost net : ℕ} {received : Option ℕ}
    {paid : Bool} {between : List Call}
    (hbuy : moved (buy c s buyer amount maxIn deadline received) = some cost)
    (hbetween : ∀ call ∈ between, call.isTrade = false)
    (hsell : moved (sell c
      ((machine c).run s (.buy buyer amount maxIn deadline received :: between))
      seller amount minOut deadline' paid) = some net) : net ≤ cost := by
  obtain ⟨s₁, hbuy⟩ := moved_eq_some hbuy
  obtain ⟨s₂, hsell⟩ := moved_eq_some hsell
  have hexec : (machine c).exec s (.buy buyer amount maxIn deadline received) = s₁ :=
    Machine.exec_ok (by simp only [machine, step, hbuy, ok_bind]; rfl)
  rw [Machine.run_cons, hexec] at hsell
  obtain ⟨hquote, hlt, hsupply, -, hnow⟩ := buy_ok hbuy
  obtain ⟨hsupply', hnow'⟩ := run_idle hbetween (c := c) (s := s₁)
  generalize (machine c).run s₁ between = t at *
  rw [hsupply] at hsupply'
  obtain ⟨-, hnet, -, -⟩ := sell_eq (hsupply'.trans_lt hlt) hsell
  have hd : c.deployTime ≤ s.now := by
    simp only [quoteBuy, bind_ok_iff] at hquote
    obtain ⟨m, hm, -⟩ := hquote
    exact deployed_of_multiplier hm
  have hcost := quoteBuy_ok hd hquote
  have hmul : c.mul t ≤ c.mul s := c.mul_anti hd (hnow ▸ hnow')
  -- the slice is the one that was bought, and its price has only fallen
  have hslice : c.grossOf (c.mul t) t.totalSupply amount ≤ c.costWad s amount / c.reserveScale := by
    rw [Curve.grossOf, Curve.costWad, hsupply', Nat.add_sub_cancel]
    exact Nat.div_le_div_right (Nat.div_le_div_right (Nat.mul_le_mul_right _ hmul))
  calc net = c.netOf (c.grossOf (c.mul t) t.totalSupply amount) := hnet
    _ ≤ c.grossOf (c.mul t) t.totalSupply amount := c.netOf_le _
    _ ≤ c.costWad s amount / c.reserveScale := hslice
    _ ≤ ceilDiv (c.costWad s amount) c.reserveScale := Rounding.div_le_ceilDiv _ c.reserveScale_pos
    _ = cost := hcost.symm

/-- A token at one unit of a reserve of six decimals; the sink keeps a tenth. -/
def sinking : Curve :=
  { decaying with
    reserveDecimals := 6
    basePrice := 1000000000000000000
    rate := -1000000000
    sinkRate := 100000000000000000
    reserveDecimals_le := by norm_num
    basePrice_pos := by norm_num
    rate_nonpos := by norm_num
    rate_ge := by norm_num
    sinkRate_lt := by decide }

/-- Ten units buy tokens that pay nine after a thousand seconds. -/
theorem sell_le_buy_later : moved (sell sinking ((machine sinking).run (.init sinking 0)
    [.buy 1 10000000000000 10 0 (some 10), .advance 1000]) 1 10000000000000 0 1000 true) = some 9 ∧
      9 ≤ 10 := by
  have hsell : moved (sell sinking ((machine sinking).run (.init sinking 0)
      [.buy 1 10000000000000 10 0 (some 10), .advance 1000]) 1 10000000000000 0 1000 true) =
        some 9 := by decide +kernel
  exact ⟨hsell, sell_le_buy (by decide +kernel) (by decide) hsell⟩

/-! ### Selling in parts -/

structure Sale where
  amount : ℕ
  minReserveOut : ℕ
  deadline : ℕ

/-- Sells of one holder after each other, and what they pay together. -/
def sellEach (c : Curve) (sender : Address) : State → List Sale → Except Error (State × ℕ)
  | s, []            => .ok (s, 0)
  | s, sale :: sales => do
    let (s, net) ← sell c s sender sale.amount sale.minReserveOut sale.deadline true
    let (s, rest) ← sellEach c sender s sales
    return (s, net + rest)

/-- The gross proceeds of each part of a slice, from the top of the supply. -/
def Curve.grossEach (c : Curve) (m : ℕ) : ℕ → List ℕ → List ℕ
  | _, []                     => []
  | supply, amount :: amounts =>
    c.grossOf m supply amount :: c.grossEach m (supply - amount) amounts

/-- The fractions of a unit that the sink forgives on the parts stay, together, below one unit and
the holder's share of each unit of the gross proceeds that the parts lose. -/
def SinkKept (c : Curve) (s : State) (amounts : List ℕ) : Prop :=
  let gross := c.grossEach (c.mul s) s.totalSupply amounts
  (gross.map fun g => g * c.sinkRate % WAD).sum <
    WAD + (c.grossOf (c.mul s) s.totalSupply amounts.sum - gross.sum) * (WAD - c.sinkRate)

instance decidableSinkKept (c : Curve) (s : State) (amounts : List ℕ) :
    Decidable (SinkKept c s amounts) := inferInstanceAs (Decidable (_ < _))

/-- The area of a slice is at least that of its parts. -/
lemma Curve.area_add_le (c : Curve) {s₀ s₁ s₂ : ℕ} (h₁ : s₀ ≤ s₁) (h₂ : s₁ ≤ s₂) :
    c.area s₁ s₂ + c.area s₀ s₁ ≤ c.area s₀ s₂ := by
  have hsq₁ := square_mono h₁
  have hsq₂ := square_mono h₂
  have hwidth : c.basePrice * (s₂ - s₀) = c.basePrice * (s₂ - s₁) + c.basePrice * (s₁ - s₀) := by
    rw [← mul_add]
    congr 1
    omega
  have hrise : c.slope * (s₂ * s₂ / WAD - s₀ * s₀ / WAD) =
      c.slope * (s₂ * s₂ / WAD - s₁ * s₁ / WAD) + c.slope * (s₁ * s₁ / WAD - s₀ * s₀ / WAD) := by
    rw [← mul_add]
    congr 1
    omega
  simp only [Curve.area, hwidth, hrise]
  generalize c.basePrice * (s₂ - s₁) = linear₁
  generalize c.basePrice * (s₁ - s₀) = linear₀
  generalize c.slope * (s₂ * s₂ / WAD - s₁ * s₁ / WAD) = rise₁
  generalize c.slope * (s₁ * s₁ / WAD - s₀ * s₀ / WAD) = rise₀
  have hlinear : linear₁ / WAD + linear₀ / WAD ≤ (linear₁ + linear₀) / WAD :=
    Nat.div_add_div_le_add_div
  have hcurve : rise₁ / WAD + rise₀ / WAD ≤ (rise₁ + rise₀) / WAD := Nat.div_add_div_le_add_div
  omega

lemma Curve.grossOf_add_le (c : Curve) (m supply a b : ℕ) :
    c.grossOf m supply a + c.grossOf m (supply - a) b ≤ c.grossOf m supply (a + b) := by
  have harea : c.area (supply - a) supply + c.area (supply - a - b) (supply - a)
      ≤ c.area (supply - a - b) supply := c.area_add_le (Nat.sub_le _ _) (Nat.sub_le _ _)
  have hmul := Nat.mul_le_mul_left m harea
  rw [mul_add] at hmul
  rw [Curve.grossOf, Curve.grossOf, Curve.grossOf, ← Nat.sub_sub]
  calc m * c.area (supply - a) supply / WAD / c.reserveScale +
        m * c.area (supply - a - b) (supply - a) / WAD / c.reserveScale
      ≤ (m * c.area (supply - a) supply / WAD +
          m * c.area (supply - a - b) (supply - a) / WAD) / c.reserveScale :=
        Nat.div_add_div_le_add_div
    _ ≤ (m * c.area (supply - a) supply + m * c.area (supply - a - b) (supply - a)) / WAD /
          c.reserveScale := Nat.div_le_div_right Nat.div_add_div_le_add_div
    _ ≤ m * c.area (supply - a - b) supply / WAD / c.reserveScale :=
        Nat.div_le_div_right (Nat.div_le_div_right hmul)

lemma Curve.sum_grossEach_le (c : Curve) (m : ℕ) {amounts : List ℕ} {supply : ℕ}
    (h : amounts.sum ≤ supply) : (c.grossEach m supply amounts).sum ≤
      c.grossOf m supply amounts.sum := by
  induction amounts generalizing supply with
  | nil => exact Nat.zero_le _
  | cons amount amounts ih =>
    rw [List.sum_cons] at h
    rw [Curve.grossEach, List.sum_cons, List.sum_cons]
    have hrest := ih (by omega : amounts.sum ≤ supply - amount)
    have hadd := c.grossOf_add_le m supply amount amounts.sum
    omega

/-- Each sell of a series pays what the sink leaves of its own part. -/
lemma sellEach_eq {sales : List Sale} {total : ℕ} (hw : s.totalSupply < 2 ^ 256)
    (h : sellEach c sender s sales = .ok (s', total)) :
    (sales.map Sale.amount).sum ≤ s.totalSupply ∧
      total = ((c.grossEach (c.mul s) s.totalSupply (sales.map Sale.amount)).map c.netOf).sum := by
  induction sales generalizing s total with
  | nil =>
    cases h
    exact ⟨Nat.zero_le _, rfl⟩
  | cons sale sales ih =>
    simp only [sellEach, bind_ok_iff, pure_ok_iff, Prod.exists, Prod.mk.injEq] at h
    obtain ⟨s₁, net, hsell, s₂, rest, heach, rfl, rfl⟩ := h
    obtain ⟨hle, hnet, hsupply, hmul⟩ := sell_eq hw hsell
    obtain ⟨hsum, hrest⟩ := ih (by omega) heach
    rw [hsupply] at hsum
    rw [hsupply, hmul] at hrest
    rw [List.map_cons, List.sum_cons, Curve.grossEach, List.map_cons, List.sum_cons, ← hnet,
      ← hrest]
    exact ⟨by omega, rfl⟩

/-- A sell in parts pays no more than one of the whole exactly when the sink keeps its units. -/
theorem sellEach_le_iff {sales : List Sale} {total net : ℕ} {paid : Bool}
    (hw : s.totalSupply < 2 ^ 256) (hparts : moved (sellEach c sender s sales) = some total)
    (hwhole : moved (sell c s sender (sales.map Sale.amount).sum minOut deadline paid) = some net) :
    total ≤ net ↔ SinkKept c s (sales.map Sale.amount) := by
  obtain ⟨s₁, hparts⟩ := moved_eq_some hparts
  obtain ⟨s₂, hwhole⟩ := moved_eq_some hwhole
  obtain ⟨hle, htotal⟩ := sellEach_eq hw hparts
  obtain ⟨-, hnet, -, -⟩ := sell_eq hw hwhole
  have hiff := Rounding.sum_sub_floor_le_iff c.sinkRate_lt (c.sum_grossEach_le (c.mul s) hle)
  rw [htotal, hnet]
  exact hiff

/-- The supply of ten units of the reserve. -/
def tenUnits : State :=
  (machine sinking).run (.init sinking 0) [.buy 1 10000000000000 10 0 (some 10)]

/-- Parts that are no whole units lose more than the sink forgives. -/
theorem sellEach_le_iff_halves :
    9 ≤ 9 ↔ SinkKept sinking tenUnits [5500000000000, 4500000000000] := by
  have hparts : moved (sellEach sinking 1 tenUnits
      [⟨5500000000000, 0, 0⟩, ⟨4500000000000, 0, 0⟩]) = some 9 := by decide +kernel
  have hwhole : moved (sell sinking tenUnits 1 (([⟨5500000000000, 0, 0⟩,
      ⟨4500000000000, 0, 0⟩] : List Sale).map Sale.amount).sum 0 0 true) = some 9 := by
    decide +kernel
  have hiff := sellEach_le_iff (by decide +kernel) hparts hwhole
  exact hiff

/-- Selling five units twice pays ten; selling ten at once pays nine. -/
theorem sink_dodged : ¬ ∀ (c : Curve) (s : State) (sender : Address) (sales : List Sale)
    (minOut deadline total net : ℕ), s.totalSupply < 2 ^ 256 →
    moved (sellEach c sender s sales) = some total →
    moved (sell c s sender (sales.map Sale.amount).sum minOut deadline true) = some net →
    total ≤ net := by
  intro h
  have hle := h sinking tenUnits 1 [⟨5000000000000, 0, 0⟩, ⟨5000000000000, 0, 0⟩] 0 0 10 9
    (by decide +kernel) (by decide +kernel) (by decide +kernel)
  omega

end Suwappu.TimeCurve
