import Suwappu.Primitives.TimeCurve.Multiplier

/-!
# Solvency of the curve

The exact value of a supply telescopes: every sell pays at most the value it burns and the value
only falls with time, so the reserve covers it as long as no buy is priced below the value it
mints. The four floor divisions of `quoteBuy` can do exactly that; `RoundingCovered` says when
they do not.
-/

namespace Suwappu.TimeCurve

open Checked

variable {c : Curve} {s s' : State}

/-! ### The exact value of a supply -/

/-- Twice the value of the first `s` tokens at multiplier one, in WAD of a WAD: the curve with
its two floored squares, and no further rounding. -/
def Curve.value (c : Curve) (s : ℕ) : ℕ := 2 * c.basePrice * s + c.slope * (s * s / WAD)

/-- What `integral` returns when nothing overflows. -/
def Curve.area (c : Curve) (s1 s2 : ℕ) : ℕ :=
  c.basePrice * (s2 - s1) / WAD + c.slope * (s2 * s2 / WAD - s1 * s1 / WAD) / WAD / 2

/-- What the floor divisions of `integral` drop. -/
def Curve.areaLoss (c : Curve) (s1 s2 : ℕ) : ℕ :=
  let rise := c.slope * (s2 * s2 / WAD - s1 * s1 / WAD)
  2 * (c.basePrice * (s2 - s1) % WAD) + rise % WAD + WAD * (rise / WAD % 2)

lemma square_mono {s1 s2 : ℕ} (h : s1 ≤ s2) : s1 * s1 / WAD ≤ s2 * s2 / WAD :=
  Nat.div_le_div_right (Nat.mul_le_mul h h)

/-- The value of a slice is its integral and what the floors dropped. -/
lemma Curve.value_eq (c : Curve) {s1 s2 : ℕ} (h : s1 ≤ s2) :
    c.value s2 = c.value s1 + (2 * WAD * c.area s1 s2 + c.areaLoss s1 s2) := by
  obtain ⟨a, rfl⟩ := Nat.exists_eq_add_of_le h
  obtain ⟨d, hd⟩ := Nat.exists_eq_add_of_le (square_mono h)
  simp only [Curve.value, Curve.area, Curve.areaLoss, hd, Nat.add_sub_cancel_left]
  rw [← Rounding.slice_eq WAD c.basePrice c.slope a d]
  ring

lemma integral_ok {s1 s2 area : ℕ} (h : integral c s1 s2 = .ok area) :
    s1 ≤ s2 ∧ area = c.area s1 s2 := by
  simp only [integral, mulWad, bind_ok_iff, subU_ok_iff, mulDiv_ok_iff] at h
  obtain ⟨width, ⟨hle, rfl⟩, linear, ⟨-, -, -, rfl⟩, h⟩ := h
  refine ⟨hle, ?_⟩
  split at h
  · rename_i h0
    simp only [pure_ok_iff] at h
    simp [Curve.area, h0, h]
  · simp only [bind_ok_iff, mulDiv_ok_iff, subU_ok_iff, addU_ok_iff] at h
    obtain ⟨hi, ⟨-, -, -, rfl⟩, lo, ⟨-, -, -, rfl⟩, sq, ⟨-, rfl⟩, rise, ⟨-, -, -, rfl⟩, -, rfl⟩ := h
    rfl

lemma mulWad_ok {a b z : ℕ} (h : mulWad a b = .ok z) : z = a * b / WAD := by
  rw [mulWad, mulDiv_ok_iff] at h
  exact h.2.2.2.symm

/-! ### What the quotes charge and pay -/

/-- The multiplier in state `s`. -/
def Curve.mul (c : Curve) (s : State) : ℕ := c.multiplierAt (s.now.val - c.deployTime.val)

lemma multiplier_ok {m : ℕ} (hd : c.deployTime ≤ s.now) (h : multiplier c s = .ok m) :
    m = c.mul s := by
  rw [multiplier_eq c s hd, Except.ok.injEq] at h
  exact h.symm

/-- One reserve unit, in the unit of `Curve.mul` times `Curve.value`. -/
def Curve.unit (c : Curve) : ℕ := 2 * WAD * WAD * c.reserveScale

lemma Curve.reserveScale_pos (c : Curve) : 0 < c.reserveScale := by
  rw [Curve.reserveScale]
  positivity

lemma Curve.unit_pos (c : Curve) : 0 < c.unit := by
  have := c.reserveScale_pos
  have := WAD_pos
  rw [Curve.unit]
  positivity

/-- The price of a buy before rounding up to reserve units. -/
def Curve.costWad (c : Curve) (s : State) (amount : ℕ) : ℕ :=
  c.mul s * c.area s.totalSupply (s.totalSupply + amount) / WAD

/-- What the floor divisions of `quoteBuy` drop from the exact price. -/
def Curve.roundingLoss (c : Curve) (s : State) (amount : ℕ) : ℕ :=
  c.mul s * c.areaLoss s.totalSupply (s.totalSupply + amount)
    + 2 * WAD * (c.mul s * c.area s.totalSupply (s.totalSupply + amount) % WAD)

/-- What rounding the price up to whole reserve units adds to it. -/
def Curve.padding (c : Curve) (s : State) (amount : ℕ) : ℕ :=
  (c.reserveScale - c.costWad s amount % c.reserveScale) % c.reserveScale

/-- What the buy drops in its floors is made up by rounding up to whole reserve units and by what
the reserve holds beyond the value of the supply. -/
def RoundingCovered (c : Curve) (s : State) (amount : ℕ) : Prop :=
  c.mul s * c.value s.totalSupply + c.roundingLoss s amount
    ≤ c.unit * s.reserveBalance + 2 * WAD * WAD * c.padding s amount

lemma quoteBuy_ok {amount cost : ℕ} (hd : c.deployTime ≤ s.now)
    (h : quoteBuy c s amount = .ok cost) : cost = ceilDiv (c.costWad s amount) c.reserveScale := by
  simp only [quoteBuy, bind_ok_iff, addU_ok_iff, pure_ok_iff] at h
  obtain ⟨m, hm, upper, ⟨-, rfl⟩, area, harea, costWad, hcost, rfl⟩ := h
  rw [multiplier_ok hd hm, (integral_ok harea).2] at hcost
  rw [mulWad_ok hcost, Curve.costWad]

/-- The exact price of a buy against what is charged for it. -/
lemma value_add_eq (c : Curve) (s : State) (amount : ℕ) :
    c.mul s * c.value (s.totalSupply + amount) + 2 * WAD * WAD * c.padding s amount
      = c.mul s * c.value s.totalSupply + c.roundingLoss s amount
        + c.unit * ceilDiv (c.costWad s amount) c.reserveScale := by
  have h := Rounding.charge_eq (W := WAD) c.reserveScale_pos (c.mul s)
    (c.area s.totalSupply (s.totalSupply + amount))
    (c.areaLoss s.totalSupply (s.totalSupply + amount))
  rw [c.value_eq (Nat.le_add_right s.totalSupply amount), mul_add, add_assoc, add_assoc,
    Curve.padding, ← Rounding.mul_ceilDiv_sub _ c.reserveScale_pos, Curve.roundingLoss, Curve.unit,
    Curve.costWad, ceilDiv, h]

/-- A sell never pays more than the value it burns. -/
lemma sellQuoteUnchecked_ok {amount gross net : ℕ} (hd : c.deployTime ≤ s.now)
    (h : sellQuoteUnchecked c s amount = .ok (gross, net)) :
    amount ≠ 0 ∧ amount ≤ s.totalSupply ∧ net ≤ gross ∧
      c.mul s * c.value (s.totalSupply - amount) + c.unit * gross
        ≤ c.mul s * c.value s.totalSupply := by
  simp only [sellQuoteUnchecked, bind_ok_iff, guard_ok_iff, exists_const, subU_ok_iff,
    mulU_ok_iff, pure_ok_iff, Prod.mk.injEq] at h
  obtain ⟨hamount, m, hm, lower, ⟨hle, rfl⟩, area, harea, grossWad, hgross, sink, ⟨-, rfl⟩,
    net', ⟨-, rfl⟩, rfl, rfl⟩ := h
  obtain rfl := multiplier_ok hd hm
  refine ⟨by omega, hle, Nat.sub_le _ _, ?_⟩
  obtain ⟨hslice, rfl⟩ := integral_ok harea
  rw [mulWad_ok hgross, c.value_eq hslice, mul_add, Curve.unit]
  exact Nat.add_le_add_left (Rounding.payout_le _ _ _) _

/-! ### What the calls change -/

lemma mint_ok {dst : Address} {amount : ℕ} (h : mint s dst amount = .ok s') :
    s.totalSupply + amount < 2 ^ 256 ∧ s'.totalSupply = s.totalSupply + amount ∧
      s'.reserveBalance = s.reserveBalance ∧ s'.now = s.now := by
  simp only [mint, bind_ok_iff, addU_ok_iff, pure_ok_iff] at h
  obtain ⟨supply, ⟨hlt, rfl⟩, rfl⟩ := h
  exact ⟨hlt, rfl, rfl, rfl⟩

lemma transferFromTo_ok {src dst : Address} {amount : ℕ}
    (h : transferFromTo s src dst amount = .ok s') :
    s'.totalSupply = s.totalSupply ∧ s'.reserveBalance = s.reserveBalance ∧ s'.now = s.now := by
  simp only [transferFromTo, bind_ok_iff, guard_ok_iff, exists_const, pure_ok_iff] at h
  obtain ⟨-, -, rfl⟩ := h
  exact ⟨rfl, rfl, rfl⟩

lemma transferFrom_ok {sender src dst : Address} {amount : ℕ}
    (h : transferFrom s sender src dst amount = .ok s') :
    s'.totalSupply = s.totalSupply ∧ s'.reserveBalance = s.reserveBalance ∧ s'.now = s.now := by
  unfold transferFrom at h
  dsimp only at h
  split at h
  · simp only [bind_ok_iff, guard_ok_iff, exists_const] at h
    obtain ⟨hsupply, hreserve, hnow⟩ := transferFromTo_ok h.2
    exact ⟨hsupply, hreserve, hnow⟩
  · exact transferFromTo_ok h

lemma buy_ok {sender : Address} {amount maxIn deadline : ℕ} {received : Option ℕ} {cost : ℕ}
    (h : buy c s sender amount maxIn deadline received = .ok (s', cost)) :
    quoteBuy c s amount = .ok cost ∧ s.totalSupply + amount < 2 ^ 256 ∧
      s'.totalSupply = s.totalSupply + amount ∧
      s'.reserveBalance = s.reserveBalance + cost ∧ s'.now = s.now := by
  simp only [buy, bind_ok_iff, guard_ok_iff, exists_const] at h
  obtain ⟨-, -, cost', hquote, -, -, h⟩ := h
  cases received with
  | none => simp at h
  | some r =>
    simp only [bind_ok_iff, guard_ok_iff, exists_const, pure_ok_iff, Prod.mk.injEq] at h
    obtain ⟨rfl, s'', hmint, rfl, rfl⟩ := h
    obtain ⟨hlt, hsupply, hreserve, hnow⟩ := mint_ok hmint
    exact ⟨hquote, hlt, hsupply, hreserve, hnow⟩

lemma sell_ok {sender : Address} {amount minOut deadline : ℕ} {paid : Bool} {net : ℕ}
    (hw : s.totalSupply < 2 ^ 256)
    (h : sell c s sender amount minOut deadline paid = .ok (s', net)) :
    ∃ gross, sellQuoteUnchecked c s amount = .ok (gross, net) ∧ net ≤ s.reserveBalance ∧
      (amount ≤ s.totalSupply → s'.totalSupply = s.totalSupply - amount) ∧
      s'.reserveBalance = s.reserveBalance - net ∧ s'.now = s.now := by
  simp only [sell, sellQuote, burn, bind_ok_iff, guard_ok_iff, exists_const, pure_ok_iff,
    Prod.mk.injEq] at h
  obtain ⟨-, -, ⟨gross, net'⟩, ⟨⟨gross', net''⟩, hquote, hle, hpair⟩, h⟩ := h
  obtain ⟨rfl, rfl⟩ := hpair
  obtain ⟨-, -, sunk, -, total, -, s'', ⟨-, rfl⟩, -, rfl, rfl⟩ := h
  refine ⟨_, hquote, hle, fun ha => ?_, rfl, rfl⟩
  have e : s.totalSupply + (2 ^ 256 - amount) = (s.totalSupply - amount) + 2 ^ 256 := by omega
  change (s.totalSupply + (2 ^ 256 - amount)) % 2 ^ 256 = _
  rw [e, Nat.add_mod_right, Nat.mod_eq_of_lt (by omega)]

/-! ### The invariant -/

/-- The reserve covers the exact value of the whole supply. -/
structure Covered (c : Curve) (s : State) : Prop where
  deployed : c.deployTime ≤ s.now
  supply_lt : s.totalSupply < 2 ^ 256
  covered : c.mul s * c.value s.totalSupply ≤ c.unit * s.reserveBalance

/-- The condition on a call: a buy drops no more than `RoundingCovered` allows. -/
def BuysCovered (c : Curve) (s : State) : Call → Prop
  | .buy _ tokenAmount _ _ _ => RoundingCovered c s tokenAmount
  | _                        => True

instance decidableRoundingCovered (c : Curve) (s : State) (amount : ℕ) :
    Decidable (RoundingCovered c s amount) := inferInstanceAs (Decidable (_ ≤ _))

instance decidableBuysCovered (c : Curve) (s : State) : ∀ call, Decidable (BuysCovered c s call)
  | .buy _ tokenAmount _ _ _ => decidableRoundingCovered c s tokenAmount
  | .sell .. | .transfer .. | .transferFrom .. | .approve .. | .donate _ | .advance _ =>
    isTrue trivial

lemma covered_init (c : Curve) (reserve : ℕ) : Covered c (State.init c reserve) where
  deployed := le_rfl
  supply_lt := by simp [State.init]
  covered := by simp [State.init, Curve.value]

/-- The value only falls with time. -/
lemma Curve.mul_anti (hd : c.deployTime ≤ s.now) (h : s.now ≤ s'.now) : c.mul s' ≤ c.mul s :=
  c.multiplierAt_anti (by rw [Fin.le_def] at *; omega)

/-- What leaves supply and reserve alone and does not turn the clock back keeps the reserve
covering the supply. -/
lemma Covered.of_same (hI : Covered c s) (hsupply : s'.totalSupply = s.totalSupply)
    (hreserve : s.reserveBalance ≤ s'.reserveBalance) (hnow : s.now ≤ s'.now) : Covered c s' where
  deployed := hI.deployed.trans hnow
  supply_lt := by rw [hsupply]; exact hI.supply_lt
  covered := by
    rw [hsupply]
    calc c.mul s' * c.value s.totalSupply
      _ ≤ c.mul s * c.value s.totalSupply := Nat.mul_le_mul_right _ (c.mul_anti hI.deployed hnow)
      _ ≤ c.unit * s.reserveBalance := hI.covered
      _ ≤ c.unit * s'.reserveBalance := Nat.mul_le_mul_left _ hreserve

lemma Covered.of_buy (hI : Covered c s) {sender : Address} {amount maxIn deadline : ℕ}
    {received : Option ℕ} {cost : ℕ} (hround : RoundingCovered c s amount)
    (h : buy c s sender amount maxIn deadline received = .ok (s', cost)) : Covered c s' := by
  obtain ⟨hquote, hlt, hsupply, hreserve, hnow⟩ := buy_ok h
  have hcost := quoteBuy_ok hI.deployed hquote
  have hmul : c.mul s' = c.mul s := by rw [Curve.mul, hnow, Curve.mul]
  have hvalue := value_add_eq c s amount
  refine ⟨hnow ▸ hI.deployed, hsupply ▸ hlt, ?_⟩
  rw [RoundingCovered] at hround
  rw [← hcost] at hvalue
  rw [hmul, hsupply, hreserve, mul_add]
  omega

lemma Covered.of_sell (hI : Covered c s) {sender : Address} {amount minOut deadline : ℕ}
    {paid : Bool} {net : ℕ} (h : sell c s sender amount minOut deadline paid = .ok (s', net)) :
    Covered c s' := by
  obtain ⟨gross, hquote, hle, hsupply, hreserve, hnow⟩ := sell_ok hI.supply_lt h
  obtain ⟨-, hamount, hnet, hvalue⟩ := sellQuoteUnchecked_ok hI.deployed hquote
  have hmul : c.mul s' = c.mul s := by rw [Curve.mul, hnow, Curve.mul]
  have hpaid : c.unit * net ≤ c.unit * gross := Nat.mul_le_mul_left _ hnet
  have hlt := hI.supply_lt
  refine ⟨hnow ▸ hI.deployed, hsupply hamount ▸ by omega, ?_⟩
  have hcovered := hI.covered
  rw [hmul, hsupply hamount, hreserve, Nat.mul_sub]
  omega

lemma step_covered (hI : Covered c s) {call : Call} (hC : BuysCovered c s call)
    (h : step c s call = .ok s') : Covered c s' := by
  cases call with
  | buy sender amount maxIn deadline received =>
    simp only [step, bind_ok_iff, pure_ok_iff] at h
    obtain ⟨⟨s'', cost⟩, h, rfl⟩ := h
    exact hI.of_buy hC h
  | sell sender amount minOut deadline paid =>
    simp only [step, bind_ok_iff, pure_ok_iff] at h
    obtain ⟨⟨s'', net⟩, h, rfl⟩ := h
    exact hI.of_sell h
  | transfer sender dst amount =>
    obtain ⟨hsupply, hreserve, hnow⟩ := transferFromTo_ok h
    exact hI.of_same hsupply hreserve.ge hnow.ge
  | transferFrom sender src dst amount =>
    obtain ⟨hsupply, hreserve, hnow⟩ := transferFrom_ok h
    exact hI.of_same hsupply hreserve.ge hnow.ge
  | approve sender spender amount =>
    simp only [step, pure_ok_iff] at h
    subst h
    exact hI.of_same rfl le_rfl le_rfl
  | donate amount =>
    simp only [step, pure_ok_iff] at h
    subst h
    exact hI.of_same rfl (Nat.le_add_right _ _) le_rfl
  | advance time =>
    simp only [step, bind_ok_iff, guard_ok_iff, exists_const, pure_ok_iff] at h
    obtain ⟨hle, rfl⟩ := h
    exact hI.of_same rfl le_rfl hle

/-! ### What a covered reserve can pay -/

/-- Selling the whole supply would not exceed the reserve, and no sell within a holder's balance
is refused for want of it. -/
structure Solvent (c : Curve) (s : State) : Prop where
  fullUnwind : ∀ gross net, sellQuoteUnchecked c s s.totalSupply = .ok (gross, net) →
    net ≤ s.reserveBalance
  sells : ∀ sender amount minOut deadline paid, 1 ≤ amount → amount ≤ s.balanceOf sender →
    sell c s sender amount minOut deadline paid ≠ .error .InsufficientReserve

lemma Covered.net_le (hI : Covered c s) {amount gross net : ℕ}
    (h : sellQuoteUnchecked c s amount = .ok (gross, net)) : net ≤ s.reserveBalance := by
  obtain ⟨-, -, hnet, hvalue⟩ := sellQuoteUnchecked_ok hI.deployed h
  have hgross : c.unit * gross ≤ c.unit * s.reserveBalance := by
    have := hI.covered
    omega
  exact hnet.trans (Nat.le_of_mul_le_mul_left hgross c.unit_pos)

lemma avoids_integral (s1 s2 : ℕ) : Avoids .InsufficientReserve (integral c s1 s2) := by
  have hdiv : ∀ x y d, Avoids Error.InsufficientReserve (mulDiv x y d) := fun _ _ _ =>
    avoids_mulDiv (by decide) (by decide) (by decide)
  unfold integral
  refine (avoids_subU (by decide)).bind fun _ _ => (hdiv _ _ _).bind fun _ _ => ?_
  split
  · exact avoids_pure _
  · exact (hdiv _ _ _).bind fun _ _ => (hdiv _ _ _).bind fun _ _ =>
      (avoids_subU (by decide)).bind fun _ _ => (hdiv _ _ _).bind fun _ _ =>
      avoids_addU (by decide)

lemma avoids_sellQuoteUnchecked (hd : c.deployTime ≤ s.now) (amount : ℕ) :
    Avoids .InsufficientReserve (sellQuoteUnchecked c s amount) := by
  unfold sellQuoteUnchecked
  refine (avoids_guard (by decide)).bind fun _ _ => ?_
  have hm : Avoids Error.InsufficientReserve (multiplier c s) := by
    rw [multiplier_eq c s hd]
    exact avoids_ok _
  refine hm.bind fun _ _ => (avoids_subU (by decide)).bind fun _ _ =>
    (avoids_integral _ _).bind fun _ _ =>
    (avoids_mulDiv (by decide) (by decide) (by decide)).bind fun _ _ =>
    (avoids_mulU (by decide)).bind fun _ _ => (avoids_subU (by decide)).bind fun _ _ =>
    avoids_pure _

lemma Covered.avoids_sell (hI : Covered c s) (sender : Address) (amount minOut deadline : ℕ)
    (paid : Bool) : Avoids .InsufficientReserve (sell c s sender amount minOut deadline paid) := by
  have hquote : Avoids .InsufficientReserve (sellQuote c s amount) :=
    (avoids_sellQuoteUnchecked hI.deployed amount).bind fun _ h =>
      (avoids_guard_of (hI.net_le h)).bind fun _ _ => avoids_pure _
  unfold sell
  refine (avoids_guard (by decide)).bind fun _ _ => (avoids_guard (by decide)).bind fun _ _ =>
    hquote.bind fun q hq => (avoids_guard (by decide)).bind fun _ _ => ?_
  simp only [sellQuote, bind_ok_iff, guard_ok_iff, exists_const, pure_ok_iff] at hq
  obtain ⟨q', -, hle, rfl⟩ := hq
  refine (avoids_guard_of hle).bind fun _ _ => (avoids_subU (by decide)).bind fun _ _ =>
    (avoids_addU (by decide)).bind fun _ _ => Avoids.bind ?_ fun _ _ =>
    (avoids_guard (by decide)).bind fun _ _ => avoids_pure _
  exact (avoids_guard (by decide)).bind fun _ _ => avoids_pure _

lemma Covered.solvent (hI : Covered c s) : Solvent c s where
  fullUnwind _ _ h := hI.net_le h
  sells sender amount minOut deadline paid _ _ := hI.avoids_sell sender amount minOut deadline paid

/-- In every run whose buys all have their dropped remainders covered, every state is solvent. -/
theorem solvent_of_buysCovered (c : Curve) (reserve : ℕ) (calls : List Call)
    (h : (machine c).Along (BuysCovered c) (State.init c reserve) calls) :
    Solvent c ((machine c).run (State.init c reserve) calls) :=
  (Machine.run_induction_along (M := machine c) (fun _ _ _ hI hC h => step_covered hI hC h)
    calls (covered_init c reserve) h).solvent

/-- A token unit at one and a half reserve units. -/
def oneAndAHalf : Curve :=
  { decaying with
    basePrice := 1500000000000000000
    rate := 0
    basePrice_pos := by norm_num
    rate_nonpos := le_rfl
    rate_ge := by norm_num }

/-- Two buys of one unit pay one reserve unit each; selling both back is worth three. -/
theorem oneAndAHalf_insolvent : ¬ Solvent oneAndAHalf ((machine oneAndAHalf).run
    (State.init oneAndAHalf 0) [.buy 1 1 1 0 (some 1), .buy 1 1 1 0 (some 1)]) := by
  intro h
  refine h.sells 1 2 0 0 true (by decide) ?_ ?_
  · decide +kernel
  · decide +kernel

/-- Two users buy and one sells. The last buy, an hour later, drops the half unit that the sell has
left in the reserve. -/
def tradedWhole : List Call := [
  .buy 1 2 3 0 (some 3),
  .buy 2 4 6 0 (some 6),
  .sell 1 1 1 0 true,
  .advance 3600,
  .buy 2 3 4 3600 (some 4)]

theorem solvent_of_buysCovered_whole :
    (machine oneAndAHalf).Along (BuysCovered oneAndAHalf) (State.init oneAndAHalf 0)
        tradedWhole ∧
      Solvent oneAndAHalf ((machine oneAndAHalf).run (State.init oneAndAHalf 0) tradedWhole) :=
  have h : (machine oneAndAHalf).Along (BuysCovered oneAndAHalf) (State.init oneAndAHalf 0)
      tradedWhole := by decide +kernel
  ⟨h, solvent_of_buysCovered oneAndAHalf 0 _ h⟩

end Suwappu.TimeCurve
