import Suwappu.Lib.Rounding
import Suwappu.HyperCore.CoreRouter.Basic

/-!
# The size of an order

Sizes, prices and balances come in different decimal scales, and every conversion rounds down. The
size that comes out is the largest multiple of the lot that the input pays for.
-/

namespace Suwappu.CoreRouter

open Checked

variable {M : Market} {baseForQuote : Bool} {coreIn limitPx m : ℕ}

/-- The lot of the market in the wire format of sizes. -/
def Market.lot (M : Market) : ℕ := 10 ^ (8 - M.szDecimals)

/-- A size is `10 ^ 8` times the human amount of base, and so is a price. A sale has to deliver the
base, and a purchase the price of it in quote. -/
def Affordable (M : Market) (baseForQuote : Bool) (coreIn limitPx sz : ℕ) : Prop :=
  if baseForQuote then sz * 10 ^ M.baseWeiDecimals ≤ coreIn * 10 ^ 8
  else sz * limitPx * 10 ^ M.quoteWeiDecimals ≤ coreIn * 10 ^ 16

/-- The sizes that the market takes and the input pays for. -/
def payable (M : Market) (baseForQuote : Bool) (coreIn limitPx : ℕ) : Set ℕ :=
  {sz | M.lot ∣ sz ∧ Affordable M baseForQuote coreIn limitPx sz}

lemma Market.lot_pos (M : Market) : 0 < M.lot := Nat.pow_pos (by norm_num)

/-! ### Before rounding to lots -/

/-- The raw size is the largest affordable one. -/
lemma affordable_iff_le (h : rawSz M baseForQuote coreIn limitPx = .ok m) (sz : ℕ) :
    Affordable M baseForQuote coreIn limitPx sz ↔ sz ≤ m := by
  cases baseForQuote with
  | true =>
    simp only [rawSz, if_true, bind_ok_iff, mulU_ok_iff, powU_ok_iff, divU_ok_iff] at h
    obtain ⟨_, ⟨-, rfl⟩, _, ⟨-, rfl⟩, hunit, rfl⟩ := h
    rw [Affordable, if_pos rfl, Nat.le_div_iff_mul_le (Nat.pos_of_ne_zero hunit)]
  | false =>
    simp only [rawSz, Bool.false_eq_true, if_false, bind_ok_iff, mulU_ok_iff, powU_ok_iff,
      divU_ok_iff] at h
    obtain ⟨_, ⟨-, rfl⟩, _, ⟨-, rfl⟩, _, ⟨hunit, rfl⟩, hprice, rfl⟩ := h
    rw [Affordable, if_neg Bool.false_ne_true, Nat.le_div_iff_mul_le (Nat.pos_of_ne_zero hprice),
      Nat.le_div_iff_mul_le (Nat.pos_of_ne_zero hunit)]

lemma le_of_pos_mul_le {sz unit funds : ℕ} (hsz : 0 < sz) (h : sz * unit ≤ funds) :
    unit ≤ funds :=
  (Nat.le_mul_of_pos_left unit hsz).trans h

/-- The raw size is computed whenever some size is affordable, but not every size. -/
lemma rawSz_ok_of_affordable {sz sz' : ℕ} (hin : coreIn < 2 ^ 64) (hsz : 0 < sz)
    (hafford : Affordable M baseForQuote coreIn limitPx sz)
    (hbeyond : ¬ Affordable M baseForQuote coreIn limitPx sz') :
    ∃ m, rawSz M baseForQuote coreIn limitPx = .ok m := by
  cases baseForQuote with
  | true =>
    rw [Affordable, if_pos rfl] at hafford
    have hunit := le_of_pos_mul_le hsz hafford
    simp only [rawSz, if_true, bind_ok_iff, mulU_ok_iff, powU_ok_iff, divU_ok_iff]
    exact ⟨_, _, ⟨by omega, rfl⟩, _, ⟨by omega, rfl⟩, (Nat.pow_pos (by norm_num)).ne', rfl⟩
  | false =>
    rw [Affordable, if_neg Bool.false_ne_true] at hafford hbeyond
    have hprice : limitPx ≠ 0 := by
      rintro rfl
      exact hbeyond (by rw [mul_zero, zero_mul]; exact Nat.zero_le _)
    have hunit := le_of_pos_mul_le (Nat.mul_pos hsz (Nat.pos_of_ne_zero hprice)) hafford
    simp only [rawSz, Bool.false_eq_true, if_false, bind_ok_iff, mulU_ok_iff, powU_ok_iff,
      divU_ok_iff]
    exact ⟨_, _, ⟨by omega, rfl⟩, _, ⟨by omega, rfl⟩, _,
      ⟨(Nat.pow_pos (by norm_num)).ne', rfl⟩, hprice, rfl⟩

/-! ### Rounding to lots -/

/-- With a raw size, what the lots leave of it is the largest payable size. -/
lemma isGreatest_payable (h : rawSz M baseForQuote coreIn limitPx = .ok m) :
    IsGreatest (payable M baseForQuote coreIn limitPx) (m - m % M.lot) := by
  have heq : payable M baseForQuote coreIn limitPx = {sz | M.lot ∣ sz ∧ sz ≤ m} := by
    ext sz
    exact and_congr_right fun _ => affordable_iff_le h sz
  rw [heq]
  exact Rounding.isGreatest_sub_mod m M.lot

lemma orderSz_of_rawSz (h : rawSz M baseForQuote coreIn limitPx = .ok m) (sz : ℕ) :
    orderSz M baseForQuote coreIn limitPx = .ok sz ↔
      sz = m - m % M.lot ∧ 0 < sz ∧ sz < 2 ^ 64 := by
  simp only [orderSz, bind_ok_iff, guard_ok_iff, exists_const, pure_ok_iff]
  constructor
  · rintro ⟨m', hm', ⟨hne, hlt⟩, rfl⟩
    obtain rfl : m = m' := Except.ok.inj (h.symm.trans hm')
    exact ⟨rfl, Nat.pos_of_ne_zero hne, hlt⟩
  · rintro ⟨rfl, hpos, hlt⟩
    exact ⟨m, h, ⟨hpos.ne', hlt⟩, rfl⟩

lemma exists_rawSz_of_orderSz {sz : ℕ} (h : orderSz M baseForQuote coreIn limitPx = .ok sz) :
    ∃ m, rawSz M baseForQuote coreIn limitPx = .ok m := by
  simp only [orderSz, bind_ok_iff] at h
  obtain ⟨m, hm, -⟩ := h
  exact ⟨m, hm⟩

/-- A size of no lots is always payable, so the next lot tells whether a size is the largest. -/
lemma exists_rawSz_of_isGreatest {sz : ℕ} (hin : coreIn < 2 ^ 64) (hsz : 0 < sz)
    (h : IsGreatest (payable M baseForQuote coreIn limitPx) sz) :
    ∃ m, rawSz M baseForQuote coreIn limitPx = .ok m := by
  obtain ⟨⟨hlot, hafford⟩, hmax⟩ := h
  have hbeyond : ¬ Affordable M baseForQuote coreIn limitPx (sz + M.lot) := by
    intro h
    have hle : sz + M.lot ≤ sz := hmax ⟨hlot.add (dvd_refl _), h⟩
    have hpos := M.lot_pos
    omega
  exact rawSz_ok_of_affordable hin hsz hafford hbeyond

/-- An order is for the largest size that the market takes and the input pays for. It is refused
just in case no positive size is payable, or one that does not fit the field of the order. -/
theorem orderSz_ok_iff (M : Market) (baseForQuote : Bool) (coreIn limitPx : Uint64) :
    (∀ sz, orderSz M baseForQuote coreIn.val limitPx.val = .ok sz ↔
      IsGreatest (payable M baseForQuote coreIn.val limitPx.val) sz ∧ 0 < sz ∧ sz < 2 ^ 64) ∧
    ((∃ e, orderSz M baseForQuote coreIn.val limitPx.val = .error e) ↔
      (∀ sz ∈ payable M baseForQuote coreIn.val limitPx.val, sz = 0) ∨
        ∃ sz ∈ payable M baseForQuote coreIn.val limitPx.val, 2 ^ 64 ≤ sz) := by
  have hin : coreIn.val < 2 ^ 64 := coreIn.isLt
  have hok : ∀ sz, orderSz M baseForQuote coreIn.val limitPx.val = .ok sz ↔
      IsGreatest (payable M baseForQuote coreIn.val limitPx.val) sz ∧ 0 < sz ∧ sz < 2 ^ 64 := by
    intro sz
    constructor
    · intro h
      obtain ⟨m, hm⟩ := exists_rawSz_of_orderSz h
      obtain ⟨rfl, hsz⟩ := (orderSz_of_rawSz hm sz).mp h
      exact ⟨isGreatest_payable hm, hsz⟩
    · rintro ⟨hmax, hpos, hlt⟩
      obtain ⟨m, hm⟩ := exists_rawSz_of_isGreatest hin hpos hmax
      exact (orderSz_of_rawSz hm sz).mpr ⟨hmax.unique (isGreatest_payable hm), hpos, hlt⟩
  refine ⟨hok, ?_⟩
  constructor
  · rintro ⟨e, he⟩
    by_contra hneither
    simp only [not_or, not_forall, not_exists, not_and, not_le] at hneither
    obtain ⟨⟨sz, hsz, hne⟩, hfit⟩ := hneither
    have hbeyond : ¬ Affordable M baseForQuote coreIn.val limitPx.val (M.lot * 2 ^ 64) := by
      intro h
      have hlt := hfit _ ⟨dvd_mul_right _ _, h⟩
      have hle : 2 ^ 64 ≤ M.lot * 2 ^ 64 := Nat.le_mul_of_pos_left _ M.lot_pos
      omega
    obtain ⟨m, hm⟩ := rawSz_ok_of_affordable hin (Nat.pos_of_ne_zero hne) hsz.2 hbeyond
    have hmax := isGreatest_payable hm
    have hpos : 0 < m - m % M.lot := (Nat.pos_of_ne_zero hne).trans_le (hmax.2 hsz)
    have hrun := (orderSz_of_rawSz hm _).mpr ⟨rfl, hpos, hfit _ hmax.1⟩
    rw [he] at hrun
    cases hrun
  · intro h
    cases hrun : orderSz M baseForQuote coreIn.val limitPx.val with
    | error e => exact ⟨e, rfl⟩
    | ok sz =>
      obtain ⟨hmax, hpos, hlt⟩ := (hok sz).mp hrun
      rcases h with h | ⟨sz', hsz', hle⟩
      · exact absurd (h sz hmax.1) hpos.ne'
      · have hle' := hmax.2 hsz'
        omega

end Suwappu.CoreRouter
