import Mathlib.Data.Int.Log
import Mathlib.Tactic

/-!
# Doubles and their decimal text

The finite double-precision numbers by their values, so that there is one zero. A number is rounded
to the nearest double, half to even. The text of a double has the fewest digits that round to it,
and of those the nearest ones.
-/

namespace Doubles

/-- A finite double. -/
def IsDouble (x : ℚ) : Prop :=
  ∃ m e : ℤ, m.natAbs < 2 ^ 53 ∧ -1074 ≤ e ∧ e ≤ 971 ∧ x = m * 2 ^ e

/-! ### Rounding -/

def halfEven (q : ℚ) : ℤ :=
  let r := q - ⌊q⌋
  if r < 1 / 2 ∨ r = 1 / 2 ∧ Even ⌊q⌋ then ⌊q⌋ else ⌊q⌋ + 1

/-- The exponent of the last place of the doubles near a number. -/
def lastPlace (q : ℚ) : ℤ := max (Int.log 2 |q| - 52) (-1074)

/-- The nearest double, or nothing if that is infinite. -/
def roundDouble (q : ℚ) : Option ℚ :=
  let x := (halfEven (q / 2 ^ lastPlace q) : ℚ) * 2 ^ lastPlace q
  if |x| < 2 ^ 1024 then some x else none

lemma halfEven_intCast (z : ℤ) : halfEven (z : ℚ) = z := by
  unfold halfEven
  rw [Int.floor_intCast, sub_self]
  exact if_pos (.inl (by norm_num))

lemma halfEven_neg (q : ℚ) : halfEven (-q) = -halfEven q := by
  by_cases hint : q = ⌊q⌋
  · rw [hint, ← Int.cast_neg, halfEven_intCast, halfEven_intCast]
  have hfloor : ⌊-q⌋ = -⌊q⌋ - 1 := by
    have hle := Int.floor_le q
    have hlt := Int.lt_floor_add_one q
    rw [Int.floor_eq_iff]
    push_cast
    exact ⟨by linarith, by linarith [lt_of_le_of_ne hle (Ne.symm hint)]⟩
  have heven : Even (-⌊q⌋ - 1) ↔ ¬ Even ⌊q⌋ := by
    rw [Int.even_sub_one, even_neg]
  unfold halfEven
  rw [hfloor]
  dsimp only
  push_cast
  simp only [heven]
  split_ifs with hneg hpos hpos
  · exfalso
    rcases hneg with hneg | ⟨hneg, hodd⟩ <;> rcases hpos with hpos | ⟨hpos, hpos'⟩
    · linarith
    · linarith
    · linarith
    · exact hodd hpos'
  · ring
  · ring
  · rw [not_or, not_and_not_right, not_lt] at hneg
    rw [not_or, not_and, not_lt] at hpos
    have hhalf : q - ⌊q⌋ = 1 / 2 := le_antisymm (by linarith [hneg.1]) hpos.1
    exact absurd (hneg.2 (by linarith)) (hpos.2 hhalf)

lemma lastPlace_neg (q : ℚ) : lastPlace (-q) = lastPlace q := by
  unfold lastPlace
  rw [abs_neg]

lemma roundDouble_neg {q x : ℚ} (h : roundDouble q = some x) : roundDouble (-q) = some (-x) := by
  unfold roundDouble at h ⊢
  rw [lastPlace_neg, neg_div, halfEven_neg]
  dsimp only at h ⊢
  split_ifs at h with hlt
  obtain rfl := Option.some.inj h
  rw [Int.cast_neg, neg_mul, abs_neg]
  exact if_pos hlt

lemma abs_eq_natAbs_mul {m e : ℤ} : |(m : ℚ) * 2 ^ e| = m.natAbs * 2 ^ e := by
  rw [abs_mul, abs_of_pos (a := (2 : ℚ) ^ e) (zpow_pos two_pos e), Nat.cast_natAbs, Int.cast_abs]

lemma IsDouble.abs_lt {x : ℚ} (h : IsDouble x) : |x| < 2 ^ 1024 := by
  obtain ⟨m, e, hm, -, he, rfl⟩ := h
  have hcast : (m.natAbs : ℚ) < 2 ^ 53 := by exact_mod_cast hm
  have hpow : (2 : ℚ) ^ e ≤ 2 ^ 971 := by
    rw [← zpow_natCast]
    exact zpow_le_zpow_right₀ one_le_two he
  rw [abs_eq_natAbs_mul]
  calc (m.natAbs : ℚ) * 2 ^ e < 2 ^ 53 * 2 ^ e :=
        mul_lt_mul_of_pos_right hcast (zpow_pos two_pos e)
    _ ≤ 2 ^ 53 * 2 ^ 971 := mul_le_mul_of_nonneg_left hpow (by positivity)
    _ = 2 ^ 1024 := by rw [← pow_add]

lemma IsDouble.neg {x : ℚ} (h : IsDouble x) : IsDouble (-x) := by
  obtain ⟨m, e, hm, he, he', rfl⟩ := h
  refine ⟨-m, e, by rwa [Int.natAbs_neg], he, he', ?_⟩
  rw [Int.cast_neg, neg_mul]

/-- A double is an integer of its last places. -/
lemma IsDouble.exists_intCast {x : ℚ} (h : IsDouble x) : ∃ z : ℤ, x / 2 ^ lastPlace x = z := by
  obtain ⟨m, e, hm, he, he', rfl⟩ := h
  by_cases hzero : m = 0
  · exact ⟨0, by rw [hzero]; simp⟩
  have hpos : (0 : ℚ) < |(m : ℚ) * 2 ^ e| := by
    rw [abs_pos]
    exact mul_ne_zero (Int.cast_ne_zero.mpr hzero) (zpow_ne_zero e two_ne_zero)
  have hlog : Int.log 2 |(m : ℚ) * 2 ^ e| < 53 + e := by
    have hcast : (m.natAbs : ℚ) < 2 ^ 53 := by exact_mod_cast hm
    refine (Int.lt_zpow_iff_log_lt (by norm_num) hpos).mp ?_
    rw [abs_eq_natAbs_mul, Nat.cast_ofNat, zpow_add₀ two_ne_zero]
    exact mul_lt_mul_of_pos_right hcast (zpow_pos two_pos e)
  have hplace : lastPlace ((m : ℚ) * 2 ^ e) ≤ e := max_le (by omega) he
  obtain ⟨n, hn⟩ := Int.eq_ofNat_of_zero_le (sub_nonneg.mpr hplace)
  refine ⟨m * 2 ^ n, ?_⟩
  rw [mul_div_assoc, ← zpow_sub₀ two_ne_zero, hn]
  push_cast
  rfl

lemma IsDouble.roundDouble {x : ℚ} (h : IsDouble x) : roundDouble x = some x := by
  obtain ⟨z, hz⟩ := h.exists_intCast
  have hx : (z : ℚ) * 2 ^ lastPlace x = x := by
    rw [← hz, div_mul_cancel₀ _ (zpow_ne_zero _ two_ne_zero)]
  unfold Doubles.roundDouble
  rw [hz, halfEven_intCast, hx]
  exact if_pos h.abs_lt

lemma halfEven_abs_sub_le (q : ℚ) : |(halfEven q : ℚ) - q| ≤ 1 / 2 := by
  have hlow := Int.floor_le q
  have hhigh := Int.lt_floor_add_one q
  unfold halfEven
  dsimp only
  split_ifs with h
  · rw [abs_le]
    rcases h with h | ⟨h, -⟩ <;> constructor <;> linarith
  · rw [not_or, not_lt] at h
    rw [abs_le]
    push_cast
    constructor <;> linarith [h.1]

lemma abs_lt_lastPlace (q : ℚ) : |q / 2 ^ lastPlace q| < 2 ^ 53 := by
  have hplace : Int.log 2 |q| - 52 ≤ lastPlace q := le_max_left _ _
  have hpos : (0 : ℚ) < 2 ^ lastPlace q := zpow_pos two_pos _
  rw [abs_div, abs_of_pos hpos, div_lt_iff₀ hpos]
  calc |q| < (2 : ℕ) ^ (Int.log 2 |q| + 1) := Int.lt_zpow_succ_log_self (by norm_num) _
    _ ≤ 2 ^ (53 + lastPlace q) := by
      rw [Nat.cast_ofNat]
      exact zpow_le_zpow_right₀ one_le_two (by omega)
    _ = 2 ^ 53 * 2 ^ lastPlace q := by rw [zpow_add₀ two_ne_zero]; rfl

lemma natAbs_halfEven_le (q : ℚ) : (halfEven (q / 2 ^ lastPlace q)).natAbs ≤ 2 ^ 53 := by
  generalize hy : q / 2 ^ lastPlace q = y
  have hlt : |y| < 2 ^ 53 := hy ▸ abs_lt_lastPlace q
  have hhalf := halfEven_abs_sub_le y
  rw [abs_lt] at hlt
  rw [abs_le] at hhalf
  have hlow : (-2 ^ 53 - 1 : ℚ) < halfEven y := by linarith
  have hhigh : (halfEven y : ℚ) < 2 ^ 53 + 1 := by linarith
  have hlow' : -2 ^ 53 - 1 < halfEven y := by exact_mod_cast hlow
  have hhigh' : halfEven y < 2 ^ 53 + 1 := by exact_mod_cast hhigh
  omega

/-- A number that is rounded to no infinity has a last place of the doubles. -/
lemma lastPlace_le {q : ℚ}
    (h : |(halfEven (q / 2 ^ lastPlace q) : ℚ) * 2 ^ lastPlace q| < 2 ^ 1024) :
    lastPlace q ≤ 971 := by
  by_contra hlt
  rw [not_le] at hlt
  have hpos : (0 : ℚ) < 2 ^ lastPlace q := zpow_pos two_pos _
  have hplace : lastPlace q = Int.log 2 |q| - 52 := by
    unfold lastPlace at hlt ⊢
    omega
  have hq : q ≠ 0 := by
    rintro rfl
    rw [abs_zero, Int.log_zero_right] at hplace
    omega
  have hbig : (2 : ℚ) ^ 52 ≤ |q / 2 ^ lastPlace q| := by
    rw [abs_div, abs_of_pos hpos, le_div_iff₀ hpos]
    calc (2 : ℚ) ^ 52 * 2 ^ lastPlace q = 2 ^ Int.log 2 |q| := by
          rw [← zpow_natCast, ← zpow_add₀ two_ne_zero]
          congr 1
          omega
      _ ≤ |q| := Int.zpow_log_le_self (by norm_num) (abs_pos.mpr hq)
  generalize hy : q / 2 ^ lastPlace q = y at h hbig
  have hhalf := halfEven_abs_sub_le y
  have hrounded : (2 : ℚ) ^ 52 - 1 / 2 ≤ |(halfEven y : ℚ)| := by
    have := abs_sub_abs_le_abs_sub y (halfEven y)
    rw [abs_sub_comm] at this
    linarith
  have hint : 2 ^ 52 ≤ |halfEven y| := by
    have hcast : (2 ^ 52 - 1 : ℚ) < (|halfEven y| : ℤ) := by
      rw [Int.cast_abs]
      linarith
    have : (2 ^ 52 - 1 : ℤ) < |halfEven y| := by exact_mod_cast hcast
    omega
  refine absurd h (not_lt.mpr ?_)
  have hcast : (2 ^ 52 : ℚ) ≤ |(halfEven y : ℚ)| := by
    rw [← Int.cast_abs]
    exact_mod_cast hint
  rw [abs_mul, abs_of_pos hpos]
  calc (2 : ℚ) ^ 1024 = 2 ^ 52 * 2 ^ (972 : ℤ) := by
        rw [← zpow_natCast, ← zpow_natCast, ← zpow_add₀ two_ne_zero]
        rfl
    _ ≤ 2 ^ 52 * 2 ^ lastPlace q := by
        have hpow : (2 : ℚ) ^ (972 : ℤ) ≤ 2 ^ lastPlace q :=
          zpow_le_zpow_right₀ one_le_two (by omega)
        exact mul_le_mul_of_nonneg_left hpow (by positivity)
    _ ≤ _ := mul_le_mul_of_nonneg_right hcast hpos.le

/-- What a number is rounded to is a double. -/
lemma isDouble_of_roundDouble {q x : ℚ} (h : roundDouble q = some x) : IsDouble x := by
  unfold roundDouble at h
  dsimp only at h
  split_ifs at h with hlt
  obtain rfl := Option.some.inj h
  have hplace := lastPlace_le hlt
  have hlow : -1074 ≤ lastPlace q := le_max_right _ _
  rcases (natAbs_halfEven_le q).lt_or_eq with hm | hm
  · exact ⟨_, _, hm, hlow, hplace, rfl⟩
  -- the number went up to a power of two, which has one place less
  generalize hy : halfEven (q / 2 ^ lastPlace q) = y at *
  have hne : lastPlace q ≠ 971 := by
    intro heq
    rw [abs_eq_natAbs_mul, hm, heq] at hlt
    refine absurd hlt (not_lt.mpr (le_of_eq ?_))
    rw [Nat.cast_pow, Nat.cast_ofNat, ← zpow_natCast, ← zpow_natCast, ← zpow_add₀ two_ne_zero]
    rfl
  obtain ⟨z, rfl⟩ : ∃ z, y = z * 2 := ⟨y / 2, by omega⟩
  refine ⟨z, lastPlace q + 1, by omega, by omega, by omega, ?_⟩
  push_cast
  rw [zpow_add_one₀ two_ne_zero]
  ring
/-- A finite double, by its value. -/
structure Double where
  value : ℚ
  isDouble : IsDouble value

/-- The nearest double, or nothing if that is infinite. -/
def Double.round (q : ℚ) : Option Double :=
  match h : roundDouble q with
  | some x => some ⟨x, isDouble_of_roundDouble h⟩
  | none   => none

lemma Double.round_eq {q : ℚ} {x : Double} (h : roundDouble q = some x.value) :
    Double.round q = some x := by
  unfold Double.round
  split
  · rename_i heq
    obtain rfl := Option.some.inj (h.symm.trans heq)
    rfl
  · rename_i heq
    cases heq.symm.trans h

/-! ### Digits -/

/-- A number of as many digits, with its exponent, that rounds to the positive number `x`: the
nearer one of its two neighbours, and the even one if they are equally near. -/
def nearest (x : ℚ) (count : ℕ) : Option (ℕ × ℤ) :=
  let e := Int.log 10 x + 1 - count
  let y := x / 10 ^ e
  let fits (s : ℕ) := roundDouble (s * 10 ^ e) = some x
  -- a power of ten has one digit
  let digits (s : ℕ) := if s = 10 ^ count then (1, e + count) else (s, e)
  if fits ⌊y⌋₊ ∧ (y - ⌊y⌋₊ < ⌈y⌉₊ - y ∨ y - ⌊y⌋₊ = ⌈y⌉₊ - y ∧ Even ⌊y⌋₊ ∨ ¬ fits ⌈y⌉₊) then
    some (digits ⌊y⌋₊)
  else if fits ⌈y⌉₊ then some (digits ⌈y⌉₊)
  else none

/-- The fewest digits, of which 1383 are enough, and the exponent of the last one. -/
def shortest (x : ℚ) : Option (ℕ × ℤ) :=
  (List.range 1383).findSome? fun count => nearest x (count + 1)

variable {x : ℚ} {s count : ℕ} {e : ℤ}

lemma nearest_rounds (h : nearest x count = some (s, e)) :
    roundDouble (s * 10 ^ e) = some x := by
  have hcarry : ((1 : ℕ) : ℚ) * 10 ^ (Int.log 10 x + 1 - count + count) =
      ((10 ^ count : ℕ) : ℚ) * 10 ^ (Int.log 10 x + 1 - count) := by
    rw [zpow_add₀ (by norm_num), zpow_natCast]
    push_cast
    ring
  unfold nearest at h
  dsimp only at h
  split_ifs at h with hlow hten hhigh hten
  · obtain ⟨rfl, rfl⟩ := Prod.mk.inj (Option.some.inj h)
    rw [hcarry, ← hten]
    exact hlow.1
  · obtain ⟨rfl, rfl⟩ := Prod.mk.inj (Option.some.inj h)
    exact hlow.1
  · obtain ⟨rfl, rfl⟩ := Prod.mk.inj (Option.some.inj h)
    rw [hcarry, ← hten]
    exact hhigh
  · obtain ⟨rfl, rfl⟩ := Prod.mk.inj (Option.some.inj h)
    exact hhigh

/-- Enough digits are exact. -/
lemma nearest_ne_none (hx : IsDouble x) {n : ℕ} (h : x / 10 ^ (Int.log 10 x + 1 - count) = n) :
    nearest x count ≠ none := by
  have hexact : roundDouble (n * 10 ^ (Int.log 10 x + 1 - count)) = some x := by
    rw [← h, div_mul_cancel₀ _ (zpow_ne_zero _ (by norm_num))]
    exact hx.roundDouble
  unfold nearest
  dsimp only
  rw [h, Nat.floor_natCast, Nat.ceil_natCast]
  split_ifs <;> simp_all

lemma log_le_of_isDouble (hx : IsDouble x) (hpos : 0 < x) : Int.log 10 x < 309 := by
  refine (Int.lt_zpow_iff_log_lt (by norm_num) hpos).mp ?_
  have hlt := hx.abs_lt
  rw [abs_of_pos hpos] at hlt
  calc x < 2 ^ 1024 := hlt
    _ = (2 ^ 93) ^ 11 * 2 := by rw [← pow_mul, ← pow_succ]
    _ ≤ (10 ^ 28) ^ 11 * 10 := mul_le_mul (pow_le_pow_left₀ (by positivity) (by norm_num) 11)
        (by norm_num) (by norm_num) (by positivity)
    _ = (10 : ℚ) ^ (309 : ℤ) := by rw [← pow_mul, ← pow_succ]; rfl

/-- Behind the 1074th decimal place, a double has no digits. -/
lemma exists_natCast_div (hx : IsDouble x) (hpos : 0 < x) (he : e ≤ -1074) :
    ∃ n : ℕ, x / 10 ^ e = n := by
  obtain ⟨m, e', -, he', -, rfl⟩ := hx
  have hm : 0 < m := by
    have := (mul_pos_iff_of_pos_right (zpow_pos two_pos e')).mp hpos
    exact_mod_cast this
  obtain ⟨m, rfl⟩ := Int.eq_ofNat_of_zero_le hm.le
  obtain ⟨k, hk⟩ := Int.eq_ofNat_of_zero_le (by omega : 0 ≤ -e)
  obtain ⟨j, hj⟩ := Int.eq_ofNat_of_zero_le (by omega : 0 ≤ e' - e)
  refine ⟨m * 2 ^ j * 5 ^ k, ?_⟩
  have hten : ((10 : ℚ) ^ e)⁻¹ = 2 ^ (-e) * 5 ^ (-e) := by
    rw [← zpow_neg, ← mul_zpow]
    norm_num
  rw [div_eq_mul_inv, hten, hk, zpow_natCast 5, ← hk]
  push_cast
  rw [← mul_assoc, mul_assoc (m : ℚ), ← zpow_add₀ two_ne_zero, ← sub_eq_add_neg, hj, zpow_natCast]

lemma shortest_rounds (hx : IsDouble x) (hpos : 0 < x) :
    ∃ s e, shortest x = some (s, e) ∧ roundDouble (s * 10 ^ e) = some x ∧ s ≠ 0 := by
  have hlog := log_le_of_isDouble hx hpos
  have hsome : shortest x ≠ none := by
    intro hnone
    obtain ⟨count, hcount⟩ : ∃ count : ℕ, (count : ℤ) + 1 = max 1 (Int.log 10 x + 1075) :=
      ⟨(max 1 (Int.log 10 x + 1075) - 1).toNat, by omega⟩
    obtain ⟨n, hn⟩ := exists_natCast_div hx hpos
      (by omega : Int.log 10 x + 1 - ((count + 1 : ℕ) : ℤ) ≤ -1074)
    exact nearest_ne_none hx hn
      (List.findSome?_eq_none_iff.mp hnone count (List.mem_range.mpr (by omega)))
  obtain ⟨⟨s, e⟩, hshortest⟩ := Option.ne_none_iff_exists'.mp hsome
  obtain ⟨count, -, hnearest⟩ := List.exists_of_findSome?_eq_some hshortest
  have hrounds := nearest_rounds hnearest
  refine ⟨s, e, hshortest, hrounds, ?_⟩
  rintro rfl
  have hzero : roundDouble (((0 : ℕ) : ℚ) * 10 ^ e) = some 0 := by
    rw [Nat.cast_zero, zero_mul]
    exact IsDouble.roundDouble ⟨0, 0, by norm_num, by norm_num, by norm_num, by norm_num⟩
  exact hpos.ne (Option.some.inj (hzero.symm.trans hrounds))

/-! ### Text -/

/-- Some digits before a point that stands `point` places behind their start. -/
def layout (ds : List Char) (point : ℤ) : List Char :=
  if ds.length ≤ point ∧ point ≤ 21 then ds ++ List.replicate (point - ds.length).toNat '0'
  else if 0 < point ∧ point ≤ 21 then ds.take point.toNat ++ '.' :: ds.drop point.toNat
  else if -6 < point ∧ point ≤ 0 then '0' :: '.' :: (List.replicate (-point).toNat '0' ++ ds)
  else
    let exponent := (if point - 1 < 0 then '-' else '+') :: Nat.toDigits 10 (point - 1).natAbs
    match ds with
    | [d]     => d :: 'e' :: exponent
    | d :: ds => d :: '.' :: (ds ++ 'e' :: exponent)
    | []      => []

/-- `Number::toString` of a positive double -/
def positiveToString (x : ℚ) : List Char :=
  match shortest x with
  | some (s, e) => layout (Nat.toDigits 10 s) ((Nat.toDigits 10 s).length + e)
  | none        => []

lemma positiveToString_eq (h : shortest x = some (s, e)) :
    positiveToString x = layout (Nat.toDigits 10 s) ((Nat.toDigits 10 s).length + e) := by
  unfold positiveToString
  rw [h]

/-- `Number::toString` -/
def numberToString (x : ℚ) : List Char :=
  if x = 0 then ['0']
  else if x < 0 then '-' :: positiveToString (-x)
  else positiveToString x

end Doubles
