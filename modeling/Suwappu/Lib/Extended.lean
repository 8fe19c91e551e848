import Mathlib.Algebra.Order.Field.Basic
import Mathlib.Data.List.Rotate
import Mathlib.Data.List.Sort
import Mathlib.Order.WithBot
import Mathlib.Tactic

/-!
# Numbers with infinities and NaN

What a floating-point format has besides its numbers, over numbers that are exact. No comparison
with NaN holds, and where a NaN is in a list, sorting it puts its values into some order.
-/

inductive Extended (α : Type*) where
  | nan
  | negInf
  | finite (x : α)
  | inf
deriving DecidableEq

namespace Extended

variable {α : Type*} {a b lo hi : Extended α} {x y : α}

/-! ### Order -/

section Order

variable [LinearOrder α]

def rank : Extended α → WithBot (WithBot (WithTop α))
  | nan      => ⊥
  | negInf   => (⊥ : WithBot (WithTop α))
  | finite x => ((x : WithTop α) : WithBot (WithTop α))
  | inf      => ((⊤ : WithTop α) : WithBot (WithTop α))

lemma rank_injective : Function.Injective (rank (α := α)) := by
  intro a b h
  cases a <;> cases b <;> simp_all [rank]

/-- The order of the format, with NaN below everything. -/
instance linearOrder : LinearOrder (Extended α) := LinearOrder.lift' rank rank_injective

lemma le_iff_rank : a ≤ b ↔ a.rank ≤ b.rank := Iff.rfl

lemma lt_iff_rank : a < b ↔ a.rank < b.rank := lt_iff_lt_of_le_iff_le Iff.rfl

@[simp] lemma finite_le_finite : finite x ≤ finite y ↔ x ≤ y := by simp [le_iff_rank, rank]

@[simp] lemma finite_lt_finite : finite x < finite y ↔ x < y := by simp [lt_iff_rank, rank]

@[simp] lemma le_nan : a ≤ nan ↔ a = nan := by cases a <;> simp [le_iff_rank, rank]

@[simp] lemma le_inf (a : Extended α) : a ≤ inf := by cases a <;> simp [le_iff_rank, rank]

@[simp] lemma inf_le : inf ≤ a ↔ a = inf := by cases a <;> simp [le_iff_rank, rank]

@[simp] lemma finite_lt_inf : finite x < inf := lt_of_le_of_ne (le_inf _) nofun

@[simp] lemma not_finite_lt_negInf : ¬ finite x < negInf := by simp [lt_iff_rank, rank]

@[simp] lemma not_finite_lt_nan : ¬ finite x < nan := by simp [lt_iff_rank, rank]

/-- `a <= b` -/
def IsLE (a b : Extended α) : Prop := a ≠ nan ∧ a ≤ b

/-- `a < b` -/
def IsLT (a b : Extended α) : Prop := a ≠ nan ∧ a < b

instance (a b : Extended α) : Decidable (a.IsLE b) := inferInstanceAs (Decidable (_ ∧ _))

instance (a b : Extended α) : Decidable (a.IsLT b) := inferInstanceAs (Decidable (_ ∧ _))

lemma isLE_iff (ha : a ≠ nan) : a.IsLE b ↔ a ≤ b := and_iff_right ha

/-- What is above a finite number is finite or infinite. -/
lemma pos_cases (h : finite x < a) : (∃ y, a = finite y ∧ x < y) ∨ a = inf := by
  cases a with
  | nan      => exact absurd h not_finite_lt_nan
  | negInf   => exact absurd h not_finite_lt_negInf
  | finite y => exact .inl ⟨y, rfl, finite_lt_finite.mp h⟩
  | inf      => exact .inr rfl

end Order

/-! ### Arithmetic -/

def neg [Neg α] : Extended α → Extended α
  | nan      => nan
  | negInf   => inf
  | finite x => finite (-x)
  | inf      => negInf

def add [Add α] : Extended α → Extended α → Extended α
  | finite x, finite y             => finite (x + y)
  | nan, _ | _, nan                => nan
  | inf, negInf | negInf, inf      => nan
  | inf, _ | _, inf                => inf
  | negInf, _ | _, negInf          => negInf

section Ring

variable [Ring α] [LinearOrder α]

def sign : Extended α → ℤ
  | nan      => 0
  | negInf   => -1
  | finite x => SignType.sign x
  | inf      => 1

/-- The infinity of a sign; an infinity times zero is NaN. -/
def infinity (sign : ℤ) : Extended α :=
  if sign = 0 then nan else if sign < 0 then negInf else inf

def mul : Extended α → Extended α → Extended α
  | finite x, finite y => finite (x * y)
  | nan, _ | _, nan    => nan
  | a, b               => infinity (a.sign * b.sign)

def abs : Extended α → Extended α
  | nan      => nan
  | finite x => finite |x|
  | _        => inf

end Ring

section Field

variable [Field α] [LinearOrder α]

/-- `a / y`, for a number that is not zero -/
def div (a : Extended α) (y : α) : Extended α := a.mul (finite y⁻¹)

def mean (a b : Extended α) : Extended α := (a.add b).div 2

lemma mean_nan_right : mean a nan = nan := by cases a <;> rfl

@[simp] lemma finite_div : div (finite x) y = finite (x / y) :=
  congrArg finite (div_eq_mul_inv x y).symm

lemma mul_inf (hx : 0 < x) : mul (finite x) inf = inf := by
  simp [mul, infinity, sign, hx]

variable [IsStrictOrderedRing α]

lemma inf_div (hy : 0 < y) : div inf y = inf := by
  simp [div, mul, infinity, sign, hy]

lemma finite_lt_div (hy : 0 < y) (h : finite 0 < a) : finite 0 < a.div y := by
  obtain ⟨x, rfl, hx⟩ | rfl := pos_cases h
  · rw [finite_div]
    exact finite_lt_finite.mpr (div_pos hx hy)
  · rw [inf_div hy]
    exact finite_lt_inf

lemma finite_mul_pos (hx : 0 < x) (h : finite 0 < a) : finite 0 < mul (finite x) a := by
  obtain ⟨y, rfl, hy⟩ | rfl := pos_cases h
  · exact finite_lt_finite.mpr (mul_pos hx hy)
  · rw [mul_inf hx]
    exact finite_lt_inf

lemma mul_mono (hx : 0 < x) (h : finite 0 < a) (hab : a ≤ b) :
    mul (finite x) a ≤ mul (finite x) b := by
  obtain ⟨y, rfl, hy⟩ | rfl := pos_cases h
  · obtain ⟨z, rfl, -⟩ | rfl := pos_cases (h.trans_le hab)
    · exact finite_le_finite.mpr (mul_le_mul_of_nonneg_left (finite_le_finite.mp hab) hx.le)
    · rw [mul_inf hx]
      exact le_inf _
  · rw [inf_le.mp hab]

lemma mul_le_mul_finite (hx : 0 < x) (hxy : x ≤ y) (h : finite 0 < a) :
    mul (finite x) a ≤ mul (finite y) a := by
  obtain ⟨z, rfl, hz⟩ | rfl := pos_cases h
  · exact finite_le_finite.mpr (mul_le_mul_of_nonneg_right hxy (finite_lt_finite.mp h).le)
  · rw [mul_inf hx, mul_inf (hx.trans_le hxy)]

lemma mul_mul (hx : 0 < x) (hy : 0 < y) (h : finite 0 < a) :
    mul (finite x) (mul (finite y) a) = mul (finite (x * y)) a := by
  obtain ⟨z, rfl, -⟩ | rfl := pos_cases h
  · exact congrArg finite (mul_assoc x y z).symm
  · rw [mul_inf hy, mul_inf hx, mul_inf (mul_pos hx hy)]

lemma finite_one_mul (h : finite 0 < a) : mul (finite 1) a = a := by
  obtain ⟨x, rfl, -⟩ | rfl := pos_cases h
  · exact congrArg finite (one_mul x)
  · exact mul_inf one_pos

/-- The mean of positive numbers is between them. -/
lemma mean_between (hlo : finite 0 < lo) (ha : lo ≤ a ∧ a ≤ hi) (hb : lo ≤ b ∧ b ≤ hi) :
    lo ≤ mean a b ∧ mean a b ≤ hi := by
  obtain ⟨x, rfl, -⟩ | rfl := pos_cases (hlo.trans_le ha.1)
  · obtain ⟨y, rfl, -⟩ | rfl := pos_cases (hlo.trans_le hb.1)
    · have hmean : mean (finite x) (finite y) = finite ((x + y) / 2) := finite_div
      rw [hmean]
      rcases le_total x y with h | h
      · exact ⟨ha.1.trans (finite_le_finite.mpr (by linarith)),
          (finite_le_finite.mpr (by linarith)).trans hb.2⟩
      · exact ⟨hb.1.trans (finite_le_finite.mpr (by linarith)),
          (finite_le_finite.mpr (by linarith)).trans ha.2⟩
    · have hmean : mean (finite x) inf = inf := inf_div two_pos
      rwa [hmean]
  · have hmean : mean inf b = inf := by
      obtain ⟨y, rfl, -⟩ | rfl := pos_cases (hlo.trans_le hb.1)
      · exact inf_div two_pos
      · exact inf_div two_pos
    rwa [hmean]

end Field

/-! ### Sorting -/

/-- Sorting, as far as it is specified. -/
structure Sorting (α : Type*) [LinearOrder α] where
  sorted : List (Extended α) → List (Extended α)
  perm : ∀ l, (sorted l).Perm l
  pairwise : ∀ l, nan ∉ l → (sorted l).Pairwise (· ≤ ·)

variable [LinearOrder α]

/-- A value comes before those that are not less than it, and before NaN. -/
def Sorting.insertion : Sorting α where
  sorted l := l.insertionSort fun a b => ¬ b.IsLT a
  perm l := List.perm_insertionSort _ l
  pairwise l h := by
    have heq : l.insertionSort (fun a b => ¬ b.IsLT a) = l.insertionSort (· ≤ ·) := by
      have hmap := List.map_insertionSort (fun a b => ¬ b.IsLT a) (· ≤ ·) id l
        fun a _ b hb => by
          have hb : b ≠ nan := fun hnan => h (hnan ▸ hb)
          simp only [IsLT, ne_eq, hb, not_false_eq_true, true_and, not_lt, id]
      rwa [List.map_id, List.map_id] at hmap
    rw [heq]
    exact List.pairwise_insertionSort _ l

/-- A NaN comes into the middle. -/
def Sorting.middling : Sorting α where
  sorted l :=
    if nan ∈ l then (l.insertionSort (· ≤ ·)).rotate (l.length - l.length / 2)
    else l.insertionSort (· ≤ ·)
  perm l := by
    have hperm := List.perm_insertionSort (· ≤ ·) l
    split_ifs
    · exact (List.rotate_perm _ _).trans hperm
    · exact hperm
  pairwise l h := by
    rw [if_neg h]
    exact List.pairwise_insertionSort _ l

/-- The least of the values comes first. -/
lemma exists_insertionSort_eq {l : List (Extended α)} (h : nan ∈ l) :
    ∃ rest, l.insertionSort (· ≤ ·) = nan :: rest := by
  have hmem : nan ∈ l.insertionSort (· ≤ ·) := (List.perm_insertionSort _ l).mem_iff.mpr h
  have hpairwise := List.pairwise_insertionSort (· ≤ ·) l
  cases hsort : l.insertionSort (· ≤ ·) with
  | nil =>
    rw [hsort] at hmem
    exact absurd hmem List.not_mem_nil
  | cons a rest =>
    rw [hsort] at hmem hpairwise
    rcases List.mem_cons.mp hmem with rfl | hrest
    · exact ⟨rest, rfl⟩
    · rw [le_nan.mp ((List.pairwise_cons.mp hpairwise).1 nan hrest)]
      exact ⟨rest, rfl⟩

lemma Sorting.middling_getElem? {l : List (Extended α)} (h : nan ∈ l) :
    (middling.sorted l)[l.length / 2]? = some nan := by
  have hpos : 0 < l.length := List.length_pos_of_mem h
  have hlength : (l.insertionSort (· ≤ ·)).length = l.length :=
    (List.perm_insertionSort _ l).length_eq
  obtain ⟨rest, hsort⟩ := exists_insertionSort_eq h
  dsimp only [middling]
  rw [if_pos h, List.getElem?_rotate (by omega), hlength, Nat.add_sub_cancel' (Nat.div_le_self _ _),
    Nat.mod_self, hsort]
  rfl

end Extended
