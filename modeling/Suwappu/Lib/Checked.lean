import Mathlib.Tactic

/-!
# Checked execution

Fallible programs in `Except ε`: guards, machine arithmetic that fails instead of wrapping, and
the inversion lemmas that turn a successful run into the facts it established. The simp set
`bind_ok_iff`, `guard_ok_iff`, `addU_ok_iff`, … reads a whole `do` block in one pass.
-/

namespace Checked

universe u v

variable {ε : Type v} {α β : Type u}

/-- An error type that can report an arithmetic failure. -/
class Overflow (ε : Type v) where
  overflow : ε

instance decidableEqError [DecidableEq ε] (x : Except ε α) (e : ε) : Decidable (x = .error e) :=
  match x with
  | .ok _     => .isFalse (fun h => by cases h)
  | .error e' => decidable_of_iff (e' = e) (by simp)

/-! ### Words

Words of the usual widths are `Fin (2 ^ w)`; they have literals because they are not empty, and so
have places among a few. -/

instance neZero2 : NeZero 2 := ⟨two_ne_zero⟩

instance neZero3 : NeZero 3 := ⟨three_ne_zero⟩

instance neZero4 : NeZero 4 := ⟨four_ne_zero⟩

instance neZero16 : NeZero (2 ^ 16) := ⟨by norm_num⟩

instance neZero32 : NeZero (2 ^ 32) := ⟨by norm_num⟩

instance neZero64 : NeZero (2 ^ 64) := ⟨by norm_num⟩

instance neZero128 : NeZero (2 ^ 128) := ⟨by norm_num⟩

instance neZero160 : NeZero (2 ^ 160) := ⟨by norm_num⟩

instance neZero256 : NeZero (2 ^ 256) := ⟨by norm_num⟩

/-! ### Sequencing -/

lemma bind_ok_iff {x : Except ε α} {f : α → Except ε β} {b : β} :
    (x >>= f) = .ok b ↔ ∃ a, x = .ok a ∧ f a = .ok b := by
  cases x <;> simp [bind, Except.bind]

lemma bind_error_iff {x : Except ε α} {f : α → Except ε β} {e : ε} :
    (x >>= f) = .error e ↔ x = .error e ∨ ∃ a, x = .ok a ∧ f a = .error e := by
  cases x <;> simp [bind, Except.bind]

@[simp] lemma ok_bind (a : α) (f : α → Except ε β) : (Except.ok a >>= f) = f a := rfl

@[simp] lemma error_bind (e : ε) (f : α → Except ε β) :
    ((Except.error e : Except ε α) >>= f) = .error e := rfl

@[simp] lemma pure_ok_iff {a b : α} : (pure a : Except ε α) = .ok b ↔ a = b := by
  simp [pure, Except.pure]

@[simp] lemma pure_ne_error {a : α} {e : ε} : (pure a : Except ε α) ≠ .error e := by
  simp [pure, Except.pure]

lemma toOption_eq_some_iff {x : Except ε α} {a : α} : x.toOption = some a ↔ x = .ok a := by
  cases x <;> simp [Except.toOption]

/-- What is read off the result of a run tells that the run succeeded. -/
lemma exists_ok_of_map {γ : Type*} {x : Except ε α} {f : α → γ} {c : γ}
    (h : x.toOption.map f = some c) : ∃ a, x = .ok a ∧ f a = c := by
  obtain ⟨a, ha, hf⟩ := Option.map_eq_some_iff.mp h
  exact ⟨a, toOption_eq_some_iff.mp ha, hf⟩

/-- Runs that go on alike after a first step end alike. -/
lemma map_bind_congr {γ : Type*} {x : Except ε α} {f g : α → Except ε β} {k : β → γ}
    (h : ∀ a, (f a).map k = (g a).map k) : (x >>= f).map k = (x >>= g).map k := by
  cases x with
  | error e => rfl
  | ok a    => exact h a

/-- Branches that end alike. -/
lemma map_ite_congr {γ : Type*} {c c' : Prop} [Decidable c] [Decidable c'] {x x' y y' : Except ε α}
    {k : α → γ} (hc : c ↔ c') (hx : c → x.map k = x'.map k) (hy : ¬ c → y.map k = y'.map k) :
    (if c then x else y).map k = (if c' then x' else y').map k := by
  by_cases h : c
  · rw [if_pos h, if_pos (hc.mp h), hx h]
  · rw [if_neg h, if_neg (mt hc.mpr h), hy h]

/-- A loop of checks passes when every check does. -/
lemma forM_ok_iff {check : α → Except ε PUnit} {l : List α} {u : PUnit} :
    l.forM check = .ok u ↔ ∀ a ∈ l, check a = .ok () := by
  induction l with
  | nil => exact iff_of_true rfl (by simp)
  | cons a l ih =>
    rw [List.forM, bind_ok_iff, List.forall_mem_cons]
    exact ⟨fun ⟨_, ha, hl⟩ => ⟨ha, ih.mp hl⟩, fun ⟨ha, hl⟩ => ⟨_, ha, ih.mpr hl⟩⟩

/-- Fail with `e` unless `p` holds. -/
def guard (p : Prop) [Decidable p] (e : ε) : Except ε Unit :=
  if p then .ok () else .error e

lemma guard_ok_iff {p : Prop} [Decidable p] {e : ε} {u : Unit} :
    guard p e = .ok u ↔ p := by
  simp [guard]

lemma guard_error_iff {p : Prop} [Decidable p] {e e' : ε} :
    guard p e = .error e' ↔ ¬ p ∧ e = e' := by
  by_cases h : p <;> simp [guard, h]

@[simp] lemma guard_of_true {p : Prop} [Decidable p] {e : ε} (h : p) :
    guard p e = .ok () := by simp [guard, h]

/-! ### Errors that cannot occur -/

/-- `x` does not fail with `e`. -/
def Avoids (e : ε) (x : Except ε α) : Prop := x ≠ .error e

section Avoids

variable {e e' : ε}

lemma Avoids.bind {x : Except ε α} {f : α → Except ε β} (hx : Avoids e x)
    (hf : ∀ a, x = .ok a → Avoids e (f a)) : Avoids e (x >>= f) := by
  intro h
  rcases bind_error_iff.mp h with h | ⟨a, ha, h⟩
  · exact hx h
  · exact hf a ha h

lemma avoids_ok (a : α) : Avoids e (.ok a : Except ε α) := by simp [Avoids]

lemma avoids_pure (a : α) : Avoids e (pure a : Except ε α) := by simp [Avoids]

lemma avoids_guard {p : Prop} [Decidable p] (h : e' ≠ e) : Avoids e (guard p e') := by
  rw [Avoids, Ne, guard_error_iff]
  exact fun hp => h hp.2

lemma avoids_guard_of {p : Prop} [Decidable p] (h : p) : Avoids e (guard p e') := by
  rw [guard_of_true h]
  exact avoids_ok _

end Avoids

/-! ### Machine arithmetic -/

section Arithmetic

variable [Overflow ε]

/-- Addition of `w`-bit words, failing on overflow. -/
def addU (w a b : ℕ) : Except ε ℕ :=
  if a + b < 2 ^ w then .ok (a + b) else .error Overflow.overflow

/-- Subtraction of unsigned words, failing below zero. -/
def subU (a b : ℕ) : Except ε ℕ :=
  if b ≤ a then .ok (a - b) else .error Overflow.overflow

/-- Multiplication of `w`-bit words, failing on overflow. -/
def mulU (w a b : ℕ) : Except ε ℕ :=
  if a * b < 2 ^ w then .ok (a * b) else .error Overflow.overflow

/-- Division of unsigned words, failing on a zero divisor. -/
def divU (a b : ℕ) : Except ε ℕ :=
  if b = 0 then .error Overflow.overflow else .ok (a / b)

/-- Exponentiation in `w`-bit words, failing on overflow. -/
def powU (w a n : ℕ) : Except ε ℕ :=
  if a ^ n < 2 ^ w then .ok (a ^ n) else .error Overflow.overflow

/-- A signed result that has to fit `w`-bit two's complement. -/
def fitI (w : ℕ) (z : ℤ) : Except ε ℤ :=
  if -2 ^ (w - 1) ≤ z ∧ z < 2 ^ (w - 1) then .ok z else .error Overflow.overflow

lemma addU_ok_iff {w a b c : ℕ} :
    (addU w a b : Except ε ℕ) = .ok c ↔ a + b < 2 ^ w ∧ a + b = c := by
  unfold addU; split <;> simp_all

lemma subU_ok_iff {a b c : ℕ} : (subU a b : Except ε ℕ) = .ok c ↔ b ≤ a ∧ a - b = c := by
  unfold subU; split <;> simp_all

lemma mulU_ok_iff {w a b c : ℕ} :
    (mulU w a b : Except ε ℕ) = .ok c ↔ a * b < 2 ^ w ∧ a * b = c := by
  unfold mulU; split <;> simp_all

lemma divU_ok_iff {a b c : ℕ} : (divU a b : Except ε ℕ) = .ok c ↔ b ≠ 0 ∧ a / b = c := by
  unfold divU; split <;> simp_all

lemma powU_ok_iff {w a n c : ℕ} :
    (powU w a n : Except ε ℕ) = .ok c ↔ a ^ n < 2 ^ w ∧ a ^ n = c := by
  unfold powU; split <;> simp_all

lemma fitI_ok_iff {w : ℕ} {z c : ℤ} : (fitI w z : Except ε ℤ) = .ok c ↔
    (-2 ^ (w - 1) ≤ z ∧ z < 2 ^ (w - 1)) ∧ z = c := by
  unfold fitI; split <;> simp_all

variable {e : ε}

lemma avoids_addU {w a b : ℕ} (h : Overflow.overflow ≠ e) : Avoids e (addU w a b) := by
  unfold addU; split <;> simp [Avoids, h]

lemma avoids_subU {a b : ℕ} (h : Overflow.overflow ≠ e) : Avoids e (subU a b) := by
  unfold subU; split <;> simp [Avoids, h]

lemma avoids_mulU {w a b : ℕ} (h : Overflow.overflow ≠ e) : Avoids e (mulU w a b) := by
  unfold mulU; split <;> simp [Avoids, h]

end Arithmetic

end Checked
