import Mathlib.Tactic

/-!
# The proleptic Gregorian calendar

Years from 0 on, months and days from 1 on. The days before a date are those of the years and of the
months before it.
-/

namespace Calendar

def IsLeap (year : ℕ) : Prop := year % 4 = 0 ∧ (year % 100 ≠ 0 ∨ year % 400 = 0)

instance (year : ℕ) : Decidable (IsLeap year) := inferInstanceAs (Decidable (_ ∧ _))

def yearLength (year : ℕ) : ℕ := if IsLeap year then 366 else 365

def monthLength (year : ℕ) : ℕ → ℕ
  | 2                      => if IsLeap year then 29 else 28
  | 4 | 6 | 9 | 11         => 30
  | 1 | 3 | 5 | 7 | 8 | 10 | 12 => 31
  | _                      => 0

def daysBeforeYear : ℕ → ℕ
  | 0        => 0
  | year + 1 => daysBeforeYear year + yearLength year

def daysBeforeMonth (year : ℕ) : ℕ → ℕ
  | 0         => 0
  | month + 1 => daysBeforeMonth year month + monthLength year month

structure Date where
  year : ℕ
  month : ℕ
  day : ℕ
  month_pos : 1 ≤ month
  month_le : month ≤ 12
  day_pos : 1 ≤ day
  day_le : day ≤ monthLength year month

/-- The days from the first day of the year 0 on. -/
def Date.number (d : Date) : ℕ :=
  daysBeforeYear d.year + daysBeforeMonth d.year d.month + (d.day - 1)

variable {year year' month month' : ℕ} {d d' : Date}

lemma monthLength_le (year month : ℕ) : monthLength year month ≤ 31 := by
  unfold monthLength
  split
  · split_ifs <;> decide
  all_goals decide

/-- The years before a year, with their leap days. -/
lemma daysBeforeYear_add (year : ℕ) :
    daysBeforeYear year + (year + 99) / 100 = 365 * year + (year + 3) / 4 + (year + 399) / 400 := by
  induction year with
  | zero => rfl
  | succ year ih =>
    rw [daysBeforeYear, yearLength]
    split_ifs with hleap <;> unfold IsLeap at hleap <;> omega

lemma daysBeforeYear_mono (h : year ≤ year') : daysBeforeYear year ≤ daysBeforeYear year' := by
  induction h with
  | refl => exact le_rfl
  | step h ih => exact ih.trans (Nat.le_add_right _ _)

lemma daysBeforeMonth_mono (h : month ≤ month') :
    daysBeforeMonth year month ≤ daysBeforeMonth year month' := by
  induction h with
  | refl => exact le_rfl
  | step h ih => exact ih.trans (Nat.le_add_right _ _)

lemma daysBeforeMonth_year (year : ℕ) : daysBeforeMonth year 13 = yearLength year := by
  simp only [daysBeforeMonth, monthLength, yearLength]
  split_ifs <;> rfl

/-- A date lies before the end of its month. -/
lemma Date.number_lt_month (d : Date) :
    d.number < daysBeforeYear d.year + daysBeforeMonth d.year (d.month + 1) := by
  have hpos := d.day_pos
  have hle := d.day_le
  rw [Date.number, daysBeforeMonth]
  omega

lemma Date.number_lt_of_year (h : d.year < d'.year) : d.number < d'.number := by
  have hmonth : d.month + 1 ≤ 13 := Nat.succ_le_succ d.month_le
  calc d.number
      < daysBeforeYear d.year + daysBeforeMonth d.year (d.month + 1) := d.number_lt_month
    _ ≤ daysBeforeYear d.year + daysBeforeMonth d.year 13 :=
        Nat.add_le_add_left (daysBeforeMonth_mono hmonth) _
    _ = daysBeforeYear (d.year + 1) := by rw [daysBeforeMonth_year, daysBeforeYear]
    _ ≤ daysBeforeYear d'.year := daysBeforeYear_mono h
    _ ≤ d'.number := (Nat.le_add_right _ _).trans (Nat.le_add_right _ _)

lemma Date.number_lt_of_month (hyear : d.year = d'.year) (h : d.month < d'.month) :
    d.number < d'.number := by
  calc d.number
      < daysBeforeYear d.year + daysBeforeMonth d.year (d.month + 1) := d.number_lt_month
    _ ≤ daysBeforeYear d.year + daysBeforeMonth d.year d'.month :=
        Nat.add_le_add_left (daysBeforeMonth_mono h) _
    _ = daysBeforeYear d'.year + daysBeforeMonth d'.year d'.month := by rw [hyear]
    _ ≤ d'.number := Nat.le_add_right _ _

lemma Date.number_lt_of_day (hyear : d.year = d'.year) (hmonth : d.month = d'.month)
    (h : d.day < d'.day) : d.number < d'.number := by
  have hpos := d.day_pos
  rw [Date.number, Date.number, hyear, hmonth]
  omega

end Calendar
