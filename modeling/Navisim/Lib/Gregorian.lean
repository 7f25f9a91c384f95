import Mathlib.Tactic

/-!
# The Gregorian calendar

The days of the calendar, in their order, and their numbers: day 1 is the first of January of
year 1.  The day after a day has the next number (`Day.number_next`), so a calendar that starts
at some day reaches every later number (`Day.exists_number`), and an earlier day has a smaller
number (`Day.number_lt`).
-/

namespace Navisim.Gregorian

/-- A year divisible by 4, unless it is a century that is not divisible by 400. -/
def Leap (y : Int) : Prop :=
  y % 4 = 0 ∧ (y % 100 = 0 → y % 400 = 0)

instance (y : Int) : Decidable (Leap y) :=
  inferInstanceAs (Decidable (_ ∧ (_ → _)))

def monthLength (y m : Int) : Int :=
  if m = 2 then
    if Leap y then 29 else 28
  else if m = 4 ∨ m = 6 ∨ m = 9 ∨ m = 11 then 30
  else 31

theorem monthLength_bounds (y m : Int) : 28 ≤ monthLength y m ∧ monthLength y m ≤ 31 := by
  unfold monthLength
  split
  · split <;> decide
  · split <;> decide

/-- A day of the calendar. -/
@[ext] structure Day where
  y : Int
  m : Int
  d : Int
  month : 1 ≤ m ∧ m ≤ 12
  day : 1 ≤ d ∧ d ≤ monthLength y m

/-! ## Numbers -/

/-- The days before a year. -/
def yearStart (y : Int) : Int :=
  365 * (y - 1) + (y - 1) / 4 - (y - 1) / 100 + (y - 1) / 400

/-- The days of a year before a month. -/
def monthStart (y m : Int) : Int :=
  (367 * m - 362) / 12 - if m ≤ 2 then 0 else if Leap y then 1 else 2

def Day.number (a : Day) : Int :=
  yearStart a.y + monthStart a.y a.m + a.d

theorem monthStart_one (y : Int) : monthStart y 1 = 0 := by
  norm_num [monthStart]

theorem monthStart_succ {y m : Int} (first : 1 ≤ m) (last : m ≤ 11) :
    monthStart y (m + 1) = monthStart y m + monthLength y m := by
  unfold monthStart monthLength
  by_cases leap : Leap y
  · simp only [if_pos leap]
    interval_cases m <;> norm_num
  · simp only [if_neg leap]
    interval_cases m <;> norm_num

theorem yearStart_succ (y : Int) :
    yearStart (y + 1) = yearStart y + monthStart y 12 + monthLength y 12 := by
  unfold yearStart monthStart monthLength
  by_cases leap : Leap y
  · simp only [if_pos leap]
    unfold Leap at leap
    norm_num
    omega
  · simp only [if_neg leap]
    unfold Leap at leap
    norm_num
    omega

/-! ## The next day -/

theorem january : (1 : Int) ≤ 1 ∧ (1 : Int) ≤ 12 := by decide

/-- The day after a day. -/
def Day.next (a : Day) : Day :=
  if within : a.d < monthLength a.y a.m then
    { a with d := a.d + 1, day := ⟨by linarith [a.day.1], within⟩ }
  else if year : a.m < 12 then
    { a with
      m := a.m + 1
      d := 1
      month := ⟨by linarith [a.month.1], year⟩
      day := ⟨le_rfl, by linarith [(monthLength_bounds a.y (a.m + 1)).1]⟩ }
  else
    { y := a.y + 1
      m := 1
      d := 1
      month := january
      day := ⟨le_rfl, by linarith [(monthLength_bounds (a.y + 1) 1).1]⟩ }

theorem Day.number_next (a : Day) : a.next.number = a.number + 1 := by
  rcases a.month with ⟨first, last⟩
  rcases a.day with ⟨positive, end_⟩
  unfold next
  split
  · simp only [number]
    ring
  · have full : a.d = monthLength a.y a.m := by omega
    split
    · simp only [number]
      rw [monthStart_succ first (by omega)]
      omega
    · have december : a.m = 12 := by omega
      simp only [number]
      rw [december] at full ⊢
      rw [monthStart_one, yearStart_succ]
      omega

/-- **Every number is a day's**, from any day on. -/
theorem Day.exists_number (a : Day) (n : Nat) : ∃ b : Day, b.number = a.number + n := by
  induction n with
  | zero => exact ⟨a, by simp⟩
  | succ n ih =>
      rcases ih with ⟨b, reached⟩
      refine ⟨b.next, ?_⟩
      rw [b.number_next, reached]
      push_cast
      ring

/-! ## The order of the days -/

/-- The first day comes before the second. -/
def Day.Before (a b : Day) : Prop :=
  a.y < b.y ∨ a.y = b.y ∧ (a.m < b.m ∨ a.m = b.m ∧ a.d < b.d)

theorem Day.trichotomy (a b : Day) : a.Before b ∨ a = b ∨ b.Before a := by
  unfold Before
  rw [Day.ext_iff]
  omega

theorem yearStart_mono {y y' : Int} (later : y ≤ y') : yearStart y ≤ yearStart y' := by
  unfold yearStart
  omega

theorem monthStart_mono (y : Int) {m m' : Int} (later : m ≤ m') :
    monthStart y m ≤ monthStart y m' := by
  unfold monthStart
  split_ifs <;> omega

theorem Day.yearStart_lt (a : Day) : yearStart a.y < a.number := by
  have start := a.month
  have positive := a.day
  unfold number monthStart
  split
  · omega
  · split <;> omega

theorem Day.le_monthStart (a : Day) (year : a.m ≤ 11) :
    a.number ≤ yearStart a.y + monthStart a.y (a.m + 1) := by
  rw [monthStart_succ a.month.1 year]
  have last := a.day.2
  unfold number
  omega

theorem Day.le_yearStart (a : Day) : a.number ≤ yearStart (a.y + 1) := by
  rw [yearStart_succ]
  by_cases december : a.m = 12
  · have last := a.day.2
    unfold number
    rw [december] at last ⊢
    omega
  · have year : a.m ≤ 11 := by have := a.month; omega
    have within := a.le_monthStart year
    have months : monthStart a.y (a.m + 1) ≤ monthStart a.y 12 := monthStart_mono a.y (by omega)
    have length := monthLength_bounds a.y 12
    omega

/-- **An earlier day has a smaller number.** -/
theorem Day.number_lt {a b : Day} (before : a.Before b) : a.number < b.number := by
  rcases before with year | ⟨sameYear, month | ⟨sameMonth, day⟩⟩
  · calc a.number ≤ yearStart (a.y + 1) := a.le_yearStart
      _ ≤ yearStart b.y := yearStart_mono year
      _ < b.number := b.yearStart_lt
  · have months : monthStart a.y (a.m + 1) ≤ monthStart a.y b.m := monthStart_mono a.y month
    have within := a.le_monthStart (by have := b.month; omega)
    have positive := b.day.1
    unfold number at within ⊢
    rw [← sameYear]
    omega
  · unfold number
    rw [← sameYear, ← sameMonth]
    omega

end Navisim.Gregorian
