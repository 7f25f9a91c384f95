import Mathlib.Data.Rat.Floor
import Mathlib.Tactic
import Navisim.Lib.Binary64

/-!
# GPS time

`gpstime_t` and its arithmetic, with the casts of C from floating-point to integer types.  The
number type is a parameter where the code only converts and divides; the arithmetic of times is
exact.
-/

namespace Navisim

/-- The two conversions of C that lose digits. -/
class Rounding (F : Type*) where
  /-- A cast to an integer type. -/
  trunc : F → Int
  /-- `round`. -/
  round : F → F

/-- Division towards zero, and rounding half away from zero. -/
instance : Rounding ℚ where
  trunc x := x.num.tdiv x.den
  round x := if 0 ≤ x then ⌊x + 1 / 2⌋ else -⌊-x + 1 / 2⌋

export Rounding (trunc round)

/-- The conversions of a `double`. -/
instance : Rounding Binary64 where
  trunc x := trunc x.val
  round x := .ofRat (round x.val)

theorem trunc_double (x : Binary64) : trunc x = trunc x.val := rfl

@[simp] theorem trunc_intCast (n : Int) : trunc (n : ℚ) = n := by
  simp [trunc]

@[simp] theorem trunc_natCast (n : Nat) : trunc (n : ℚ) = n :=
  trunc_intCast n

theorem trunc_of_nonneg {x : ℚ} (nonneg : 0 ≤ x) : trunc x = ⌊x⌋ := by
  rw [Rat.floor_def', ← Int.tdiv_eq_ediv_of_nonneg (Rat.num_nonneg.mpr nonneg)]
  rfl

theorem trunc_neg (x : ℚ) : trunc (-x) = -trunc x := by
  have quotient : (-x).num.tdiv (-x).den = -x.num.tdiv x.den := by
    rw [Rat.num_neg_eq_neg_num, Rat.den_neg_eq_den, Int.neg_tdiv]
  exact quotient

theorem trunc_lt_iff {x : ℚ} {n : Int} (positive : 0 < n) : trunc x < n ↔ x < n := by
  rcases le_or_gt 0 x with nonneg | negative
  · rw [trunc_of_nonneg nonneg, Int.floor_lt]
  · have positive' : (0 : ℚ) < n := by exact_mod_cast positive
    have cut := trunc_neg (-x)
    rw [neg_neg, trunc_of_nonneg (show 0 ≤ -x by linarith)] at cut
    have floor : 0 ≤ ⌊-x⌋ := Int.floor_nonneg.mpr (by linarith)
    exact iff_of_true (by omega) (by linarith)

theorem le_trunc_iff {x : ℚ} {n : Int} (nonpos : n ≤ 0) : n ≤ trunc x ↔ (n : ℚ) - 1 < x := by
  have mirrored := trunc_lt_iff (x := -x) (show 0 < -n + 1 by omega)
  rw [trunc_neg] at mirrored
  push_cast at mirrored
  constructor
  · intro below
    linarith [mirrored.mp (by omega)]
  · intro above
    have below := mirrored.mpr (by linarith)
    omega

theorem round_intCast (n : Int) : round (n : ℚ) = n := by
  simp only [round]
  split
  · rw [Int.floor_intCast_add]
    norm_num
  · have negated : ⌊-(n : ℚ) + 1 / 2⌋ = -n := by
      rw [← Int.cast_neg, Int.floor_intCast_add]
      norm_num
    rw [negated]
    push_cast
    ring

theorem round_eq_intCast (x : ℚ) : ∃ n : Int, round x = (n : ℚ) := by
  simp only [round]
  split
  · exact ⟨_, rfl⟩
  · exact ⟨-⌊-x + 1 / 2⌋, by push_cast; rfl⟩

theorem abs_round_sub_le (x : ℚ) : |(round x : ℚ) - x| ≤ 1 / 2 := by
  simp only [round]
  split
  · have lower := Int.sub_one_lt_floor (x + 1 / 2)
    have upper := Int.floor_le (x + 1 / 2)
    rw [abs_le]
    constructor <;> linarith
  · have lower := Int.sub_one_lt_floor (-x + 1 / 2)
    have upper := Int.floor_le (-x + 1 / 2)
    rw [abs_le]
    constructor <;> linarith

/-! ## Times -/

/-- `gpstime_t` -/
structure GpsTime (F : Type*) where
  week : Int
  sec : F
  deriving DecidableEq, Repr

/-- `SECONDS_IN_WEEK` -/
def secondsInWeek : ℚ := 604800.0

theorem secondsInWeek_eq : secondsInWeek = 604800 := by
  norm_num [secondsInWeek]

def subGpsTime (g1 g0 : GpsTime ℚ) : ℚ :=
  let dt := g1.sec - g0.sec
  dt + (g1.week - g0.week : Int) * secondsInWeek

/-- `while (g1.sec>=SECONDS_IN_WEEK)` -/
def carryWeek (g1 : GpsTime ℚ) : GpsTime ℚ :=
  if g1.sec ≥ secondsInWeek then
    carryWeek { week := g1.week + 1, sec := g1.sec - secondsInWeek }
  else g1
termination_by ⌊g1.sec⌋.toNat
decreasing_by
  rename_i above
  rw [secondsInWeek_eq] at above ⊢
  have floor : (604800 : Int) ≤ ⌊g1.sec⌋ := Int.le_floor.mpr (by exact_mod_cast above)
  have shift : ⌊g1.sec - 604800⌋ = ⌊g1.sec⌋ - 604800 := by
    exact_mod_cast Int.floor_sub_intCast g1.sec 604800
  omega

/-- `while (g1.sec<0.0)` -/
def borrowWeek (g1 : GpsTime ℚ) : GpsTime ℚ :=
  if g1.sec < 0 then
    borrowWeek { week := g1.week - 1, sec := g1.sec + secondsInWeek }
  else g1
termination_by (-⌊g1.sec⌋).toNat
decreasing_by
  rename_i below
  rw [secondsInWeek_eq]
  have floor : ⌊g1.sec⌋ < 0 := Int.floor_lt.mpr (by exact_mod_cast below)
  have shift : ⌊g1.sec + 604800⌋ = ⌊g1.sec⌋ + 604800 := by
    exact_mod_cast Int.floor_add_intCast g1.sec 604800
  omega

def incGpsTime (g0 : GpsTime ℚ) (dt : ℚ) : GpsTime ℚ :=
  let sec := g0.sec + dt
  -- Avoid rounding error
  let sec := round (sec * 1000.0) / 1000.0
  borrowWeek (carryWeek { week := g0.week, sec := sec })

/-! ## Elapsed time -/

/-- The seconds since the start of week 0. -/
def GpsTime.total (g : GpsTime ℚ) : ℚ :=
  g.week * 604800 + g.sec

/-- The second lies inside the week. -/
def GpsTime.InWeek (g : GpsTime ℚ) : Prop :=
  0 ≤ g.sec ∧ g.sec < 604800

theorem subGpsTime_eq (g1 g0 : GpsTime ℚ) : subGpsTime g1 g0 = g1.total - g0.total := by
  simp only [subGpsTime, GpsTime.total, secondsInWeek_eq]
  push_cast
  ring

theorem carryWeek_total (g : GpsTime ℚ) : (carryWeek g).total = g.total := by
  fun_induction carryWeek g with
  | case1 g above ih =>
      rw [ih]
      simp only [GpsTime.total, secondsInWeek_eq]
      push_cast
      ring
  | case2 g below => rfl

theorem carryWeek_lt (g : GpsTime ℚ) : (carryWeek g).sec < 604800 := by
  fun_induction carryWeek g with
  | case1 g above ih => exact ih
  | case2 g below => simpa [secondsInWeek_eq] using below

theorem borrowWeek_total (g : GpsTime ℚ) : (borrowWeek g).total = g.total := by
  fun_induction borrowWeek g with
  | case1 g below ih =>
      rw [ih]
      simp only [GpsTime.total, secondsInWeek_eq]
      push_cast
      ring
  | case2 g above => rfl

theorem borrowWeek_inWeek (g : GpsTime ℚ) (upper : g.sec < 604800) :
    (borrowWeek g).InWeek := by
  fun_induction borrowWeek g with
  | case1 g below ih =>
      apply ih
      simp only [secondsInWeek_eq]
      linarith
  | case2 g above => exact ⟨not_lt.mp above, upper⟩

/-- A time on a whole millisecond. -/
def GpsTime.OnMillisecond (g : GpsTime ℚ) : Prop :=
  ∃ ms : Int, g.total = ms / 1000

theorem incGpsTime_inWeek (g : GpsTime ℚ) (dt : ℚ) : (incGpsTime g dt).InWeek :=
  borrowWeek_inWeek _ (carryWeek_lt _)

theorem incGpsTime_onMillisecond (g : GpsTime ℚ) (dt : ℚ) : (incGpsTime g dt).OnMillisecond := by
  obtain ⟨ms, whole⟩ := round_eq_intCast ((g.sec + dt) * 1000.0)
  refine ⟨g.week * 604800000 + ms, ?_⟩
  simp only [incGpsTime]
  rw [borrowWeek_total, carryWeek_total, whole, show (1000.0 : ℚ) = 1000 by norm_num]
  unfold GpsTime.total
  push_cast
  ring

/-- A time is rounded to the next millisecond. -/
theorem abs_incGpsTime_sub_le (g : GpsTime ℚ) (dt : ℚ) :
    |(incGpsTime g dt).total - (g.total + dt)| ≤ 1 / 2000 := by
  have near := abs_round_sub_le ((g.sec + dt) * 1000.0)
  simp only [incGpsTime]
  rw [borrowWeek_total, carryWeek_total]
  unfold GpsTime.total
  rw [abs_le] at near ⊢
  norm_num at near ⊢
  constructor <;> linarith

/-- Whole milliseconds are added without a rounding error. -/
theorem incGpsTime_total {g : GpsTime ℚ} {dt : ℚ} (step : Int) (stepWhole : dt = step / 1000)
    (whole : g.OnMillisecond) : (incGpsTime g dt).total = g.total + dt := by
  obtain ⟨ms, total⟩ := whole
  have scaled : (g.sec + dt) * 1000.0 = ((ms + step - g.week * 604800000 : Int) : ℚ) := by
    unfold GpsTime.total at total
    push_cast
    rw [stepWhole]
    linarith
  simp only [incGpsTime]
  rw [borrowWeek_total, carryWeek_total, scaled, round_intCast]
  unfold GpsTime.total at total ⊢
  push_cast
  rw [stepWhole]
  linarith

end Navisim
