import Navisim.Gps.Time

/-!
# Calendar times

`datetime_t` and its conversion to GPS time.
-/

namespace Navisim

/-- `datetime_t` -/
structure DateTime where
  y : Int
  m : Int
  d : Int
  hh : Int
  mm : Int
  sec : ℚ
  deriving DecidableEq, Repr

/-- The days before a month of a year that is no leap year. -/
def doy : List Int :=
  [0, 31, 59, 90, 120, 151, 181, 212, 243, 273, 304, 334]

def secondsInDay : ℚ := 86400.0
def secondsInHour : ℚ := 3600.0
def secondsInMinute : ℚ := 60.0

theorem seconds_eq : secondsInDay = 86400 ∧ secondsInHour = 3600 ∧ secondsInMinute = 60 := by
  norm_num [secondsInDay, secondsInHour, secondsInMinute]

/-- `doy[t->m-1]`, which is undefined when the month lies outside the table. -/
def daysBefore (m : Int) : Option Int :=
  if 1 ≤ m then doy[(m - 1).toNat]? else none

/-- `de`: the number of days elapsed since Jan 5/Jan 6, 1980. -/
def daysElapsed (t : DateTime) (month : Int) : Int :=
  let ye := t.y - 1980
  -- Compute the number of leap days since Jan 5/Jan 6, 1980.
  let lpdays := ye.tdiv 4 + 1
  let lpdays := if ye.tmod 4 = 0 ∧ t.m ≤ 2 then lpdays - 1 else lpdays
  ye * 365 + month + t.d + lpdays - 6

def date2gps (t : DateTime) : Option (GpsTime ℚ) :=
  (daysBefore t.m).map fun month =>
    let de := daysElapsed t month
    -- Convert time to GPS weeks and seconds.
    { week := de.tdiv 7
      sec := (de.tmod 7 : Int) * secondsInDay + t.hh * secondsInHour + t.mm * secondsInMinute +
        t.sec }

section Conversion

variable {t : DateTime} {g : GpsTime ℚ}

/-- Whole tenths of a second stay whole. -/
theorem date2gps_tenths (converted : date2gps t = some g) {n : Int} (tenths : t.sec = n / 10) :
    ∃ n' : Int, g.total = (n' : ℚ) / 10 := by
  obtain ⟨month, -, rfl⟩ := Option.map_eq_some_iff.mp converted
  obtain ⟨day, hour, minute⟩ := seconds_eq
  simp only [GpsTime.total, day, hour, minute, tenths]
  generalize daysElapsed t month = de
  refine ⟨de.tdiv 7 * 6048000 + de.tmod 7 * 864000 + t.hh * 36000 + t.mm * 600 + n, ?_⟩
  push_cast
  ring

theorem daysBefore_nonneg {m month : Int} (found : daysBefore m = some month) : 0 ≤ month := by
  unfold daysBefore at found
  split at found
  · have nonneg : ∀ d ∈ doy, 0 ≤ d := by decide
    exact nonneg month (List.mem_of_getElem? found)
  · exact absurd found (by simp)

/-- The week of a day after 1980 is not negative. -/
theorem date2gps_week (converted : date2gps t = some g) (year : 1981 ≤ t.y) (day : -9 ≤ t.d) :
    0 ≤ g.week := by
  obtain ⟨month, found, rfl⟩ := Option.map_eq_some_iff.mp converted
  have positive := daysBefore_nonneg found
  have leap : 0 ≤ (t.y - 1980).tdiv 4 := Int.tdiv_nonneg (by omega) (by decide)
  dsimp only
  refine Int.tdiv_nonneg ?_ (by decide)
  unfold daysElapsed
  dsimp only
  split <;> omega

end Conversion

end Navisim
