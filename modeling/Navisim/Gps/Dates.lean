import Navisim.Gps.Calendar
import Navisim.Lib.Gregorian

/-!
# Dates of GPS times

`gps2date`, which reads a GPS time as a calendar date.  From 1980 to 2099 the leap days that
`date2gps` counts are those of the Gregorian calendar, and the two conversions undo each other.
-/

namespace Navisim

open Gregorian

def gps2date (g : GpsTime ℚ) : DateTime :=
  -- Convert Julian day number to calendar date
  let c := trunc ((7 * g.week : Int) + (⌊g.sec / 86400.0⌋ : ℚ) + 2444245.0) + 1537
  let d := trunc (((c : ℚ) - 122.1) / 365.25)
  let e := 365 * d + d.tdiv 4
  let f := trunc (((c - e : Int) : ℚ) / 30.6001)
  let m := f - 1 - 12 * f.tdiv 14
  { y := d - 4715 - (7 + m).tdiv 10
    m := m
    d := c - e - trunc (30.6001 * (f : ℚ))
    hh := (trunc (g.sec / 3600.0)).tmod 24
    mm := (trunc (g.sec / 60.0)).tmod 60
    sec := g.sec - 60.0 * (⌊g.sec / 60.0⌋ : ℚ) }

/-! ## The dates from 1980 to 2099 -/

/-- The first day of GPS time. -/
def firstDay : Day where
  y := 1980
  m := 1
  d := 6
  month := january
  day := by decide

/-- A time of day on a date from 1980-01-06 to 2099-12-31. -/
structure DateTime.InSpan (t : DateTime) : Prop where
  month : 1 ≤ t.m ∧ t.m ≤ 12
  day : 1 ≤ t.d ∧ t.d ≤ monthLength t.y t.m
  first : 1980 < t.y ∨ t.y = 1980 ∧ (1 < t.m ∨ 6 ≤ t.d)
  last : t.y ≤ 2099
  hour : 0 ≤ t.hh ∧ t.hh ≤ 23
  minute : 0 ≤ t.mm ∧ t.mm ≤ 59
  second : 0 ≤ t.sec ∧ t.sec < 60

/-- The days from 1980-01-06 to 2099-12-31: 120 years, with 30 leap days, less five days. -/
def spanDays : Int := 120 * 365 + 30 - 5

/-- A GPS time of these days. -/
structure GpsTime.InSpan (g : GpsTime ℚ) : Prop where
  inWeek : g.InWeek
  week : 0 ≤ g.week
  last : g.total < spanDays * 86400

/-- The first time is earlier in the calendar. -/
def DateTime.Before (t t' : DateTime) : Prop :=
  t.y < t'.y ∨ t.y = t'.y ∧ (t.m < t'.m ∨ t.m = t'.m ∧ (t.d < t'.d ∨ t.d = t'.d ∧
    (t.hh < t'.hh ∨ t.hh = t'.hh ∧ (t.mm < t'.mm ∨ t.mm = t'.mm ∧ t.sec < t'.sec))))

/-- The seconds since midnight. -/
def DateTime.timeOfDay (t : DateTime) : ℚ :=
  t.hh * 3600 + t.mm * 60 + t.sec

def DateTime.InSpan.toDay {t : DateTime} (span : t.InSpan) : Day where
  y := t.y
  m := t.m
  d := t.d
  month := span.month
  day := span.day

theorem DateTime.InSpan.firstDay_le {t : DateTime} (span : t.InSpan) :
    firstDay.number ≤ span.toDay.number := by
  rcases firstDay.trichotomy span.toDay with before | same | after
  · exact (Day.number_lt before).le
  · rw [same]
  · have first := span.first
    have month := span.month
    simp only [Day.Before, toDay, firstDay] at after
    omega

theorem DateTime.InSpan.toDay_lt {t : DateTime} (span : t.InSpan) :
    span.toDay.number < firstDay.number + spanDays := by
  have year : span.toDay.y + 1 ≤ 2100 := by
    have last := span.last
    simp only [toDay]
    omega
  rw [show firstDay.number + spanDays = yearStart 2100 + 1 by decide, Int.lt_add_one_iff]
  exact (Day.le_yearStart _).trans (yearStart_mono year)

/-! ## Days -/

section Days

variable {a : Day}

theorem leap_iff {y : Int} (first : 1980 ≤ y) (last : y ≤ 2099) : Leap y ↔ y % 4 = 0 := by
  unfold Leap
  omega

theorem daysBefore_eq {m : Int} (first : 1 ≤ m) (last : m ≤ 12) :
    daysBefore m = some ((367 * m - 362) / 12 - if m ≤ 2 then 0 else 2) := by
  interval_cases m <;> decide

/-- `de` counts the days of the Gregorian calendar. -/
theorem daysElapsed_eq {t : DateTime} (span : t.InSpan) :
    daysElapsed t ((367 * t.m - 362) / 12 - if t.m ≤ 2 then 0 else 2) =
      span.toDay.number - firstDay.number := by
  have since : 1980 ≤ t.y := by
    have first := span.first
    omega
  have last := span.last
  have leap := leap_iff since last
  rw [show firstDay.number = 722820 by decide]
  simp only [daysElapsed, Day.number, DateTime.InSpan.toDay, yearStart, monthStart, leap]
  rw [Int.tdiv_eq_ediv_of_nonneg (by omega), Int.tmod_eq_emod_of_nonneg (by omega)]
  split_ifs <;> omega

/-! ### The calendar from March on -/

theorem trunc_ratio {p : Int} {q : Nat} {x : ℚ} (nonneg : 0 ≤ p) (ratio : x = (p : ℚ) / q) :
    trunc x = p / q := by
  have positive : 0 ≤ (p : ℚ) / q := by positivity
  rw [ratio, trunc_of_nonneg positive, Rat.floor_intCast_div_natCast]

theorem trunc_year {c : Int} (large : 123 ≤ c) :
    trunc (((c : ℚ) - 122.1) / 365.25) = (20 * c - 2442) / 7305 := by
  apply trunc_ratio (by omega)
  push_cast
  ring

theorem trunc_month {n : Int} (nonneg : 0 ≤ n) :
    trunc ((n : ℚ) / 30.6001) = 10000 * n / 306001 := by
  apply trunc_ratio (by omega)
  push_cast
  ring

theorem trunc_days {f : Int} (nonneg : 0 ≤ f) :
    trunc (30.6001 * (f : ℚ)) = 306001 * f / 10000 := by
  apply trunc_ratio (q := 10000) (by omega)
  push_cast
  ring

/-- `d`: the year in a calendar that starts with March, so that a leap day is the last. -/
def marchYear (a : Day) : Int :=
  if a.m ≤ 2 then a.y + 4715 else a.y + 4716

/-- `f`: the month in this calendar, from 4 to 15. -/
def marchMonth (a : Day) : Int :=
  if a.m ≤ 2 then a.m + 13 else a.m + 1

/-- `c-e`: the day in this calendar. -/
def marchDay (a : Day) : Int :=
  306001 * marchMonth a / 10000 + a.d

theorem marchMonth_bounds (a : Day) : 4 ≤ marchMonth a ∧ marchMonth a ≤ 15 := by
  have month := a.month
  unfold marchMonth
  omega

theorem marchMonth_start (a : Day) : 306001 * marchMonth a / 10000 =
    (367 * a.m - 362) / 12 + if a.m ≤ 2 then 428 else 61 := by
  rcases a.month with ⟨start, stop⟩
  unfold marchMonth
  generalize a.m = m at *
  interval_cases m <;> rfl

/-- `c` -/
theorem number_eq (first : 1980 ≤ a.y) (last : a.y ≤ 2099) :
    a.number - firstDay.number + 2445782 =
      365 * marchYear a + marchYear a / 4 + marchDay a := by
  rw [show firstDay.number = 722820 by decide, marchDay, marchMonth_start]
  simp only [Day.number, yearStart, monthStart, leap_iff first last, marchYear]
  split_ifs <;> omega

theorem marchMonth_length (a : Day) : monthLength a.y a.m ≤
    306001 * (marchMonth a + 1) / 10000 - 306001 * marchMonth a / 10000 := by
  rcases a.month with ⟨start, stop⟩
  unfold monthLength marchMonth
  generalize a.m = m at *
  interval_cases m <;> norm_num
  split <;> decide

theorem marchDay_bounds (first : 1980 ≤ a.y) (last : a.y ≤ 2099) :
    123 ≤ marchDay a ∧ marchDay a ≤ 487 + ((marchYear a + 1) / 4 - marchYear a / 4) := by
  rcases a.month with ⟨start, stop⟩
  rcases a.day with ⟨one, length⟩
  have longest := (monthLength_bounds a.y a.m).2
  rw [marchDay, marchMonth_start]
  by_cases february : a.m = 2
  · -- The leap day is the last day of the year.
    rw [february] at length ⊢
    simp only [monthLength, leap_iff first last] at length
    simp only [marchYear, february]
    norm_num at length ⊢
    split at length <;> omega
  · unfold marchYear
    split_ifs <;> omega

/-- Years of 365.25 days, counted from 122.1 days before the start, give the year back. -/
theorem year_eq {c y n : Int} (count : c = 365 * y + y / 4 + n) (start : 123 ≤ n)
    (stop : n ≤ 487 + ((y + 1) / 4 - y / 4)) : (20 * c - 2442) / 7305 = y := by
  obtain ⟨k, r, four, small⟩ : ∃ k r : Int, y = 4 * k + r ∧ (r = 0 ∨ r = 1 ∨ r = 2 ∨ r = 3) :=
    ⟨y / 4, y % 4, by omega, by omega⟩
  rcases small with rfl | rfl | rfl | rfl <;> omega

/-- Months of 30.6001 days give the month back. -/
theorem month_eq (a : Day) : 10000 * marchDay a / 306001 = marchMonth a := by
  have length := marchMonth_length a
  rcases a.day with ⟨one, day⟩
  obtain ⟨first, last⟩ := marchMonth_bounds a
  unfold marchDay
  generalize marchMonth a = f at *
  interval_cases f <;> omega

/-- **The calendar part of `gps2date`.** -/
theorem gps2date_day {g : GpsTime ℚ} (first : 1980 ≤ a.y) (last : a.y ≤ 2099)
    (count : 7 * g.week + ⌊g.sec / 86400⌋ = a.number - firstDay.number) :
    (gps2date g).y = a.y ∧ (gps2date g).m = a.m ∧ (gps2date g).d = a.d := by
  have julian : trunc ((7 * g.week : Int) + (⌊g.sec / 86400.0⌋ : ℚ) + 2444245.0) + 1537 =
      365 * marchYear a + marchYear a / 4 + marchDay a := by
    have whole : ((7 * g.week : Int) : ℚ) + (⌊g.sec / 86400.0⌋ : ℚ) + 2444245.0 =
        ((a.number - firstDay.number + 2444245 : Int) : ℚ) := by
      rw [← count]
      norm_num
    rw [whole, trunc_intCast, ← number_eq first last]
    ring
  obtain ⟨start, stop⟩ := marchDay_bounds first last
  rcases a.month with ⟨low, high⟩
  have years : 6695 ≤ marchYear a := by
    unfold marchYear
    omega
  simp only [gps2date]
  rw [julian, trunc_year (by omega), year_eq rfl start stop,
    show (marchYear a).tdiv 4 = marchYear a / 4 from Int.tdiv_eq_ediv_of_nonneg (by omega),
    add_sub_cancel_left, trunc_month (by omega), month_eq]
  obtain ⟨firstMonth, lastMonth⟩ := marchMonth_bounds a
  rw [trunc_days (by omega),
    show (marchMonth a).tdiv 14 = marchMonth a / 14 from Int.tdiv_eq_ediv_of_nonneg (by omega)]
  have month : marchMonth a - 1 - 12 * (marchMonth a / 14) = a.m := by
    unfold marchMonth
    omega
  rw [month, Int.tdiv_eq_ediv_of_nonneg (by omega)]
  refine ⟨?_, rfl, ?_⟩
  · unfold marchYear
    omega
  · unfold marchDay
    ring

end Days

/-! ## Times of day -/

section TimeOfDay

variable {t : DateTime} {g : GpsTime ℚ}

/-- What `date2gps` counts in the span. -/
theorem date2gps_eq (span : t.InSpan) :
    date2gps t = some
      { week := (span.toDay.number - firstDay.number) / 7
        sec := ((span.toDay.number - firstDay.number) % 7 : Int) * 86400 + t.timeOfDay } := by
  have later := span.firstDay_le
  rcases seconds_eq with ⟨day, hour, minute⟩
  simp only [date2gps]
  rw [daysBefore_eq span.month.1 span.month.2, Option.map_some, daysElapsed_eq span,
    Int.tdiv_eq_ediv_of_nonneg (by omega), Int.tmod_eq_emod_of_nonneg (by omega), day, hour, minute,
    DateTime.timeOfDay]
  ring_nf

theorem timeOfDay_bounds (span : t.InSpan) : 0 ≤ t.timeOfDay ∧ t.timeOfDay < 86400 := by
  rcases span.hour with ⟨start, stop⟩
  rcases span.minute with ⟨start', stop'⟩
  rcases span.second with ⟨start'', stop''⟩
  qify at start stop start' stop'
  unfold DateTime.timeOfDay
  constructor <;> linarith

/-- The minutes of a time that is read as days, hours, minutes and seconds. -/
theorem floor_minutes (span : t.InSpan) (n : Int) :
    ⌊((n : ℚ) * 86400 + t.timeOfDay) / 60⌋ = n * 1440 + t.hh * 60 + t.mm := by
  rcases span.second with ⟨start, stop⟩
  rw [Int.floor_eq_iff]
  unfold DateTime.timeOfDay
  push_cast
  constructor <;> linarith

theorem floor_div_minutes (x : ℚ) (n : Nat) : ⌊x / (60 * n)⌋ = ⌊x / 60⌋ / n := by
  rw [← div_div, Int.floor_div_natCast]

theorem floor_day (g : GpsTime ℚ) : ⌊g.sec / 86400⌋ = ⌊g.sec / 60⌋ / 1440 := by
  have day := floor_div_minutes g.sec 1440
  norm_num at day
  exact day

/-- The time of day of `gps2date`, by whole minutes. -/
theorem gps2date_time (nonneg : 0 ≤ g.sec) :
    (gps2date g).hh = ⌊g.sec / 60⌋ / 60 % 24 ∧ (gps2date g).mm = ⌊g.sec / 60⌋ % 60 ∧
      (gps2date g).sec = g.sec - 60 * (⌊g.sec / 60⌋ : ℚ) := by
  have minutes : 0 ≤ ⌊g.sec / 60⌋ := Int.floor_nonneg.mpr (by positivity)
  have hours := floor_div_minutes g.sec 60
  norm_num at hours
  simp only [gps2date]
  norm_num
  rw [trunc_of_nonneg (by positivity), trunc_of_nonneg (by positivity), hours,
    Int.tmod_eq_emod_of_nonneg (by omega), Int.tmod_eq_emod_of_nonneg (by omega)]
  exact ⟨rfl, rfl⟩

/-- The seconds since the first day are whole days and the time of day. -/
theorem date2gps_total (span : t.InSpan) (converted : date2gps t = some g) :
    g.total = (span.toDay.number - firstDay.number : Int) * 86400 + t.timeOfDay := by
  rw [date2gps_eq span, Option.some.injEq] at converted
  rw [← converted]
  generalize span.toDay.number - firstDay.number = de
  have weeks : ((7 * (de / 7) + de % 7 : Int) : ℚ) = de := by rw [Int.mul_ediv_add_emod]
  push_cast at weeks
  simp only [GpsTime.total]
  linarith

theorem date2gps_inSpan (span : t.InSpan) (converted : date2gps t = some g) : g.InSpan := by
  obtain ⟨start, stop⟩ := timeOfDay_bounds span
  have total := date2gps_total span converted
  rw [date2gps_eq span, Option.some.injEq] at converted
  have later : 0 ≤ span.toDay.number - firstDay.number := by linarith [span.firstDay_le]
  have earlier : span.toDay.number - firstDay.number + 1 ≤ spanDays := by
    linarith [span.toDay_lt]
  generalize span.toDay.number - firstDay.number = de at *
  have within : 0 ≤ de % 7 ∧ de % 7 + 1 ≤ 7 := by omega
  qify at within earlier
  rw [← converted] at total ⊢
  refine ⟨⟨?_, ?_⟩, ?_, ?_⟩
  · dsimp only
    linarith
  · dsimp only
    linarith
  · dsimp only
    omega
  · rw [total]
    linarith

/-- A converted date is read back. -/
theorem gps2date_date2gps (span : t.InSpan) (converted : date2gps t = some g) :
    gps2date g = t := by
  have nonneg := (date2gps_inSpan span converted).inWeek.1
  rw [date2gps_eq span, Option.some.injEq] at converted
  have minutes : ⌊g.sec / 60⌋ =
      (span.toDay.number - firstDay.number) % 7 * 1440 + t.hh * 60 + t.mm := by
    rw [← converted]
    exact floor_minutes span _
  rcases span.hour with ⟨hour, hour'⟩
  rcases span.minute with ⟨minute, minute'⟩
  have count : 7 * g.week + ⌊g.sec / 86400⌋ = span.toDay.number - firstDay.number := by
    rw [floor_day, minutes, ← converted]
    dsimp only
    omega
  have first : 1980 ≤ span.toDay.y := by
    have first := span.first
    simp only [DateTime.InSpan.toDay]
    omega
  obtain ⟨year, month, day⟩ := gps2date_day first span.last count
  obtain ⟨hours, mins, secs⟩ := gps2date_time nonneg
  rw [minutes] at hours mins secs
  have second : (gps2date g).sec = t.sec := by
    rw [secs, ← converted]
    simp only [DateTime.timeOfDay]
    push_cast
    ring
  have hour : (gps2date g).hh = t.hh := by omega
  have minute : (gps2date g).mm = t.mm := by omega
  cases t
  cases read : gps2date g
  rw [read] at year month day hour minute second
  simp only [DateTime.InSpan.toDay] at year month day hour minute second
  rw [year, month, day, hour, minute, second]

/-- Every day of the span is a day of the calendar. -/
theorem exists_day {n : Int} (nonneg : 0 ≤ n) (bound : n < spanDays) :
    ∃ a : Day, a.number = firstDay.number + n ∧ a.y ≤ 2099 ∧
      (1980 < a.y ∨ a.y = 1980 ∧ (1 < a.m ∨ 6 ≤ a.d)) := by
  obtain ⟨a, number⟩ := firstDay.exists_number n.toNat
  rw [Int.toNat_of_nonneg nonneg] at number
  refine ⟨a, number, ?_, ?_⟩
  · by_contra late
    have years := yearStart_mono (show 2100 ≤ a.y by omega)
    have start := a.yearStart_lt
    have stop : firstDay.number + spanDays = yearStart 2100 + 1 := by decide
    omega
  · have first : ¬ a.Before firstDay := by
      intro early
      have less := Day.number_lt early
      omega
    have month := a.month
    simp only [Day.Before, firstDay] at first
    omega

/-- Every GPS time of the span is the time of a date. -/
theorem exists_date (span : g.InSpan) : ∃ t : DateTime, t.InSpan ∧ date2gps t = some g := by
  rcases span.inWeek with ⟨nonneg, upper⟩
  have week := span.week
  obtain ⟨q, minutes⟩ : ∃ q : Int, q = ⌊g.sec / 60⌋ := ⟨_, rfl⟩
  have floor := Int.floor_eq_iff.mp minutes.symm
  have low : 0 ≤ q := by
    rw [minutes]
    exact Int.floor_nonneg.mpr (by positivity)
  have high : q < 10080 := by
    rw [minutes, Int.floor_lt]
    push_cast
    linarith
  have bound : 7 * g.week + q / 1440 < spanDays := by
    have last := span.last
    have total : ((7 * g.week * 1440 + q : Int) : ℚ) < (spanDays * 1440 : Int) := by
      unfold GpsTime.total at last
      push_cast
      linarith
    have whole : 7 * g.week * 1440 + q < spanDays * 1440 := by exact_mod_cast total
    omega
  obtain ⟨a, number, yearLast, first⟩ := exists_day (by omega) bound
  have inSpan : DateTime.InSpan ⟨a.y, a.m, a.d, q / 60 % 24, q % 60, g.sec - 60 * q⟩ := by
    refine ⟨a.month, a.day, first, yearLast, ?_, ?_, ?_⟩
    · dsimp only
      omega
    · dsimp only
      omega
    · constructor <;> linarith
  refine ⟨_, inSpan, ?_⟩
  rw [date2gps_eq inSpan, show inSpan.toDay = a from rfl, number, Option.some.injEq]
  rw [add_sub_cancel_left, show (7 * g.week + q / 1440) / 7 = g.week by omega]
  have split : (7 * g.week + q / 1440) % 7 * 1440 + q / 60 % 24 * 60 + q % 60 = q := by omega
  generalize (7 * g.week + q / 1440) % 7 = day at *
  generalize q / 60 % 24 = hour at *
  generalize q % 60 = minute at *
  have second : (day : ℚ) * 86400 + (hour * 3600 + minute * 60 + (g.sec - 60 * q)) = g.sec := by
    rw [← split]
    push_cast
    ring
  simp only [DateTime.timeOfDay, second]

theorem timeOfDay_lt {t' : DateTime} (span : t.InSpan) (span' : t'.InSpan)
    (before : t.hh < t'.hh ∨ t.hh = t'.hh ∧ (t.mm < t'.mm ∨ t.mm = t'.mm ∧ t.sec < t'.sec)) :
    t.timeOfDay < t'.timeOfDay := by
  have minute := span.minute.2
  have minute' := span'.minute.1
  have second := span.second.2
  have second' := span'.second.1
  qify at minute minute'
  unfold DateTime.timeOfDay
  rcases before with hours | ⟨sameHour, minutes | ⟨sameMinute, seconds⟩⟩
  · have later : t.hh + 1 ≤ t'.hh := hours
    qify at later
    linarith
  · have later : t.mm + 1 ≤ t'.mm := minutes
    qify at later
    rw [sameHour]
    linarith
  · rw [sameHour, sameMinute]
    linarith

/-- An earlier date has an earlier GPS time. -/
theorem date2gps_lt {t' : DateTime} {g' : GpsTime ℚ} (span : t.InSpan) (span' : t'.InSpan)
    (before : t.Before t') (converted : date2gps t = some g) (converted' : date2gps t' = some g') :
    g.total < g'.total := by
  rw [date2gps_total span converted, date2gps_total span' converted']
  obtain ⟨-, stop⟩ := timeOfDay_bounds span
  obtain ⟨start', -⟩ := timeOfDay_bounds span'
  have days : span.toDay.Before span'.toDay ∨ span.toDay = span'.toDay ∧
      (t.hh < t'.hh ∨ t.hh = t'.hh ∧ (t.mm < t'.mm ∨ t.mm = t'.mm ∧ t.sec < t'.sec)) := by
    rw [Day.ext_iff]
    unfold DateTime.Before at before
    simp only [Day.Before, DateTime.InSpan.toDay]
    tauto
  rcases days with earlier | ⟨same, time⟩
  · have less : span.toDay.number - firstDay.number + 1 ≤
        span'.toDay.number - firstDay.number := by linarith [Day.number_lt earlier]
    qify at less ⊢
    linarith
  · rw [same]
    linarith [timeOfDay_lt span span' time]

end TimeOfDay

/-- **The two conversions are inverse to each other** from 1980-01-06 to 2099-12-31, and a later
date has a later GPS time. -/
theorem dates_inverse :
    (∀ t : DateTime, t.InSpan → ∃ g, date2gps t = some g ∧ g.InSpan ∧ gps2date g = t) ∧
      (∀ g : GpsTime ℚ, g.InSpan → (gps2date g).InSpan ∧ date2gps (gps2date g) = some g) ∧
      ∀ (t t' : DateTime) (g g' : GpsTime ℚ), t.InSpan → t'.InSpan → t.Before t' →
        date2gps t = some g → date2gps t' = some g' → g.total < g'.total := by
  refine ⟨?_, ?_, ?_⟩
  · intro t span
    have converted := date2gps_eq span
    exact ⟨_, converted, date2gps_inSpan span converted, gps2date_date2gps span converted⟩
  · intro g span
    obtain ⟨t, inSpan, converted⟩ := exists_date span
    rw [gps2date_date2gps inSpan converted]
    exact ⟨inSpan, converted⟩
  · intro t t' g g' span span' before converted converted'
    exact date2gps_lt span span' before converted converted'

/-- Half a second before March of a leap year. -/
def leapDay : DateTime where
  y := 2096
  m := 2
  d := 29
  hh := 23
  mm := 59
  sec := 59.5

theorem leapDay_inverse : ∃ g, date2gps leapDay = some g ∧ g.InSpan ∧ gps2date g = leapDay :=
  dates_inverse.1 leapDay
    ⟨by decide, by decide, by decide, by decide, by decide, by decide, by norm_num [leapDay]⟩

end Navisim
