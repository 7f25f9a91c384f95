import Mathlib.Algebra.Torsor.Basic
import Navisim.Gps.Time

/-!
# Steps of time

Normalised GPS times are a torsor over the whole milliseconds: `incGpsTime` is the action of a step
and `subGpsTime` the step between two times.  So steps add up exactly, over the ends of weeks in
either direction (`incGpsTime_steps`).
-/

namespace Navisim

/-! ## Normalised times -/

/-- A time whose second lies inside the week, on a whole millisecond. -/
structure GpsTime.Normal (g : GpsTime ℚ) : Prop where
  inWeek : g.InWeek
  milliseconds : ∃ ms : Int, g.sec = ms / 1000

/-- The steps of whole milliseconds. -/
def Milliseconds : AddSubgroup ℚ :=
  AddSubgroup.zmultiples (1 / 1000)

section Normal

variable {g h : GpsTime ℚ} {a : ℚ}

theorem mem_milliseconds : a ∈ Milliseconds ↔ ∃ ms : Int, a = ms / 1000 := by
  rw [Milliseconds, AddSubgroup.mem_zmultiples_iff]
  apply exists_congr
  intro ms
  rw [zsmul_eq_mul, mul_one_div, eq_comm]

theorem GpsTime.Normal.onMillisecond (normal : g.Normal) : g.OnMillisecond := by
  obtain ⟨ms, sec⟩ := normal.milliseconds
  refine ⟨g.week * 604800000 + ms, ?_⟩
  rw [GpsTime.total, sec]
  push_cast
  ring

theorem GpsTime.Normal.of_onMillisecond (inWeek : g.InWeek) (whole : g.OnMillisecond) :
    g.Normal := by
  obtain ⟨ms, total⟩ := whole
  refine ⟨inWeek, ms - g.week * 604800000, ?_⟩
  rw [GpsTime.total] at total
  push_cast
  linarith

/-- The elapsed time determines the week. -/
theorem GpsTime.InWeek.week_eq (inWeek : g.InWeek) : g.week = ⌊g.total / 604800⌋ := by
  rcases inWeek with ⟨lower, upper⟩
  symm
  rw [Int.floor_eq_iff, GpsTime.total]
  constructor
  · rw [le_div_iff₀ (by norm_num)]
    linarith
  · rw [div_lt_iff₀ (by norm_num)]
    linarith

/-- Times inside the week with the same elapsed time are the same. -/
theorem GpsTime.InWeek.eq_of_total (left : g.InWeek) (right : h.InWeek)
    (total : g.total = h.total) : g = h := by
  have week : g.week = h.week := by rw [left.week_eq, right.week_eq, total]
  have sec : g.sec = h.sec := by
    rw [GpsTime.total, GpsTime.total, week] at total
    exact add_left_cancel total
  cases g
  cases h
  cases week
  cases sec
  rfl

/-- A step leads to a normalised time. -/
theorem incGpsTime_normal (g : GpsTime ℚ) (a : ℚ) : (incGpsTime g a).Normal :=
  GpsTime.Normal.of_onMillisecond (incGpsTime_inWeek g a) (incGpsTime_onMillisecond g a)

/-- A step of whole milliseconds is exact. -/
theorem GpsTime.Normal.total_inc (normal : g.Normal) (step : a ∈ Milliseconds) :
    (incGpsTime g a).total = g.total + a := by
  obtain ⟨ms, whole⟩ := mem_milliseconds.mp step
  exact incGpsTime_total ms whole normal.onMillisecond

/-- The step between two normalised times. -/
theorem GpsTime.Normal.sub_mem (later : h.Normal) (earlier : g.Normal) :
    subGpsTime h g ∈ Milliseconds := by
  obtain ⟨ms, total⟩ := later.onMillisecond
  obtain ⟨ms', total'⟩ := earlier.onMillisecond
  rw [mem_milliseconds, subGpsTime_eq, total, total']
  refine ⟨ms - ms', ?_⟩
  push_cast
  ring

end Normal

/-! ## The torsor -/

/-- A normalised time. -/
structure NormalTime where
  time : GpsTime ℚ
  normal : time.Normal

namespace NormalTime

/-- The step `a` behind a time. -/
def inc (g : NormalTime) (a : Milliseconds) : NormalTime where
  time := incGpsTime g.time a
  normal := incGpsTime_normal g.time a

/-- The step between two times. -/
def sub (h g : NormalTime) : Milliseconds :=
  ⟨subGpsTime h.time g.time, h.normal.sub_mem g.normal⟩

variable {g h : NormalTime} {a b : Milliseconds}

theorem eq_of_total (total : g.time.total = h.time.total) : g = h := by
  cases g with
  | mk time normal =>
      cases h with
      | mk time' normal' =>
          cases normal.inWeek.eq_of_total normal'.inWeek total
          rfl

theorem total_inc : (g.inc a).time.total = g.time.total + a :=
  g.normal.total_inc a.2

theorem sub_coe : (h.sub g : ℚ) = h.time.total - g.time.total :=
  subGpsTime_eq h.time g.time

/-- Steps act on the times, and one step leads from a time to another. -/
instance : AddTorsor Milliseconds NormalTime where
  vadd a g := g.inc a
  vsub h g := h.sub g
  nonempty := ⟨⟨incGpsTime { week := 0, sec := 0 } 0, incGpsTime_normal _ _⟩⟩
  zero_vadd g := by
    apply eq_of_total
    exact total_inc.trans (add_zero _)
  add_vadd a b g := by
    apply eq_of_total
    calc
      (g.inc (a + b)).time.total = g.time.total + (a + b) := total_inc
      _ = g.time.total + b + a := by ring
      _ = ((g.inc b).inc a).time.total := by rw [total_inc, total_inc]
  vsub_vadd' h g := by
    apply eq_of_total
    calc
      (g.inc (h.sub g)).time.total = g.time.total + (h.time.total - g.time.total) := by
        rw [total_inc, sub_coe]
      _ = h.time.total := add_sub_cancel _ _
  vadd_vsub' a g := by
    apply Subtype.ext
    calc
      ((g.inc a).sub g : ℚ) = g.time.total + a - g.time.total := by rw [sub_coe, total_inc]
      _ = a := add_sub_cancel_left _ _

theorem vadd_time (a : Milliseconds) (g : NormalTime) : (a +ᵥ g).time = incGpsTime g.time a := rfl

/-- The same step any number of times. -/
theorem iterate_time (a : Milliseconds) (g : NormalTime) (n : Nat) :
    (fun t => incGpsTime t a)^[n] g.time = incGpsTime g.time (n * a) := by
  have steps : ∀ n, (fun t => incGpsTime t a)^[n] g.time = ((a +ᵥ ·)^[n] g).time := by
    intro n
    induction n with
    | zero => rfl
    | succ n ih =>
        rw [Function.iterate_succ_apply', Function.iterate_succ_apply', ih, vadd_time]
  rw [steps, vadd_iterate_apply, vadd_time, AddSubgroup.coe_nsmul, nsmul_eq_mul]

end NormalTime

/-! ## The functions of the source -/

/-- **Steps of time add up exactly.**  From a normalised time, steps of whole milliseconds, of
either sign and any size, lead to normalised times and form a group action; `subGpsTime` gives the
step back, and a step of a tenth of a second can be repeated any number of times. -/
theorem incGpsTime_steps {g : GpsTime ℚ} {a b : ℚ} (normal : g.Normal)
    (stepA : ∃ ms : Int, a = ms / 1000) (stepB : ∃ ms : Int, b = ms / 1000) :
    (incGpsTime g a).Normal ∧ subGpsTime (incGpsTime g a) g = a ∧
      incGpsTime (incGpsTime g a) b = incGpsTime g (a + b) ∧
      (∀ h : GpsTime ℚ, h.Normal → incGpsTime g (subGpsTime h g) = h) ∧
      ∀ n : Nat, (fun t => incGpsTime t 0.1)^[n] g = incGpsTime g (n * 0.1) := by
  let start : NormalTime := ⟨g, normal⟩
  let first : Milliseconds := ⟨a, mem_milliseconds.mpr stepA⟩
  let second : Milliseconds := ⟨b, mem_milliseconds.mpr stepB⟩
  let tenth : Milliseconds := ⟨0.1, mem_milliseconds.mpr ⟨100, by norm_num⟩⟩
  refine ⟨incGpsTime_normal g a, ?_, ?_, fun h normal' => ?_, start.iterate_time tenth⟩
  · exact congrArg Subtype.val (vadd_vsub first start)
  · have added := congrArg NormalTime.time (vadd_vadd second first start)
    rw [add_comm a b]
    exact added
  · exact congrArg NormalTime.time (vsub_vadd (⟨h, normal'⟩ : NormalTime) start)

/-- A step over the end of a week, and one back. -/
theorem incGpsTime_steps_weekEnd :
    (incGpsTime { week := 2000, sec := 604799.9 } 0.1).Normal ∧
      subGpsTime (incGpsTime { week := 2000, sec := 604799.9 } 0.1)
        { week := 2000, sec := 604799.9 } = 0.1 ∧
      incGpsTime (incGpsTime { week := 2000, sec := 604799.9 } 0.1) (-0.2) =
        incGpsTime { week := 2000, sec := 604799.9 } (0.1 + -0.2) ∧
      (∀ h : GpsTime ℚ, h.Normal → incGpsTime { week := 2000, sec := 604799.9 }
        (subGpsTime h { week := 2000, sec := 604799.9 }) = h) ∧
      ∀ n : Nat, (fun t => incGpsTime t 0.1)^[n] { week := 2000, sec := 604799.9 } =
        incGpsTime { week := 2000, sec := 604799.9 } (n * 0.1) :=
  incGpsTime_steps ⟨⟨by norm_num, by norm_num⟩, 604799900, by norm_num⟩ ⟨100, by norm_num⟩
    ⟨-200, by norm_num⟩

end Navisim
