import Mathlib

/-!
# Rotations in fixed point

The points of a circle, one turn of a fixed angle after the other, computed in integers that count
fractions of the radius.  Each turn adds a bounded error to the true point (`norm_sub_turns_le`), so
that a table of sines and cosines can be compared with the functions entry by entry
(`abs_sub_of_traces`).
-/

namespace Navisim.Rotation

variable {scale : ℕ} {w z : ℤ × ℤ} {u v : ℂ} {d e : ℝ}

/-- The point of the unit circle at an angle. -/
noncomputable def unit (angle : ℝ) : ℂ :=
  ⟨Real.cos angle, Real.sin angle⟩

/-- The point that integers stand for. -/
noncomputable def point (scale : ℕ) (z : ℤ × ℤ) : ℂ :=
  ⟨z.1 / scale, z.2 / scale⟩

/-- One turn, rounded down. -/
def turn (scale : ℕ) (w z : ℤ × ℤ) : ℤ × ℤ :=
  ((z.1 * w.1 - z.2 * w.2) / scale, (z.1 * w.2 + z.2 * w.1) / scale)

theorem norm_unit (angle : ℝ) : ‖unit angle‖ = 1 := by
  rw [Complex.norm_def, unit, Complex.normSq_mk, ← sq, ← sq, Real.cos_sq_add_sin_sq, Real.sqrt_one]

theorem unit_add (a b : ℝ) : unit (a + b) = unit a * unit b := by
  apply Complex.ext
  · simp [unit, Real.cos_add]
  · rw [unit, Real.sin_add]
    simp only [unit, Complex.mul_im]
    ring

theorem unit_turns (start angle : ℝ) (k : ℕ) :
    unit (start + k * angle) = unit start * unit angle ^ k := by
  induction k with
  | zero => simp
  | succ k ih =>
      rw [pow_succ, ← mul_assoc, ← ih, ← unit_add]
      congr 1
      push_cast
      ring

/-! ## The error of a turn -/

/-- Rounding down loses less than one. -/
theorem abs_ediv_sub_le (positive : 0 < scale) (a : ℤ) :
    |((a / scale : ℤ) : ℝ) / scale - a / (scale * scale)| ≤ 1 / scale := by
  have size : (0 : ℝ) < scale := by exact_mod_cast positive
  have size' : (0 : ℤ) < scale := by exact_mod_cast positive
  have lower : ((a / scale : ℤ) : ℝ) * scale ≤ a := by
    exact_mod_cast Int.ediv_mul_le a size'.ne'
  have upper : (a : ℝ) ≤ ((a / scale : ℤ) : ℝ) * scale + scale := by
    have below := (Int.lt_ediv_add_one_mul_self a size').le
    rw [add_mul, one_mul] at below
    exact_mod_cast below
  have common : ((a / scale : ℤ) : ℝ) / scale - a / (scale * scale) =
      (((a / scale : ℤ) : ℝ) * scale - a) / (scale * scale) := by
    field_simp
  have unitSize : 1 / (scale : ℝ) = scale / (scale * scale) := by
    field_simp
  rw [common, unitSize, abs_div, abs_of_pos (mul_pos size size)]
  gcongr
  rw [abs_le]
  constructor <;> linarith

theorem norm_turn_sub_le (positive : 0 < scale) (w z : ℤ × ℤ) :
    ‖point scale (turn scale w z) - point scale w * point scale z‖ ≤ 2 / scale := by
  have size : (0 : ℝ) < scale := by exact_mod_cast positive
  have re : (point scale (turn scale w z) - point scale w * point scale z).re =
      ((z.1 * w.1 - z.2 * w.2) / scale : ℤ) / scale -
        ((z.1 * w.1 - z.2 * w.2 : ℤ) : ℝ) / (scale * scale) := by
    simp only [point, turn, Complex.sub_re, Complex.mul_re]
    push_cast
    field_simp
  have im : (point scale (turn scale w z) - point scale w * point scale z).im =
      ((z.1 * w.2 + z.2 * w.1) / scale : ℤ) / scale -
        ((z.1 * w.2 + z.2 * w.1 : ℤ) : ℝ) / (scale * scale) := by
    simp only [point, turn, Complex.sub_im, Complex.mul_im]
    push_cast
    field_simp
    ring
  have parts := Complex.norm_le_abs_re_add_abs_im
    (point scale (turn scale w z) - point scale w * point scale z)
  rw [re, im] at parts
  have first := abs_ediv_sub_le positive (z.1 * w.1 - z.2 * w.2)
  have second := abs_ediv_sub_le positive (z.1 * w.2 + z.2 * w.1)
  have sum : (2 : ℝ) / scale = 1 / scale + 1 / scale := by ring
  rw [sum]
  linarith

/-- **One turn** adds the error of the angle twice, and that of the rounding. -/
theorem norm_sub_turn_le (positive : 0 < scale) (onCircle : ‖v‖ = 1) (onCircle' : ‖u‖ = 1)
    (start : ‖point scale z - u‖ ≤ e) (angle : ‖point scale w - v‖ ≤ d) (near : e ≤ 1) :
    ‖point scale (turn scale w z) - u * v‖ ≤ e + (2 * d + 2 / scale) := by
  have rounded := norm_turn_sub_le positive w z
  have size : ‖point scale z‖ ≤ 2 := by
    have triangle := norm_add_le (point scale z - u) u
    rw [sub_add_cancel, onCircle'] at triangle
    linarith
  have split : point scale (turn scale w z) - u * v =
      (point scale (turn scale w z) - point scale w * point scale z) +
        ((point scale w - v) * point scale z + v * (point scale z - u)) := by
    ring
  have first : ‖(point scale w - v) * point scale z‖ ≤ d * 2 := by
    rw [norm_mul]
    exact mul_le_mul angle size (norm_nonneg _) ((norm_nonneg _).trans angle)
  have second : ‖v * (point scale z - u)‖ ≤ e := by
    rw [norm_mul, onCircle, one_mul]
    exact start
  rw [split]
  have outer := norm_add_le (point scale (turn scale w z) - point scale w * point scale z)
    ((point scale w - v) * point scale z + v * (point scale z - u))
  have inner := norm_add_le ((point scale w - v) * point scale z) (v * (point scale z - u))
  linarith

/-- **Any number of turns.** -/
theorem norm_sub_turns_le (positive : 0 < scale) (onCircle : ‖v‖ = 1) (onCircle' : ‖u‖ = 1)
    (start : ‖point scale z - u‖ ≤ e) (angle : ‖point scale w - v‖ ≤ d) {n : ℕ}
    (near : e + n * (2 * d + 2 / scale) ≤ 1) {k : ℕ} (within : k ≤ n) :
    ‖point scale ((turn scale w)^[k] z) - u * v ^ k‖ ≤ e + k * (2 * d + 2 / scale) := by
  have step : 0 ≤ 2 * d + 2 / scale := by
    have first := (norm_nonneg _).trans angle
    positivity
  induction k with
  | zero => simpa using start
  | succ k ih =>
      have before := ih (by omega)
      have small : e + k * (2 * d + 2 / scale) ≤ 1 := by
        have fewer : (k : ℝ) ≤ n := by exact_mod_cast (Nat.le_succ k).trans within
        have product := mul_le_mul_of_nonneg_right fewer step
        linarith
      have circle : ‖u * v ^ k‖ = 1 := by
        rw [norm_mul, norm_pow, onCircle, onCircle', one_pow, one_mul]
      have next := norm_sub_turn_le positive onCircle circle before angle small
      rw [Function.iterate_succ_apply', pow_succ, ← mul_assoc]
      push_cast
      linarith

/-! ## Tables -/

/-- The entries of a table are turns of a point, in units of which the radius has `radius`, up to
`tolerance` in units of which it has `radius * scale`. -/
def traces (scale : ℕ) (radius tolerance : ℤ) (w : ℤ × ℤ) : List (ℤ × ℤ) → ℤ × ℤ → Bool
  | [], _ => true
  | entry :: rest, z =>
      decide (|entry.1 * scale - radius * z.1| ≤ tolerance) &&
        decide (|entry.2 * scale - radius * z.2| ≤ tolerance) &&
        traces scale radius tolerance w rest (turn scale w z)

theorem entry_of_traces {radius tolerance : ℤ} {table : List (ℤ × ℤ)}
    (traced : traces scale radius tolerance w table z) {k : ℕ} {entry : ℤ × ℤ}
    (place : table[k]? = some entry) :
    |entry.1 * scale - radius * ((turn scale w)^[k] z).1| ≤ tolerance ∧
      |entry.2 * scale - radius * ((turn scale w)^[k] z).2| ≤ tolerance := by
  induction table generalizing z k with
  | nil => simp at place
  | cons first rest ih =>
      rw [traces, Bool.and_eq_true, Bool.and_eq_true, decide_eq_true_iff, decide_eq_true_iff]
        at traced
      obtain ⟨here, behind⟩ := traced
      cases k with
      | zero =>
          obtain rfl : first = entry := by simpa using place
          exact here
      | succ k =>
          rw [Function.iterate_succ_apply]
          exact ih behind (by simpa using place)

/-- **The entries of a table** lie near the circle of the radius, at the angles of the turns. -/
theorem abs_sub_of_traces (positive : 0 < scale) {radius tolerance : ℤ}
    (nonneg : 0 ≤ radius) {table : List (ℤ × ℤ)}
    (traced : traces scale radius tolerance w table z) {start angle : ℝ}
    (near : ‖point scale z - unit start‖ ≤ e) (near' : ‖point scale w - unit angle‖ ≤ d)
    (total : e + table.length * (2 * d + 2 / scale) ≤ 1) {k : ℕ} {entry : ℤ × ℤ}
    (place : table[k]? = some entry) :
    |(entry.1 : ℝ) - radius * Real.cos (start + k * angle)| ≤
        tolerance / scale + radius * (e + k * (2 * d + 2 / scale)) ∧
      |(entry.2 : ℝ) - radius * Real.sin (start + k * angle)| ≤
        tolerance / scale + radius * (e + k * (2 * d + 2 / scale)) := by
  have size : (0 : ℝ) < scale := by exact_mod_cast positive
  have length : (0 : ℝ) ≤ radius := by exact_mod_cast nonneg
  have inside : k ≤ table.length := (List.getElem?_eq_some_iff.mp place).1.le
  have error := norm_sub_turns_le positive (norm_unit angle) (norm_unit start) near near' total
    inside
  rw [← unit_turns] at error
  obtain ⟨first, second⟩ := entry_of_traces traced place
  -- one coordinate of an entry, of the point and of the circle
  have combine : ∀ {a b : ℤ} {x : ℝ}, |a * scale - radius * b| ≤ tolerance →
      |(b : ℝ) / scale - x| ≤ e + k * (2 * d + 2 / scale) →
      |(a : ℝ) - radius * x| ≤ tolerance / scale + radius * (e + k * (2 * d + 2 / scale)) := by
    intro a b x close close'
    have close'' : |(a : ℝ) * scale - radius * b| ≤ tolerance := by exact_mod_cast close
    have split : (a : ℝ) - radius * x =
        (a * scale - radius * b) / scale + radius * (b / scale - x) := by
      field_simp
      ring
    calc |(a : ℝ) - radius * x|
        ≤ |((a : ℝ) * scale - radius * b) / scale| + |radius * ((b : ℝ) / scale - x)| := by
          rw [split]
          exact abs_add_le _ _
      _ ≤ tolerance / scale + radius * (e + k * (2 * d + 2 / scale)) := by
          rw [abs_div, abs_of_pos size, abs_mul, abs_of_nonneg length]
          gcongr
  exact ⟨combine first ((Complex.abs_re_le_norm _).trans error),
    combine second ((Complex.abs_im_le_norm _).trans error)⟩

end Navisim.Rotation
