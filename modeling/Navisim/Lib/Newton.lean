import Mathlib
import Navisim.Lib.Settle

/-!
# Newton's method

The values that Newton's method goes through, for a function of a real variable whose slope is
Lipschitz and does not come near zero.  A step squares the distance from the root
(`abs_step_sub_le`); from a start that is near enough the values tend to it (`tendsto_values`).
-/

namespace Navisim.Newton

open Filter Topology

section Steps

variable {f slope : ℝ → ℝ} {lipschitz m root radius c x y : ℝ}

/-- What a step takes `x` to. -/
noncomputable def step (f slope : ℝ → ℝ) (x : ℝ) : ℝ :=
  x - f x / slope x

/-- The values from `x` on. -/
noncomputable def values (f slope : ℝ → ℝ) (x : ℝ) (k : Nat) : ℝ :=
  (step f slope)^[k] x

theorem values_succ (f slope : ℝ → ℝ) (x : ℝ) (k : Nat) :
    values f slope x (k + 1) = step f slope (values f slope x k) :=
  Function.iterate_succ_apply' ..

/-- The function differs little from its tangent. -/
theorem abs_sub_tangent_le (derivative : ∀ x, HasDerivAt f (slope x) x)
    (change : ∀ x y, |slope y - slope x| ≤ lipschitz * |y - x|) (nonneg : 0 ≤ lipschitz)
    (x y : ℝ) : |f y - f x - slope x * (y - x)| ≤ lipschitz * |y - x| ^ 2 := by
  -- The mean value theorem, for the difference of the function and its tangent.
  have flat : ∀ t ∈ Set.uIcc x y,
      HasDerivWithinAt (fun t => f t - slope x * t) (slope t - slope x) (Set.uIcc x y) t := by
    intro t _
    have linear := (hasDerivAt_id t).const_mul (slope x)
    rw [mul_one] at linear
    exact ((derivative t).sub linear).hasDerivWithinAt
  have small : ∀ t ∈ Set.uIcc x y, ‖slope t - slope x‖ ≤ lipschitz * |y - x| := by
    intro t between
    exact (change x t).trans
      (mul_le_mul_of_nonneg_left (Set.abs_sub_left_of_mem_uIcc between) nonneg)
  have mean := (convex_uIcc x y).norm_image_sub_le_of_norm_hasDerivWithin_le flat small
    Set.left_mem_uIcc Set.right_mem_uIcc
  rw [Real.norm_eq_abs, Real.norm_eq_abs] at mean
  calc
    |f y - f x - slope x * (y - x)| = |f y - slope x * y - (f x - slope x * x)| := by
      ring_nf
    _ ≤ lipschitz * |y - x| * |y - x| := mean
    _ = lipschitz * |y - x| ^ 2 := by ring

/-- **A step squares the distance** from the root, up to a factor. -/
theorem abs_step_sub_le (derivative : ∀ x, HasDerivAt f (slope x) x)
    (change : ∀ x y, |slope y - slope x| ≤ lipschitz * |y - x|) (nonneg : 0 ≤ lipschitz)
    (positive : 0 < m) (steep : m ≤ |slope x|) (zero : f root = 0) :
    |step f slope x - root| ≤ lipschitz / m * |x - root| ^ 2 := by
  have nonzero : slope x ≠ 0 := abs_pos.mp (positive.trans_le steep)
  have error : step f slope x - root = (f root - f x - slope x * (root - x)) / slope x := by
    rw [step, zero]
    field_simp
    ring
  have tangent := abs_sub_tangent_le derivative change nonneg x root
  rw [abs_sub_comm root] at tangent
  rw [error, abs_div, div_mul_eq_mul_div]
  gcongr

/-- Near the root, a step brings the value nearer by a factor. -/
theorem abs_step_sub_le_of_near (derivative : ∀ x, HasDerivAt f (slope x) x)
    (change : ∀ x y, |slope y - slope x| ≤ lipschitz * |y - x|) (nonneg : 0 ≤ lipschitz)
    (positive : 0 < m) (steep : m ≤ |slope x|) (zero : f root = 0) (near : |x - root| ≤ radius)
    (small : lipschitz * radius ≤ c * m) : |step f slope x - root| ≤ c * |x - root| := by
  calc
    |step f slope x - root| ≤ lipschitz / m * |x - root| ^ 2 :=
      abs_step_sub_le derivative change nonneg positive steep zero
    _ = lipschitz * |x - root| / m * |x - root| := by ring
    _ ≤ lipschitz * radius / m * |x - root| := by gcongr
    _ ≤ c * |x - root| := by
      gcongr
      exact (div_le_iff₀ positive).mpr small

/-- **Newton's method converges** from a start that is near enough. -/
theorem tendsto_values (derivative : ∀ x, HasDerivAt f (slope x) x)
    (change : ∀ x y, |slope y - slope x| ≤ lipschitz * |y - x|) (nonneg : 0 ≤ lipschitz)
    (positive : 0 < m) (steep : ∀ x, m ≤ |slope x|) (zero : f root = 0)
    (near : |x - root| ≤ radius) (small : lipschitz * radius ≤ c * m) (c_nonneg : 0 ≤ c)
    (c_lt_one : c < 1) : Tendsto (values f slope x) atTop (𝓝 root) := by
  apply Settle.tendsto_of_contracts c_nonneg c_lt_one near
  intro k inside
  rw [values_succ]
  exact abs_step_sub_le_of_near derivative change nonneg positive (steep _) zero inside small

end Steps

end Navisim.Newton
