import Mathlib
import Navisim.Lib.Space

/-!
# Angles that turn

An angle that is computed by `atan2` jumps by a full turn where the point crosses the branch, but
its sine and its cosine do not.  An angle has a rate when they change as those of an angle do that
grows at this rate.
-/

namespace Navisim.Angle

/-- The sine and the cosine of the angle change as if it grew at this rate. -/
structure HasRate (angle : ℝ → ℝ) (rate t : ℝ) : Prop where
  cos : HasDerivAt (fun s => Real.cos (angle s)) (-Real.sin (angle t) * rate) t
  sin : HasDerivAt (fun s => Real.sin (angle s)) (Real.cos (angle t) * rate) t

variable {angle f x y : ℝ → ℝ} {rate f' x' y' t : ℝ}

/-- An angle that does not jump. -/
theorem HasRate.of_hasDerivAt (derivative : HasDerivAt f f' t) : HasRate f f' t :=
  ⟨derivative.cos, derivative.sin⟩

theorem HasRate.congr_rate (turns : HasRate angle rate t) (same : rate = f') :
    HasRate angle f' t :=
  same ▸ turns

/-- The sum with a quantity that does not jump. -/
theorem HasRate.add (turns : HasRate angle rate t) (derivative : HasDerivAt f f' t) :
    HasRate (fun s => angle s + f s) (rate + f') t := by
  constructor
  · have product := (turns.cos.mul derivative.cos).sub (turns.sin.mul derivative.sin)
    refine (product.congr_deriv ?_).congr_of_eventuallyEq (.of_forall fun s => Real.cos_add ..)
    rw [Real.sin_add]
    ring
  · have product := (turns.sin.mul derivative.cos).add (turns.cos.mul derivative.sin)
    refine (product.congr_deriv ?_).congr_of_eventuallyEq (.of_forall fun s => Real.sin_add ..)
    rw [Real.cos_add]
    ring

theorem HasRate.add_const (turns : HasRate angle rate t) (c : ℝ) :
    HasRate (fun s => angle s + c) rate t :=
  (turns.add (hasDerivAt_const t c)).congr_rate (add_zero rate)

/-- The double of the angle. -/
theorem HasRate.two_mul (turns : HasRate angle rate t) :
    HasRate (fun s => 2 * angle s) (2 * rate) t := by
  constructor
  · have square := ((turns.cos.mul turns.cos).const_mul 2).sub_const 1
    refine (square.congr_deriv ?_).congr_of_eventuallyEq (.of_forall fun s => ?_)
    · rw [Real.sin_two_mul]
      ring
    · dsimp only [Pi.mul_apply]
      rw [Real.cos_two_mul, sq]
  · have product := (turns.sin.mul turns.cos).const_mul 2
    refine (product.congr_deriv ?_).congr_of_eventuallyEq (.of_forall fun s => ?_)
    · rw [Real.cos_two_mul']
      ring
    · dsimp only [Pi.mul_apply]
      rw [Real.sin_two_mul, mul_assoc]

/-- Where the rate is bounded, the sine and the cosine change little over a short way. -/
theorem abs_sub_le_of_rate {rates : ℝ → ℝ} {bound : ℝ} (turns : ∀ t, HasRate angle (rates t) t)
    (slow : ∀ t, |rates t| ≤ bound) (s t : ℝ) :
    |Real.cos (angle s) - Real.cos (angle t)| ≤ bound * |s - t| ∧
      |Real.sin (angle s) - Real.sin (angle t)| ≤ bound * |s - t| := by
  have weighted : ∀ c r, |c| ≤ 1 → |r| ≤ bound → ‖c * r‖ ≤ bound := by
    intro c r unit small
    rw [Real.norm_eq_abs, abs_mul]
    calc
      |c| * |r| ≤ 1 * |r| := mul_le_mul_of_nonneg_right unit (abs_nonneg r)
      _ ≤ bound := by rwa [one_mul]
  have cosine := convex_univ.norm_image_sub_le_of_norm_hasDerivWithin_le
    (fun z _ => (turns z).cos.hasDerivWithinAt)
    (fun z _ => weighted _ _ ((abs_neg _).trans_le (Real.abs_sin_le_one _)) (slow z))
    (Set.mem_univ t) (Set.mem_univ s)
  have sine := convex_univ.norm_image_sub_le_of_norm_hasDerivWithin_le
    (fun z _ => (turns z).sin.hasDerivWithinAt)
    (fun z _ => weighted _ _ (Real.abs_cos_le_one _) (slow z))
    (Set.mem_univ t) (Set.mem_univ s)
  exact ⟨cosine, sine⟩

/-! ## The angle of a moving point -/

/-- How the coordinate of a point changes in proportion to its distance `d`. -/
theorem proportion_rate (a b a' b' : ℝ) {d : ℝ} (nonzero : d ≠ 0) (square : d ^ 2 = a * a + b * b) :
    (a' * d - a * ((a * a' + b * b') / d)) / d ^ 2 =
      -(b / d) * ((a * b' - b * a') / (a * a + b * b)) := by
  rw [← square]
  field_simp
  linear_combination a' * square

section Point

variable (dx : HasDerivAt x x' t) (dy : HasDerivAt y y' t)
include dx dy

/-- The distance of a moving point that is not in the origin. -/
theorem hasDerivAt_distance (apart : 0 < x t * x t + y t * y t) :
    HasDerivAt (fun s => √(x s * x s + y s * y s))
      ((x t * x' + y t * y') / √(x t * x t + y t * y t)) t := by
  have square := (dx.mul dx).add (dy.mul dy)
  refine (square.sqrt apart.ne').congr_deriv ?_
  have positive : 0 < √(x t * x t + y t * y t) := Real.sqrt_pos.mpr apart
  dsimp only [Pi.add_apply, Pi.mul_apply]
  field_simp
  ring

/-- **The angle of a moving point** turns at the rate at which the point moves across the line of
sight. -/
theorem hasRate_arg (apart : 0 < x t * x t + y t * y t) :
    HasRate (fun s => Complex.arg ⟨x s, y s⟩)
      ((x t * y' - y t * x') / (x t * x t + y t * y t)) t := by
  have distance := hasDerivAt_distance dx dy apart
  have positive : 0 < √(x t * x t + y t * y t) := Real.sqrt_pos.mpr apart
  have square : √(x t * x t + y t * y t) ^ 2 = x t * x t + y t * y t := Real.sq_sqrt apart.le
  have near : ∀ᶠ s in nhds t, 0 < x s * x s + y s * y s :=
    ((dx.continuousAt.mul dx.continuousAt).add
      (dy.continuousAt.mul dy.continuousAt)).eventually_const_lt apart
  have sine : ∀ s, Real.sin (Complex.arg ⟨x s, y s⟩) = y s / √(x s * x s + y s * y s) := by
    intro s
    rw [Complex.sin_arg, Space.norm_mk]
  have cosine : ∀ s, 0 < x s * x s + y s * y s →
      Real.cos (Complex.arg ⟨x s, y s⟩) = x s / √(x s * x s + y s * y s) := by
    intro s here
    have nonzero : (⟨x s, y s⟩ : ℂ) ≠ 0 := by
      rw [← norm_pos_iff, Space.norm_mk]
      exact Real.sqrt_pos.mpr here
    rw [Complex.cos_arg nonzero, Space.norm_mk]
  constructor
  · refine ((dx.div distance positive.ne').congr_deriv ?_).congr_of_eventuallyEq
      (near.mono fun s here => cosine s here)
    rw [sine]
    exact proportion_rate (x t) (y t) x' y' positive.ne' square
  · refine ((dy.div distance positive.ne').congr_deriv ?_).congr_of_eventuallyEq
      (.of_forall sine)
    have swapped := proportion_rate (y t) (x t) y' x' positive.ne'
      (square.trans (add_comm _ _))
    rw [add_comm (y t * y'), add_comm (y t * y t)] at swapped
    rw [cosine t apart, swapped]
    ring

end Point

end Navisim.Angle
