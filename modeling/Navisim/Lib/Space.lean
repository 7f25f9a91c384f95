import Mathlib

/-!
# Vectors of space

Triples of real numbers with their scalar product and length, and the two angles that give the
direction of a vector: one in the plane of the first two axes and one above this plane.
-/

namespace Navisim.Space

/-- The scalar product. -/
def dot (v w : ℝ × ℝ × ℝ) : ℝ :=
  v.1 * w.1 + v.2.1 * w.2.1 + v.2.2 * w.2.2

noncomputable def length (v : ℝ × ℝ × ℝ) : ℝ :=
  √(dot v v)

variable {v w : ℝ × ℝ × ℝ}

theorem dot_self_nonneg (v : ℝ × ℝ × ℝ) : 0 ≤ dot v v :=
  add_nonneg (add_nonneg (mul_self_nonneg _) (mul_self_nonneg _)) (mul_self_nonneg _)

theorem length_nonneg (v : ℝ × ℝ × ℝ) : 0 ≤ length v :=
  Real.sqrt_nonneg _

theorem length_mul_self (v : ℝ × ℝ × ℝ) : length v * length v = dot v v :=
  Real.mul_self_sqrt (dot_self_nonneg v)

theorem length_le {b : ℝ} (nonneg : 0 ≤ b) (bound : dot v v ≤ b * b) : length v ≤ b := by
  rw [length, Real.sqrt_le_left nonneg, sq]
  exact bound

/-- The scalar product is at most the product of the lengths. -/
theorem abs_dot_le (v w : ℝ × ℝ × ℝ) : |dot v w| ≤ length v * length w := by
  apply abs_le_of_sq_le_sq _ (mul_nonneg (length_nonneg v) (length_nonneg w))
  have lengths : (length v * length w) ^ 2 = dot v v * dot w w := by
    rw [← length_mul_self v, ← length_mul_self w]
    ring
  rw [lengths]
  simp only [dot]
  -- Lagrange's identity: the difference is a sum of three squares.
  linarith [sq_nonneg (v.1 * w.2.1 - v.2.1 * w.1), sq_nonneg (v.1 * w.2.2 - v.2.2 * w.1),
    sq_nonneg (v.2.1 * w.2.2 - v.2.2 * w.2.1)]

theorem length_add_le (v w : ℝ × ℝ × ℝ) : length (v + w) ≤ length v + length w := by
  apply length_le (add_nonneg (length_nonneg v) (length_nonneg w))
  have product := (le_abs_self _).trans (abs_dot_le v w)
  have sum : dot (v + w) (v + w) = dot v v + 2 * dot v w + dot w w := by
    simp only [dot, Prod.fst_add, Prod.snd_add]
    ring
  rw [sum, ← length_mul_self v, ← length_mul_self w]
  linarith

theorem length_neg (v : ℝ × ℝ × ℝ) : length (-v) = length v := by
  simp only [length, dot, Prod.fst_neg, Prod.snd_neg, neg_mul_neg]

theorem length_sub_comm (v w : ℝ × ℝ × ℝ) : length (v - w) = length (w - v) := by
  rw [← neg_sub, length_neg]

theorem length_sub_le (v w : ℝ × ℝ × ℝ) : length (v - w) ≤ length v + length w := by
  rw [sub_eq_add_neg, ← length_neg w]
  exact length_add_le v (-w)

theorem sub_length_le (v w : ℝ × ℝ × ℝ) : length v - length w ≤ length (v - w) := by
  have whole := length_add_le (v - w) w
  rw [sub_add_cancel] at whole
  linarith

theorem length_smul (c : ℝ) (v : ℝ × ℝ × ℝ) : length (c • v) = |c| * length v := by
  have square : dot (c • v) (c • v) = c ^ 2 * dot v v := by
    simp only [dot, Prod.smul_fst, Prod.smul_snd, smul_eq_mul]
    ring
  rw [length, square, Real.sqrt_mul (sq_nonneg c), Real.sqrt_sq_eq_abs, length]

theorem length_le_sum (v : ℝ × ℝ × ℝ) : length v ≤ |v.1| + |v.2.1| + |v.2.2| := by
  apply length_le (by positivity)
  have first := abs_mul_abs_self v.1
  have second := abs_mul_abs_self v.2.1
  have third := abs_mul_abs_self v.2.2
  have mixed : 0 ≤ |v.1| * |v.2.1| + |v.1| * |v.2.2| + |v.2.1| * |v.2.2| := by positivity
  simp only [dot]
  linarith

/-- A quarter turn in the plane of the first two axes. -/
theorem length_turned_le (v : ℝ × ℝ × ℝ) : length (-v.2.1, v.1, 0) ≤ length v := by
  apply length_le (length_nonneg _)
  have height := mul_self_nonneg v.2.2
  rw [length_mul_self]
  simp only [dot]
  linarith

/-- The length and the largest coordinate are of the same size. -/
theorem norm_le_length (v : ℝ × ℝ × ℝ) : ‖v‖ ≤ length v := by
  have first := mul_self_nonneg v.1
  have second := mul_self_nonneg v.2.1
  have third := mul_self_nonneg v.2.2
  have square : dot v v = v.1 * v.1 + v.2.1 * v.2.1 + v.2.2 * v.2.2 := rfl
  refine max_le ?_ (max_le ?_ ?_) <;>
  · refine Real.abs_le_sqrt ?_
    rw [square, sq]
    linarith

theorem length_le_norm (v : ℝ × ℝ × ℝ) : length v ≤ 3 * ‖v‖ := by
  have first : |v.1| ≤ ‖v‖ := norm_fst_le v
  have second : |v.2.1| ≤ ‖v‖ := (norm_fst_le v.2).trans (norm_snd_le v)
  have third : |v.2.2| ≤ ‖v‖ := (norm_snd_le v.2).trans (norm_snd_le v)
  have sum := length_le_sum v
  linarith

/-! ## Directions -/

/-- The unit vector of two angles. -/
noncomputable def direction (azimuth elevation : ℝ) : ℝ × ℝ × ℝ :=
  (Real.cos elevation * Real.cos azimuth, Real.cos elevation * Real.sin azimuth,
    Real.sin elevation)

/-- The angle of a vector in the plane of the first two axes. -/
noncomputable def azimuth (v : ℝ × ℝ × ℝ) : ℝ :=
  Complex.arg ⟨v.1, v.2.1⟩

/-- The angle of a vector above this plane. -/
noncomputable def elevation (v : ℝ × ℝ × ℝ) : ℝ :=
  Complex.arg ⟨√(v.1 * v.1 + v.2.1 * v.2.1), v.2.2⟩

theorem abs_elevation_le (v : ℝ × ℝ × ℝ) : |elevation v| ≤ Real.pi / 2 :=
  Complex.abs_arg_le_pi_div_two_iff.mpr (Real.sqrt_nonneg _)

theorem norm_mk (a b : ℝ) : ‖(⟨a, b⟩ : ℂ)‖ = √(a * a + b * b) := by
  rw [Complex.norm_def, Complex.normSq_mk]

/-- A point of the plane is its distance times the direction of its angle. -/
theorem sqrt_mul_cos_arg (a b : ℝ) : √(a * a + b * b) * Real.cos (Complex.arg ⟨a, b⟩) = a := by
  rw [← norm_mk]
  exact Complex.norm_mul_cos_arg _

theorem sqrt_mul_sin_arg (a b : ℝ) : √(a * a + b * b) * Real.sin (Complex.arg ⟨a, b⟩) = b := by
  rw [← norm_mk]
  exact Complex.norm_mul_sin_arg _

/-- The length of a vector with a known part in the plane. -/
theorem norm_eq_length (v : ℝ × ℝ × ℝ) :
    ‖(⟨√(v.1 * v.1 + v.2.1 * v.2.1), v.2.2⟩ : ℂ)‖ = length v := by
  have plane : 0 ≤ v.1 * v.1 + v.2.1 * v.2.1 := add_nonneg (mul_self_nonneg _) (mul_self_nonneg _)
  rw [norm_mk, Real.mul_self_sqrt plane]
  rfl

/-- **A vector is its length times the direction of its angles.** -/
theorem length_smul_direction (v : ℝ × ℝ × ℝ) :
    length v • direction (azimuth v) (elevation v) = v := by
  have plane : length v * Real.cos (elevation v) = √(v.1 * v.1 + v.2.1 * v.2.1) := by
    rw [← norm_eq_length]
    exact Complex.norm_mul_cos_arg _
  have height : length v * Real.sin (elevation v) = v.2.2 := by
    rw [← norm_eq_length]
    exact Complex.norm_mul_sin_arg _
  have first : √(v.1 * v.1 + v.2.1 * v.2.1) * Real.cos (azimuth v) = v.1 :=
    sqrt_mul_cos_arg v.1 v.2.1
  have second : √(v.1 * v.1 + v.2.1 * v.2.1) * Real.sin (azimuth v) = v.2.1 :=
    sqrt_mul_sin_arg v.1 v.2.1
  ext
  · rw [direction, Prod.smul_fst, smul_eq_mul, ← mul_assoc, plane, first]
  · rw [direction, Prod.smul_snd, Prod.smul_fst, smul_eq_mul, ← mul_assoc, plane, second]
  · rw [direction, Prod.smul_snd, Prod.smul_snd, smul_eq_mul, height]

/-- Nearby azimuths give nearby directions. -/
theorem length_direction_sub_le (a b e : ℝ) :
    length (direction a e - direction b e) ≤ 2 * |a - b| := by
  have cosine := Real.abs_cos_sub_cos_le a b
  have sine := Real.abs_sin_sub_sin_le a b
  have factor := Real.abs_cos_le_one e
  have difference : direction a e - direction b e =
      Real.cos e • ((Real.cos a - Real.cos b, Real.sin a - Real.sin b, 0) : ℝ × ℝ × ℝ) := by
    simp only [direction, Prod.mk_sub_mk, Prod.smul_mk, smul_eq_mul, sub_self, mul_zero, mul_sub]
  calc
    length (direction a e - direction b e)
      = |Real.cos e| * length (Real.cos a - Real.cos b, Real.sin a - Real.sin b, 0) := by
        rw [difference, length_smul]
    _ ≤ 1 * length (Real.cos a - Real.cos b, Real.sin a - Real.sin b, 0) :=
        mul_le_mul_of_nonneg_right factor (length_nonneg _)
    _ ≤ |Real.cos a - Real.cos b| + |Real.sin a - Real.sin b| + |(0 : ℝ)| := by
        rw [one_mul]
        exact length_le_sum _
    _ ≤ 2 * |a - b| := by
        rw [abs_zero]
        linarith

end Navisim.Space
