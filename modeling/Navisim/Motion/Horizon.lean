import Navisim.Gps.Ephemeris
import Navisim.Lib.Space
import Navisim.Motion.Geodetic

/-!
# The local horizon

`subVect`, `dotProd`, `ltcmat`, `ecef2neu` and `neu2azel`, in real numbers.  The matrix turns a
vector into its north, east and up parts and keeps scalar products; the azimuth and the elevation
give the direction back (`length_sub_fromAzel_le`).
-/

namespace Navisim.Motion

open RealMath Space

noncomputable def subVect (x1 x2 : ℝ × ℝ × ℝ) : ℝ × ℝ × ℝ :=
  (x1.1 - x2.1, x1.2.1 - x2.2.1, x1.2.2 - x2.2.2)

noncomputable def dotProd (x1 x2 : ℝ × ℝ × ℝ) : ℝ :=
  x1.1 * x2.1 + x1.2.1 * x2.2.1 + x1.2.2 * x2.2.2

/-- The rows of the matrix. -/
noncomputable def ltcmat (llh : ℝ × ℝ × ℝ) : Fin 3 → ℝ × ℝ × ℝ :=
  let slat := Real.sin llh.1
  let clat := Real.cos llh.1
  let slon := Real.sin llh.2.1
  let clon := Real.cos llh.2.1
  ![(-slat * clon, -slat * slon, clat),
    (-slon, clon, 0.0),
    (clat * clon, clat * slon, slat)]

noncomputable def ecef2neu (xyz : ℝ × ℝ × ℝ) (t : Fin 3 → ℝ × ℝ × ℝ) : ℝ × ℝ × ℝ :=
  ((t 0).1 * xyz.1 + (t 0).2.1 * xyz.2.1 + (t 0).2.2 * xyz.2.2,
    (t 1).1 * xyz.1 + (t 1).2.1 * xyz.2.1 + (t 1).2.2 * xyz.2.2,
    (t 2).1 * xyz.1 + (t 2).2.1 * xyz.2.1 + (t 2).2.2 * xyz.2.2)

noncomputable def neu2azel (neu : ℝ × ℝ × ℝ) : ℝ × ℝ :=
  open Classical in
  let az := atan2 neu.2.1 neu.1
  let az := if az < 0.0 then az + 2.0 * pi else az
  let ne := √(neu.1 * neu.1 + neu.2.1 * neu.2.1)
  (az, atan2 neu.2.2 ne)

theorem subVect_eq (x1 x2 : ℝ × ℝ × ℝ) : subVect x1 x2 = x1 - x2 := rfl

theorem normVect_eq (x : ℝ × ℝ × ℝ) : normVect x = length x := rfl

/-! ## The matrix -/

/-- The way back from north, east and up. -/
noncomputable def neu2ecef (neu : ℝ × ℝ × ℝ) (t : Fin 3 → ℝ × ℝ × ℝ) : ℝ × ℝ × ℝ :=
  neu.1 • t 0 + neu.2.1 • t 1 + neu.2.2 • t 2

section Matrix

variable (llh v w : ℝ × ℝ × ℝ)

/-- The parts of a vector put it together again. -/
theorem neu2ecef_ecef2neu : neu2ecef (ecef2neu v (ltcmat llh)) (ltcmat llh) = v := by
  have lat := Real.sin_sq_add_cos_sq llh.1
  have lon := Real.sin_sq_add_cos_sq llh.2.1
  rcases v with ⟨x, y, z⟩
  simp only [neu2ecef, ecef2neu, ltcmat, Matrix.cons_val_zero, Matrix.cons_val_one,
    Matrix.cons_val, Prod.smul_mk, Prod.mk_add_mk, smul_eq_mul, Prod.mk.injEq,
    show (0.0 : ℝ) = 0 by norm_num]
  generalize Real.sin llh.1 = slat at lat ⊢
  generalize Real.cos llh.1 = clat at lat ⊢
  generalize Real.sin llh.2.1 = slon at lon ⊢
  generalize Real.cos llh.2.1 = clon at lon ⊢
  refine ⟨?_, ?_, ?_⟩
  · linear_combination (clon ^ 2 * x + clon * slon * y) * lat + x * lon
  · linear_combination (clon * slon * x + slon ^ 2 * y) * lat + y * lon
  · linear_combination z * lat

/-- The way back is the transposed matrix. -/
theorem dot_neu2ecef (neu : ℝ × ℝ × ℝ) (t : Fin 3 → ℝ × ℝ × ℝ) :
    dot (neu2ecef neu t) w = dot neu (ecef2neu w t) := by
  simp only [dot, neu2ecef, ecef2neu, Prod.fst_add, Prod.snd_add, Prod.smul_fst, Prod.smul_snd,
    smul_eq_mul]
  ring

/-- The matrix keeps scalar products. -/
theorem dot_ecef2neu :
    dot (ecef2neu v (ltcmat llh)) (ecef2neu w (ltcmat llh)) = dot v w := by
  rw [← dot_neu2ecef, neu2ecef_ecef2neu]

theorem length_ecef2neu : length (ecef2neu v (ltcmat llh)) = length v := by
  rw [length, dot_ecef2neu, length]

theorem ecef2neu_neu2ecef (neu : ℝ × ℝ × ℝ) :
    ecef2neu (neu2ecef neu (ltcmat llh)) (ltcmat llh) = neu := by
  have lat := Real.sin_sq_add_cos_sq llh.1
  have lon := Real.sin_sq_add_cos_sq llh.2.1
  rcases neu with ⟨n, e, u⟩
  simp only [neu2ecef, ecef2neu, ltcmat, Matrix.cons_val_zero, Matrix.cons_val_one,
    Matrix.cons_val, Prod.smul_mk, Prod.mk_add_mk, smul_eq_mul, Prod.mk.injEq,
    show (0.0 : ℝ) = 0 by norm_num]
  generalize Real.sin llh.1 = slat at lat ⊢
  generalize Real.cos llh.1 = clat at lat ⊢
  generalize Real.sin llh.2.1 = slon at lon ⊢
  generalize Real.cos llh.2.1 = clon at lon ⊢
  refine ⟨?_, ?_, ?_⟩
  · linear_combination (n * slat ^ 2 - u * slat * clat) * lon + n * lat
  · linear_combination e * lon
  · linear_combination (u * clat ^ 2 - n * slat * clat) * lon + u * lat

theorem length_neu2ecef (neu : ℝ × ℝ × ℝ) : length (neu2ecef neu (ltcmat llh)) = length neu := by
  rw [← length_ecef2neu llh, ecef2neu_neu2ecef]

/-- The upward unit vector. -/
theorem length_up : length (ltcmat llh 2) = 1 := by
  have up : neu2ecef (0, 0, 1) (ltcmat llh) = ltcmat llh 2 := by
    rw [neu2ecef, zero_smul, zero_smul, one_smul, zero_add, zero_add]
  rw [← up, length_neu2ecef]
  norm_num [length, dot]

theorem neu2ecef_sub (neu neu' : ℝ × ℝ × ℝ) (t : Fin 3 → ℝ × ℝ × ℝ) :
    neu2ecef (neu - neu') t = neu2ecef neu t - neu2ecef neu' t := by
  simp only [neu2ecef, Prod.fst_sub, Prod.snd_sub, sub_smul]
  abel

end Matrix

/-! ## The angles -/

theorem pi_range : Real.pi < pi ∧ pi - Real.pi < (7e-15 : ℝ) := by
  have lower := Real.pi_gt_d20
  have upper := Real.pi_lt_d20
  have value : (pi : ℝ) = 3.1415926535898 := rfl
  rw [value]
  norm_num at lower upper ⊢
  constructor <;> linarith

section Angles

variable (neu : ℝ × ℝ × ℝ)

theorem neu2azel_elevation : (neu2azel neu).2 = elevation neu := rfl

/-- The azimuth is that of the plane, or this turned by `2.0*PI`. -/
theorem neu2azel_azimuth :
    (neu2azel neu).1 = if azimuth neu < 0 then azimuth neu + 2 * pi else azimuth neu := by
  have value : (neu2azel neu).1 =
      if azimuth neu < 0.0 then azimuth neu + 2.0 * pi else azimuth neu := rfl
  rw [value]
  norm_num

theorem neu2azel_range :
    0 ≤ (neu2azel neu).1 ∧ (neu2azel neu).1 < 2 * pi ∧ |(neu2azel neu).2| ≤ Real.pi / 2 := by
  have lower := Complex.neg_pi_lt_arg ⟨neu.1, neu.2.1⟩
  have upper := Complex.arg_le_pi ⟨neu.1, neu.2.1⟩
  have positive := Real.pi_pos
  obtain ⟨larger, -⟩ := pi_range
  rw [← azimuth] at lower upper
  rw [neu2azel_azimuth, neu2azel_elevation]
  refine ⟨?_, ?_, abs_elevation_le neu⟩
  · split <;> linarith
  · split <;> linarith

/-- The direction of the angles is that of the vector, up to the rounding of `PI`. -/
theorem length_direction_neu2azel_le :
    length (direction (neu2azel neu).1 (neu2azel neu).2 -
      direction (azimuth neu) (elevation neu)) ≤ 3e-14 := by
  obtain ⟨larger, near⟩ := pi_range
  rw [neu2azel_azimuth, neu2azel_elevation]
  split
  · have turned : direction (azimuth neu) (elevation neu) =
        direction (azimuth neu + 2 * Real.pi) (elevation neu) := by
      rw [direction, direction, Real.cos_add_two_pi, Real.sin_add_two_pi]
    have angle : |azimuth neu + 2 * pi - (azimuth neu + 2 * Real.pi)| = 2 * (pi - Real.pi) := by
      rw [add_sub_add_left_eq_sub, ← mul_sub, abs_of_pos (by linarith)]
    have bound := length_direction_sub_le (azimuth neu + 2 * pi) (azimuth neu + 2 * Real.pi)
      (elevation neu)
    rw [angle, ← turned] at bound
    norm_num at near ⊢
    linarith
  · rw [sub_self]
    simp [length, dot]
    norm_num

end Angles

/-- A line of sight from its length and its angles. -/
noncomputable def fromAzel (llh : ℝ × ℝ × ℝ) (d : ℝ) (azel : ℝ × ℝ) : ℝ × ℝ × ℝ :=
  neu2ecef (d • direction azel.1 azel.2) (ltcmat llh)

/-- **Length, azimuth and elevation give a line of sight back**, up to the rounding of `PI`. -/
theorem length_sub_fromAzel_le (llh los : ℝ × ℝ × ℝ) :
    length (los - fromAzel llh (length los) (neu2azel (ecef2neu los (ltcmat llh)))) ≤
      3e-14 * length los := by
  set neu := ecef2neu los (ltcmat llh) with neu_eq
  have same : length neu = length los := length_ecef2neu llh los
  have back :
      los = neu2ecef (length los • direction (azimuth neu) (elevation neu)) (ltcmat llh) := by
    rw [← same, length_smul_direction, neu_eq, neu2ecef_ecef2neu]
  have difference : los - fromAzel llh (length los) (neu2azel neu) =
      neu2ecef (length los • (direction (azimuth neu) (elevation neu) -
        direction (neu2azel neu).1 (neu2azel neu).2)) (ltcmat llh) := by
    rw [smul_sub, neu2ecef_sub, ← back, fromAzel]
  have near := length_direction_neu2azel_le neu
  rw [← length_neg, neg_sub] at near
  calc
    length (los - fromAzel llh (length los) (neu2azel neu))
      = length los * length (direction (azimuth neu) (elevation neu) -
          direction (neu2azel neu).1 (neu2azel neu).2) := by
        rw [difference, length_neu2ecef, length_smul, abs_of_nonneg (length_nonneg los)]
    _ ≤ length los * 3e-14 := mul_le_mul_of_nonneg_left near (length_nonneg los)
    _ = 3e-14 * length los := mul_comm _ _

end Navisim.Motion
