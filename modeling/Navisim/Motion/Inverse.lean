import Navisim.Lib.Space
import Navisim.Motion.Geodetic

/-!
# There and back

In real numbers, `llh2xyz` undoes `xyz2llh`: the coordinates across the axis come back as they
were, and the one along the axis up to the tolerance of the loop (`llh2xyz_xyz2llh`).
-/

namespace Navisim.Motion

open RealMath Settle Space

section Turns

variable {rho2 z dz : ℝ}

/-- What a turn returns. -/
noncomputable def turnAt (rho2 z dz : ℝ) : Turn where
  zdz := z + dz
  nh := √(rho2 + (z + dz) * (z + dz))
  slat := sineOf rho2 (z + dz)
  n := wgs84Radius /
    √(1.0 - eccentricitySq * sineOf rho2 (z + dz) * sineOf rho2 (z + dz))
  dzNew := nextOffset rho2 z dz

theorem abs_sineOf_le_one (axis : 0 ≤ rho2) (t : ℝ) : |sineOf rho2 t| ≤ 1 := by
  rw [abs_le]
  refine ⟨?_, sineOf_le_one axis t⟩
  have mirrored := sineOf_le_one axis (-t)
  rw [sineOf_neg] at mirrored
  linarith

/-- The radicand of a turn. -/
theorem radicand_sineOf_pos (axis : 0 ≤ rho2) (t : ℝ) :
    0 < 1.0 - eccentricitySq * sineOf rho2 t * sineOf rho2 t := by
  have positive := radicand_pos (abs_nonneg (sineOf rho2 t)) (abs_sineOf_le_one axis t)
  rwa [mul_assoc, abs_mul_abs_self, ← mul_assoc] at positive

theorem turn_eq_turnAt (outside : 0 < rho2 + (z + dz) * (z + dz)) (axis : 0 ≤ rho2) :
    turn rho2 z dz = some (turnAt rho2 z dz) := by
  have nonzero : √(rho2 + (z + dz) * (z + dz)) ≠ 0 := (Real.sqrt_pos.mpr outside).ne'
  have radicand := radicand_sineOf_pos axis (z + dz)
  rw [turn, root_eq outside.le]
  dsimp only [Option.bind_eq_bind, Option.bind_some]
  rw [quotient_eq nonzero]
  dsimp only [Option.bind_some]
  rw [← sineOf, root_eq radicand.le]
  dsimp only [Option.bind_some]
  rw [quotient_eq (Real.sqrt_pos.mpr radicand).ne']
  rfl

end Turns

/-- The loop ends in some turn, and the function returns what this turn gives. -/
theorem exists_xyz2llh {xyz : ℝ × ℝ × ℝ} (far : eps ≤ normVect xyz) :
    let rho2 := xyz.1 * xyz.1 + xyz.2.1 * xyz.2.1
    ∃ turns dz, 0 < rho2 + (xyz.2.2 + dz) * (xyz.2.2 + dz) ∧
      |dz - nextOffset rho2 xyz.2.2 dz| < eps ∧
      ∀ more ≥ turns, xyz2llh more xyz = some
        (atan2 (turnAt rho2 xyz.2.2 dz).zdz √rho2, atan2 xyz.2.1 xyz.1,
          (turnAt rho2 xyz.2.2 dz).nh - (turnAt rho2 xyz.2.2 dz).n) := by
  intro rho2
  have positive := normSq_pos far
  have axis : 0 ≤ rho2 := add_nonneg (mul_self_nonneg _) (mul_self_nonneg _)
  have outside := offsets_outside axis positive
  have values : Values (turn rho2 xyz.2.2) Turn.dzNew (offsets rho2 xyz.2.2)
      fun k => turnAt rho2 xyz.2.2 (offsets rho2 xyz.2.2 k) :=
    ⟨fun k => turn_eq_turnAt (outside k) axis, fun k => (offsets_succ rho2 xyz.2.2 k).symm⟩
  have ordered : Monotone (offsets rho2 xyz.2.2) ∨ Antitone (offsets rho2 xyz.2.2) :=
    monotone_or_antitone_iterate (nextOffset_monotone axis xyz.2.2) _
  have bounded : ∀ k, 1 ≤ k → -offsetBound ≤ offsets rho2 xyz.2.2 k ∧
      offsets rho2 xyz.2.2 k ≤ offsetBound := by
    intro k behind
    obtain ⟨k, rfl⟩ := Nat.exists_eq_add_of_le' behind
    rw [offsets_succ]
    exact abs_le.mp (abs_offset_le axis _)
  have close : ∃ k, Near (offsets rho2 xyz.2.2 k) (offsets rho2 xyz.2.2 (k + 1)) :=
    exists_close_of_ordered ordered bounded eps_pos
  obtain ⟨k, near, settled⟩ := exists_settle values close
  rw [offsets_succ] at near
  refine ⟨k + 1, offsets rho2 xyz.2.2 k, outside k, near, fun more enough => ?_⟩
  rw [xyz2llh, if_neg (not_lt.mpr far)]
  dsimp only
  rw [show eccentricitySq * xyz.2.2 = offsets rho2 xyz.2.2 0 from rfl, settled more enough]
  dsimp only [Option.bind_eq_bind, Option.bind_some]
  rw [root_eq axis]
  rfl

theorem xyz2llh_returns (xyz : ℝ × ℝ × ℝ) :
    ∃ turns llh, ∀ more ≥ turns, xyz2llh more xyz = some llh := by
  by_cases far : eps ≤ normVect xyz
  · obtain ⟨turns, dz, -, -, returned⟩ := exists_xyz2llh far
    exact ⟨turns, _, returned⟩
  · exact ⟨0, _, fun more _ => if_pos (not_le.mp far)⟩

/-! ## The way back -/

section Back

variable {rho2 z dz x y : ℝ}

/-- The latitude of a turn. -/
theorem latitude_turnAt (axis : 0 ≤ rho2) (z dz : ℝ) :
    Real.sin (atan2 (turnAt rho2 z dz).zdz √rho2) = (turnAt rho2 z dz).slat ∧
      (turnAt rho2 z dz).nh * Real.cos (atan2 (turnAt rho2 z dz).zdz √rho2) = √rho2 := by
  have norm : ‖(⟨√rho2, z + dz⟩ : ℂ)‖ = (turnAt rho2 z dz).nh := by
    rw [norm_mk, Real.mul_self_sqrt axis]
    rfl
  constructor
  · rw [atan2, Complex.sin_arg]
    exact congrArg ((z + dz) / ·) norm
  · rw [← norm]
    exact Complex.norm_mul_cos_arg _

/-- The curvature at the latitude of a turn. -/
theorem curvature_turnAt (axis : 0 ≤ rho2) (z dz : ℝ) :
    curvature (atan2 (turnAt rho2 z dz).zdz √rho2) = (turnAt rho2 z dz).n := by
  rw [curvature, (latitude_turnAt axis z dz).1]
  have square : wgs84Eccentricity * (turnAt rho2 z dz).slat *
      (wgs84Eccentricity * (turnAt rho2 z dz).slat) =
        eccentricitySq * (turnAt rho2 z dz).slat * (turnAt rho2 z dz).slat := by
    rw [eccentricitySq]
    ring
  rw [square]
  rfl

/-- The position that belongs to a turn. -/
theorem llh2xyz_turnAt (x y : ℝ) (outside : 0 < x * x + y * y + (z + dz) * (z + dz)) :
    let rho2 := x * x + y * y
    llh2xyz (atan2 (turnAt rho2 z dz).zdz √rho2, atan2 y x,
      (turnAt rho2 z dz).nh - (turnAt rho2 z dz).n) = (x, y, z + (dz - nextOffset rho2 z dz)) := by
  intro rho2
  have axis : 0 ≤ rho2 := add_nonneg (mul_self_nonneg _) (mul_self_nonneg _)
  obtain ⟨sine, cosine⟩ := latitude_turnAt axis z dz
  have curved := curvature_turnAt axis z dz
  have first : √rho2 * Real.cos (atan2 y x) = x := sqrt_mul_cos_arg x y
  have second : √rho2 * Real.sin (atan2 y x) = y := sqrt_mul_sin_arg x y
  have height : (turnAt rho2 z dz).nh * (turnAt rho2 z dz).slat = z + dz :=
    mul_div_cancel₀ _ (Real.sqrt_pos.mpr outside).ne'
  have offset : (turnAt rho2 z dz).n * eccentricitySq * (turnAt rho2 z dz).slat =
      nextOffset rho2 z dz := rfl
  rw [llh2xyz_eq, curved, sine, add_sub_cancel, cosine, first, second, Prod.mk.injEq,
    Prod.mk.injEq]
  refine ⟨rfl, rfl, ?_⟩
  linear_combination height - offset

end Back

/-- The centre of the Earth. -/
theorem llh2xyz_centre : llh2xyz (0, 0, -wgs84Radius) = (0, 0, 0) := by
  rw [llh2xyz_eq, curvature, Real.sin_zero, Real.cos_zero]
  norm_num

/-- **There and back.**  For every vector `xyz2llh` returns, and `llh2xyz` makes of what it
returns the vector again: the coordinates across the axis exactly, if the vector is not taken for
the centre of the Earth, and all of it within the tolerance of one millimetre. -/
theorem llh2xyz_xyz2llh (xyz : ℝ × ℝ × ℝ) :
    ∃ turns llh, (∀ more ≥ turns, xyz2llh more xyz = some llh) ∧
      (eps ≤ normVect xyz →
        (llh2xyz llh).1 = xyz.1 ∧ (llh2xyz llh).2.1 = xyz.2.1) ∧
      length (llh2xyz llh - xyz) < eps := by
  by_cases far : eps ≤ normVect xyz
  · obtain ⟨turns, dz, outside, near, returned⟩ := exists_xyz2llh far
    refine ⟨turns, _, returned, fun _ => ?_, ?_⟩
    · rw [llh2xyz_turnAt xyz.1 xyz.2.1 outside]
      exact ⟨rfl, rfl⟩
    · rw [llh2xyz_turnAt xyz.1 xyz.2.1 outside]
      refine lt_of_le_of_lt (length_le_sum _) ?_
      simpa using near
  · refine ⟨0, (0, 0, -wgs84Radius), fun more _ => ?_, fun other => absurd other far, ?_⟩
    · rw [xyz2llh, if_pos (not_le.mp far)]
    · rw [llh2xyz_centre]
      have mirrored := length_neg xyz
      rw [← zero_sub] at mirrored
      exact lt_of_eq_of_lt mirrored (not_le.mp far)

end Navisim.Motion
