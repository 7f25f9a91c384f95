import Navisim.Gps.Nearby
import Navisim.Motion.Horizon
import Navisim.Motion.Inverse

/-!
# Satellites in sight

`checkSatVisibility`, in real numbers.  A satellite is visible when it stands above the cone that
the mask cuts out of the sky; with the mask of zero that `allocateChannel` passes this is the plane
through the receiver that is level at its latitude and longitude (`checkSatVisibility_iff`).
-/

namespace Navisim.Sight

open Motion Space RealMath

/-- `R2D` -/
noncomputable def r2d : ℝ := 57.2957795131

/-- `checkSatVisibility`, if its loops are done after at most `turns` turns: its result, and what
it leaves in `azel`. -/
noncomputable def checkSatVisibility (turns : Nat) (eph : Ephem ℝ) (g : GpsTime ℝ)
    (xyz : ℝ × ℝ × ℝ) (elvMask : ℝ) (azel : ℝ × ℝ) : Option (Int × (ℝ × ℝ)) :=
  open Classical in
  if eph.vflg ≠ 1 then
    some (-1, azel) -- Invalid
  else do
    let llh ← xyz2llh turns xyz
    let tmat := ltcmat llh
    let { pos, .. } ← satpos turns eph g
    let los := subVect pos xyz
    let neu := ecef2neu los tmat
    let azel := neu2azel neu
    if azel.2 * r2d > elvMask then
      return (1, azel) -- Visible
    else
      return (0, azel) -- Invisible

theorem r2d_range : 0 < r2d ∧ 90 / r2d ≤ Real.pi / 2 := by
  have positive : 0 < r2d := by norm_num [r2d]
  refine ⟨positive, ?_⟩
  have lower := Real.pi_gt_d20
  rw [div_le_div_iff₀ positive two_pos]
  norm_num [r2d] at lower ⊢
  linarith

section Elevation

variable (llh los : ℝ × ℝ × ℝ)

/-- The height of a line of sight is its length times the sine of its elevation. -/
theorem length_mul_sin_elevation :
    length los * Real.sin (neu2azel (ecef2neu los (ltcmat llh))).2 = dot (ltcmat llh 2) los := by
  have third := congrArg (fun v => v.2.2) (length_smul_direction (ecef2neu los (ltcmat llh)))
  rw [length_ecef2neu] at third
  exact third

/-- A mask, in degrees, is a cone about the vertical. -/
theorem lt_elevation_iff {mask : ℝ} (nonneg : 0 ≤ mask) (le : mask ≤ 90) :
    mask < (neu2azel (ecef2neu los (ltcmat llh))).2 * r2d ↔
      length los * Real.sin (mask / r2d) < dot (ltcmat llh 2) los := by
  obtain ⟨positive, quarter⟩ := r2d_range
  obtain ⟨-, -, bound⟩ := neu2azel_range (ecef2neu los (ltcmat llh))
  have bounds := abs_le.mp bound
  have height := length_mul_sin_elevation llh los
  have lower : 0 ≤ mask / r2d := div_nonneg nonneg positive.le
  have upper : mask / r2d ≤ Real.pi / 2 :=
    (div_le_div_of_nonneg_right le positive.le).trans quarter
  rw [← div_lt_iff₀ positive, ← height]
  rcases (length_nonneg los).eq_or_lt with none | some
  · have origin : ecef2neu los (ltcmat llh) = 0 := by
      have size := length_ecef2neu llh los
      rw [← none] at size
      exact norm_eq_zero.mp (le_antisymm ((norm_le_length _).trans_eq size) (norm_nonneg _))
    have flat : (neu2azel (ecef2neu los (ltcmat llh))).2 = 0 := by
      rw [origin, neu2azel_elevation, elevation, Complex.arg_eq_zero_iff]
      exact ⟨Real.sqrt_nonneg _, rfl⟩
    rw [← none, flat, zero_mul, zero_mul]
    exact ⟨fun below => absurd below (not_lt.mpr lower), fun never => absurd never (lt_irrefl 0)⟩
  · have sines := Real.strictMonoOn_sin.lt_iff_lt
      (⟨by linarith [Real.pi_pos], upper⟩ : mask / r2d ∈ Set.Icc (-(Real.pi / 2)) (Real.pi / 2))
      ⟨bounds.1, bounds.2⟩
    rw [← sines]
    exact (mul_lt_mul_iff_right₀ some).symm

end Elevation

/-- **A visible satellite stands above the mask.**  For every valid ephemeris whose eccentricity
is one of the broadcast and every receiver `checkSatVisibility` returns, and it says visible
exactly if the satellite stands higher above the horizontal plane through the receiver than the
mask asks for at its distance. -/
theorem checkSatVisibility_iff (eph : Ephem ℝ) (g : GpsTime ℝ) (xyz : ℝ × ℝ × ℝ)
    (elvMask : ℝ) (azel : ℝ × ℝ) (valid : eph.vflg = 1) (nonneg : 0 ≤ eph.ecc)
    (small : eph.ecc < 0.5) (mask : 0 ≤ elvMask) (mask' : elvMask ≤ 90) :
    ∃ turns llh satellite visible azel',
      (∀ more ≥ turns, xyz2llh more xyz = some llh ∧ satpos more eph g = some satellite ∧
        checkSatVisibility more eph g xyz elvMask azel = some (visible, azel')) ∧
      (visible = 1 ↔ length (satellite.pos - xyz) * Real.sin (elvMask / r2d) <
        dot (ltcmat llh 2) (satellite.pos - xyz)) ∧
      (visible = 0 ↔ ¬ visible = 1) := by
  obtain ⟨turns, llh, place⟩ := xyz2llh_returns xyz
  obtain ⟨turns', satellite, orbit⟩ := satpos_returns eph g nonneg small
  have cone := lt_elevation_iff llh (satellite.pos - xyz) mask mask'
  set azel' := neu2azel (ecef2neu (satellite.pos - xyz) (ltcmat llh))
  have returned : ∀ more ≥ max turns turns',
      checkSatVisibility more eph g xyz elvMask azel =
        if azel'.2 * r2d > elvMask then some (1, azel') else some (0, azel') := by
    intro more enough
    rw [checkSatVisibility, if_neg (not_not.mpr valid), place more (le_of_max_le_left enough),
      orbit more (le_of_max_le_right enough)]
    rfl
  have both : ∀ more ≥ max turns turns',
      xyz2llh more xyz = some llh ∧ satpos more eph g = some satellite := fun more enough =>
    ⟨place more (le_of_max_le_left enough), orbit more (le_of_max_le_right enough)⟩
  by_cases above : azel'.2 * r2d > elvMask
  · refine ⟨_, llh, satellite, 1, azel', fun more enough =>
      ⟨(both more enough).1, (both more enough).2, ?_⟩, ?_, by decide⟩
    · rw [returned more enough, if_pos above]
    · exact ⟨fun _ => cone.mp above, fun _ => rfl⟩
  · refine ⟨_, llh, satellite, 0, azel', fun more enough =>
      ⟨(both more enough).1, (both more enough).2, ?_⟩, ?_, by decide⟩
    · rw [returned more enough, if_neg above]
    · exact ⟨fun one => absurd one (by decide), fun higher => absurd (cone.mpr higher) above⟩

/-- A receiver on the equator. -/
theorem checkSatVisibility_iff_equator :
    ∃ turns llh satellite visible azel',
      (∀ more ≥ turns, xyz2llh more (6378137, 0, 0) = some llh ∧
        satpos more nominalEphem { week := 2000, sec := 3600 } = some satellite ∧
        checkSatVisibility more nominalEphem { week := 2000, sec := 3600 } (6378137, 0, 0) 0
          (0, 0) = some (visible, azel')) ∧
      (visible = 1 ↔ length (satellite.pos - (6378137, 0, 0)) * Real.sin (0 / r2d) <
        dot (ltcmat llh 2) (satellite.pos - (6378137, 0, 0))) ∧
      (visible = 0 ↔ ¬ visible = 1) :=
  checkSatVisibility_iff nominalEphem _ _ 0 (0, 0) rfl (by norm_num [nominalEphem])
    (by norm_num [nominalEphem]) le_rfl (by norm_num)

end Navisim.Sight
