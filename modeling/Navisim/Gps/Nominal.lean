import Navisim.Gps.Orbit
import Navisim.Lib.Perturbed

/-!
# Nominal orbits

Ephemerides with the size and the speed of a satellite of the system, and corrections as the
message can carry them: how far from the Earth these satellites are, how fast they move, and how
little position and velocity move with the anomaly.
-/

namespace Navisim

open RealMath Angle Space Perturbed

/-- The ranges of a nominal ephemeris; those of the corrections are what the fields can hold. -/
structure Ephem.Nominal (eph : Ephem ℝ) : Prop where
  ecc_nonneg : 0 ≤ eph.ecc
  ecc_le : eph.ecc ≤ 0.1
  A_ge : 25000000 ≤ eph.A
  A_le : eph.A ≤ 28000000
  sq1e2 : eph.sq1e2 = √(1 - eph.ecc * eph.ecc)
  n : |eph.n| ≤ 2e-4
  omgkdot : |eph.omgkdot| ≤ 1e-4
  idot : |eph.idot| ≤ 1e-8
  crc : |eph.crc| ≤ 1024
  crs : |eph.crs| ≤ 1024
  cuc : |eph.cuc| ≤ 1e-4
  cus : |eph.cus| ≤ 1e-4
  cic : |eph.cic| ≤ 1e-4
  cis : |eph.cis| ≤ 1e-4
  af0 : |eph.af0| ≤ 1e-3
  af1 : |eph.af1| ≤ 4e-9
  af2 : |eph.af2| ≤ 4e-15
  tgd : |eph.tgd| ≤ 1e-7
  sqrta : |eph.sqrta| ≤ 5300

section Bounds

variable {a b bound : ℝ}

/-- A harmonic correction and its change. -/
theorem abs_harmonic_le (left : |a| ≤ bound) (right : |b| ≤ bound) (angle : ℝ) :
    |a * Real.cos angle + b * Real.sin angle| ≤ 2 * bound := by
  have cosine := abs_mul_le_mul left (Real.abs_cos_le_one angle)
  have sine := abs_mul_le_mul right (Real.abs_sin_le_one angle)
  have sum := abs_add_le (a * Real.cos angle) (b * Real.sin angle)
  linarith

theorem abs_swing_le (left : |a| ≤ bound) (right : |b| ≤ bound) (angle : ℝ) :
    |a * Real.cos angle - b * Real.sin angle| ≤ 2 * bound := by
  have mirrored := abs_harmonic_le left ((abs_neg b).trans_le right) angle
  rwa [neg_mul, ← sub_eq_add_neg] at mirrored

end Bounds

section Nominal

variable {eph : Ephem ℝ} {tk tkdot wdot pkdot : ℝ} {anomaly : Anomaly}

namespace Ephem.Nominal

variable (nominal : eph.Nominal)
include nominal

theorem ecc_small : eph.ecc < 0.5 := by
  have le := nominal.ecc_le
  norm_num at le ⊢
  linarith

theorem ecc_lt_one : eph.ecc < 1 := by
  have le := nominal.ecc_le
  norm_num at le
  linarith

theorem abs_sq1e2_le : |eph.sq1e2| ≤ 1 := by
  have square := mul_self_nonneg eph.ecc
  rw [nominal.sq1e2, abs_of_nonneg (Real.sqrt_nonneg _), Real.sqrt_le_left zero_le_one, one_pow]
  linarith

/-- The slope of Kepler's equation. -/
theorem keplerSlope_range (x : ℝ) :
    0.9 ≤ keplerSlope eph.ecc x ∧ keplerSlope eph.ecc x ≤ 1.1 := by
  have le := nominal.ecc_le
  have product := abs_mul_le_mul (abs_le.mpr ⟨by linarith [nominal.ecc_nonneg], le⟩)
    (Real.abs_cos_le_one x)
  rw [abs_le] at product
  rw [keplerSlope_eq]
  norm_num at product ⊢
  constructor <;> linarith

/-- The distance from the centre of the Earth. -/
theorem radius_range {oneMinusecosE : ℝ} (lower : 0.9 ≤ oneMinusecosE)
    (upper : oneMinusecosE ≤ 1.1) (pk : ℝ) :
    22000000 ≤ eph.radius oneMinusecosE pk ∧ eph.radius oneMinusecosE pk ≤ 31000000 := by
  have harmonic := abs_harmonic_le nominal.crc nominal.crs (2 * pk)
  rw [abs_le] at harmonic
  have size := nominal.A_ge
  have size' := nominal.A_le
  norm_num at lower upper
  rw [Ephem.radius_eq]
  constructor <;> nlinarith

theorem abs_A_le : |eph.A| ≤ 28000000 :=
  abs_le.mpr ⟨by linarith [nominal.A_ge], nominal.A_le⟩

/-- The change of the radius. -/
theorem abs_radial_le (wdot pkdot pk : ℝ) :
    |eph.A * wdot + 2 * pkdot * (eph.crs * Real.cos (2 * pk) - eph.crc * Real.sin (2 * pk))| ≤
      28000000 * |wdot| + 4096 * |pkdot| := by
  have twice : |2 * pkdot| = 2 * |pkdot| := by rw [abs_mul, abs_two]
  have first := abs_mul_le_mul nominal.abs_A_le (le_refl |wdot|)
  have second := abs_mul_le_mul twice.le (abs_swing_le nominal.crs nominal.crc (2 * pk))
  refine (abs_add_le _ _).trans ?_
  linarith

/-- The rate of the latitude argument. -/
theorem abs_across_le (pkdot pk : ℝ) :
    |pkdot * (1 + 2 * (eph.cus * Real.cos (2 * pk) - eph.cuc * Real.sin (2 * pk)))| ≤
      1.001 * |pkdot| := by
  have swing := abs_le.mp (abs_swing_le nominal.cus nominal.cuc (2 * pk))
  have factor : |1 + 2 * (eph.cus * Real.cos (2 * pk) - eph.cuc * Real.sin (2 * pk))| ≤
      1.001 := by
    norm_num at swing ⊢
    rw [abs_le]
    constructor <;> linarith
  exact (abs_mul_le_mul (le_refl |pkdot|) factor).trans_eq (mul_comm _ _)

/-- The rate of the inclination. -/
theorem abs_tilting_le (tkdot pkdot pk : ℝ) :
    |eph.idot * tkdot +
      2 * pkdot * (eph.cis * Real.cos (2 * pk) - eph.cic * Real.sin (2 * pk))| ≤
        1e-8 * |tkdot| + 1e-3 * |pkdot| := by
  have twice : |2 * pkdot| = 2 * |pkdot| := by rw [abs_mul, abs_two]
  have first := abs_mul_le_mul nominal.idot (le_refl |tkdot|)
  have second := abs_mul_le_mul twice.le (abs_swing_le nominal.cis nominal.cic (2 * pk))
  have positive := abs_nonneg pkdot
  refine (abs_add_le _ _).trans ?_
  norm_num at first second ⊢
  linarith

/-- The speed of a satellite. -/
theorem length_velocityAt_le (lower : 0.9 ≤ anomaly.oneMinusecosE)
    (upper : anomaly.oneMinusecosE ≤ 1.1) :
    length (eph.velocityAt tk anomaly tkdot wdot pkdot) ≤
      28000000 * |wdot| + 32000000 * |pkdot| + 3200 * |tkdot| := by
  set pk := eph.argument anomaly.ek with pk_eq
  obtain ⟨near, far⟩ := nominal.radius_range lower upper pk
  have size := nominal.A_le
  have radial := nominal.abs_radial_le wdot pkdot pk
  have across := nominal.abs_across_le pkdot pk
  have tilting := nominal.abs_tilting_le tkdot pkdot pk
  have turning : |eph.omgkdot * tkdot| ≤ 1e-4 * |tkdot| :=
    abs_mul_le_mul nominal.omgkdot le_rfl
  refine (length_velocity_le _ _ _ _ _ _ _ _).trans ?_
  rw [abs_of_nonneg (by linarith : 0 ≤ eph.radius anomaly.oneMinusecosE pk)]
  have moved := mul_le_mul far across (abs_nonneg _) (by norm_num)
  have tilted := mul_le_mul far tilting (abs_nonneg _) (by norm_num)
  have turned := mul_le_mul turning far (by linarith) (by positivity)
  have first := abs_nonneg pkdot
  have second := abs_nonneg tkdot
  norm_num at moved tilted turned ⊢
  linarith

/-! ## The position -/

/-- The rate at which `pk` turns with the anomaly. -/
theorem abs_anomalyRate_le (z : ℝ) : |eph.sq1e2 * 1 / keplerSlope eph.ecc z| ≤ 1.12 := by
  have slope := (nominal.keplerSlope_range z).1
  have positive : 0 < keplerSlope eph.ecc z := lt_of_lt_of_le (by norm_num) slope
  have root := nominal.abs_sq1e2_le
  rw [mul_one, abs_div, abs_of_pos positive, div_le_iff₀ positive]
  norm_num at slope ⊢
  linarith

theorem hasRate_anomaly (z : ℝ) :
    HasRate eph.argument (eph.sq1e2 * 1 / keplerSlope eph.ecc z) z :=
  hasRate_argument nominal.sq1e2 nominal.ecc_nonneg nominal.ecc_lt_one (hasDerivAt_id z)

/-- How far the position moves with the anomaly alone. -/
theorem length_position_sub_le (tk x y : ℝ) {w : ℝ} (lower : 0.9 ≤ w) (upper : w ≤ 1.1) :
    length (eph.position tk ⟨x, w⟩ - eph.position tk ⟨y, w⟩) ≤ 110000000 * |x - y| := by
  have moving : ∀ z, HasDerivAt (fun s => eph.position tk ⟨s, w⟩)
      (eph.velocityAt tk ⟨z, w⟩ 0 0 (eph.sq1e2 * 1 / keplerSlope eph.ecc z)) z := fun z =>
    hasDerivAt_position nominal.sq1e2 nominal.ecc_nonneg nominal.ecc_lt_one
      (hasDerivAt_const z tk) (hasDerivAt_id z) (hasDerivAt_const z w)
  have slow : ∀ z, ‖eph.velocityAt tk ⟨z, w⟩ 0 0 (eph.sq1e2 * 1 / keplerSlope eph.ecc z)‖ ≤
      36000000 := by
    intro z
    have speed : length (eph.velocityAt tk ⟨z, w⟩ 0 0
        (eph.sq1e2 * 1 / keplerSlope eph.ecc z)) ≤ _ :=
      nominal.length_velocityAt_le lower upper
    have rate := nominal.abs_anomalyRate_le z
    refine (norm_le_length _).trans (speed.trans ?_)
    rw [abs_zero]
    norm_num at rate ⊢
    linarith
  have mean := convex_univ.norm_image_sub_le_of_norm_hasDerivWithin_le
    (fun z _ => (moving z).hasDerivWithinAt) (fun z _ => slow z) (Set.mem_univ y) (Set.mem_univ x)
  rw [Real.norm_eq_abs] at mean
  have size := length_le_norm (eph.position tk ⟨x, w⟩ - eph.position tk ⟨y, w⟩)
  have positive := abs_nonneg (x - y)
  linarith

/-- How far it moves with the denominator alone. -/
theorem length_position_denominator_sub_le (tk x w w' : ℝ) :
    length (eph.position tk ⟨x, w⟩ - eph.position tk ⟨x, w'⟩) ≤ 28000000 * |w - w'| := by
  set pk := eph.argument x with pk_eq
  have along : eph.position tk ⟨x, w⟩ - eph.position tk ⟨x, w'⟩ =
      place (eph.A * (w - w')) (eph.latitude pk) (eph.inclination tk pk) (eph.node tk) := by
    simp only [Ephem.position, place, ← pk_eq, Ephem.radius, Prod.mk_sub_mk, Prod.mk.injEq]
    refine ⟨?_, ?_, ?_⟩ <;> ring
  rw [along, length_place]
  exact abs_mul_le_mul nominal.abs_A_le le_rfl

/-! ## The velocity -/

/-- The corrections change little with the anomaly. -/
theorem abs_swing_sub_le {a b bound : ℝ} (left : |a| ≤ bound) (right : |b| ≤ bound) (x y : ℝ) :
    |(a * Real.cos (2 * eph.argument x) - b * Real.sin (2 * eph.argument x)) -
      (a * Real.cos (2 * eph.argument y) - b * Real.sin (2 * eph.argument y))| ≤
        bound * (5 * |x - y|) := by
  have slow : ∀ z, |2 * (eph.sq1e2 * 1 / keplerSlope eph.ecc z)| ≤ 2.24 := by
    intro z
    have rate := nominal.abs_anomalyRate_le z
    rw [abs_mul, abs_two]
    norm_num at rate ⊢
    linarith
  obtain ⟨cosine, sine⟩ :=
    abs_sub_le_of_rate (fun z => (nominal.hasRate_anomaly z).two_mul) slow x y
  have first := abs_mul_le_mul left cosine
  have second := abs_mul_le_mul right sine
  have positive : 0 ≤ bound * |x - y| :=
    mul_nonneg ((abs_nonneg a).trans left) (abs_nonneg _)
  calc
    _ = |a * (Real.cos (2 * eph.argument x) - Real.cos (2 * eph.argument y)) -
          b * (Real.sin (2 * eph.argument x) - Real.sin (2 * eph.argument y))| := by ring_nf
    _ ≤ bound * (2.24 * |x - y|) + bound * (2.24 * |x - y|) :=
        (abs_sub _ _).trans (add_le_add first second)
    _ ≤ bound * (5 * |x - y|) := by
        norm_num
        linarith

/-- A point of the plane at a fixed distance moves little with the anomaly. -/
theorem length_place_sub_le (tk c tilt o : ℝ) {u udot : ℝ → ℝ} (turns : ∀ z, HasRate u (udot z) z)
    (bounded : ∀ z, |udot z| ≤ 1.13) (x y : ℝ) :
    length (place c (u x) (eph.inclination tk (eph.argument x) + tilt) o -
      place c (u y) (eph.inclination tk (eph.argument y) + tilt) o) ≤ 4 * |c| * |x - y| := by
  let idot z := eph.idot * 0 + 2 * (eph.sq1e2 * 1 / keplerSlope eph.ecc z) *
    (eph.cis * Real.cos (2 * eph.argument z) - eph.cic * Real.sin (2 * eph.argument z))
  have moving : ∀ z, HasDerivAt
      (fun s => place c (u s) (eph.inclination tk (eph.argument s) + tilt) o)
      (velocity c (u z) (eph.inclination tk (eph.argument z) + tilt) o 0 (udot z) (idot z) 0) z :=
    fun z => hasDerivAt_place (hasDerivAt_const z c) (turns z)
      ((hasDerivAt_inclination (hasDerivAt_const z tk) (nominal.hasRate_anomaly z)).add_const tilt)
      (hasDerivAt_const z o)
  have slow : ∀ z, ‖velocity c (u z) (eph.inclination tk (eph.argument z) + tilt) o 0
      (udot z) (idot z) 0‖ ≤ 1.2 * |c| := by
    intro z
    have rate := nominal.abs_anomalyRate_le z
    have tilting : |idot z| ≤ 1e-8 * |0| + 1e-3 * |eph.sq1e2 * 1 / keplerSlope eph.ecc z| :=
      nominal.abs_tilting_le _ _ _
    have both : |udot z| + |idot z| ≤ 1.2 := by
      have across := bounded z
      rw [abs_zero] at tilting
      generalize |idot z| = i at tilting ⊢
      norm_num at across tilting rate ⊢
      linarith
    refine (norm_le_length _).trans ((length_velocity_le _ _ _ _ _ _ _ _).trans ?_)
    rw [abs_zero, zero_mul, add_zero, zero_add, ← mul_add, mul_comm]
    exact mul_le_mul_of_nonneg_right both (abs_nonneg c)
  have mean := convex_univ.norm_image_sub_le_of_norm_hasDerivWithin_le
    (fun z _ => (moving z).hasDerivWithinAt) (fun z _ => slow z) (Set.mem_univ y) (Set.mem_univ x)
  refine (length_le_norm _).trans ?_
  have positive := mul_nonneg (abs_nonneg c) (abs_nonneg (x - y))
  rw [Real.norm_eq_abs] at mean
  norm_num at mean ⊢
  linarith

/-- The latitude argument turns with the anomaly. -/
theorem exists_hasRate_latitude (phase : ℝ) : ∃ udot : ℝ → ℝ,
    (∀ z, HasRate (fun s => eph.latitude (eph.argument s) + phase) (udot z) z) ∧
      ∀ z, |udot z| ≤ 1.13 := by
  refine ⟨_, fun z => (hasRate_latitude (nominal.hasRate_anomaly z)).add_const phase, fun z => ?_⟩
  have rate := nominal.abs_anomalyRate_le z
  have across := nominal.abs_across_le (eph.sq1e2 * 1 / keplerSlope eph.ecc z) (eph.argument z)
  refine across.trans ?_
  generalize |eph.sq1e2 * 1 / keplerSlope eph.ecc z| = r at rate ⊢
  norm_num at rate ⊢
  linarith

/-- Two points of the plane, at nearby distances and anomalies. -/
theorem length_place_sub_place_le (tk : ℝ) {c c' tilt o : ℝ} {u udot : ℝ → ℝ}
    (turns : ∀ z, HasRate u (udot z) z) (bounded : ∀ z, |udot z| ≤ 1.13) (x y : ℝ) :
    length (place c (u x) (eph.inclination tk (eph.argument x) + tilt) o -
      place c' (u y) (eph.inclination tk (eph.argument y) + tilt) o) ≤
        |c - c'| + 4 * |c'| * |x - y| := by
  have split : place c (u x) (eph.inclination tk (eph.argument x) + tilt) o -
      place c' (u y) (eph.inclination tk (eph.argument y) + tilt) o =
        place (c - c') (u x) (eph.inclination tk (eph.argument x) + tilt) o +
          (place c' (u x) (eph.inclination tk (eph.argument x) + tilt) o -
            place c' (u y) (eph.inclination tk (eph.argument y) + tilt) o) := by
    simp only [place, Prod.mk_sub_mk, Prod.mk_add_mk, Prod.mk.injEq]
    refine ⟨?_, ?_, ?_⟩ <;> ring
  rw [split]
  refine (length_add_le _ _).trans (add_le_add ?_ ?_)
  · rw [length_place]
  · exact nominal.length_place_sub_le tk c' tilt o turns bounded x y

end Ephem.Nominal

end Nominal

end Navisim
