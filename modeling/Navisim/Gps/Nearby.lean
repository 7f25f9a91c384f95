import Navisim.Gps.Nominal

/-!
# Nearby anomalies

In real numbers, the loop of `satpos` ends near the solution of Kepler's equation, and its last
denominator is that of the turn before.  For a nominal orbit this moves the position by less than
a micrometre and the velocity by less than a micrometre a second (`satpos_near_orbit`).
-/

namespace Navisim

open RealMath Angle Space Perturbed

/-- Two anomalies that differ by what the tolerance of the loop leaves, with denominators in the
range of a nominal orbit. -/
structure Anomaly.Close (a b : Anomaly) : Prop where
  ek : |a.ek - b.ek| ≤ 1e-28
  oneMinusecosE : |a.oneMinusecosE - b.oneMinusecosE| ≤ 1e-14
  lower : 0.9 ≤ a.oneMinusecosE
  upper : a.oneMinusecosE ≤ 1.1
  lower' : 0.9 ≤ b.oneMinusecosE
  upper' : b.oneMinusecosE ≤ 1.1

theorem abs_halfWeek_le {x : ℝ} (inWeek : |x| ≤ 604800) : |halfWeek x| ≤ 302400 := by
  rw [abs_le] at inWeek ⊢
  have half : ((secondsInHalfWeek : ℚ) : ℝ) = 302400 := by norm_num [secondsInHalfWeek]
  have whole : ((secondsInWeek : ℚ) : ℝ) = 604800 := by norm_num [secondsInWeek]
  unfold halfWeek
  rw [half, whole]
  split
  · constructor <;> linarith
  · split <;> constructor <;> linarith

namespace Ephem.Nominal

variable {eph : Ephem ℝ} {tk : ℝ} {a b : Anomaly}

section Rates

variable (nominal : eph.Nominal) (close : a.Close b)
include nominal close

/-! ## The rates -/

/-- `ekdot` -/
theorem ekdot_perturbed :
    Perturbed 2.4e-4 4e-18 (eph.n / a.oneMinusecosE) (eph.n / b.oneMinusecosE) := by
  have inverse := Perturbed.inv (by norm_num) close.lower close.lower' close.oneMinusecosE
  rw [div_eq_mul_inv, div_eq_mul_inv]
  exact (inverse.const_mul nominal.n).mono (by norm_num) (by norm_num)

/-- `pkdot` -/
theorem pkdot_perturbed :
    Perturbed 3e-4 1e-17 (eph.argumentRate a.oneMinusecosE)
      (eph.argumentRate b.oneMinusecosE) := by
  have inverse := Perturbed.inv (by norm_num) close.lower close.lower' close.oneMinusecosE
  have product := ((nominal.ekdot_perturbed close).const_mul nominal.abs_sq1e2_le).mul inverse
  unfold Ephem.argumentRate
  rw [div_eq_mul_inv (eph.sq1e2 * _), div_eq_mul_inv (eph.sq1e2 * _)]
  exact product.mono (by norm_num) (by norm_num)

/-- A correction, at twice the argument. -/
theorem swing_perturbed {p q bound : ℝ} (left : |p| ≤ bound) (right : |q| ≤ bound) :
    Perturbed (2 * bound) (bound * 5e-28)
      (p * Real.cos (2 * eph.argument a.ek) - q * Real.sin (2 * eph.argument a.ek))
      (p * Real.cos (2 * eph.argument b.ek) - q * Real.sin (2 * eph.argument b.ek)) := by
  refine ⟨abs_swing_le left right _, abs_swing_le left right _, ?_⟩
  refine (nominal.abs_swing_sub_le left right a.ek b.ek).trans ?_
  have near := close.ek
  have positive := (abs_nonneg p).trans left
  refine mul_le_mul_of_nonneg_left ?_ positive
  norm_num at near ⊢
  linarith

/-- `rk` -/
theorem radius_perturbed :
    Perturbed 31000000 3e-7 (eph.radius a.oneMinusecosE (eph.argument a.ek))
      (eph.radius b.oneMinusecosE (eph.argument b.ek)) := by
  have denominators : Perturbed 1.1 1e-14 a.oneMinusecosE b.oneMinusecosE := by
    refine ⟨?_, ?_, close.oneMinusecosE⟩
    · exact abs_le.mpr ⟨le_trans (by norm_num) close.lower, close.upper⟩
    · exact abs_le.mpr ⟨le_trans (by norm_num) close.lower', close.upper'⟩
  have harmonic :=
    nominal.swing_perturbed close nominal.crc ((abs_neg eph.crs).trans_le nominal.crs)
  have sum := (denominators.const_mul nominal.abs_A_le).add harmonic
  simp only [neg_mul, sub_neg_eq_add, ← add_assoc] at sum
  rw [Ephem.radius_eq, Ephem.radius_eq]
  exact sum.mono (by norm_num) (by norm_num)

/-- `rkdot` -/
theorem radial_perturbed :
    Perturbed 700 2e-11
      (eph.A * (eph.ecc * Real.sin a.ek * (eph.n / a.oneMinusecosE)) +
        2 * eph.argumentRate a.oneMinusecosE *
          (eph.crs * Real.cos (2 * eph.argument a.ek) - eph.crc * Real.sin (2 * eph.argument a.ek)))
      (eph.A * (eph.ecc * Real.sin b.ek * (eph.n / b.oneMinusecosE)) +
        2 * eph.argumentRate b.oneMinusecosE *
          (eph.crs * Real.cos (2 * eph.argument b.ek) -
            eph.crc * Real.sin (2 * eph.argument b.ek))) := by
  have sine : Perturbed 1 1e-28 (Real.sin a.ek) (Real.sin b.ek) :=
    ⟨Real.abs_sin_le_one _, Real.abs_sin_le_one _,
      (Real.abs_sin_sub_sin_le _ _).trans close.ek⟩
  have small : |eph.ecc| ≤ 0.1 := abs_le.mpr
    ⟨le_trans (by norm_num) nominal.ecc_nonneg, nominal.ecc_le⟩
  have wdot := ((sine.const_mul small).mul (nominal.ekdot_perturbed close)).const_mul
    nominal.abs_A_le
  have harmonic := ((nominal.pkdot_perturbed close).const_mul (abs_two : |(2 : ℝ)| = 2).le).mul
    (nominal.swing_perturbed close nominal.crs nominal.crc)
  exact (wdot.add harmonic).mono (by norm_num) (by norm_num)

/-- `ukdot` -/
theorem across_perturbed :
    Perturbed 3.1e-4 2e-17
      (eph.argumentRate a.oneMinusecosE *
        (1 + 2 * (eph.cus * Real.cos (2 * eph.argument a.ek) -
          eph.cuc * Real.sin (2 * eph.argument a.ek))))
      (eph.argumentRate b.oneMinusecosE *
        (1 + 2 * (eph.cus * Real.cos (2 * eph.argument b.ek) -
          eph.cuc * Real.sin (2 * eph.argument b.ek)))) := by
  have factor := (Perturbed.refl (abs_one : |(1 : ℝ)| = 1).le).add
    ((nominal.swing_perturbed close nominal.cus nominal.cuc).const_mul (abs_two : |(2 : ℝ)| = 2).le)
  exact ((nominal.pkdot_perturbed close).mul factor).mono (by norm_num) (by norm_num)

/-- `ikdot` -/
theorem tilting_perturbed :
    Perturbed 2e-7 1e-20
      (eph.idot * 1 + 2 * eph.argumentRate a.oneMinusecosE *
        (eph.cis * Real.cos (2 * eph.argument a.ek) - eph.cic * Real.sin (2 * eph.argument a.ek)))
      (eph.idot * 1 + 2 * eph.argumentRate b.oneMinusecosE *
        (eph.cis * Real.cos (2 * eph.argument b.ek) -
          eph.cic * Real.sin (2 * eph.argument b.ek))) := by
  have harmonic := ((nominal.pkdot_perturbed close).const_mul (abs_two : |(2 : ℝ)| = 2).le).mul
    (nominal.swing_perturbed close nominal.cis nominal.cic)
  have constant : Perturbed 1e-8 0 (eph.idot * 1) (eph.idot * 1) := by
    rw [mul_one]
    exact Perturbed.refl nominal.idot
  exact (constant.add harmonic).mono (by norm_num) (by norm_num)

/-- The sine of `uk` -/
theorem sine_perturbed :
    Perturbed 1 2e-28 (Real.sin (eph.latitude (eph.argument a.ek)))
      (Real.sin (eph.latitude (eph.argument b.ek))) := by
  obtain ⟨udot, turns, bounded⟩ := nominal.exists_hasRate_latitude 0
  simp only [add_zero] at turns
  obtain ⟨-, sine⟩ := abs_sub_le_of_rate turns bounded a.ek b.ek
  refine ⟨Real.abs_sin_le_one _, Real.abs_sin_le_one _, sine.trans ?_⟩
  have near := close.ek
  norm_num at near ⊢
  linarith

/-! ## Position and velocity -/

theorem length_position_le (tk : ℝ) :
    length (eph.position tk a - eph.position tk b) ≤ 1e-6 := by
  have first := nominal.length_position_sub_le tk a.ek b.ek close.lower close.upper
  have second := nominal.length_position_denominator_sub_le tk b.ek a.oneMinusecosE b.oneMinusecosE
  have sum := length_add_le (eph.position tk a - eph.position tk ⟨b.ek, a.oneMinusecosE⟩)
    (eph.position tk ⟨b.ek, a.oneMinusecosE⟩ - eph.position tk b)
  rw [sub_add_sub_cancel] at sum
  have near := close.ek
  have near' := close.oneMinusecosE
  norm_num at first second near near' ⊢
  linarith

/-- One of the parts of a velocity. -/
theorem length_part_le (tk tilt o : ℝ) {c c' size change : ℝ} {u udot : ℝ → ℝ}
    (values : Perturbed size change c c') (turns : ∀ z, HasRate u (udot z) z)
    (bounded : ∀ z, |udot z| ≤ 1.13) :
    length (place c (u a.ek) (eph.inclination tk (eph.argument a.ek) + tilt) o -
      place c' (u b.ek) (eph.inclination tk (eph.argument b.ek) + tilt) o) ≤
        change + size * 4e-28 := by
  refine (nominal.length_place_sub_place_le tk turns bounded a.ek b.ek).trans ?_
  have moved : 4 * |c'| * |a.ek - b.ek| ≤ 4 * size * 1e-28 :=
    mul_le_mul (by linarith [values.right]) close.ek (abs_nonneg _)
      (by linarith [(abs_nonneg c').trans values.right])
  have near := values.near
  norm_num at moved ⊢
  linarith

theorem length_motion_le (tk : ℝ) :
    length (eph.motion tk a - eph.motion tk b) ≤ 1e-6 := by
  obtain ⟨udot, turns, bounded⟩ := nominal.exists_hasRate_latitude 0
  obtain ⟨udot', turns', bounded'⟩ := nominal.exists_hasRate_latitude (Real.pi / 2)
  have still : ∀ z, HasRate (fun _ => Real.pi / 2) 0 z := fun z =>
    .of_hasDerivAt (hasDerivAt_const z _)
  have none : ∀ _ : ℝ, |(0 : ℝ)| ≤ 1.13 := by
    intro _
    norm_num
  have radius := nominal.radius_perturbed close
  have along := nominal.length_part_le close tk 0 (eph.node tk)
    (nominal.radial_perturbed close) turns bounded
  have across := nominal.length_part_le close tk 0 (eph.node tk)
    (radius.mul (nominal.across_perturbed close)) turns' bounded'
  have tilting := nominal.length_part_le close tk (Real.pi / 2) (eph.node tk)
    ((radius.mul (nominal.sine_perturbed close)).mul (nominal.tilting_perturbed close)) still none
  simp only [add_zero] at along across
  have turning : length (eph.omgkdot • (-(eph.position tk a).2.1, (eph.position tk a).1, (0 : ℝ)) -
      eph.omgkdot • (-(eph.position tk b).2.1, (eph.position tk b).1, (0 : ℝ))) ≤
        1e-4 * 1e-6 := by
    have turned := length_turned_le (eph.position tk a - eph.position tk b)
    have difference : ((-(eph.position tk a).2.1, (eph.position tk a).1, (0 : ℝ)) : ℝ × ℝ × ℝ) -
        (-(eph.position tk b).2.1, (eph.position tk b).1, (0 : ℝ)) =
          (-(eph.position tk a - eph.position tk b).2.1,
            (eph.position tk a - eph.position tk b).1, 0) := by
      simp only [Prod.mk_sub_mk, Prod.fst_sub, Prod.snd_sub, sub_self, Prod.mk.injEq, and_true]
      ring
    rw [← smul_sub, difference, length_smul]
    exact mul_le_mul nominal.omgkdot (turned.trans (nominal.length_position_le close tk))
      (length_nonneg _) (by norm_num)
  rw [motion_eq, motion_eq]
  simp only [Ephem.velocityAt, velocity_eq, mul_one eph.omgkdot]
  rw [add_sub_add_comm, add_sub_add_comm, add_sub_add_comm]
  have plane := (length_add_le _ _).trans (add_le_add along across)
  have tilted := (length_add_le _ _).trans (add_le_add plane tilting)
  have whole := (length_add_le _ _).trans (add_le_add tilted turning)
  refine whole.trans ?_
  norm_num

end Rates

/-! ## `satpos` -/

section Satpos

variable (nominal : eph.Nominal)
include nominal

theorem exists_close (tk : ℝ) :
    ∃ turns anomaly, (∀ more ≥ turns,
        eccentricAnomaly more eph.ecc (eph.m0 + eph.n * tk) = some anomaly) ∧
      anomaly.Close (exactAnomaly eph tk) := by
  obtain ⟨turns, x, anomaly, returned, denominator, ek, near⟩ :=
    exists_eccentricAnomaly_near nominal.ecc_nonneg nominal.ecc_small (eph.m0 + eph.n * tk)
  obtain ⟨lower, upper⟩ := nominal.keplerSlope_range x
  obtain ⟨lower', upper'⟩ := nominal.keplerSlope_range (exactAnomaly eph tk).ek
  rw [← denominator] at lower upper
  exact ⟨turns, anomaly, returned, ek, near, lower, upper, lower', upper'⟩

/-- The speed of the satellite is below fourteen kilometres a second. -/
theorem length_motion_le_of_range (close : a.Close b) (tk : ℝ) :
    length (eph.motion tk a) ≤ 14000 := by
  have speed : length (eph.velocityAt tk a 1 (eph.ecc * Real.sin a.ek * (eph.n / a.oneMinusecosE))
      (eph.argumentRate a.oneMinusecosE)) ≤ _ :=
    nominal.length_velocityAt_le close.lower close.upper
  have turn := (nominal.pkdot_perturbed close).left
  have rising : |eph.ecc * Real.sin a.ek * (eph.n / a.oneMinusecosE)| ≤ 0.1 * 1 * 2.4e-4 := by
    have small : |eph.ecc| ≤ 0.1 := abs_le.mpr
      ⟨le_trans (by norm_num) nominal.ecc_nonneg, nominal.ecc_le⟩
    exact abs_mul_le_mul (abs_mul_le_mul small (Real.abs_sin_le_one _))
      (nominal.ekdot_perturbed close).left
  rw [motion_eq]
  rw [abs_one] at speed
  norm_num at turn rising speed ⊢
  linarith

/-- `satpos` returns what belongs to an anomaly that is close to the exact one. -/
theorem satpos_eq (g : GpsTime ℝ) :
    let tk := halfWeek (g.sec - eph.toe.sec)
    ∃ turns anomaly, anomaly.Close (exactAnomaly eph tk) ∧
      ∀ more ≥ turns, satpos more eph g = some (eph.satellite g tk anomaly) := by
  intro tk
  obtain ⟨turns, anomaly, returned, close⟩ := nominal.exists_close tk
  have nonzero : anomaly.oneMinusecosE ≠ 0 :=
    (lt_of_lt_of_le (by norm_num) close.lower).ne'
  refine ⟨turns, anomaly, close, fun more enough => ?_⟩
  rw [satpos, returned more enough]
  exact satelliteAt_eq eph g tk anomaly nonzero

/-- The clock is within three milliseconds. -/
theorem abs_clock_le (g : GpsTime ℝ) (inWeek : |g.sec - eph.toc.sec| ≤ 604800) (ek : ℝ) :
    |eph.clock g ek| ≤ 3e-3 := by
  have time := abs_halfWeek_le inWeek
  have slope := abs_mul_le_mul time nominal.af2
  have drift := abs_mul_le_mul time ((abs_add_le _ _).trans (add_le_add nominal.af1 slope))
  have small : |eph.ecc| ≤ 0.1 := abs_le.mpr
    ⟨le_trans (by norm_num) nominal.ecc_nonneg, nominal.ecc_le⟩
  have constant : |(-4.442807633E-10 : ℝ)| ≤ 5e-10 := by norm_num
  have relativistic : |eph.relativistic ek| ≤ 5e-10 * 0.1 * 5300 * 1 :=
    abs_mul_le_mul (abs_mul_le_mul (abs_mul_le_mul constant small) nominal.sqrta)
      (Real.abs_sin_le_one ek)
  have offset := nominal.af0
  have group := nominal.tgd
  rw [abs_le] at drift relativistic offset group ⊢
  unfold Ephem.clock
  dsimp only
  norm_num at drift relativistic offset group ⊢
  constructor <;> linarith

end Satpos

end Ephem.Nominal

/-- The size of what `satpos` returns for a nominal ephemeris. -/
structure Satellite.Nominal (satellite : Satellite) : Prop where
  near : 22000000 ≤ length satellite.pos
  far : length satellite.pos ≤ 31000000
  vel : length satellite.vel ≤ 14000
  clk : |satellite.clk.1| ≤ 3e-3

theorem Ephem.Nominal.exists_satellite {eph : Ephem ℝ} (nominal : eph.Nominal) (g : GpsTime ℝ)
    (inWeek : |g.sec - eph.toc.sec| ≤ 604800) :
    ∃ turns satellite, (∀ more ≥ turns, satpos more eph g = some satellite) ∧
      satellite.Nominal := by
  obtain ⟨turns, anomaly, close, returned⟩ := nominal.satpos_eq g
  obtain ⟨near, far⟩ :=
    nominal.radius_range close.lower close.upper (eph.argument anomaly.ek)
  have distance : length (eph.position (halfWeek (g.sec - eph.toe.sec)) anomaly) =
      eph.radius anomaly.oneMinusecosE (eph.argument anomaly.ek) := by
    rw [Ephem.position, length_place, abs_of_nonneg (by linarith)]
  exact ⟨turns, _, returned, near.trans_eq distance.symm, distance.trans_le far,
    nominal.length_motion_le_of_range close _, nominal.abs_clock_le g inWeek _⟩

/-- The orbit an ephemeris describes. -/
noncomputable def Ephem.orbit (eph : Ephem ℝ) (tk : ℝ) : ℝ × ℝ × ℝ :=
  eph.position tk (exactAnomaly eph tk)

/-- **`satpos` follows the orbit.**  For a nominal ephemeris it returns at every time; the position
lies within a micrometre of the orbit that the exact solution of Kepler's equation gives, and the
velocity within a micrometre a second of the derivative of this orbit. -/
theorem satpos_near_orbit (eph : Ephem ℝ) (g : GpsTime ℝ) (nominal : eph.Nominal) :
    ∃ turns satellite, (∀ more ≥ turns, satpos more eph g = some satellite) ∧
      length (satellite.pos - eph.orbit (halfWeek (g.sec - eph.toe.sec))) ≤ 1e-6 ∧
      ∃ derivative, HasDerivAt eph.orbit derivative (halfWeek (g.sec - eph.toe.sec)) ∧
        length (satellite.vel - derivative) ≤ 1e-6 := by
  obtain ⟨turns, anomaly, close, returned⟩ := nominal.satpos_eq g
  exact ⟨turns, _, returned, nominal.length_position_le close _, _,
    hasDerivAt_exact nominal.sq1e2 nominal.ecc_nonneg nominal.ecc_lt_one _,
    nominal.length_motion_le close _⟩

/-- An orbit of the nominal size. -/
noncomputable def nominalEphem : Ephem ℝ where
  vflg := 1
  t := ⟨2018, 5, 6, 2, 0, 0⟩
  toc := { week := 2000, sec := 7200 }
  toe := { week := 2000, sec := 7200 }
  iodc := 300
  iode := 44
  deltan := 4.5e-9
  cuc := -1.0e-6
  cus := 8.0e-6
  cic := 1.0e-7
  cis := -1.0e-7
  crc := 210.5
  crs := -20.25
  ecc := 0.01
  sqrta := 5153.7
  m0 := -1.5
  omg0 := 2.5
  inc0 := 0.96
  aop := -0.75
  omgdot := -8.0e-9
  idot := 1.0e-10
  af0 := -1.0e-4
  af1 := 1.0e-12
  af2 := 0
  tgd := -1.0e-8
  svhlth := 0
  codeL2 := 1
  n := 1.4586e-4
  sq1e2 := √(1 - 0.01 * 0.01)
  A := 5153.7 * 5153.7
  omgkdot := -8.0e-9 - 7.2921151467e-5

theorem nominalEphem_nominal : nominalEphem.Nominal := by
  constructor <;> norm_num [nominalEphem, abs_le]

theorem satpos_near_orbit_sample :
    ∃ turns satellite,
      (∀ more ≥ turns, satpos more nominalEphem { week := 2000, sec := 3600 } = some satellite) ∧
      length (satellite.pos - nominalEphem.orbit (halfWeek (3600 - nominalEphem.toe.sec))) ≤ 1e-6 ∧
      ∃ derivative,
        HasDerivAt nominalEphem.orbit derivative (halfWeek (3600 - nominalEphem.toe.sec)) ∧
        length (satellite.vel - derivative) ≤ 1e-6 :=
  satpos_near_orbit nominalEphem { week := 2000, sec := 3600 } nominalEphem_nominal

end Navisim
