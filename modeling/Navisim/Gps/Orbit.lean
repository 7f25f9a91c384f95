import Navisim.Gps.Kepler
import Navisim.Lib.Angle
import Navisim.Lib.Space

/-!
# Orbits

What `satpos` computes behind its loop is a point of an orbit: a distance and an angle in a plane
that is inclined and turns about the axis of the Earth.  With the solution of Kepler's equation the
velocity of `satpos` is the derivative of its position (`velocity_is_derivative`).
-/

namespace Navisim

open RealMath Angle Space

/-! ## Points of an inclined plane -/

/-- The point at the distance `r` and the angle `u` of a plane, whose inclination is `i` and
whose node is at `o`. -/
noncomputable def place (r u i o : ℝ) : ℝ × ℝ × ℝ :=
  (r * Real.cos u * Real.cos o - r * Real.sin u * Real.cos i * Real.sin o,
    r * Real.cos u * Real.sin o + r * Real.sin u * Real.cos i * Real.cos o,
    r * Real.sin u * Real.sin i)

/-- The velocity of a point, as `satpos` puts it together. -/
noncomputable def velocity (r u i o rdot udot idot odot : ℝ) : ℝ × ℝ × ℝ :=
  let xpk := r * Real.cos u
  let ypk := r * Real.sin u
  let xpkdot := rdot * Real.cos u - ypk * udot
  let ypkdot := rdot * Real.sin u + xpk * udot
  let pos := place r u i o
  let tmp := ypkdot * Real.cos i - ypk * Real.sin i * idot
  (-odot * pos.2.1 + xpkdot * Real.cos o - tmp * Real.sin o,
    odot * pos.1 + xpkdot * Real.sin o + tmp * Real.cos o,
    ypk * Real.cos i * idot + ypkdot * Real.sin i)

/-- **A point that moves in a turning plane** has this velocity; its angle may jump by turns. -/
theorem hasDerivAt_place {r u i o : ℝ → ℝ} {rdot udot idot odot t : ℝ}
    (dr : HasDerivAt r rdot t) (du : HasRate u udot t) (di : HasDerivAt i idot t)
    (do' : HasDerivAt o odot t) :
    HasDerivAt (fun s => place (r s) (u s) (i s) (o s))
      (velocity (r t) (u t) (i t) (o t) rdot udot idot odot) t := by
  have x := dr.mul du.cos
  have y := dr.mul du.sin
  have first := (x.mul do'.cos).sub ((y.mul di.cos).mul do'.sin)
  have second := (x.mul do'.sin).add ((y.mul di.cos).mul do'.cos)
  have third := y.mul di.sin
  refine ((first.congr_deriv ?_).prodMk ((second.congr_deriv ?_).prodMk
    (third.congr_deriv ?_))) <;>
  · simp only [place, Pi.mul_apply]
    ring

section Lengths

variable (r u i o rdot udot idot odot : ℝ)

theorem length_place : length (place r u i o) = |r| := by
  have lat := Real.sin_sq_add_cos_sq u
  have inc := Real.sin_sq_add_cos_sq i
  have lon := Real.sin_sq_add_cos_sq o
  have square : dot (place r u i o) (place r u i o) = r ^ 2 := by
    simp only [dot, place]
    linear_combination r ^ 2 * lat + r ^ 2 * Real.sin u ^ 2 * inc +
      (r ^ 2 * Real.cos u ^ 2 + r ^ 2 * Real.sin u ^ 2 * Real.cos i ^ 2) * lon
  rw [length, square, Real.sqrt_sq_eq_abs]

/-- The velocity along the radius, across it in the plane, with the plane and with the node. -/
theorem velocity_eq :
    velocity r u i o rdot udot idot odot =
      place rdot u i o + place (r * udot) (u + Real.pi / 2) i o +
        place (r * Real.sin u * idot) (Real.pi / 2) (i + Real.pi / 2) o +
        odot • (-(place r u i o).2.1, (place r u i o).1, 0) := by
  simp only [velocity, place, Real.cos_add_pi_div_two, Real.sin_add_pi_div_two,
    Real.cos_pi_div_two, Real.sin_pi_div_two, Prod.smul_mk, Prod.mk_add_mk, smul_eq_mul,
    Prod.mk.injEq]
  refine ⟨?_, ?_, ?_⟩ <;> ring

theorem length_velocity_le :
    length (velocity r u i o rdot udot idot odot) ≤
      |rdot| + |r| * |udot| + |r| * |idot| + |odot| * |r| := by
  have tilt : |r * Real.sin u * idot| ≤ |r| * |idot| := by
    have sine := Real.abs_sin_le_one u
    rw [abs_mul, abs_mul]
    have scaled := mul_le_mul_of_nonneg_left sine (abs_nonneg r)
    rw [mul_one] at scaled
    exact mul_le_mul_of_nonneg_right scaled (abs_nonneg idot)
  have turned := length_turned_le (place r u i o)
  rw [length_place] at turned
  have node :
      length (odot • (-(place r u i o).2.1, (place r u i o).1, (0 : ℝ))) ≤ |odot| * |r| := by
    rw [length_smul]
    exact mul_le_mul_of_nonneg_left turned (abs_nonneg odot)
  rw [velocity_eq]
  refine (length_add_le _ _).trans (add_le_add ?_ node)
  refine (length_add_le _ _).trans (add_le_add ?_ ?_)
  · refine (length_add_le _ _).trans ?_
    rw [length_place, length_place, abs_mul]
  · rw [length_place]
    exact tilt

end Lengths

/-! ## The orbit of an ephemeris -/

namespace Ephem

variable (eph : Ephem ℝ)

/-- `pk` -/
noncomputable def argument (ek : ℝ) : ℝ :=
  atan2 (eph.sq1e2 * Real.sin ek) (Real.cos ek - eph.ecc) + eph.aop

/-- `uk` -/
noncomputable def latitude (pk : ℝ) : ℝ :=
  pk + eph.cus * Real.sin (2.0 * pk) + eph.cuc * Real.cos (2.0 * pk)

/-- `rk` -/
noncomputable def radius (oneMinusecosE pk : ℝ) : ℝ :=
  eph.A * oneMinusecosE + eph.crc * Real.cos (2.0 * pk) + eph.crs * Real.sin (2.0 * pk)

/-- `ik` -/
noncomputable def inclination (tk pk : ℝ) : ℝ :=
  eph.inc0 + eph.idot * tk + eph.cic * Real.cos (2.0 * pk) + eph.cis * Real.sin (2.0 * pk)

/-- `ok` -/
noncomputable def node (tk : ℝ) : ℝ :=
  eph.omg0 + tk * eph.omgkdot - omegaEarth * eph.toe.sec

/-- `pos` -/
noncomputable def position (tk : ℝ) (anomaly : Anomaly) : ℝ × ℝ × ℝ :=
  let pk := eph.argument anomaly.ek
  place (eph.radius anomaly.oneMinusecosE pk) (eph.latitude pk) (eph.inclination tk pk)
    (eph.node tk)

/-- `pkdot` -/
noncomputable def argumentRate (oneMinusecosE : ℝ) : ℝ :=
  eph.sq1e2 * (eph.n / oneMinusecosE) / oneMinusecosE

/-- `vel` -/
noncomputable def motion (tk : ℝ) (anomaly : Anomaly) : ℝ × ℝ × ℝ :=
  let pk := eph.argument anomaly.ek
  let pkdot := eph.argumentRate anomaly.oneMinusecosE
  let s2pk := Real.sin (2.0 * pk)
  let c2pk := Real.cos (2.0 * pk)
  velocity (eph.radius anomaly.oneMinusecosE pk) (eph.latitude pk) (eph.inclination tk pk)
    (eph.node tk)
    (eph.A * eph.ecc * Real.sin anomaly.ek * (eph.n / anomaly.oneMinusecosE) +
      2.0 * pkdot * (eph.crs * c2pk - eph.crc * s2pk))
    (pkdot * (1.0 + 2.0 * (eph.cus * c2pk - eph.cuc * s2pk)))
    (eph.idot + 2.0 * pkdot * (eph.cis * c2pk - eph.cic * s2pk))
    eph.omgkdot

section Doubles

variable (pk : ℝ)

theorem latitude_eq :
    eph.latitude pk = pk + (eph.cus * Real.sin (2 * pk) + eph.cuc * Real.cos (2 * pk)) := by
  rw [latitude, show (2.0 : ℝ) = 2 by norm_num, add_assoc]

theorem radius_eq (oneMinusecosE : ℝ) :
    eph.radius oneMinusecosE pk =
      eph.A * oneMinusecosE + eph.crc * Real.cos (2 * pk) + eph.crs * Real.sin (2 * pk) := by
  rw [radius, show (2.0 : ℝ) = 2 by norm_num]

theorem inclination_eq (tk : ℝ) :
    eph.inclination tk pk =
      eph.inc0 + eph.idot * tk + eph.cic * Real.cos (2 * pk) + eph.cis * Real.sin (2 * pk) := by
  rw [inclination, show (2.0 : ℝ) = 2 by norm_num]

end Doubles

/-- `relativistic` -/
noncomputable def relativistic (ek : ℝ) : ℝ :=
  -4.442807633E-10 * eph.ecc * eph.sqrta * Real.sin ek

/-- `clk[0]` -/
noncomputable def clock (g : GpsTime ℝ) (ek : ℝ) : ℝ :=
  let tk := halfWeek (g.sec - eph.toc.sec)
  eph.af0 + tk * (eph.af1 + tk * eph.af2) + eph.relativistic ek - eph.tgd

noncomputable def satellite (g : GpsTime ℝ) (tk : ℝ) (anomaly : Anomaly) : Satellite where
  pos := eph.position tk anomaly
  vel := eph.motion tk anomaly
  clk := (eph.clock g anomaly.ek, eph.af1 + 2.0 * halfWeek (g.sec - eph.toc.sec) * eph.af2)

end Ephem

/-- What `satpos` computes behind its loop. -/
theorem satelliteAt_eq (eph : Ephem ℝ) (g : GpsTime ℝ) (tk : ℝ) (anomaly : Anomaly)
    (nonzero : anomaly.oneMinusecosE ≠ 0) :
    satelliteAt eph g tk anomaly = some (eph.satellite g tk anomaly) := by
  rw [satelliteAt, quotient_eq nonzero]
  dsimp only [Option.bind_eq_bind, Option.bind_some]
  rw [quotient_eq nonzero]
  rfl

/-! ## The solution of Kepler's equation -/

/-- The eccentric anomaly that solves Kepler's equation, where there is one. -/
noncomputable def kepler (ecc mk : ℝ) : ℝ :=
  open Classical in
  if solvable : ∃ x, x - ecc * Real.sin x = mk then solvable.choose else mk

section Solution

variable {ecc : ℝ}

theorem kepler_solves (nonneg : 0 ≤ ecc) (mk : ℝ) :
    kepler ecc mk - ecc * Real.sin (kepler ecc mk) = mk := by
  have solvable := exists_solution nonneg mk
  rw [kepler, dif_pos solvable]
  exact solvable.choose_spec

/-- Kepler's equation keeps anomalies apart. -/
theorem mul_abs_sub_le (nonneg : 0 ≤ ecc) (x y : ℝ) :
    (1 - ecc) * |x - y| ≤ |(x - ecc * Real.sin x) - (y - ecc * Real.sin y)| := by
  have sines := mul_le_mul_of_nonneg_left (Real.abs_sin_sub_sin_le x y) nonneg
  have triangle := abs_sub_abs_le_abs_sub (x - y) (ecc * (Real.sin x - Real.sin y))
  rw [abs_mul, abs_of_nonneg nonneg] at triangle
  calc
    (1 - ecc) * |x - y| = |x - y| - ecc * |x - y| := by ring
    _ ≤ |x - y| - ecc * |Real.sin x - Real.sin y| := by linarith
    _ ≤ |x - y - ecc * (Real.sin x - Real.sin y)| := triangle
    _ = |(x - ecc * Real.sin x) - (y - ecc * Real.sin y)| := by ring_nf

theorem continuous_kepler (nonneg : 0 ≤ ecc) (below : ecc < 1) : Continuous (kepler ecc) := by
  have gap : 0 < 1 - ecc := sub_pos.mpr below
  apply LipschitzWith.continuous (K := (1 / (1 - ecc)).toNNReal)
  apply LipschitzWith.of_dist_le_mul
  intro a b
  have apart := mul_abs_sub_le nonneg (kepler ecc a) (kepler ecc b)
  rw [kepler_solves nonneg, kepler_solves nonneg] at apart
  rw [Real.dist_eq, Real.dist_eq, Real.coe_toNNReal _ (by positivity), one_div,
    ← div_eq_inv_mul, le_div_iff₀ gap, mul_comm]
  exact apart

/-- The eccentric anomaly changes faster where its denominator is smaller. -/
theorem hasDerivAt_kepler (nonneg : 0 ≤ ecc) (below : ecc < 1) (mk : ℝ) :
    HasDerivAt (kepler ecc) (keplerSlope ecc (kepler ecc mk))⁻¹ mk := by
  have equation : HasDerivAt (fun x => x - ecc * Real.sin x) (keplerSlope ecc (kepler ecc mk))
      (kepler ecc mk) := by
    have derivative := hasDerivAt_keplerError ecc 0 (kepler ecc mk)
    refine derivative.congr_of_eventuallyEq (.of_forall fun x => ?_)
    rw [keplerError, sub_zero]
  exact HasDerivAt.of_local_left_inverse (continuous_kepler nonneg below).continuousAt equation
    (keplerSlope_pos nonneg below _).ne' (.of_forall (kepler_solves nonneg))

/-- The loop ends at a value that solves Kepler's equation up to the square of its tolerance. -/
theorem exists_eccentricAnomaly_near (nonneg : 0 ≤ ecc) (small : ecc < 0.5) (mk : ℝ) :
    ∃ turns x anomaly, (∀ more ≥ turns, eccentricAnomaly more ecc mk = some anomaly) ∧
      anomaly.oneMinusecosE = keplerSlope ecc x ∧
      |anomaly.ek - kepler ecc mk| ≤ 1e-28 ∧
      |anomaly.oneMinusecosE - keplerSlope ecc (kepler ecc mk)| ≤ 1e-14 := by
  obtain ⟨k, near, settled⟩ := exists_eccentricAnomaly nonneg small mk
  set x := anomalies ecc mk k
  set y := anomalies ecc mk (k + 1)
  have below : ecc < 1 := by norm_num at small; linarith
  have step : y = x - keplerError ecc mk x / keplerSlope ecc x :=
    Newton.values_succ (keplerError ecc mk) (keplerSlope ecc) mk k
  have slope := keplerSlope_pos nonneg below x
  have tangent := Newton.abs_sub_tangent_le (hasDerivAt_keplerError ecc mk)
    (abs_keplerSlope_sub_le nonneg) nonneg x y
  have line : keplerError ecc mk y - keplerError ecc mk x - keplerSlope ecc x * (y - x) =
      keplerError ecc mk y := by
    rw [step]
    field_simp
    ring
  have residue : |keplerError ecc mk y| ≤ ecc * 1e-28 := by
    rw [line] at tangent
    have square := mul_le_mul near near (abs_nonneg _) (by norm_num)
    refine tangent.trans (mul_le_mul_of_nonneg_left ?_ nonneg)
    rw [sq]
    norm_num at square ⊢
    exact square
  have apart : (1 - ecc) * |y - kepler ecc mk| ≤ |keplerError ecc mk y| := by
    have distance := mul_abs_sub_le nonneg y (kepler ecc mk)
    rwa [kepler_solves nonneg] at distance
  have close : |y - kepler ecc mk| ≤ 1e-28 := by
    have positive := abs_nonneg (y - kepler ecc mk)
    norm_num at small residue ⊢
    nlinarith
  refine ⟨k + 1, x, _, fun more enough => settled more enough, rfl, close, ?_⟩
  have change := abs_keplerSlope_sub_le nonneg (kepler ecc mk) x
  have between := abs_sub_le x y (kepler ecc mk)
  rw [abs_sub_comm x y] at between
  change |keplerSlope ecc x - keplerSlope ecc (kepler ecc mk)| ≤ 1e-14
  have positive := abs_nonneg (x - kepler ecc mk)
  norm_num at small near close ⊢
  nlinarith

end Solution

/-! ## Motion along the orbit -/

/-- What `satpos` would return if its loop solved Kepler's equation. -/
noncomputable def exactAnomaly (eph : Ephem ℝ) (tk : ℝ) : Anomaly :=
  let ek := kepler eph.ecc (eph.m0 + eph.n * tk)
  { ek, oneMinusecosE := keplerSlope eph.ecc ek }

section Motion

variable {eph : Ephem ℝ} {ek : ℝ → ℝ} {ekdot t : ℝ}

/-- The squares of the legs of the triangle in the orbital plane. -/
theorem legs_sq (root : eph.sq1e2 = √(1 - eph.ecc * eph.ecc)) (nonneg : 0 ≤ eph.ecc)
    (below : eph.ecc < 1) (x : ℝ) :
    (Real.cos x - eph.ecc) * (Real.cos x - eph.ecc) +
        eph.sq1e2 * Real.sin x * (eph.sq1e2 * Real.sin x) =
      keplerSlope eph.ecc x * keplerSlope eph.ecc x := by
  have square : eph.sq1e2 * eph.sq1e2 = 1 - eph.ecc * eph.ecc := by
    rw [root]
    exact Real.mul_self_sqrt (by nlinarith)
  have circle := Real.sin_sq_add_cos_sq x
  rw [keplerSlope_eq]
  linear_combination Real.sin x ^ 2 * square + (1 - eph.ecc * eph.ecc) * circle

/-- `pk` turns at the rate `pkdot`. -/
theorem hasRate_argument (root : eph.sq1e2 = √(1 - eph.ecc * eph.ecc)) (nonneg : 0 ≤ eph.ecc)
    (below : eph.ecc < 1) (moves : HasDerivAt ek ekdot t) :
    HasRate (fun s => eph.argument (ek s))
      (eph.sq1e2 * ekdot / keplerSlope eph.ecc (ek t)) t := by
  have slope := keplerSlope_pos nonneg below (ek t)
  have dx := moves.cos.sub_const eph.ecc
  have dy := moves.sin.const_mul eph.sq1e2
  have legs := legs_sq root nonneg below (ek t)
  have apart : 0 < (Real.cos (ek t) - eph.ecc) * (Real.cos (ek t) - eph.ecc) +
      eph.sq1e2 * Real.sin (ek t) * (eph.sq1e2 * Real.sin (ek t)) := by
    rw [legs]
    exact mul_pos slope slope
  refine ((hasRate_arg dx dy apart).add_const eph.aop).congr_rate ?_
  have circle := Real.sin_sq_add_cos_sq (ek t)
  rw [legs, div_eq_div_iff (mul_pos slope slope).ne' slope.ne', keplerSlope_eq]
  linear_combination eph.sq1e2 * ekdot * (1 - eph.ecc * Real.cos (ek t)) * circle

/-- The velocity of a satellite whose `pk` turns at the rate `pkdot`. -/
noncomputable def Ephem.velocityAt (eph : Ephem ℝ) (tk : ℝ) (anomaly : Anomaly)
    (tkdot wdot pkdot : ℝ) : ℝ × ℝ × ℝ :=
  let pk := eph.argument anomaly.ek
  velocity (eph.radius anomaly.oneMinusecosE pk) (eph.latitude pk) (eph.inclination tk pk)
    (eph.node tk)
    (eph.A * wdot + 2 * pkdot * (eph.crs * Real.cos (2 * pk) - eph.crc * Real.sin (2 * pk)))
    (pkdot * (1 + 2 * (eph.cus * Real.cos (2 * pk) - eph.cuc * Real.sin (2 * pk))))
    (eph.idot * tkdot +
      2 * pkdot * (eph.cis * Real.cos (2 * pk) - eph.cic * Real.sin (2 * pk)))
    (eph.omgkdot * tkdot)

/-- `uk` turns when `pk` does. -/
theorem hasRate_latitude {pk : ℝ → ℝ} {pkdot : ℝ} (turns : HasRate pk pkdot t) :
    HasRate (fun s => eph.latitude (pk s))
      (pkdot * (1 + 2 * (eph.cus * Real.cos (2 * pk t) - eph.cuc * Real.sin (2 * pk t)))) t := by
  have twice := turns.two_mul
  have sum := turns.add ((twice.sin.const_mul eph.cus).add (twice.cos.const_mul eph.cuc))
  simp only [Ephem.latitude_eq]
  exact sum.congr_rate (by ring)

theorem hasDerivAt_inclination {tk pk : ℝ → ℝ} {tkdot pkdot : ℝ} (dtk : HasDerivAt tk tkdot t)
    (turns : HasRate pk pkdot t) :
    HasDerivAt (fun s => eph.inclination (tk s) (pk s))
      (eph.idot * tkdot +
        2 * pkdot * (eph.cis * Real.cos (2 * pk t) - eph.cic * Real.sin (2 * pk t))) t := by
  have twice := turns.two_mul
  have sum := (((dtk.const_mul eph.idot).const_add eph.inc0).add
    (twice.cos.const_mul eph.cic)).add (twice.sin.const_mul eph.cis)
  refine (sum.congr_deriv (by ring)).congr_of_eventuallyEq (.of_forall fun s => ?_)
  exact eph.inclination_eq _ _

theorem hasDerivAt_radius {w pk : ℝ → ℝ} {wdot pkdot : ℝ} (dw : HasDerivAt w wdot t)
    (turns : HasRate pk pkdot t) :
    HasDerivAt (fun s => eph.radius (w s) (pk s))
      (eph.A * wdot +
        2 * pkdot * (eph.crs * Real.cos (2 * pk t) - eph.crc * Real.sin (2 * pk t))) t := by
  have twice := turns.two_mul
  have sum := ((dw.const_mul eph.A).add (twice.cos.const_mul eph.crc)).add
    (twice.sin.const_mul eph.crs)
  refine (sum.congr_deriv (by ring)).congr_of_eventuallyEq (.of_forall fun s => ?_)
  exact eph.radius_eq _ _

theorem hasDerivAt_node {tk : ℝ → ℝ} {tkdot : ℝ} (dtk : HasDerivAt tk tkdot t) :
    HasDerivAt (fun s => eph.node (tk s)) (eph.omgkdot * tkdot) t := by
  have sum := ((dtk.mul_const eph.omgkdot).const_add eph.omg0).sub_const
    (omegaEarth * eph.toe.sec)
  exact sum.congr_deriv (mul_comm _ _)

/-- The derivative of a position along a curve of anomalies. -/
theorem hasDerivAt_position {tk w : ℝ → ℝ} {tkdot wdot : ℝ}
    (root : eph.sq1e2 = √(1 - eph.ecc * eph.ecc)) (nonneg : 0 ≤ eph.ecc) (below : eph.ecc < 1)
    (dtk : HasDerivAt tk tkdot t) (moves : HasDerivAt ek ekdot t) (dw : HasDerivAt w wdot t) :
    HasDerivAt (fun s => eph.position (tk s) ⟨ek s, w s⟩)
      (eph.velocityAt (tk t) ⟨ek t, w t⟩ tkdot wdot
        (eph.sq1e2 * ekdot / keplerSlope eph.ecc (ek t))) t := by
  have turns := hasRate_argument root nonneg below moves
  exact hasDerivAt_place (hasDerivAt_radius dw turns) (hasRate_latitude turns)
    (hasDerivAt_inclination dtk turns) (hasDerivAt_node dtk)

theorem motion_eq (eph : Ephem ℝ) (tk : ℝ) (anomaly : Anomaly) :
    eph.motion tk anomaly = eph.velocityAt tk anomaly 1
      (eph.ecc * Real.sin anomaly.ek * (eph.n / anomaly.oneMinusecosE))
      (eph.argumentRate anomaly.oneMinusecosE) := by
  simp only [Ephem.motion, Ephem.velocityAt, show (2.0 : ℝ) = 2 by norm_num,
    show (1.0 : ℝ) = 1 by norm_num, mul_one, mul_assoc]

/-- On the exact orbit the velocity is the derivative of the position. -/
theorem hasDerivAt_exact (root : eph.sq1e2 = √(1 - eph.ecc * eph.ecc)) (nonneg : 0 ≤ eph.ecc)
    (below : eph.ecc < 1) (tk : ℝ) :
    HasDerivAt (fun s => eph.position s (exactAnomaly eph s))
      (eph.motion tk (exactAnomaly eph tk)) tk := by
  have mean : HasDerivAt (fun s => eph.m0 + eph.n * s) eph.n tk := by
    have linear := ((hasDerivAt_id tk).const_mul eph.n).const_add eph.m0
    rwa [mul_one] at linear
  have moves := (hasDerivAt_kepler nonneg below (eph.m0 + eph.n * tk)).comp tk mean
  set ek := kepler eph.ecc (eph.m0 + eph.n * tk)
  have slope := keplerSlope_pos nonneg below ek
  have dw : HasDerivAt (fun s => keplerSlope eph.ecc (kepler eph.ecc (eph.m0 + eph.n * s)))
      (eph.ecc * Real.sin ek * (eph.n / keplerSlope eph.ecc ek)) tk := by
    have cosine := (moves.cos.const_mul eph.ecc).const_sub 1
    refine (cosine.congr_deriv ?_).congr_of_eventuallyEq (.of_forall fun s => ?_)
    · rw [div_eq_mul_inv]
      dsimp only [Function.comp_apply]
      ring
    · exact keplerSlope_eq _ _
  have derivative := hasDerivAt_position root nonneg below (hasDerivAt_id tk) moves dw
  rw [motion_eq]
  refine derivative.congr_deriv ?_
  have rate : eph.sq1e2 * ((keplerSlope eph.ecc ek)⁻¹ * eph.n) / keplerSlope eph.ecc ek =
      eph.argumentRate (keplerSlope eph.ecc ek) := by
    rw [Ephem.argumentRate, div_eq_mul_inv eph.n, mul_comm eph.n]
  dsimp only [Function.comp_apply, id_eq]
  rw [rate]
  rfl

end Motion

end Navisim
