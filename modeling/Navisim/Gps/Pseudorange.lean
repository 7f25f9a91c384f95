import Navisim.Gps.Exact
import Navisim.Gps.Ionosphere
import Navisim.Gps.Sight

/-!
# Pseudoranges

`computeRange`, in real numbers, from the satellite and the receiver to the pseudorange, the two
angles and the place of the antenna table.  For nominal ephemerides it returns whenever
`checkSatVisibility` says visible, with a range of a plausible size and with angles that give the
satellite back (`computeRange_of_visible`).
-/

namespace Navisim.Sight

open Motion Space RealMath Signal Perturbed

/-- `range_t` -/
structure Range where
  g : GpsTime ℝ
  range : ℝ
  rate : ℝ
  d : ℝ
  azel : ℝ × ℝ
  ionoDelay : ℝ

/-- The position at the transmission time: extrapolated backwards, and with the Earth rotation
correction. -/
noncomputable def atTransmission (pos vel : ℝ × ℝ × ℝ) (tau : ℝ) : ℝ × ℝ × ℝ :=
  let pos := (pos.1 - vel.1 * tau, pos.2.1 - vel.2.1 * tau, pos.2.2 - vel.2.2 * tau)
  let xrot := pos.1 + pos.2.1 * omegaEarth * tau
  let yrot := pos.2.1 - pos.1 * omegaEarth * tau
  (xrot, yrot, pos.2.2)

/-- `computeRange`, if its quotients are defined and its loops are done after at most `turns`
turns. -/
noncomputable def computeRange (turns : Nat) (eph : Ephem ℝ) (ionoutc : IonoUtc ℝ)
    (g : GpsTime ℝ) (xyz : ℝ × ℝ × ℝ) : Option Range := do
  -- SV position at time of the pseudorange observation.
  let { pos, vel, clk } ← satpos turns eph g
  -- Receiver to satellite vector and light-time.
  let los := subVect pos xyz
  let tau := normVect los / speedOfLight
  let pos := atTransmission pos vel tau
  -- New observer to satellite vector and satellite range.
  let los := subVect pos xyz
  let d := normVect los
  -- Pseudorange.
  let range := d - speedOfLight * clk.1
  -- Relative velocity of SV and receiver.
  let rate ← quotient (dotProd vel los) d
  -- Azimuth and elevation angles.
  let llh ← xyz2llh turns xyz
  let tmat := ltcmat llh
  let neu := ecef2neu los tmat
  let azel := neu2azel neu
  -- Add ionospheric delay
  let ionoDelay ← ionosphericDelay turns ionoutc g llh azel
  return { g, range := range + ionoDelay, rate, d, azel, ionoDelay }

/-- `ibs`, the place of an elevation in `ant_pat`. -/
noncomputable def ibs (elevation : ℝ) : Int :=
  castInt ((90.0 - elevation * r2d) / 5.0)

/-- The place is one of the 37 of the table, for every elevation. -/
theorem ibs_range {elevation : ℝ} (range : |elevation| ≤ Real.pi / 2) :
    0 ≤ ibs elevation ∧ ibs elevation ≤ 36 := by
  have bounds := abs_le.mp range
  have circle := Real.pi_lt_d20
  -- A right angle times `R2D` is above 90 by less than a thousandth.
  have right : Real.pi / 2 * r2d ≤ 90.001 := by
    norm_num [r2d] at circle ⊢
    linarith
  have positive := r2d_range.1
  have upper : elevation * r2d ≤ 90.001 :=
    (mul_le_mul_of_nonneg_right bounds.2 positive.le).trans right
  have lower : -90.001 ≤ elevation * r2d := by
    have least := mul_le_mul_of_nonneg_right bounds.1 positive.le
    rw [neg_mul] at least
    linarith
  apply castInt_range (by decide)
  · norm_num at upper ⊢
    linarith
  · push_cast
    norm_num at lower ⊢
    linarith

/-! ## The place of transmission -/

section Transmission

variable (pos vel : ℝ × ℝ × ℝ) (tau : ℝ)

theorem atTransmission_eq :
    atTransmission pos vel tau = pos - tau • vel -
      (omegaEarth * tau) • (-(pos - tau • vel).2.1, (pos - tau • vel).1, (0 : ℝ)) := by
  simp only [atTransmission, Prod.fst_sub, Prod.snd_sub, Prod.smul_fst, Prod.smul_snd,
    smul_eq_mul, Prod.ext_iff]
  refine ⟨?_, ?_, ?_⟩ <;> ring

/-- During the light-time the satellite and the Earth move little. -/
theorem length_atTransmission_sub_le (nonneg : 0 ≤ tau) (short : tau ≤ 0.13)
    (slow : length vel ≤ 14000) (near : length pos ≤ 31000000) :
    length (atTransmission pos vel tau - pos) ≤ 2200 := by
  set moved := pos - tau • vel with moved_eq
  have travel : length (tau • vel) ≤ 0.13 * 14000 := by
    rw [length_smul, abs_of_nonneg nonneg]
    exact mul_le_mul short slow (length_nonneg vel) (by norm_num)
  have place : length moved ≤ 31000000 + 0.13 * 14000 :=
    (length_sub_le _ _).trans (add_le_add near travel)
  have earth : |omegaEarth * tau| ≤ 8e-5 * 0.13 := by
    apply abs_mul_le_mul
    · norm_num [omegaEarth]
    · rwa [abs_of_nonneg nonneg]
  have turn : length ((omegaEarth * tau) • (-moved.2.1, moved.1, (0 : ℝ))) ≤
      8e-5 * 0.13 * (31000000 + 0.13 * 14000) := by
    rw [length_smul]
    exact mul_le_mul earth ((length_turned_le moved).trans place) (length_nonneg _) (by norm_num)
  have difference : atTransmission pos vel tau - pos =
      -(tau • vel) - (omegaEarth * tau) • (-moved.2.1, moved.1, (0 : ℝ)) := by
    rw [atTransmission_eq, ← moved_eq, sub_right_comm, moved_eq, sub_sub_cancel_left]
  rw [difference]
  refine (length_sub_le _ _).trans ?_
  rw [length_neg]
  norm_num at travel turn ⊢
  linarith

end Transmission

/-! ## The line of sight -/

/-- The line of sight of `computeRange`. -/
noncomputable def lineOfSight (satellite : Satellite) (xyz : ℝ × ℝ × ℝ) : ℝ × ℝ × ℝ :=
  subVect (atTransmission satellite.pos satellite.vel
    (normVect (subVect satellite.pos xyz) / speedOfLight)) xyz

section LineOfSight

variable {satellite : Satellite} {xyz : ℝ × ℝ × ℝ}

theorem light_eq : ((speedOfLight : ℚ) : ℝ) = 299792458 := by
  norm_num [speedOfLight]

theorem length_lineOfSight_sub_le (nominal : satellite.Nominal) (near : length xyz ≤ 7000000) :
    length (lineOfSight satellite xyz - (satellite.pos - xyz)) ≤ 2200 := by
  have distance : normVect (subVect satellite.pos xyz) ≤ 38000000 := by
    have sum := length_sub_le satellite.pos xyz
    have far := nominal.far
    rw [normVect_eq, subVect_eq]
    linarith
  have lightTime : 0 ≤ normVect (subVect satellite.pos xyz) / speedOfLight ∧
      normVect (subVect satellite.pos xyz) / speedOfLight ≤ 0.13 := by
    have nonneg : 0 ≤ normVect (subVect satellite.pos xyz) := length_nonneg _
    rw [light_eq]
    refine ⟨by positivity, ?_⟩
    rw [div_le_iff₀ (by norm_num)]
    norm_num
    linarith
  rw [lineOfSight, subVect_eq, sub_sub_sub_cancel_right]
  exact length_atTransmission_sub_le _ _ _ lightTime.1 lightTime.2 nominal.vel nominal.far

/-- The distance of a satellite. -/
theorem length_lineOfSight_range (nominal : satellite.Nominal) (near : length xyz ≤ 7000000) :
    14900000 ≤ length (lineOfSight satellite xyz) ∧
      length (lineOfSight satellite xyz) ≤ 38100000 := by
  have moved := length_lineOfSight_sub_le nominal near
  have above := sub_length_le satellite.pos xyz
  have below := length_sub_le satellite.pos xyz
  have split := length_add_le (lineOfSight satellite xyz - (satellite.pos - xyz))
    (satellite.pos - xyz)
  rw [sub_add_cancel] at split
  have split' := sub_length_le (satellite.pos - xyz) ((satellite.pos - xyz) -
    lineOfSight satellite xyz)
  rw [sub_sub_cancel, length_sub_comm _ (lineOfSight satellite xyz)] at split'
  have low := nominal.near
  have high := nominal.far
  constructor <;> linarith

end LineOfSight

/-! ## The pseudorange -/

/-- What `computeRange` returns for a nominal satellite. -/
structure Range.Plausible (r : Range) : Prop where
  range_ge : 14000000 ≤ r.range
  range_le : r.range ≤ 39100000
  rate : |r.rate| ≤ 14000
  d_ge : 14900000 ≤ r.d
  d_le : r.d ≤ 38100000
  azimuth : 0 ≤ r.azel.1 ∧ r.azel.1 < 2 * pi
  elevation : |r.azel.2| ≤ Real.pi / 2

section Pseudorange

variable {eph : Ephem ℝ} {ionoutc : IonoUtc ℝ} {xyz : ℝ × ℝ × ℝ}

/-- `computeRange` in terms of what it calls. -/
theorem computeRange_eq {turns : Nat} {g : GpsTime ℝ} {satellite : Satellite}
    {llh : ℝ × ℝ × ℝ} {delay : ℝ} (orbit : satpos turns eph g = some satellite)
    (place : xyz2llh turns xyz = some llh)
    (apart : length (lineOfSight satellite xyz) ≠ 0)
    (iono : ionosphericDelay turns ionoutc g llh
      (neu2azel (ecef2neu (lineOfSight satellite xyz) (ltcmat llh))) = some delay) :
    computeRange turns eph ionoutc g xyz = some
      { g
        range := length (lineOfSight satellite xyz) - speedOfLight * satellite.clk.1 + delay
        rate := dot satellite.vel (lineOfSight satellite xyz) /
          length (lineOfSight satellite xyz)
        d := length (lineOfSight satellite xyz)
        azel := neu2azel (ecef2neu (lineOfSight satellite xyz) (ltcmat llh))
        ionoDelay := delay } := by
  rw [computeRange, orbit]
  dsimp only [Option.bind_eq_bind, Option.bind_some]
  rw [← lineOfSight, normVect_eq, quotient_eq apart]
  dsimp only [Option.bind_some]
  rw [place]
  dsimp only [Option.bind_some]
  rw [iono]
  rfl

/-- What is returned is plausible, whatever the direction. -/
theorem plausible_of_nominal {g : GpsTime ℝ} {satellite : Satellite} (nominal : satellite.Nominal)
    (near : length xyz ≤ 7000000) (llh : ℝ × ℝ × ℝ) {delay : ℝ} (nonneg : 0 ≤ delay)
    (short : delay ≤ 25000) :
    Range.Plausible
      { g
        range := length (lineOfSight satellite xyz) - speedOfLight * satellite.clk.1 + delay
        rate := dot satellite.vel (lineOfSight satellite xyz) /
          length (lineOfSight satellite xyz)
        d := length (lineOfSight satellite xyz)
        azel := neu2azel (ecef2neu (lineOfSight satellite xyz) (ltcmat llh))
        ionoDelay := delay } := by
  obtain ⟨lower, upper⟩ := length_lineOfSight_range nominal near
  obtain ⟨azimuth, azimuth', elevation⟩ :=
    neu2azel_range (ecef2neu (lineOfSight satellite xyz) (ltcmat llh))
  have positive : 0 < length (lineOfSight satellite xyz) := by linarith
  have clock := abs_le.mp nominal.clk
  norm_num at clock
  refine ⟨?_, ?_, ?_, lower, upper, ⟨azimuth, azimuth'⟩, elevation⟩
  · dsimp only
    rw [light_eq]
    linarith
  · dsimp only
    rw [light_eq]
    linarith
  · dsimp only
    rw [abs_div, abs_of_pos positive, div_le_iff₀ positive]
    exact (abs_dot_le _ _).trans (mul_le_mul_of_nonneg_right nominal.vel positive.le)

/-- A satellite that was above the horizon is not far below it at the transmission time. -/
theorem elevation_of_visible {satellite : Satellite} (nominal : satellite.Nominal)
    (near : length xyz ≤ 7000000) (llh : ℝ × ℝ × ℝ)
    (above : 0 < dot (ltcmat llh 2) (satellite.pos - xyz)) :
    -2e-4 ≤ (neu2azel (ecef2neu (lineOfSight satellite xyz) (ltcmat llh))).2 := by
  obtain ⟨lower, -⟩ := length_lineOfSight_range nominal near
  obtain ⟨-, -, range⟩ := neu2azel_range (ecef2neu (lineOfSight satellite xyz) (ltcmat llh))
  have height := length_mul_sin_elevation llh (lineOfSight satellite xyz)
  have drop := abs_le.mp ((abs_dot_le (ltcmat llh 2)
    (lineOfSight satellite xyz - (satellite.pos - xyz))).trans_eq
      (by rw [length_up, one_mul]))
  have split : dot (ltcmat llh 2) (lineOfSight satellite xyz - (satellite.pos - xyz)) =
      dot (ltcmat llh 2) (lineOfSight satellite xyz) -
        dot (ltcmat llh 2) (satellite.pos - xyz) := by
    simp only [dot, Prod.fst_sub, Prod.snd_sub]
    ring
  have moved := length_lineOfSight_sub_le nominal near
  by_contra below
  have angle := not_le.mp below
  generalize (neu2azel (ecef2neu (lineOfSight satellite xyz) (ltcmat llh))).2 = el at *
  have sine : Real.sin el ≤ Real.sin (-2e-4) := by
    apply Real.sin_le_sin_of_le_of_le_pi_div_two (abs_le.mp range).1 _ angle.le
    have positive := Real.pi_pos
    norm_num
    linarith
  have small : (2e-4 : ℝ) - 2e-4 ^ 3 / 6 < Real.sin 2e-4 := Real.sin_gt_sub_cube (by norm_num)
  rw [Real.sin_neg] at sine
  norm_num at small sine
  nlinarith

end Pseudorange

/-- The direction in which the model of the ionosphere has no value. -/
def Undefined (ionoutc : IonoUtc ℝ) (azel : ℝ × ℝ) : Prop :=
  ionoutc.enable ≠ 0 ∧ ionoutc.vflg ≠ 0 ∧ azel.2 / pi + 0.11 = 0

/-- `computeRange` returns unless the model of the ionosphere has no value. -/
theorem exists_computeRange {eph : Ephem ℝ} {ionoutc : IonoUtc ℝ} {g : GpsTime ℝ}
    {xyz : ℝ × ℝ × ℝ} (nominal : eph.Nominal) (iono : NominalIono ionoutc)
    (inWeek : |g.sec - eph.toc.sec| ≤ 604800) (near : length xyz ≤ 7000000) :
    ∃ turns satellite llh, satellite.Nominal ∧
      (∀ more ≥ turns, satpos more eph g = some satellite ∧ xyz2llh more xyz = some llh) ∧
      (¬ Undefined ionoutc (neu2azel (ecef2neu (lineOfSight satellite xyz) (ltcmat llh))) →
        ∃ turns r, (∀ more ≥ turns, computeRange more eph ionoutc g xyz = some r) ∧
          r.Plausible ∧ r.d = length (lineOfSight satellite xyz) ∧
          r.azel = neu2azel (ecef2neu (lineOfSight satellite xyz) (ltcmat llh))) := by
  obtain ⟨turns, satellite, orbit, size⟩ := nominal.exists_satellite g inWeek
  obtain ⟨turns', llh, place⟩ := xyz2llh_returns xyz
  refine ⟨max turns turns', satellite, llh, size, fun more enough =>
    ⟨orbit more (le_of_max_le_left enough), place more (le_of_max_le_right enough)⟩,
    fun defined => ?_⟩
  obtain ⟨-, -, elevation⟩ := neu2azel_range (ecef2neu (lineOfSight satellite xyz) (ltcmat llh))
  have apart : length (lineOfSight satellite xyz) ≠ 0 := by
    have lower := (length_lineOfSight_range size near).1
    linarith
  have value : ionoutc.enable = 0 ∨ ionoutc.vflg = 0 ∨
      (neu2azel (ecef2neu (lineOfSight satellite xyz) (ltcmat llh))).2 / pi + 0.11 ≠ 0 := by
    unfold Undefined at defined
    tauto
  obtain ⟨turns'', delay, returned, nonneg, short⟩ := iono.exists_delay g llh elevation value
  exact ⟨max (max turns turns') turns'', _, fun more enough =>
    computeRange_eq (orbit more (le_of_max_le_left (le_of_max_le_left enough)))
      (place more (le_of_max_le_right (le_of_max_le_left enough))) apart
      (returned more (le_of_max_le_right enough)),
    plausible_of_nominal size near llh nonneg short, rfl, rfl⟩

/-- Whatever `computeRange` returns for a nominal satellite is plausible. -/
theorem plausible_of_returned {eph : Ephem ℝ} {ionoutc : IonoUtc ℝ} {g : GpsTime ℝ}
    {xyz : ℝ × ℝ × ℝ} {turns : Nat} {r : Range} (nominal : eph.Nominal)
    (iono : NominalIono ionoutc) (inWeek : |g.sec - eph.toc.sec| ≤ 604800)
    (near : length xyz ≤ 7000000)
    (returned : ∀ more ≥ turns, computeRange more eph ionoutc g xyz = some r) : r.Plausible := by
  obtain ⟨turns', satellite, llh, size, called, defined⟩ :=
    exists_computeRange nominal iono inWeek near
  have value : ¬ Undefined ionoutc
      (neu2azel (ecef2neu (lineOfSight satellite xyz) (ltcmat llh))) := by
    rintro ⟨enabled, model, pole⟩
    have here := returned (max turns turns') (le_max_left ..)
    obtain ⟨orbit, place⟩ := called (max turns turns') (le_max_right ..)
    have apart : length (lineOfSight satellite xyz) ≠ 0 := by
      have lower := (length_lineOfSight_range size near).1
      linarith
    rw [computeRange, orbit] at here
    dsimp only [Option.bind_eq_bind, Option.bind_some] at here
    rw [← lineOfSight, normVect_eq, quotient_eq apart] at here
    dsimp only [Option.bind_some] at here
    rw [place] at here
    dsimp only [Option.bind_some] at here
    rw [ionosphericDelay_undefined _ enabled model pole] at here
    cases here
  obtain ⟨turns'', r', returned', likely, -⟩ := defined value
  have same := (returned (max turns turns'') (le_max_left ..)).symm.trans
    (returned' (max turns turns'') (le_max_right ..))
  cases same
  exact likely

/-- **A visible satellite has a pseudorange.**  For every nominal ephemeris and every receiver
near the Earth: when `checkSatVisibility` says visible, `computeRange` returns at that time, with a
range, a rate and angles of plausible sizes.  The elevation is not below the horizon by more than
what the light-time makes up for, its place is in the antenna table, and distance and angles give
the place of the satellite back. -/
theorem computeRange_of_visible (eph : Ephem ℝ) (ionoutc : IonoUtc ℝ) (g : GpsTime ℝ)
    (xyz : ℝ × ℝ × ℝ) (azel azel' : ℝ × ℝ) (nominal : eph.Nominal) (iono : NominalIono ionoutc)
    (inWeek : |g.sec - eph.toc.sec| ≤ 604800) (near : length xyz ≤ 7000000)
    (visible : ∃ turns, ∀ more ≥ turns,
      checkSatVisibility more eph g xyz 0.0 azel = some (1, azel')) :
    ∃ turns llh los r, (∀ more ≥ turns, xyz2llh more xyz = some llh ∧
        computeRange more eph ionoutc g xyz = some r) ∧
      r.Plausible ∧ r.d = length los ∧
      -2e-4 ≤ r.azel.2 ∧ 0 ≤ ibs r.azel.2 ∧ ibs r.azel.2 ≤ 36 ∧
      length (los - fromAzel llh r.d r.azel) ≤ 3e-14 * r.d := by
  obtain ⟨turns, satellite, llh, size, called, defined⟩ :=
    exists_computeRange nominal iono inWeek near
  obtain ⟨turns', seen⟩ := visible
  have above : 0 < dot (ltcmat llh 2) (satellite.pos - xyz) := by
    have here := seen (max turns turns') (le_max_right ..)
    obtain ⟨orbit, place⟩ := called (max turns turns') (le_max_left ..)
    rw [checkSatVisibility] at here
    split at here
    · cases here
    · rw [orbit, place] at here
      dsimp only [Option.bind_eq_bind, Option.bind_some] at here
      split at here
      · rename_i high
        rw [show (0.0 : ℝ) = 0 by norm_num] at high
        have cone := (lt_elevation_iff llh _ le_rfl (by norm_num)).mp high
        rwa [zero_div, Real.sin_zero, mul_zero] at cone
      · cases here
  have elevation := elevation_of_visible size near llh above
  have value : ¬ Undefined ionoutc
      (neu2azel (ecef2neu (lineOfSight satellite xyz) (ltcmat llh))) := by
    rintro ⟨-, -, pole⟩
    have circle : (pi : ℝ) = 3.1415926535898 := rfl
    rw [circle, div_add' _ _ _ (by norm_num), div_eq_zero_iff] at pole
    norm_num at pole elevation
    linarith
  obtain ⟨turns'', r, returned, likely, d, angles⟩ := defined value
  have table := ibs_range likely.elevation
  refine ⟨max turns turns'', llh, lineOfSight satellite xyz, r, fun more enough =>
    ⟨(called more (le_of_max_le_left enough)).2, returned more (le_of_max_le_right enough)⟩,
    likely, d, ?_, table.1, table.2, ?_⟩
  · rw [angles]
    exact elevation
  · rw [d, angles]
    exact length_sub_fromAzel_le llh (lineOfSight satellite xyz)

/-! ## A satellite overhead -/

/-- A circular orbit in the plane of the equator. -/
def circularEphem : Ephem ℚ where
  vflg := 1
  t := ⟨2018, 5, 6, 0, 0, 0⟩
  toc := { week := 2000, sec := 0 }
  toe := { week := 2000, sec := 0 }
  iodc := 0
  iode := 0
  deltan := 0
  cuc := 0
  cus := 0
  cic := 0
  cis := 0
  crc := 0
  crs := 0
  ecc := 0
  sqrta := 5153.7
  m0 := 0
  omg0 := 0
  inc0 := 0
  aop := 0
  omgdot := 0
  idot := 0
  af0 := 1.0e-4
  af1 := 0
  af2 := 0
  tgd := 0
  svhlth := 0
  codeL2 := 1
  n := 1.4586e-4
  sq1e2 := 1
  A := 5153.7 * 5153.7
  omgkdot := -7.2921151467e-5

theorem circularEphem_inBounds : circularEphem.Plausible := by
  constructor <;> norm_num [circularEphem, abs_le]

theorem circularEphem_orbit : circularEphem.exact.orbit 0 = (5153.7 * 5153.7, 0, 0) := by
  have root : ∀ motion : ℝ, kepler 0 (0 + motion * 0) = 0 := by
    intro motion
    have solves := kepler_solves (le_refl (0 : ℝ)) (0 + motion * 0)
    rw [zero_mul, sub_zero, mul_zero, add_zero] at solves
    rwa [mul_zero, add_zero]
  have argument : circularEphem.exact.argument 0 = 0 := by
    simp [Ephem.argument, Ephem.exact, circularEphem, atan2, Complex.arg_eq_zero_iff]
  have anomaly : exactAnomaly circularEphem.exact 0 = ⟨0, 1⟩ := by
    simp only [exactAnomaly, Ephem.exact, circularEphem, Rat.cast_zero, root, keplerSlope_eq,
      zero_mul, sub_zero]
  rw [Ephem.orbit, anomaly, Ephem.position]
  dsimp only
  rw [argument, Ephem.radius_eq, Ephem.latitude_eq]
  simp [circularEphem, Ephem.exact, GpsTime.exact, place, Ephem.node]

/-- A receiver where the equator meets the prime meridian. -/
theorem xyz2llh_equator : ∃ h, ∀ more ≥ 1, xyz2llh more (6378137, 0, 0) = some (0, 0, h) := by
  have far : ¬ normVect (6378137, 0, 0) < eps := by norm_num [normVect, eps]
  have outside : (0 : ℝ) < 6378137 * 6378137 + 0 * 0 + (0 + 0) * (0 + 0) := by norm_num
  have level : nextOffset (6378137 * 6378137 + 0 * 0) 0 0 = 0 := by
    simp [nextOffset, sineOf, offset]
  have near : Near 0 (turnAt (6378137 * 6378137 + 0 * 0) 0 0).dzNew := by
    change |0 - nextOffset (6378137 * 6378137 + 0 * 0) 0 0| < eps
    rw [level, sub_zero, abs_zero]
    exact eps_pos
  have zero : atan2 (turnAt (6378137 * 6378137 + 0 * 0) 0 0).zdz √(6378137 * 6378137 + 0 * 0) = 0 :=
    Complex.arg_eq_zero_iff.mpr ⟨Real.sqrt_nonneg _, add_zero 0⟩
  have east : atan2 0 6378137 = 0 :=
    Complex.arg_eq_zero_iff.mpr ⟨by norm_num, rfl⟩
  refine ⟨(turnAt (6378137 * 6378137 + 0 * 0) 0 0).nh -
    (turnAt (6378137 * 6378137 + 0 * 0) 0 0).n, fun more enough => ?_⟩
  obtain ⟨more, rfl⟩ := Nat.exists_eq_succ_of_ne_zero (show more ≠ 0 by omega)
  rw [xyz2llh, if_neg far]
  dsimp only
  rw [mul_zero eccentricitySq, Settle.settle, turn_eq_turnAt outside (by norm_num)]
  dsimp only [Option.bind_some]
  rw [if_pos near]
  dsimp only [Option.bind_eq_bind, Option.bind_some]
  rw [root_eq (by norm_num)]
  dsimp only [Option.bind_some]
  rw [zero, east]
  rfl

/-- The satellite stands more than a degree above the horizon. -/
theorem overhead_visible : ∃ azel' turns, 1 < azel'.2 * r2d ∧ ∀ more ≥ turns,
    checkSatVisibility more circularEphem.exact { week := 2000, sec := 0 } (6378137, 0, 0) 0.0
      (0, 0) = some (1, azel') := by
  obtain ⟨turns, anomaly, close, returned⟩ :=
    circularEphem_inBounds.nominal.satpos_eq { week := 2000, sec := 0 }
  obtain ⟨h, place⟩ := xyz2llh_equator
  have time : halfWeek (0 - circularEphem.exact.toe.sec) = 0 := by
    norm_num [halfWeek, circularEphem, Ephem.exact, GpsTime.exact, secondsInHalfWeek]
  dsimp only at close returned
  rw [time] at close returned
  have near := circularEphem_inBounds.nominal.length_position_le close 0
  rw [← Ephem.orbit, circularEphem_orbit] at near
  set pos := circularEphem.exact.position 0 anomaly with pos_eq
  have x := abs_le.mp ((norm_fst_le _).trans ((norm_le_length _).trans near))
  have above : length (pos - (6378137, 0, 0)) * Real.sin (1 / r2d) <
      dot (ltcmat (0, 0, h) 2) (pos - (6378137, 0, 0)) := by
    have sine : Real.sin (1 / r2d) ≤ 0.0175 := by
      refine (Real.sin_le (div_nonneg zero_le_one r2d_range.1.le)).trans ?_
      norm_num [r2d]
    have distance : length (pos - (6378137, 0, 0)) ≤ 5153.7 * 5153.7 + 1 := by
      have split : pos - (6378137, 0, 0) =
          pos - (5153.7 * 5153.7, 0, 0) +
            (5153.7 * 5153.7 - 6378137 : ℝ) • ((1 : ℝ), (0 : ℝ), (0 : ℝ)) := by
        ext <;> simp
      have unit : length ((1 : ℝ), (0 : ℝ), (0 : ℝ)) = 1 := by simp [length, dot]
      rw [split]
      refine (length_add_le _ _).trans ?_
      rw [length_smul, unit, abs_of_pos (by norm_num)]
      norm_num at near ⊢
      linarith
    have low : length (pos - (6378137, 0, 0)) * Real.sin (1 / r2d) ≤
        (5153.7 * 5153.7 + 1) * 0.0175 :=
      (mul_le_mul_of_nonneg_left sine (length_nonneg _)).trans
        (mul_le_mul_of_nonneg_right distance (by norm_num))
    have height : dot (ltcmat (0, 0, h) 2) (pos - (6378137, 0, 0)) = pos.1 - 6378137 := by
      simp [ltcmat, dot]
    rw [height]
    simp only [Prod.fst_sub] at x
    norm_num at x low ⊢
    linarith
  have high := (lt_elevation_iff (0, 0, h) _ zero_le_one (by norm_num)).mpr above
  refine ⟨neu2azel (ecef2neu (pos - (6378137, 0, 0)) (ltcmat (0, 0, h))), max turns 1, high,
    fun more enough => ?_⟩
  rw [checkSatVisibility, if_neg (by norm_num [circularEphem, Ephem.exact]),
    place more (le_of_max_le_right enough), returned more (le_of_max_le_left enough)]
  dsimp only [Option.bind_eq_bind, Option.bind_some]
  rw [show (0.0 : ℝ) = 0 by norm_num]
  exact if_pos (zero_lt_one.trans high)

theorem computeRange_of_visible_overhead :
    ∃ turns llh los r, (∀ more ≥ turns, xyz2llh more (6378137, 0, 0) = some llh ∧
        computeRange more circularEphem.exact quietIono { week := 2000, sec := 0 }
          (6378137, 0, 0) = some r) ∧
      r.Plausible ∧ r.d = length los ∧
      -2e-4 ≤ r.azel.2 ∧ 0 ≤ ibs r.azel.2 ∧ ibs r.azel.2 ≤ 36 ∧
      length (los - fromAzel llh r.d r.azel) ≤ 3e-14 * r.d := by
  obtain ⟨azel', turns, -, visible⟩ := overhead_visible
  have receiver : length (6378137, 0, 0) ≤ 7000000 :=
    length_le (by norm_num) (by norm_num [dot])
  have iono : NominalIono quietIono := by
    constructor <;> norm_num [quietIono, abs_le]
  exact computeRange_of_visible circularEphem.exact quietIono { week := 2000, sec := 0 }
    (6378137, 0, 0) (0, 0) azel' circularEphem_inBounds.nominal iono
    (by norm_num [circularEphem, Ephem.exact, GpsTime.exact]) receiver ⟨turns, visible⟩

end Navisim.Sight
