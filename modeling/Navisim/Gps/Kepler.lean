import Navisim.Gps.Ephemeris
import Navisim.Lib.Newton
import Navisim.Lib.RealMath

/-!
# Satellite positions

`satpos`, in real numbers.  Its loop is Newton's method for Kepler's equation, started at the mean
anomaly; for the eccentricities of the broadcast it converges, so that `satpos` returns
(`keplerLoop_converges`, `satpos_returns`).
-/

namespace Navisim

open RealMath Settle Filter Topology

def secondsInHalfWeek : ℚ := 302400.0

/-! ## Kepler's equation -/

/-- The eccentric anomaly, and the denominator it was computed with. -/
structure Anomaly where
  ek : ℝ
  oneMinusecosE : ℝ

/-- The body of the loop, if its quotient is defined. -/
noncomputable def keplerTurn (ecc mk ekold : ℝ) : Option Anomaly := do
  let oneMinusecosE := 1.0 - ecc * Real.cos ekold
  let change ← quotient (mk - ekold + ecc * Real.sin ekold) oneMinusecosE
  return { ek := ekold + change, oneMinusecosE }

/-- `fabs(ek-ekold)>1.0E-14` does not hold. -/
def Settled (ekold ek : ℝ) : Prop :=
  |ek - ekold| ≤ 1.0E-14

noncomputable instance : DecidableRel Settled := fun _ _ => Classical.propDecidable _

/-- The loop, if it is done after at most `turns` turns. -/
noncomputable def keplerLoop (ecc mk : ℝ) : (turns : Nat) → Anomaly → (ekold : ℝ) → Option Anomaly
  | 0, now, ekold => if Settled ekold now.ek then some now else none
  | turns + 1, now, ekold =>
      if Settled ekold now.ek then some now
      else do
        let next ← keplerTurn ecc mk now.ek
        keplerLoop ecc mk turns next now.ek

/-- The loop with what is in front of it. -/
noncomputable def eccentricAnomaly (turns : Nat) (ecc mk : ℝ) : Option Anomaly :=
  let ek := mk
  let ekold := ek + 1.0
  let oneMinusecosE := 0 -- Suppress the uninitialized warning.
  keplerLoop ecc mk turns { ek, oneMinusecosE } ekold

/-! ## The satellite -/

/-- What `satpos` returns. -/
structure Satellite where
  pos : ℝ × ℝ × ℝ
  vel : ℝ × ℝ × ℝ
  clk : ℝ × ℝ

/-- A time difference, brought into half a week. -/
noncomputable def halfWeek (tk : ℝ) : ℝ :=
  if tk > secondsInHalfWeek then tk - secondsInWeek
  else if tk < -secondsInHalfWeek then tk + secondsInWeek
  else tk

/-- What `satpos` computes behind its loop, if its quotients are defined. -/
noncomputable def satelliteAt (eph : Ephem ℝ) (g : GpsTime ℝ) (tk : ℝ) (anomaly : Anomaly) :
    Option Satellite := do
  let { ek, oneMinusecosE } := anomaly
  let sek := Real.sin ek
  let cek := Real.cos ek
  let ekdot ← quotient eph.n oneMinusecosE
  let relativistic := -4.442807633E-10 * eph.ecc * eph.sqrta * sek
  let pk := atan2 (eph.sq1e2 * sek) (cek - eph.ecc) + eph.aop
  let pkdot ← quotient (eph.sq1e2 * ekdot) oneMinusecosE
  let s2pk := Real.sin (2.0 * pk)
  let c2pk := Real.cos (2.0 * pk)
  let uk := pk + eph.cus * s2pk + eph.cuc * c2pk
  let suk := Real.sin uk
  let cuk := Real.cos uk
  let ukdot := pkdot * (1.0 + 2.0 * (eph.cus * c2pk - eph.cuc * s2pk))
  let rk := eph.A * oneMinusecosE + eph.crc * c2pk + eph.crs * s2pk
  let rkdot := eph.A * eph.ecc * sek * ekdot + 2.0 * pkdot * (eph.crs * c2pk - eph.crc * s2pk)
  let ik := eph.inc0 + eph.idot * tk + eph.cic * c2pk + eph.cis * s2pk
  let sik := Real.sin ik
  let cik := Real.cos ik
  let ikdot := eph.idot + 2.0 * pkdot * (eph.cis * c2pk - eph.cic * s2pk)
  let xpk := rk * cuk
  let ypk := rk * suk
  let xpkdot := rkdot * cuk - ypk * ukdot
  let ypkdot := rkdot * suk + xpk * ukdot
  let ok := eph.omg0 + tk * eph.omgkdot - omegaEarth * eph.toe.sec
  let sok := Real.sin ok
  let cok := Real.cos ok
  let pos0 := xpk * cok - ypk * cik * sok
  let pos1 := xpk * sok + ypk * cik * cok
  let pos2 := ypk * sik
  let tmp := ypkdot * cik - ypk * sik * ikdot
  let vel0 := -eph.omgkdot * pos1 + xpkdot * cok - tmp * sok
  let vel1 := eph.omgkdot * pos0 + xpkdot * sok + tmp * cok
  let vel2 := ypk * cik * ikdot + ypkdot * sik
  -- Satellite clock correction
  let tk := halfWeek (g.sec - eph.toc.sec)
  let clk0 := eph.af0 + tk * (eph.af1 + tk * eph.af2) + relativistic - eph.tgd
  let clk1 := eph.af1 + 2.0 * tk * eph.af2
  return { pos := (pos0, pos1, pos2), vel := (vel0, vel1, vel2), clk := (clk0, clk1) }

/-- `satpos`, if its loop is done after at most `turns` turns. -/
noncomputable def satpos (turns : Nat) (eph : Ephem ℝ) (g : GpsTime ℝ) : Option Satellite := do
  let tk := halfWeek (g.sec - eph.toe.sec)
  let mk := eph.m0 + eph.n * tk
  let anomaly ← eccentricAnomaly turns eph.ecc mk
  satelliteAt eph g tk anomaly

/-! ## The equation -/

/-- How far `x` is from the solution of Kepler's equation. -/
noncomputable def keplerError (ecc mk x : ℝ) : ℝ :=
  x - ecc * Real.sin x - mk

/-- Its derivative. -/
noncomputable def keplerSlope (ecc x : ℝ) : ℝ :=
  1.0 - ecc * Real.cos x

section Equation

variable {ecc mk x y : ℝ}

theorem keplerSlope_eq (ecc x : ℝ) : keplerSlope ecc x = 1 - ecc * Real.cos x := by
  rw [keplerSlope, show (1.0 : ℝ) = 1 by norm_num]

theorem hasDerivAt_keplerError (ecc mk x : ℝ) :
    HasDerivAt (keplerError ecc mk) (keplerSlope ecc x) x := by
  have derivative := ((hasDerivAt_id x).sub ((Real.hasDerivAt_sin x).const_mul ecc)).sub_const mk
  rw [keplerSlope_eq]
  exact derivative

theorem abs_keplerSlope_sub_le (nonneg : 0 ≤ ecc) (x y : ℝ) :
    |keplerSlope ecc y - keplerSlope ecc x| ≤ ecc * |y - x| := by
  calc
    |keplerSlope ecc y - keplerSlope ecc x| = |ecc * (Real.cos x - Real.cos y)| := by
      rw [keplerSlope_eq, keplerSlope_eq, mul_sub, sub_sub_sub_cancel_left]
    _ = ecc * |Real.cos x - Real.cos y| := by rw [abs_mul, abs_of_nonneg nonneg]
    _ ≤ ecc * |x - y| := mul_le_mul_of_nonneg_left (Real.abs_cos_sub_cos_le x y) nonneg
    _ = ecc * |y - x| := by rw [abs_sub_comm]

/-- The denominator of the loop does not come near zero. -/
theorem le_keplerSlope (nonneg : 0 ≤ ecc) (x : ℝ) : 1 - ecc ≤ keplerSlope ecc x := by
  have product : ecc * Real.cos x ≤ ecc * 1 :=
    mul_le_mul_of_nonneg_left (Real.cos_le_one x) nonneg
  rw [keplerSlope_eq]
  linarith

theorem keplerSlope_pos (nonneg : 0 ≤ ecc) (below : ecc < 1) (x : ℝ) : 0 < keplerSlope ecc x :=
  (sub_pos.mpr below).trans_le (le_keplerSlope nonneg x)

/-- Every solution lies near the mean anomaly. -/
theorem abs_sub_le_of_solution (nonneg : 0 ≤ ecc) (solution : x - ecc * Real.sin x = mk) :
    |mk - x| ≤ ecc := by
  calc
    |mk - x| = ecc * |Real.sin x| := by
      rw [← solution, sub_sub_cancel_left, abs_neg, abs_mul, abs_of_nonneg nonneg]
    _ ≤ ecc * 1 := mul_le_mul_of_nonneg_left (Real.abs_sin_le_one x) nonneg
    _ = ecc := mul_one ecc

/-- Kepler's equation has a solution. -/
theorem exists_solution (nonneg : 0 ≤ ecc) (mk : ℝ) : ∃ x, x - ecc * Real.sin x = mk := by
  have continuous : Continuous fun x => x - ecc * Real.sin x :=
    continuous_id.sub (continuous_const.mul Real.continuous_sin)
  have low : mk - ecc - ecc * Real.sin (mk - ecc) ≤ mk := by
    have product : ecc * -1 ≤ ecc * Real.sin (mk - ecc) :=
      mul_le_mul_of_nonneg_left (Real.neg_one_le_sin _) nonneg
    linarith
  have high : mk ≤ mk + ecc - ecc * Real.sin (mk + ecc) := by
    have product : ecc * Real.sin (mk + ecc) ≤ ecc * 1 :=
      mul_le_mul_of_nonneg_left (Real.sin_le_one _) nonneg
    linarith
  exact mem_range_of_exists_le_of_exists_ge continuous ⟨_, low⟩ ⟨_, high⟩

/-- Kepler's equation has one solution only. -/
theorem solution_unique (nonneg : 0 ≤ ecc) (below : ecc < 1) (left : x - ecc * Real.sin x = mk)
    (right : y - ecc * Real.sin y = mk) : x = y := by
  have distance : |x - y| ≤ ecc * |x - y| := by
    calc
      |x - y| = |ecc * (Real.sin x - Real.sin y)| := by
        rw [show x - y = ecc * (Real.sin x - Real.sin y) by linarith]
      _ = ecc * |Real.sin x - Real.sin y| := by rw [abs_mul, abs_of_nonneg nonneg]
      _ ≤ ecc * |x - y| := mul_le_mul_of_nonneg_left (Real.abs_sin_sub_sin_le x y) nonneg
  by_contra different
  have apart : 0 < |x - y| := abs_pos.mpr (sub_ne_zero.mpr different)
  have shrinks : ecc * |x - y| < 1 * |x - y| := mul_lt_mul_of_pos_right below apart
  linarith

end Equation

/-! ## The loop -/

/-- The values of `ek`. -/
noncomputable def anomalies (ecc mk : ℝ) : Nat → ℝ :=
  Newton.values (keplerError ecc mk) (keplerSlope ecc) mk

section Loop

variable {ecc mk x : ℝ} {turns : Nat} {now : Anomaly} {ekold : ℝ}

/-- A turn of the loop is a step of Newton's method. -/
theorem keplerTurn_eq (nonneg : 0 ≤ ecc) (below : ecc < 1) (x : ℝ) :
    keplerTurn ecc mk x = some
      { ek := Newton.step (keplerError ecc mk) (keplerSlope ecc) x
        oneMinusecosE := keplerSlope ecc x } := by
  have step : Newton.step (keplerError ecc mk) (keplerSlope ecc) x =
      x + (mk - x + ecc * Real.sin x) / keplerSlope ecc x := by
    rw [Newton.step, keplerError, sub_eq_add_neg, ← neg_div]
    ring_nf
  rw [step, keplerTurn, ← keplerSlope, quotient_eq (keplerSlope_pos nonneg below x).ne']
  rfl

theorem anomalies_values (nonneg : 0 ≤ ecc) (below : ecc < 1) (mk : ℝ) :
    Values (keplerTurn ecc mk) Anomaly.ek (anomalies ecc mk) fun k =>
      { ek := anomalies ecc mk (k + 1)
        oneMinusecosE := keplerSlope ecc (anomalies ecc mk k) } := by
  constructor
  · intro k
    rw [keplerTurn_eq nonneg below, anomalies, Newton.values_succ]
  · intro k
    rfl

/-- From values that are apart, the loop of the source is the loop that settles. -/
theorem keplerLoop_eq_settle (apart : ¬ Settled ekold now.ek) :
    keplerLoop ecc mk turns now ekold =
      settle (keplerTurn ecc mk) Anomaly.ek Settled turns now.ek := by
  induction turns generalizing now ekold with
  | zero => rw [keplerLoop, if_neg apart, settle]
  | succ turns ih =>
      rw [keplerLoop, if_neg apart, settle]
      apply Option.bind_congr
      intro next _
      by_cases near : Settled now.ek next.ek
      · rw [if_pos near]
        cases turns with
        | zero => rw [keplerLoop, if_pos near]
        | succ turns => rw [keplerLoop, if_pos near]
      · rw [if_neg near, ih near]

/-- In front of the loop the two values are apart. -/
theorem eccentricAnomaly_eq_settle :
    eccentricAnomaly turns ecc mk =
      settle (keplerTurn ecc mk) Anomaly.ek Settled turns mk := by
  apply keplerLoop_eq_settle
  norm_num [Settled]

/-- The values of `ek` tend to the solution. -/
theorem tendsto_anomalies (nonneg : 0 ≤ ecc) (small : ecc < 0.5)
    (solution : x - ecc * Real.sin x = mk) : Tendsto (anomalies ecc mk) atTop (𝓝 x) := by
  norm_num at small
  have zero : keplerError ecc mk x = 0 := by rw [keplerError, solution, sub_self]
  have steep : ∀ y, 1 - ecc ≤ |keplerSlope ecc y| := fun y =>
    (le_keplerSlope nonneg y).trans (le_abs_self _)
  -- `1 - ecc` is at least a half, and `ecc * ecc` at most a quarter.
  have quarter : ecc * ecc ≤ 1 / 2 * (1 - ecc) := by nlinarith
  exact Newton.tendsto_values (hasDerivAt_keplerError ecc mk)
    (fun y z => abs_keplerSlope_sub_le nonneg y z) nonneg (by linarith) steep zero
    (abs_sub_le_of_solution nonneg solution) quarter (by norm_num) (by norm_num)

/-- The loop ends, and every result is one of the values. -/
theorem exists_eccentricAnomaly (nonneg : 0 ≤ ecc) (small : ecc < 0.5) (mk : ℝ) :
    ∃ k, |anomalies ecc mk (k + 1) - anomalies ecc mk k| ≤ 1.0E-14 ∧
      ∀ turns > k, eccentricAnomaly turns ecc mk = some
        { ek := anomalies ecc mk (k + 1)
          oneMinusecosE := 1.0 - ecc * Real.cos (anomalies ecc mk k) } := by
  obtain ⟨x, solution⟩ := exists_solution nonneg mk
  have below : ecc < 1 := by norm_num at small; linarith
  have close : ∃ k, Settled (anomalies ecc mk k) (anomalies ecc mk (k + 1)) :=
    exists_close_of_tendsto (tendsto_anomalies nonneg small solution) (by norm_num)
  obtain ⟨k, near, settled⟩ := exists_settle (anomalies_values nonneg below mk) close
  refine ⟨k, near, fun turns enough => ?_⟩
  rw [eccentricAnomaly_eq_settle]
  exact settled turns enough

end Loop

/-! ## The end of the loop -/

section Ends

variable {ecc mk : ℝ} {eph : Ephem ℝ}

/-- **The iteration of `satpos` converges.**  For every mean anomaly and every eccentricity from
zero up to a half, no turn divides by zero, the values of `ek` tend to the one solution of Kepler's
equation, and the loop ends at two values that differ by `1.0E-14` at most. -/
theorem keplerLoop_converges (ecc mk : ℝ) (nonneg : 0 ≤ ecc) (small : ecc < 0.5) :
    (∀ x, 1.0 - ecc * Real.cos x ≠ 0) ∧
    ∃ (ek : Nat → ℝ) (solution : ℝ), ek 0 = mk ∧
      (∀ k, keplerTurn ecc mk (ek k) = some
        { ek := ek (k + 1), oneMinusecosE := 1.0 - ecc * Real.cos (ek k) }) ∧
      (∀ x, x - ecc * Real.sin x = mk ↔ x = solution) ∧
      Tendsto ek atTop (𝓝 solution) ∧
      ∃ k, |ek (k + 1) - ek k| ≤ 1.0E-14 ∧ ∀ turns > k, eccentricAnomaly turns ecc mk = some
        { ek := ek (k + 1), oneMinusecosE := 1.0 - ecc * Real.cos (ek k) } := by
  have below : ecc < 1 := by norm_num at small; linarith
  obtain ⟨solution, solves⟩ := exists_solution nonneg mk
  have unique : ∀ x, x - ecc * Real.sin x = mk ↔ x = solution := by
    intro x
    refine ⟨fun other => solution_unique nonneg below other solves, ?_⟩
    rintro rfl
    exact solves
  exact ⟨fun x => (keplerSlope_pos nonneg below x).ne', anomalies ecc mk, solution, rfl,
    (anomalies_values nonneg below mk).turn_eq, unique, tendsto_anomalies nonneg small solves,
    exists_eccentricAnomaly nonneg small mk⟩

/-- An eccentricity of a tenth, a mean anomaly of one radian. -/
theorem keplerLoop_converges_tenth :
    (∀ x, 1.0 - 0.1 * Real.cos x ≠ 0) ∧
    ∃ (ek : Nat → ℝ) (solution : ℝ), ek 0 = 1 ∧
      (∀ k, keplerTurn 0.1 1 (ek k) = some
        { ek := ek (k + 1), oneMinusecosE := 1.0 - 0.1 * Real.cos (ek k) }) ∧
      (∀ x, x - 0.1 * Real.sin x = 1 ↔ x = solution) ∧
      Tendsto ek atTop (𝓝 solution) ∧
      ∃ k, |ek (k + 1) - ek k| ≤ 1.0E-14 ∧ ∀ turns > k, eccentricAnomaly turns 0.1 1 = some
        { ek := ek (k + 1), oneMinusecosE := 1.0 - 0.1 * Real.cos (ek k) } :=
  keplerLoop_converges 0.1 1 (by norm_num) (by norm_num)

/-- Behind the loop, only the denominator has to be other than zero. -/
theorem exists_satelliteAt (eph : Ephem ℝ) (g : GpsTime ℝ) (tk : ℝ) (anomaly : Anomaly)
    (nonzero : anomaly.oneMinusecosE ≠ 0) :
    ∃ satellite, satelliteAt eph g tk anomaly = some satellite := by
  rw [satelliteAt, quotient_eq nonzero]
  dsimp only [Option.bind_eq_bind, Option.bind_some]
  rw [quotient_eq nonzero]
  exact ⟨_, rfl⟩

/-- **`satpos` returns**, for every such eccentricity. -/
theorem satpos_returns (eph : Ephem ℝ) (g : GpsTime ℝ) (nonneg : 0 ≤ eph.ecc)
    (small : eph.ecc < 0.5) :
    ∃ turns satellite, ∀ more ≥ turns, satpos more eph g = some satellite := by
  have below : eph.ecc < 1 := by norm_num at small; linarith
  let tk := halfWeek (g.sec - eph.toe.sec)
  obtain ⟨k, -, settled⟩ := exists_eccentricAnomaly nonneg small (eph.m0 + eph.n * tk)
  obtain ⟨satellite, returned⟩ :=
    exists_satelliteAt eph g tk ⟨_, _⟩ (keplerSlope_pos nonneg below _).ne'
  refine ⟨k + 1, satellite, fun more enough => ?_⟩
  rw [satpos, settled more enough]
  exact returned

end Ends

end Navisim
