import Mathlib.Order.Monotone.Odd
import Navisim.Lib.RealMath
import Navisim.Lib.Settle
import Navisim.Motion.Point

/-!
# Cartesian to geodetic coordinates

The iteration of `xyz2llh`, in real numbers.  A turn makes of `dz` the offset of the point where
the normal of the ellipsoid crosses the axis; it rises with `dz` and stays inside bounds, so the
values only rise or only fall, and the loop ends (`xyz2llh_ends`).
-/

namespace Navisim.Motion

open RealMath Settle

/-- `eps` -/
noncomputable def eps : ℝ := 1.0e-3

noncomputable def normVect (xyz : ℝ × ℝ × ℝ) : ℝ :=
  √(xyz.1 * xyz.1 + xyz.2.1 * xyz.2.1 + xyz.2.2 * xyz.2.2)

/-- What a turn of the loop computes. -/
structure Turn where
  zdz : ℝ
  nh : ℝ
  slat : ℝ
  n : ℝ
  dzNew : ℝ

/-- A turn of `while (1)`, if its roots and quotients are defined. -/
noncomputable def turn (rho2 z dz : ℝ) : Option Turn := do
  let a : ℝ := wgs84Radius
  let e2 := eccentricitySq
  let zdz := z + dz
  let nh ← root (rho2 + zdz * zdz)
  let slat ← quotient zdz nh
  let s ← root (1.0 - e2 * slat * slat)
  let n ← quotient a s
  return { zdz, nh, slat, n, dzNew := n * e2 * slat }

/-- `fabs(dz-dz_new) < eps` -/
def Near (dz dzNew : ℝ) : Prop :=
  |dz - dzNew| < eps

noncomputable instance : DecidableRel Near := fun _ _ => Classical.propDecidable _

/-- `xyz2llh`, if it is done after at most `turns` turns of its loop. -/
noncomputable def xyz2llh (turns : Nat) (xyz : ℝ × ℝ × ℝ) : Option (ℝ × ℝ × ℝ) :=
  open Classical in
  if normVect xyz < eps then
    -- Invalid ECEF vector
    some (0, 0, -wgs84Radius)
  else do
    let x := xyz.1
    let y := xyz.2.1
    let z := xyz.2.2
    let rho2 := x * x + y * y
    let last ← settle (turn rho2 z) Turn.dzNew Near turns (eccentricitySq * z)
    let rho ← root rho2
    return (atan2 last.zdz rho, atan2 y x, last.nh - last.n)

/-! ## The sine of the latitude -/

/-- `slat`, for a distance `rho2` from the axis (squared) and a height `t` along it. -/
noncomputable def sineOf (rho2 t : ℝ) : ℝ :=
  t / √(rho2 + t * t)

section Sine

variable {rho2 t t' s s' : ℝ}

theorem sineOf_neg (rho2 t : ℝ) : sineOf rho2 (-t) = -sineOf rho2 t := by
  rw [sineOf, sineOf, neg_mul_neg, neg_div]

theorem sineOf_nonneg (rho2 : ℝ) (nonneg : 0 ≤ t) : 0 ≤ sineOf rho2 t :=
  div_nonneg nonneg (Real.sqrt_nonneg _)

theorem sineOf_le_one (axis : 0 ≤ rho2) (t : ℝ) : sineOf rho2 t ≤ 1 := by
  apply div_le_one_of_le₀ _ (Real.sqrt_nonneg _)
  apply Real.le_sqrt_of_sq_le
  rw [sq]
  linarith

/-- The sine rises with the height. -/
theorem sineOf_le (axis : 0 ≤ rho2) (nonneg : 0 ≤ t) (le : t ≤ t') :
    sineOf rho2 t ≤ sineOf rho2 t' := by
  rcases nonneg.eq_or_lt with rfl | positive
  · rw [sineOf, zero_div]
    exact sineOf_nonneg rho2 le
  · have positive' : 0 < t' := positive.trans_le le
    have inside : 0 < rho2 + t * t := by positivity
    have inside' : 0 < rho2 + t' * t' := by positivity
    rw [sineOf, sineOf, div_le_div_iff₀ (Real.sqrt_pos.mpr inside) (Real.sqrt_pos.mpr inside')]
    rw [← pow_le_pow_iff_left₀ (by positivity) (by positivity) two_ne_zero, mul_pow, mul_pow,
      Real.sq_sqrt inside.le, Real.sq_sqrt inside'.le]
    have squares : t ^ 2 ≤ t' ^ 2 := pow_le_pow_left₀ nonneg le 2
    have weighted : t ^ 2 * rho2 ≤ t' ^ 2 * rho2 := mul_le_mul_of_nonneg_right squares axis
    linarith

end Sine

/-! ## The offset along the axis -/

/-- `dz_new`, for the sine of a latitude. -/
noncomputable def offset (s : ℝ) : ℝ :=
  wgs84Radius / √(1.0 - eccentricitySq * s * s) * eccentricitySq * s

/-- The bound of the offset: that of the pole. -/
noncomputable def offsetBound : ℝ :=
  wgs84Radius * eccentricitySq / √(1 - eccentricitySq)

section Offset

variable {s s' : ℝ}

theorem wgs84Radius_pos : (0 : ℝ) < wgs84Radius := by
  norm_num [wgs84Radius]

theorem offset_neg (s : ℝ) : offset (-s) = -offset s := by
  rw [offset, offset, mul_assoc eccentricitySq, neg_mul_neg, mul_assoc eccentricitySq, mul_neg]

theorem offset_nonneg (nonneg : 0 ≤ s) : 0 ≤ offset s := by
  have radius := wgs84Radius_pos
  have eccentricity := eccentricitySq_range.1
  unfold offset
  positivity

/-- The radicand is positive for every sine. -/
theorem radicand_pos (nonneg : 0 ≤ s) (le_one : s ≤ 1) : 0 < 1.0 - eccentricitySq * s * s := by
  obtain ⟨eccentricity, small⟩ := eccentricitySq_range
  have square : s * s ≤ 1 := mul_le_one₀ le_one nonneg le_one
  have product : eccentricitySq * (s * s) ≤ eccentricitySq * 1 :=
    mul_le_mul_of_nonneg_left square eccentricity
  norm_num at small ⊢
  linarith

/-- The offset rises with the sine. -/
theorem offset_le (nonneg : 0 ≤ s) (le : s ≤ s') (le_one : s' ≤ 1) : offset s ≤ offset s' := by
  have radius := wgs84Radius_pos
  have eccentricity := eccentricitySq_range.1
  have nonneg' := nonneg.trans le
  have positive' := radicand_pos nonneg' le_one
  have product : eccentricitySq * s * s ≤ eccentricitySq * s' * s' := by gcongr
  have roots : √(1.0 - eccentricitySq * s' * s') ≤ √(1.0 - eccentricitySq * s * s) :=
    Real.sqrt_le_sqrt (by linarith)
  have positive : 0 < √(1.0 - eccentricitySq * s' * s') := Real.sqrt_pos.mpr positive'
  unfold offset
  gcongr

theorem offset_one : offset 1 = offsetBound := by
  rw [offset, offsetBound, show (1.0 : ℝ) = 1 by norm_num, mul_one, mul_one, mul_one,
    div_mul_eq_mul_div]

end Offset

/-! ## A turn of the loop -/

/-- `dz_new` of a turn. -/
noncomputable def nextOffset (rho2 z dz : ℝ) : ℝ :=
  offset (sineOf rho2 (z + dz))

/-- The values of `dz`. -/
noncomputable def offsets (rho2 z : ℝ) (k : Nat) : ℝ :=
  (nextOffset rho2 z)^[k] (eccentricitySq * z)

section Turns

variable {rho2 z dz t : ℝ} {k : Nat}

theorem offset_sineOf_monotone (axis : 0 ≤ rho2) : Monotone fun t => offset (sineOf rho2 t) := by
  apply monotone_of_odd_of_monotoneOn_nonneg
  · intro t
    rw [sineOf_neg, offset_neg]
  · intro t nonneg t' _ le
    exact offset_le (sineOf_nonneg rho2 nonneg) (sineOf_le axis nonneg le) (sineOf_le_one axis t')

/-- A turn keeps the order of two values. -/
theorem nextOffset_monotone (axis : 0 ≤ rho2) (z : ℝ) : Monotone (nextOffset rho2 z) :=
  fun _ _ le => offset_sineOf_monotone axis (add_le_add_right le z)

/-- The offset is bounded by that of the pole. -/
theorem abs_offset_le (axis : 0 ≤ rho2) (t : ℝ) : |offset (sineOf rho2 t)| ≤ offsetBound := by
  have bound : ∀ t, 0 ≤ t → |offset (sineOf rho2 t)| ≤ offsetBound := by
    intro t nonneg
    have sine := sineOf_nonneg rho2 nonneg
    rw [abs_of_nonneg (offset_nonneg sine), ← offset_one]
    exact offset_le sine (sineOf_le_one axis t) le_rfl
  rcases le_total 0 t with nonneg | nonpos
  · exact bound t nonneg
  · have mirrored := bound (-t) (neg_nonneg.mpr nonpos)
    rwa [sineOf_neg, offset_neg, abs_neg] at mirrored

/-- The offset points to the side of the point. -/
theorem mul_offset_nonneg (rho2 t : ℝ) : 0 ≤ t * offset (sineOf rho2 t) := by
  rcases le_total 0 t with nonneg | nonpos
  · exact mul_nonneg nonneg (offset_nonneg (sineOf_nonneg rho2 nonneg))
  · have mirrored := mul_nonneg (neg_nonneg.mpr nonpos)
      (offset_nonneg (sineOf_nonneg rho2 (neg_nonneg.mpr nonpos)))
    rwa [sineOf_neg, offset_neg, neg_mul_neg] at mirrored

/-- A turn whose point is not the centre of the Earth is defined. -/
theorem turn_eq (outside : 0 < rho2 + (z + dz) * (z + dz)) (axis : 0 ≤ rho2) :
    ∃ result, turn rho2 z dz = some result ∧ result.dzNew = nextOffset rho2 z dz := by
  have nonzero : √(rho2 + (z + dz) * (z + dz)) ≠ 0 := (Real.sqrt_pos.mpr outside).ne'
  have square : sineOf rho2 (z + dz) * sineOf rho2 (z + dz) =
      sineOf rho2 |z + dz| * sineOf rho2 |z + dz| := by
    rcases abs_choice (z + dz) with same | mirrored
    · rw [same]
    · rw [mirrored, sineOf_neg, neg_mul_neg]
  have radicand : 0 < 1.0 - eccentricitySq * sineOf rho2 (z + dz) * sineOf rho2 (z + dz) := by
    rw [mul_assoc, square, ← mul_assoc]
    exact radicand_pos (sineOf_nonneg rho2 (abs_nonneg _)) (sineOf_le_one axis _)
  let s := sineOf rho2 (z + dz)
  refine ⟨⟨z + dz, √(rho2 + (z + dz) * (z + dz)), s,
    wgs84Radius / √(1.0 - eccentricitySq * s * s), nextOffset rho2 z dz⟩, ?_, rfl⟩
  rw [turn, root_eq outside.le]
  dsimp only [Option.bind_eq_bind, Option.bind_some]
  rw [quotient_eq nonzero]
  dsimp only [Option.bind_some]
  rw [← sineOf, root_eq radicand.le]
  dsimp only [Option.bind_some]
  rw [quotient_eq (Real.sqrt_pos.mpr radicand).ne']
  rfl

/-- An offset on the side of `z` leads to the next one on this side. -/
theorem mul_nextOffset_nonneg (same : 0 ≤ z * dz) : 0 ≤ z * nextOffset rho2 z dz := by
  have side := mul_offset_nonneg rho2 (z + dz)
  rw [← nextOffset] at side
  rcases lt_trichotomy z 0 with below | centre | above
  · have offset_nonpos : dz ≤ 0 := nonpos_of_mul_nonneg_right same below
    exact mul_nonneg_of_nonpos_of_nonpos below.le
      (nonpos_of_mul_nonneg_right side (by linarith))
  · rw [centre, zero_mul]
  · have offset_nonneg : 0 ≤ dz := nonneg_of_mul_nonneg_right same above
    exact mul_nonneg above.le (nonneg_of_mul_nonneg_right side (by linarith))

theorem offsets_succ (rho2 z : ℝ) (k : Nat) :
    offsets rho2 z (k + 1) = nextOffset rho2 z (offsets rho2 z k) :=
  Function.iterate_succ_apply' ..

/-- The values of `dz` stay on the side of the point. -/
theorem mul_offsets_nonneg (rho2 z : ℝ) (k : Nat) : 0 ≤ z * offsets rho2 z k := by
  induction k with
  | zero =>
      have eccentricity := eccentricitySq_range.1
      rw [offsets, Function.iterate_zero, id_eq, mul_left_comm]
      exact mul_nonneg eccentricity (mul_self_nonneg z)
  | succ k ih =>
      rw [offsets_succ]
      exact mul_nextOffset_nonneg ih

/-- The loop never comes to the centre of the Earth. -/
theorem offsets_outside (axis : 0 ≤ rho2) (far : 0 < rho2 + z * z) (k : Nat) :
    0 < rho2 + (z + offsets rho2 z k) * (z + offsets rho2 z k) := by
  by_cases equator : z = 0
  · rw [equator, mul_zero, add_zero] at far
    exact add_pos_of_pos_of_nonneg far (mul_self_nonneg _)
  · have height : 0 < z * (z + offsets rho2 z k) := by
      rw [mul_add]
      exact add_pos_of_pos_of_nonneg (mul_self_pos.mpr equator) (mul_offsets_nonneg rho2 z k)
    exact add_pos_of_nonneg_of_pos axis (mul_self_pos.mpr (right_ne_zero_of_mul height.ne'))

end Turns

/-! ## The end of the loop -/

section Ends

variable {xyz : ℝ × ℝ × ℝ}

theorem eps_pos : 0 < eps := by
  norm_num [eps]

/-- A vector that is long enough is not zero. -/
theorem normSq_pos (far : eps ≤ normVect xyz) :
    0 < xyz.1 * xyz.1 + xyz.2.1 * xyz.2.1 + xyz.2.2 * xyz.2.2 :=
  Real.sqrt_pos.mp (eps_pos.trans_le far)

/-- **The iteration of `xyz2llh` ends.**  For every vector that is long enough, all turns are
defined, the values of `dz` only rise or only fall and are bounded from the second one on, and
with enough turns the function returns. -/
theorem xyz2llh_ends (xyz : ℝ × ℝ × ℝ) (far : eps ≤ normVect xyz) :
    ∃ dz : Nat → ℝ, dz 0 = eccentricitySq * xyz.2.2 ∧
      (∀ k, ∃ result, turn (xyz.1 * xyz.1 + xyz.2.1 * xyz.2.1) xyz.2.2 (dz k) = some result ∧
        result.dzNew = dz (k + 1)) ∧
      (Monotone dz ∨ Antitone dz) ∧
      (∀ k, |dz (k + 1)| ≤ wgs84Radius * eccentricitySq / √(1 - eccentricitySq)) ∧
      ∃ turns llh, ∀ more ≥ turns, xyz2llh more xyz = some llh := by
  have positive := normSq_pos far
  have axis : 0 ≤ xyz.1 * xyz.1 + xyz.2.1 * xyz.2.1 :=
    add_nonneg (mul_self_nonneg _) (mul_self_nonneg _)
  generalize rho2_eq : xyz.1 * xyz.1 + xyz.2.1 * xyz.2.1 = rho2 at positive axis
  have defined : ∀ k, ∃ result, turn rho2 xyz.2.2 (offsets rho2 xyz.2.2 k) = some result ∧
      result.dzNew = offsets rho2 xyz.2.2 (k + 1) := by
    intro k
    rw [offsets_succ]
    exact turn_eq (offsets_outside axis positive k) axis
  have ordered : Monotone (offsets rho2 xyz.2.2) ∨ Antitone (offsets rho2 xyz.2.2) :=
    monotone_or_antitone_iterate (nextOffset_monotone axis xyz.2.2) _
  have bounded : ∀ k, |offsets rho2 xyz.2.2 (k + 1)| ≤ offsetBound := by
    intro k
    rw [offsets_succ]
    exact abs_offset_le axis _
  refine ⟨offsets rho2 xyz.2.2, rfl, defined, ordered, bounded, ?_⟩
  choose result turn_eq next_eq using defined
  have inside : ∀ k, 1 ≤ k → -offsetBound ≤ offsets rho2 xyz.2.2 k ∧
      offsets rho2 xyz.2.2 k ≤ offsetBound := by
    intro k behind
    obtain ⟨k, rfl⟩ := Nat.exists_eq_add_of_le' behind
    exact abs_le.mp (bounded k)
  have close : ∃ k, Near (offsets rho2 xyz.2.2 k) (offsets rho2 xyz.2.2 (k + 1)) :=
    exists_close_of_ordered ordered inside eps_pos
  obtain ⟨k, -, settled⟩ := exists_settle ⟨turn_eq, next_eq⟩ close
  refine ⟨k + 1, (atan2 (result k).zdz √rho2, atan2 xyz.2.1 xyz.1,
    (result k).nh - (result k).n), fun more enough => ?_⟩
  rw [xyz2llh, if_neg (not_lt.mpr far)]
  dsimp only
  rw [rho2_eq, show eccentricitySq * xyz.2.2 = offsets rho2 xyz.2.2 0 from rfl,
    settled more enough, root_eq axis]
  rfl

/-- A point near the centre of the Earth, on the polar axis. -/
theorem xyz2llh_ends_axis :
    ∃ dz : Nat → ℝ, dz 0 = eccentricitySq * 1 ∧
      (∀ k, ∃ result, turn (0 * 0 + 0 * 0) 1 (dz k) = some result ∧
        result.dzNew = dz (k + 1)) ∧
      (Monotone dz ∨ Antitone dz) ∧
      (∀ k, |dz (k + 1)| ≤ wgs84Radius * eccentricitySq / √(1 - eccentricitySq)) ∧
      ∃ turns llh, ∀ more ≥ turns, xyz2llh more (0, 0, 1) = some llh :=
  xyz2llh_ends (0, 0, 1) (by norm_num [eps, normVect])

end Ends

end Navisim.Motion
