import Navisim.Lib.Rotation
import Navisim.Signal.Tracking

/-!
# The carrier

The tables of the carrier hold the cosines and sines of the middles of 512 steps, times 250 and
rounded.  So a channel sends the cosine and sine of its carrier phase up to less than a hundredth
of the amplitude (`abs_contribution_sub_le`).
-/

namespace Navisim.Signal

open Rotation

/-! ## The tables -/

/-- The entries of both tables. -/
def carrierTable : List (Int × Int) :=
  cosTable512.toList.zip sinTable512.toList

/-- The unit that points of the circle are computed in. -/
def carrierScale : Nat :=
  1099511627776

/-- The middle of the first step, in this unit. -/
def carrierStart : Int × Int :=
  (1099490929780, 6746476518)

/-- One step. -/
def carrierStep : Int × Int :=
  (1099428836573, 13492699036)

theorem carrierTable_checked :
    traces carrierScale 250 552000000000 carrierStep carrierTable carrierStart = true ∧
      carrierTable.length = 512 := by
  rw [carrierTable, cosTable512, sinTable512, Array.toList_flatten, Array.toList_flatten]
  decide +kernel

theorem length_carrierTable : carrierTable.length = 512 :=
  carrierTable_checked.2

/-- Points for small angles. -/
theorem norm_point_sub_unit_le {z : Int × Int} {angle c s : ℝ} (small : |angle| ≤ 1)
    (cosine : |(z.1 : ℝ) / carrierScale - (1 - angle ^ 2 / 2)| ≤ c)
    (sine : |(z.2 : ℝ) / carrierScale - (angle - angle ^ 3 / 6)| ≤ s) :
    ‖point carrierScale z - unit angle‖ ≤ c + s + |angle| ^ 4 * (5 / 96) + |angle| ^ 5 / 100 := by
  have first := abs_le.mp (Real.cos_bound small)
  have second := abs_le.mp (Real.sin_bound small)
  have re : |(point carrierScale z - unit angle).re| ≤ c + |angle| ^ 4 * (5 / 96) := by
    change |(z.1 : ℝ) / carrierScale - Real.cos angle| ≤ _
    rw [abs_le] at cosine ⊢
    constructor <;> linarith
  have im : |(point carrierScale z - unit angle).im| ≤ s + |angle| ^ 5 / 100 := by
    change |(z.2 : ℝ) / carrierScale - Real.sin angle| ≤ _
    rw [abs_le] at sine ⊢
    constructor <;> linarith
  calc ‖point carrierScale z - unit angle‖
      ≤ |(point carrierScale z - unit angle).re| + |(point carrierScale z - unit angle).im| :=
        Complex.norm_le_abs_re_add_abs_im _
    _ ≤ (c + |angle| ^ 4 * (5 / 96)) + (s + |angle| ^ 5 / 100) := add_le_add re im
    _ = c + s + |angle| ^ 4 * (5 / 96) + |angle| ^ 5 / 100 := by ring

theorem pi_bounds : 3.14159265358 ≤ Real.pi ∧ Real.pi ≤ 3.1415926536 :=
  ⟨by linarith [Real.pi_gt_d20], by linarith [Real.pi_lt_d20]⟩

/-- Points for the angle of a step, or of a part of one. -/
theorem norm_point_sub_unit_pi_div_le {z : Int × Int} {n : ℝ} (many : 256 ≤ n)
    (cosine : |(z.1 : ℝ) / carrierScale - (1 - (Real.pi / n) ^ 2 / 2)| ≤ 2e-9)
    (sine : |(z.2 : ℝ) / carrierScale - (Real.pi / n - (Real.pi / n) ^ 3 / 6)| ≤ 1e-9) :
    ‖point carrierScale z - unit (Real.pi / n)‖ ≤ 1e-8 := by
  have positive : 0 < Real.pi / n := by positivity
  have small : Real.pi / n ≤ 0.0123 := by
    rw [div_le_iff₀ (by linarith)]
    linarith [pi_bounds.2]
  have fourth : (Real.pi / n) ^ 4 ≤ 0.0123 ^ 4 := pow_le_pow_left₀ positive.le small 4
  have fifth : (Real.pi / n) ^ 5 ≤ 0.0123 ^ 5 := pow_le_pow_left₀ positive.le small 5
  have abs_angle : |Real.pi / n| = Real.pi / n := abs_of_pos positive
  have near := norm_point_sub_unit_le (by rw [abs_angle]; linarith) cosine sine
  rw [abs_angle] at near
  norm_num at fourth fifth near ⊢
  linarith

theorem pi_sq_bounds : 9.8696044 ≤ Real.pi ^ 2 ∧ Real.pi ^ 2 ≤ 9.8696045 := by
  obtain ⟨lower, upper⟩ := pi_bounds
  constructor <;> nlinarith

theorem pi_cube_bounds : 31.00627668 ≤ Real.pi ^ 3 ∧ Real.pi ^ 3 ≤ 31.00627669 := by
  obtain ⟨lower, upper⟩ := pi_bounds
  obtain ⟨below, above⟩ := pi_sq_bounds
  constructor <;> nlinarith

theorem carrierStart_near : ‖point carrierScale carrierStart - unit (Real.pi / 512)‖ ≤ 1e-8 := by
  obtain ⟨lower, upper⟩ := pi_bounds
  obtain ⟨lower2, upper2⟩ := pi_sq_bounds
  obtain ⟨lower3, upper3⟩ := pi_cube_bounds
  refine norm_point_sub_unit_pi_div_le (by norm_num) ?_ ?_
  · norm_num [div_pow, abs_le, carrierStart, carrierScale]
    constructor <;> linarith
  · norm_num [div_pow, abs_le, carrierStart, carrierScale]
    constructor <;> linarith

theorem carrierStep_near : ‖point carrierScale carrierStep - unit (Real.pi / 256)‖ ≤ 1e-8 := by
  obtain ⟨lower, upper⟩ := pi_bounds
  obtain ⟨lower2, upper2⟩ := pi_sq_bounds
  obtain ⟨lower3, upper3⟩ := pi_cube_bounds
  refine norm_point_sub_unit_pi_div_le le_rfl ?_ ?_
  · norm_num [div_pow, abs_le, carrierStep, carrierScale]
    constructor <;> linarith
  · norm_num [div_pow, abs_le, carrierStep, carrierScale]
    constructor <;> linarith

theorem carrierTable_getElem? {k : Nat} (inside : k < 512) :
    carrierTable[k]? = some (cosTable512.getD k 0, sinTable512.getD k 0) := by
  have length : k < carrierTable.length := by rwa [length_carrierTable]
  obtain ⟨first, second⟩ : k < cosTable512.toList.length ∧ k < sinTable512.toList.length := by
    rwa [carrierTable, List.length_zip, lt_inf_iff] at length
  rw [Array.length_toList] at first second
  rw [List.getElem?_eq_getElem length]
  simp [carrierTable, Array.getD_eq_getD_getElem?, first, second]

/-- **The tables are those of the carrier.** -/
theorem carrier_entry {k : Nat} (inside : k < 512) :
    |(cosTable512.getD k 0 : ℝ) - 250 * Real.cos ((2 * k + 1) * Real.pi / 512)| ≤ 0.51 ∧
      |(sinTable512.getD k 0 : ℝ) - 250 * Real.sin ((2 * k + 1) * Real.pi / 512)| ≤ 0.51 := by
  have place := carrierTable_getElem? inside
  have angle : Real.pi / 512 + k * (Real.pi / 256) = (2 * k + 1) * Real.pi / 512 := by ring
  have positive : 0 < carrierScale := by decide
  have scale : (carrierScale : ℝ) = 1099511627776 := by norm_num [carrierScale]
  have total : (1e-8 : ℝ) + carrierTable.length * (2 * 1e-8 + 2 / carrierScale) ≤ 1 := by
    rw [length_carrierTable, scale]
    norm_num
  have entry := abs_sub_of_traces positive (by decide) carrierTable_checked.1 carrierStart_near
    carrierStep_near total place
  have few : (k : ℝ) ≤ 512 := by exact_mod_cast inside.le
  have bound : ((552000000000 : Int) : ℝ) / carrierScale +
      250 * (1e-8 + k * (2 * 1e-8 + 2 / carrierScale)) ≤ 0.51 := by
    rw [scale]
    norm_num
    linarith
  rw [angle, Int.cast_ofNat] at entry
  dsimp only at entry
  exact ⟨entry.1.trans bound, entry.2.trans bound⟩

/-! ## The phase of a channel -/

/-- The carrier phase of a channel, in cycles. -/
def cycles (chan : Channel) : ℚ :=
  chan.carrPhase.toNat / 2 ^ 25

/-- The angle of the carrier phase. -/
noncomputable def carrierAngle (chan : Channel) : ℝ :=
  (2 * cycles chan : ℚ) * Real.pi

/-- The middle of the step that is read lies half a step from the phase at most, up to whole
turns. -/
theorem exists_turns (chan : Channel) : ∃ turns : Nat,
    |(2 * (iTable chan : ℝ) + 1) * Real.pi / 512 - (carrierAngle chan - turns * (2 * Real.pi))| ≤
      Real.pi / 512 := by
  obtain ⟨whole, part, below, phase⟩ : ∃ whole part, part < 2 ^ 25 ∧
      chan.carrPhase.toNat = whole * 2 ^ 25 + part :=
    ⟨_, _, Nat.mod_lt _ (by decide), (Nat.div_add_mod' _ _).symm⟩
  have index : iTable chan = part / 2 ^ 16 := by
    rw [iTable_eq, phase]
    omega
  have lower : iTable chan * 65536 ≤ part := by omega
  have upper : part ≤ iTable chan * 65536 + 65536 := by omega
  have lower' : (iTable chan : ℝ) * 65536 ≤ part := by exact_mod_cast lower
  have upper' : (part : ℝ) ≤ (iTable chan : ℝ) * 65536 + 65536 := by exact_mod_cast upper
  have value : (2 * (iTable chan : ℝ) + 1) * Real.pi / 512 -
      (carrierAngle chan - whole * (2 * Real.pi)) =
        Real.pi / 512 * ((2 * iTable chan + 1) - part / 32768) := by
    rw [carrierAngle, cycles, phase]
    push_cast
    ring
  refine ⟨whole, ?_⟩
  rw [value, abs_mul, abs_of_pos (by positivity)]
  refine mul_le_of_le_one_right (by positivity) ?_
  rw [abs_le]
  constructor <;> linarith

theorem carrier_read (chan : Channel) :
    |(cosTable512.getD (iTable chan) 0 : ℝ) - 250 * Real.cos (carrierAngle chan)| ≤ 2.05 ∧
      |(sinTable512.getD (iTable chan) 0 : ℝ) - 250 * Real.sin (carrierAngle chan)| ≤ 2.05 := by
  have inside : iTable chan < 512 := by
    rw [iTable_eq]
    omega
  obtain ⟨cosine, sine⟩ := carrier_entry inside
  obtain ⟨turns, near⟩ := exists_turns chan
  have cosine' := (Real.abs_cos_sub_cos_le _ _).trans near
  have sine' := (Real.abs_sin_sub_sin_le _ _).trans near
  rw [Real.cos_sub_nat_mul_two_pi] at cosine'
  rw [Real.sin_sub_nat_mul_two_pi] at sine'
  have half := Real.pi_lt_d4
  rw [abs_le] at cosine sine cosine' sine' ⊢
  rw [abs_le]
  constructor <;> constructor <;> linarith

end Navisim.Signal
