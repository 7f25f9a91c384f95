import Navisim.Loop.Nominal
import Navisim.Signal.Carrier

/-!
# The waveform

What the samples of a run add up to.  The carrier phase of a channel counts the wavelengths by
which the pseudorange of its satellite gets shorter (`carrier_counts_wavelengths`), and a sample is
the sum of the carriers of all channels, each with its gain, data bit and chip, up to the
rounding of the tables and of the sample itself (`sample_of_carriers`).
-/

namespace Navisim.Loop

open Nav Signal RealTime

/-! ## The carrier phase -/

/-- The pseudorange in a sample, on the way from the last one of the channel to the current one. -/
def Scenario.rangeAt (sc : Scenario) (n isamp i : Nat) : ℚ :=
  ((sc.gen n).chan i).rho0.range + isamp / 200000 *
    ((sc.sampled n 0 i).rho0.range - ((sc.gen n).chan i).rho0.range)

section Carrier

variable {sc : Scenario} {n i isamp : Nat}

/-- The step of the carrier phase is rounded to units of `2 ^ -25` cycles. -/
theorem carrPhasestep_near (inside : i < maxChan) (active : 0 < ((sc.gen n).chan i).prn) :
    |((sc.sampled n 0 i).carrPhasestep : ℚ) + 2 ^ 25 *
      (((sc.sampled n 0 i).rho0.range - ((sc.gen n).chan i).rho0.range) / sc.lambda / 200000)| ≤
        1 / 2 := by
  have first : sc.sampled n 0 i =
      sc.refreshChannel (sc.gen n).ieph (sc.gen n).grx (n + 1) ((sc.gen n).chan i) :=
    refresh_chan inside
  have frequency : (sc.sampled n 0 i).fCarr =
      -(((sc.sampled n 0 i).rho0.range - ((sc.gen n).chan i).rho0.range) / 0.1) / sc.lambda := by
    rw [first, Scenario.refreshChannel, if_pos active]
    rfl
  have step : (sc.sampled n 0 i).carrPhasestep =
      trunc (round (512.0 * 65536.0 * (sc.sampled n 0 i).fCarr * delt)) := by
    rw [first, Scenario.refreshChannel, if_pos active]
  obtain ⟨m, rounded⟩ := round_eq_intCast (512.0 * 65536.0 * (sc.sampled n 0 i).fCarr * delt)
  have near := abs_round_sub_le (512.0 * 65536.0 * (sc.sampled n 0 i).fCarr * delt)
  have value : 512.0 * 65536.0 * (sc.sampled n 0 i).fCarr * delt = -(2 ^ 25 *
      (((sc.sampled n 0 i).rho0.range - ((sc.gen n).chan i).rho0.range) / sc.lambda / 200000)) := by
    have scale : (512.0 : ℚ) * 65536.0 = 2 ^ 25 := by norm_num
    have tenth : (0.1 : ℚ) = 1 / 10 := by norm_num
    rw [frequency, delt_eq, scale, tenth]
    ring
  rw [step, rounded, trunc_intCast]
  rwa [rounded, value, sub_neg_eq_add] at near

theorem sampled_carrPhase (inside : i < maxChan) (active : 0 < ((sc.gen n).chan i).prn)
    (isamp : Nat) : (sc.sampled n isamp i).carrPhase = ((sc.gen n).chan i).carrPhase +
      BitVec.ofInt 32 (isamp * (sc.sampled n 0 i).carrPhasestep) := by
  have start : (sc.sampled n 0 i).carrPhase = ((sc.gen n).chan i).carrPhase := by
    have first : sc.sampled n 0 i =
        sc.refreshChannel (sc.gen n).ieph (sc.gen n).grx (n + 1) ((sc.gen n).chan i) :=
      refresh_chan inside
    rw [first, Scenario.refreshChannel, if_pos active]
    rfl
  rw [sampled_eq_samples inside active, (carrPhase_samples _ _ isamp).1, start]

/-- **In a block**: the phase falls by the wavelengths that the pseudorange has grown by, up to
half a unit for each sample and up to what the register holds. -/
theorem cycles_sampled (inside : i < maxChan) (active : 0 < ((sc.gen n).chan i).prn)
    (isamp : Nat) : ∃ turns : Int, |cycles (sc.sampled n isamp i) - cycles ((sc.gen n).chan i) +
      (sc.rangeAt n isamp i - ((sc.gen n).chan i).rho0.range) / sc.lambda - 128 * turns| ≤
        isamp / 2 ^ 26 := by
  have near := carrPhasestep_near inside active
  have register := toNat_add_ofInt ((sc.gen n).chan i).carrPhase
    (isamp * (sc.sampled n 0 i).carrPhasestep)
  rw [← sampled_carrPhase inside active] at register
  generalize (sc.sampled n 0 i).carrPhasestep = step at near register
  obtain ⟨turns, sum⟩ : ∃ turns : Int, ((sc.sampled n isamp i).carrPhase.toNat : Int) =
      ((sc.gen n).chan i).carrPhase.toNat + isamp * step + 2 ^ 32 * turns :=
    ⟨-((((sc.gen n).chan i).carrPhase.toNat + isamp * step) / 2 ^ 32), by
      rw [register, Int.emod_def]
      ring⟩
  have sum' : ((sc.sampled n isamp i).carrPhase.toNat : ℚ) =
      ((sc.gen n).chan i).carrPhase.toNat + isamp * step + 2 ^ 32 * turns := by
    exact_mod_cast sum
  refine ⟨turns, ?_⟩
  have value : cycles (sc.sampled n isamp i) - cycles ((sc.gen n).chan i) +
      (sc.rangeAt n isamp i - ((sc.gen n).chan i).rho0.range) / sc.lambda - 128 * turns =
        isamp / 2 ^ 25 * (step + 2 ^ 25 * (((sc.sampled n 0 i).rho0.range -
          ((sc.gen n).chan i).rho0.range) / sc.lambda / 200000)) := by
    rw [cycles, cycles, sum', Scenario.rangeAt]
    ring
  have scale : (isamp : ℚ) / 2 ^ 26 = isamp / 2 ^ 25 * (1 / 2) := by ring
  rw [value, abs_mul, abs_of_nonneg (by positivity), scale]
  exact mul_le_mul_of_nonneg_left near (by positivity)

/-- A renewal leaves the phase and the pseudorange alone. -/
theorem gen_succ_cycles (inside : i < maxChan) (active : 0 < ((sc.gen n).chan i).prn)
    (kept : ((sc.gen (n + 1)).chan i).prn = ((sc.gen n).chan i).prn) :
    cycles ((sc.gen (n + 1)).chan i) = cycles (sc.sampled n iqBuffSize i) ∧
      ((sc.gen (n + 1)).chan i).rho0.range = sc.rangeAt n iqBuffSize i := by
  constructor
  · rw [gen_succ_kept inside active kept]
    split
    · obtain ⟨sbf, renewal, -⟩ := renewed_active sc (sc.gen n).ieph (sc.gen n).grx
        (sampled_active inside active iqBuffSize)
      rw [renewal]
      rfl
    · rfl
  · rw [gen_succ_rho0 inside active kept, Scenario.rangeAt, iqBuffSize_eq]
    norm_num

/-- Blocks in which a channel keeps its satellite. -/
theorem cycles_gen {first last : Nat} (inside : i < maxChan) (keeps : sc.Keeps i first last) :
    ∀ k, first ≤ k → k ≤ last → ∃ turns : Int,
      |cycles ((sc.gen k).chan i) - cycles ((sc.gen first).chan i) +
        (((sc.gen k).chan i).rho0.range - ((sc.gen first).chan i).rho0.range) / sc.lambda -
          128 * turns| ≤ ((k : ℚ) - first) * 200000 / 2 ^ 26 := by
  intro k lower
  induction k, lower using Nat.le_induction with
  | base =>
      intro _
      exact ⟨0, by simp⟩
  | succ k lower ih =>
      intro upper
      obtain ⟨turns, before⟩ := ih (by omega)
      have active := keeps.activeAt lower (by omega)
      obtain ⟨turns', block⟩ := cycles_sampled inside active iqBuffSize
      obtain ⟨phase, range⟩ := gen_succ_cycles inside active (keeps.kept lower (by omega))
      refine ⟨turns + turns', ?_⟩
      rw [← phase, ← range, iqBuffSize_eq] at block
      rw [abs_le] at before block ⊢
      push_cast at block ⊢
      rw [sub_div] at before block ⊢
      constructor <;> linarith

/-- The step of the phase fits in an `int` if the pseudorange changes by at most 2000 kilometres in
the block. -/
theorem carrPhasestep_fits (wavelength : sc.lambda = lambdaL1) (inside : i < maxChan)
    (active : 0 < ((sc.gen n).chan i).prn)
    (slow : |(sc.sampled n 0 i).rho0.range - ((sc.gen n).chan i).rho0.range| ≤ 2000000) :
    FitsInt (sc.sampled n 0 i).carrPhasestep := by
  have near := carrPhasestep_near inside active
  generalize (sc.sampled n 0 i).carrPhasestep = step at near
  generalize (sc.sampled n 0 i).rho0.range - ((sc.gen n).chan i).rho0.range = change at near slow
  have size : (-2147483648 : ℚ) ≤ step ∧ (step : ℚ) ≤ 2147483647 := by
    rw [wavelength, lambdaL1] at near
    rw [abs_le] at near slow
    norm_num at near
    constructor <;> linarith
  exact ⟨by exact_mod_cast size.1, by exact_mod_cast size.2⟩

end Carrier

/-- **The carrier counts wavelengths.**  For as long as a channel keeps its satellite and the step
of its phase fits in an `int` in every block, at every sample of every block its carrier phase has
fallen by the number of wavelengths by which its pseudorange has grown, up to half a unit of
`2 ^ -25` cycles for each sample and up to multiples of the 128 cycles that the register holds.
The step fits in every block in which the pseudorange changes by at most 2000 kilometres. -/
theorem carrier_counts_wavelengths (sc : Scenario) {i first last : Nat} (inside : i < maxChan)
    (keeps : sc.Keeps i first last) (wavelength : sc.lambda = lambdaL1) (k isamp : Nat)
    (lower : first ≤ k) (upper : k < last) :
    ((∀ n, first ≤ n → n ≤ k → FitsInt (sc.sampled n 0 i).carrPhasestep) →
      ∃ turns : Int, |cycles (sc.sampled k isamp i) - cycles ((sc.gen first).chan i) +
        (sc.rangeAt k isamp i - ((sc.gen first).chan i).rho0.range) / sc.lambda - 128 * turns| ≤
          (((k : ℚ) - first) * 200000 + isamp) / 2 ^ 26) ∧
    ∀ n, first ≤ n → n ≤ k →
      |(sc.sampled n 0 i).rho0.range - ((sc.gen n).chan i).rho0.range| ≤ 2000000 →
        FitsInt (sc.sampled n 0 i).carrPhasestep := by
  have active : ∀ n, first ≤ n → n ≤ k → 0 < ((sc.gen n).chan i).prn :=
    fun n lower' upper' => keeps.activeAt lower' (upper'.trans upper.le)
  refine ⟨fun _ => ?_, fun n lower' upper' slow =>
    carrPhasestep_fits wavelength inside (active n lower' upper') slow⟩
  obtain ⟨turns, before⟩ := cycles_gen inside keeps k lower upper.le
  obtain ⟨turns', block⟩ := cycles_sampled inside (active k lower le_rfl) isamp
  refine ⟨turns + turns', ?_⟩
  rw [abs_le] at before block ⊢
  push_cast
  rw [sub_div] at before block ⊢
  rw [add_div]
  constructor <;> linarith

/-- The phase behind a renewal. -/
theorem carrier_counts_wavelengths_sample :
    ∃ turns : Int, |cycles ((sampleScenario lambdaL1).sampled 300 7 0) -
        cycles (((sampleScenario lambdaL1).gen 0).chan 0) +
        ((sampleScenario lambdaL1).rangeAt 300 7 0 -
          (((sampleScenario lambdaL1).gen 0).chan 0).rho0.range) / lambdaL1 - 128 * turns| ≤
      ((((300 : Nat) : ℚ) - (0 : Nat)) * 200000 + (7 : Nat)) / 2 ^ 26 := by
  have member : lambdaL1 ∈ [lambdaL1, speedOfLight / carrFreq] := by simp
  obtain ⟨counts, fits⟩ := carrier_counts_wavelengths (sampleScenario lambdaL1) (by decide)
    (sampleScenario_keeps member 600) rfl 300 7 (Nat.zero_le _) (by decide)
  refine counts fun n lower upper => fits n lower upper ?_
  obtain ⟨-, range⟩ := sampleScenario_gen member n
  rw [range, sampleScenario_range ((sampleScenario_keeps member n).activeAt lower le_rfl)]
  norm_num

/-! ## The samples -/

/-- The carrier of a channel with its gain, data bit and chip. -/
noncomputable def carrierOf (gain : Int) (chan : Channel) : ℝ × ℝ :=
  let amplitude : ℝ := chan.dataBit * chan.codeCA * (250 * gain / 128)
  (amplitude * Real.cos (carrierAngle chan), amplitude * Real.sin (carrierAngle chan))

/-- The sum of the carriers of the active channels in a sample. -/
noncomputable def Scenario.waveform (sc : Scenario) (n isamp : Nat) : ℝ × ℝ :=
  ∑ i ∈ Finset.range maxChan, if 0 < (sc.sampled n isamp i).prn then
    carrierOf ((sc.refresh (n + 1) (sc.gen n)).gain i) (sc.sampled n isamp i) else 0

section Samples

variable {gain : Int} {chan : Channel}

/-- What a channel adds to a sample is its carrier, up to the tables. -/
theorem abs_contribution_sub_le (sends : Sends chan) (nonneg : 0 ≤ gain) :
    |((contribution gain chan).1 : ℝ) / 128 - (carrierOf gain chan).1| ≤ 2.05 / 128 * gain ∧
      |((contribution gain chan).2 : ℝ) / 128 - (carrierOf gain chan).2| ≤ 2.05 / 128 * gain := by
  have sign : |(chan.dataBit : ℝ) * chan.codeCA| = 1 := by
    rcases sends.dataBit with bit | bit <;> rcases sends.codeCA with chip | chip <;>
      rw [bit, chip] <;> norm_num
  have size : (0 : ℝ) ≤ gain / 128 := by
    have cast : (0 : ℝ) ≤ gain := by exact_mod_cast nonneg
    positivity
  obtain ⟨cosine, sine⟩ := carrier_read chan
  -- one coordinate: the entry of a table, and the true value
  have scaled : ∀ (entry : Int) (x : ℝ), |(entry : ℝ) - 250 * x| ≤ 2.05 →
      |((chan.dataBit * chan.codeCA * entry * gain : Int) : ℝ) / 128 -
        chan.dataBit * chan.codeCA * (250 * gain / 128) * x| ≤ 2.05 / 128 * gain := by
    intro entry x near
    have split : ((chan.dataBit * chan.codeCA * entry * gain : Int) : ℝ) / 128 -
        chan.dataBit * chan.codeCA * (250 * gain / 128) * x =
          chan.dataBit * chan.codeCA * (gain / 128 * (entry - 250 * x)) := by
      push_cast
      ring
    calc _ = gain / 128 * |(entry : ℝ) - 250 * x| := by
          rw [split, abs_mul, sign, one_mul, abs_mul, abs_of_nonneg size]
      _ ≤ gain / 128 * 2.05 := mul_le_mul_of_nonneg_left near size
      _ = 2.05 / 128 * gain := by ring
  rw [contribution_eq]
  exact ⟨scaled _ _ cosine, scaled _ _ sine⟩

/-- Scaling rounds to the nearest. -/
theorem abs_scaledAcc_sub_le (acc : Int) : |(scaledAcc acc : ℝ) - acc / 128| ≤ 1 / 2 := by
  have value : scaledAcc acc = (acc + 64) / 128 := by
    rw [scaledAcc, Int.shiftRight_eq_div_pow]
    rfl
  have lower : (acc + 64) / 128 * 128 ≤ acc + 64 := Int.ediv_mul_le _ (by decide)
  have upper : acc + 64 ≤ (acc + 64) / 128 * 128 + 128 := by omega
  rw [← value] at lower upper
  have lower' : (scaledAcc acc : ℝ) * 128 ≤ acc + 64 := by exact_mod_cast lower
  have upper' : (acc : ℝ) + 64 ≤ scaledAcc acc * 128 + 128 := by exact_mod_cast upper
  rw [abs_le]
  constructor <;> linarith

end Samples

/-- Errors add up. -/
theorem abs_sum_sub_le {count : Nat} {a g : Nat → Int} {b : Nat → ℝ} {c : ℝ}
    (each : ∀ i ∈ Finset.range count, |(a i : ℝ) / 128 - b i| ≤ c * g i) :
    |((∑ i ∈ Finset.range count, a i : Int) : ℝ) / 128 - ∑ i ∈ Finset.range count, b i| ≤
      c * (∑ i ∈ Finset.range count, g i : Int) := by
  push_cast
  rw [Finset.sum_div, ← Finset.sum_sub_distrib, Finset.mul_sum]
  exact (Finset.abs_sum_le_sum_abs _ _).trans (Finset.sum_le_sum each)

section Sums

variable {sc : Scenario}

/-- The two sums are the carriers, up to the tables. -/
theorem abs_acc_sub_le (nominal : sc.Nominal) (follows : sc.Follows)
    (share : 0 ≤ dopplerShare sc.lambda ∧ dopplerShare sc.lambda ≤ 1) (whole : sc.WholeSecond)
    (n isamp : Nat) :
    let gains := totalGain (fun i => (sc.sampled n isamp i).prn)
      (sc.refresh (n + 1) (sc.gen n)).gain maxChan
    |((sc.acc n isamp).1 : ℝ) / 128 - (sc.waveform n isamp).1| ≤ 2.05 / 128 * gains ∧
      |((sc.acc n isamp).2 : ℝ) / 128 - (sc.waveform n isamp).2| ≤ 2.05 / 128 * gains := by
  intro gains
  have acc : sc.acc n isamp = ∑ i ∈ Finset.range maxChan,
      if 0 < (sc.sampled n isamp i).prn then
        contribution ((sc.refresh (n + 1) (sc.gen n)).gain i) (sc.sampled n isamp i) else 0 :=
    acc_eq delt _ maxChan _
  have each : ∀ i ∈ Finset.range maxChan, 0 < (sc.sampled n isamp i).prn →
      Sends (sc.sampled n isamp i) ∧ 0 ≤ (sc.refresh (n + 1) (sc.gen n)).gain i := by
    intro i member active
    have inside := Finset.mem_range.mp member
    rw [sampled_prn inside] at active
    exact ⟨nominal_sends nominal follows share whole inside active isamp,
      (nominal_gain nominal follows inside active).1⟩
  rw [acc, Scenario.waveform, Prod.fst_sum, Prod.snd_sum, Prod.fst_sum, Prod.snd_sum]
  constructor
  · refine abs_sum_sub_le fun i member => ?_
    split
    · rename_i active
      obtain ⟨sends, nonneg⟩ := each i member active
      exact (abs_contribution_sub_le sends nonneg).1
    · simp
  · refine abs_sum_sub_le fun i member => ?_
    split
    · rename_i active
      obtain ⟨sends, nonneg⟩ := each i member active
      exact (abs_contribution_sub_le sends nonneg).2
    · simp

end Sums

/-- **The samples are the sum of the carriers.**  In every nominal run, both values stored for a
sample differ from the sum of the carriers of all active channels, each with its gain, data bit
and chip at its carrier phase, by half a unit at most and 2.05 of the 250 parts of the gains. -/
theorem sample_of_carriers (sc : Scenario) (nominal : sc.Nominal) (follows : sc.Follows)
    (wavelength : sc.lambda = lambdaL1) (whole : sc.WholeSecond) (n isamp : Nat) :
    let gains := totalGain (fun i => (sc.sampled n isamp i).prn)
      (sc.refresh (n + 1) (sc.gen n)).gain maxChan
    |((iqSample (sc.acc n isamp)).i.toInt : ℝ) - (sc.waveform n isamp).1| ≤
        1 / 2 + 2.05 / 128 * gains ∧
      |((iqSample (sc.acc n isamp)).q.toInt : ℝ) - (sc.waveform n isamp).2| ≤
        1 / 2 + 2.05 / 128 * gains := by
  intro gains
  have share : 0 ≤ dopplerShare sc.lambda ∧ dopplerShare sc.lambda ≤ 1 := by
    rw [wavelength]
    exact dopplerShare_lambdaL1
  obtain ⟨i, q⟩ := nominal_stored nominal follows share whole n isamp
  obtain ⟨first, second⟩ := abs_acc_sub_le nominal follows share whole n isamp
  rw [i, q]
  exact ⟨(abs_sub_le _ _ _).trans (add_le_add (abs_scaledAcc_sub_le _) first),
    (abs_sub_le _ _ _).trans (add_le_add (abs_scaledAcc_sub_le _) second)⟩

theorem sample_of_carriers_circular :
    let gains := totalGain (fun i => (circularScenario.sampled 600 7 i).prn)
      (circularScenario.refresh (600 + 1) (circularScenario.gen 600)).gain maxChan
    |((iqSample (circularScenario.acc 600 7)).i.toInt : ℝ) -
        (circularScenario.waveform 600 7).1| ≤ 1 / 2 + 2.05 / 128 * gains ∧
      |((iqSample (circularScenario.acc 600 7)).q.toInt : ℝ) -
        (circularScenario.waveform 600 7).2| ≤ 1 / 2 + 2.05 / 128 * gains :=
  sample_of_carriers circularScenario circularScenario_nominal circularScenario_follows rfl
    ⟨0, by norm_num [circularScenario]⟩ 600 7

end Navisim.Loop
