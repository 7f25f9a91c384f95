import Navisim.Lib.Sweep
import Navisim.Signal.CodePhase
import Navisim.Signal.Tables

/-!
# The sample loop

The loop of `runCore`, `runCore_realTime` and `runCore3` over the samples of a block: every active
channel adds its signal to the two accumulators and is updated.
-/

namespace Navisim.Signal

open Sweep

/-- What a channel adds to `i_acc` and `q_acc`. -/
def contribution (gain : Int) (chan : Channel) : Int × Int :=
  let iTable := (chan.carrPhase >>> 16 &&& 0x1ff).toNat
  (chan.dataBit * chan.codeCA * cosTable512.getD iTable 0 * gain,
   chan.dataBit * chan.codeCA * sinTable512.getD iTable 0 * gain)

/-- A channel in one turn of the loop over the channels; `step` is its code phase step. -/
def visitChannel (step : ℚ) (gain : Int) (chan : Channel) : (Int × Int) × Channel :=
  if chan.prn > 0 then (contribution gain chan, updateChannel step chan) else (0, chan)

/-- The loop over `count` channels for one sample: the accumulators, and the channels after
it. -/
def channelLoop (step : Channel → ℚ) (gain : Nat → Int) (count : Nat) (chan : Nat → Channel) :
    (Int × Int) × (Nat → Channel) :=
  sweep (fun i chan => visitChannel (step chan) (gain i) chan) count (0, chan)

/-- The channels after `isamp` samples of a block. -/
def afterSamples (step : Channel → ℚ) (gain : Nat → Int) (count : Nat) (chan : Nat → Channel) :
    Nat → Nat → Channel
  | 0 => chan
  | isamp + 1 => (channelLoop step gain count (afterSamples step gain count chan isamp)).2

/-- `i_acc` and `q_acc` of sample `isamp`, before they are scaled. -/
def blockSum (step : Channel → ℚ) (gain : Nat → Int) (count : Nat) (chan : Nat → Channel)
    (isamp : Nat) : Int × Int :=
  (channelLoop step gain count (afterSamples step gain count chan isamp)).1

/-- The code phase step of these loops: `f_code * delt`. -/
def codeStep (delt : ℚ) (chan : Channel) : ℚ :=
  chan.fCode * delt

/-! ## One channel -/

/-- An active channel after `isamp` samples with a constant step. -/
def samples (step : ℚ) (chan : Channel) (isamp : Nat) : Channel :=
  (updateChannel step)^[isamp] chan

section OneChannel

variable {step : ℚ} {chan : Channel}

theorem samples_succ (isamp : Nat) :
    samples step chan (isamp + 1) = updateChannel step (samples step chan isamp) :=
  Function.iterate_succ_apply' ..

/-- The fields that a sample does not change. -/
structure SameSignal (chan chan' : Channel) : Prop where
  prn : chan'.prn = chan.prn
  fCode : chan'.fCode = chan.fCode
  g0 : chan'.g0 = chan.g0
  sbf : chan'.sbf = chan.sbf
  dwrd : chan'.dwrd = chan.dwrd
  rho0 : chan'.rho0 = chan.rho0
  ca : chan'.ca = chan.ca

theorem sameSignal_carryWord (chan : Channel) : SameSignal chan (carryWord chan) := by
  unfold carryWord
  split <;> constructor <;> rfl

theorem sameSignal_carryBit (chan : Channel) : SameSignal chan (carryBit chan) := by
  unfold carryBit
  split
  · obtain ⟨prn, fCode, g0, sbf, dwrd, rho0, ca⟩ := sameSignal_carryWord
      { chan with icode := 0, ibit := chan.ibit + 1 }
    exact ⟨prn, fCode, g0, sbf, dwrd, rho0, ca⟩
  · constructor <;> rfl

theorem sameSignal_updateChannel (step : ℚ) (chan : Channel) :
    SameSignal chan (updateChannel step chan) := by
  unfold updateChannel carryChip
  split
  · obtain ⟨prn, fCode, g0, sbf, dwrd, rho0, ca⟩ := sameSignal_carryBit
      { chan with codePhase := chan.codePhase + step - caSeqLen, icode := chan.icode + 1 }
    exact ⟨prn, fCode, g0, sbf, dwrd, rho0, ca⟩
  · constructor <;> rfl

theorem sameSignal_samples (step : ℚ) (chan : Channel) (isamp : Nat) :
    SameSignal chan (samples step chan isamp) := by
  induction isamp with
  | zero => constructor <;> rfl
  | succ isamp ih =>
      rw [samples_succ]
      have update := sameSignal_updateChannel step (samples step chan isamp)
      exact ⟨update.prn.trans ih.prn, update.fCode.trans ih.fCode, update.g0.trans ih.g0,
        update.sbf.trans ih.sbf, update.dwrd.trans ih.dwrd, update.rho0.trans ih.rho0,
        update.ca.trans ih.ca⟩

/-- The samples keep the counters in their ranges and move the position by one step each,
whatever the step is. -/
theorem samples_position (step : ℚ) (counters : chan.Counters) (isamp : Nat) :
    (samples step chan isamp).Counters ∧
      (samples step chan isamp).position = chan.position + isamp * step := by
  induction isamp with
  | zero => exact ⟨counters, by simp [samples]⟩
  | succ isamp ih =>
      obtain ⟨counters', position⟩ := ih
      rw [samples_succ]
      refine ⟨counters_updateChannel counters', ?_⟩
      rw [position_updateChannel counters', position]
      push_cast
      ring

/-- Steps below a code period keep the code phase in its range. -/
theorem samples_counting (counting : chan.Counting) (nonneg : 0 ≤ step) (bound : step < 1023)
    (isamp : Nat) : (samples step chan isamp).Counting := by
  induction isamp with
  | zero => exact counting
  | succ isamp ih =>
      rw [samples_succ]
      exact counting_updateChannel ih nonneg bound

/-! ### Word indices for any step -/

theorem iword_updateChannel_of_lt (short : chan.codePhase + step < 1023) :
    (updateChannel step chan).iword = chan.iword ∧
      (updateChannel step chan).codePhase = chan.codePhase + step := by
  have few : ¬ chan.codePhase + step ≥ caSeqLen := by
    norm_num [caSeqLen]
    exact short
  simp only [updateChannel, carryChip, if_neg few, and_self]

theorem le_iword_carryBit (chan : Channel) : chan.iword ≤ (carryBit chan).iword := by
  unfold carryBit carryWord
  split
  · split
    · dsimp only
      omega
    · exact le_rfl
  · exact le_rfl

theorem le_iword_updateChannel (step : ℚ) (chan : Channel) :
    chan.iword ≤ (updateChannel step chan).iword := by
  unfold updateChannel carryChip
  split
  · exact le_iword_carryBit
      { chan with codePhase := chan.codePhase + step - caSeqLen, icode := chan.icode + 1 }
  · exact le_rfl

theorem codePhase_updateChannel_nonneg (nonneg : 0 ≤ chan.codePhase + step) :
    0 ≤ (updateChannel step chan).codePhase := by
  unfold updateChannel carryChip
  split
  · rename_i full
    dsimp only at full ⊢
    rw [codePhase_carryBit]
    linarith
  · exact nonneg

/-- The word index only grows, and it is kept unless the code phase stays above zero. -/
theorem samples_iword (step : ℚ) (counting : chan.Counting) (isamp : Nat) :
    chan.iword ≤ (samples step chan isamp).iword ∧
      (0 ≤ (samples step chan isamp).codePhase ∨
        (samples step chan isamp).iword = chan.iword) := by
  rcases le_or_gt 0 step with forward | backward
  · have grows : chan.iword ≤ (samples step chan isamp).iword ∧
        0 ≤ (samples step chan isamp).codePhase := by
      induction isamp with
      | zero => exact ⟨le_rfl, counting.codePhase.1⟩
      | succ isamp ih =>
          rw [samples_succ]
          exact ⟨ih.1.trans (le_iword_updateChannel step _),
            codePhase_updateChannel_nonneg (add_nonneg ih.2 forward)⟩
    exact ⟨grows.1, Or.inl grows.2⟩
  · -- A code phase that shrinks is never carried.
    have rests : (samples step chan isamp).iword = chan.iword ∧
        (samples step chan isamp).codePhase < 1023 := by
      induction isamp with
      | zero => exact ⟨rfl, counting.codePhase.2⟩
      | succ isamp ih =>
          have short : (samples step chan isamp).codePhase + step < 1023 := by linarith [ih.2]
          obtain ⟨same, phase⟩ := iword_updateChannel_of_lt short
          rw [samples_succ, same, phase]
          exact ⟨ih.1, by linarith [ih.2]⟩
    exact ⟨rests.1.ge, Or.inr rests.1⟩

/-- The words before the word index lie before the position. -/
theorem iword_le_position (counters : chan.Counters) (nonneg : 0 ≤ chan.codePhase) :
    (chan.iword : ℚ) * (600 * 1023) ≤ chan.position := by
  have digits : 0 ≤ chan.ibit * 20 + chan.icode := by
    have := counters.ibit.1
    have := counters.icode.1
    omega
  have digits' : (0 : ℚ) ≤ chan.ibit * 20 + chan.icode := by exact_mod_cast digits
  simp only [Channel.position]
  push_cast
  linarith

end OneChannel

/-! ## All channels -/

section AllChannels

variable {step : Channel → ℚ} {gain : Nat → Int} {count : Nat} {chan : Nat → Channel} {i : Nat}

/-- Every active channel moves as if it were alone. -/
theorem afterSamples_active (constant : ∀ c c', SameSignal c c' → step c' = step c)
    (inside : i < count) (active : 0 < (chan i).prn) (isamp : Nat) :
    afterSamples step gain count chan isamp i = samples (step (chan i)) (chan i) isamp := by
  induction isamp with
  | zero => rfl
  | succ isamp ih =>
      have same := sameSignal_samples (step (chan i)) (chan i) isamp
      rw [afterSamples, channelLoop, sweep_cell inside]
      dsimp only
      rw [ih, visitChannel, if_pos (by rw [same.prn]; exact active), constant _ _ same,
        samples_succ]

/-- The other channels are left alone. -/
theorem afterSamples_idle (idle : ¬ 0 < (chan i).prn) (isamp : Nat) :
    afterSamples step gain count chan isamp i = chan i := by
  induction isamp with
  | zero => rfl
  | succ isamp ih =>
      rw [afterSamples, channelLoop]
      rcases Nat.lt_or_ge i count with inside | outside
      · rw [sweep_cell inside]
        dsimp only
        rw [ih, visitChannel, if_neg idle]
      · rw [sweep_cell_of_le outside]
        exact ih

/-- What a channel adds to a sample. -/
def channelSum (step : ℚ) (gain : Int) (chan : Channel) (isamp : Nat) : Int × Int :=
  if 0 < chan.prn then contribution gain (samples step chan isamp) else 0

/-- The accumulators are the sums over the active channels. -/
theorem blockSum_eq (constant : ∀ c c', SameSignal c c' → step c' = step c) (isamp : Nat) :
    blockSum step gain count chan isamp =
      ∑ i ∈ Finset.range count, channelSum (step (chan i)) (gain i) (chan i) isamp := by
  rw [blockSum, channelLoop, sweep_sum, zero_add]
  apply Finset.sum_congr rfl
  intro i member
  have inside := Finset.mem_range.mp member
  dsimp only
  by_cases active : 0 < (chan i).prn
  · have same := sameSignal_samples (step (chan i)) (chan i) isamp
    rw [afterSamples_active constant inside active, visitChannel, channelSum, if_pos active,
      if_pos (by rw [same.prn]; exact active)]
  · rw [afterSamples_idle active, visitChannel, channelSum, if_neg active, if_neg active]

end AllChannels

theorem codeStep_constant (delt : ℚ) (c c' : Channel) (same : SameSignal c c') :
    codeStep delt c' = codeStep delt c := by
  rw [codeStep, codeStep, same.fCode]

end Navisim.Signal
