import Navisim.RealTime.Link
import Navisim.Signal.Sample

/-!
# The amplitude of the samples

The sum over the channels never leaves `int`, but nothing keeps the scaled sum in the twelve bits
that the stream is set up for.  The gains decide: phases, chips and data bits for which the sum
is too large exist exactly if the gains of the active channels add up to more than 1048
(`samplesFit_iff`).
-/

namespace Navisim.RealTime

open Signal Sweep

/-- `(acc+64)>>7` -/
def scaledAcc (acc : Int) : Int :=
  (acc + 64) >>> (7 : Nat)

/-- What is stored in `iq_buff` for a sample. -/
def iqSample (acc : Int × Int) : Complex16 where
  i := BitVec.ofInt 16 (scaledAcc acc.1)
  q := BitVec.ofInt 16 (scaledAcc acc.2)

/-- The channel sends a data bit and a chip. -/
structure Sends (chan : Channel) : Prop where
  dataBit : chan.dataBit = 1 ∨ chan.dataBit = -1
  codeCA : chan.codeCA = 1 ∨ chan.codeCA = -1

/-- No overflow of a 32-bit `int`. -/
def FitsInt (x : Int) : Prop :=
  -2147483648 ≤ x ∧ x ≤ 2147483647

/-- The scaled value is one of the format. -/
def FitsFormat (x : Int) : Prop :=
  -2048 ≤ x ∧ x ≤ 2047

/-- A sample fits: neither the products nor the accumulators overflow, whichever channels have
been added, and the scaled sums go out as they are. -/
structure SampleFits (delt : ℚ) (gain : Nat → Int) (chan : Nat → Channel) : Prop where
  products : ∀ i < maxChan, 0 < (chan i).prn →
    FitsInt (contribution (gain i) (chan i)).1 ∧ FitsInt (contribution (gain i) (chan i)).2
  acc : ∀ count ≤ maxChan, FitsInt (channelLoop (codeStep delt) gain count chan).1.1 ∧
    FitsInt (channelLoop (codeStep delt) gain count chan).1.2
  range : FitsFormat (scaledAcc (channelLoop (codeStep delt) gain maxChan chan).1.1) ∧
    FitsFormat (scaledAcc (channelLoop (codeStep delt) gain maxChan chan).1.2)
  sent : linkSample (iqSample (channelLoop (codeStep delt) gain maxChan chan).1) =
    iqSample (channelLoop (codeStep delt) gain maxChan chan).1

/-! ## The sum of the gains bounds the sum of the channels -/

/-- The gains of the active ones of the first `count` channels. -/
def totalGain (prn gain : Nat → Int) (count : Nat) : Int :=
  ∑ i ∈ Finset.range count, if 0 < prn i then gain i else 0

section Bounds

variable {delt : ℚ} {gain : Nat → Int} {chan : Nat → Channel} {count : Nat}

theorem getD_bounds {table : Array Int} (bound : ∀ x ∈ table, -250 ≤ x ∧ x ≤ 250) (i : Nat) :
    |table.getD i 0| ≤ 250 := by
  rw [abs_le, Array.getD_eq_getD_getElem?]
  cases entry : table[i]? with
  | none => decide
  | some x => exact bound x (Array.mem_of_getElem? entry)

theorem flatten_bounds {rows : Array (Array Int)}
    (bound : ∀ row ∈ rows, ∀ x ∈ row, -250 ≤ x ∧ x ≤ 250) :
    ∀ x ∈ rows.flatten, -250 ≤ x ∧ x ≤ 250 := by
  intro x member
  obtain ⟨row, inside, entry⟩ := Array.mem_flatten.mp member
  exact bound row inside x entry

theorem table_bounds (i : Nat) :
    |cosTable512.getD i 0| ≤ 250 ∧ |sinTable512.getD i 0| ≤ 250 :=
  ⟨getD_bounds (flatten_bounds (by decide +kernel)) i,
    getD_bounds (flatten_bounds (by decide +kernel)) i⟩

/-- The table is evaluated as a list. -/
theorem cosTable512_zero : cosTable512.getD 0 0 = 250 := by
  rw [Array.getD_eq_getD_getElem?, ← Array.getElem?_toList, cosTable512, Array.toList_flatten]
  decide +kernel

theorem acc_eq (delt : ℚ) (gain : Nat → Int) (count : Nat) (chan : Nat → Channel) :
    (channelLoop (codeStep delt) gain count chan).1 =
      ∑ i ∈ Finset.range count,
        if 0 < (chan i).prn then contribution (gain i) (chan i) else 0 := by
  rw [channelLoop, sweep_sum, zero_add]
  apply Finset.sum_congr rfl
  intro i _
  dsimp only
  rw [visitChannel]
  split <;> rfl

/-- The largest value of a channel is 250 times its gain. -/
theorem contribution_bounds {gain : Int} {chan : Channel} (sends : Sends chan)
    (nonneg : 0 ≤ gain) : |(contribution gain chan).1| ≤ 250 * gain ∧
      |(contribution gain chan).2| ≤ 250 * gain := by
  have bit : |chan.dataBit| = 1 := by
    rcases sends.dataBit with one | minusOne
    · rw [one]; rfl
    · rw [minusOne]; rfl
  have chip : |chan.codeCA| = 1 := by
    rcases sends.codeCA with one | minusOne
    · rw [one]; rfl
    · rw [minusOne]; rfl
  obtain ⟨cos, sin⟩ := table_bounds (chan.carrPhase >>> 16 &&& 0x1ff).toNat
  simp only [contribution, abs_mul, bit, chip, one_mul, abs_of_nonneg nonneg]
  exact ⟨mul_le_mul_of_nonneg_right cos nonneg, mul_le_mul_of_nonneg_right sin nonneg⟩

/-- The accumulators, whichever channels have been added. -/
theorem acc_bounds (delt : ℚ) (gains : ∀ i < maxChan, 0 ≤ gain i ∧ gain i ≤ 128)
    (sends : ∀ i < maxChan, 0 < (chan i).prn → Sends (chan i)) (inside : count ≤ maxChan) :
    |(channelLoop (codeStep delt) gain count chan).1.1| ≤
        250 * totalGain (fun i => (chan i).prn) gain count ∧
      |(channelLoop (codeStep delt) gain count chan).1.2| ≤
        250 * totalGain (fun i => (chan i).prn) gain count := by
  have each : ∀ i ∈ Finset.range count,
      |(if 0 < (chan i).prn then contribution (gain i) (chan i) else 0).1| ≤
          250 * (if 0 < (chan i).prn then gain i else 0) ∧
        |(if 0 < (chan i).prn then contribution (gain i) (chan i) else 0).2| ≤
          250 * (if 0 < (chan i).prn then gain i else 0) := by
    intro i member
    have low := Finset.mem_range.mp member
    split
    · rename_i active
      exact contribution_bounds (sends i (by omega) active) (gains i (by omega)).1
    · exact ⟨le_rfl, le_rfl⟩
  rw [acc_eq, totalGain, Finset.mul_sum, Prod.fst_sum, Prod.snd_sum]
  constructor
  · apply (Finset.abs_sum_le_sum_abs _ _).trans
    exact Finset.sum_le_sum fun i member => (each i member).1
  · apply (Finset.abs_sum_le_sum_abs _ _).trans
    exact Finset.sum_le_sum fun i member => (each i member).2

/-- Twelve gains of at most 128. -/
theorem totalGain_bounds (prn : Nat → Int)
    (gains : ∀ i < maxChan, 0 ≤ gain i ∧ gain i ≤ 128) (inside : count ≤ maxChan) :
    0 ≤ totalGain prn gain count ∧ totalGain prn gain count ≤ count * 128 := by
  have each : ∀ i ∈ Finset.range count, 0 ≤ (if 0 < prn i then gain i else 0) ∧
      (if 0 < prn i then gain i else 0) ≤ 128 := by
    intro i member
    have low := Finset.mem_range.mp member
    have bounds := gains i (by omega)
    split
    · exact bounds
    · decide
  constructor
  · exact Finset.sum_nonneg fun i member => (each i member).1
  · have sum := Finset.sum_le_card_nsmul _ _ _ fun i member => (each i member).2
    rwa [Finset.card_range, nsmul_eq_mul] at sum

end Bounds

/-! ## When the samples fit -/

theorem fitsFormat_iff (acc : Int) : FitsFormat (scaledAcc acc) ↔ -262208 ≤ acc ∧ acc ≤ 262079 := by
  rw [FitsFormat, scaledAcc, Int.shiftRight_eq_div_pow]
  omega

/-- A scaled value of sixteen bits goes out as it is exactly if it has twelve. -/
theorem inTwelveBits_iff {x : Int} (short : -32768 ≤ x ∧ x ≤ 32767) :
    InTwelveBits (BitVec.ofInt 16 x) ↔ FitsFormat x := by
  have value : (BitVec.ofInt 16 x).toInt = x := by
    rw [BitVec.toInt_ofInt]
    exact Int.bmod_eq_of_le (by omega) (by omega)
  rw [InTwelveBits, value, FitsFormat]

section Samples

variable {delt : ℚ} {gain : Nat → Int} {chan : Nat → Channel}

/-- Only the scaled sums can be too large. -/
theorem sampleFits_iff (gains : ∀ i < maxChan, 0 ≤ gain i ∧ gain i ≤ 128)
    (sends : ∀ i < maxChan, 0 < (chan i).prn → Sends (chan i)) :
    SampleFits delt gain chan ↔
      FitsFormat (scaledAcc (channelLoop (codeStep delt) gain maxChan chan).1.1) ∧
        FitsFormat (scaledAcc (channelLoop (codeStep delt) gain maxChan chan).1.2) := by
  have small : ∀ count ≤ maxChan,
      |(channelLoop (codeStep delt) gain count chan).1.1| ≤ 384000 ∧
        |(channelLoop (codeStep delt) gain count chan).1.2| ≤ 384000 := by
    intro count inside
    have acc := acc_bounds delt gains sends inside
    have total := (totalGain_bounds (fun i => (chan i).prn) gains inside).2
    have twelve : (count : Int) ≤ 12 := by exact_mod_cast inside
    constructor <;> linarith
  constructor
  · exact fun fits => fits.range
  · intro range
    refine ⟨?_, ?_, range, ?_⟩
    · intro i inside active
      obtain ⟨i', q'⟩ := contribution_bounds (sends i inside active) (gains i inside).1
      have bound := (gains i inside).2
      rw [abs_le] at i' q'
      unfold FitsInt
      omega
    · intro count inside
      obtain ⟨i', q'⟩ := small count inside
      rw [abs_le] at i' q'
      unfold FitsInt
      omega
    · rw [linkSample_eq_iff]
      rcases range with ⟨i', q'⟩
      unfold FitsFormat at i' q'
      exact ⟨(inTwelveBits_iff (by omega)).mpr i', (inTwelveBits_iff (by omega)).mpr q'⟩

end Samples

/-- A channel at the crest of the carrier. -/
def crest (prn : Int) : Channel :=
  { idleChannel (fun _ _ => 0) with prn := prn, dataBit := 1, codeCA := 1 }

theorem contribution_crest (prn gain : Int) :
    (contribution gain (crest prn)).1 = 250 * gain := by
  have start : (crest prn).carrPhase = 0 := rfl
  have index : ((0 : BitVec 32) >>> 16 &&& 0x1ff).toNat = 0 := by decide
  have chip : (crest prn).dataBit = 1 ∧ (crest prn).codeCA = 1 := ⟨rfl, rfl⟩
  simp only [contribution, start, index, cosTable512_zero, chip]
  ring

theorem acc_crest (delt : ℚ) (prn gain : Nat → Int) :
    (channelLoop (codeStep delt) gain maxChan (fun i => crest (prn i))).1.1 =
      250 * totalGain prn gain maxChan := by
  rw [acc_eq, Prod.fst_sum, totalGain, Finset.mul_sum]
  apply Finset.sum_congr rfl
  intro i _
  have active : (crest (prn i)).prn = prn i := rfl
  rw [active]
  split
  · exact contribution_crest _ _
  · rfl

/-- **When the samples fit**: for all phases, chips and data bits of the active channels, exactly
if the gains of these channels add up to at most 1048. -/
theorem samplesFit_iff (prn gain : Nat → Int)
    (gains : ∀ i < maxChan, 0 ≤ gain i ∧ gain i ≤ 128) :
    (∀ (delt : ℚ) (chan : Nat → Channel), (∀ i < maxChan, (chan i).prn = prn i) →
        (∀ i < maxChan, 0 < prn i → Sends (chan i)) → SampleFits delt gain chan) ↔
      totalGain prn gain maxChan ≤ 1048 := by
  constructor
  · intro always
    have fits := (always 1 (fun i => crest (prn i)) (fun _ _ => rfl)
      (fun _ _ _ => ⟨Or.inl rfl, Or.inl rfl⟩)).range.1
    rw [fitsFormat_iff, acc_crest] at fits
    omega
  · intro enough delt chan same sends
    have sends' : ∀ i < maxChan, 0 < (chan i).prn → Sends (chan i) := by
      intro i inside active
      exact sends i inside (by rwa [← same i inside])
    have total : totalGain (fun i => (chan i).prn) gain maxChan = totalGain prn gain maxChan := by
      apply Finset.sum_congr rfl
      intro i member
      simp only [same i (Finset.mem_range.mp member)]
    rw [sampleFits_iff gains sends', fitsFormat_iff, fitsFormat_iff]
    obtain ⟨i', q'⟩ := acc_bounds delt gains sends' le_rfl
    rw [total, abs_le] at i' q'
    omega

/-- Twelve channels at the crest with the gain 128: the scaled sum is 3000, and -1096 goes
out. -/
theorem crest_wraps :
    (∀ i < maxChan, Sends (crest 1)) ∧
      let acc := (channelLoop (codeStep 1) (fun _ => 128) maxChan (fun _ => crest 1)).1
      scaledAcc acc.1 = 3000 ∧ (iqSample acc).i.toInt = 3000 ∧
        (linkSample (iqSample acc)).i.toInt = -1096 ∧
        ¬ SampleFits 1 (fun _ => 128) (fun _ => crest 1) := by
  have acc := acc_crest 1 (fun _ => 1) (fun _ => 128)
  rw [show totalGain (fun _ => 1) (fun _ => 128) maxChan = 1536 by decide] at acc
  refine ⟨fun _ _ => ⟨Or.inl rfl, Or.inl rfl⟩, ?_⟩
  dsimp only
  refine ⟨?_, ?_, ?_, ?_⟩
  · rw [acc]
    rfl
  · rw [iqSample, acc]
    rfl
  · rw [iqSample, linkSample, acc]
    rfl
  · intro fits
    have high := fits.range.1
    rw [acc, fitsFormat_iff] at high
    exact absurd high.2 (by decide)

theorem samplesFit_iff_nine :
    totalGain (fun i => if i < 9 then (i : Int) + 1 else 0) (fun _ => 116) maxChan ≤ 1048 ∧
    ∀ (delt : ℚ) (chan : Nat → Channel),
      (∀ i < maxChan, (chan i).prn = if i < 9 then (i : Int) + 1 else 0) →
      (∀ i < maxChan, 0 < (if i < 9 then (i : Int) + 1 else 0) → Sends (chan i)) →
        SampleFits delt (fun _ => 116) chan :=
  ⟨by decide, (samplesFit_iff _ (fun _ => 116) (by decide)).mpr (by decide)⟩

end Navisim.RealTime
