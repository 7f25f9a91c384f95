import Navisim.Signal.Sample

/-!
# A channel in the sample loop

The closed form of a channel after any number of samples: its position, the navigation bit and
the chip it sends, and the entry of the carrier tables it reads.  `computeCodePhase` sets the bit
and the chip before every block; in the loop the chip is set again by every sample, the bit only
when the bit counter is carried.
-/

namespace Navisim.Signal

open Nav

variable {step : ℚ} {chan : Channel}

/-! ## The carrier -/

/-- `iTable` -/
def iTable (chan : Channel) : Nat :=
  (chan.carrPhase >>> 16 &&& 0x1ff).toNat

theorem contribution_eq (gain : Int) (chan : Channel) : contribution gain chan =
    (chan.dataBit * chan.codeCA * cosTable512.getD (iTable chan) 0 * gain,
     chan.dataBit * chan.codeCA * sinTable512.getD (iTable chan) 0 * gain) :=
  rfl

theorem iTable_eq (chan : Channel) : iTable chan = chan.carrPhase.toNat / 2 ^ 16 % 2 ^ 9 := by
  rw [iTable, BitVec.toNat_and, BitVec.toNat_ushiftRight, Nat.shiftRight_eq_div_pow]
  exact Nat.and_two_pow_sub_one_eq_mod _ 9

theorem carrPhase_updateChannel (step : ℚ) (chan : Channel) :
    (updateChannel step chan).carrPhase =
        chan.carrPhase + BitVec.ofInt 32 chan.carrPhasestep ∧
      (updateChannel step chan).carrPhasestep = chan.carrPhasestep := by
  unfold updateChannel carryChip carryBit carryWord
  split_ifs <;> exact ⟨rfl, rfl⟩

/-- The register holds the sum of the steps, whatever their sign, up to its width. -/
theorem carrPhase_samples (step : ℚ) (chan : Channel) (n : Nat) :
    (samples step chan n).carrPhase =
        chan.carrPhase + BitVec.ofInt 32 (n * chan.carrPhasestep) ∧
      (samples step chan n).carrPhasestep = chan.carrPhasestep := by
  induction n with
  | zero => simp [samples]
  | succ n ih =>
      rcases ih with ⟨phase, same⟩
      obtain ⟨phase', same'⟩ := carrPhase_updateChannel step (samples step chan n)
      rw [samples_succ, phase', same', phase, same, BitVec.add_assoc, ← BitVec.ofInt_add]
      push_cast
      exact ⟨by ring_nf, rfl⟩

theorem toNat_add_ofInt (x : BitVec 32) (k : Int) :
    ((x + BitVec.ofInt 32 k).toNat : Int) = (x.toNat + k) % 2 ^ 32 := by
  rw [BitVec.toNat_add, BitVec.toNat_ofInt]
  omega

/-- **The table index**: it needs only the low 25 bits of the sum of the steps. -/
theorem iTable_samples (step : ℚ) (chan : Channel) (n : Nat) :
    (iTable (samples step chan n) : Int) =
      (chan.carrPhase.toNat + n * chan.carrPhasestep) % 2 ^ 25 / 2 ^ 16 := by
  rw [iTable_eq, (carrPhase_samples step chan n).1]
  push_cast
  rw [toNat_add_ofInt]
  omega

/-! ## The navigation bit -/

/-- The channel sends the navigation bit of its counters. -/
def BitSet (chan : Channel) : Prop :=
  chan.dataBit = if (chan.dwrd chan.iword).getLsbD (29 - chan.ibit).toNat then 1 else -1

theorem navBit_eq (dwrd : Int → Word) (iword ibit : Int) :
    navBit dwrd iword ibit = if (dwrd iword).getLsbD (29 - ibit).toNat then 1 else -1 := by
  have bit : ((dwrd iword >>> (29 - ibit).toNat) &&& 0x1).toNat =
      (dwrd iword).toNat / 2 ^ (29 - ibit).toNat % 2 := by
    rw [BitVec.toNat_and, BitVec.toNat_ushiftRight, Nat.shiftRight_eq_div_pow]
    exact Nat.and_two_pow_sub_one_eq_mod _ 1
  rw [navBit, bit, BitVec.getLsbD, Nat.testBit_eq_decide_div_mod_eq]
  rcases Nat.mod_two_eq_zero_or_one ((dwrd iword).toNat / 2 ^ (29 - ibit).toNat) with even | odd
  · rw [even]
    rfl
  · rw [odd]
    rfl

/-- Both channels send the same navigation bit, right or wrong. -/
structure SameBit (chan chan' : Channel) : Prop where
  iword : chan'.iword = chan.iword
  ibit : chan'.ibit = chan.ibit
  dataBit : chan'.dataBit = chan.dataBit

/-- A carry of the bit counter sets the bit, and without one the bit stays. -/
theorem bit_updateChannel (step : ℚ) (chan : Channel) :
    BitSet (updateChannel step chan) ∨ SameBit chan (updateChannel step chan) := by
  unfold updateChannel carryChip
  split
  · unfold carryBit
    split
    · exact Or.inl (navBit_eq _ _ _)
    · exact Or.inr ⟨rfl, rfl, rfl⟩
  · exact Or.inr ⟨rfl, rfl, rfl⟩

theorem bit_samples (step : ℚ) (chan : Channel) (n : Nat) :
    BitSet (samples step chan n) ∨ SameBit chan (samples step chan n) := by
  induction n with
  | zero => exact Or.inr ⟨rfl, rfl, rfl⟩
  | succ n ih =>
      rw [samples_succ]
      have signal := sameSignal_updateChannel step (samples step chan n)
      rcases bit_updateChannel step (samples step chan n) with set | ⟨iword, ibit, dataBit⟩
      · exact Or.inl set
      · rcases ih with set | same
        · left
          unfold BitSet at set ⊢
          rw [dataBit, set, signal.dwrd, iword, ibit]
        · exact Or.inr ⟨iword.trans same.iword, ibit.trans same.ibit, dataBit.trans same.dataBit⟩

/-- The bit is right after any number of samples if it was right before them, or if another bit
has been reached. -/
theorem bitSet_samples {n : Nat} (set : BitSet chan ∨ (samples step chan n).iword ≠ chan.iword ∨
    (samples step chan n).ibit ≠ chan.ibit) : BitSet (samples step chan n) := by
  have signal := sameSignal_samples step chan n
  rcases bit_samples step chan n with right | ⟨iword, ibit, dataBit⟩
  · exact right
  · rcases set with before | word | bit
    · unfold BitSet at before ⊢
      rw [dataBit, before, signal.dwrd, iword, ibit]
    · exact absurd iword word
    · exact absurd ibit bit

/-! ## The chip -/

/-- The channel sends the chip of its code phase. -/
def ChipSet (chan : Channel) : Prop :=
  chan.codeCA = chan.ca ⌊chan.codePhase⌋ * 2 - 1

/-- Every sample sets the chip. -/
theorem chipSet_updateChannel (nonneg : 0 ≤ (updateChannel step chan).codePhase) :
    ChipSet (updateChannel step chan) := by
  unfold ChipSet
  rw [← trunc_of_nonneg nonneg]
  rfl

theorem registers_sign (i j : Nat) :
    IsUnit ((registers i).1 j) ∧ IsUnit ((registers i).2 j) := by
  induction i generalizing j with
  | zero => exact ⟨isUnit_one.neg, isUnit_one.neg⟩
  | succ i ih =>
      simp only [registers, shiftRegisters]
      split
      · exact ⟨(ih 2).1.mul (ih 9).1, ((((ih 1).2.mul (ih 2).2).mul (ih 5).2).mul (ih 7).2
          |>.mul (ih 8).2).mul (ih 9).2⟩
      · exact ih (j - 1)

/-- The code of a satellite consists of zeros and ones. -/
theorem codegen_bit (ca : Int → Int) {prn i : Int} (satellite : 1 ≤ prn ∧ prn ≤ 32)
    (inside : 0 ≤ i ∧ i < caSeqLen) : codegen ca prn i = 0 ∨ codegen ca prn i = 1 := by
  unfold codegen
  rw [if_neg (by omega)]
  dsimp only
  rw [if_pos inside]
  have product := (registers_sign i.toNat 9).1.mul
    (registers_sign ((caSeqLen - delay.getD (prn - 1).toNat 0 + i.toNat) % caSeqLen) 9).2
  rcases Int.isUnit_iff.mp product with one | minusOne
  · rw [one]
    exact Or.inl rfl
  · rw [minusOne]
    exact Or.inr rfl

/-! ## The state that the loop starts from -/

/-- `computeCodePhase` sets the bit and the chip. -/
theorem computeCodePhase_set (lambda : ℚ) (chan : Channel) (rho1 : Range) (dt : ℚ)
    (positive : 0 ≤ transmitMs chan) :
    (computeCodePhase lambda chan rho1 dt).Counting ∧
      BitSet (computeCodePhase lambda chan rho1 dt) ∧
      ChipSet (computeCodePhase lambda chan rho1 dt) := by
  have counting := (position_computeCodePhase lambda chan rho1 dt positive).2
  refine ⟨counting, navBit_eq _ _ _, ?_⟩
  unfold ChipSet
  rw [← trunc_of_nonneg counting.codePhase.1]
  rfl

/-! ## After any number of samples -/

/-- `chan'` is what becomes of `chan` in `n` samples. -/
structure Tracks (step : ℚ) (n : Nat) (chan chan' : Channel) : Prop where
  signal : SameSignal chan chan'
  counting : chan'.Counting
  position : chan'.position = chan.position + n * step
  iword : chan.iword ≤ chan'.iword
  bit : BitSet chan ∨ chan'.iword ≠ chan.iword ∨ chan'.ibit ≠ chan.ibit → BitSet chan'
  chip : ChipSet chan ∨ 0 < n → ChipSet chan'
  iTable : (iTable chan' : Int) =
    (chan.carrPhase.toNat + n * chan.carrPhasestep) % 2 ^ 25 / 2 ^ 16

theorem samples_tracks (counting : chan.Counting) (nonneg : 0 ≤ step) (bound : step < 1023)
    (n : Nat) : Tracks step n chan (samples step chan n) := by
  have counting' := samples_counting counting nonneg bound n
  refine ⟨sameSignal_samples step chan n, counting',
    (samples_position step counting.toCounters n).2,
    (samples_iword step counting n).1, bitSet_samples, ?_, iTable_samples step chan n⟩
  intro set
  cases n with
  | zero =>
      rcases set with set | none
      · exact set
      · exact absurd none (lt_irrefl 0)
  | succ n =>
      rw [samples_succ] at counting' ⊢
      exact chipSet_updateChannel counting'.codePhase.1

/-- The chip that is sent is 1 or -1, as the code of the satellite has a one or a zero. -/
theorem codeCA_sign {ca : Int → Int} {prn : Int} (counting : chan.Counting) (set : ChipSet chan)
    (satellite : 1 ≤ prn ∧ prn ≤ 32) (code : chan.ca = codegen ca prn) :
    chan.codeCA = if chan.ca ⌊chan.codePhase⌋ = 1 then 1 else -1 := by
  rcases counting.codePhase with ⟨lower, upper⟩
  have inside : 0 ≤ ⌊chan.codePhase⌋ ∧ ⌊chan.codePhase⌋ < caSeqLen :=
    ⟨Int.floor_nonneg.mpr lower, Int.floor_lt.mpr (by exact_mod_cast upper)⟩
  have chip := codegen_bit ca satellite inside
  rw [set, code]
  rcases chip with zero | one
  · rw [zero]
    rfl
  · rw [one]
    rfl

/-- **An active channel in the sample loop**, after every number of samples.  The loop starts
from what `computeCodePhase` sets; as the word index only grows, no word outside `dwrd` has been
read while it is below `N_DWRD`. -/
theorem sampleLoop_tracks :
    (∀ (lambda : ℚ) (chan : Channel) (rho1 : Range) (dt : ℚ), 0 ≤ transmitMs chan →
      (computeCodePhase lambda chan rho1 dt).Counting ∧
        BitSet (computeCodePhase lambda chan rho1 dt) ∧
        ChipSet (computeCodePhase lambda chan rho1 dt)) ∧
    ∀ (delt : ℚ) (gain : Nat → Int) (chan : Nat → Channel) (i : Nat), i < maxChan →
      0 < (chan i).prn → (chan i).Counting →
      0 ≤ codeStep delt (chan i) → codeStep delt (chan i) < 1023 → ∀ n : Nat,
        Tracks (codeStep delt (chan i)) n (chan i)
            (afterSamples (codeStep delt) gain maxChan chan n i) ∧
          ∀ (ca : Int → Int) (prn : Int), 1 ≤ prn ∧ prn ≤ 32 → (chan i).ca = codegen ca prn →
            ChipSet (chan i) ∨ 0 < n →
            let chan' := afterSamples (codeStep delt) gain maxChan chan n i
            chan'.codeCA = if codegen ca prn ⌊chan'.codePhase⌋ = 1 then 1 else -1 := by
  refine ⟨computeCodePhase_set, ?_⟩
  intro delt gain chan i inside active counting nonneg bound n
  rw [afterSamples_active (codeStep_constant delt) inside active n]
  have tracks := samples_tracks counting nonneg bound n
  refine ⟨tracks, ?_⟩
  intro ca prn satellite code set
  have same := (sameSignal_samples (codeStep delt (chan i)) (chan i) n).ca.trans code
  have sign := codeCA_sign tracks.counting (tracks.chip set) satellite same
  rw [same] at sign
  exact sign

/-- A channel on satellite 1, half a chip before the end of a word. -/
def lastChip : Channel :=
  { idleChannel (fun _ _ => 0) with
    prn := 1
    ca := codegen (fun _ => 0) 1
    fCode := 1.023e6
    carrPhasestep := -70000
    codePhase := 1022.5
    ibit := 29
    icode := 19
    dwrd := fun _ => 0x20000000
    dataBit := -1
    codeCA := codegen (fun _ => 0) 1 1022 * 2 - 1 }

theorem sampleLoop_tracks_lastChip :
    let chan' := afterSamples (codeStep (1.0 / 1.023e6)) (fun _ => 128) maxChan
      (fun _ => lastChip) 1 0
    Tracks (codeStep (1.0 / 1.023e6) lastChip) 1 lastChip chan' ∧ chan'.dataBit = 1 :=
  ⟨(sampleLoop_tracks.2 (1.0 / 1.023e6) (fun _ => 128) (fun _ => lastChip) 0 (by decide) (by decide)
    ⟨⟨by decide, by decide⟩, by decide +kernel⟩ (by decide +kernel) (by decide +kernel) 1).1,
    by decide +kernel⟩

end Navisim.Signal
