import Navisim.Gps.Channel

/-!
# Code phase

`computeCodePhase`, the update of a channel after each sample and the C/A code.  The position of
a channel in its signal is counted in chips from the start of its navigation window
(`Channel.position`): `computeCodePhase` sets it, every sample advances it by one step, and the
counters carry without losing a chip (`position_updateChannel`).
-/

namespace Navisim.Signal

open Nav

def speedOfLight : ℚ := 2.99792458e8
def lambdaL1 : ℚ := 0.190293672798365
def carrFreq : ℚ := 1575.42e6
def codeFreq : ℚ := 1.023e6
def carrToCode : ℚ := 1.0 / 1540.0

/-! ## The C/A code -/

/-- `delay` -/
def delay : Array Nat :=
  #[5, 6, 7, 8, 17, 18, 139, 140, 141, 251,
    252, 254, 255, 256, 257, 258, 469, 470, 471, 472,
    473, 474, 509, 512, 513, 514, 515, 516, 859, 860,
    861, 862]

/-- One turn of the loop that fills `g1` and `g2`: the two registers shift by one place. -/
def shiftRegisters (r : (Nat → Int) × (Nat → Int)) : (Nat → Int) × (Nat → Int) :=
  let c1 := r.1 2 * r.1 9
  let c2 := r.2 1 * r.2 2 * r.2 5 * r.2 7 * r.2 8 * r.2 9
  (fun j => if j = 0 then c1 else r.1 (j - 1), fun j => if j = 0 then c2 else r.2 (j - 1))

/-- The registers before turn `i`. -/
def registers : Nat → (Nat → Int) × (Nat → Int)
  | 0 => (fun _ => -1, fun _ => -1)
  | i + 1 => shiftRegisters (registers i)

def codegen (ca : Int → Int) (prn : Int) : Int → Int :=
  if prn < 1 ∨ prn > 32 then ca
  else fun i =>
    if 0 ≤ i ∧ i < caSeqLen then
      let j := caSeqLen - delay.getD (prn - 1).toNat 0 + i.toNat
      (1 - (registers i.toNat).1 9 * (registers (j % caSeqLen)).2 9).tdiv 2
    else ca i

/-! ## Channel updates -/

/-- `(int)((dwrd[iword]>>(29-ibit)) & 0x1UL)*2-1` -/
def navBit (dwrd : Int → Word) (iword ibit : Int) : Int :=
  ((dwrd iword >>> (29 - ibit).toNat) &&& 0x1).toNat * 2 - 1

/-- `lambda` stands for `LAMBDA_L1`. -/
def computeCodePhase (lambda : ℚ) (chan : Channel) (rho1 : Range) (dt : ℚ) : Channel :=
  -- Pseudorange rate
  let rhorate := (rho1.range - chan.rho0.range) / dt
  -- Carrier and code frequency
  let fCarr := -rhorate / lambda
  let fCode := codeFreq + fCarr * carrToCode
  -- Initial code phase and data bit counters
  let ms := (subGpsTime chan.rho0.g chan.g0 + 6.0 - chan.rho0.range / speedOfLight) * 1000.0
  let ims := trunc ms
  let codePhase := (ms - ims) * caSeqLen
  let iword := ims.tdiv 600
  let ims := ims - iword * 600
  let ibit := ims.tdiv 20
  let ims := ims - ibit * 20
  { chan with
    fCarr := fCarr
    fCode := fCode
    codePhase := codePhase
    iword := iword
    ibit := ibit
    icode := ims
    codeCA := chan.ca (trunc codePhase) * 2 - 1
    dataBit := navBit chan.dwrd iword ibit
    -- Save current pseudorange
    rho0 := rho1 }

/-- 30 navigation data bits = 1 word -/
def carryWord (chan : Channel) : Channel :=
  if chan.ibit ≥ 30 then { chan with ibit := 0, iword := chan.iword + 1 } else chan

/-- 20 C/A codes = 1 navigation data bit -/
def carryBit (chan : Channel) : Channel :=
  if chan.icode ≥ 20 then
    let chan := carryWord { chan with icode := 0, ibit := chan.ibit + 1 }
    -- Set new navigation data bit
    { chan with dataBit := navBit chan.dwrd chan.iword chan.ibit }
  else chan

/-- The carry of the code phase into the counters. -/
def carryChip (chan : Channel) : Channel :=
  if chan.codePhase ≥ caSeqLen then
    carryBit { chan with codePhase := chan.codePhase - caSeqLen, icode := chan.icode + 1 }
  else chan

/-- The update of a channel after a sample, with the code phase step `step`. -/
def updateChannel (step : ℚ) (chan : Channel) : Channel :=
  -- Update code phase
  let chan := carryChip { chan with codePhase := chan.codePhase + step }
  { chan with
    -- Set current code chip
    codeCA := chan.ca (trunc chan.codePhase) * 2 - 1
    -- Update carrier phase
    carrPhase := chan.carrPhase + BitVec.ofInt 32 chan.carrPhasestep }

/-! ## Positions -/

variable {lambda step dt : ℚ} {chan : Channel} {rho1 : Range}

/-- The transmit time of a channel's signal, in milliseconds from the start of its window. -/
def transmitMs (chan : Channel) : ℚ :=
  (chan.rho0.g.total - chan.g0.total + 6 - chan.rho0.range / speedOfLight) * 1000

/-- `computeCodePhase` sets the counters to the transmit time. -/
theorem position_computeCodePhase (lambda : ℚ) (chan : Channel) (rho1 : Range) (dt : ℚ)
    (positive : 0 ≤ transmitMs chan) :
    (computeCodePhase lambda chan rho1 dt).position = transmitMs chan * 1023 ∧
      (computeCodePhase lambda chan rho1 dt).Counting := by
  have ms : (subGpsTime chan.rho0.g chan.g0 + 6.0 - chan.rho0.range / speedOfLight) * 1000.0 =
      transmitMs chan := by
    rw [subGpsTime_eq, transmitMs]
    norm_num
  have floor : trunc (transmitMs chan) = ⌊transmitMs chan⌋ := trunc_of_nonneg positive
  have nonneg : 0 ≤ ⌊transmitMs chan⌋ := Int.floor_nonneg.mpr positive
  have below := Int.floor_le (transmitMs chan)
  have above := Int.lt_floor_add_one (transmitMs chan)
  have word := Int.tdiv_eq_ediv_of_nonneg nonneg (b := 600)
  have bit := Int.tdiv_eq_ediv_of_nonneg
    (a := ⌊transmitMs chan⌋ - ⌊transmitMs chan⌋ / 600 * 600) (b := 20) (by omega)
  simp only [computeCodePhase, ms, floor, caSeqLen, word, bit]
  generalize ⌊transmitMs chan⌋ = ims at nonneg below above
  constructor
  · have total : ((ims / 600 * 30 + (ims - ims / 600 * 600) / 20) * 20 +
        (ims - ims / 600 * 600 - (ims - ims / 600 * 600) / 20 * 20)) = ims := by
      omega
    simp only [Channel.position, total]
    push_cast
    ring
  · refine ⟨⟨by dsimp only; omega, by dsimp only; omega⟩, ?_, ?_⟩
    · dsimp only
      have : 0 ≤ transmitMs chan - ims := by linarith
      positivity
    · dsimp only
      push_cast
      linarith

/-! ### Carries keep the position -/

theorem position_carryWord (chan : Channel) (ibit : chan.ibit ≤ 30) :
    (carryWord chan).position = chan.position := by
  unfold carryWord
  split
  · have full : chan.ibit = 30 := by omega
    simp only [Channel.position, full]
    push_cast
    ring
  · rfl

theorem position_carryBit (chan : Channel) (icode : chan.icode ≤ 20) (ibit : chan.ibit < 30) :
    (carryBit chan).position = chan.position := by
  unfold carryBit
  split
  · have full : chan.icode = 20 := by omega
    have word := position_carryWord { chan with icode := 0, ibit := chan.ibit + 1 }
      (by dsimp only; omega)
    apply word.trans
    simp only [Channel.position, full]
    push_cast
    ring
  · rfl

theorem position_carryChip (chan : Channel) (icode : chan.icode < 20) (ibit : chan.ibit < 30) :
    (carryChip chan).position = chan.position := by
  unfold carryChip
  split
  · have bit := position_carryBit
      { chan with codePhase := chan.codePhase - caSeqLen, icode := chan.icode + 1 }
      (by dsimp only; omega) ibit
    apply bit.trans
    simp only [Channel.position, caSeqLen]
    push_cast
    ring
  · rfl

/-! ### Carries bring the counters back into their ranges -/

theorem counters_carryWord (chan : Channel) (ibit : 0 ≤ chan.ibit ∧ chan.ibit ≤ 30)
    (icode : 0 ≤ chan.icode ∧ chan.icode < 20) : (carryWord chan).Counters := by
  unfold carryWord
  split
  · exact ⟨⟨le_refl 0, (by decide : (0 : Int) < 30)⟩, icode⟩
  · exact ⟨by omega, icode⟩

theorem counters_carryBit (chan : Channel) (ibit : 0 ≤ chan.ibit ∧ chan.ibit < 30)
    (icode : 0 ≤ chan.icode ∧ chan.icode ≤ 20) : (carryBit chan).Counters := by
  unfold carryBit
  split
  · obtain ⟨ibit', icode'⟩ := counters_carryWord
      { chan with icode := 0, ibit := chan.ibit + 1 } (by dsimp only; omega)
      ⟨le_refl 0, (by decide : (0 : Int) < 20)⟩
    exact ⟨ibit', icode'⟩
  · exact ⟨ibit, by omega⟩

theorem counters_carryChip (chan : Channel) (counters : chan.Counters) :
    (carryChip chan).Counters := by
  obtain ⟨ibit, icode⟩ := counters
  unfold carryChip
  split
  · exact counters_carryBit _ ibit (by dsimp only; omega)
  · exact ⟨ibit, icode⟩

theorem codePhase_carryBit : (carryBit chan).codePhase = chan.codePhase := by
  unfold carryBit carryWord
  split
  · split <;> rfl
  · rfl

theorem codePhase_carryChip (chan : Channel)
    (codePhase : 0 ≤ chan.codePhase ∧ chan.codePhase < 2 * 1023) :
    0 ≤ (carryChip chan).codePhase ∧ (carryChip chan).codePhase < 1023 := by
  have length : ((caSeqLen : Nat) : ℚ) = 1023 := by norm_num [caSeqLen]
  unfold carryChip
  by_cases full : chan.codePhase ≥ caSeqLen
  · rw [if_pos full, codePhase_carryBit]
    rw [length] at full
    dsimp only
    rw [length]
    constructor <;> linarith
  · rw [if_neg full]
    rw [length, not_le] at full
    exact ⟨codePhase.1, full⟩

/-! ### Samples -/

/-- What a sample changes: the position grows by the step. -/
theorem position_updateChannel (counters : chan.Counters) :
    (updateChannel step chan).position = chan.position + step := by
  have carried := position_carryChip { chan with codePhase := chan.codePhase + step }
    counters.icode.2 counters.ibit.2
  calc (updateChannel step chan).position
      = (carryChip { chan with codePhase := chan.codePhase + step }).position := rfl
    _ = chan.position + step := by
        rw [carried]
        simp only [Channel.position]
        ring

theorem counters_updateChannel (counters : chan.Counters) :
    (updateChannel step chan).Counters := by
  obtain ⟨ibit, icode⟩ := counters_carryChip
    { chan with codePhase := chan.codePhase + step } ⟨counters.ibit, counters.icode⟩
  exact ⟨ibit, icode⟩

theorem counting_updateChannel (counting : chan.Counting) (nonneg : 0 ≤ step)
    (bound : step < 1023) : (updateChannel step chan).Counting := by
  obtain ⟨counters, lower, upper⟩ := counting
  exact ⟨counters_updateChannel counters,
    codePhase_carryChip { chan with codePhase := chan.codePhase + step }
      ⟨by dsimp only; linarith, by dsimp only; linarith⟩⟩

/-- The counters are the digits of the position. -/
theorem iword_eq_floor (counting : chan.Counting) :
    chan.iword = ⌊chan.position / (600 * 1023)⌋ := by
  obtain ⟨⟨⟨bitNonneg, bitLt⟩, codeNonneg, codeLt⟩, phaseNonneg, phaseLt⟩ := counting
  have low : (0 : ℚ) ≤ chan.ibit * 20 + chan.icode ∧
      (chan.ibit * 20 + chan.icode : ℚ) ≤ 599 := by
    have : 0 ≤ chan.ibit * 20 + chan.icode ∧ chan.ibit * 20 + chan.icode ≤ 599 := by omega
    exact_mod_cast this
  symm
  rw [Int.floor_eq_iff]
  simp only [Channel.position]
  push_cast
  constructor
  · rw [le_div_iff₀ (by norm_num)]
    nlinarith
  · rw [div_lt_iff₀ (by norm_num)]
    nlinarith

end Navisim.Signal
