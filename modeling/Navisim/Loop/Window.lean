import Navisim.Loop.Blocks
import Navisim.Nav.RoundTrip

/-!
# The navigation window

Where the signal of a channel stands in its window of 60 words.  The window of an active channel
starts at the 30-second frame of its last pseudorange (`gen_onTime`), so that the position is
known at every sample (`position_sampled`): it stays inside the window
(`sampled_inWindow`), and the end of a block is the start of the next (`block_boundary`).
-/

namespace Navisim.Loop

open Nav Signal

/-! ## Frames -/

/-- The second of the week of a time that is a whole second. -/
theorem sec_of_whole {g : GpsTime ℚ} {T : Int} (whole : T % 10 = 0) (tenths : g.total = T / 10) :
    ∃ S, T = 10 * S ∧ g.sec = ((S - g.week * 604800 : Int) : ℚ) := by
  obtain ⟨S, rfl⟩ : ∃ S, T = 10 * S := ⟨T / 10, by omega⟩
  refine ⟨S, rfl, ?_⟩
  unfold GpsTime.total at tenths
  push_cast at tenths ⊢
  linarith

/-- The frame of a whole second, in tenths of a second. -/
theorem frameStart_total {g : GpsTime ℚ} {T : Int} (inWeek : g.InWeek) (whole : T % 10 = 0)
    (tenths : g.total = T / 10) : (frameStart g).total = 30 * ((T / 300 : Int) : ℚ) := by
  obtain ⟨S, rfl, sec⟩ := sec_of_whole whole tenths
  have nonneg : 0 ≤ S - g.week * 604800 := by
    have lower := inWeek.1
    rw [sec] at lower
    exact_mod_cast lower
  obtain ⟨m, second⟩ := Int.eq_ofNat_of_zero_le nonneg
  have rounded : trunc (g.sec + 0.5) = m := by
    have lower : (0 : ℚ) ≤ ((m : Int) : ℚ) := by
      rw [Int.cast_natCast]
      exact Nat.cast_nonneg m
    rw [sec, second, trunc_of_nonneg (by linarith [show (0 : ℚ) ≤ 0.5 by norm_num]),
      Int.floor_intCast_add]
    norm_num
  have frame : 10 * S / 300 = (m / 30 : Nat) + g.week * 20160 := by
    push_cast
    omega
  simp only [GpsTime.total, frameStart]
  rw [rounded, Int.toNat_natCast, frame, Int.cast_add, Int.cast_natCast]
  push_cast
  norm_num
  ring

/-- The last pseudorange of a channel is that of the time `T`, in tenths of a second, and its
window starts at the frame of this time. -/
structure OnTime (T : Int) (chan : Channel) : Prop where
  applied : chan.rho0.g.total = (T : ℚ) / 10
  window : chan.g0.total = 30 * ((T / 300 : Int) : ℚ)

section Runs

variable {sc : Scenario} {t : Int} {n i : Nat}

/-- The windows of the active channels follow the receiver time, in every run. -/
theorem gen_onTime (tenths : sc.g0.total = t / 10) (whole : t % 10 = 0) (n : Nat)
    (inside : i < maxChan) (active : 0 < ((sc.gen n).chan i).prn) :
    OnTime (t + n) ((sc.gen n).chan i) := by
  have applied : ∀ n, ∀ i < maxChan, 0 < ((sc.gen n).chan i).prn →
      (sc.sampled n iqBuffSize i).rho0.g.total = ((t + n + 1 : Int) : ℚ) / 10 := by
    intro n i inside active
    rw [Scenario.sampled, during_rho0 inside active]
    exact gen_total tenths n
  refine gen_invariant tenths whole ?_ ?_ ?_ n inside active
  · intro eph grx xyz sv chan T whole inWeek total
    exact ⟨total, frameStart_total inWeek whole total⟩
  · intro n i inside active quiet before
    refine ⟨applied n i inside active, ?_⟩
    have frame : (t + n + 1) / 300 = (t + n) / 300 := by omega
    rw [frame, ← before.window]
    exact congrArg GpsTime.total (refreshed_sampled inside iqBuffSize).g0
  · intro n i inside active zero before
    obtain ⟨sbf, renewal, -⟩ := renewed_active sc (sc.gen n).ieph (sc.gen n).grx
      (sampled_active inside active iqBuffSize)
    rw [renewal]
    exact ⟨applied n i inside active,
      frameStart_total (gen_inWeek n) (by omega) (gen_total tenths n)⟩

end Runs

/-! ## Positions in a block -/

/-- The pseudorange of a channel in seconds. -/
def Channel.travelTime (chan : Channel) : ℚ :=
  chan.rho0.range / speedOfLight

/-- A satellite less than six light-seconds away. -/
def Channel.InReach (chan : Channel) : Prop :=
  0 < Channel.travelTime chan ∧ Channel.travelTime chan < 6

/-- A code phase step that is at most carried once. -/
def Channel.StepInRange (chan : Channel) : Prop :=
  0 ≤ codeStep delt chan ∧ codeStep delt chan < caSeqLen

/-- The part of the change of the travel time that the Doppler shift makes up for. -/
def dopplerShare (lambda : ℚ) : ℚ :=
  speedOfLight / carrFreq / lambda

section Block

variable {sc : Scenario} {t : Int} {n i : Nat}

/-- A block starts at the transmit time. -/
theorem sampled_zero (inside : i < maxChan) (active : 0 < ((sc.gen n).chan i).prn)
    (positive : 0 ≤ transmitMs ((sc.gen n).chan i)) :
    (sc.sampled n 0 i).position = transmitMs ((sc.gen n).chan i) * 1023 ∧
      (sc.sampled n 0 i).Counting := by
  have first : sc.sampled n 0 i =
      sc.refreshChannel (sc.gen n).ieph (sc.gen n).grx (n + 1) ((sc.gen n).chan i) :=
    refresh_chan inside
  rw [first, Scenario.refreshChannel, if_pos active]
  generalize (sc.gen n).chan i = chan at positive
  set rho := sc.currentRange (sc.gen n).ieph (sc.gen n).grx (n + 1) chan
  obtain ⟨position, counting⟩ := position_computeCodePhase sc.lambda
    { chan with azel := rho.azel } rho 0.1 positive
  exact ⟨position, ⟨⟨counting.ibit, counting.icode⟩, counting.codePhase⟩⟩

/-- The code phase step of a block follows from the change of the travel time. -/
theorem codeStep_sampled_zero (sc : Scenario) (n : Nat) (inside : i < maxChan)
    (active : 0 < ((sc.gen n).chan i).prn) :
    codeStep delt (sc.sampled n 0 i) = 1023 / 2000 - 1023 / 200 * dopplerShare sc.lambda *
      (Channel.travelTime (sc.sampled n 0 i) - Channel.travelTime ((sc.gen n).chan i)) := by
  have first : sc.sampled n 0 i =
      sc.refreshChannel (sc.gen n).ieph (sc.gen n).grx (n + 1) ((sc.gen n).chan i) :=
    refresh_chan inside
  have rate : (sc.sampled n 0 i).fCode = codeFreq +
      -(((sc.sampled n 0 i).rho0.range - ((sc.gen n).chan i).rho0.range) / 0.1) / sc.lambda *
        carrToCode := by
    rw [first, Scenario.refreshChannel, if_pos active]
    rfl
  have share : dopplerShare sc.lambda = speedOfLight / carrFreq * (1 / sc.lambda) := by
    rw [dopplerShare]
    ring
  have code : codeFreq = 1023000 ∧ carrToCode = 1 / 1540 := by
    norm_num [codeFreq, carrToCode]
  have carrier : carrFreq = 1575420000 ∧ speedOfLight = 299792458 := by
    norm_num [carrFreq, speedOfLight]
  have tenth : (0.1 : ℚ) = 1 / 10 := by norm_num
  rw [codeStep, rate, delt_eq, share, Channel.travelTime, Channel.travelTime, code.1, code.2,
    carrier.1, carrier.2, tenth]
  ring

/-- The transmit time of an active channel lies inside its window. -/
theorem transmitMs_eq (tenths : sc.g0.total = t / 10) (whole : t % 10 = 0) (inside : i < maxChan)
    (active : 0 < ((sc.gen n).chan i).prn) :
    transmitMs ((sc.gen n).chan i) = (((t + n) % 300 : Int) : ℚ) * 100 + 6000 -
      Channel.travelTime ((sc.gen n).chan i) * 1000 := by
  obtain ⟨applied, window⟩ := gen_onTime tenths whole n inside active
  have split : ((t + n : Int) : ℚ) =
      300 * (((t + n) / 300 : Int) : ℚ) + (((t + n) % 300 : Int) : ℚ) := by
    exact_mod_cast (Int.mul_ediv_add_emod (t + n) 300).symm
  rw [transmitMs, applied, window, split, Channel.travelTime]
  ring

theorem transmitMs_nonneg (tenths : sc.g0.total = t / 10) (whole : t % 10 = 0)
    (inside : i < maxChan) (active : 0 < ((sc.gen n).chan i).prn)
    (reach : Channel.InReach ((sc.gen n).chan i)) : 0 ≤ transmitMs ((sc.gen n).chan i) := by
  rw [transmitMs_eq tenths whole inside active]
  have residue : (0 : ℚ) ≤ (((t + n) % 300 : Int) : ℚ) := by
    exact_mod_cast Int.emod_nonneg (t + n) (by decide)
  linarith [reach.2]

/-- **The position at a sample**: the time since the start of the window, less a travel time
between that of the last pseudorange and that of the current one. -/
theorem position_sampled (tenths : sc.g0.total = t / 10) (whole : t % 10 = 0)
    (inside : i < maxChan) (active : 0 < ((sc.gen n).chan i).prn)
    (reach : Channel.InReach ((sc.gen n).chan i)) (isamp : Nat) :
    (sc.sampled n isamp i).Counters ∧
    (sc.sampled n isamp i).position = 1023 * ((((t + n) % 300 : Int) : ℚ) * 100 + 6000 +
      isamp / 2000 - 1000 * (Channel.travelTime ((sc.gen n).chan i) +
        isamp / 200000 * dopplerShare sc.lambda * (Channel.travelTime (sc.sampled n 0 i) -
          Channel.travelTime ((sc.gen n).chan i)))) := by
  obtain ⟨position, counting⟩ := sampled_zero inside active
    (transmitMs_nonneg tenths whole inside active reach)
  obtain ⟨counters, moved⟩ := samples_position (codeStep delt (sc.sampled n 0 i))
    counting.toCounters isamp
  rw [sampled_eq_samples inside active]
  refine ⟨counters, ?_⟩
  rw [moved, position, codeStep_sampled_zero sc n inside active,
    transmitMs_eq tenths whole inside active]
  ring

theorem counting_sampled (tenths : sc.g0.total = t / 10) (whole : t % 10 = 0)
    (inside : i < maxChan) (active : 0 < ((sc.gen n).chan i).prn)
    (reach : Channel.InReach ((sc.gen n).chan i))
    (step : Channel.StepInRange (sc.sampled n 0 i)) (isamp : Nat) :
    (sc.sampled n isamp i).Counting := by
  obtain ⟨-, counting⟩ := sampled_zero inside active
    (transmitMs_nonneg tenths whole inside active reach)
  rw [sampled_eq_samples inside active]
  refine samples_counting counting step.1 ?_ isamp
  have bound := step.2
  norm_num [caSeqLen] at bound
  exact bound

end Block

/-! ## The window is never left -/

/-- The start time is a whole second. -/
def Scenario.WholeSecond (sc : Scenario) : Prop :=
  ∃ second : Int, sc.g0.sec = second

theorem Scenario.WholeSecond.tenths {sc : Scenario} (whole : sc.WholeSecond) :
    ∃ t : Int, sc.g0.total = (t : ℚ) / 10 ∧ t % 10 = 0 := by
  obtain ⟨second, sec⟩ := whole
  refine ⟨10 * (sc.g0.week * 604800 + second), ?_, by omega⟩
  rw [GpsTime.total, sec]
  push_cast
  ring

/-- The indices with which a channel reads `dwrd` and `ca`, and shifts a word, are valid. -/
structure Channel.InWindow (chan : Channel) : Prop where
  iword : 0 ≤ chan.iword ∧ chan.iword < nDwrd
  ibit : 0 ≤ chan.ibit ∧ chan.ibit < 30
  icode : 0 ≤ chan.icode ∧ chan.icode < 20
  codePhase : 0 ≤ trunc chan.codePhase ∧ trunc chan.codePhase < caSeqLen

theorem inWindow_of_position {chan : Channel} (counting : chan.Counting)
    (lower : 0 ≤ chan.position) (upper : chan.position < 60 * (600 * 1023)) :
    Channel.InWindow chan := by
  have word := iword_eq_floor counting
  obtain ⟨⟨ibit, icode⟩, nonneg, bound⟩ := counting
  refine ⟨⟨?_, ?_⟩, ibit, icode, ?_, ?_⟩
  · rw [word]
    exact Int.floor_nonneg.mpr (by positivity)
  · rw [word, Int.floor_lt, div_lt_iff₀ (by norm_num)]
    norm_num [nDwrd, nSbf, nDwrdSbf] at upper ⊢
    exact upper
  · rw [trunc_of_nonneg nonneg]
    exact Int.floor_nonneg.mpr nonneg
  · rw [trunc_of_nonneg nonneg, Int.floor_lt]
    norm_num [caSeqLen]
    exact bound

/-- `LAMBDA_L1` is not below the wavelength of the carrier. -/
theorem dopplerShare_lambdaL1 : 0 ≤ dopplerShare lambdaL1 ∧ dopplerShare lambdaL1 ≤ 1 := by
  norm_num [dopplerShare, lambdaL1, speedOfLight, carrFreq]

/-- A point between two travel times. -/
theorem between_travelTimes {a b x : ℚ} (first : 0 < a ∧ a < 6) (second : 0 < b ∧ b < 6)
    (share : 0 ≤ x ∧ x ≤ 1) : 0 < a + x * (b - a) ∧ a + x * (b - a) < 6 := by
  obtain ⟨lower, upper⟩ := share
  constructor
  · nlinarith [mul_nonneg lower first.1.le, mul_nonneg lower second.1.le,
      mul_nonneg (sub_nonneg.mpr upper) first.1.le]
  · nlinarith [mul_nonneg lower (sub_nonneg.mpr second.2.le),
      mul_nonneg (sub_nonneg.mpr upper) (sub_nonneg.mpr first.2.le)]

section Bounds

variable {sc : Scenario} {n i isamp : Nat}

/-- The position of a sample lies in the 36 seconds of the window. -/
theorem position_sampled_bounds (whole : sc.WholeSecond)
    (share : 0 ≤ dopplerShare sc.lambda ∧ dopplerShare sc.lambda ≤ 1) (inside : i < maxChan)
    (active : 0 < ((sc.gen n).chan i).prn) (reach : Channel.InReach ((sc.gen n).chan i))
    (reach' : Channel.InReach (sc.sampled n 0 i)) (inBlock : isamp ≤ iqBuffSize) :
    0 ≤ (sc.sampled n isamp i).position ∧
      (sc.sampled n isamp i).position < 60 * (600 * 1023) := by
  obtain ⟨t, tenths, multiple⟩ := whole.tenths
  obtain ⟨-, position⟩ := position_sampled tenths multiple inside active reach isamp
  have residue : (0 : ℚ) ≤ (((t + n) % 300 : Int) : ℚ) ∧ (((t + n) % 300 : Int) : ℚ) ≤ 299 := by
    have := Int.emod_nonneg (t + n) (b := 300) (by decide)
    have := Int.emod_lt_of_pos (t + n) (b := 300) (by decide)
    constructor <;> exact_mod_cast by omega
  have part : (0 : ℚ) ≤ (isamp : ℚ) / 200000 ∧ (isamp : ℚ) / 200000 ≤ 1 := by
    rw [iqBuffSize_eq] at inBlock
    have bound : (isamp : ℚ) ≤ 200000 := by exact_mod_cast inBlock
    constructor
    · positivity
    · linarith
  have between := between_travelTimes reach reach'
    (x := isamp / 200000 * dopplerShare sc.lambda)
    ⟨mul_nonneg part.1 share.1, mul_le_one₀ part.2 share.1 share.2⟩
  rw [position]
  constructor <;> linarith

/-- **No sample leaves the window**: at every sample of every block of a run, an active channel
reads `dwrd` and `ca` at valid indices. -/
theorem sampled_inWindow (wavelength : sc.lambda = lambdaL1) (whole : sc.WholeSecond)
    (inside : i < maxChan) (active : 0 < ((sc.gen n).chan i).prn)
    (reach : Channel.InReach ((sc.gen n).chan i)) (reach' : Channel.InReach (sc.sampled n 0 i))
    (step : Channel.StepInRange (sc.sampled n 0 i)) (inBlock : isamp ≤ iqBuffSize) :
    Channel.InWindow (sc.sampled n isamp i) := by
  obtain ⟨t, tenths, multiple⟩ := whole.tenths
  obtain ⟨lower, upper⟩ := position_sampled_bounds whole
    (by rw [wavelength]; exact dopplerShare_lambdaL1) inside active reach reach' inBlock
  exact inWindow_of_position (counting_sampled tenths multiple inside active reach step isamp)
    lower upper

end Bounds

/-! ### A run that tracks one satellite -/

/-- A sky with every satellite overhead, at a constant distance. -/
def overhead : Orbits where
  azel _ _ _ := (0, 1)
  rho _ _ g _ := {
    g := g
    range := 20200000
    rate := 0
    d := 20200000
    azel := (0, 1)
    ionoDelay := 0 }

theorem visible_overhead {eph : Ephem ℚ} (valid : eph.vflg = 1) (grx : GpsTime ℚ)
    (xyz : Position) : checkSatVisibility overhead eph grx xyz 0.0 = 1 := by
  have high : (overhead.azel eph grx xyz).2 * r2d > 0.0 := by
    norm_num [overhead, r2d]
  rw [checkSatVisibility, if_neg (not_not.mpr valid), if_pos high]

/-- The first satellite has a valid entry in every set. -/
def sampleScenario (lambda : ℚ) : Scenario where
  orbits := overhead
  lambda := lambda
  eph _ sv := if sv = 0 then sampleEphem else { sampleEphem with vflg := 0 }
  ionoutc := sampleIono
  staticLocationMode := true
  xyz _ := (0, 0, 6378137)
  antPat _ := 1
  g0 := { week := 2200, sec := 0 }
  ieph := 0
  chan _ := idleChannel (fun _ _ => 0)
  gain _ := 0

theorem sampleScenario_start : ∀ lambda ∈ [lambdaL1, speedOfLight / carrFreq],
    (((sampleScenario lambda).gen 0).chan 0).prn = 1 ∧
      (((sampleScenario lambda).gen 0).chan 0).rho0.range = 20200000 := by
  decide +kernel

theorem sampleScenario_active {lambda : ℚ}
    (member : lambda ∈ [lambdaL1, speedOfLight / carrFreq]) :
    0 < (((sampleScenario lambda).gen 0).chan 0).prn := by
  rw [(sampleScenario_start lambda member).1]
  decide

theorem sampleScenario_whole (lambda : ℚ) : (sampleScenario lambda).WholeSecond :=
  ⟨0, by norm_num [sampleScenario]⟩

/-- The pseudorange that a block computes. -/
theorem sampleScenario_range {lambda : ℚ} {n : Nat}
    (active : 0 < (((sampleScenario lambda).gen n).chan 0).prn) :
    ((sampleScenario lambda).sampled n 0 0).rho0.range = 20200000 := by
  rw [Scenario.sampled, during_rho0 (by decide) active]
  rfl

/-- A block that starts with this pseudorange meets the conditions. -/
theorem sampleScenario_block {lambda : ℚ} {n : Nat}
    (active : 0 < (((sampleScenario lambda).gen n).chan 0).prn)
    (range : (((sampleScenario lambda).gen n).chan 0).rho0.range = 20200000) :
    Channel.InReach (((sampleScenario lambda).gen n).chan 0) ∧
      Channel.InReach ((sampleScenario lambda).sampled n 0 0) ∧
      Channel.StepInRange ((sampleScenario lambda).sampled n 0 0) := by
  have range' := sampleScenario_range active
  have step := codeStep_sampled_zero (sampleScenario lambda) n (by decide) active
  rw [Channel.travelTime, Channel.travelTime, range, range', sub_self, mul_zero, sub_zero] at step
  refine ⟨?_, ?_, ?_⟩
  · norm_num [Channel.InReach, Channel.travelTime, range, speedOfLight]
  · norm_num [Channel.InReach, Channel.travelTime, range', speedOfLight]
  · rw [Channel.StepInRange, step]
    norm_num [caSeqLen]

/-- The first block of the run meets the conditions. -/
theorem sampleScenario_tracks {lambda : ℚ} (member : lambda ∈ [lambdaL1, speedOfLight / carrFreq]) :
    Channel.InReach (((sampleScenario lambda).gen 0).chan 0) ∧
      Channel.InReach ((sampleScenario lambda).sampled 0 0 0) ∧
      Channel.StepInRange ((sampleScenario lambda).sampled 0 0 0) :=
  sampleScenario_block (sampleScenario_active member) (sampleScenario_start lambda member).2

theorem sampled_inWindow_sample :
    Channel.InWindow ((sampleScenario lambdaL1).sampled 0 iqBuffSize 0) := by
  have member : lambdaL1 ∈ [lambdaL1, speedOfLight / carrFreq] := by simp
  obtain ⟨reach, reach', step⟩ := sampleScenario_tracks member
  exact sampled_inWindow rfl (sampleScenario_whole _) (by decide)
    (sampleScenario_active member) reach reach' step le_rfl

/-! ## Block boundaries -/

/-- A number of chips is in one way a number of code periods and a code phase. -/
theorem periods_unique {n m : Int} {x y : ℚ} (first : 0 ≤ x ∧ x < 1023) (second : 0 ≤ y ∧ y < 1023)
    (same : (n : ℚ) * 1023 + x = m * 1023 + y) : n = m ∧ x = y := by
  have upper : (n : ℚ) < ((m + 1 : Int) : ℚ) := by
    push_cast
    linarith
  have lower : (m : ℚ) < ((n + 1 : Int) : ℚ) := by
    push_cast
    linarith
  have periods : n = m := by
    have := Int.cast_lt.mp upper
    have := Int.cast_lt.mp lower
    omega
  subst periods
  exact ⟨rfl, by linarith⟩

/-- Positions that are whole words apart have the same digits below the word index. -/
theorem digits_of_position {chan chan' : Channel} {words : Int} (counting : chan.Counting)
    (counting' : chan'.Counting)
    (apart : chan.position = chan'.position + words * (600 * 1023)) :
    chan.iword = chan'.iword + words ∧ chan.ibit = chan'.ibit ∧ chan.icode = chan'.icode ∧
      chan.codePhase = chan'.codePhase := by
  have word := iword_eq_floor counting
  have word' := iword_eq_floor counting'
  have shift : chan.iword = chan'.iword + words := by
    rw [word, word', apart, add_div, mul_div_assoc, div_self (by norm_num), mul_one,
      Int.floor_add_intCast]
  obtain ⟨⟨ibit, icode⟩, phase⟩ := counting
  obtain ⟨⟨ibit', icode'⟩, phase'⟩ := counting'
  simp only [Channel.position, shift] at apart
  obtain ⟨periods, same⟩ : chan.ibit * 20 + chan.icode = chan'.ibit * 20 + chan'.icode ∧
      chan.codePhase = chan'.codePhase := by
    apply periods_unique phase phase'
    push_cast at apart ⊢
    linarith
  exact ⟨shift, by omega, by omega, same⟩

/-- The words that the window moves at the end of the block that follows `n` blocks. -/
def Scenario.windowShift (sc : Scenario) (n : Nat) : Int :=
  if sc.renews n then 50 else 0

section Boundary

variable {sc : Scenario} {n i : Nat}

/-- The pseudorange with which a channel leaves a block is the one it was set to. -/
theorem gen_succ_rho0 (inside : i < maxChan) (active : 0 < ((sc.gen n).chan i).prn)
    (kept : ((sc.gen (n + 1)).chan i).prn = ((sc.gen n).chan i).prn) :
    ((sc.gen (n + 1)).chan i).rho0 = (sc.sampled n 0 i).rho0 := by
  have last : (sc.sampled n iqBuffSize i).rho0 = (sc.sampled n 0 i).rho0 := by
    rw [Scenario.sampled, Scenario.sampled, during_rho0 inside active, during_rho0 inside active]
  rw [gen_succ_kept inside active kept]
  split
  · obtain ⟨sbf, renewal, -⟩ := renewed_active sc (sc.gen n).ieph (sc.gen n).grx
      (sampled_active inside active iqBuffSize)
    rw [renewal]
    exact last
  · exact last

/-- **No chip is lost or repeated between two blocks**: the position after the samples of a block
is the position the next block starts from, up to the 50 words of a renewed window. -/
theorem block_boundary (wavelength : sc.lambda = speedOfLight / carrFreq) (whole : sc.WholeSecond)
    (inside : i < maxChan) (active : 0 < ((sc.gen n).chan i).prn)
    (kept : ((sc.gen (n + 1)).chan i).prn = ((sc.gen n).chan i).prn)
    (reach : Channel.InReach ((sc.gen n).chan i)) (reach' : Channel.InReach (sc.sampled n 0 i))
    (step : Channel.StepInRange (sc.sampled n 0 i)) :
    (sc.sampled n iqBuffSize i).position =
        (sc.sampled (n + 1) 0 i).position + sc.windowShift n * (600 * 1023) ∧
      (sc.sampled n iqBuffSize i).iword = (sc.sampled (n + 1) 0 i).iword + sc.windowShift n ∧
      (sc.sampled n iqBuffSize i).ibit = (sc.sampled (n + 1) 0 i).ibit ∧
      (sc.sampled n iqBuffSize i).icode = (sc.sampled (n + 1) 0 i).icode ∧
      (sc.sampled n iqBuffSize i).codePhase = (sc.sampled (n + 1) 0 i).codePhase := by
  obtain ⟨t, tenths, multiple⟩ := whole.tenths
  have active' : 0 < ((sc.gen (n + 1)).chan i).prn := by rwa [kept]
  have travel : Channel.travelTime ((sc.gen (n + 1)).chan i) =
      Channel.travelTime (sc.sampled n 0 i) := by
    rw [Channel.travelTime, gen_succ_rho0 inside active kept, Channel.travelTime]
  have reachNext : Channel.InReach ((sc.gen (n + 1)).chan i) := by
    rwa [Channel.InReach, travel]
  have unity : dopplerShare sc.lambda = 1 := by
    rw [dopplerShare, wavelength, div_self]
    norm_num [speedOfLight, carrFreq]
  obtain ⟨-, last⟩ := position_sampled tenths multiple inside active reach iqBuffSize
  obtain ⟨next, countingNext⟩ := sampled_zero inside active'
    (transmitMs_nonneg tenths multiple inside active' reachNext)
  have counting := counting_sampled tenths multiple inside active reach step iqBuffSize
  -- The frame moves with the window.
  have frame : ((t + (n + 1 : Nat)) % 300 : Int) = (t + n) % 300 + 1 - 6 * sc.windowShift n := by
    unfold Scenario.windowShift
    rcases renewal : sc.renews n with _ | _
    · have quiet := (not_renews_iff tenths n).mp renewal
      simp only [Bool.false_eq_true, if_false]
      push_cast
      omega
    · have zero := (renews_iff tenths n).mp renewal
      simp only [if_true]
      push_cast
      omega
  have position : (sc.sampled n iqBuffSize i).position =
      (sc.sampled (n + 1) 0 i).position + sc.windowShift n * (600 * 1023) := by
    rw [last, next, transmitMs_eq tenths multiple inside active', frame, travel, unity,
      iqBuffSize_eq]
    push_cast
    ring
  exact ⟨position, digits_of_position counting countingNext position⟩

end Boundary

/-- The first block of the run is not a renewal. -/
theorem sampleScenario_kept (lambda : ℚ) :
    (((sampleScenario lambda).gen (0 + 1)).chan 0).prn =
      (((sampleScenario lambda).gen 0).chan 0).prn := by
  have tenths : (sampleScenario lambda).g0.total = ((13305600000 : Int) : ℚ) / 10 := by
    norm_num [sampleScenario, GpsTime.total]
  have quiet : (sampleScenario lambda).renews 0 = false := by
    rw [not_renews_iff tenths]
    decide
  rw [(gen_succ_of_not_renews quiet).1]
  exact sampled_prn (by decide)

theorem block_boundary_sample :
    ((sampleScenario (speedOfLight / carrFreq)).sampled 0 iqBuffSize 0).position =
      ((sampleScenario (speedOfLight / carrFreq)).sampled 1 0 0).position +
        (sampleScenario (speedOfLight / carrFreq)).windowShift 0 * (600 * 1023) := by
  have member : speedOfLight / carrFreq ∈ [lambdaL1, speedOfLight / carrFreq] := by simp
  obtain ⟨reach, reach', step⟩ := sampleScenario_tracks member
  exact (block_boundary rfl (sampleScenario_whole _) (by decide)
    (sampleScenario_active member) (sampleScenario_kept _) reach reach' step).1

end Navisim.Loop
