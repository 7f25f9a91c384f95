import Navisim.Loop.Separation
import Navisim.Loop.Stream
import Navisim.Loop.TowCounts
import Navisim.Signal.Tracking

/-!
# What a receiver measures

A satellite broadcasts a stream of words over its code, timed by its own clock.  At every sample
of a run a channel sends what this broadcast was one travel time ago (`sampled_broadcast`), and a
receiver that reads the time of the satellite off the message and the counters finds the
pseudorange that `computeRange` gave (`measured_range`).
-/

namespace Navisim.Loop

open Nav Signal Slide

/-! ## The broadcast -/

/-- The navigation bit of a stream of words, 0.6 seconds each. -/
def broadcastBit (stream : Int → Word) (time : ℚ) : Int :=
  if (stream ⌊time / (6 / 10)⌋).getLsbD (29 - ⌊time * 50⌋ % 30).toNat then 1 else -1

/-- The chip of a satellite, whose code takes a millisecond. -/
def broadcastChip (prn : Int) (time : ℚ) : Int :=
  codegen (fun _ => 0) prn (⌊time * 1023000⌋ % caSeqLen) * 2 - 1

/-- The time at which the signal that a channel sends left its satellite, from the window and the
counters. -/
def signalTime (chan : Channel) : ℚ :=
  chan.g0.total - 6 + chan.position / 1023000

/-- The time at which a sample of the block that follows `n` blocks is received. -/
def Scenario.receptionTime (sc : Scenario) (n isamp : Nat) : ℚ :=
  (sc.gen n).grx.total - 0.1 + isamp * delt

/-- The travel time of the signal in a sample: it goes from that of the last pseudorange towards
that of the current one, as far as the Doppler shift does. -/
def Scenario.delayAt (sc : Scenario) (n isamp i : Nat) : ℚ :=
  Channel.travelTime ((sc.gen n).chan i) + isamp / 200000 * dopplerShare sc.lambda *
    (Channel.travelTime (sc.sampled n 0 i) - Channel.travelTime ((sc.gen n).chan i))

section Digits

variable {chan : Channel} {F : Int}

/-- The counters are the digits of the time at which the signal left. -/
theorem digits_of_signalTime (counting : chan.Counting) (frame : chan.g0.total = 30 * (F : ℚ)) :
    ⌊signalTime chan / (6 / 10)⌋ = 50 * F - 10 + chan.iword ∧
      ⌊signalTime chan * 50⌋ = (50 * F - 10 + chan.iword) * 30 + chan.ibit ∧
      ⌊signalTime chan * 1023000⌋ =
        (((50 * F - 10 + chan.iword) * 30 + chan.ibit) * 20 + chan.icode) * 1023 +
          ⌊chan.codePhase⌋ := by
  obtain ⟨⟨ibit, icode⟩, phase⟩ := counting
  have chips : signalTime chan * 1023000 =
      ((((50 * F - 10 + chan.iword) * 30 + chan.ibit) * 20 + chan.icode) * 1023 : Int) +
        chan.codePhase := by
    rw [signalTime, frame, Channel.position]
    push_cast
    ring
  -- The digits below a bit, in chips.
  have low : (0 : ℚ) ≤ chan.icode * 1023 + chan.codePhase ∧
      chan.icode * 1023 + chan.codePhase < 20460 := by
    have lower : (0 : ℚ) ≤ chan.icode := by exact_mod_cast icode.1
    have upper : (chan.icode : ℚ) ≤ 19 := by exact_mod_cast Int.le_sub_one_of_lt icode.2
    constructor <;> linarith
  have bits : (0 : ℚ) ≤ chan.ibit ∧ (chan.ibit : ℚ) ≤ 29 := by
    constructor
    · exact_mod_cast ibit.1
    · exact_mod_cast Int.le_sub_one_of_lt ibit.2
  push_cast at chips
  refine ⟨?_, ?_, ?_⟩
  · rw [Int.floor_eq_iff]
    push_cast
    constructor
    · rw [le_div_iff₀ (by norm_num)]
      linarith
    · rw [div_lt_iff₀ (by norm_num)]
      linarith
  · rw [Int.floor_eq_iff]
    push_cast
    constructor <;> linarith
  · rw [chips, ← Int.floor_intCast_add]
    push_cast
    rfl

end Digits

section Samples

variable {sc : Scenario} {n i isamp first last : Nat}

/-- What becomes of an active channel in a block: it keeps sending the bit and the chip of its
counters. -/
theorem sampled_tracks (whole : sc.WholeSecond) (inside : i < maxChan)
    (active : 0 < ((sc.gen n).chan i).prn) (reach : Channel.InReach ((sc.gen n).chan i))
    (step : Channel.StepInRange (sc.sampled n 0 i)) (isamp : Nat) :
    (sc.sampled n isamp i).Counting ∧ BitSet (sc.sampled n isamp i) ∧
      ChipSet (sc.sampled n isamp i) := by
  obtain ⟨t, tenths, multiple⟩ := whole.tenths
  have first : sc.sampled n 0 i =
      sc.refreshChannel (sc.gen n).ieph (sc.gen n).grx (n + 1) ((sc.gen n).chan i) :=
    refresh_chan inside
  have start : (sc.sampled n 0 i).Counting ∧ BitSet (sc.sampled n 0 i) ∧
      ChipSet (sc.sampled n 0 i) := by
    rw [first, Scenario.refreshChannel, if_pos active]
    obtain ⟨counting, bit, chip⟩ := computeCodePhase_set sc.lambda
      { (sc.gen n).chan i with azel :=
          (sc.currentRange (sc.gen n).ieph (sc.gen n).grx (n + 1) ((sc.gen n).chan i)).azel }
      (sc.currentRange (sc.gen n).ieph (sc.gen n).grx (n + 1) ((sc.gen n).chan i)) 0.1
      (transmitMs_nonneg tenths multiple inside active reach)
    exact ⟨⟨⟨counting.ibit, counting.icode⟩, counting.codePhase⟩, bit, chip⟩
  have short : codeStep delt (sc.sampled n 0 i) < 1023 := by
    have bound := step.2
    norm_num [caSeqLen] at bound
    exact bound
  have tracks := samples_tracks start.1 step.1 short isamp
  rw [← sampled_eq_samples inside active] at tracks
  exact ⟨tracks.counting, tracks.bit (Or.inl start.2.1), tracks.chip (Or.inl start.2.2)⟩

/-- A sample arrives one travel time after its signal left. -/
theorem signalTime_sampled (whole : sc.WholeSecond) (inside : i < maxChan)
    (active : 0 < ((sc.gen n).chan i).prn) (reach : Channel.InReach ((sc.gen n).chan i)) :
    signalTime (sc.sampled n isamp i) = sc.receptionTime n isamp - sc.delayAt n isamp i := by
  obtain ⟨t, tenths, multiple⟩ := whole.tenths
  obtain ⟨-, position⟩ := position_sampled tenths multiple inside active reach isamp
  have window := (gen_onTime tenths multiple n inside active).window
  have refreshed : Refreshed ((sc.gen n).chan i) (sc.sampled n isamp i) :=
    refreshed_sampled inside isamp
  have split : ((t + n : Int) : ℚ) =
      300 * (((t + n) / 300 : Int) : ℚ) + (((t + n) % 300 : Int) : ℚ) := by
    exact_mod_cast (Int.mul_ediv_add_emod (t + n) 300).symm
  rw [Scenario.receptionTime, Scenario.delayAt, signalTime, refreshed.g0, window, position,
    gen_total tenths n, delt_eq]
  push_cast at split ⊢
  linarith

/-- What the code buffer held before does not matter. -/
theorem codegen_memory (ca ca' : Int → Int) {prn k : Int} (satellite : 1 ≤ prn ∧ prn ≤ 32)
    (inside : 0 ≤ k ∧ k < caSeqLen) : codegen ca prn k = codegen ca' prn k := by
  have known : ¬ (prn < 1 ∨ prn > 32) := by omega
  rw [codegen, codegen, if_neg known, if_neg known]
  dsimp only
  rw [if_pos inside, if_pos inside]

/-- The chip of an active channel. -/
theorem codeCA_sampled (inside : i < maxChan) (active : 0 < ((sc.gen n).chan i).prn)
    (counting : (sc.sampled n isamp i).Counting) (chip : ChipSet (sc.sampled n isamp i)) :
    (sc.sampled n isamp i).codeCA =
      codegen (fun _ => 0) (sc.sampled n isamp i).prn
        ⌊(sc.sampled n isamp i).codePhase⌋ * 2 - 1 := by
  have prn : (sc.sampled n isamp i).prn = ((sc.gen n).chan i).prn := sampled_prn inside
  obtain ⟨ca, code⟩ := (gen_coded n inside active).congr prn (sampled_ca inside isamp)
  have satellite := gen_satellite n inside active
  rw [← prn] at satellite
  obtain ⟨lower, upper⟩ := counting.codePhase
  have place : 0 ≤ ⌊(sc.sampled n isamp i).codePhase⌋ ∧
      ⌊(sc.sampled n isamp i).codePhase⌋ < caSeqLen :=
    ⟨Int.floor_nonneg.mpr lower, Int.floor_lt.mpr (by exact_mod_cast upper)⟩
  rw [chip, code, codegen_memory ca (fun _ => 0) satellite place]

/-- **A channel sends the broadcast of its satellite, delayed.**  For as long as a channel keeps
its satellite there is one stream of words, each following the word before it, such that every
sample of every block has the bit and the chip that the satellite broadcast one travel time
before the sample is received. -/
theorem sampled_broadcast (wavelength : sc.lambda = lambdaL1) (whole : sc.WholeSecond)
    (inside : i < maxChan) (keeps : sc.Keeps i first last)
    (reach : ∀ k, first ≤ k → k ≤ last → Channel.InReach ((sc.gen k).chan i))
    (step : ∀ k, first ≤ k → k < last → Channel.StepInRange (sc.sampled k 0 i)) :
    ∃ stream : Int → Word,
      (∀ a, Channel.firstWord ((sc.gen first).chan i) < a →
        a < Channel.firstWord ((sc.gen last).chan i) + nDwrd →
          ParityOk (stream (a - 1)) (stream a)) ∧
      ∀ k, first ≤ k → k < last → ∀ isamp ≤ iqBuffSize,
        let chan := sc.sampled k isamp i
        let time := sc.receptionTime k isamp - sc.delayAt k isamp i
        chan.dataBit = broadcastBit stream time ∧ chan.codeCA = broadcastChip chan.prn time := by
  have moves : ∀ k, first ≤ k → k < last →
      Moves nDwrd (fun k => Channel.firstWord ((sc.gen k).chan i))
        (fun k w => ((sc.gen k).chan i).dwrd w) k :=
    fun k lower upper => window_moves whole inside (keeps.activeAt lower upper.le)
      (keeps.kept lower upper)
  obtain ⟨stream, pieces⟩ := exists_stream keeps.ordered moves
  refine ⟨stream, fun a lower upper => ?_, fun k lower upper isamp inBlock => ?_⟩
  · exact stream_chain keeps.ordered moves pieces
      (fun k lower' upper' => (gen_sendable k inside (keeps.activeAt lower' upper')).chained)
      lower upper
  · have active := keeps.activeAt lower upper.le
    have here := reach k lower upper.le
    have next : Channel.InReach (sc.sampled k 0 i) := by
      have reached := reach (k + 1) (by omega) upper
      rwa [Channel.InReach, Channel.travelTime,
        gen_succ_rho0 inside active (keeps.kept lower upper)] at reached
    obtain ⟨t, tenths, multiple⟩ := whole.tenths
    obtain ⟨counting, bit, chip⟩ := sampled_tracks whole inside active here (step k lower upper)
      isamp
    have same : Refreshed ((sc.gen k).chan i) (sc.sampled k isamp i) :=
      refreshed_sampled inside isamp
    have window : (sc.sampled k isamp i).g0.total = 30 * (((t + k) / 300 : Int) : ℚ) := by
      rw [same.g0]
      exact (gen_onTime tenths multiple k inside active).window
    obtain ⟨word, bits, chips⟩ := digits_of_signalTime counting window
    rw [signalTime_sampled whole inside active here] at word bits chips
    have index := iword_sampled whole (by rw [wavelength]; exact dopplerShare_lambdaL1) inside
      active here next inBlock
    obtain ⟨w, place⟩ := Int.eq_ofNat_of_zero_le index.1
    have cell := pieces k lower upper.le w (by omega)
    dsimp only at cell ⊢
    rw [firstWord_eq tenths multiple inside active, ← place, ← same.dwrd, ← word] at cell
    have inWord : ⌊(sc.receptionTime k isamp - sc.delayAt k isamp i) * 50⌋ % 30 =
        (sc.sampled k isamp i).ibit := by
      have range := counting.ibit
      omega
    have inCode : ⌊(sc.receptionTime k isamp - sc.delayAt k isamp i) * 1023000⌋ % caSeqLen =
        ⌊(sc.sampled k isamp i).codePhase⌋ := by
      have lower' := Int.floor_nonneg.mpr counting.codePhase.1
      have upper' : ⌊(sc.sampled k isamp i).codePhase⌋ < 1023 :=
        Int.floor_lt.mpr (by exact_mod_cast counting.codePhase.2)
      rw [chips]
      simp only [caSeqLen]
      omega
    constructor
    · rw [bit, broadcastBit, inWord, ← cell]
    · rw [broadcastChip, inCode]
      exact codeCA_sampled inside active counting chip

end Samples

/-- A minute of the broadcast, with a renewal in the middle. -/
theorem sampled_broadcast_sample : ∃ stream : Int → Word, ∀ k < 600, ∀ isamp ≤ iqBuffSize,
    let chan := (sampleScenario lambdaL1).sampled k isamp 0
    let time := (sampleScenario lambdaL1).receptionTime k isamp -
      (sampleScenario lambdaL1).delayAt k isamp 0
    chan.dataBit = broadcastBit stream time ∧ chan.codeCA = broadcastChip chan.prn time := by
  have member : lambdaL1 ∈ [lambdaL1, speedOfLight / carrFreq] := by simp
  obtain ⟨stream, -, sent⟩ := sampled_broadcast rfl (sampleScenario_whole _) (by decide)
    (sampleScenario_keeps member 600) (fun k _ _ => (sampleScenario_run member k).1)
    (fun k _ _ => (sampleScenario_run member k).2.2)
  exact ⟨stream, fun k upper => sent k (Nat.zero_le k) upper⟩

/-! ## The time that the message tells -/

/-- The counts of a window are those of its reference time, as far as a week goes. -/
structure Counted (chan : Channel) : Prop where
  free : ∀ isbf iwrd, Free (chan.sbf isbf iwrd)
  plain : ∀ isbf < nSbf, Plain (chan.sbf isbf)
  counts : ∀ k ≤ nSbf, (howTow chan.dwrd k : Int) % towInWeek =
    (frameNumber chan.g0 * 5 + k) % towInWeek

/-- The time within the week that a receiver reads off the count of the subframe it is in and the
words, bits and chips since the subframe began. -/
def decodedTime (chan : Channel) : ℚ :=
  6 * ((howTow chan.dwrd (chan.iword / 10).toNat : ℚ) - 1) +
    ((((chan.iword % 10) * 30 + chan.ibit) * 20 + chan.icode : Int) : ℚ) / 1000 +
      chan.codePhase / 1023000

section Counts

variable {sc : Scenario} {g : GpsTime ℚ} {chan chan' : Channel} {n i isamp : Nat}

theorem Counted.congr (counted : Counted chan) (same : Refreshed chan chan') : Counted chan' := by
  obtain ⟨-, g0, sbf, dwrd⟩ := same
  obtain ⟨free, plain, counts⟩ := counted
  rw [← sbf] at free plain
  rw [← g0, ← dwrd] at counts
  exact ⟨free, plain, counts⟩

/-- A message whose leading count is that of the frame's start. -/
theorem counted_generateNavMsg {init : Int} (inWeek : g.InWeek)
    (free : ∀ isbf iwrd, Free (chan.sbf isbf iwrd)) (plain : ∀ isbf < nSbf, Plain (chan.sbf isbf))
    (leading : (howTow (generateNavMsg g chan init).dwrd 0 : Int) % towInWeek =
      frameNumber g * 5 % towInWeek) : Counted (generateNavMsg g chan init) := by
  have start := frameTow_eq inWeek
  have number := frameNumber_frameStart inWeek
  have reference : (generateNavMsg g chan init).g0 = frameStart g := rfl
  refine ⟨free, plain, fun k inside => ?_⟩
  rw [reference, number]
  cases k with
  | zero =>
      rw [leading]
      norm_num
  | succ isbf =>
      rw [howTow_frame inWeek free plain inside]
      push_cast
      rw [start, mul_comm]

theorem counted_initChannel (orbits : Orbits) (lambda : ℚ) (eph : Nat → Ephem ℚ)
    (ionoutc : IonoUtc ℚ) (inWeek : g.InWeek) (xyz : Position) (sv : Nat) (chan : Channel) :
    Counted (initChannel orbits lambda eph ionoutc g xyz sv chan) := by
  let taken : Channel := { chan with
    prn := sv + 1
    azel := orbits.azel (eph sv) g xyz
    ca := codegen chan.ca (sv + 1)
    sbf := eph2sbf (eph sv) ionoutc }
  have free : ∀ isbf iwrd, Free (taken.sbf isbf iwrd) := eph2sbf_free (eph sv) ionoutc
  have plain : ∀ isbf < nSbf, Plain (taken.sbf isbf) :=
    fun isbf inFrame => eph2sbf_plain (eph sv) ionoutc inFrame
  have sent : Counted (generateNavMsg g taken 1) := by
    refine counted_generateNavMsg inWeek free plain ?_
    rw [howTow_first inWeek free plain, frameTow_eq inWeek, mul_comm]
  exact ⟨sent.free, sent.plain, sent.counts⟩

/-- A renewal keeps the counts right if its frame follows the old one. -/
theorem Counted.renewed (counted : Counted chan) (inWeek : g.InWeek) (active : 0 < chan.prn)
    (ieph : Int) (follows : (frameNumber chan.g0 + 1) % 20160 = frameNumber g % 20160) :
    Counted (renewed sc ieph g chan) := by
  obtain ⟨sbf, renewal, source⟩ := renewed_active sc ieph g active
  have last := counted.counts nSbf le_rfl
  have sent : Counted (generateNavMsg g chan 0) := by
    refine counted_generateNavMsg inWeek counted.free counted.plain ?_
    rw [howTow_saved (by decide), last]
    simp only [nSbf, towInWeek]
    omega
  rw [renewal]
  rcases source with same | ⟨eph, fresh⟩
  · rw [same]
    exact ⟨sent.free, sent.plain, sent.counts⟩
  · rw [fresh]
    exact ⟨eph2sbf_free eph sc.ionoutc, fun isbf inFrame => eph2sbf_plain eph sc.ionoutc inFrame,
      sent.counts⟩

/-- **The counts of the active channels tell the time**, in every run. -/
theorem gen_counted (whole : sc.WholeSecond) (n : Nat) (inside : i < maxChan)
    (active : 0 < ((sc.gen n).chan i).prn) : Counted ((sc.gen n).chan i) := by
  obtain ⟨t, tenths, multiple⟩ := whole.tenths
  refine active_invariant (P := fun _ chan => Counted chan) ?_ ?_ ?_ ?_ n inside active
  · exact fun sv chan => counted_initChannel _ _ _ _ (incGpsTime_inWeek _ _) _ _ _
  · intro n i inside active _ before
    exact before.congr (refreshed_sampled inside iqBuffSize)
  · intro n i inside active renewal before
    have zero := (renews_iff tenths n).mp renewal
    have same : Refreshed ((sc.gen n).chan i) (sc.sampled n iqBuffSize i) :=
      refreshed_sampled inside iqBuffSize
    refine (before.congr same).renewed (gen_inWeek n) (sampled_active inside active _) _ ?_
    rw [same.g0, gen_frameNumber tenths multiple n inside active,
      frameNumber_of_whole (gen_inWeek n) (by omega) (gen_total tenths n)]
    omega
  · exact fun n _ sv chan => counted_initChannel _ _ _ _ (gen_inWeek n) _ _ _

/-- The time that is read off a window in its place is that at which the signal left, within the
week. -/
theorem exists_week (counts : ∀ k ≤ nSbf, (howTow chan.dwrd k : Int) % towInWeek =
      (frameNumber chan.g0 * 5 + k) % towInWeek) {F : Int}
    (frame : chan.g0.total = 30 * (F : ℚ)) (number : frameNumber chan.g0 = F % 20160)
    (window : 0 ≤ chan.iword ∧ chan.iword < nDwrd) :
    ∃ week : Int, signalTime chan = week * 604800 + decodedTime chan := by
  obtain ⟨k, subframe⟩ : ∃ k : Nat, chan.iword / 10 = k :=
    Int.eq_ofNat_of_zero_le (by omega)
  have inFrame : k ≤ nSbf := by
    have upper := window.2
    simp only [nDwrd, nSbf, nDwrdSbf] at upper ⊢
    omega
  have count := counts k inFrame
  rw [number] at count
  simp only [towInWeek] at count
  obtain ⟨week, difference⟩ : ∃ week : Int, F * 5 + k = howTow chan.dwrd k + 100800 * week :=
    ⟨(F * 5 + k - howTow chan.dwrd k) / 100800, by omega⟩
  refine ⟨week, ?_⟩
  have tow : (F : ℚ) * 5 + k = howTow chan.dwrd k + 100800 * week := by exact_mod_cast difference
  have words : (chan.iword : ℚ) = 10 * k + (chan.iword % 10 : Int) := by
    have split := Int.mul_ediv_add_emod chan.iword 10
    rw [subframe] at split
    exact_mod_cast split.symm
  rw [signalTime, decodedTime, frame, Channel.position, subframe, Int.toNat_natCast]
  push_cast
  rw [words]
  linarith

/-- **A receiver measures the pseudoranges.**  In every run, at every sample of every block, a
receiver that subtracts the time it reads off the message, the counters and the code phase of an
active channel from the time of reception finds, up to whole weeks, the pseudorange: the last one
of the channel at the start of a block, and from there on towards the current one. -/
theorem measured_range (wavelength : sc.lambda = lambdaL1) (whole : sc.WholeSecond)
    (inside : i < maxChan) (active : 0 < ((sc.gen n).chan i).prn)
    (reach : Channel.InReach ((sc.gen n).chan i)) (reach' : Channel.InReach (sc.sampled n 0 i))
    (inBlock : isamp ≤ iqBuffSize) :
    ∃ week : Int, (sc.receptionTime n isamp -
        (week * 604800 + decodedTime (sc.sampled n isamp i))) * speedOfLight =
      ((sc.gen n).chan i).rho0.range + isamp / 200000 * dopplerShare sc.lambda *
        ((sc.sampled n 0 i).rho0.range - ((sc.gen n).chan i).rho0.range) := by
  obtain ⟨t, tenths, multiple⟩ := whole.tenths
  have same : Refreshed ((sc.gen n).chan i) (sc.sampled n isamp i) :=
    refreshed_sampled inside isamp
  have counted := (gen_counted whole n inside active).congr same
  have frame := (gen_onTime tenths multiple n inside active).window
  have number := gen_frameNumber tenths multiple n inside active
  rw [← same.g0] at frame number
  have window := iword_sampled whole (by rw [wavelength]; exact dopplerShare_lambdaL1) inside
    active reach reach' inBlock
  obtain ⟨week, time⟩ := exists_week counted.counts frame number window
  have light : (speedOfLight : ℚ) ≠ 0 := by norm_num [speedOfLight]
  refine ⟨week, ?_⟩
  rw [← time, signalTime_sampled whole inside active reach, sub_sub_cancel, Scenario.delayAt,
    Channel.travelTime, Channel.travelTime]
  field_simp

end Counts

/-- A sample behind the renewal. -/
theorem measured_range_sample :
    ∃ week : Int, ((sampleScenario lambdaL1).receptionTime 300 7 - (week * 604800 +
        decodedTime ((sampleScenario lambdaL1).sampled 300 7 0))) * speedOfLight =
      (((sampleScenario lambdaL1).gen 300).chan 0).rho0.range +
        (7 : Nat) / 200000 * dopplerShare (sampleScenario lambdaL1).lambda *
          (((sampleScenario lambdaL1).sampled 300 0 0).rho0.range -
            (((sampleScenario lambdaL1).gen 300).chan 0).rho0.range) := by
  have member : lambdaL1 ∈ [lambdaL1, speedOfLight / carrFreq] := by simp
  obtain ⟨reach, reach', -⟩ := sampleScenario_run member 300
  exact measured_range rfl (sampleScenario_whole _) (by decide)
    ((sampleScenario_keeps member 300).activeAt (Nat.zero_le _) le_rfl) reach reach'
    (by rw [iqBuffSize_eq]; norm_num)

end Navisim.Loop
