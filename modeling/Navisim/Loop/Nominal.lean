import Navisim.Gps.Pseudorange
import Navisim.Loop.Measured
import Navisim.RealTime.Amplitude

/-!
# Nominal runs

The loop has its pseudoranges from a parameter.  Where this parameter gives what `computeRange`
computes, for satellites of the system and a receiver near the Earth, a run meets what the results
about the loop ask for: every signal leaves between 46 and 131 milliseconds before it is received,
every index stays in its array, and no sample is cut off (`nominal_run`).
-/

namespace Navisim.Loop

open Nav Signal RealTime

/-! ## The pseudoranges of a run -/

noncomputable def exactPosition (xyz : Position) : ℝ × ℝ × ℝ :=
  (xyz.1, xyz.2.1, xyz.2.2)

/-- The receiver is at most 7000 kilometres away from the centre of the Earth. -/
def NearEarth (xyz : Position) : Prop :=
  xyz.1 * xyz.1 + (xyz.2.1 * xyz.2.1 + xyz.2.2 * xyz.2.2) ≤ 7000000 * 7000000

/-- `computeRange` returns in real numbers, and the parameter gives its range and distance up to a
metre and its elevation up to a microradian. -/
def Orbits.Follows (orbits : Orbits) (eph : Ephem ℚ) (ionoutc : IonoUtc ℚ) (g : GpsTime ℚ)
    (xyz : Position) : Prop :=
  ∃ turns r,
    (∀ more ≥ turns, Sight.computeRange more eph.exact ionoutc.exact g.exact (exactPosition xyz) =
      some r) ∧
    |((orbits.rho eph ionoutc g xyz).range : ℝ) - r.range| ≤ 1 ∧
    |((orbits.rho eph ionoutc g xyz).d : ℝ) - r.d| ≤ 1 ∧
    |((orbits.rho eph ionoutc g xyz).azel.2 : ℝ) - r.azel.2| ≤ 1e-6

/-- The entry of the current set for the satellite of a channel. -/
def Scenario.tracked (sc : Scenario) (n i : Nat) : Ephem ℚ :=
  sc.entry (sc.gen n).ieph ((sc.gen n).chan i)

/-- What the loop is given: the valid entries of all sets are plausible, the receiver stays near
the Earth, and the antenna does not amplify. -/
structure Scenario.Nominal (sc : Scenario) : Prop where
  eph : ∀ k, ∀ sv < maxSat, (sc.eph k sv).vflg = 1 → (sc.eph k sv).Plausible
  iono : Sight.NominalIono sc.ionoutc.exact
  near : ∀ iumd, NearEarth (sc.xyz iumd)
  antPat : ∀ ibs, 0 ≤ ibs → ibs ≤ 36 → 0 ≤ sc.antPat ibs ∧ sc.antPat ibs ≤ 1

/-- The parameter follows `computeRange` in every call of a run: for the channels of the first
allocation, for each block, and for the channels behind a renewal. -/
structure Scenario.Follows (sc : Scenario) : Prop where
  start : ∀ i < maxChan, 0 < ((sc.gen 0).chan i).prn →
    sc.orbits.Follows (sc.tracked 0 i) sc.ionoutc (incGpsTime sc.g0 0.0) (sc.xyz 0)
  block : ∀ n, ∀ i < maxChan, 0 < ((sc.gen n).chan i).prn →
    sc.orbits.Follows (sc.tracked n i) sc.ionoutc (sc.gen n).grx (sc.position (n + 1))
  renewal : ∀ n, sc.renews n = true → ∀ i < maxChan, 0 < ((sc.gen (n + 1)).chan i).prn →
    sc.orbits.Follows (sc.tracked (n + 1) i) sc.ionoutc (sc.gen n).grx (sc.position (n + 1))

/-! ## The satellites that are tracked -/

section Tracked

variable {sc : Scenario} {n i : Nat}

/-- Behind a call, a channel is one of a valid entry. -/
theorem valid_of_allocated {orbits : Orbits} {lambda : ℚ} {eph : Nat → Ephem ℚ}
    {ionoutc : IonoUtc ℚ} {grx : GpsTime ℚ} {xyz : Position} {chan : Nat → Channel}
    {allocatedSat : Nat → Int}
    (consistent : Allocation.Consistent { nsat := 0, chan := chan, allocatedSat := allocatedSat })
    (inside : i < maxChan) (active : 0 <
      ((allocateChannel orbits lambda eph ionoutc grx xyz chan allocatedSat).chan i).prn) :
    (eph (((allocateChannel orbits lambda eph ionoutc grx xyz chan allocatedSat).chan i).prn -
      1).toNat).vflg = 1 := by
  have after := allocateChannel_consistent orbits lambda eph ionoutc grx xyz consistent
  rcases after.ofChan i inside with idle | ⟨sv, bound, prn, flag⟩
  · omega
  · let call : Call := ⟨orbits, lambda, eph, ionoutc, grx, xyz, untouched, untouched_prn⟩
    have allocated : 0 ≤ (call.visits maxSat
        { nsat := 0, chan := chan, allocatedSat := allocatedSat }).allocatedSat sv :=
      (Int.natCast_nonneg i).trans_eq flag.symm
    have visible : checkSatVisibility orbits (eph sv) grx xyz 0.0 = 1 :=
      visible_of_allocated bound allocated
    have place : (((allocateChannel orbits lambda eph ionoutc grx xyz chan
        allocatedSat).chan i).prn - 1).toNat = sv := by
      rw [prn]
      omega
    rw [place]
    unfold checkSatVisibility at visible
    by_contra invalid
    rw [if_pos invalid] at visible
    cases visible

/-- The satellites of the active channels have valid entries in the current set, in every run. -/
theorem gen_valid (n : Nat) (inside : i < maxChan) (active : 0 < ((sc.gen n).chan i).prn) :
    (sc.tracked n i).vflg = 1 := by
  induction n with
  | zero => exact valid_of_allocated (start_consistent sc) inside active
  | succ n ih =>
      rcases renewal : sc.renews n with _ | _
      · obtain ⟨chans, -, ieph⟩ := gen_succ_of_not_renews renewal
        have prn : ((sc.gen (n + 1)).chan i).prn = ((sc.gen n).chan i).prn := by
          rw [chans]
          exact sampled_prn inside
        rw [prn] at active
        rw [Scenario.tracked, Scenario.entry, ieph, prn]
        exact ih active
      · obtain ⟨chans, -, ieph⟩ := gen_succ_of_renews renewal
        rw [chans] at active
        rw [Scenario.tracked, Scenario.entry, chans, ieph]
        exact valid_of_allocated (beforeAllocation_consistent (gen_consistent n)) inside active

theorem Scenario.Nominal.tracked (nominal : sc.Nominal) (inside : i < maxChan)
    (active : 0 < ((sc.gen n).chan i).prn) : (sc.tracked n i).Plausible := by
  obtain ⟨lower, upper⟩ := gen_satellite n inside active
  refine nominal.eph _ _ ?_ (gen_valid n inside active)
  unfold maxSat
  omega

theorem Scenario.Nominal.position (nominal : sc.Nominal) (iumd : Nat) :
    NearEarth (sc.position iumd) := by
  unfold Scenario.position
  split
  · exact nominal.near iumd
  · exact nominal.near 0

end Tracked

/-! ## Their pseudoranges -/

/-- The size of a pseudorange that the loop works with. -/
structure PlausibleRange (rho : Range) : Prop where
  range : 13999999 ≤ rho.range ∧ rho.range ≤ 39100001
  d : 14899999 ≤ rho.d
  elevation : |rho.azel.2| ≤ 1.5708

section Ranges

variable {orbits : Orbits} {eph : Ephem ℚ} {ionoutc : IonoUtc ℚ} {g : GpsTime ℚ}
  {xyz : Position}

theorem length_exactPosition_le (near : NearEarth xyz) :
    Space.length (exactPosition xyz) ≤ 7000000 := by
  refine Space.length_le (by norm_num) ?_
  have cast : ((xyz.1 * xyz.1 + (xyz.2.1 * xyz.2.1 + xyz.2.2 * xyz.2.2) : ℚ) : ℝ) ≤
      ((7000000 * 7000000 : ℚ) : ℝ) := Rat.cast_le.mpr near
  push_cast at cast
  simp only [Space.dot, exactPosition]
  linarith

theorem Orbits.Follows.inBounds (follows : orbits.Follows eph ionoutc g xyz)
    (likely : eph.Plausible) (iono : Sight.NominalIono ionoutc.exact) (inWeek : g.InWeek)
    (near : NearEarth xyz) : PlausibleRange (orbits.rho eph ionoutc g xyz) := by
  obtain ⟨turns, r, returned, range, distance, elevation⟩ := follows
  have exact := Sight.plausible_of_returned likely.nominal iono
    (likely.abs_sub_toc_le inWeek)
    (length_exactPosition_le near) returned
  have circle := Real.pi_lt_d20
  rw [abs_le] at range distance elevation
  have angle := abs_le.mp exact.elevation
  have lower := exact.range_ge
  have upper := exact.range_le
  have far := exact.d_ge
  refine ⟨⟨?_, ?_⟩, ?_, ?_⟩
  · have cast : ((13999999 : ℚ) : ℝ) ≤ (orbits.rho eph ionoutc g xyz).range := by
      push_cast
      linarith
    exact_mod_cast cast
  · have cast : ((orbits.rho eph ionoutc g xyz).range : ℝ) ≤ ((39100001 : ℚ) : ℝ) := by
      push_cast
      linarith
    exact_mod_cast cast
  · have cast : ((14899999 : ℚ) : ℝ) ≤ (orbits.rho eph ionoutc g xyz).d := by
      push_cast
      linarith
    exact_mod_cast cast
  · have cast : |((orbits.rho eph ionoutc g xyz).azel.2 : ℝ)| ≤ ((1.5708 : ℚ) : ℝ) := by
      rw [abs_le]
      norm_num at circle elevation ⊢
      constructor <;> linarith
    exact_mod_cast cast

/-- The time of application does not matter. -/
theorem PlausibleRange.applied {rho : Range} (likely : PlausibleRange rho) (g : GpsTime ℚ) :
    PlausibleRange { rho with g := g } :=
  ⟨likely.range, likely.d, likely.elevation⟩

end Ranges

section Runs

variable {sc : Scenario} {n i : Nat}

/-- The pseudorange of a block. -/
theorem currentRange_inBounds (nominal : sc.Nominal) (follows : sc.Follows) (n : Nat)
    (inside : i < maxChan) (active : 0 < ((sc.gen n).chan i).prn) :
    PlausibleRange
      (sc.currentRange (sc.gen n).ieph (sc.gen n).grx (n + 1) ((sc.gen n).chan i)) :=
  ((follows.block n i inside active).inBounds (nominal.tracked inside active) nominal.iono
    (gen_inWeek n) (nominal.position (n + 1))).applied _

/-- The last pseudorange of a channel, in every state of a run. -/
theorem gen_inBounds (nominal : sc.Nominal) (follows : sc.Follows) (n : Nat)
    (inside : i < maxChan) (active : 0 < ((sc.gen n).chan i).prn) :
    PlausibleRange ((sc.gen n).chan i).rho0 := by
  cases n with
  | zero =>
      cases gen_zero_outcome sc i with
      | kept same =>
          rw [same, eachChannel_of_lt inside] at active
          exact absurd active (lt_irrefl 0)
      | cleared idle => omega
      | initialised sv chan bound new initial =>
          have exact := (follows.start i inside active).inBounds (nominal.tracked inside active)
            nominal.iono (incGpsTime_inWeek _ _) (nominal.near 0)
          have satellite : sc.tracked 0 i = sc.eph (sc.gen 0).ieph sv := by
            rw [Scenario.tracked, Scenario.entry, initial, initChannel_prn, add_sub_cancel_right,
              Int.toNat_natCast]
          rw [satellite] at exact
          rw [initial]
          exact exact.applied _
  | succ n =>
      have sampled : 0 < ((sc.gen n).chan i).prn →
          PlausibleRange (sc.sampled n iqBuffSize i).rho0 := by
        intro before
        rw [Scenario.sampled, during_rho0 inside before]
        exact currentRange_inBounds nominal follows n inside before
      have prn : (sc.sampled n iqBuffSize i).prn = ((sc.gen n).chan i).prn := sampled_prn inside
      rcases renewal : sc.renews n with _ | _
      · rw [(gen_succ_of_not_renews renewal).1] at active ⊢
        rw [prn] at active
        exact sampled active
      · cases gen_succ_outcome renewal inside with
        | kept same =>
            rw [same, renewed_prn] at active
            obtain ⟨sbf, message, -⟩ :=
              renewed_active sc (sc.gen n).ieph (sc.gen n).grx active
            rw [same, message]
            rw [prn] at active
            exact sampled active
        | cleared idle => omega
        | initialised sv chan bound new initial =>
            have exact := (follows.renewal n renewal i inside active).inBounds
              (nominal.tracked inside active) nominal.iono (gen_inWeek n)
              (nominal.position (n + 1))
            have satellite : sc.tracked (n + 1) i = sc.eph (sc.gen (n + 1)).ieph sv := by
              rw [Scenario.tracked, Scenario.entry, initial, initChannel_prn,
                add_sub_cancel_right, Int.toNat_natCast]
            rw [satellite] at exact
            rw [initial]
            exact exact.applied _

/-- The travel time of a signal. -/
theorem PlausibleRange.travelTime {chan : Channel} (likely : PlausibleRange chan.rho0) :
    0.0466 ≤ Channel.travelTime chan ∧ Channel.travelTime chan ≤ 0.1305 := by
  obtain ⟨lower, upper⟩ := likely.range
  have light : (0 : ℚ) < speedOfLight := by norm_num [speedOfLight]
  rw [Channel.travelTime, le_div_iff₀ light, div_le_iff₀ light]
  norm_num [speedOfLight]
  constructor <;> linarith

theorem PlausibleRange.inReach {chan : Channel} (likely : PlausibleRange chan.rho0) :
    Channel.InReach chan := by
  obtain ⟨lower, upper⟩ := likely.travelTime
  norm_num at lower upper
  constructor <;> linarith

theorem sampled_inBounds (nominal : sc.Nominal) (follows : sc.Follows) (n : Nat)
    (inside : i < maxChan) (active : 0 < ((sc.gen n).chan i).prn) :
    PlausibleRange (sc.sampled n 0 i).rho0 := by
  rw [Scenario.sampled, during_rho0 inside active]
  exact currentRange_inBounds nominal follows n inside active

/-- Two plausible pseudoranges give a code phase step of at most a chip. -/
theorem sampled_stepInRange (nominal : sc.Nominal) (follows : sc.Follows)
    (share : 0 ≤ dopplerShare sc.lambda ∧ dopplerShare sc.lambda ≤ 1) (n : Nat)
    (inside : i < maxChan) (active : 0 < ((sc.gen n).chan i).prn) :
    Channel.StepInRange (sc.sampled n 0 i) := by
  have before := (gen_inBounds nominal follows n inside active).travelTime
  have after := (sampled_inBounds nominal follows n inside active).travelTime
  have change : |Channel.travelTime (sc.sampled n 0 i) -
      Channel.travelTime ((sc.gen n).chan i)| ≤ 0.0839 := by
    rw [abs_le]
    norm_num at before after ⊢
    constructor <;> linarith
  have part : |dopplerShare sc.lambda * (Channel.travelTime (sc.sampled n 0 i) -
      Channel.travelTime ((sc.gen n).chan i))| ≤ 1 * 0.0839 := by
    rw [abs_mul]
    refine mul_le_mul ?_ change (abs_nonneg _) zero_le_one
    rw [abs_of_nonneg share.1]
    exact share.2
  rw [Channel.StepInRange, codeStep_sampled_zero sc n inside active, mul_assoc]
  rw [abs_le] at part
  norm_num [caSeqLen] at part ⊢
  constructor <;> linarith

end Runs

/-! ## Times -/

section Times

variable {isamp : Nat}

/-- A point between two values within bounds. -/
theorem between_bounds {a b x lower upper : ℚ} (first : lower ≤ a ∧ a ≤ upper)
    (second : lower ≤ b ∧ b ≤ upper) (share : 0 ≤ x ∧ x ≤ 1) :
    lower ≤ a + x * (b - a) ∧ a + x * (b - a) ≤ upper := by
  have mean : a + x * (b - a) = (1 - x) * a + x * b := by ring
  have rest := sub_nonneg.mpr share.2
  rw [mean]
  constructor
  · linarith [mul_le_mul_of_nonneg_left first.1 rest, mul_le_mul_of_nonneg_left second.1 share.1]
  · linarith [mul_le_mul_of_nonneg_left first.2 rest, mul_le_mul_of_nonneg_left second.2 share.1]

theorem share_of_block {share : ℚ} (unit : 0 ≤ share ∧ share ≤ 1) (inBlock : isamp ≤ iqBuffSize) :
    0 ≤ isamp / 200000 * share ∧ isamp / 200000 * share ≤ 1 := by
  rw [iqBuffSize_eq] at inBlock
  have bound : (isamp : ℚ) ≤ 200000 := by exact_mod_cast inBlock
  have part : (0 : ℚ) ≤ isamp / 200000 ∧ (isamp : ℚ) / 200000 ≤ 1 := by
    constructor
    · positivity
    · linarith
  exact ⟨mul_nonneg part.1 unit.1, mul_le_one₀ part.2 unit.1 unit.2⟩

end Times

/-! ## Amplitudes -/

/-- What the loop multiplies a channel with is a sign, at every sample. -/
theorem sampled_sends {sc : Scenario} {n i : Nat} (whole : sc.WholeSecond) (inside : i < maxChan)
    (active : 0 < ((sc.gen n).chan i).prn) (reach : Channel.InReach ((sc.gen n).chan i))
    (step : Channel.StepInRange (sc.sampled n 0 i)) (isamp : Nat) :
    Sends (sc.sampled n isamp i) := by
  obtain ⟨counting, bit, chip⟩ := sampled_tracks whole inside active reach step isamp
  have prn : (sc.sampled n isamp i).prn = ((sc.gen n).chan i).prn := sampled_prn inside
  obtain ⟨ca, code⟩ := (gen_coded n inside active).congr prn (sampled_ca inside isamp)
  have satellite := gen_satellite n inside active
  rw [← prn] at satellite
  have sign := codeCA_sign counting chip satellite code
  constructor
  · rw [bit]
    split
    · exact Or.inl rfl
    · exact Or.inr rfl
  · rw [sign]
    split
    · exact Or.inl rfl
    · exact Or.inr rfl

/-- A value between -1 and 37 is cast to a place of the antenna table. -/
theorem trunc_range {x : ℚ} (lower : -1 < x) (upper : x < 37) : 0 ≤ trunc x ∧ trunc x ≤ 36 := by
  rcases le_or_gt 0 x with nonneg | negative
  · rw [trunc_of_nonneg nonneg]
    have floor : ⌊x⌋ < 37 := Int.floor_lt.mpr (by exact_mod_cast upper)
    have positive := Int.floor_nonneg.mpr nonneg
    omega
  · have opposite : trunc (-x) = 0 := by
      rw [trunc_of_nonneg (by linarith), Int.floor_eq_zero_iff]
      exact ⟨by linarith, by linarith⟩
    rw [trunc_neg] at opposite
    omega

/-- The gain of a plausible pseudorange. -/
theorem signalGain_range {sc : Scenario} {ieph : Int} {grx : GpsTime ℚ} {iumd : Nat}
    {chan : Channel} (table : ∀ ibs, 0 ≤ ibs → ibs ≤ 36 → 0 ≤ sc.antPat ibs ∧ sc.antPat ibs ≤ 1)
    (active : 0 < chan.prn) (likely : PlausibleRange (sc.currentRange ieph grx iumd chan))
    (gain : Int) : 0 ≤ sc.signalGain ieph grx iumd chan gain ∧
      sc.signalGain ieph grx iumd chan gain ≤ 173 := by
  rw [Scenario.signalGain, if_pos active]
  dsimp only
  generalize sc.currentRange ieph grx iumd chan = rho at likely
  have far := likely.d
  have elevation := abs_le.mp likely.elevation
  have place : 0 ≤ trunc ((90.0 - rho.azel.2 * r2d) / 5.0) ∧
      trunc ((90.0 - rho.azel.2 * r2d) / 5.0) ≤ 36 := by
    apply trunc_range
    · norm_num [r2d] at elevation ⊢
      linarith
    · norm_num [r2d] at elevation ⊢
      linarith
  obtain ⟨nonneg, passive⟩ := table _ place.1 place.2
  generalize sc.antPat (trunc ((90.0 - rho.azel.2 * r2d) / 5.0)) = antGain at nonneg passive
  have positive : 0 < rho.d := by linarith
  have loss : 0 ≤ 20200000.0 / rho.d ∧ 20200000.0 / rho.d ≤ (1.356 : ℚ) := by
    constructor
    · positivity
    · rw [div_le_iff₀ positive]
      norm_num
      linarith
  have product : 20200000.0 / rho.d * antGain ≤ 1.356 * 1 :=
    mul_le_mul loss.2 passive nonneg (by norm_num)
  have value : 0 ≤ 20200000.0 / rho.d * antGain * 128.0 := by
    have := mul_nonneg loss.1 nonneg
    positivity
  rw [trunc_of_nonneg value]
  refine ⟨Int.floor_nonneg.mpr value, ?_⟩
  have below : ⌊20200000.0 / rho.d * antGain * 128.0⌋ < 174 := by
    rw [Int.floor_lt]
    norm_num at product ⊢
    linarith
  omega

/-- Twelve such gains stay within sixteen bits. -/
theorem sample_not_clipped {delt : ℚ} {gain : Nat → Int} {chan : Nat → Channel}
    (gains : ∀ i < maxChan, 0 < (chan i).prn → 0 ≤ gain i ∧ gain i ≤ 173)
    (sends : ∀ i < maxChan, 0 < (chan i).prn → Sends (chan i)) :
    let acc := (channelLoop (codeStep delt) gain maxChan chan).1
    (iqSample acc).i.toInt = scaledAcc acc.1 ∧ (iqSample acc).q.toInt = scaledAcc acc.2 := by
  intro acc
  have each : ∀ i ∈ Finset.range maxChan,
      |(if 0 < (chan i).prn then contribution (gain i) (chan i) else 0).1| ≤ 43250 ∧
        |(if 0 < (chan i).prn then contribution (gain i) (chan i) else 0).2| ≤ 43250 := by
    intro i member
    have inside := Finset.mem_range.mp member
    split
    · rename_i active
      have bound := gains i inside active
      obtain ⟨i', q'⟩ := contribution_bounds (sends i inside active) bound.1
      constructor <;> linarith
    · exact ⟨by decide, by decide⟩
  have bounds : |acc.1| ≤ 519000 ∧ |acc.2| ≤ 519000 := by
    have first := Finset.sum_le_card_nsmul _ _ _ fun i member => (each i member).1
    have second := Finset.sum_le_card_nsmul _ _ _ fun i member => (each i member).2
    rw [Finset.card_range] at first second
    simp only [acc, acc_eq, Prod.fst_sum, Prod.snd_sum]
    exact ⟨(Finset.abs_sum_le_sum_abs _ _).trans first,
      (Finset.abs_sum_le_sum_abs _ _).trans second⟩
  have short : ∀ x : Int, |x| ≤ 519000 → (BitVec.ofInt 16 (scaledAcc x)).toInt = scaledAcc x := by
    intro x small
    rw [abs_le] at small
    rw [BitVec.toInt_ofInt]
    apply Int.bmod_eq_of_le
    · rw [scaledAcc, Int.shiftRight_eq_div_pow]
      omega
    · rw [scaledAcc, Int.shiftRight_eq_div_pow]
      omega
  exact ⟨short _ bounds.1, short _ bounds.2⟩

/-! ## Runs -/

/-- `i_acc` and `q_acc` of a sample of the block that follows `n` blocks. -/
def Scenario.acc (sc : Scenario) (n isamp : Nat) : Int × Int :=
  blockSum (codeStep delt) (sc.refresh (n + 1) (sc.gen n)).gain maxChan
    (sc.refresh (n + 1) (sc.gen n)).chan isamp

section Nominal

variable {sc : Scenario} {n i : Nat}

theorem nominal_gain (nominal : sc.Nominal) (follows : sc.Follows) (inside : i < maxChan)
    (active : 0 < ((sc.gen n).chan i).prn) :
    0 ≤ (sc.refresh (n + 1) (sc.gen n)).gain i ∧
      (sc.refresh (n + 1) (sc.gen n)).gain i ≤ 173 := by
  have value : (sc.refresh (n + 1) (sc.gen n)).gain i = sc.signalGain (sc.gen n).ieph
      (sc.gen n).grx (n + 1) ((sc.gen n).chan i) ((sc.gen n).gain i) := if_pos inside
  rw [value]
  exact signalGain_range nominal.antPat active
    (currentRange_inBounds nominal follows n inside active) _

theorem nominal_sends (nominal : sc.Nominal) (follows : sc.Follows)
    (share : 0 ≤ dopplerShare sc.lambda ∧ dopplerShare sc.lambda ≤ 1) (whole : sc.WholeSecond)
    (inside : i < maxChan) (active : 0 < ((sc.gen n).chan i).prn) (isamp : Nat) :
    Sends (sc.sampled n isamp i) :=
  sampled_sends whole inside active (gen_inBounds nominal follows n inside active).inReach
    (sampled_stepInRange nominal follows share n inside active) isamp

theorem nominal_stored (nominal : sc.Nominal) (follows : sc.Follows)
    (share : 0 ≤ dopplerShare sc.lambda ∧ dopplerShare sc.lambda ≤ 1) (whole : sc.WholeSecond)
    (n isamp : Nat) :
    (iqSample (sc.acc n isamp)).i.toInt = scaledAcc (sc.acc n isamp).1 ∧
      (iqSample (sc.acc n isamp)).q.toInt = scaledAcc (sc.acc n isamp).2 := by
  have prn : ∀ i < maxChan, (sc.sampled n isamp i).prn = ((sc.gen n).chan i).prn :=
    fun i inside => sampled_prn inside
  exact sample_not_clipped
    (fun i inside active => nominal_gain nominal follows inside (by rwa [← prn i inside]))
    (fun i inside active => nominal_sends nominal follows share whole inside
      (by rwa [← prn i inside]) isamp)

end Nominal

/-- **Nominal runs.**  In every run of the loop over plausible ephemerides, with a receiver near
the Earth and pseudoranges that follow `computeRange`, at every sample of every block: an active
channel reads its arrays at valid indices and sends a sign, its signal has been under way for 46 to
131 milliseconds, and its gain is at most 173; and the two sums are stored as they are. -/
theorem nominal_run (sc : Scenario) (nominal : sc.Nominal) (follows : sc.Follows)
    (wavelength : sc.lambda = lambdaL1) (whole : sc.WholeSecond) (n isamp : Nat)
    (inBlock : isamp ≤ iqBuffSize) :
    (∀ i < maxChan, 0 < ((sc.gen n).chan i).prn →
      Channel.InWindow (sc.sampled n isamp i) ∧ Sends (sc.sampled n isamp i) ∧
      0.0466 ≤ sc.receptionTime n isamp - signalTime (sc.sampled n isamp i) ∧
      sc.receptionTime n isamp - signalTime (sc.sampled n isamp i) ≤ 0.1305 ∧
      0 ≤ (sc.refresh (n + 1) (sc.gen n)).gain i ∧
      (sc.refresh (n + 1) (sc.gen n)).gain i ≤ 173) ∧
    (iqSample (sc.acc n isamp)).i.toInt = scaledAcc (sc.acc n isamp).1 ∧
    (iqSample (sc.acc n isamp)).q.toInt = scaledAcc (sc.acc n isamp).2 := by
  have share : 0 ≤ dopplerShare sc.lambda ∧ dopplerShare sc.lambda ≤ 1 := by
    rw [wavelength]
    exact dopplerShare_lambdaL1
  constructor
  · intro i inside active
    have reach := (gen_inBounds nominal follows n inside active).inReach
    have reach' := (sampled_inBounds nominal follows n inside active).inReach
    have step := sampled_stepInRange nominal follows share n inside active
    obtain ⟨t, tenths, multiple⟩ := whole.tenths
    have position := position_sampled_bounds whole share inside active reach reach' inBlock
    have window := inWindow_of_position
      (counting_sampled tenths multiple inside active reach step isamp) position.1 position.2
    have under := between_bounds (gen_inBounds nominal follows n inside active).travelTime
      (sampled_inBounds nominal follows n inside active).travelTime
      (share_of_block share inBlock)
    rw [signalTime_sampled whole inside active reach, sub_sub_cancel, Scenario.delayAt]
    exact ⟨window, nominal_sends nominal follows share whole inside active isamp, under.1, under.2,
      nominal_gain nominal follows inside active⟩
  · exact nominal_stored nominal follows share whole n isamp

/-! ### A circular orbit -/

/-- A value to the next multiple of 2^-20 below it. -/
noncomputable def rounded (x : ℝ) : ℚ :=
  (⌊x * 1048576⌋ : ℚ) / 1048576

theorem rounded_bounds (x : ℝ) :
    x - 1 / 1048576 < ((rounded x : ℚ) : ℝ) ∧ ((rounded x : ℚ) : ℝ) ≤ x := by
  have lower := Int.sub_one_lt_floor (x * 1048576)
  have upper := Int.floor_le (x * 1048576)
  rw [rounded]
  push_cast
  rw [lt_div_iff₀ (by norm_num), div_le_iff₀ (by norm_num)]
  constructor <;> linarith

theorem abs_rounded_sub_le (x : ℝ) : |((rounded x : ℚ) : ℝ) - x| ≤ 1e-6 := by
  obtain ⟨lower, upper⟩ := rounded_bounds x
  rw [abs_le]
  norm_num at lower ⊢
  constructor <;> linarith

open Classical in
/-- The results of `checkSatVisibility` and `computeRange` in real numbers, rounded. -/
noncomputable def realOrbits : Orbits where
  azel eph g xyz :=
    if returned : ∃ result : Int × (ℝ × ℝ), ∃ turns, ∀ more ≥ turns,
        Sight.checkSatVisibility more eph.exact g.exact (exactPosition xyz) 0.0 (0, 0) =
          some result then
      (rounded returned.choose.2.1, rounded returned.choose.2.2)
    else (0, 0)
  rho eph ionoutc g xyz :=
    if returned : ∃ r, ∃ turns, ∀ more ≥ turns, Sight.computeRange more eph.exact ionoutc.exact
        g.exact (exactPosition xyz) = some r then
      { g := g
        range := rounded returned.choose.range
        rate := rounded returned.choose.rate
        d := rounded returned.choose.d
        azel := (rounded returned.choose.azel.1, rounded returned.choose.azel.2)
        ionoDelay := rounded returned.choose.ionoDelay }
    else
      { g := g
        range := 0
        rate := 0
        d := 0
        azel := (0, 0)
        ionoDelay := 0 }

theorem realOrbits_follows {eph : Ephem ℚ} {ionoutc : IonoUtc ℚ} {g : GpsTime ℚ}
    {xyz : Position} (likely : eph.Plausible) (iono : Sight.NominalIono ionoutc.exact)
    (quiet : ionoutc.enable = 0) (inWeek : g.InWeek) (near : NearEarth xyz) :
    realOrbits.Follows eph ionoutc g xyz := by
  obtain ⟨-, satellite, llh, -, -, defined⟩ := Sight.exists_computeRange likely.nominal iono
    (likely.abs_sub_toc_le inWeek) (length_exactPosition_le near)
  obtain ⟨turns, r, answer, -⟩ := defined fun undefined => undefined.1 quiet
  have returned : ∃ r, ∃ turns, ∀ more ≥ turns, Sight.computeRange more eph.exact ionoutc.exact
      g.exact (exactPosition xyz) = some r := ⟨r, turns, answer⟩
  obtain ⟨turns', answer'⟩ := returned.choose_spec
  have coarse : ∀ x : ℝ, |((rounded x : ℚ) : ℝ) - x| ≤ 1 := fun x =>
    (abs_rounded_sub_le x).trans (by norm_num)
  refine ⟨turns', returned.choose, answer', ?_⟩
  rw [realOrbits]
  dsimp only
  rw [dif_pos returned]
  exact ⟨coarse _, coarse _, abs_rounded_sub_le _⟩

/-- A receiver on the equator, and one satellite that stands over it at the start. -/
noncomputable def circularScenario : Scenario where
  orbits := realOrbits
  lambda := lambdaL1
  eph _ sv :=
    if sv = 0 then Sight.circularEphem else { Sight.circularEphem with vflg := 0 }
  ionoutc := { sampleIono with enable := 0 }
  staticLocationMode := true
  xyz _ := (6378137, 0, 0)
  antPat _ := 1
  g0 := { week := 2000, sec := 0 }
  ieph := 0
  chan _ := idleChannel (fun _ _ => 0)
  gain _ := 0

theorem circularScenario_nominal : circularScenario.Nominal := by
  refine ⟨fun k sv _ valid => ?_, ?_, fun _ => ?_, fun _ _ _ => ?_⟩
  · by_cases first : sv = 0
    · have entry : circularScenario.eph k sv = Sight.circularEphem := if_pos first
      rw [entry]
      exact Sight.circularEphem_inBounds
    · have entry : circularScenario.eph k sv = { Sight.circularEphem with vflg := 0 } :=
        if_neg first
      rw [entry] at valid
      exact absurd valid (by decide)
  · constructor <;> norm_num [circularScenario, IonoUtc.exact, sampleIono, abs_le]
  · norm_num [NearEarth, circularScenario]
  · exact ⟨zero_le_one, le_rfl⟩

theorem circularScenario_follows : circularScenario.Follows := by
  have nominal := circularScenario_nominal
  exact
    { start := fun i inside active => realOrbits_follows (nominal.tracked inside active)
        nominal.iono rfl (incGpsTime_inWeek _ _) (nominal.near 0)
      block := fun n i inside active => realOrbits_follows (nominal.tracked inside active)
        nominal.iono rfl (gen_inWeek n) (nominal.position _)
      renewal := fun n _ i inside active => realOrbits_follows (nominal.tracked inside active)
        nominal.iono rfl (gen_inWeek n) (nominal.position _) }

/-- A free channel is taken by the first satellite if that is visible. -/
theorem exists_active_of_visible {sc : Scenario}
    (visible : checkSatVisibility sc.orbits (sc.eph sc.ieph 0) (incGpsTime sc.g0 0.0) (sc.xyz 0)
      0.0 = 1) : ∃ i < maxChan, 0 < ((sc.gen 0).chan i).prn := by
  let call : Call := ⟨sc.orbits, sc.lambda, sc.eph sc.ieph, sc.ionoutc, incGpsTime sc.g0 0.0,
    sc.xyz 0, untouched, untouched_prn⟩
  let s : Allocation := {
    nsat := 0
    chan := eachChannel (fun chan => { chan with prn := 0 }) sc.chan
    allocatedSat := fun _ => -1 }
  have consistent : (call.visits maxSat s).Consistent :=
    visits_consistent (start_consistent sc) le_rfl
  have turn : Visit call 0 s (call.visits (0 + 1) s) := visit_visits 0
  obtain ⟨i, flag⟩ : ∃ i : Nat, (call.visits (0 + 1) s).allocatedSat 0 = i := by
    generalize call.visits (0 + 1) s = t at turn
    cases turn with
    | kept _ allocated => exact absurd rfl allocated
    | taken i =>
        refine ⟨i, ?_⟩
        dsimp only
        rw [Function.update_self]
    | refused _ _ full =>
        have free : (s.chan 0).prn = 0 := by
          change (eachChannel _ sc.chan 0).prn = 0
          rw [eachChannel_of_lt (by decide)]
        exact absurd free (full 0 (by decide))
    | cleared _ hidden => exact absurd visible hidden
    | absent hidden => exact absurd visible hidden
  rw [← visits_behind (by decide : 0 < maxSat)] at flag
  obtain ⟨inside, prn⟩ := consistent.ofSat 0 (by decide) i flag
  refine ⟨i, inside, ?_⟩
  have same : ((sc.gen 0).chan i).prn = ((call.visits maxSat s).chan i).prn := rfl
  omega

theorem circularScenario_active : ∃ i < maxChan, 0 < ((circularScenario.gen 0).chan i).prn := by
  apply exists_active_of_visible
  have start : incGpsTime circularScenario.g0 0.0 = { week := 2000, sec := 0 } := by
    have value : incGpsTime ({ week := 2000, sec := 0 } : GpsTime ℚ) 0.0 =
        { week := 2000, sec := 0 } := by decide +kernel
    exact value
  have time : (incGpsTime circularScenario.g0 0.0).exact = { week := 2000, sec := 0 } := by
    rw [start, GpsTime.exact, Rat.cast_zero]
  have place : exactPosition (circularScenario.xyz 0) = (6378137, 0, 0) := by
    norm_num [exactPosition, circularScenario]
  obtain ⟨azel', turns, high, answer⟩ := Sight.overhead_visible
  rw [← time, ← place] at answer
  have returned : ∃ result : Int × (ℝ × ℝ), ∃ turns, ∀ more ≥ turns,
      Sight.checkSatVisibility more Sight.circularEphem.exact
        (incGpsTime circularScenario.g0 0.0).exact (exactPosition (circularScenario.xyz 0)) 0.0
        (0, 0) = some result := ⟨(1, azel'), turns, answer⟩
  have result : returned.choose = (1, azel') := by
    obtain ⟨turns', answer'⟩ := returned.choose_spec
    exact Option.some_injective _ ((answer' _ (le_max_left ..)).symm.trans
      (answer _ (le_max_right turns' turns)))
  have elevation : (circularScenario.orbits.azel Sight.circularEphem
      (incGpsTime circularScenario.g0 0.0) (circularScenario.xyz 0)).2 = rounded azel'.2 := by
    change (realOrbits.azel _ _ _).2 = _
    rw [realOrbits]
    dsimp only
    rw [dif_pos returned, result]
  have above : (0 : ℚ) < rounded azel'.2 * r2d := by
    have lower := (rounded_bounds azel'.2).1
    have degree : 1 / 57.2957795131 < azel'.2 := by
      rw [div_lt_iff₀ (by norm_num)]
      exact high
    have positive : (0 : ℝ) < (rounded azel'.2 : ℚ) := by
      norm_num at lower degree
      linarith
    have cast : (0 : ℚ) < rounded azel'.2 := by exact_mod_cast positive
    exact mul_pos cast (by norm_num [r2d])
  have entry : circularScenario.eph circularScenario.ieph 0 = Sight.circularEphem := rfl
  rw [entry, checkSatVisibility, if_neg (by decide), elevation, if_pos]
  norm_num
  exact above

/-- A run with an active channel, in its block 600. -/
theorem nominal_run_circular :
    (∃ i < maxChan, 0 < ((circularScenario.gen 0).chan i).prn) ∧
    (∀ i < maxChan, 0 < ((circularScenario.gen 600).chan i).prn →
      Channel.InWindow (circularScenario.sampled 600 7 i) ∧
      Sends (circularScenario.sampled 600 7 i) ∧
      0.0466 ≤ circularScenario.receptionTime 600 7 -
        signalTime (circularScenario.sampled 600 7 i) ∧
      circularScenario.receptionTime 600 7 -
        signalTime (circularScenario.sampled 600 7 i) ≤ 0.1305 ∧
      0 ≤ (circularScenario.refresh (600 + 1) (circularScenario.gen 600)).gain i ∧
      (circularScenario.refresh (600 + 1) (circularScenario.gen 600)).gain i ≤ 173) ∧
    (iqSample (circularScenario.acc 600 7)).i.toInt = scaledAcc (circularScenario.acc 600 7).1 ∧
    (iqSample (circularScenario.acc 600 7)).q.toInt = scaledAcc (circularScenario.acc 600 7).2 :=
  ⟨circularScenario_active, nominal_run circularScenario circularScenario_nominal
    circularScenario_follows rfl ⟨0, by norm_num [circularScenario]⟩ 600 7
    (by rw [iqBuffSize_eq]; norm_num)⟩

end Navisim.Loop
