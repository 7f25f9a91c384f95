import Navisim.Gps.Calendar
import Navisim.Loop.Allocate
import Navisim.Signal.Sample

/-!
# The generation loop

The loop of `runCore3`: in each block of 0.1 s the active channels are set to the current
pseudorange and run through the samples; every 30 seconds of receiver time the navigation
messages are renewed, the ephemeris set may advance and the channels are allocated again.
-/

namespace Navisim.Loop

open Nav Signal

/-- The number of samples per 0.1 s, after `samp_freq = floor(samp_freq/10.0)`. -/
def iqBuffSize : Nat := (trunc (⌊(2.0e6 : ℚ) / 10.0⌋ : ℚ)).toNat

def delt : ℚ := 1.0 / (⌊(2.0e6 : ℚ) / 10.0⌋ * 10.0)

/-- What the loop reads: the ephemeris array with whatever lies around it, the receiver and its
start, and the memory the channels are found in. -/
structure Scenario where
  orbits : Orbits
  /-- `LAMBDA_L1` -/
  lambda : ℚ
  eph : Int → Nat → Ephem ℚ
  ionoutc : IonoUtc ℚ
  staticLocationMode : Bool
  xyz : Nat → Position
  antPat : Int → ℚ
  /-- Scenario start time. -/
  g0 : GpsTime ℚ
  /-- The current set of ephemerides at the start. -/
  ieph : Int
  chan : Nat → Channel
  gain : Nat → Int

/-- The state of the loop. -/
structure Gen where
  grx : GpsTime ℚ
  ieph : Int
  chan : Nat → Channel
  allocatedSat : Nat → Int
  gain : Nat → Int

/-- `for (i=0; i<MAX_CHAN; i++)` -/
def eachChannel {α : Type*} (f : α → α) (chan : Nat → α) : Nat → α :=
  fun i => if i < maxChan then f (chan i) else chan i

/-- The first satellite with a valid entry in a set. -/
def firstValid (eph : Nat → Ephem ℚ) : Option Nat :=
  (List.range maxSat).find? fun sv => (eph sv).vflg = 1

namespace Scenario

variable (sc : Scenario)

/-- The position of the receiver for step `iumd`. -/
def position (iumd : Nat) : Position :=
  if !sc.staticLocationMode then sc.xyz iumd else sc.xyz 0

/-- The pseudorange of the satellite of a channel. -/
def currentRange (ieph : Int) (grx : GpsTime ℚ) (iumd : Nat) (chan : Channel) : Range :=
  computeRange sc.orbits (sc.eph ieph (chan.prn - 1).toNat) sc.ionoutc grx (sc.position iumd)

/-- Refresh code phase and data bit counters. -/
def refreshChannel (ieph : Int) (grx : GpsTime ℚ) (iumd : Nat) (chan : Channel) : Channel :=
  if chan.prn > 0 then
    -- Current pseudorange
    let rho := sc.currentRange ieph grx iumd chan
    -- Update code phase and data bit counters
    let chan := computeCodePhase sc.lambda { chan with azel := rho.azel } rho 0.1
    { chan with carrPhasestep := trunc (round (512.0 * 65536.0 * chan.fCarr * delt)) }
  else chan

/-- Signal gain. -/
def signalGain (ieph : Int) (grx : GpsTime ℚ) (iumd : Nat) (chan : Channel) (gain : Int) : Int :=
  if chan.prn > 0 then
    let rho := sc.currentRange ieph grx iumd chan
    -- Path loss
    let pathLoss := 20200000.0 / rho.d
    -- Receiver antenna gain
    let ibs := trunc ((90.0 - rho.azel.2 * r2d) / 5.0)
    let antGain := sc.antPat ibs
    trunc (pathLoss * antGain * 128.0)
  else gain

/-- The first loop of a block. -/
def refresh (iumd : Nat) (s : Gen) : Gen :=
  { s with
    chan := eachChannel (sc.refreshChannel s.ieph s.grx iumd) s.chan
    gain := fun i =>
      if i < maxChan then sc.signalGain s.ieph s.grx iumd (s.chan i) (s.gain i) else s.gain i }

/-- The channels after `isamp` samples of block `iumd`. -/
def during (iumd : Nat) (s : Gen) (isamp : Nat) : Nat → Channel :=
  let s := sc.refresh iumd s
  afterSamples (codeStep delt) s.gain maxChan s.chan isamp

/-- The next set is taken up an hour before its time of clock. -/
def nextIsDue (ieph : Int) (grx : GpsTime ℚ) : Bool :=
  match firstValid (sc.eph (ieph + 1)) with
  | some sv => subGpsTime (sc.eph (ieph + 1) sv).toc grx < secondsInHour
  | none => false

/-- Generate new subframes if allocated. -/
def newSubframes (ieph : Int) (chan : Channel) : Channel :=
  if chan.prn ≠ 0 then
    { chan with sbf := eph2sbf (sc.eph ieph (chan.prn - 1).toNat) sc.ionoutc }
  else chan

/-- Refresh ephemeris and subframes. -/
def refreshEphemeris (s : Gen) : Gen :=
  if sc.nextIsDue s.ieph s.grx then
    { s with
      ieph := s.ieph + 1
      chan := eachChannel (sc.newSubframes (s.ieph + 1)) s.chan }
  else s

/-- Update navigation message. -/
def renewMessage (grx : GpsTime ℚ) (chan : Channel) : Channel :=
  if chan.prn > 0 then generateNavMsg grx chan 0 else chan

/-- Update channel allocation. -/
def reallocate (iumd : Nat) (s : Gen) : Gen :=
  let allocation := allocateChannel sc.orbits sc.lambda (sc.eph s.ieph) sc.ionoutc s.grx
    (sc.position iumd) s.chan s.allocatedSat
  { s with chan := allocation.chan, allocatedSat := allocation.allocatedSat }

/-- What happens every 30 seconds. -/
def renew (iumd : Nat) (s : Gen) : Gen :=
  sc.reallocate iumd
    (sc.refreshEphemeris { s with chan := eachChannel (renewMessage s.grx) s.chan })

/-- `igrx%300==0` -/
def isRenewal (grx : GpsTime ℚ) : Bool :=
  let igrx := trunc (grx.sec * 10.0 + 0.5)
  igrx.tmod 300 = 0

/-- The loop body of block `iumd`. -/
def block (iumd : Nat) (s : Gen) : Gen :=
  let chan := sc.during iumd s iqBuffSize
  let s := { sc.refresh iumd s with chan := chan }
  -- Update navigation message and channel allocation every 30 seconds
  let s := if isRenewal s.grx then sc.renew iumd s else s
  -- Update receiver time
  { s with grx := incGpsTime s.grx 0.1 }

/-- The state before the first block. -/
def start : Gen :=
  -- Clear all channels and the satellite allocation flags
  let chan := eachChannel (fun chan => { chan with prn := 0 }) sc.chan
  -- Initial reception time
  let grx := incGpsTime sc.g0 0.0
  -- Allocate visible satellites
  let allocation := allocateChannel sc.orbits sc.lambda (sc.eph sc.ieph) sc.ionoutc grx (sc.xyz 0)
    chan (fun _ => -1)
  { grx := incGpsTime grx 0.1
    ieph := sc.ieph
    chan := allocation.chan
    allocatedSat := allocation.allocatedSat
    gain := sc.gain }

/-- The state after `n` blocks; the loop counts `iumd` from 1. -/
def gen : Nat → Gen
  | 0 => sc.start
  | n + 1 => sc.block (n + 1) (gen n)

/-- The channels after `isamp` samples of the block that follows `n` blocks. -/
def sampled (n isamp : Nat) : Nat → Channel :=
  sc.during (n + 1) (sc.gen n) isamp

/-- The block that follows `n` blocks ends with a renewal. -/
def renews (n : Nat) : Bool :=
  isRenewal (sc.gen n).grx

end Scenario

theorem iqBuffSize_eq : iqBuffSize = 200000 := by
  have floor : ⌊(2.0e6 : ℚ) / 10.0⌋ = 200000 := by
    norm_num [Int.floor_eq_iff]
  rw [iqBuffSize, floor, trunc_intCast]
  rfl

theorem delt_eq : delt = 1 / 2000000 := by
  have floor : ⌊(2.0e6 : ℚ) / 10.0⌋ = 200000 := by
    norm_num [Int.floor_eq_iff]
  rw [delt, floor]
  norm_num

/-! ## Receiver time -/

section Time

variable {sc : Scenario}

theorem reallocate_grx (iumd : Nat) (s : Gen) : (sc.reallocate iumd s).grx = s.grx := rfl

theorem refreshEphemeris_grx (s : Gen) : (sc.refreshEphemeris s).grx = s.grx := by
  unfold Scenario.refreshEphemeris
  split <;> rfl

theorem renew_grx (iumd : Nat) (s : Gen) : (sc.renew iumd s).grx = s.grx := by
  rw [Scenario.renew, reallocate_grx, refreshEphemeris_grx]

theorem gen_succ_grx (n : Nat) : (sc.gen (n + 1)).grx = incGpsTime (sc.gen n).grx 0.1 := by
  simp only [Scenario.gen, Scenario.block]
  split
  · rw [renew_grx]
    rfl
  · rfl

theorem gen_inWeek (n : Nat) : (sc.gen n).grx.InWeek := by
  cases n with
  | zero => exact incGpsTime_inWeek _ _
  | succ n =>
      rw [gen_succ_grx]
      exact incGpsTime_inWeek _ _

variable {t : Int}

/-- The initial reception time is the start. -/
theorem start_total (tenths : sc.g0.total = t / 10) :
    (incGpsTime sc.g0 0.0).total = (t : ℚ) / 10 := by
  rw [incGpsTime_total 0 (by norm_num) ⟨t * 100, by rw [tenths]; push_cast; ring⟩, tenths]
  norm_num

/-- After `n` blocks the receiver time is `n + 1` tenths of a second after the start. -/
theorem gen_total (tenths : sc.g0.total = t / 10) (n : Nat) :
    (sc.gen n).grx.total = ((t + n + 1 : Int) : ℚ) / 10 := by
  induction n with
  | zero =>
      have first := start_total tenths
      calc (sc.gen 0).grx.total = (incGpsTime (incGpsTime sc.g0 0.0) 0.1).total := rfl
        _ = ((t + (0 : Nat) + 1 : Int) : ℚ) / 10 := by
            rw [incGpsTime_total 100 (by norm_num) ⟨t * 100, by rw [first]; push_cast; ring⟩, first]
            push_cast
            ring
  | succ n ih =>
      rw [gen_succ_grx, incGpsTime_total 100 (by norm_num)
        ⟨(t + n + 1) * 100, by rw [ih]; push_cast; ring⟩, ih]
      push_cast
      ring

/-- A time in tenths of a second renews on the half minutes. -/
theorem isRenewal_iff {g : GpsTime ℚ} (inWeek : g.InWeek) (tenths : g.total = t / 10) :
    Scenario.isRenewal g = true ↔ t % 300 = 0 := by
  have sec : g.sec * 10.0 = ((t - g.week * 6048000 : Int) : ℚ) := by
    unfold GpsTime.total at tenths
    push_cast
    linarith
  have nonneg : 0 ≤ t - g.week * 6048000 := by
    have : (0 : ℚ) ≤ ((t - g.week * 6048000 : Int) : ℚ) := by
      rw [← sec]
      have := inWeek.1
      positivity
    exact_mod_cast this
  have igrx : trunc (g.sec * 10.0 + 0.5) = t - g.week * 6048000 := by
    have lower : (0 : ℚ) ≤ ((t - g.week * 6048000 : Int) : ℚ) := by exact_mod_cast nonneg
    rw [sec, trunc_of_nonneg (by linarith [show (0 : ℚ) ≤ 0.5 by norm_num]),
      Int.floor_intCast_add]
    norm_num
  unfold Scenario.isRenewal
  dsimp only
  rw [igrx, decide_eq_true_iff, Int.tmod_eq_emod_of_nonneg nonneg]
  omega

theorem renews_iff (tenths : sc.g0.total = t / 10) (n : Nat) :
    sc.renews n = true ↔ (t + n + 1) % 300 = 0 :=
  isRenewal_iff (gen_inWeek n) (gen_total tenths n)

theorem not_renews_iff (tenths : sc.g0.total = t / 10) (n : Nat) :
    sc.renews n = false ↔ (t + n + 1) % 300 ≠ 0 := by
  rw [Bool.eq_false_iff, ne_eq, renews_iff tenths]

end Time

end Navisim.Loop
