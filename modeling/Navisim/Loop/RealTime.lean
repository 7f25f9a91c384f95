import Navisim.Gps.Dates
import Navisim.Loop.Sets
import Navisim.Motion.Readers
import Navisim.Nav.RoundTrip
import Navisim.Rtcm.Receive

/-!
# The start of a real-time run

`runCore_realTime` reads way points instead of positions and receives its ephemerides instead of
reading them.  The start time it is asked for goes into the options of the simulator
(`requestOption`), while the start-up looks at two local variables of the same names;
`startedAsRequested_iff` says when the run still starts at that time.
-/

namespace Navisim.Loop

open Signal Rinex

/-- What `getRTCM3Eph` returns. -/
def neph : Int := 1

/-! ## The start time -/

/-- `option_t` -/
structure SimOption where
  g0 : GpsTime ℚ
  timeoverwrite : Bool

/-- What is asked for: a start at the current time, which `getCurrentTime` gives. -/
def requestOption (now : DateTime) : Option SimOption :=
  (date2gps now).map fun g0 => { g0 := g0, timeoverwrite := true }

/-- The table, the ionosphere record and the start time. -/
structure TimeSet where
  eph : Int → Nat → Ephem ℚ
  ionoutc : IonoUtc ℚ
  g0 : GpsTime ℚ

/-- The clock time of the first valid entry of a set. -/
def firstTime (eph : Nat → Ephem ℚ) (otherwise : GpsTime ℚ) : GpsTime ℚ :=
  match firstValid eph with
  | some sv => (eph sv).toc
  | none => otherwise

/-- Overwrite the TOC and TOE to the scenario start time. -/
def overwriteTime (dsec : ℚ) (eph : Int → Nat → Ephem ℚ) : Int → Nat → Ephem ℚ :=
  fun i sv =>
    if 0 ≤ i ∧ i < neph ∧ sv < maxSat ∧ (eph i sv).vflg = 1 then
      { eph i sv with
        toc := incGpsTime (eph i sv).toc dsec
        t := gps2date (incGpsTime (eph i sv).toc dsec)
        toe := incGpsTime (eph i sv).toe dsec }
    else eph i sv

/-- The start time is taken from `g0` if it is set, and else from the table; the result is `none`
if the time is rejected. -/
def setStartTime (g0 : GpsTime ℚ) (timeoverwrite : Bool) (gmin gmax : GpsTime ℚ)
    (eph : Int → Nat → Ephem ℚ) (ionoutc : IonoUtc ℚ) : Option TimeSet :=
  if g0.week ≥ 0 then -- Scenario start time has been set.
    if timeoverwrite then
      let gtmp := { week := g0.week, sec := (trunc g0.sec).tdiv 7200 * 7200.0 }
      let dsec := subGpsTime gtmp gmin
      some {
        eph := overwriteTime dsec eph
        -- Overwrite the UTC reference week number
        ionoutc := { ionoutc with wnt := gtmp.week, tot := trunc gtmp.sec }
        g0 := g0 }
    else if subGpsTime g0 gmin < 0.0 ∨ subGpsTime gmax g0 < 0.0 then none
    else some { eph := eph, ionoutc := ionoutc, g0 := g0 }
  else some { eph := eph, ionoutc := ionoutc, g0 := gmin }

/-- The local variables that the start-up finds unassigned. -/
structure Unassigned where
  sec : ℚ
  gmin : GpsTime ℚ
  ionoutc : IonoUtc ℚ

/-- What the start-up has set behind the reception. -/
structure Started where
  opt : SimOption
  times : TimeSet
  ieph : Int

namespace Started

variable (start : Started)

/-- Initial reception time. -/
def grx : GpsTime ℚ :=
  incGpsTime start.times.g0 0.0

end Started

/-- The part of the start-up between the reception and the sample buffer; `none` if it gives up. -/
def realTimeStart (now : DateTime) (memory : Unassigned) (eph : Int → Nat → Ephem ℚ) :
    Option Started := do
  let opt ← requestOption now
  -- Invalid start time
  let g0 := { week := -1, sec := memory.sec }
  let timeoverwrite := false
  let gmin := firstTime (eph 0) memory.gmin
  let gmax := firstTime (eph (neph - 1)) { week := 0, sec := 0 }
  let times ← setStartTime g0 timeoverwrite gmin gmax eph { memory.ionoutc with enable := 1 }
  let ieph := Setup.selectSet times.eph neph times.g0
  if ieph = -1 then none
  else return { opt := opt, times := times, ieph := ieph }

/-! ## The run -/

/-- The segment of the way points that a time lies in. -/
def segment (w : Motion.WayPoints Position Number) (dTime : Number) : Option Nat :=
  (List.range (w.nWayPoint - 1).toNat).find? fun iLine =>
    dTime ≥ w.durationWayPoint iLine ∧ dTime < w.durationWayPoint (iLine + 1)

/-- The coordinates at a time on a segment. -/
def onSegment (w : Motion.WayPoints Position Number) (dTime : Number) (iLine : Nat) :
    Number × Number × Number :=
  let begins := w.durationWayPoint iLine
  let ends := w.durationWayPoint (iLine + 1)
  let coordinate := fun a b : Number => a + (b - a) * (dTime - begins) / (ends - begins)
  let a := w.xyzWayPoint iLine
  let b := w.xyzWayPoint (iLine + 1)
  (coordinate a.1 b.1, coordinate a.2.1 b.2.1, coordinate a.2.2 b.2.2)

/-- A time that `gmtime` gives. -/
structure UtcTime where
  t : DateTime
  month : 1 ≤ t.m ∧ t.m ≤ 12

/-- What a run of `runCore_realTime` is given from outside, and the memory it starts in. -/
structure RealTimeInputs where
  now : UtcTime
  /-- The motion file, and what its reader starts with. -/
  umfile : Option (List Char)
  frame : Motion.Frame Position
  locals : Motion.Locals
  wayPoints : Motion.WayPoints Position Number
  /-- What the number of steps becomes if it does not fit into an `int`. -/
  overflow : Int
  /-- The caster can be connected to, and takes the request. -/
  connected : Bool
  blocks : List (List (BitVec 8))
  sqrt : ℚ → ℚ
  buff : Rtcm.Buffer
  lens : Nat → BitVec 32
  nSV : Int
  /-- The sample buffer can be allocated, and the output file opened. -/
  allocated : Bool
  opened : Bool
  memory : Unassigned
  eph : Int → Int → Ephem ℚ
  xyz : Nat → Position
  orbits : Orbits
  antPat : Int → ℚ
  chan : Nat → Channel
  gain : Nat → Int

namespace RealTimeInputs

variable (inputs : RealTimeInputs)

/-- The way points, and what their reader returns. -/
def motion : Motion.WayPoints Position Number × Option Int :=
  Motion.readUserMotionInLLH inputs.frame inputs.locals inputs.wayPoints inputs.umfile

/-- The number of steps, unless there is no motion. -/
def numd : Option Int :=
  let numd := inputs.motion.2.getD inputs.overflow
  if numd = -1 then none
  else if numd = 0 then none
  else
    -- Set simulation duration
    let duration : ℚ := userMotionSize / 10.0
    let iduration := trunc (duration * 10.0 + 0.5)
    some (if numd > iduration then iduration else numd)

/-- What the reception leaves, if it is defined. -/
def received : Option Rtcm.Delivery :=
  let table := { eph := inputs.eph 0, nSV := inputs.nSV }
  if inputs.connected then
    Rtcm.getRtcm3Eph inputs.sqrt table inputs.buff inputs.lens inputs.blocks
  else some { nSV := 0, eph := table, frames := [] }

/-- The array behind the reception: only its first set has been written to. -/
def table (d : Rtcm.Delivery) : Int → Nat → Ephem ℚ :=
  fun i sv => if i = 0 then d.eph.eph sv else inputs.eph i sv

/-- The position for a step is that on the way, or what the array is found to hold. -/
def position (iumd : Nat) : Position :=
  if iumd = 0 then inputs.xyz 0
  else
    let dTime : ℚ := 0.1 * iumd
    match segment inputs.motion.1 dTime with
    | some iLine => inputs.frame.ecef (onSegment inputs.motion.1 dTime iLine)
    | none => inputs.xyz iumd

def scenario (start : Started) : Scenario where
  orbits := inputs.orbits
  lambda := lambdaL1
  eph := start.times.eph
  ionoutc := start.times.ionoutc
  staticLocationMode := false
  xyz := inputs.position
  antPat := inputs.antPat
  g0 := start.times.g0
  ieph := start.ieph
  chan := inputs.chan
  gain := inputs.gain

end RealTimeInputs

/-! ## Starting as requested -/

/-- One offset for the times of all valid entries. -/
def Shifted (eph eph' : Int → Nat → Ephem ℚ) : Prop :=
  ∃ shift, ∀ i, 0 ≤ i → i < neph → ∀ sv < maxSat, (eph i sv).vflg = 1 →
    (eph' i sv).vflg = 1 ∧ (eph' i sv).toc.total = (eph i sv).toc.total + shift ∧
      (eph' i sv).toe.total = (eph i sv).toe.total + shift

/-- The first reception time is the start time that was asked for, and the ephemerides are brought
to it together. -/
structure Started.AsRequested (start : Started) (eph : Int → Nat → Ephem ℚ) : Prop where
  time : start.grx = start.opt.g0
  shifted : Shifted eph start.times.eph
  current : 0 ≤ start.ieph ∧ start.ieph < neph ∧ ∃ sv < maxSat,
    (start.times.eph start.ieph sv).vflg = 1 ∧
      |start.grx.total - (start.times.eph start.ieph sv).toc.total| ≤ 3600

def StartsAsRequested (now : DateTime) (memory : Unassigned) (eph : Int → Nat → Ephem ℚ) : Prop :=
  ∃ start, realTimeStart now memory eph = some start ∧ start.AsRequested eph

section Start

variable {now : DateTime} {memory : Unassigned} {eph : Int → Nat → Ephem ℚ} {sv : Nat}

/-- The request is set aside: the local variables are not those of the options. -/
theorem realTimeStart_eq (now : DateTime) (memory : Unassigned) (eph : Int → Nat → Ephem ℚ) :
    realTimeStart now memory eph = (requestOption now).bind fun opt =>
      let g0 := firstTime (eph 0) memory.gmin
      let ieph := Setup.selectSet eph neph g0
      if ieph = -1 then none
      else some {
        opt := opt
        times := { eph := eph, ionoutc := { memory.ionoutc with enable := 1 }, g0 := g0 }
        ieph := ieph } := by
  unfold realTimeStart setStartTime
  rfl

/-- The run starts at the clock time of the first valid entry. -/
theorem realTimeStart_of_firstValid (found : firstValid (eph 0) = some sv) {opt : SimOption}
    (requested : requestOption now = some opt) :
    realTimeStart now memory eph = some {
      opt := opt
      times := {
        eph := eph
        ionoutc := { memory.ionoutc with enable := 1 }
        g0 := (eph 0 sv).toc }
      ieph := 0 } := by
  have first : firstTime (eph 0) memory.gmin = (eph 0 sv).toc := by
    rw [firstTime, found]
  have current : Setup.selectSet eph neph (eph 0 sv).toc = 0 :=
    selectSet_of_current le_rfl (isCurrent_of_firstValid found)
  rw [realTimeStart_eq, requested, Option.bind_some]
  dsimp only
  rw [first, current]
  rfl

/-- Without a valid entry the run gives up. -/
theorem realTimeStart_of_none (missing : firstValid (eph 0) = none) :
    realTimeStart now memory eph = none := by
  have empty : ∀ k, 0 ≤ k → k < neph → ¬ HasValid (eph k) := by
    intro k positive below valid
    obtain rfl : k = 0 := by
      rw [neph] at below
      omega
    obtain ⟨sv, found⟩ := hasValid_iff.mp valid
    rw [missing] at found
    cases found
  rw [realTimeStart_eq]
  dsimp only
  rw [selectSet_of_empty empty]
  cases requestOption now <;> rfl

/-- A run that starts as requested has a valid entry, and its clock time is the current one. -/
theorem time_of_startsAsRequested (starts : StartsAsRequested now memory eph) :
    ∃ sv, firstValid (eph 0) = some sv ∧
      date2gps now = some (incGpsTime (eph 0 sv).toc 0.0) := by
  obtain ⟨start, started, requested⟩ := starts
  rcases found : firstValid (eph 0) with _ | sv
  · rw [realTimeStart_of_none found] at started
    cases started
  rcases asked : requestOption now with _ | opt
  · rw [realTimeStart_eq, asked] at started
    cases started
  · rw [realTimeStart_of_firstValid found asked, Option.some.injEq] at started
    rw [← started] at requested
    obtain ⟨g, converted, rfl⟩ := Option.map_eq_some_iff.mp asked
    refine ⟨sv, rfl, ?_⟩
    rw [converted]
    exact congrArg some requested.time.symm

end Start

/-- **When the run starts as requested.**  For every current time and every table, the first
reception time is the requested one and the ephemerides are brought to it, exactly if an entry of
the received set is valid and the clock time of the first one happens to be the requested time. -/
theorem startsAsRequested_iff (now : DateTime) (memory : Unassigned)
    (eph : Int → Nat → Ephem ℚ) :
    StartsAsRequested now memory eph ↔ ∃ sv, firstValid (eph 0) = some sv ∧
      date2gps now = some (incGpsTime (eph 0 sv).toc 0.0) := by
  constructor
  · exact time_of_startsAsRequested
  · intro first
    rcases first with ⟨sv, found, converted⟩
    obtain ⟨inside, flag⟩ := firstValid_some found
    have asked : requestOption now = some {
        g0 := incGpsTime (eph 0 sv).toc 0.0
        timeoverwrite := true } := by
      rw [requestOption, converted]
      rfl
    have near := abs_incGpsTime_sub_le (eph 0 sv).toc 0.0
    rw [show (eph 0 sv).toc.total + 0.0 = (eph 0 sv).toc.total by norm_num] at near
    refine ⟨_, realTimeStart_of_firstValid found asked, rfl, ⟨0, ?_⟩, le_rfl, zero_lt_one, sv,
      inside, flag, near.trans (by norm_num)⟩
    intro i positive below sv' inside' valid
    exact ⟨valid, (add_zero _).symm, (add_zero _).symm⟩

/-- Half past two on the sixth of May 2018. -/
def halfPastTwo : DateTime where
  y := 2018
  m := 5
  d := 6
  hh := 2
  mm := 30
  sec := 0

/-- Satellite 1 has been received, with a clock time of two o'clock of this day. -/
def receivedOne : Int → Nat → Ephem ℚ :=
  fun i sv => { Nav.sampleEphem with vflg := if i = 0 ∧ sv = 0 then 1 else 0 }

def unassigned : Unassigned where
  sec := 0
  gmin := { week := 0, sec := 0 }
  ionoutc := Nav.sampleIono

/-- **The requested time is not the start**: at half past two, the run starts at two o'clock. -/
theorem request_ignored : ¬ StartsAsRequested halfPastTwo unassigned receivedOne := by
  intro starts
  obtain ⟨sv, found, requested⟩ := time_of_startsAsRequested starts
  have first : firstValid (receivedOne 0) = some 0 := by decide
  rw [first] at found
  cases found
  have now : date2gps halfPastTwo = some { week := 2000, sec := 9000 } := by decide +kernel
  rw [now] at requested
  have start := @incGpsTime_total (receivedOne 0 0).toc 0.0 0 (by norm_num)
    ⟨1209607200000, by norm_num [receivedOne, Nav.sampleEphem, GpsTime.total]⟩
  rw [← Option.some.inj requested] at start
  norm_num [receivedOne, Nav.sampleEphem, GpsTime.total] at start

end Navisim.Loop
